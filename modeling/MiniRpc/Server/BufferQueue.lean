/-
# The read buffer is a queue of bytes

`Connection::Buffer` once more (`src/server/connection.h`, `src/server/connection.cpp`),
this time as its members alone: `BufferData` promises nothing of the two indices, and
`compact` and `append` move the bytes one by one through the vector.  Every vector is
shorter than `2^63`, so no sum of sizes wraps.

Every state that the calls reach from a new buffer is one of `MiniRpc.Server.Buffer`,
whose indices stay in order by its type (`call_data`), and what is between the indices
changes as a queue of bytes does.  `buffer_is_queue` says both for every sequence of calls.
-/

import MiniRpc.Library.Memory
import MiniRpc.Library.Transition
import MiniRpc.Server.Buffer

namespace MiniRpc
namespace Server

/-- The members of `Connection::Buffer`. -/
structure BufferData where
  storage : Bytes
  readIndex : ℕ := 0
  writeIndex : ℕ := 0
  deriving DecidableEq, Repr

namespace BufferData

/-- The constructor. -/
def new (initialCapacity : ℕ) : BufferData where
  storage := List.replicate initialCapacity 0

/-- `readable_bytes`. -/
def readableBytes (b : BufferData) : ℕ := b.writeIndex - b.readIndex

/-- `writable_bytes`. -/
def writableBytes (b : BufferData) : ℕ := b.storage.length - b.writeIndex

/-- `peek_string_view`: the bytes of `[read_index_, write_index_)`. -/
def peek (b : BufferData) : Bytes := (b.storage.drop b.readIndex).take b.readableBytes

/-- `retrieve`. -/
def retrieve (b : BufferData) (n : ℕ) : BufferData :=
  let b := { b with readIndex := b.readIndex + n }
  if b.readIndex = b.writeIndex then { b with readIndex := 0, writeIndex := 0 } else b

/-- `compact`; `memmove` goes down, over itself. -/
def compact (b : BufferData) : BufferData :=
  if b.readIndex = 0 then b
  else
    let readable := b.writeIndex - b.readIndex
    { storage := if 0 < readable then Memory.copyUp b.storage 0 b.readIndex readable else b.storage
      writeIndex := readable
      readIndex := 0 }

/-- `buffer_.resize(n)`. -/
def resize (b : BufferData) (n : ℕ) : BufferData :=
  { b with storage := b.storage.take n ++ List.replicate (n - b.storage.length) 0 }

/-- `ensure_writable`. -/
def ensureWritable (b : BufferData) (len : ℕ) : BufferData :=
  if len ≤ b.writableBytes then b
  else
    let b := b.compact
    if b.writableBytes < len then b.resize (b.writeIndex + len) else b

/-- `append`. -/
def append (b : BufferData) (data : Bytes) : BufferData :=
  let b := b.ensureWritable data.length
  { b with
    storage := Memory.store b.storage b.writeIndex data
    writeIndex := b.writeIndex + data.length }

/-- The indices are in order and inside the vector. -/
structure InBounds (b : BufferData) : Prop where
  read_le_write : b.readIndex ≤ b.writeIndex
  write_le_size : b.writeIndex ≤ b.storage.length

end BufferData

/-- A call of the buffer. -/
inductive BufferCall where
  | append (data : Bytes)
  | retrieve (n : ℕ)
  deriving DecidableEq, Repr

/-- What a call does; nobody may retrieve more bytes than there are. -/
def BufferData.call (b : BufferData) : BufferCall → Option BufferData
  | .append data => some (b.append data)
  | .retrieve n => if n ≤ b.readableBytes then some (b.retrieve n) else none

/-- What a call does to a queue of bytes. -/
def queueCall (queue : Bytes) : BufferCall → Option Bytes
  | .append data => some (queue ++ data)
  | .retrieve n => if n ≤ queue.length then some (queue.drop n) else none

/-! ### The members of a buffer -/

namespace Buffer

/-- The members. -/
def data (b : Buffer) : BufferData where
  storage := b.storage
  readIndex := b.readIndex
  writeIndex := b.writeIndex

theorem data_inBounds (b : Buffer) : b.data.InBounds where
  read_le_write := b.read_le_write
  write_le_size := b.write_le_size

@[simp] theorem readableBytes_data (b : Buffer) : b.data.readableBytes = b.readableBytes := rfl

@[simp] theorem peek_data (b : Buffer) : b.data.peek = b.readable := rfl

theorem data_retrieve (b : Buffer) (n : ℕ) (h : n ≤ b.readableBytes) :
    (b.retrieve n h).data = b.data.retrieve n := by
  by_cases hall : b.readIndex + n = b.writeIndex
  · rw [retrieve, if_pos hall]
    exact (if_pos hall).symm
  · rw [retrieve, if_neg hall]
    exact (if_neg hall).symm

/-- The bytes that `compact` moves one by one are the readable ones, and those behind them
stay. -/
theorem copyUp_storage (b : Buffer) :
    Memory.copyUp b.storage 0 b.readIndex b.readableBytes =
      b.readable ++ b.storage.drop b.readableBytes := by
  have h₁ := b.read_le_write
  have h₂ := b.write_le_size
  have hlen := b.length_readable
  have hfit : b.readIndex + b.readableBytes ≤ b.storage.length := by
    unfold readableBytes
    omega
  rw [Memory.copyUp_eq_store (Nat.zero_le _) hfit]
  show Memory.store b.storage 0 b.readable = _
  rw [Memory.store_eq (by omega), hlen]
  simp

theorem data_compact (b : Buffer) : b.compact.data = b.data.compact := by
  by_cases hfront : b.readIndex = 0
  · rw [compact, if_pos hfront]
    exact (if_pos hfront).symm
  · have hmoved : (if 0 < b.readableBytes then
          Memory.copyUp b.storage 0 b.readIndex b.readableBytes else b.storage) =
        b.readable ++ b.storage.drop b.readableBytes := by
      split_ifs with hpos
      · exact b.copyUp_storage
      · have hnone : b.readableBytes = 0 := by omega
        have hnil : b.readable = [] := List.length_eq_zero_iff.1 (b.length_readable.trans hnone)
        rw [hnil, hnone, List.drop_zero, List.nil_append]
    rw [compact, if_neg hfront]
    symm
    calc b.data.compact
        = ⟨if 0 < b.readableBytes then
            Memory.copyUp b.storage 0 b.readIndex b.readableBytes else b.storage,
          0, b.readableBytes⟩ := if_neg hfront
      _ = ⟨b.readable ++ b.storage.drop b.readableBytes, 0, b.readableBytes⟩ := by rw [hmoved]

theorem data_resize (b : Buffer) (n : ℕ) (h : b.writeIndex ≤ n) :
    (b.resize n h).data = b.data.resize n := rfl

theorem data_ensureWritable (b : Buffer) (len : ℕ) :
    (b.ensureWritable len).data = b.data.ensureWritable len := by
  unfold ensureWritable BufferData.ensureWritable
  rw [← data_compact]
  show _ = if len ≤ b.writableBytes then b.data
    else if b.compact.writableBytes < len then
      b.compact.data.resize (b.compact.writeIndex + len) else b.compact.data
  split_ifs
  · rfl
  · exact data_resize b.compact _ _
  · rfl

/-- **`append`, down to the bytes**: room is made, and the data is written into it. -/
theorem data_append (b : Buffer) (data : Bytes) : (b.append data).data = b.data.append data := by
  have hroom := b.le_writableBytes_ensureWritable data.length
  have hsize := (b.ensureWritable data.length).write_le_size
  have hfit : (b.ensureWritable data.length).writeIndex + data.length ≤
      (b.ensureWritable data.length).storage.length := by
    unfold writableBytes at hroom
    omega
  rw [BufferData.append, ← data_ensureWritable]
  show _ = (⟨Memory.store (b.ensureWritable data.length).storage
    (b.ensureWritable data.length).writeIndex data, _, _⟩ : BufferData)
  rw [Memory.store_eq hfit]
  rfl

end Buffer

/-! ### Sequences of calls -/

/-- They are the members of a buffer. -/
def BufferData.IsBuffer (b : BufferData) : Prop := ∃ c : Buffer, b = c.data

/-- **A call keeps to buffers**: it leads from the members of a buffer to those of a buffer,
and what is readable in it is what the call leaves of the queue. -/
theorem call_data (b : Buffer) (call : BufferCall) :
    (∀ b', b.data.call call = some b' → b'.IsBuffer) ∧
      (b.data.call call).map BufferData.peek = queueCall b.readable call := by
  cases call with
  | append data =>
    rw [BufferData.call, ← Buffer.data_append]
    constructor
    · rintro _ ⟨⟩
      exact ⟨_, rfl⟩
    · rw [Option.map_some, Buffer.peek_data, Buffer.readable_append, queueCall]
  | retrieve n =>
    rw [BufferData.call, queueCall, Buffer.length_readable, Buffer.readableBytes_data]
    split_ifs with h
    · rw [← Buffer.data_retrieve b n h]
      constructor
      · rintro _ ⟨⟩
        exact ⟨_, rfl⟩
      · rw [Option.map_some, Buffer.peek_data, Buffer.readable_retrieve]
    · constructor
      · rintro _ ⟨⟩
      · rfl

open Transition in
/-- **The buffer is a queue of bytes.**  After any sequence of calls from a new buffer of any
capacity, the indices are in order and inside the vector, and the bytes between them are those
of a queue that the same calls were made to; a call that the queue has too few bytes for is one
that the buffer has too few for. -/
theorem buffer_is_queue (initialCapacity : ℕ) (calls : List BufferCall) :
    (∀ b, exec BufferData.call (.new initialCapacity) calls = some b → b.InBounds) ∧
      (exec BufferData.call (.new initialCapacity) calls).map BufferData.peek =
        exec queueCall [] calls := by
  have hnew : (BufferData.new initialCapacity).IsBuffer := ⟨.new initialCapacity, rfl⟩
  have hcall : ∀ (b : BufferData) call b', b.IsBuffer → b.call call = some b' → b'.IsBuffer := by
    rintro _ call b' ⟨c, rfl⟩ h
    exact (call_data c call).1 b' h
  constructor
  · intro b hb
    obtain ⟨c, rfl⟩ := exec_invariant hnew hcall hb
    exact c.data_inBounds
  · refine exec_map hcall ?_ hnew calls
    rintro _ call ⟨c, rfl⟩
    exact (call_data c call).2

/-- Moved over itself, and then made longer. -/
example : Transition.exec BufferData.call (.new 4)
    [.append [1, 2, 3, 4], .retrieve 1, .append [5], .append [6, 7]] =
      some ⟨[2, 3, 4, 5, 6, 7], 0, 6⟩ := by decide

end Server
end MiniRpc
