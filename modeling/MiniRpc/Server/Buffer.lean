/-
# The read buffer of a connection

`Connection::Buffer` (`src/server/connection.h`, `src/server/connection.cpp`): a
vector with a read index and a write index.  Consuming data only moves the read
index; appending moves the unread bytes to the front when the tail is too short
(`compact`) and grows the vector when that is not enough.

The indices stay in order and inside the vector, which is a field of the
structure: `retrieve` takes the proof that the caller does not consume more than
there is, as `TryParseRequests` checks before each call.  `readable` is the byte
string between the two indices, and the lemmas say that it is a queue of bytes:
`append` puts bytes at its end and `retrieve` drops bytes from its front.
-/

import MiniRpc.Common.RpcError
import Mathlib.Tactic.Common

namespace MiniRpc
namespace Server

/-- `Connection::Buffer`. -/
structure Buffer where
  storage : Bytes
  readIndex : ℕ
  writeIndex : ℕ
  read_le_write : readIndex ≤ writeIndex
  write_le_size : writeIndex ≤ storage.length

namespace Buffer

/-- The constructor: a vector of the initial capacity, nothing in it. -/
def new (initialCapacity : ℕ) : Buffer :=
  ⟨List.replicate initialCapacity 0, 0, 0, Nat.le_refl _, Nat.zero_le _⟩

/-- `readable_bytes`. -/
def readableBytes (b : Buffer) : ℕ := b.writeIndex - b.readIndex

/-- `writable_bytes`. -/
def writableBytes (b : Buffer) : ℕ := b.storage.length - b.writeIndex

/-- `peek_string_view`: the bytes between the indices. -/
def readable (b : Buffer) : Bytes := (b.storage.drop b.readIndex).take b.readableBytes

theorem length_readable (b : Buffer) : b.readable.length = b.readableBytes := by
  have := b.read_le_write
  have := b.write_le_size
  rw [readable, List.length_take, List.length_drop]
  unfold readableBytes
  omega

/-- `retrieve`: consume `n` bytes, and start over at the front once all are. -/
def retrieve (b : Buffer) (n : ℕ) (h : n ≤ b.readableBytes) : Buffer :=
  if b.readIndex + n = b.writeIndex then
    ⟨b.storage, 0, 0, Nat.le_refl _, Nat.zero_le _⟩
  else
    ⟨b.storage, b.readIndex + n, b.writeIndex, by
      have := b.read_le_write
      unfold readableBytes at h
      omega, b.write_le_size⟩

/-- `compact`: move the unread bytes to the front (`memmove`). -/
def compact (b : Buffer) : Buffer :=
  if b.readIndex = 0 then b
  else
    ⟨b.readable ++ b.storage.drop b.readableBytes, 0, b.readableBytes, Nat.zero_le _, by
      rw [List.length_append, length_readable]
      exact Nat.le_add_right _ _⟩

/-- `buffer_.resize(n)` for a size that keeps the bytes in use. -/
def resize (b : Buffer) (n : ℕ) (h : b.writeIndex ≤ n) : Buffer :=
  ⟨b.storage.take n ++ List.replicate (n - b.storage.length) 0, b.readIndex, b.writeIndex,
    b.read_le_write, by
      have := b.write_le_size
      simp only [List.length_append, List.length_take, List.length_replicate]
      omega⟩

/-- `ensure_writable`: room for `len` bytes behind the write index. -/
def ensureWritable (b : Buffer) (len : ℕ) : Buffer :=
  if len ≤ b.writableBytes then b
  else if b.compact.writableBytes < len then
    b.compact.resize (b.compact.writeIndex + len) (Nat.le_add_right _ _)
  else b.compact

theorem writableBytes_resize (b : Buffer) (len : ℕ) :
    (b.resize (b.writeIndex + len) (Nat.le_add_right _ _)).writableBytes = len := by
  have := b.write_le_size
  simp only [writableBytes, resize, List.length_append, List.length_take, List.length_replicate]
  omega

theorem le_writableBytes_ensureWritable (b : Buffer) (len : ℕ) :
    len ≤ (b.ensureWritable len).writableBytes := by
  unfold ensureWritable
  split_ifs with h₁ h₂
  · exact h₁
  · exact Nat.le_of_eq (writableBytes_resize _ _).symm
  · omega

/-- `memcpy` of the data behind the write index, which moves on; the data fits,
so no byte past the vector is touched. -/
def write (b : Buffer) (data : Bytes) (_fits : data.length ≤ b.writableBytes) : Buffer :=
  ⟨b.storage.take b.writeIndex ++ data ++ b.storage.drop (b.writeIndex + data.length),
    b.readIndex, b.writeIndex + data.length, Nat.le_add_right_of_le b.read_le_write, by
      have := b.write_le_size
      simp only [List.length_append, List.length_take, List.length_drop]
      omega⟩

/-- `append`. -/
def append (b : Buffer) (data : Bytes) : Buffer :=
  (b.ensureWritable data.length).write data (b.le_writableBytes_ensureWritable _)

@[simp] theorem readable_new (n : ℕ) : (new n).readable = [] := rfl

/-- **`retrieve` drops bytes from the front.** -/
@[simp] theorem readable_retrieve (b : Buffer) (n : ℕ) (h : n ≤ b.readableBytes) :
    (b.retrieve n h).readable = b.readable.drop n := by
  unfold retrieve
  split_ifs with he
  · rw [List.drop_eq_nil_of_le]
    · rfl
    · rw [length_readable, readableBytes]
      omega
  · simp only [readable, readableBytes, List.drop_take, List.drop_drop]
    congr 1
    omega

@[simp] theorem readable_compact (b : Buffer) : b.compact.readable = b.readable := by
  unfold compact
  split_ifs with h0
  · rfl
  · change (List.drop 0 (b.readable ++ _)).take (b.readableBytes - 0) = b.readable
    rw [List.drop_zero, Nat.sub_zero, ← length_readable, List.take_left]

@[simp] theorem readable_resize (b : Buffer) (n : ℕ) (h : b.writeIndex ≤ n) :
    (b.resize n h).readable = b.readable := by
  have h₁ := b.read_le_write
  have h₂ := b.write_le_size
  simp only [readable, resize, readableBytes]
  rw [List.drop_append_of_le_length (by rw [List.length_take]; omega),
    List.take_append_of_le_length (by rw [List.length_drop, List.length_take]; omega),
    List.drop_take, List.take_take]
  congr 1
  omega

@[simp] theorem readable_ensureWritable (b : Buffer) (len : ℕ) :
    (b.ensureWritable len).readable = b.readable := by
  unfold ensureWritable
  split_ifs <;> simp

theorem readable_write (b : Buffer) (data : Bytes) (h : data.length ≤ b.writableBytes) :
    (b.write data h).readable = b.readable ++ data := by
  have h₁ := b.read_le_write
  have h₂ := b.write_le_size
  simp only [readable, write, readableBytes]
  have htake : (b.storage.take b.writeIndex ++ data).length = b.writeIndex + data.length := by
    rw [List.length_append, List.length_take]
    omega
  rw [List.drop_append_of_le_length (by omega),
    List.take_append_of_le_length (by rw [List.length_drop]; omega),
    List.take_of_length_le (by rw [List.length_drop]; omega),
    List.drop_append_of_le_length (by rw [List.length_take]; omega), List.drop_take]

/-- **`append` puts bytes at the end**, across compaction and growth. -/
@[simp] theorem readable_append (b : Buffer) (data : Bytes) :
    (b.append data).readable = b.readable ++ data := by
  rw [append, readable_write, readable_ensureWritable]

end Buffer
end Server
end MiniRpc
