/-
# Sockets

`::recv` and `::send` as the code sees them: what the kernel answers to the
next calls is a script.  An answer to `recv` is a non-empty run of bytes, the
end of the stream (`rc == 0`), `EINTR`, `EAGAIN`/`EWOULDBLOCK`, or another
`errno`, of which only the text of `strerror` is ever used.  `recv` hands out at
most as many bytes as the caller has room for and keeps the others for the next
call; past the end of the script there is nothing to read.  An answer to `send`
is a number of bytes taken, cut down to what was offered, or one of the errors;
past the end of the script everything offered is taken.
-/

import MiniRpc.Common.RpcError

namespace MiniRpc

/-- What one `::recv` answers. -/
inductive RecvResult where
  | data (b : UInt8) (bs : Bytes)
  | eof
  | interrupted
  | wouldBlock
  | error (what : String)
  deriving DecidableEq, Repr

/-- The answers to the next calls of `::recv`. -/
abbrev Inbox := List RecvResult

/-- The bytes of a non-empty buffer put back in front of the script. -/
def Inbox.unread (bs : Bytes) (rest : Inbox) : Inbox :=
  match bs with
  | [] => rest
  | b :: bs => .data b bs :: rest

/-- `::recv(fd, buf, n, flags)` with `0 < n`. -/
def recv (n : ℕ) : Inbox → RecvResult × Inbox
  | [] => (.wouldBlock, [])
  | .data b bs :: rest => (.data b (bs.take (n - 1)), Inbox.unread (bs.drop (n - 1)) rest)
  | r :: rest => (r, rest)

/-- The bytes that calls of `recv` get before anything but data and `EINTR`. -/
def Inbox.arrived : Inbox → Bytes
  | .data b bs :: rest => b :: bs ++ Inbox.arrived rest
  | .interrupted :: rest => Inbox.arrived rest
  | _ => []

/-- The bytes of a list of read events, each with its own answers. -/
def received (events : List Inbox) : Bytes := (events.map Inbox.arrived).flatten

/-- The answer that ends a series of `recv` calls: the first that is neither
data nor `EINTR`. -/
def Inbox.ending : Inbox → RecvResult
  | .data _ _ :: rest => Inbox.ending rest
  | .interrupted :: rest => Inbox.ending rest
  | [] => .wouldBlock
  | r :: _ => r

/-- What is left of the script after that answer. -/
def Inbox.afterEnding : Inbox → Inbox
  | .data _ _ :: rest => Inbox.afterEnding rest
  | .interrupted :: rest => Inbox.afterEnding rest
  | [] => []
  | _ :: rest => rest

/-- Only data and `EINTR`: the script of a stream that neither ends nor fails. -/
def Inbox.Flowing (i : Inbox) : Prop :=
  ∀ r ∈ i, r = .interrupted ∨ ∃ b bs, r = .data b bs

@[simp] theorem Inbox.arrived_unread (bs : Bytes) (rest : Inbox) :
    Inbox.arrived (Inbox.unread bs rest) = bs ++ Inbox.arrived rest := by
  cases bs <;> simp [Inbox.unread, Inbox.arrived]

@[simp] theorem Inbox.ending_unread (bs : Bytes) (rest : Inbox) :
    Inbox.ending (Inbox.unread bs rest) = Inbox.ending rest := by
  cases bs <;> simp [Inbox.unread, Inbox.ending]

@[simp] theorem Inbox.afterEnding_unread (bs : Bytes) (rest : Inbox) :
    Inbox.afterEnding (Inbox.unread bs rest) = Inbox.afterEnding rest := by
  cases bs <;> simp [Inbox.unread, Inbox.afterEnding]

theorem Inbox.Flowing.ending {i : Inbox} (h : i.Flowing) : i.ending = .wouldBlock := by
  induction i with
  | nil => rfl
  | cons r rest ih =>
    have hrest : Inbox.ending rest = .wouldBlock := ih fun x hx => h x (by simp [hx])
    rcases h r (by simp) with rfl | ⟨b, bs, rfl⟩ <;> exact hrest

/-- What `recv` answers on such a script: bytes in front of the rest of it, or
`EINTR`, or nothing at its end. -/
theorem Inbox.Flowing.recv_cases {i : Inbox} (h : i.Flowing) (n : ℕ) :
    (∃ b bs i', recv n i = (.data b bs, i') ∧ Inbox.Flowing i' ∧ bs.length ≤ n - 1 ∧
        i.arrived = b :: bs ++ Inbox.arrived i') ∨
      (∃ i', recv n i = (.interrupted, i') ∧ Inbox.Flowing i' ∧ i.arrived = Inbox.arrived i') ∨
      i = [] := by
  match i, h with
  | [], _ => exact Or.inr (Or.inr rfl)
  | r :: rest, h =>
    have hrest : Inbox.Flowing rest := fun x hx => h x (by simp [hx])
    rcases h r (by simp) with rfl | ⟨b, bs, rfl⟩
    · exact Or.inr (Or.inl ⟨rest, rfl, hrest, rfl⟩)
    · refine Or.inl ⟨b, bs.take (n - 1), Inbox.unread (bs.drop (n - 1)) rest, rfl, ?_, ?_, ?_⟩
      · intro x hx
        cases hd : bs.drop (n - 1) with
        | nil => rw [hd] at hx; exact hrest x hx
        | cons c cs =>
          rw [hd] at hx
          rcases List.mem_cons.1 hx with rfl | hx
          · exact Or.inr ⟨c, cs, rfl⟩
          · exact hrest x hx
      · rw [List.length_take]
        exact Nat.min_le_left _ _
      · simp [Inbox.arrived, ← List.append_assoc]

/-- What `recv` answers on any script: bytes, `EINTR`, or the answer that ends
the series. -/
theorem Inbox.recv_ending (n : ℕ) (i : Inbox) :
    (∃ b bs i', recv n i = (.data b bs, i') ∧ i.arrived = b :: bs ++ Inbox.arrived i' ∧
        i.ending = Inbox.ending i' ∧ i.afterEnding = Inbox.afterEnding i') ∨
      (∃ i', recv n i = (.interrupted, i') ∧ i.arrived = Inbox.arrived i' ∧
        i.ending = Inbox.ending i' ∧ i.afterEnding = Inbox.afterEnding i') ∨
      (recv n i = (i.ending, i.afterEnding) ∧ i.arrived = [] ∧
        (i.ending = .eof ∨ i.ending = .wouldBlock ∨ ∃ what, i.ending = .error what)) := by
  match i with
  | [] => exact Or.inr (Or.inr ⟨rfl, rfl, Or.inr (Or.inl rfl)⟩)
  | .data b bs :: rest =>
    refine Or.inl ⟨b, bs.take (n - 1), Inbox.unread (bs.drop (n - 1)) rest, rfl, ?_, ?_, ?_⟩ <;>
      simp [Inbox.arrived, Inbox.ending, Inbox.afterEnding, ← List.append_assoc]
  | .interrupted :: rest => exact Or.inr (Or.inl ⟨rest, rfl, rfl, rfl, rfl⟩)
  | .eof :: rest => exact Or.inr (Or.inr ⟨rfl, rfl, Or.inl rfl⟩)
  | .wouldBlock :: rest => exact Or.inr (Or.inr ⟨rfl, rfl, Or.inr (Or.inl rfl)⟩)
  | .error what :: rest => exact Or.inr (Or.inr ⟨rfl, rfl, Or.inr (Or.inr ⟨what, rfl⟩)⟩)

/-- A bound on the calls of `recv` that a script can answer. -/
def Inbox.weight : Inbox → ℕ
  | .data _ bs :: rest => bs.length + 2 + Inbox.weight rest
  | _ :: rest => 1 + Inbox.weight rest
  | [] => 0

theorem Inbox.weight_unread (bs : Bytes) (rest : Inbox) :
    Inbox.weight (Inbox.unread bs rest) ≤ bs.length + 1 + Inbox.weight rest := by
  cases bs <;> simp [Inbox.unread, Inbox.weight]

/-- A call that gets bytes shortens the script. -/
theorem Inbox.weight_recv_data {n : ℕ} {i i' : Inbox} {b : UInt8} {bs : Bytes}
    (h : recv n i = (.data b bs, i')) : Inbox.weight i' < Inbox.weight i := by
  match i, h with
  | .data c cs :: rest, h =>
    obtain ⟨-, rfl⟩ := Prod.mk.inj h
    have := Inbox.weight_unread (cs.drop (n - 1)) rest
    simp only [List.length_drop] at this
    simp only [Inbox.weight]
    omega

theorem Inbox.weight_recv_interrupted {n : ℕ} {i i' : Inbox} (h : recv n i = (.interrupted, i')) :
    Inbox.weight i' < Inbox.weight i := by
  match i, h with
  | .interrupted :: rest, h =>
    obtain ⟨-, rfl⟩ := Prod.mk.inj h
    simp [Inbox.weight]

/-- What one `::send` answers: a number of bytes taken, or an error. -/
inductive SendResult where
  | sent (n : ℕ)
  | interrupted
  | wouldBlock
  | error (what : String)
  deriving DecidableEq, Repr

/-- The answers to the next calls of `::send`. -/
abbrev Outbox := List SendResult

/-- `::send(fd, buf, n, MSG_NOSIGNAL)`: a count is at most `n`. -/
def send (n : ℕ) : Outbox → SendResult × Outbox
  | [] => (.sent n, [])
  | .sent k :: rest => (.sent (min k n), rest)
  | r :: rest => (r, rest)

theorem Outbox.length_send_interrupted {n : ℕ} {o o' : Outbox}
    (h : send n o = (.interrupted, o')) : o'.length < o.length := by
  match o, h with
  | .interrupted :: rest, h =>
    obtain ⟨-, rfl⟩ := Prod.mk.inj h
    simp

/-- A call that takes bytes takes at most what is offered; it shortens the
script, or the script is at its end and everything is taken. -/
theorem Outbox.send_sent {n k : ℕ} {o o' : Outbox} (h : send n o = (.sent k, o')) :
    k ≤ n ∧ (o'.length < o.length ∨ o'.length = o.length ∧ k = n) := by
  match o, h with
  | [], h =>
    obtain ⟨hk, rfl⟩ := Prod.mk.inj h
    obtain rfl := SendResult.sent.inj hk
    exact ⟨Nat.le_refl _, Or.inr ⟨rfl, rfl⟩⟩
  | .sent m :: rest, h =>
    obtain ⟨hk, rfl⟩ := Prod.mk.inj h
    obtain rfl := SendResult.sent.inj hk
    exact ⟨Nat.min_le_right _ _, Or.inl (by simp)⟩

theorem Outbox.length_send_sent {buf : Bytes} {o o' : Outbox} {k : ℕ}
    (h : send buf.length o = (.sent k, o')) (hb : buf ≠ []) :
    o'.length + (buf.drop k).length < o.length + buf.length := by
  have hpos := List.length_pos_iff.2 hb
  obtain ⟨hk, hlt | ⟨heq, hkn⟩⟩ := Outbox.send_sent h <;> rw [List.length_drop] <;> omega

/-- The script after `n` bytes were taken, or `none` if `send` fails before. -/
def Outbox.passes : ℕ → Outbox → Option Outbox
  | 0, o => some o
  | _ + 1, [] => some []
  | n + 1, .sent k :: rest => Outbox.passes (n + 1 - k) rest
  | n + 1, .interrupted :: rest => Outbox.passes (n + 1) rest
  | _ + 1, _ => none

theorem Outbox.passes_nil (n : ℕ) : Outbox.passes n [] = some [] := by
  cases n <;> rfl

/-- `send` fails before it has taken a byte. -/
def Outbox.refuses : Outbox → Bool
  | .sent 0 :: rest => Outbox.refuses rest
  | .interrupted :: rest => Outbox.refuses rest
  | .wouldBlock :: _ => true
  | .error _ :: _ => true
  | _ => false

/-- Partial sends of at least one byte, and `EINTR`. -/
def Outbox.Flowing (o : Outbox) : Prop :=
  ∀ r ∈ o, r = .interrupted ∨ ∃ n, 0 < n ∧ r = .sent n

/-- What `send` answers on such a script. -/
theorem Outbox.Flowing.send_cases {o : Outbox} (h : o.Flowing) (n : ℕ) :
    (∃ k o', send n o = (.sent k, o') ∧ Outbox.Flowing o') ∨
      (∃ o', send n o = (.interrupted, o') ∧ Outbox.Flowing o') := by
  match o, h with
  | [], h => exact Or.inl ⟨n, [], rfl, h⟩
  | r :: rest, h =>
    have hrest : Outbox.Flowing rest := fun x hx => h x (by simp [hx])
    rcases h r (by simp) with rfl | ⟨k, -, rfl⟩
    · exact Or.inr ⟨rest, rfl, hrest⟩
    · exact Or.inl ⟨min k n, rest, rfl, hrest⟩

end MiniRpc
