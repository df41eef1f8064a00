/-
# The ring queue

`MpscRingQueue<T, Capacity>` of `src/common/mpsc_ring_queue.h`, with any number
of producers in `TryPush` and one consumer in `PopBatch`.  Each load, store and
compare-and-exchange is a step of its own, and so are the construction of an
element in a slot and the move out of it; a list of events is an interleaving.

`std::size_t` is a number below `2 ^ 64`, and the two `intptr_t` differences are
the 64-bit difference read as a signed number.  A slot's storage is empty or
holds an element.  The run keeps two lists beside the code's own state: the
values whose push won positions 0, 1, 2, ... and what the consumer moved out.
-/

import MiniRpc.Library.Transition
import Mathlib.Algebra.Group.Nat.Defs
import Mathlib.Data.Nat.ModEq
import Mathlib.Logic.Function.Basic

namespace MiniRpc
namespace Common

open Transition

/-- The template parameter: a power of two, at least 2, that a `std::size_t` holds. -/
structure Capacity where
  exponent : ℕ
  one_le : 1 ≤ exponent
  lt : exponent < 64

/-- Its value. -/
def Capacity.size (cap : Capacity) : ℕ := 2 ^ cap.exponent

/-- A slot; the storage is raw memory until an element is constructed there. -/
structure Slot (α : Type*) where
  sequence : ℕ
  storage : Option α

/-- What a producer does next in `TryPush`. -/
inductive Producer (α : Type*) where
  | idle
  /-- `enqueue_pos_.load()`. -/
  | loadPos (value : α)
  /-- `slot.sequence.load()` for the position that was read. -/
  | loadSequence (value : α) (pos : ℕ)
  /-- `compare_exchange_weak`, after a difference of 0. -/
  | exchange (value : α) (pos : ℕ)
  | construct (value : α) (pos : ℕ)
  /-- `slot.sequence.store(pos + 1)`. -/
  | publish (pos : ℕ)

/-- The producer has won `pos` and not yet published it. -/
def Producer.holds {α : Type*} (p : Producer α) (pos : ℕ) : Prop :=
  (∃ value, p = .construct value pos) ∨ p = .publish pos

/-- What the consumer does next in `PopBatch`, with the room left in `out`. -/
inductive Consumer where
  | idle
  | load (room : ℕ)
  | move (room : ℕ)
  /-- `slot.sequence.store(dequeue_pos_ + Capacity)` and `++dequeue_pos_`. -/
  | release (room : ℕ)
  deriving DecidableEq, Repr

/-- The queue with its threads. -/
structure RingQueue (α : Type*) where
  enqueuePos : ℕ := 0
  dequeuePos : ℕ := 0
  slots : ℕ → Slot α := fun i => ⟨i, none⟩
  producers : ℕ → Producer α := fun _ => .idle
  consumer : Consumer := .idle
  /-- The values whose push won a position, in the order of the positions. -/
  won : List α := []
  /-- What was moved out of the slots. -/
  popped : List (Option α) := []

namespace RingQueue

variable {α : Type*}

/-- One step of one thread. -/
inductive Event (α : Type*) where
  /-- A producer calls `TryPush`. -/
  | push (t : ℕ) (value : α)
  /-- A producer goes on; the exchange may fail spuriously. -/
  | produce (t : ℕ) (spurious : Bool)
  /-- The consumer calls `PopBatch` with a span of this size. -/
  | popBatch (room : ℕ)
  | consume

/-- `seq - pos` as `std::intptr_t`. -/
def diff (seq pos : ℕ) : ℤ := Int.bmod ((seq : ℤ) - pos) (2 ^ 64)

/-- `pos & kMask`. -/
def index (cap : Capacity) (pos : ℕ) : ℕ := pos &&& (cap.size - 1)

/-- `slots_[pos & kMask]`. -/
def slot (q : RingQueue α) (cap : Capacity) (pos : ℕ) : Slot α := q.slots (index cap pos)

/-- The slot of a position is changed. -/
def setSlot (q : RingQueue α) (cap : Capacity) (pos : ℕ) (slot : Slot α) : RingQueue α :=
  { q with slots := Function.update q.slots (index cap pos) slot }

/-- The producer `t` is now at `p`. -/
def goto (q : RingQueue α) (t : ℕ) (p : Producer α) : RingQueue α :=
  { q with producers := Function.update q.producers t p }

/-- A producer goes on in `TryPush`. -/
def produce (cap : Capacity) (q : RingQueue α) (t : ℕ) (spurious : Bool) : Option (RingQueue α) :=
  match q.producers t with
  | .idle => none
  | .loadPos value => some (q.goto t (.loadSequence value q.enqueuePos))
  | .loadSequence value pos =>
    let d := diff (q.slot cap pos).sequence pos
    if d = 0 then some (q.goto t (.exchange value pos))
    else if d < 0 then some (q.goto t .idle)
    else some (q.goto t (.loadPos value))
  | .exchange value pos =>
    if q.enqueuePos = pos ∧ spurious = false then
      some (goto { q with
        enqueuePos := (pos + 1) % 2 ^ 64
        won := q.won ++ [value] } t (.construct value pos))
    else some (q.goto t (.loadSequence value q.enqueuePos))
  | .construct value pos =>
    some ((q.setSlot cap pos ⟨(q.slot cap pos).sequence, some value⟩).goto t (.publish pos))
  | .publish pos =>
    some ((q.setSlot cap pos ⟨(pos + 1) % 2 ^ 64, (q.slot cap pos).storage⟩).goto t .idle)

/-- The consumer goes on in `PopBatch`: the loop, and `TryPopOne`. -/
def consume (cap : Capacity) (q : RingQueue α) : Option (RingQueue α) :=
  match q.consumer with
  | .idle => none
  | .load 0 => some { q with consumer := .idle }
  | .load (room + 1) =>
    if diff (q.slot cap q.dequeuePos).sequence ((q.dequeuePos + 1) % 2 ^ 64) < 0 then
      some { q with consumer := .idle }
    else some { q with consumer := .move room }
  | .move room =>
    let slot := q.slot cap q.dequeuePos
    some { q.setSlot cap q.dequeuePos ⟨slot.sequence, none⟩ with
      popped := q.popped ++ [slot.storage]
      consumer := .release room }
  | .release room =>
    let slot := q.slot cap q.dequeuePos
    some { q.setSlot cap q.dequeuePos ⟨(q.dequeuePos + cap.size) % 2 ^ 64, slot.storage⟩ with
      dequeuePos := (q.dequeuePos + 1) % 2 ^ 64
      consumer := .load room }

/-- One step, `none` if it cannot happen in the state. -/
def step (cap : Capacity) (q : RingQueue α) : Event α → Option (RingQueue α)
  | .push t value =>
    match q.producers t with
    | .idle => some (q.goto t (.loadPos value))
    | _ => none
  | .produce t spurious => q.produce cap t spurious
  | .popBatch room => if q.consumer = .idle then some { q with consumer := .load room } else none
  | .consume => q.consume cap

/-- `Empty()`, called by the consumer. -/
def isEmpty (cap : Capacity) (q : RingQueue α) : Bool :=
  diff (q.slot cap q.dequeuePos).sequence ((q.dequeuePos + 1) % 2 ^ 64) < 0

/-! ### Positions and slots -/

variable {cap : Capacity} {q q' : RingQueue α} {t : ℕ}

theorem index_eq_mod (cap : Capacity) (pos : ℕ) : index cap pos = pos % cap.size :=
  Nat.and_two_pow_sub_one_eq_mod pos cap.exponent

theorem two_le_size (cap : Capacity) : 2 ≤ cap.size := by
  calc 2 = 2 ^ 1 := rfl
    _ ≤ 2 ^ cap.exponent := Nat.pow_le_pow_right (by omega) cap.one_le

theorem size_le (cap : Capacity) : cap.size ≤ 2 ^ 63 := by
  have h := cap.lt
  exact Nat.pow_le_pow_right (by omega) (by omega)

/-- Two positions of one lap of the ring have different slots. -/
theorem index_injective {lo p r : ℕ} (hp : lo ≤ p) (hp' : p < lo + cap.size) (hr : lo ≤ r)
    (hr' : r < lo + cap.size) (h : index cap p = index cap r) : p = r := by
  rw [index_eq_mod, index_eq_mod] at h
  wlog hle : p ≤ r generalizing p r
  · exact (this hr hr' hp hp' h.symm (by omega)).symm
  have hdvd : cap.size ∣ r - p := (Nat.modEq_iff_dvd' hle).1 h
  have hzero := Nat.eq_zero_of_dvd_of_lt hdvd (by omega)
  omega

/-- The next lap begins at the slot where this one began. -/
theorem index_add_size (cap : Capacity) (pos : ℕ) : index cap (pos + cap.size) = index cap pos := by
  rw [index_eq_mod, index_eq_mod, Nat.add_mod_right]

theorem diff_eq_zero_iff {seq pos : ℕ} (hseq : seq < 2 ^ 64) (hpos : pos < 2 ^ 64) :
    diff seq pos = 0 ↔ seq = pos := by
  unfold diff Int.bmod
  dsimp only
  split_ifs <;> omega

theorem diff_neg_iff {seq pos : ℕ} (hseq : seq = pos ∨ seq = pos + 1) :
    diff seq ((pos + 1) % 2 ^ 64) < 0 ↔ seq = pos := by
  unfold diff Int.bmod
  dsimp only
  split_ifs <;> omega

@[simp] theorem goto_producers (q : RingQueue α) (t : ℕ) (p : Producer α) :
    (q.goto t p).producers = Function.update q.producers t p := rfl

@[simp] theorem goto_slot (q : RingQueue α) (t : ℕ) (p : Producer α) (cap : Capacity) (pos : ℕ) :
    (q.goto t p).slot cap pos = q.slot cap pos := rfl

@[simp] theorem slot_setSlot_self (q : RingQueue α) (cap : Capacity) (pos : ℕ) (slot : Slot α) :
    (q.setSlot cap pos slot).slot cap pos = slot := Function.update_self _ _ _

/-- The other slots of the lap stay as they are. -/
theorem slot_setSlot_of_ne {lo p r : ℕ} (hp : lo ≤ p) (hp' : p < lo + cap.size) (hr : lo ≤ r)
    (hr' : r < lo + cap.size) (hne : r ≠ p) (slot : Slot α) :
    (q.setSlot cap p slot).slot cap r = q.slot cap r :=
  Function.update_of_ne (fun h => hne (index_injective hr hr' hp hp' h)) _ _

/-! ### The invariant -/

/-- How many elements the consumer has moved out of their slots. -/
def movedOut (q : RingQueue α) : ℕ :=
  match q.consumer with
  | .release _ => q.dequeuePos + 1
  | _ => q.dequeuePos

/-- What holds of the positions, the slots and the threads in every state of a run
with fewer than `2 ^ 63` pushes. -/
structure Ordered (cap : Capacity) (q : RingQueue α) : Prop where
  length : q.won.length = q.enqueuePos
  le : q.dequeuePos ≤ q.enqueuePos
  le_add : q.enqueuePos ≤ q.dequeuePos + cap.size
  /-- Positions that nobody has won yet. -/
  free : ∀ p, q.enqueuePos ≤ p → p < q.dequeuePos + cap.size → q.slot cap p = ⟨p, none⟩
  /-- Positions that were won: not published, or published with the value that won it;
  the consumer has taken the value out before it gives the slot back. -/
  busy : ∀ p, q.dequeuePos ≤ p → p < q.enqueuePos → (q.slot cap p).sequence = p ∨
    (q.slot cap p).sequence = p + 1 ∧
      ((q.slot cap p).storage = q.won[p]? ∨ p = q.dequeuePos ∧ ∃ room, q.consumer = .release room)
  construct : ∀ t value p, q.producers t = .construct value p →
    q.dequeuePos ≤ p ∧ p < q.enqueuePos ∧ q.won[p]? = some value ∧ q.slot cap p = ⟨p, none⟩
  publish : ∀ t p, q.producers t = .publish p →
    q.dequeuePos ≤ p ∧ p < q.enqueuePos ∧ q.slot cap p = ⟨p, q.won[p]?⟩
  unique : ∀ t u p, (q.producers t).holds p → (q.producers u).holds p → t = u
  /-- A position that a producer has read is not ahead of the counter. -/
  stale : ∀ t value p, q.producers t = .loadSequence value p → p ≤ q.enqueuePos
  /-- One that it found free is gone, or still free. -/
  exchange : ∀ t value p, q.producers t = .exchange value p →
    p < q.enqueuePos ∨ p = q.enqueuePos ∧ p < q.dequeuePos + cap.size
  move : ∀ room, q.consumer = .move room → q.dequeuePos < q.enqueuePos ∧
    q.slot cap q.dequeuePos = ⟨q.dequeuePos + 1, q.won[q.dequeuePos]?⟩
  release : ∀ room, q.consumer = .release room → q.dequeuePos < q.enqueuePos ∧
    q.slot cap q.dequeuePos = ⟨q.dequeuePos + 1, none⟩
  popped : q.popped = (q.won.take q.movedOut).map some

/-- A producer moves to a place where it holds no position. -/
theorem Ordered.goto (h : q.Ordered cap) {p : Producer α} (hfree : ∀ pos, ¬ p.holds pos)
    (hstale : ∀ value pos, p = .loadSequence value pos → pos ≤ q.enqueuePos)
    (hexchange : ∀ value pos, p = .exchange value pos →
      pos < q.enqueuePos ∨ pos = q.enqueuePos ∧ pos < q.dequeuePos + cap.size) :
    (q.goto t p).Ordered cap := by
  refine { h with construct := ?_, publish := ?_, unique := ?_, stale := ?_, exchange := ?_ }
  · intro u value pos hu
    rw [goto_producers, Function.update_apply] at hu
    split_ifs at hu
    · exact absurd (Or.inl ⟨value, hu⟩) (hfree pos)
    · exact h.construct u value pos hu
  · intro u pos hu
    rw [goto_producers, Function.update_apply] at hu
    split_ifs at hu
    · exact absurd (Or.inr hu) (hfree pos)
    · exact h.publish u pos hu
  · intro u v pos hu hv
    rw [goto_producers, Function.update_apply] at hu hv
    split_ifs at hu hv
    · exact absurd hu (hfree pos)
    · exact absurd hu (hfree pos)
    · exact absurd hv (hfree pos)
    · exact h.unique u v pos hu hv
  · intro u value pos hu
    rw [goto_producers, Function.update_apply] at hu
    split_ifs at hu
    · exact hstale value pos hu
    · exact h.stale u value pos hu
  · intro u value pos hu
    rw [goto_producers, Function.update_apply] at hu
    split_ifs at hu
    · exact hexchange value pos hu
    · exact h.exchange u value pos hu

theorem not_holds_of {p : Producer α} (hc : ∀ value pos, p ≠ .construct value pos)
    (hp : ∀ pos, p ≠ .publish pos) (pos : ℕ) : ¬ p.holds pos := by
  rintro (⟨value, h⟩ | h)
  · exact hc value pos h
  · exact hp pos h

/-- In a full queue the slot of the next position has a number of the lap before. -/
theorem Ordered.sequence_of_full (h : q.Ordered cap)
    (hfull : q.enqueuePos = q.dequeuePos + cap.size) :
    (q.slot cap q.enqueuePos).sequence = q.dequeuePos ∨
      (q.slot cap q.enqueuePos).sequence = q.dequeuePos + 1 := by
  have hsize := two_le_size cap
  have hslot : q.slot cap q.enqueuePos = q.slot cap q.dequeuePos := by
    unfold slot
    rw [hfull, index_add_size]
  rw [hslot]
  exact (h.busy q.dequeuePos le_rfl (by omega)).imp_right And.left

/-- A producer that finds the slot of the next position free finds the queue not full. -/
theorem Ordered.not_full (h : q.Ordered cap) (hn : q.enqueuePos < 2 ^ 63)
    (hdiff : diff (q.slot cap q.enqueuePos).sequence q.enqueuePos = 0) :
    q.enqueuePos < q.dequeuePos + cap.size := by
  have hsize := two_le_size cap
  have hle := h.le_add
  by_contra hfull
  have hseq := h.sequence_of_full (by omega)
  rw [diff_eq_zero_iff (by omega) (by omega)] at hdiff
  omega

/-- The next position is free while a producer that found it free may win it. -/
theorem Ordered.room (h : q.Ordered cap) {value : α}
    (hproducer : q.producers t = .exchange value q.enqueuePos) :
    q.enqueuePos < q.dequeuePos + cap.size := by
  rcases h.exchange t value _ hproducer with hlt | ⟨-, hlt⟩
  · exact absurd hlt (Nat.lt_irrefl _)
  · exact hlt

/-- **The position is won**: it becomes busy, and nobody else holds it. -/
theorem Ordered.win (h : q.Ordered cap) {value : α}
    (hproducer : q.producers t = .exchange value q.enqueuePos)
    (hn : q.enqueuePos + 1 < 2 ^ 63) :
    (RingQueue.goto { q with
      enqueuePos := (q.enqueuePos + 1) % 2 ^ 64
      won := q.won ++ [value] } t (.construct value q.enqueuePos)).Ordered cap := by
  have hlt := h.room hproducer
  have hmod : (q.enqueuePos + 1) % 2 ^ 64 = q.enqueuePos + 1 := Nat.mod_eq_of_lt (by omega)
  rw [hmod]
  have hle := h.le
  have hlen := h.length
  have hkeep : ∀ p, p < q.enqueuePos → (q.won ++ [value])[p]? = q.won[p]? := fun p hp =>
    List.getElem?_append_left (by omega)
  have hold : ∀ u pos, (q.producers u).holds pos → pos < q.enqueuePos := by
    rintro u pos (⟨v, hu⟩ | hu)
    · exact (h.construct u v pos hu).2.1
    · exact (h.publish u pos hu).2.1
  refine ⟨?_, ?_, ?_, ?_, ?_, ?_, ?_, ?_, ?_, ?_, ?_, ?_, ?_⟩
  · change (q.won ++ [value]).length = q.enqueuePos + 1
    simp [hlen]
  · change q.dequeuePos ≤ q.enqueuePos + 1
    omega
  · change q.enqueuePos + 1 ≤ q.dequeuePos + cap.size
    omega
  · intro p hp hp'
    exact h.free p (Nat.le_of_succ_le hp) hp'
  · intro p hp hp'
    replace hp' : p < q.enqueuePos + 1 := hp'
    by_cases hpe : p = q.enqueuePos
    · left
      change (q.slot cap p).sequence = p
      rw [h.free p (by omega) (by omega)]
    · have := h.busy p hp (by omega)
      rw [← hkeep p (by omega)] at this
      exact this
  · intro u v p hu
    rw [goto_producers, Function.update_apply] at hu
    split_ifs at hu
    · obtain ⟨rfl, rfl⟩ := Producer.construct.inj hu
      refine ⟨hle, Nat.lt_succ_self _, ?_, h.free _ le_rfl hlt⟩
      change (q.won ++ [value])[q.enqueuePos]? = some value
      rw [← hlen]
      simp
    · obtain ⟨h₁, h₂, h₃, h₄⟩ := h.construct u v p hu
      exact ⟨h₁, Nat.lt_succ_of_lt h₂, (hkeep p h₂).trans h₃, h₄⟩
  · intro u p hu
    rw [goto_producers, Function.update_apply] at hu
    split_ifs at hu
    obtain ⟨h₁, h₂, h₃⟩ := h.publish u p hu
    refine ⟨h₁, Nat.lt_succ_of_lt h₂, ?_⟩
    change q.slot cap p = ⟨p, (q.won ++ [value])[p]?⟩
    rw [hkeep p h₂, h₃]
  · intro u v p hu hv
    rw [goto_producers, Function.update_apply] at hu hv
    have hself : ∀ pos, (Producer.construct value q.enqueuePos).holds pos → pos = q.enqueuePos := by
      rintro pos (⟨v, hv⟩ | hv)
      · exact (Producer.construct.inj hv).2.symm
      · cases hv
    split_ifs at hu hv with hut hvt hvt
    · rw [hut, hvt]
    · have := hself p hu
      have := hold v p hv
      omega
    · have := hself p hv
      have := hold u p hu
      omega
    · exact h.unique u v p hu hv
  · intro u v p hu
    rw [goto_producers, Function.update_apply] at hu
    split_ifs at hu
    exact Nat.le_succ_of_le (h.stale u v p hu)
  · intro u v p hu
    rw [goto_producers, Function.update_apply] at hu
    split_ifs at hu
    left
    change p < q.enqueuePos + 1
    rcases h.exchange u v p hu with hlt | ⟨heq, -⟩ <;> omega
  · intro room hroom
    obtain ⟨h₁, h₂⟩ := h.move room hroom
    refine ⟨Nat.lt_succ_of_lt h₁, ?_⟩
    change q.slot cap q.dequeuePos = ⟨q.dequeuePos + 1, (q.won ++ [value])[q.dequeuePos]?⟩
    rw [hkeep _ h₁, h₂]
  · intro room hroom
    obtain ⟨h₁, h₂⟩ := h.release room hroom
    exact ⟨Nat.lt_succ_of_lt h₁, h₂⟩
  · have hmoved : q.movedOut ≤ q.won.length := by
      unfold movedOut
      split
      · rename_i room hroom
        have := (h.release room hroom).1
        omega
      · omega
    change q.popped = ((q.won ++ [value]).take q.movedOut).map some
    rw [List.take_append_of_le_length hmoved, h.popped]

/-- The position that a producer holds, its slot and its value. -/
theorem Ordered.of_holds (h : q.Ordered cap) {pos : ℕ} (hpos : (q.producers t).holds pos) :
    q.dequeuePos ≤ pos ∧ pos < q.enqueuePos ∧ (q.slot cap pos).sequence = pos := by
  rcases hpos with ⟨value, hpos⟩ | hpos
  · obtain ⟨hlow, hhigh, -, hslot⟩ := h.construct t value pos hpos
    exact ⟨hlow, hhigh, by rw [hslot]⟩
  · obtain ⟨hlow, hhigh, hslot⟩ := h.publish t pos hpos
    exact ⟨hlow, hhigh, by rw [hslot]⟩

/-- A producer changes the slot of the position that it holds: nobody else is at this
slot. -/
theorem Ordered.fill (h : q.Ordered cap) {pos : ℕ} (hholds : (q.producers t).holds pos)
    {slot : Slot α} {p : Producer α}
    (hslot : slot.sequence = pos ∨ slot.sequence = pos + 1 ∧ slot.storage = q.won[pos]?)
    (hp : p = .idle ∨ p = .publish pos ∧ slot = ⟨pos, q.won[pos]?⟩) :
    ((q.setSlot cap pos slot).goto t p).Ordered cap := by
  have hle := h.le_add
  obtain ⟨hlow, hhigh, hseq⟩ := h.of_holds hholds
  have hother : ∀ {r}, q.dequeuePos ≤ r → r < q.dequeuePos + cap.size → r ≠ pos →
      (q.setSlot cap pos slot).slot cap r = q.slot cap r :=
    fun hr hr' hne => slot_setSlot_of_ne hlow (by omega) hr hr' hne slot
  have hself : ∀ r, p.holds r → r = pos := by
    rintro r (⟨v, hr⟩ | hr) <;> rcases hp with rfl | ⟨rfl, -⟩
    · cases hr
    · cases hr
    · cases hr
    · exact (Producer.publish.inj hr).symm
  have hhead : ∀ storage, q.slot cap q.dequeuePos = ⟨q.dequeuePos + 1, storage⟩ →
      q.dequeuePos ≠ pos := by
    rintro storage hhead rfl
    rw [hhead] at hseq
    dsimp only at hseq
    omega
  refine { h with
    free := ?_, busy := ?_, construct := ?_, publish := ?_, unique := ?_, stale := ?_
    exchange := ?_, move := ?_, release := ?_ }
  · intro r hr hr'
    replace hr : q.enqueuePos ≤ r := hr
    rw [goto_slot, hother (by omega) hr' (by omega)]
    exact h.free r hr hr'
  · intro r hr hr'
    replace hr' : r < q.enqueuePos := hr'
    by_cases hrp : r = pos
    · rw [hrp, goto_slot, slot_setSlot_self]
      exact hslot.imp_right fun ⟨h₁, h₂⟩ => ⟨h₁, Or.inl h₂⟩
    · rw [goto_slot, hother hr (by omega) hrp]
      exact h.busy r hr hr'
  · intro u v r hu
    rw [goto_producers, Function.update_apply] at hu
    split_ifs at hu with hut
    · rcases hp with rfl | ⟨rfl, -⟩ <;> cases hu
    · obtain ⟨h₁, h₂, h₃, h₄⟩ := h.construct u v r hu
      refine ⟨h₁, h₂, h₃, ?_⟩
      rw [goto_slot, hother h₁ (by omega) ?_, h₄]
      rintro rfl
      exact hut (h.unique u t r (Or.inl ⟨v, hu⟩) hholds)
  · intro u r hu
    rw [goto_producers, Function.update_apply] at hu
    split_ifs at hu with hut
    · rcases hp with rfl | ⟨rfl, hfilled⟩
      · cases hu
      · obtain rfl := Producer.publish.inj hu
        refine ⟨hlow, hhigh, ?_⟩
        rw [goto_slot, slot_setSlot_self]
        exact hfilled
    · obtain ⟨h₁, h₂, h₃⟩ := h.publish u r hu
      refine ⟨h₁, h₂, (hother h₁ (by omega) ?_).trans h₃⟩
      rintro rfl
      exact hut (h.unique u t r (Or.inr hu) hholds)
  · intro u v r hu hv
    rw [goto_producers, Function.update_apply] at hu hv
    split_ifs at hu hv with hut hvt hvt
    · rw [hut, hvt]
    · rw [hut]
      exact h.unique t v r (hself r hu ▸ hholds) hv
    · rw [hvt]
      exact h.unique u t r hu (hself r hv ▸ hholds)
    · exact h.unique u v r hu hv
  · intro u v r hu
    rw [goto_producers, Function.update_apply] at hu
    split_ifs at hu
    · rcases hp with rfl | ⟨rfl, -⟩ <;> cases hu
    · exact h.stale u v r hu
  · intro u v r hu
    rw [goto_producers, Function.update_apply] at hu
    split_ifs at hu
    · rcases hp with rfl | ⟨rfl, -⟩ <;> cases hu
    · exact h.exchange u v r hu
  · intro room hroom
    obtain ⟨h₁, h₂⟩ := h.move room hroom
    exact ⟨h₁, (hother le_rfl (by omega) (hhead _ h₂)).trans h₂⟩
  · intro room hroom
    obtain ⟨h₁, h₂⟩ := h.release room hroom
    exact ⟨h₁, (hother le_rfl (by omega) (hhead _ h₂)).trans h₂⟩

/-- **A producer goes on.** -/
theorem Ordered.produce (h : q.Ordered cap) {spurious : Bool}
    (hstep : q.produce cap t spurious = some q') (hn : q'.won.length < 2 ^ 63) :
    q'.Ordered cap := by
  unfold RingQueue.produce at hstep
  cases hp : q.producers t <;> rw [hp] at hstep
  case idle => cases hstep
  case loadPos value =>
    obtain rfl := Option.some.inj hstep
    refine h.goto (not_holds_of nofun nofun) ?_ nofun
    rintro v pos hv
    obtain ⟨-, rfl⟩ := Producer.loadSequence.inj hv
    exact le_rfl
  case loadSequence value pos =>
    dsimp only at hstep
    split_ifs at hstep with hzero hneg
    · obtain rfl := Option.some.inj hstep
      refine h.goto (not_holds_of nofun nofun) nofun ?_
      rintro v p hv
      obtain ⟨-, rfl⟩ := Producer.exchange.inj hv
      have hle := h.stale t value pos hp
      rcases Nat.lt_or_eq_of_le hle with hlt | rfl
      · exact Or.inl hlt
      · refine Or.inr ⟨rfl, h.not_full ?_ hzero⟩
        rw [← h.length]
        exact hn
    · obtain rfl := Option.some.inj hstep
      exact h.goto (not_holds_of nofun nofun) nofun nofun
    · obtain rfl := Option.some.inj hstep
      exact h.goto (not_holds_of nofun nofun) nofun nofun
  case exchange value pos =>
    dsimp only at hstep
    split_ifs at hstep with hwin
    · obtain rfl := Option.some.inj hstep
      obtain ⟨rfl, -⟩ := hwin
      replace hn : (q.won ++ [value]).length < 2 ^ 63 := hn
      rw [List.length_append, List.length_singleton, h.length] at hn
      exact h.win hp hn
    · obtain rfl := Option.some.inj hstep
      refine h.goto (not_holds_of nofun nofun) ?_ nofun
      rintro v p hv
      obtain ⟨-, rfl⟩ := Producer.loadSequence.inj hv
      exact le_rfl
  case construct value pos =>
    obtain rfl := Option.some.inj hstep
    obtain ⟨-, -, hwon, hslot⟩ := h.construct t value pos hp
    refine h.fill (Or.inl ⟨value, hp⟩) ?_ (Or.inr ⟨rfl, ?_⟩)
    · left
      rw [hslot]
    · rw [hslot, hwon]
  case publish pos =>
    obtain rfl := Option.some.inj hstep
    obtain ⟨-, hlt, hslot⟩ := h.publish t pos hp
    refine h.fill (Or.inr hp) (Or.inr ⟨?_, ?_⟩) (Or.inl rfl)
    · have hlen := h.length
      replace hn : q.won.length < 2 ^ 63 := hn
      exact Nat.mod_eq_of_lt (by omega)
    · rw [hslot]

/-- The slot that the consumer looks at: its position is not won, won, or published. -/
theorem Ordered.head (h : q.Ordered cap) : (q.slot cap q.dequeuePos).sequence = q.dequeuePos ∨
    q.dequeuePos < q.enqueuePos ∧ (q.slot cap q.dequeuePos).sequence = q.dequeuePos + 1 := by
  have hsize := two_le_size cap
  rcases Nat.lt_or_eq_of_le h.le with hlt | heq
  · exact (h.busy _ le_rfl hlt).imp_right fun hb => ⟨hlt, hb.1⟩
  · left
    rw [h.free q.dequeuePos (by omega) (by omega)]

theorem movedOut_of_ne (h : ∀ room, q.consumer ≠ .release room) : q.movedOut = q.dequeuePos := by
  unfold movedOut
  split
  · rename_i room hroom
    exact absurd hroom (h room)
  · rfl

/-- The consumer moves to a place outside of `TryPopOne`, or from one to another. -/
theorem Ordered.idleConsumer (h : q.Ordered cap) {c : Consumer}
    (hold : ∀ room, q.consumer ≠ .release room) (hmove : ∀ room, c ≠ .move room)
    (hrelease : ∀ room, c ≠ .release room) :
    ({ q with consumer := c } : RingQueue α).Ordered cap := by
  have hmoved : ({ q with consumer := c } : RingQueue α).movedOut = q.movedOut := by
    rw [movedOut_of_ne hold, movedOut_of_ne hrelease]
  refine { h with busy := ?_, move := ?_, release := ?_, popped := ?_ }
  · intro p hp hp'
    refine (h.busy p hp hp').imp_right fun ⟨h₁, h₂⟩ => ⟨h₁, Or.inl ?_⟩
    rcases h₂ with h₂ | ⟨-, room, hroom⟩
    · exact h₂
    · exact absurd hroom (hold room)
  · exact fun room hroom => absurd hroom (hmove room)
  · exact fun room hroom => absurd hroom (hrelease room)
  · rw [hmoved]
    exact h.popped

/-- **The element is moved out**: it is the one whose push won this position. -/
theorem Ordered.takeOut (h : q.Ordered cap) {room : ℕ} (hc : q.consumer = .move room) :
    ({ q.setSlot cap q.dequeuePos ⟨(q.slot cap q.dequeuePos).sequence, none⟩ with
      popped := q.popped ++ [(q.slot cap q.dequeuePos).storage]
      consumer := .release room } : RingQueue α).Ordered cap := by
  have hle := h.le_add
  obtain ⟨hlt, hslot⟩ := h.move room hc
  have hother : ∀ {r}, q.dequeuePos ≤ r → r < q.dequeuePos + cap.size → r ≠ q.dequeuePos →
      (q.setSlot cap q.dequeuePos ⟨(q.slot cap q.dequeuePos).sequence, none⟩).slot cap r =
        q.slot cap r :=
    fun hr hr' hne => slot_setSlot_of_ne le_rfl (by omega) hr hr' hne _
  -- nobody holds the position that the consumer is at
  have hne : ∀ u p, (q.producers u).holds p → p ≠ q.dequeuePos := by
    rintro u p hp rfl
    have hseq := (h.of_holds hp).2.2
    rw [hslot] at hseq
    dsimp only at hseq
    omega
  refine { h with
    free := ?_, busy := ?_, construct := ?_, publish := ?_, move := nofun, release := ?_
    popped := ?_ }
  · intro p hp hp'
    replace hp : q.enqueuePos ≤ p := hp
    exact (hother (by omega) hp' (by omega)).trans (h.free p hp hp')
  · intro p hp hp'
    replace hp' : p < q.enqueuePos := hp'
    by_cases hpd : p = q.dequeuePos
    · right
      rw [hpd]
      refine ⟨?_, Or.inr ⟨rfl, room, rfl⟩⟩
      change ((q.setSlot cap q.dequeuePos _).slot cap q.dequeuePos).sequence = _
      rw [slot_setSlot_self, hslot]
    · have hsame := hother hp (by omega) hpd
      rcases h.busy p hp hp' with hb | ⟨h₁, h₂⟩
      · exact Or.inl ((congrArg Slot.sequence hsame).trans hb)
      · refine Or.inr ⟨(congrArg Slot.sequence hsame).trans h₁, Or.inl ?_⟩
        rcases h₂ with h₂ | ⟨h₂, -⟩
        · exact (congrArg Slot.storage hsame).trans h₂
        · exact absurd h₂ hpd
  · intro u v p hu
    obtain ⟨h₁, h₂, h₃, h₄⟩ := h.construct u v p hu
    exact ⟨h₁, h₂, h₃, (hother h₁ (by omega) (hne u p (Or.inl ⟨v, hu⟩))).trans h₄⟩
  · intro u p hu
    obtain ⟨h₁, h₂, h₃⟩ := h.publish u p hu
    exact ⟨h₁, h₂, (hother h₁ (by omega) (hne u p (Or.inr hu))).trans h₃⟩
  · intro r _
    refine ⟨hlt, ?_⟩
    change (q.setSlot cap q.dequeuePos _).slot cap q.dequeuePos = ⟨q.dequeuePos + 1, none⟩
    rw [slot_setSlot_self, hslot]
  · change q.popped ++ [_] = (q.won.take (q.dequeuePos + 1)).map some
    have hpos : q.dequeuePos < q.won.length := by rw [h.length]; exact hlt
    rw [h.popped, movedOut_of_ne (by simp [hc]), hslot, List.take_add_one, List.map_append,
      List.getElem?_eq_getElem hpos]
    rfl

/-- **The slot is given back** for the next lap. -/
theorem Ordered.giveBack (h : q.Ordered cap) {room : ℕ} (hc : q.consumer = .release room)
    (hn : q.won.length < 2 ^ 63) :
    ({ q.setSlot cap q.dequeuePos ⟨(q.dequeuePos + cap.size) % 2 ^ 64,
        (q.slot cap q.dequeuePos).storage⟩ with
      dequeuePos := (q.dequeuePos + 1) % 2 ^ 64
      consumer := .load room } : RingQueue α).Ordered cap := by
  have hsize := two_le_size cap
  have hsize' := size_le cap
  have hle := h.le_add
  have hlen := h.length
  obtain ⟨hlt, hslot⟩ := h.release room hc
  rw [Nat.mod_eq_of_lt (show q.dequeuePos + cap.size < 2 ^ 64 by omega),
    Nat.mod_eq_of_lt (show q.dequeuePos + 1 < 2 ^ 64 by omega), hslot]
  have hother : ∀ {r}, q.dequeuePos + 1 ≤ r → r < q.dequeuePos + cap.size →
      (q.setSlot cap q.dequeuePos ⟨q.dequeuePos + cap.size, none⟩).slot cap r = q.slot cap r :=
    fun hr hr' => slot_setSlot_of_ne le_rfl (by omega) (by omega) hr' (by omega) _
  have hhold : ∀ u p, (q.producers u).holds p → q.dequeuePos + 1 ≤ p := by
    intro u p hp
    obtain ⟨hlow, -, hseq⟩ := h.of_holds hp
    rcases Nat.lt_or_eq_of_le hlow with hlow | rfl
    · exact hlow
    · rw [hslot] at hseq
      dsimp only at hseq
      omega
  refine { h with
    le := hlt, le_add := ?_, free := ?_, busy := ?_, construct := ?_, publish := ?_, exchange := ?_
    move := nofun, release := nofun, popped := ?_ }
  · change q.enqueuePos ≤ q.dequeuePos + 1 + cap.size
    omega
  · intro p hp hp'
    replace hp : q.enqueuePos ≤ p := hp
    replace hp' : p < q.dequeuePos + 1 + cap.size := hp'
    by_cases hpe : p = q.dequeuePos + cap.size
    · change (q.setSlot cap q.dequeuePos _).slot cap p = _
      rw [hpe]
      unfold slot
      rw [index_add_size]
      exact slot_setSlot_self q cap q.dequeuePos _
    · exact (hother (by omega) (by omega)).trans (h.free p hp (by omega))
  · intro p hp hp'
    replace hp : q.dequeuePos + 1 ≤ p := hp
    replace hp' : p < q.enqueuePos := hp'
    have hsame := hother hp (by omega)
    rcases h.busy p (by omega) hp' with hb | ⟨h₁, h₂⟩
    · exact Or.inl ((congrArg Slot.sequence hsame).trans hb)
    · refine Or.inr ⟨(congrArg Slot.sequence hsame).trans h₁, Or.inl ?_⟩
      rcases h₂ with h₂ | ⟨h₂, -⟩
      · exact (congrArg Slot.storage hsame).trans h₂
      · omega
  · intro u v p hu
    obtain ⟨-, h₂, h₃, h₄⟩ := h.construct u v p hu
    have hp := hhold u p (Or.inl ⟨v, hu⟩)
    exact ⟨hp, h₂, h₃, (hother hp (by omega)).trans h₄⟩
  · intro u p hu
    obtain ⟨-, h₂, h₃⟩ := h.publish u p hu
    have hp := hhold u p (Or.inr hu)
    exact ⟨hp, h₂, (hother hp (by omega)).trans h₃⟩
  · intro u v p hu
    refine (h.exchange u v p hu).imp_right fun ⟨h₁, h₂⟩ => ⟨h₁, ?_⟩
    change p < q.dequeuePos + 1 + cap.size
    omega
  · change q.popped = (q.won.take (q.dequeuePos + 1)).map some
    rw [h.popped]
    unfold movedOut
    rw [hc]

/-- **The consumer goes on.** -/
theorem Ordered.consume (h : q.Ordered cap) (hstep : q.consume cap = some q')
    (hn : q.won.length < 2 ^ 63) : q'.Ordered cap := by
  have hsize := two_le_size cap
  have hsize' := size_le cap
  have hle := h.le_add
  have hlen := h.length
  unfold RingQueue.consume at hstep
  split at hstep
  · cases hstep
  · rename_i hc
    obtain rfl := Option.some.inj hstep
    exact h.idleConsumer (by simp [hc]) nofun nofun
  · rename_i room hc
    split_ifs at hstep with hneg
    · obtain rfl := Option.some.inj hstep
      exact h.idleConsumer (by simp [hc]) nofun nofun
    · obtain rfl := Option.some.inj hstep
      -- the element is published, and its value is that of the push
      rw [diff_neg_iff (h.head.imp_right And.right)] at hneg
      obtain ⟨hlt, hseq⟩ := h.head.resolve_left hneg
      have hstorage : (q.slot cap q.dequeuePos).storage = q.won[q.dequeuePos]? := by
        rcases h.busy _ le_rfl hlt with hb | ⟨-, hb | ⟨-, r, hr⟩⟩
        · exact absurd hb hneg
        · exact hb
        · cases hc.symm.trans hr
      have hnew := h.idleConsumer (c := .idle) (by simp [hc]) nofun nofun
      refine { hnew with
        move := fun _ _ => ⟨hlt, ?_⟩, release := nofun
        busy := fun p hp hp' => (hnew.busy p hp hp').imp_right fun ⟨h₁, h₂⟩ => ⟨h₁, Or.inl ?_⟩ }
      · rw [← hseq, ← hstorage]
        rfl
      · rcases h₂ with h₂ | ⟨-, r, hr⟩
        · exact h₂
        · cases hr
  · rename_i room hc
    obtain rfl := Option.some.inj hstep
    exact h.takeOut hc
  · rename_i room hc
    obtain rfl := Option.some.inj hstep
    exact h.giveBack hc hn

/-! ### Whole runs -/

theorem won_length_le {e : Event α} (h : q.step cap e = some q') :
    q.won.length ≤ q'.won.length := by
  cases e with
  | push t value =>
    simp only [step] at h
    split at h
    · obtain rfl := Option.some.inj h
      exact le_rfl
    · cases h
  | produce t spurious =>
    simp only [step, produce] at h
    split at h
    · cases h
    · obtain rfl := Option.some.inj h
      exact le_rfl
    · split_ifs at h <;> obtain rfl := Option.some.inj h <;> exact le_rfl
    · split_ifs at h <;> obtain rfl := Option.some.inj h
      · simp [RingQueue.goto]
      · exact le_rfl
    · obtain rfl := Option.some.inj h
      exact le_rfl
    · obtain rfl := Option.some.inj h
      exact le_rfl
  | popBatch room =>
    simp only [step] at h
    split_ifs at h
    obtain rfl := Option.some.inj h
    exact le_rfl
  | consume =>
    simp only [step, consume] at h
    split at h
    · cases h
    · obtain rfl := Option.some.inj h
      exact le_rfl
    · split_ifs at h <;> obtain rfl := Option.some.inj h <;> exact le_rfl
    · obtain rfl := Option.some.inj h
      exact le_rfl
    · obtain rfl := Option.some.inj h
      exact le_rfl

theorem Ordered.step (h : q.Ordered cap) {e : Event α} (hstep : q.step cap e = some q')
    (hn : q'.won.length < 2 ^ 63) : q'.Ordered cap := by
  have hle := won_length_le hstep
  cases e with
  | push t value =>
    simp only [RingQueue.step] at hstep
    split at hstep
    · obtain rfl := Option.some.inj hstep
      exact h.goto (not_holds_of nofun nofun) nofun nofun
    · cases hstep
  | produce t spurious => exact h.produce hstep hn
  | popBatch room =>
    simp only [RingQueue.step] at hstep
    split_ifs at hstep with hidle
    obtain rfl := Option.some.inj hstep
    exact h.idleConsumer (by simp [hidle]) nofun nofun
  | consume => exact h.consume hstep (by omega)

theorem ordered_init (cap : Capacity) : ({} : RingQueue α).Ordered cap := by
  have hsize := two_le_size cap
  refine ⟨rfl, le_rfl, Nat.zero_le _, ?_, ?_, nofun, nofun, ?_, nofun, nofun, nofun, nofun, rfl⟩
  · intro p _ hp
    replace hp : p < 0 + cap.size := hp
    unfold slot
    rw [index_eq_mod, Nat.mod_eq_of_lt (by omega)]
  · intro p _ hp
    cases hp
  · rintro t u p (⟨value, hp⟩ | hp) <;> cases hp

theorem ordered_of_exec {es : List (Event α)} (hrun : exec (step cap) {} es = some q)
    (hn : q.won.length < 2 ^ 63) : q.Ordered cap :=
  exec_invariant (I := fun q : RingQueue α => q.won.length < 2 ^ 63 → q.Ordered cap)
    (fun _ => ordered_init cap)
    (fun _ _ _ h hstep hn => (h ((won_length_le hstep).trans_lt hn)).step hstep hn) hrun hn

/-- **The queue is first in, first out.**  In every run of any number of producers and
one consumer with fewer than `2 ^ 63` pushes: what was popped is, in this order, the
values of the pushes that won positions 0, 1, 2, ..., up to some position; an element
is constructed only in a slot that holds none; and the consumer moves an element out
only when it is published, and it is the one whose push won the position. -/
theorem popped_in_order (cap : Capacity) {es : List (Event α)}
    (hrun : exec (step cap) {} es = some q) (hn : q.won.length < 2 ^ 63) :
    q.enqueuePos = q.won.length ∧
    (∃ n ≤ q.won.length, q.popped = (q.won.take n).map some) ∧
    (∀ t value pos, q.producers t = .construct value pos → (q.slot cap pos).storage = none) ∧
    (∀ room, q.consumer = .move room → ∃ value, q.won[q.dequeuePos]? = some value ∧
      q.slot cap q.dequeuePos = ⟨q.dequeuePos + 1, some value⟩) := by
  have h := ordered_of_exec hrun hn
  refine ⟨h.length.symm, ⟨q.movedOut, ?_, h.popped⟩, ?_, ?_⟩
  · unfold movedOut
    split
    · rename_i room hc
      rw [h.length]
      exact (h.release room hc).1
    · rw [h.length]
      exact h.le
  · intro t value pos hp
    rw [(h.construct t value pos hp).2.2.2]
  · intro room hc
    obtain ⟨hlt, hslot⟩ := h.move room hc
    have hpos : q.dequeuePos < q.won.length := by rw [h.length]; exact hlt
    rw [List.getElem?_eq_getElem hpos] at hslot ⊢
    exact ⟨_, rfl, hslot⟩

/-- Two producers race for two slots, and the second to come is the first to win. -/
def race : List (Event ℕ) :=
  [.push 0 5, .push 1 6, .produce 0 false, .produce 1 false, .produce 0 false, .produce 1 false,
    .produce 1 false, .produce 0 false, .produce 0 false, .produce 0 false, .produce 1 false,
    .produce 0 false, .produce 1 false, .popBatch 2, .consume, .consume, .consume]

theorem popped_in_order_race :
    ∃ q, exec (step ⟨1, by decide, by decide⟩) {} race = some q ∧ q.won = [6, 5] ∧
      q.popped = [some 6] ∧ q.enqueuePos = q.won.length ∧
      ∃ n ≤ q.won.length, q.popped = (q.won.take n).map some := by
  have hrun : (exec (step ⟨1, by decide, by decide⟩) {} race).map (fun q => (q.won, q.popped)) =
      some ([6, 5], [some 6]) := by decide +kernel
  obtain ⟨q, hq, heq⟩ := Option.map_eq_some_iff.1 hrun
  obtain ⟨hwon, hpopped⟩ := Prod.mk.inj heq
  obtain ⟨hpos, horder, -⟩ := popped_in_order ⟨1, by decide, by decide⟩ hq (by simp [hwon])
  exact ⟨q, hq, hwon, hpopped, hpos, horder⟩

end RingQueue
end Common
end MiniRpc
