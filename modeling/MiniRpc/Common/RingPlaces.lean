/-
# The ring queue as a line of places

What `MpscRingQueue` is to its users: producers take places at the end of a
line and fill them later, and the consumer takes the first place once it is
filled (`TicketQueue`).  The positions between `dequeue_pos_` and `enqueue_pos_`
are the line, each with the value whose push won it, and the number in its slot
says whether it is filled.

Each step of the ring queue is one operation of the line or leaves it alone
(`refines`): `TryPush` takes the place where its exchange succeeds and fills it
where it stores the number, and `PopBatch` takes a place out where it stores the
number of the next lap.  `TryPush` gives up only where all places are taken, and
`PopBatch` and `Empty` find nothing only where the line has nothing to give
(`tryPush_full`, `popBatch_ends`, `isEmpty_eq`).
-/

import MiniRpc.Common.MpscRingQueue
import MiniRpc.Library.TicketQueue

namespace MiniRpc
namespace Common
namespace RingQueue

open Transition

variable {α : Type*} {cap : Capacity} {q q' : RingQueue α} {t : ℕ}

/-- The position is published. -/
def isFilled (cap : Capacity) (q : RingQueue α) (pos : ℕ) : Bool :=
  (q.slot cap pos).sequence = pos + 1

/-- The line of places that the queue stands for. -/
def places (cap : Capacity) (q : RingQueue α) : TicketQueue α where
  served := q.dequeuePos
  line := (q.won.drop q.dequeuePos).mapIdx fun i value =>
    (value, q.isFilled cap (q.dequeuePos + i))

theorem places_getElem? (cap : Capacity) (q : RingQueue α) (i : ℕ) :
    (q.places cap).line[i]? = q.won[q.dequeuePos + i]?.map fun value =>
      (value, q.isFilled cap (q.dequeuePos + i)) := by
  simp only [places, List.getElem?_mapIdx, List.getElem?_drop]

theorem Ordered.places_length (h : q.Ordered cap) :
    (q.places cap).line.length = q.enqueuePos - q.dequeuePos := by
  simp [places, h.length]

/-- The next place is the next position. -/
theorem Ordered.places_ticket (h : q.Ordered cap) : (q.places cap).ticket = q.enqueuePos := by
  have hle := h.le
  unfold TicketQueue.ticket
  rw [h.places_length]
  exact Nat.add_sub_of_le hle

/-- Steps that win no position, give none back and publish none. -/
theorem Ordered.places_eq (h : q.Ordered cap) (hwon : q'.won = q.won)
    (hdequeue : q'.dequeuePos = q.dequeuePos)
    (hfilled : ∀ p, q.dequeuePos ≤ p → p < q.enqueuePos → q'.isFilled cap p = q.isFilled cap p) :
    q'.places cap = q.places cap := by
  have hlen := h.length
  refine TicketQueue.ext hdequeue (List.ext_getElem? fun i => ?_)
  rw [places_getElem?, places_getElem?, hwon, hdequeue]
  by_cases hi : q.dequeuePos + i < q.enqueuePos
  · rw [hfilled _ (by omega) hi]
  · rw [List.getElem?_eq_none (by omega)]
    rfl

/-- Winning the next position takes the next place. -/
theorem Ordered.places_reserve (h : q.Ordered cap) {value : α}
    (hlt : q.enqueuePos < q.dequeuePos + cap.size) (hwon : q'.won = q.won ++ [value])
    (hdequeue : q'.dequeuePos = q.dequeuePos) (hslots : q'.slots = q.slots) :
    q'.places cap = (q.places cap).reserve value := by
  have hle := h.le
  have hlen := h.length
  have hfilled : q'.isFilled cap = q.isFilled cap := by
    funext pos
    unfold isFilled slot
    rw [hslots]
  -- the new position is not published
  have hfree : q.isFilled cap q.enqueuePos = false := by
    unfold isFilled
    rw [h.free _ le_rfl hlt]
    simp
  refine TicketQueue.ext hdequeue ?_
  unfold places TicketQueue.reserve
  dsimp only
  rw [hwon, hdequeue, hfilled, List.drop_append_of_le_length (by omega), List.mapIdx_append,
    List.mapIdx_singleton, List.length_drop, hlen, Nat.zero_add, Nat.add_sub_of_le hle, hfree]

/-- Publishing a position fills its place. -/
theorem Ordered.places_fill (h : q.Ordered cap) {pos : ℕ} (hpos : q.dequeuePos ≤ pos)
    (hwon : q'.won = q.won) (hdequeue : q'.dequeuePos = q.dequeuePos)
    (hfilled : ∀ p, q.dequeuePos ≤ p → p < q.enqueuePos →
      q'.isFilled cap p = if p = pos then true else q.isFilled cap p) :
    q'.places cap = (q.places cap).fill pos := by
  have hlen := h.length
  refine TicketQueue.ext hdequeue (List.ext_getElem? fun i => ?_)
  unfold TicketQueue.fill
  rw [places_getElem?, List.getElem?_modify, places_getElem?, hwon, hdequeue]
  by_cases hi : q.dequeuePos + i < q.enqueuePos
  · have hserved : (q.places cap).served = q.dequeuePos := rfl
    rw [hfilled _ (by omega) hi, List.getElem?_eq_getElem (by omega), hserved]
    by_cases hipos : q.dequeuePos + i = pos
    · simp [hipos, show pos - q.dequeuePos = i by omega]
    · simp [hipos, show pos - q.dequeuePos ≠ i by omega]
  · rw [List.getElem?_eq_none (by omega)]
    rfl

/-- Giving back the first slot takes its place out of the line. -/
theorem Ordered.places_pop (h : q.Ordered cap) {value : α}
    (hvalue : q.won[q.dequeuePos]? = some value) (hpublished : q.isFilled cap q.dequeuePos = true)
    (hwon : q'.won = q.won) (hdequeue : q'.dequeuePos = q.dequeuePos + 1)
    (hfilled : ∀ p, q.dequeuePos < p → p < q.enqueuePos → q'.isFilled cap p = q.isFilled cap p) :
    (q.places cap).pop = some (value, q'.places cap) := by
  have hlen := h.length
  obtain ⟨hlt, hvalue⟩ := List.getElem?_eq_some_iff.1 hvalue
  have hline : (q.places cap).line = (value, true) :: (q'.places cap).line := by
    refine List.ext_getElem? fun i => ?_
    cases i with
    | zero =>
      rw [places_getElem?, Nat.add_zero, List.getElem?_eq_getElem hlt, hvalue, hpublished]
      rfl
    | succ i =>
      rw [List.getElem?_cons_succ, places_getElem?, places_getElem?, hwon, hdequeue,
        Nat.add_assoc q.dequeuePos 1, Nat.add_comm 1 i]
      by_cases hi : q.dequeuePos + (i + 1) < q.enqueuePos
      · rw [hfilled _ (by omega) hi]
      · rw [List.getElem?_eq_none (by omega)]
        rfl
  have hserved : (⟨(q.places cap).served + 1, (q'.places cap).line⟩ : TicketQueue α) =
      q'.places cap := TicketQueue.ext hdequeue.symm rfl
  unfold TicketQueue.pop
  rw [hline]
  dsimp only
  rw [hserved]

/-- The number of a slot stays when its storage changes. -/
theorem isFilled_setSlot (q : RingQueue α) (cap : Capacity) (pos p : ℕ) (storage : Option α) :
    (q.setSlot cap pos ⟨(q.slot cap pos).sequence, storage⟩).isFilled cap p =
      q.isFilled cap p := by
  have hsequence : ((q.setSlot cap pos ⟨(q.slot cap pos).sequence, storage⟩).slot cap p).sequence =
      (q.slot cap p).sequence := by
    unfold setSlot slot
    dsimp only
    rw [Function.update_apply]
    split_ifs with hindex
    · rw [hindex]
    · rfl
  unfold isFilled
  rw [hsequence]

/-- **A step of the ring queue** leaves the line alone, takes the next place for a value,
fills the place of a position that was won, or takes the first place out. -/
inductive Operation (cap : Capacity) (q q' : RingQueue α) : Prop where
  | none (h : q'.places cap = q.places cap)
  | reserve (t : ℕ) (value : α) (hroom : (q.places cap).line.length < cap.size)
    (hplace : q'.producers t = .construct value (q.places cap).ticket)
    (h : q'.places cap = (q.places cap).reserve value)
  | fill (t pos : ℕ) (hplace : q.producers t = .publish pos)
    (h : q'.places cap = (q.places cap).fill pos)
  | pop (value : α) (hpopped : q.popped.getLast? = some (some value))
    (h : (q.places cap).pop = some (value, q'.places cap))

theorem Ordered.operation_produce (h : q.Ordered cap) {spurious : Bool}
    (hstep : q.produce cap t spurious = some q') (hn : q'.won.length < 2 ^ 63) :
    Operation cap q q' := by
  have hle := h.le
  have hle_add := h.le_add
  have hlen := h.length
  unfold RingQueue.produce at hstep
  cases hp : q.producers t <;> rw [hp] at hstep
  case idle => cases hstep
  case loadPos value =>
    obtain rfl := Option.some.inj hstep
    exact .none (h.places_eq rfl rfl fun _ _ _ => rfl)
  case loadSequence value pos =>
    dsimp only at hstep
    split_ifs at hstep
    all_goals
      obtain rfl := Option.some.inj hstep
      exact .none (h.places_eq rfl rfl fun _ _ _ => rfl)
  case exchange value pos =>
    dsimp only at hstep
    split_ifs at hstep with hwin
    · obtain rfl := Option.some.inj hstep
      obtain ⟨rfl, -⟩ := hwin
      have hlt := h.room hp
      refine .reserve t value ?_ ?_ (h.places_reserve hlt rfl rfl rfl)
      · rw [h.places_length]
        omega
      · rw [goto_producers, Function.update_self, h.places_ticket]
    · obtain rfl := Option.some.inj hstep
      exact .none (h.places_eq rfl rfl fun _ _ _ => rfl)
  case construct value pos =>
    obtain rfl := Option.some.inj hstep
    exact .none (h.places_eq rfl rfl fun p _ _ => isFilled_setSlot q cap pos p _)
  case publish pos =>
    obtain rfl := Option.some.inj hstep
    replace hn : q.won.length < 2 ^ 63 := hn
    obtain ⟨hlow, hhigh, -⟩ := h.publish t pos hp
    refine .fill t pos hp (h.places_fill hlow rfl rfl fun p hp hp' => ?_)
    rw [Nat.mod_eq_of_lt (show pos + 1 < 2 ^ 64 by omega)]
    unfold isFilled
    rw [goto_slot]
    split_ifs with hpos
    · rw [hpos, slot_setSlot_self]
      exact decide_eq_true rfl
    · rw [slot_setSlot_of_ne hlow (by omega) hp (by omega) hpos]

theorem Ordered.operation_consume (h : q.Ordered cap) (hstep : q.consume cap = some q')
    (hn : q.won.length < 2 ^ 63) : Operation cap q q' := by
  have hle := h.le_add
  have hlen := h.length
  unfold RingQueue.consume at hstep
  split at hstep
  · cases hstep
  · obtain rfl := Option.some.inj hstep
    exact .none (h.places_eq rfl rfl fun _ _ _ => rfl)
  · split_ifs at hstep
    all_goals
      obtain rfl := Option.some.inj hstep
      exact .none (h.places_eq rfl rfl fun _ _ _ => rfl)
  · obtain rfl := Option.some.inj hstep
    exact .none (h.places_eq rfl rfl fun p _ _ => isFilled_setSlot q cap q.dequeuePos p _)
  · rename_i room hc
    obtain rfl := Option.some.inj hstep
    obtain ⟨hlt, hslot⟩ := h.release room hc
    have hpos : q.dequeuePos < q.won.length := by omega
    have hvalue : q.won[q.dequeuePos]? = some q.won[q.dequeuePos] :=
      List.getElem?_eq_getElem hpos
    have htake : q.won.take (q.dequeuePos + 1) =
        q.won.take q.dequeuePos ++ [q.won[q.dequeuePos]] := by
      rw [List.take_add_one, hvalue]
      rfl
    refine .pop q.won[q.dequeuePos] ?_ (h.places_pop hvalue ?_ rfl ?_ fun p hp hp' => ?_)
    · rw [h.popped, List.getLast?_map]
      unfold movedOut
      rw [hc]
      dsimp only
      rw [htake, List.getLast?_concat]
      rfl
    · unfold isFilled
      rw [hslot]
      exact decide_eq_true rfl
    · exact Nat.mod_eq_of_lt (by omega)
    · unfold isFilled
      exact congrArg (fun slot : Slot α => decide (slot.sequence = p + 1))
        (slot_setSlot_of_ne le_rfl (by omega) (by omega) (by omega) (by omega) _)

theorem Ordered.operation (h : q.Ordered cap) {e : Event α} (hstep : q.step cap e = some q')
    (hn : q'.won.length < 2 ^ 63) : Operation cap q q' := by
  have hle := won_length_le hstep
  cases e with
  | push t value =>
    simp only [RingQueue.step] at hstep
    split at hstep
    · obtain rfl := Option.some.inj hstep
      exact .none (h.places_eq rfl rfl fun _ _ _ => rfl)
    · cases hstep
  | produce t spurious => exact h.operation_produce hstep hn
  | popBatch room =>
    simp only [RingQueue.step] at hstep
    split_ifs at hstep
    obtain rfl := Option.some.inj hstep
    exact .none (h.places_eq rfl rfl fun _ _ _ => rfl)
  | consume => exact h.operation_consume hstep (by omega)

/-! ### Where a push or a pop finds nothing -/

theorem diff_neg_iff_lt {seq pos : ℕ} (hseq : seq < 2 ^ 63) (hpos : pos < 2 ^ 63) :
    diff seq pos < 0 ↔ seq < pos := by
  unfold diff Int.bmod
  dsimp only
  split_ifs <;> omega

/-- A position that is behind the line shares its slot with one of the next lap. -/
theorem exists_index_eq (cap : Capacity) (lo : ℕ) {pos : ℕ} (hpos : pos < lo + cap.size) :
    ∃ p, pos ≤ p ∧ lo ≤ p ∧ p < lo + cap.size ∧ index cap p = index cap pos := by
  have hsize := two_le_size cap
  rcases Nat.lt_or_ge pos lo with hlt | hge
  · -- as many laps ahead as it takes
    have hdiv := Nat.div_add_mod (lo - pos + (cap.size - 1)) cap.size
    have hmod := Nat.mod_lt (lo - pos + (cap.size - 1)) (show 0 < cap.size by omega)
    generalize (lo - pos + (cap.size - 1)) / cap.size = laps at hdiv
    refine ⟨pos + cap.size * laps, by omega, by omega, by omega, ?_⟩
    rw [index_eq_mod, index_eq_mod, Nat.add_mul_mod_self_left]
  · exact ⟨pos, le_rfl, hge, hpos, rfl⟩

/-- The number in the slot of a position is behind the position only in a full queue. -/
theorem Ordered.full_of_diff_neg (h : q.Ordered cap) (hn : q.won.length + cap.size ≤ 2 ^ 63)
    {pos : ℕ} (hpos : pos ≤ q.enqueuePos) (hneg : diff (q.slot cap pos).sequence pos < 0) :
    q.enqueuePos = q.dequeuePos + cap.size := by
  have hsize := two_le_size cap
  have hle := h.le
  have hle_add := h.le_add
  have hlen := h.length
  by_contra hroom
  obtain ⟨p, hposp, hp, hp', hindex⟩ := exists_index_eq cap q.dequeuePos
    (show pos < q.dequeuePos + cap.size by omega)
  have hsequence : (q.slot cap p).sequence = p ∨
      (q.slot cap p).sequence = p + 1 ∧ p < q.enqueuePos := by
    rcases Nat.lt_or_ge p q.enqueuePos with hlt | hge
    · exact (h.busy p hp hlt).imp_right fun hb => ⟨hb.1, hlt⟩
    · left
      rw [h.free p hge hp']
  have hslot : q.slot cap pos = q.slot cap p := by
    unfold slot
    rw [hindex]
  rw [hslot, diff_neg_iff_lt (by omega) (by omega)] at hneg
  omega

/-- What the consumer sees in the slot of the next position. -/
theorem Ordered.pop_eq_none_iff (h : q.Ordered cap) : (q.places cap).pop = none ↔
    diff (q.slot cap q.dequeuePos).sequence ((q.dequeuePos + 1) % 2 ^ 64) < 0 := by
  have hlen := h.length
  rw [diff_neg_iff (h.head.imp_right And.right), TicketQueue.pop_eq_none_iff, places_getElem?,
    Nat.add_zero]
  rcases h.head with hfree | ⟨hlt, hpublished⟩
  · have hunfilled : q.isFilled cap q.dequeuePos = false := by
      unfold isFilled
      rw [hfree]
      simp
    simp [hunfilled, hfree]
  · have hfilled : q.isFilled cap q.dequeuePos = true := decide_eq_true hpublished
    have hpos : q.dequeuePos < q.won.length := by omega
    simp [hfilled, hpublished, hpos]

/-! ### Whole runs -/

/-- **The ring queue is a line of places.**  In every run of any number of producers and
one consumer with fewer than `2 ^ 63` pushes each step is an operation of the line, or
leaves it alone. -/
theorem refines (cap : Capacity) {es : List (Event α)} {e : Event α}
    (hrun : exec (step cap) {} es = some q) (hstep : q.step cap e = some q')
    (hn : q'.won.length < 2 ^ 63) : Operation cap q q' :=
  (ordered_of_exec hrun ((won_length_le hstep).trans_lt hn)).operation hstep hn

/-- `TryPush` gives up only where all places are taken. -/
theorem tryPush_full (cap : Capacity) {es : List (Event α)} {spurious : Bool} {value : α} {pos : ℕ}
    (hrun : exec (step cap) {} es = some q) (hn : q.won.length + cap.size ≤ 2 ^ 63)
    (hproducer : q.producers t = .loadSequence value pos)
    (hstep : q.step cap (.produce t spurious) = some q') (hidle : q'.producers t = .idle) :
    (q.places cap).line.length = cap.size := by
  have hsize := two_le_size cap
  have h : q.Ordered cap := ordered_of_exec hrun (by omega)
  simp only [step, produce, hproducer] at hstep
  split_ifs at hstep with hzero hneg
  · obtain rfl := Option.some.inj hstep
    rw [goto_producers, Function.update_self] at hidle
    cases hidle
  · have hfull := h.full_of_diff_neg hn (h.stale t value pos hproducer) hneg
    rw [h.places_length]
    omega
  · obtain rfl := Option.some.inj hstep
    rw [goto_producers, Function.update_self] at hidle
    cases hidle

/-- `PopBatch` ends before its span is full only where the line has nothing to give. -/
theorem popBatch_ends (cap : Capacity) {es : List (Event α)} {room : ℕ}
    (hrun : exec (step cap) {} es = some q) (hn : q.won.length < 2 ^ 63)
    (hconsumer : q.consumer = .load (room + 1)) (hstep : q.step cap .consume = some q') :
    q'.consumer = .idle ↔ (q.places cap).pop = none := by
  rw [(ordered_of_exec hrun hn).pop_eq_none_iff]
  simp only [step, consume, hconsumer] at hstep
  split_ifs at hstep with hneg
  · obtain rfl := Option.some.inj hstep
    exact ⟨fun _ => hneg, fun _ => rfl⟩
  · obtain rfl := Option.some.inj hstep
    refine ⟨fun hidle => ?_, fun h => absurd h hneg⟩
    cases hidle

/-- `Empty` says that the line has nothing to give. -/
theorem isEmpty_eq (cap : Capacity) {es : List (Event α)}
    (hrun : exec (step cap) {} es = some q) (hn : q.won.length < 2 ^ 63) :
    q.isEmpty cap = (q.places cap).pop.isNone := by
  have h : q.Ordered cap := ordered_of_exec hrun hn
  rw [Bool.eq_iff_iff, Option.isNone_iff_eq_none, h.pop_eq_none_iff]
  exact decide_eq_true_iff

end RingQueue
end Common
end MiniRpc
