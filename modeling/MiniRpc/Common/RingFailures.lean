/-
# A push or a pop that fails

`TryPush` of `src/common/mpsc_ring_queue.h` returns false where the number in the
slot of the position that it read is behind the position.  Until then it has done
nothing but read, in every run; that the queue is full then, and that `PopBatch` stops
short only where the first position is not published, is so as long as the pushes are
few enough: `failures`.

The position that a producer has read may be any number of laps old, and the
number of its slot goes on with the laps.  Once it is `2 ^ 63` ahead, the signed
difference is negative again: `lapped_spurious` is a push that finds an empty
queue full.
-/

import MiniRpc.Common.RingPlaces

namespace MiniRpc
namespace Common

open Transition

/-- The producer is in `TryPush` and still has the value of its caller. -/
def Producer.tries {α : Type*} (p : Producer α) (value : α) : Prop :=
  p = .loadPos value ∨ (∃ pos, p = .loadSequence value pos) ∨ ∃ pos, p = .exchange value pos

/-- The producer is in no call. -/
def Producer.isIdle {α : Type*} : Producer α → Bool
  | .idle => true
  | _ => false

namespace RingQueue

variable {α : Type*} {cap : Capacity} {q q' u u' : RingQueue α} {t : ℕ} {value : α}

/-- The producer `t` calls `TryPush` in `q`; it is in this call through the run of `es` to `u`,
and returns false in the step from there to `u'`. -/
structure FailedPush (cap : Capacity) (t : ℕ) (value : α) (q : RingQueue α) (es : List (Event α))
    (u u' : RingQueue α) : Prop where
  run : exec (step cap) q (.push t value :: es) = some u
  inCall : Along (step cap) (fun w _ => (w.producers t).isIdle = false)
    (q.goto t (.loadPos value)) es
  last : ∃ spurious, u.step cap (.produce t spurious) = some u'
  returns : (∃ v pos, u.producers t = .loadSequence v pos) ∧ u'.producers t = .idle

/-- If the step is one of the producer `t`, it changes nothing but where `t` is. -/
def OnlyMoves (cap : Capacity) (t : ℕ) (w : RingQueue α) (e : Event α) : Prop :=
  ∀ spurious w', e = .produce t spurious → w.step cap e = some w' →
    w' = w.goto t (w'.producers t)

/-- What the caller has of a push that failed: the value is still there, and no step of the call
changed the queue. -/
structure Refused (cap : Capacity) (t : ℕ) (value : α) (q : RingQueue α) (es : List (Event α))
    (u u' : RingQueue α) : Prop where
  kept : ∃ pos, u.producers t = .loadSequence value pos
  unchanged : u' = u.goto t .idle
  untouched : Along (step cap) (OnlyMoves cap t) (q.goto t (.loadPos value)) es

/-! ### The steps of a call that fails -/

/-- What a producer that still has its value can do. -/
theorem produce_of_tries (h : (q.producers t).tries value) {spurious : Bool}
    (hstep : q.step cap (.produce t spurious) = some q') :
    (q' = q.goto t (q'.producers t) ∧
      ((q'.producers t).tries value ∨ q'.producers t = .idle)) ∨
      ∃ pos, q'.producers t = .construct value pos := by
  have hgoto : ∀ p : Producer α, q.goto t p = q.goto t ((q.goto t p).producers t) := by
    intro p
    rw [goto_producers, Function.update_self]
  have hat : ∀ p : Producer α, (q.goto t p).producers t = p := by
    intro p
    rw [goto_producers, Function.update_self]
  rcases h with hp | ⟨pos, hp⟩ | ⟨pos, hp⟩
  · simp only [step, produce, hp] at hstep
    obtain rfl := Option.some.inj hstep
    exact Or.inl ⟨hgoto _, Or.inl (Or.inr (Or.inl ⟨_, hat _⟩))⟩
  · simp only [step, produce, hp] at hstep
    split_ifs at hstep
    · obtain rfl := Option.some.inj hstep
      exact Or.inl ⟨hgoto _, Or.inl (Or.inr (Or.inr ⟨_, hat _⟩))⟩
    · obtain rfl := Option.some.inj hstep
      exact Or.inl ⟨hgoto _, Or.inr (hat _)⟩
    · obtain rfl := Option.some.inj hstep
      exact Or.inl ⟨hgoto _, Or.inl (Or.inl (hat _))⟩
  · simp only [step, produce, hp] at hstep
    split_ifs at hstep
    · obtain rfl := Option.some.inj hstep
      exact Or.inr ⟨pos, Function.update_self ..⟩
    · obtain rfl := Option.some.inj hstep
      exact Or.inl ⟨hgoto _, Or.inl (Or.inr (Or.inl ⟨_, hat _⟩))⟩

/-- One that has won a position stores there, and then its call returns true. -/
theorem produce_of_holds {pos : ℕ} (h : (q.producers t).holds pos) {spurious : Bool}
    (hstep : q.step cap (.produce t spurious) = some q') :
    (q'.producers t).holds pos ∨ q'.producers t = .idle := by
  rcases h with ⟨value, hp⟩ | hp
  · simp only [step, produce, hp] at hstep
    obtain rfl := Option.some.inj hstep
    exact Or.inl (Or.inr (Function.update_self ..))
  · simp only [step, produce, hp] at hstep
    obtain rfl := Option.some.inj hstep
    exact Or.inr (Function.update_self ..)

/-- A step that is not one of `t` leaves `t` where it is, unless `t` is called. -/
theorem producers_of_ne {e : Event α} (hbusy : (q.producers t).isIdle = false)
    (hne : ∀ spurious, e ≠ .produce t spurious) (hstep : q.step cap e = some q') :
    q'.producers t = q.producers t := by
  cases e with
  | push t' v =>
    simp only [step] at hstep
    split at hstep
    · rename_i hidle
      obtain rfl := Option.some.inj hstep
      refine Function.update_of_ne ?_ _ _
      rintro rfl
      rw [hidle] at hbusy
      cases hbusy
    · cases hstep
  | produce t' spurious =>
    have ht : t ≠ t' := by
      rintro rfl
      exact hne spurious rfl
    simp only [step, produce] at hstep
    split at hstep
    · cases hstep
    · obtain rfl := Option.some.inj hstep
      exact Function.update_of_ne ht _ _
    · split_ifs at hstep <;> obtain rfl := Option.some.inj hstep <;>
        exact Function.update_of_ne ht _ _
    · split_ifs at hstep <;> obtain rfl := Option.some.inj hstep <;>
        exact Function.update_of_ne ht _ _
    · obtain rfl := Option.some.inj hstep
      exact Function.update_of_ne ht _ _
    · obtain rfl := Option.some.inj hstep
      exact Function.update_of_ne ht _ _
  | popBatch room =>
    simp only [step] at hstep
    split_ifs at hstep
    obtain rfl := Option.some.inj hstep
    rfl
  | consume =>
    simp only [step, consume] at hstep
    split at hstep
    · cases hstep
    · obtain rfl := Option.some.inj hstep
      rfl
    · split_ifs at hstep <;> obtain rfl := Option.some.inj hstep <;> rfl
    · obtain rfl := Option.some.inj hstep
      rfl
    · obtain rfl := Option.some.inj hstep
      rfl

/-- The producer is in its call before each step of the run and after the last. -/
theorem busy_of_along {es : List (Event α)}
    (hbusy : Along (step cap) (fun w _ => (w.producers t).isIdle = false) q es)
    (hrun : exec (step cap) q es = some u) (hlast : (u.producers t).isIdle = false) :
    (q.producers t).isIdle = false := by
  cases es with
  | nil =>
    obtain rfl := Option.some.inj hrun
    exact hlast
  | cons e es => exact hbusy.1

/-- A call that has won a position does not read another. -/
theorem holds_of_exec {pos : ℕ} {es : List (Event α)}
    (hbusy : Along (step cap) (fun w _ => (w.producers t).isIdle = false) q es)
    (hrun : exec (step cap) q es = some u) (hlast : (u.producers t).isIdle = false)
    (h : (q.producers t).holds pos) : (u.producers t).holds pos := by
  induction es generalizing q with
  | nil =>
    obtain rfl := Option.some.inj hrun
    exact h
  | cons e es ih =>
    obtain ⟨w, hw, hex⟩ := Option.bind_eq_some_iff.1 hrun
    refine ih (hbusy.2 w hw) hex ?_
    by_cases he : ∃ spurious, e = .produce t spurious
    · obtain ⟨spurious, rfl⟩ := he
      refine (produce_of_holds h hw).resolve_right fun hidle => ?_
      have := busy_of_along (hbusy.2 w hw) hex hlast
      rw [hidle] at this
      cases this
    · rw [not_exists] at he
      rw [producers_of_ne hbusy.1 he hw]
      exact h

/-- **A call that fails only reads.** -/
theorem untouched_of_fails {es : List (Event α)}
    (hbusy : Along (step cap) (fun w _ => (w.producers t).isIdle = false) q es)
    (hrun : exec (step cap) q es = some u)
    (hlast : ∃ v pos, u.producers t = .loadSequence v pos) (h : (q.producers t).tries value) :
    (u.producers t).tries value ∧ Along (step cap) (OnlyMoves cap t) q es := by
  have hbusyLast : (u.producers t).isIdle = false := by
    obtain ⟨v, pos, hu⟩ := hlast
    rw [hu]
    rfl
  induction es generalizing q with
  | nil =>
    obtain rfl := Option.some.inj hrun
    exact ⟨h, trivial⟩
  | cons e es ih =>
    obtain ⟨w, hw, hex⟩ := Option.bind_eq_some_iff.1 hrun
    have hbusy' := busy_of_along (hbusy.2 w hw) hex hbusyLast
    by_cases he : ∃ spurious, e = .produce t spurious
    · obtain ⟨spurious, rfl⟩ := he
      rcases produce_of_tries h hw with ⟨hmoved, htries | hidle⟩ | ⟨pos, hwon⟩
      · obtain ⟨hvalue, hrest⟩ := ih (hbusy.2 w hw) hex htries
        refine ⟨hvalue, Along.cons ?_ hw hrest⟩
        intro spurious' w' _ hw'
        obtain rfl := Option.some.inj (hw.symm.trans hw')
        exact hmoved
      · rw [hidle] at hbusy'
        cases hbusy'
      · -- a position that is won is published before the call ends
        obtain ⟨v, pos', hu⟩ := hlast
        have hholds := holds_of_exec (hbusy.2 w hw) hex hbusyLast (Or.inl ⟨value, hwon⟩)
        rw [hu] at hholds
        rcases hholds with ⟨v', hv'⟩ | hv' <;> cases hv'
    · rw [not_exists] at he
      have hsame := producers_of_ne hbusy.1 he hw
      obtain ⟨hvalue, hrest⟩ := ih (hbusy.2 w hw) hex (hsame ▸ h)
      exact ⟨hvalue, Along.cons (fun spurious w' heq => absurd heq (he spurious)) hw hrest⟩

/-! ### Whole runs -/

/-- **A push that fails changes nothing**, however long the run is. -/
theorem FailedPush.refused {es : List (Event α)} (h : FailedPush cap t value q es u u') :
    Refused cap t value q es u u' := by
  obtain ⟨q₁, hcall, hex⟩ := Option.bind_eq_some_iff.1 h.run
  obtain rfl : q.goto t (.loadPos value) = q₁ := by
    simp only [step] at hcall
    split at hcall
    · exact Option.some.inj hcall
    · cases hcall
  obtain ⟨⟨v, pos, hu⟩, hidle⟩ := h.returns
  obtain ⟨spurious, hlast⟩ := h.last
  have htries : ((q.goto t (.loadPos value)).producers t).tries value := by
    rw [goto_producers, Function.update_self]
    exact Or.inl rfl
  obtain ⟨hvalue, huntouched⟩ := untouched_of_fails h.inCall hex ⟨v, pos, hu⟩ htries
  obtain rfl : v = value := by
    rw [hu] at hvalue
    rcases hvalue with hv | ⟨_, hv⟩ | ⟨_, hv⟩ <;> cases hv
    rfl
  refine ⟨⟨pos, hu⟩, ?_, huntouched⟩
  rcases produce_of_tries hvalue hlast with ⟨hmoved, -⟩ | ⟨pos', hwon⟩
  · rw [hmoved, hidle]
  · cases hidle.symm.trans hwon

/-- **What a failure says.**  In every run of any number of producers and one consumer: a push
that fails left the queue and the value of its caller as they were, and with `Capacity` pushes
less than `2 ^ 63` it found the queue full; and `PopBatch` stops short only where the first
position is not published. -/
theorem failures (cap : Capacity) {es : List (Event α)} (hrun : exec (step cap) {} es = some q) :
    (∀ t value fs u u', FailedPush cap t value q fs u u' → Refused cap t value q fs u u' ∧
      (u.won.length + cap.size ≤ 2 ^ 63 → u.enqueuePos = u.dequeuePos + cap.size)) ∧
    ∀ room q', q.won.length < 2 ^ 63 → q.consumer = .load (room + 1) →
      q.step cap .consume = some q' → q'.consumer = .idle →
      (q.slot cap q.dequeuePos).sequence ≠ q.dequeuePos + 1 := by
  have hsize := two_le_size cap
  constructor
  · intro t value fs u u' hfailed
    refine ⟨hfailed.refused, fun hn => ?_⟩
    obtain ⟨⟨v, pos, hu⟩, hidle⟩ := hfailed.returns
    obtain ⟨spurious, hlast⟩ := hfailed.last
    have hreach : exec (step cap) {} (es ++ .push t value :: fs) = some u := by
      rw [exec_append, hrun]
      exact hfailed.run
    have h : u.Ordered cap := ordered_of_exec hreach (by omega)
    have hfull := tryPush_full cap hreach hn hu hlast hidle
    rw [h.places_length] at hfull
    have := h.le
    have := h.le_add
    omega
  · intro room q' hn hconsumer hstep hidle hpublished
    have h : q.Ordered cap := ordered_of_exec hrun hn
    have hnone := (popBatch_ends cap hrun hn hconsumer hstep).1 hidle
    rw [h.pop_eq_none_iff, hpublished] at hnone
    have := (diff_neg_iff (Or.inr rfl)).1 hnone
    omega

/-- Two slots are taken, and the third push finds no other. -/
def threeInTwo : List (Event ℕ) :=
  [.push 0 5, .produce 0 false, .produce 0 false, .produce 0 false, .produce 0 false,
    .produce 0 false, .push 0 6, .produce 0 false, .produce 0 false, .produce 0 false,
    .produce 0 false, .produce 0 false]

/-- Two slots. -/
def twoSlots : Capacity := ⟨1, by decide, by decide⟩

theorem failures_threeInTwo : ∃ q u u', exec (step twoSlots) {} threeInTwo = some q ∧
    FailedPush twoSlots 0 7 q [.produce 0 false] u u' ∧
      Refused twoSlots 0 7 q [.produce 0 false] u u' ∧ u.enqueuePos = 2 ∧ u.dequeuePos = 0 := by
  have hfailed : ∃ q u u', exec (step twoSlots) {} threeInTwo = some q ∧
      FailedPush twoSlots 0 7 q [.produce 0 false] u u' ∧ u.won.length = 2 ∧ u.dequeuePos = 0 :=
    ⟨_, _, _, rfl, ⟨rfl, ⟨rfl, fun _ _ => trivial⟩, ⟨false, rfl⟩, ⟨_, _, rfl⟩, rfl⟩, rfl, rfl⟩
  obtain ⟨q, u, u', hrun, hcall, hwon, hdequeue⟩ := hfailed
  have hsize : twoSlots.size = 2 := rfl
  obtain ⟨hrefused, hfull⟩ := (failures twoSlots hrun).1 0 7 _ u u' hcall
  have henqueue := hfull (by omega)
  exact ⟨q, u, u', hrun, hcall, hrefused, by omega, hdequeue⟩

/-! ### A position that is `2 ^ 63` behind -/

/-- A call of `TryPush`. -/
def Event.isPush : Event α → Bool
  | .push _ _ => true
  | _ => false

/-- One element goes through the queue with nobody else at work. -/
def lap (t : ℕ) (value : α) : List (Event α) :=
  (.push t value :: List.replicate 5 (.produce t false)) ++
    (.popBatch 1 :: List.replicate 4 .consume)

theorem goto_goto (q : RingQueue α) (t : ℕ) (p p' : Producer α) :
    (q.goto t p).goto t p' = q.goto t p' := by
  unfold goto
  rw [Function.update_idem]

theorem setSlot_setSlot (q : RingQueue α) (cap : Capacity) (pos : ℕ) (a b : Slot α) :
    (q.setSlot cap pos a).setSlot cap pos b = q.setSlot cap pos b := by
  unfold setSlot
  rw [Function.update_idem]

theorem setSlot_goto (q : RingQueue α) (cap : Capacity) (pos t : ℕ) (a : Slot α)
    (p : Producer α) : (q.goto t p).setSlot cap pos a = (q.setSlot cap pos a).goto t p := rfl

/-- The queue after one element went through it. -/
def passed (cap : Capacity) (q : RingQueue α) (value : α) : RingQueue α :=
  { q.setSlot cap q.enqueuePos ⟨q.enqueuePos + cap.size, none⟩ with
    enqueuePos := q.enqueuePos + 1
    dequeuePos := q.dequeuePos + 1
    won := q.won ++ [value]
    popped := q.popped ++ [some value] }

/-- Where nobody else is at work, the push wins the next position and publishes it. -/
theorem exec_push (hidle : q.producers t = .idle) (hn : q.enqueuePos + 1 < 2 ^ 63)
    (hslot : q.slot cap q.enqueuePos = ⟨q.enqueuePos, none⟩) :
    exec (step cap) q (.push t value :: List.replicate 5 (.produce t false)) =
      some (setSlot { q with
        enqueuePos := q.enqueuePos + 1
        won := q.won ++ [value] } cap q.enqueuePos ⟨q.enqueuePos + 1, some value⟩) := by
  have hzero : diff q.enqueuePos q.enqueuePos = 0 :=
    (diff_eq_zero_iff (by omega) (by omega)).2 rfl
  have hmod : (q.enqueuePos + 1) % 2 ^ 64 = q.enqueuePos + 1 := Nat.mod_eq_of_lt (by omega)
  generalize hwon : ({ q with
    enqueuePos := q.enqueuePos + 1
    won := q.won ++ [value] } : RingQueue α) = w
  have hcall : q.step cap (.push t value) = some (q.goto t (.loadPos value)) := by
    simp only [step, hidle]
  have hpos : (q.goto t (.loadPos value)).step cap (.produce t false) =
      some (q.goto t (.loadSequence value q.enqueuePos)) := by
    simp only [step, produce, goto_producers, Function.update_self, goto_goto]
    rfl
  have hseq : (q.goto t (.loadSequence value q.enqueuePos)).step cap (.produce t false) =
      some (q.goto t (.exchange value q.enqueuePos)) := by
    simp only [step, produce, goto_producers, Function.update_self, goto_goto, goto_slot, hslot,
      hzero, if_true]
  have hwin : (q.goto t (.exchange value q.enqueuePos)).step cap (.produce t false) =
      some (w.goto t (.construct value q.enqueuePos)) := by
    simp only [step, produce, goto, Function.update_self, Function.update_idem, hmod,
      and_self, if_true, ← hwon]
  have hconstruct : (w.goto t (.construct value q.enqueuePos)).step cap (.produce t false) =
      some ((w.setSlot cap q.enqueuePos ⟨q.enqueuePos, some value⟩).goto t
        (.publish q.enqueuePos)) := by
    have hsame : w.slot cap q.enqueuePos = q.slot cap q.enqueuePos := by
      rw [← hwon]
      rfl
    simp only [step, produce, goto_producers, Function.update_self, goto_slot, setSlot_goto,
      goto_goto, hsame, hslot]
  have hpublish : ((w.setSlot cap q.enqueuePos ⟨q.enqueuePos, some value⟩).goto t
      (.publish q.enqueuePos)).step cap (.produce t false) =
      some ((w.setSlot cap q.enqueuePos ⟨q.enqueuePos + 1, some value⟩).goto t .idle) := by
    simp only [step, produce, goto_producers, Function.update_self, goto_slot, setSlot_goto,
      goto_goto, slot_setSlot_self, setSlot_setSlot, hmod]
  have hback : (w.setSlot cap q.enqueuePos ⟨q.enqueuePos + 1, some value⟩).goto t .idle =
      w.setSlot cap q.enqueuePos ⟨q.enqueuePos + 1, some value⟩ := by
    unfold goto
    rw [← hwon, show (RingQueue.setSlot { q with
      enqueuePos := q.enqueuePos + 1
      won := q.won ++ [value] } cap q.enqueuePos ⟨q.enqueuePos + 1, some value⟩).producers =
        q.producers from rfl, ← hidle, Function.update_eq_self]
    rfl
  simp only [List.replicate, exec_cons, exec_nil, hcall, hpos, hseq, hwin, hconstruct, hpublish,
    hback, Option.bind_some]

/-- The consumer takes one element out and comes back. -/
theorem exec_pop (hidle : q.consumer = .idle) (hn : q.dequeuePos + 1 < 2 ^ 63)
    (hslot : q.slot cap q.dequeuePos = ⟨q.dequeuePos + 1, some value⟩) :
    exec (step cap) q (.popBatch 1 :: List.replicate 4 .consume) =
      some { q.setSlot cap q.dequeuePos ⟨q.dequeuePos + cap.size, none⟩ with
        dequeuePos := q.dequeuePos + 1
        popped := q.popped ++ [some value] } := by
  have hsize := size_le cap
  have hsome : ¬ diff (q.dequeuePos + 1) (q.dequeuePos + 1) < 0 := by
    rw [(diff_eq_zero_iff (by omega) (by omega)).2 rfl]
    decide
  have hmod : (q.dequeuePos + 1) % 2 ^ 64 = q.dequeuePos + 1 := Nat.mod_eq_of_lt (by omega)
  have hmod' : (q.dequeuePos + cap.size) % 2 ^ 64 = q.dequeuePos + cap.size :=
    Nat.mod_eq_of_lt (by omega)
  have hcall : q.step cap (.popBatch 1) = some { q with consumer := .load 1 } := by
    simp only [step, hidle, if_true]
  have hload : ({ q with consumer := .load 1 } : RingQueue α).step cap .consume =
      some { q with consumer := .move 0 } := by
    simp only [step, consume, slot, hmod]
    rw [show q.slots (index cap q.dequeuePos) = _ from hslot, if_neg hsome]
  have hmove : ({ q with consumer := .move 0 } : RingQueue α).step cap .consume =
      some { q.setSlot cap q.dequeuePos ⟨q.dequeuePos + 1, none⟩ with
        popped := q.popped ++ [some value]
        consumer := .release 0 } := by
    simp only [step, consume, slot]
    rw [show q.slots (index cap q.dequeuePos) = _ from hslot]
    rfl
  have hrelease : ({ q.setSlot cap q.dequeuePos ⟨q.dequeuePos + 1, none⟩ with
      popped := q.popped ++ [some value]
      consumer := .release 0 } : RingQueue α).step cap .consume =
      some { q.setSlot cap q.dequeuePos ⟨q.dequeuePos + cap.size, none⟩ with
        dequeuePos := q.dequeuePos + 1
        popped := q.popped ++ [some value]
        consumer := .load 0 } := by
    simp only [step, consume, slot, setSlot, Function.update_self, Function.update_idem, hmod,
      hmod']
  have hend : ({ q.setSlot cap q.dequeuePos ⟨q.dequeuePos + cap.size, none⟩ with
      dequeuePos := q.dequeuePos + 1
      popped := q.popped ++ [some value]
      consumer := .load 0 } : RingQueue α).step cap .consume =
      some { q.setSlot cap q.dequeuePos ⟨q.dequeuePos + cap.size, none⟩ with
        dequeuePos := q.dequeuePos + 1
        popped := q.popped ++ [some value] } := by
    simp only [step, consume, setSlot, ← hidle]
  simp only [List.replicate, exec_cons, exec_nil, hcall, hload, hmove, hrelease, hend,
    Option.bind_some]

/-- **One lap** takes both positions one further. -/
theorem exec_lap (h : q.Ordered cap) (hempty : q.enqueuePos = q.dequeuePos)
    (hproducer : q.producers t = .idle) (hconsumer : q.consumer = .idle)
    (hn : q.enqueuePos + 1 < 2 ^ 63) : exec (step cap) q (lap t value) =
      some (q.passed cap value) := by
  have hsize := two_le_size cap
  have hslot := h.free q.enqueuePos le_rfl (by omega)
  rw [lap, exec_append, exec_push hproducer hn hslot, Option.bind_some]
  generalize hpushed : setSlot { q with
    enqueuePos := q.enqueuePos + 1
    won := q.won ++ [value] } cap q.enqueuePos ⟨q.enqueuePos + 1, some value⟩ = w
  have hdequeue : w.dequeuePos = q.enqueuePos := by
    rw [← hpushed, hempty]
    rfl
  have hpublished : w.slot cap w.dequeuePos = ⟨w.dequeuePos + 1, some value⟩ := by
    rw [hdequeue, ← hpushed, slot_setSlot_self]
  have hidle : w.consumer = .idle := by
    rw [← hpushed]
    exact hconsumer
  rw [exec_pop hidle (by omega) hpublished, hdequeue, ← hpushed, setSlot_setSlot, passed, hempty]
  rfl

theorem Ordered.exec (h : q.Ordered cap) {es : List (Event α)}
    (hrun : exec (RingQueue.step cap) q es = some q') (hn : q'.won.length < 2 ^ 63) :
    q'.Ordered cap :=
  exec_invariant (I := fun q : RingQueue α => q.won.length < 2 ^ 63 → q.Ordered cap)
    (fun _ => h)
    (fun _ _ _ h hstep hn => (h ((won_length_le hstep).trans_lt hn)).step hstep hn) hrun hn

/-- Any number of laps. -/
def laps (t : ℕ) (value : α) (n : ℕ) : List (Event α) := (List.replicate n (lap t value)).flatten

theorem exec_laps (t : ℕ) (value : α) (h : q.Ordered cap) (hempty : q.enqueuePos = q.dequeuePos)
    (hproducer : q.producers t = .idle) (hconsumer : q.consumer = .idle) (n : ℕ)
    (hn : q.enqueuePos + n < 2 ^ 63) : ∃ w, exec (step cap) q (laps t value n) = some w ∧
      w.Ordered cap ∧ w.enqueuePos = q.enqueuePos + n ∧ w.dequeuePos = q.dequeuePos + n ∧
      w.producers = q.producers := by
  induction n generalizing q with
  | zero => exact ⟨q, rfl, h, rfl, rfl, rfl⟩
  | succ n ih =>
    have hlen := h.length
    have hlap : exec (step cap) q (lap t value) = some (q.passed cap value) :=
      exec_lap h hempty hproducer hconsumer (by omega)
    have hordered : (q.passed cap value).Ordered cap := by
      refine h.exec hlap ?_
      simp only [passed, List.length_append, List.length_singleton]
      omega
    obtain ⟨w, hw, hw', henqueue, hdequeue, hsame⟩ := ih hordered
      (congrArg (· + 1) hempty) hproducer hconsumer
      (by change q.enqueuePos + 1 + n < 2 ^ 63; omega)
    refine ⟨w, ?_, hw', ?_, ?_, hsame⟩
    · rw [laps, List.replicate_succ, List.flatten_cons, exec_append, hlap]
      exact hw
    · rw [henqueue]
      change q.enqueuePos + 1 + n = _
      omega
    · rw [hdequeue]
      change q.dequeuePos + 1 + n = _
      omega

/-- Who is in a call stays there while the others work. -/
theorem along_of_ne {es : List (Event α)} (hbusy : (q.producers t).isIdle = false)
    (hne : ∀ spurious, .produce t spurious ∉ es) :
    Along (step cap) (fun w _ => (w.producers t).isIdle = false) q es := by
  induction es generalizing q with
  | nil => exact trivial
  | cons e es ih =>
    refine ⟨hbusy, fun w hw => ih ?_ fun spurious he => hne spurious (List.mem_cons_of_mem _ he)⟩
    rw [producers_of_ne hbusy (fun spurious he => hne spurious (he ▸ List.mem_cons_self)) hw]
    exact hbusy

/-- Four slots. -/
def fourSlots : Capacity := ⟨2, by decide, by decide⟩

/-- The producer 0 reads the first position, and then the producer 1 and the consumer go
round. -/
def around (n : ℕ) : List (Event ℕ) := .produce 0 false :: laps 1 5 n

theorem countP_around (n : ℕ) : (around n).countP Event.isPush = n := by
  simp [around, laps, lap, List.countP_flatten, List.countP_cons, List.replicate, Event.isPush]

theorem not_mem_laps (n : ℕ) (spurious : Bool) : Event.produce 0 spurious ∉ laps 1 5 n := by
  simp [laps, lap]

theorem exec_around (n : ℕ) (hn : n < 2 ^ 63) : ∃ u : RingQueue ℕ,
    exec (step fourSlots) {} (.push 0 7 :: around n) = some u ∧ u.Ordered fourSlots ∧
      u.enqueuePos = n ∧ u.dequeuePos = n ∧ u.producers 0 = .loadSequence 7 0 ∧
      Along (step fourSlots) (fun w _ => (w.producers 0).isIdle = false)
        (goto {} 0 (.loadPos 7)) (around n) := by
  have hread : (goto {} 0 (.loadPos 7) : RingQueue ℕ).step fourSlots (.produce 0 false) =
      some (goto {} 0 (.loadSequence 7 0)) := by
    simp only [step, produce, goto_producers, Function.update_self, goto_goto]
    rfl
  have hstale : (goto {} 0 (.loadSequence 7 0) : RingQueue ℕ).Ordered fourSlots :=
    (ordered_init fourSlots).goto (not_holds_of (by rintro _ _ ⟨⟩) (by rintro _ ⟨⟩))
      (by rintro _ _ ⟨⟩; exact le_rfl) (by rintro _ _ ⟨⟩)
  obtain ⟨u, hu, hordered, henqueue, hdequeue, hsame⟩ := exec_laps 1 5 hstale rfl rfl rfl n
    (by change 0 + n < 2 ^ 63; omega)
  refine ⟨u, ?_, hordered, ?_, ?_, ?_, ?_⟩
  · change (((goto {} 0 (.loadPos 7) : RingQueue ℕ).step fourSlots (.produce 0 false)).bind
      fun w => exec (step fourSlots) w (laps 1 5 n)) = some u
    rw [hread]
    exact hu
  · exact henqueue.trans (Nat.zero_add n)
  · exact hdequeue.trans (Nat.zero_add n)
  · rw [hsame]
    rfl
  · exact Along.cons rfl hread (along_of_ne rfl fun spurious => not_mem_laps n spurious)

/-- **A push may find an empty queue full**: the position that it read is `2 ^ 63` behind. -/
theorem lapped_spurious : ¬ ∀ (cap : Capacity) (es fs : List (Event ℕ)) (q u u' : RingQueue ℕ)
    (t value : ℕ), exec (step cap) {} es = some q → FailedPush cap t value q fs u u' →
      (es ++ .push t value :: fs).countP Event.isPush < 2 ^ 63 →
      u.enqueuePos = u.dequeuePos + cap.size := by
  intro hclaim
  obtain ⟨n, hn⟩ : ∃ n, n + 3 = 2 ^ 63 := ⟨2 ^ 63 - 3, by omega⟩
  obtain ⟨u, hu, hordered, henqueue, hdequeue, hproducer, hbusy⟩ := exec_around n (by omega)
  have hfour : fourSlots.size = 4 := rfl
  have hslot : u.slot fourSlots 0 = ⟨2 ^ 63, none⟩ :=
    hordered.free (2 ^ 63) (by omega) (by omega)
  have hlast : u.step fourSlots (.produce 0 false) = some (u.goto 0 .idle) := by
    simp only [step, produce, hproducer, hslot]
    rfl
  have hidle : (u.goto 0 .idle).producers 0 = .idle := by
    rw [goto_producers, Function.update_self]
  have hfull := hclaim fourSlots [] (around n) {} u _ 0 7 rfl
    ⟨hu, hbusy, ⟨false, hlast⟩, ⟨7, 0, hproducer⟩, hidle⟩ ?_
  · omega
  · rw [List.nil_append, List.countP_cons_of_pos rfl, countP_around]
    omega

end RingQueue
end Common
end MiniRpc
