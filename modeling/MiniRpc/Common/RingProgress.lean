/-
# What a push costs

`TryPush` of `src/common/mpsc_ring_queue.h` goes around its loop when it read a
position that another producer has won since.  There is no lock, and a producer may be
overtaken any number of times; but each time another push has won a position.

Every step of a producer pays a toll, and a call brings five with it.  A producer that
goes around again pays two more, which the push that overtook it left there
(`toll_produce`).  So the steps in `TryPush` are bounded by the calls, whatever the
interleaving (`tryPush_steps_le`).
-/

import MiniRpc.Common.RingFailures
import Mathlib.Algebra.Order.BigOperators.Group.Finset

namespace MiniRpc
namespace Common

open Transition

/-- What a producer has still to pay, when the counter is `enqueuePos`: its steps to the
end of `TryPush`, and two for a position that is gone. -/
def Producer.toll {α : Type*} (enqueuePos : ℕ) : Producer α → ℕ
  | .idle => 0
  | .loadPos _ => 5
  | .loadSequence _ pos => if pos = enqueuePos then 4 else 6
  | .exchange _ pos => if pos = enqueuePos then 3 else 5
  | .construct _ _ => 2
  | .publish _ => 1

/-- A change of the counter costs a producer two at most. -/
theorem Producer.toll_le {α : Type*} (p : Producer α) (n m : ℕ) : p.toll n ≤ p.toll m + 2 := by
  cases p with
  | loadSequence _ pos | exchange _ pos =>
    simp only [toll]
    split_ifs <;> omega
  | idle | loadPos | construct | publish => exact Nat.le_add_right _ _

namespace RingQueue

variable {α : Type*} {cap : Capacity} {q q' : RingQueue α} {t : ℕ} {ts : Finset ℕ}

/-- A producer goes on in `TryPush`. -/
def Event.isProduce : Event α → Bool
  | .produce _ _ => true
  | _ => false

/-- If the event is an exchange, it may fail for no reason. -/
def Event.isSpurious : Event α → Bool
  | .produce _ spurious => spurious
  | _ => false

/-- What the producers `ts` have still to pay. -/
def toll (ts : Finset ℕ) (q : RingQueue α) : ℕ := ∑ t ∈ ts, (q.producers t).toll q.enqueuePos

/-- **One producer moves**, and each of the others pays at most `k` more. -/
theorem toll_move (q q' : RingQueue α) (ht : t ∈ ts) {p : Producer α} {k : ℕ}
    (hproducers : q'.producers = Function.update q.producers t p)
    (hothers : ∀ c : Producer α, c.toll q'.enqueuePos ≤ c.toll q.enqueuePos + k) :
    q'.toll ts + (q.producers t).toll q.enqueuePos ≤
      q.toll ts + p.toll q'.enqueuePos + (ts.card - 1) * k := by
  have hsplit := Finset.add_sum_erase ts (fun u => (q.producers u).toll q.enqueuePos) ht
  have hsplit' := Finset.add_sum_erase ts (fun u => (q'.producers u).toll q'.enqueuePos) ht
  have hself : (q'.producers t).toll q'.enqueuePos = p.toll q'.enqueuePos := by
    rw [hproducers, Function.update_self]
  have hrest : ∑ u ∈ ts.erase t, (q'.producers u).toll q'.enqueuePos ≤
      ∑ u ∈ ts.erase t, (q.producers u).toll q.enqueuePos + (ts.card - 1) * k := by
    calc ∑ u ∈ ts.erase t, (q'.producers u).toll q'.enqueuePos
        ≤ ∑ u ∈ ts.erase t, ((q.producers u).toll q.enqueuePos + k) := by
          refine Finset.sum_le_sum fun u hu => ?_
          rw [hproducers, Function.update_of_ne (Finset.ne_of_mem_erase hu)]
          exact hothers _
      _ = _ := by
          rw [Finset.sum_add_distrib, Finset.sum_const_nat fun _ _ => rfl,
            Finset.card_erase_of_mem ht]
  unfold toll
  omega

/-- A producer moves and the counter stays. -/
theorem toll_goto (q q' : RingQueue α) (ht : t ∈ ts) {p : Producer α}
    (hpos : q'.enqueuePos = q.enqueuePos)
    (hproducers : q'.producers = Function.update q.producers t p) :
    q'.toll ts + (q.producers t).toll q.enqueuePos ≤ q.toll ts + p.toll q.enqueuePos := by
  have hmove := toll_move q q' ht hproducers (k := 0) fun c => by rw [hpos]; exact le_rfl
  rw [hpos] at hmove
  omega

/-- A position whose slot has a higher number is gone. -/
theorem Ordered.ne_of_diff_pos (h : q.Ordered cap) (hn : q.won.length < 2 ^ 63)
    (hzero : diff (q.slot cap q.enqueuePos).sequence q.enqueuePos ≠ 0) :
    diff (q.slot cap q.enqueuePos).sequence q.enqueuePos < 0 := by
  have hsize := two_le_size cap
  have hle := h.le_add
  have hlen := h.length
  rcases Nat.lt_or_ge q.enqueuePos (q.dequeuePos + cap.size) with hroom | hfull
  · refine absurd ?_ hzero
    have hpos : q.enqueuePos < 2 ^ 64 := by omega
    rw [h.free _ le_rfl hroom]
    exact (diff_eq_zero_iff hpos hpos).2 rfl
  · have hseq := h.sequence_of_full (by omega)
    rw [diff_neg_iff_lt (by omega) (by omega)]
    omega

/-- **A step in `TryPush` pays.**  An exchange that fails for no reason costs two, and one
that wins costs two for each of the others. -/
theorem toll_produce (h : q.Ordered cap) (hn : q.won.length < 2 ^ 63) (ht : t ∈ ts)
    {spurious : Bool} (hstep : q.produce cap t spurious = some q') :
    q'.toll ts + 1 + (ts.card - 1) * 2 * q.won.length ≤
      q.toll ts + 2 * spurious.toNat + (ts.card - 1) * 2 * q'.won.length := by
  unfold RingQueue.produce at hstep
  cases hp : q.producers t <;> rw [hp] at hstep
  case idle => cases hstep
  case loadPos value =>
    obtain rfl := Option.some.inj hstep
    have hgoto := toll_goto q (q.goto t (.loadSequence value q.enqueuePos)) ht rfl rfl
    rw [hp] at hgoto
    simp only [Producer.toll, if_true] at hgoto
    show _ ≤ _ + _ + (ts.card - 1) * 2 * q.won.length
    omega
  case loadSequence value pos =>
    dsimp only at hstep
    split_ifs at hstep with hzero hneg
    · obtain rfl := Option.some.inj hstep
      have hgoto := toll_goto q (q.goto t (.exchange value pos)) ht rfl rfl
      rw [hp] at hgoto
      simp only [Producer.toll] at hgoto
      show _ ≤ _ + _ + (ts.card - 1) * 2 * q.won.length
      split_ifs at hgoto <;> omega
    · obtain rfl := Option.some.inj hstep
      have hgoto := toll_goto q (q.goto t .idle) ht rfl rfl
      rw [hp] at hgoto
      simp only [Producer.toll] at hgoto
      show _ ≤ _ + _ + (ts.card - 1) * 2 * q.won.length
      split_ifs at hgoto <;> omega
    · -- around again: the position is gone
      obtain rfl := Option.some.inj hstep
      have hgone : pos ≠ q.enqueuePos := by
        rintro rfl
        exact hneg (h.ne_of_diff_pos hn hzero)
      have hgoto := toll_goto q (q.goto t (.loadPos value)) ht rfl rfl
      rw [hp] at hgoto
      simp only [Producer.toll, if_neg hgone] at hgoto
      show _ ≤ _ + _ + (ts.card - 1) * 2 * q.won.length
      omega
  case exchange value pos =>
    dsimp only at hstep
    split_ifs at hstep with hwin
    · obtain rfl := Option.some.inj hstep
      obtain ⟨rfl, -⟩ := hwin
      have hmove := toll_move q (RingQueue.goto { q with
        enqueuePos := (q.enqueuePos + 1) % 2 ^ 64
        won := q.won ++ [value] } t (.construct value q.enqueuePos)) ht rfl fun c => c.toll_le _ _
      rw [hp] at hmove
      simp only [Producer.toll, if_true] at hmove
      show _ ≤ _ + _ + (ts.card - 1) * 2 * (q.won ++ [value]).length
      generalize (ts.card - 1) * 2 = n at hmove ⊢
      rw [List.length_append, List.length_singleton, Nat.mul_succ]
      omega
    · obtain rfl := Option.some.inj hstep
      have hgoto := toll_goto q (q.goto t (.loadSequence value q.enqueuePos)) ht rfl rfl
      rw [hp] at hgoto
      simp only [Producer.toll, if_true] at hgoto
      show _ ≤ _ + _ + (ts.card - 1) * 2 * q.won.length
      -- the position was gone, or the failure is spurious
      by_cases hpos : pos = q.enqueuePos
      · have hspurious : spurious = true := by simpa [hpos] using hwin
        rw [if_pos hpos] at hgoto
        rw [hspurious, Bool.toNat_true]
        omega
      · rw [if_neg hpos] at hgoto
        omega
  case construct value pos =>
    obtain rfl := Option.some.inj hstep
    have hgoto := toll_goto q ((q.setSlot cap pos
      ⟨(q.slot cap pos).sequence, some value⟩).goto t (.publish pos)) ht rfl rfl
    rw [hp] at hgoto
    simp only [Producer.toll] at hgoto
    show _ ≤ _ + _ + (ts.card - 1) * 2 * q.won.length
    omega
  case publish pos =>
    obtain rfl := Option.some.inj hstep
    have hgoto := toll_goto q ((q.setSlot cap pos
      ⟨(pos + 1) % 2 ^ 64, (q.slot cap pos).storage⟩).goto t .idle) ht rfl rfl
    rw [hp] at hgoto
    simp only [Producer.toll] at hgoto
    show _ ≤ _ + _ + (ts.card - 1) * 2 * q.won.length
    omega

/-- The other producers stay where they are. -/
theorem produce_producers {spurious : Bool} (hstep : q.produce cap t spurious = some q') :
    ∃ p, q'.producers = Function.update q.producers t p := by
  unfold RingQueue.produce at hstep
  split at hstep
  · cases hstep
  · obtain rfl := Option.some.inj hstep
    exact ⟨_, rfl⟩
  · dsimp only at hstep
    split_ifs at hstep <;> obtain rfl := Option.some.inj hstep <;> exact ⟨_, rfl⟩
  · split_ifs at hstep <;> obtain rfl := Option.some.inj hstep <;> exact ⟨_, rfl⟩
  · obtain rfl := Option.some.inj hstep
    exact ⟨_, rfl⟩
  · obtain rfl := Option.some.inj hstep
    exact ⟨_, rfl⟩

/-- The consumer takes nothing from the producers. -/
theorem consume_producers (hstep : q.consume cap = some q') :
    q'.producers = q.producers ∧ q'.enqueuePos = q.enqueuePos ∧ q'.won = q.won := by
  unfold RingQueue.consume at hstep
  split at hstep
  · cases hstep
  · obtain rfl := Option.some.inj hstep
    exact ⟨rfl, rfl, rfl⟩
  · split_ifs at hstep <;> obtain rfl := Option.some.inj hstep <;> exact ⟨rfl, rfl, rfl⟩
  · obtain rfl := Option.some.inj hstep
    exact ⟨rfl, rfl, rfl⟩
  · obtain rfl := Option.some.inj hstep
    exact ⟨rfl, rfl, rfl⟩

/-- What was paid so far, and what is still to be paid, by the producers `ts`, who make all
the calls. -/
structure Paid (ts : Finset ℕ) (es : List (Event α)) (q : RingQueue α) : Prop where
  idle : ∀ t ∉ ts, q.producers t = .idle
  toll : es.countP Event.isProduce + q.toll ts ≤ 5 * es.countP Event.isPush +
    2 * es.countP Event.isSpurious + (ts.card - 1) * 2 * q.won.length

/-- **Every step pays.** -/
theorem Paid.step {es : List (Event α)} (h : Paid ts es q) (hq : q.Ordered cap)
    (hn : q.won.length < 2 ^ 63) {e : Event α} (hts : ∀ t value, e = .push t value → t ∈ ts)
    (hstep : q.step cap e = some q') : Paid ts (es ++ [e]) q' := by
  have htoll := h.toll
  cases e with
  | push t value =>
    have ht := hts t value rfl
    simp only [RingQueue.step] at hstep
    split at hstep
    · rename_i hidle
      obtain rfl := Option.some.inj hstep
      have hgoto := toll_goto q (q.goto t (.loadPos value)) ht rfl rfl
      rw [hidle] at hgoto
      simp only [Producer.toll] at hgoto
      refine ⟨fun u hu => ?_, ?_⟩
      · have hne : u ≠ t := by
          rintro rfl
          exact hu ht
        rw [goto_producers, Function.update_of_ne hne, h.idle u hu]
      · simp only [List.countP_append, List.countP_singleton, Event.isProduce, Event.isPush,
          Event.isSpurious]
        show _ ≤ _ + (ts.card - 1) * 2 * q.won.length
        simp only [if_true, Bool.false_eq_true, if_false]
        omega
    · cases hstep
  | produce t spurious =>
    have ht : t ∈ ts := by
      by_contra hnot
      simp [RingQueue.step, RingQueue.produce, h.idle t hnot] at hstep
    have hpaid := toll_produce hq hn ht hstep
    refine ⟨fun u hu => ?_, ?_⟩
    · have hne : u ≠ t := by
        rintro rfl
        exact hu ht
      obtain ⟨p, hproducers⟩ := produce_producers hstep
      rw [hproducers, Function.update_of_ne hne, h.idle u hu]
    · have hspurious : [(.produce t spurious : Event α)].countP Event.isSpurious =
          spurious.toNat := by
        cases spurious <;> rfl
      simp only [List.countP_append, hspurious]
      show _ + 1 + _ ≤ 5 * (_ + 0) + _ + _
      omega
  | popBatch room =>
    simp only [RingQueue.step] at hstep
    split_ifs at hstep
    obtain rfl := Option.some.inj hstep
    refine ⟨h.idle, ?_⟩
    simp only [List.countP_append]
    exact htoll
  | consume =>
    obtain ⟨hproducers, hpos, hwon⟩ := consume_producers hstep
    refine ⟨by rw [hproducers]; exact h.idle, ?_⟩
    have hsame : q'.toll ts = q.toll ts := by
      unfold RingQueue.toll
      rw [hproducers, hpos]
    simp only [List.countP_append, hsame, hwon]
    exact htoll

/-- **How many steps the pushes take.**  In every run of any number of producers and one
consumer with fewer than `2 ^ 63` pushes, in which `n` producers make all the calls of
`TryPush`, these take five steps for each call, two more for each exchange that may fail
for no reason, and two for each of the other `n - 1` producers where a push wins.  So no
interleaving makes the producers overtake each other without end: some push wins. -/
theorem tryPush_steps_le (cap : Capacity) (ts : Finset ℕ) {es : List (Event α)}
    (hrun : exec (step cap) {} es = some q) (hn : q.won.length < 2 ^ 63)
    (hts : ∀ t value, .push t value ∈ es → t ∈ ts) :
    es.countP Event.isProduce ≤ 5 * es.countP Event.isPush + 2 * es.countP Event.isSpurious +
      2 * (ts.card - 1) * q.won.length := by
  have hpaid : Paid ts es q := by
    refine (exec_history (I := fun es q => exec (step cap) {} es = some q ∧
      (q.won.length < 2 ^ 63 → (∀ t value, .push t value ∈ es → t ∈ ts) → Paid ts es q))
      ⟨rfl, fun _ _ => ?_⟩ ?_ es q hrun).2 hn hts
    · refine ⟨fun _ _ => rfl, ?_⟩
      show 0 + ∑ t ∈ ts, (Producer.idle : Producer α).toll 0 ≤ _
      simp [Producer.toll]
    · rintro es q e q' ⟨hrun, h⟩ hstep
      refine ⟨exec_concat.2 ⟨q, hrun, hstep⟩, fun hn hts => ?_⟩
      have hn' := (won_length_le hstep).trans_lt hn
      refine (h hn' fun t value hpush => hts t value (List.mem_append_left _ hpush)).step
        (ordered_of_exec hrun hn') hn' (fun t value he => ?_) hstep
      exact hts t value (List.mem_append_right _ (List.mem_singleton.2 he.symm))
  have htoll := hpaid.toll
  rw [Nat.mul_comm (ts.card - 1) 2] at htoll
  omega

/-- Two producers race for two slots: one of them goes around once more. -/
theorem tryPush_steps_le_race : ∃ q, exec (step twoSlots) {} race = some q ∧
    race.countP Event.isProduce = 11 ∧ 11 ≤ 5 * 2 + 2 * 0 + 2 * (2 - 1) * q.won.length := by
  have hrun : (exec (step twoSlots) {} race).map (·.won) = some [6, 5] := by decide +kernel
  obtain ⟨q, hq, hwon⟩ := Option.map_eq_some_iff.1 hrun
  have hthreads : ∀ t value, Event.push t value ∈ race → t ∈ ({0, 1} : Finset ℕ) := by
    intro t value hpush
    simp [race] at hpush ⊢
    omega
  have hle := tryPush_steps_le twoSlots {0, 1} hq (by simp [hwon]) hthreads
  exact ⟨q, hq, by decide, hle⟩

end RingQueue
end Common
end MiniRpc
