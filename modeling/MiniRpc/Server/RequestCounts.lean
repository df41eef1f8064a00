/-
# The request counters of a worker

`DispatchRequestToThreadPool` counts a request after `Submit` has returned, when it may
have been run already, and `DrainCompletedResponses` counts a response before it looks
for the connection (`src/server/worker_loop.cpp`).  This module adds these counters to
`OwnedLoop`, with the pool in between: the owner thread's loads and `fetch_add`s are steps of
their own, a request is in the pool from the moment `Submit` takes it, and a pool thread
takes it and finishes it in two steps more, whatever its handler did.  The requests of one
round are dispatched at the end of the round: what the round does after a call of
`DispatchRequestToThreadPool` reads and writes none of these counters.

A request that is counted in `in_flight_request_count_` is in memory, so this counter is a
plain number; the other two count all the requests ever and wrap around.
-/

import MiniRpc.Server.Ownership

namespace MiniRpc
namespace Server

open Protocol Splitter Transition

/-- Where the owner thread is with the counters. -/
inductive Counting where
  | outside
  /-- A response is in hand, and `in_flight_request_count_` was not 0. -/
  | subtracting
  | adding
  /-- The response is counted; its connection is looked for next. -/
  | counted
  /-- In `DispatchRequestToThreadPool`, before `Submit` and after it. -/
  | dispatching
  | addSubmitted
  | addInFlight
  deriving DecidableEq, Repr

/-- The response in hand is counted. -/
def Counting.isPast : Counting → Bool
  | .adding | .counted => true
  | _ => false

/-- A request that the pool has and `in_flight_request_count_` has not. -/
def Counting.owed : Counting → ℕ
  | .addSubmitted | .addInFlight => 1
  | _ => 0

/-- A request that was submitted and is counted neither as completed nor as in flight. -/
def Counting.ahead : Counting → ℕ
  | .adding | .addInFlight => 1
  | _ => 0

/-- The owner thread is between two of the steps that count. -/
def Counting.isBetween : Counting → Bool
  | .outside | .counted | .dispatching => true
  | _ => false

/-- A worker with its request counters. -/
structure CountedLoop where
  owned : OwnedLoop
  /-- `accepting` of `completed_queue_`. -/
  accepting : Bool := true
  inFlight : ℕ := 0
  submitted : BitVec 64 := 0
  completed : BitVec 64 := 0
  place : Counting := .outside
  /-- How many of the requests `Submit` has taken. -/
  dispatched : ℕ := 0
  /-- The requests in the queues of the pool, and those that are being run. -/
  queued : List ℕ := []
  running : List ℕ := []

namespace CountedLoop

/-- The owner thread goes on to the next request of the round, if there is one. -/
def afterDispatch (dispatched : ℕ) (owned : OwnedLoop) : Counting :=
  if dispatched < owned.tasks.length then .dispatching else .outside

/-- A step of the owner thread with the counters. -/
def count (s : CountedLoop) : Option CountedLoop :=
  match s.place with
  | .outside =>
    if s.owned.phase.inHand = [] then none
    else some { s with place := if 0 < s.inFlight then .subtracting else .adding }
  | .subtracting => some { s with inFlight := s.inFlight - 1, place := .adding }
  | .adding => some { s with completed := s.completed + 1, place := .counted }
  | .counted => none
  | .dispatching =>
    some { s with
      queued := s.queued ++ [s.dispatched]
      dispatched := s.dispatched + 1
      place := .addSubmitted }
  | .addSubmitted => some { s with submitted := s.submitted + 1, place := .addInFlight }
  | .addInFlight =>
    some { s with inFlight := s.inFlight + 1, place := afterDispatch s.dispatched s.owned }

/-- One step of one thread. -/
inductive Event where
  | enqueue (p : PendingConnection)
  | collect (events : List ReadyEvent)
  /-- The owner thread goes on in its poll. -/
  | work (now : Time)
  | count
  /-- A thread of the pool takes a request, and is done with it. -/
  | start (id : ℕ)
  | finish (id : ℕ)
  | setAccepting (accepting : Bool)

/-- One step, `none` if it cannot happen in the state. -/
def step (env : LoopEnv) (s : CountedLoop) : Event → Option CountedLoop
  | .enqueue p => (s.owned.act env (.enqueue p)).map fun owned => { s with owned }
  | .collect events =>
    if s.place = .outside then
      (s.owned.act env (.collect events)).map fun owned => { s with owned }
    else none
  | .work now =>
    -- a response that is in hand is counted before its round
    if s.place = (if s.owned.phase.inHand = [] then .outside else .counted) then
      (s.owned.act env (.work now)).map fun owned =>
        { s with owned, place := afterDispatch s.dispatched owned }
    else none
  | .count => s.count
  | .start id =>
    if id ∈ s.queued then
      some { s with queued := s.queued.erase id, running := s.running ++ [id] }
    else none
  | .finish id =>
    if id ∈ s.running then
      if s.accepting then
        (s.owned.act env (.complete id)).map fun owned =>
          { s with owned, running := s.running.erase id }
      else
        some { s with
          owned := { s.owned with ran := s.owned.ran ++ [id] }
          running := s.running.erase id }
    else none
  | .setAccepting accepting => some { s with accepting }

/-! ### What one action does to the responses -/

theorem deliver_ne_failed (env : LoopEnv) (w w' : WorkerLoop) (r : CompletedResponse)
    (error : String) : w.deliver env r ≠ .failed w' error := by
  rcases WorkerLoop.deliver_cases env w r with ⟨state, c, -, -, -, heq⟩ | ⟨-, heq, -⟩ | ⟨-, heq, -⟩
  · rw [heq]
    exact WorkerLoop.updateEpollInterest_ne_failed env _ w' _ error
  · rw [heq]
    exact WorkerLoop.closeConnection_ne_failed env _ w' _ error
  · rw [heq]
    simp

variable {env : LoopEnv} {o o' : OwnedLoop}

/-- What `epoll_wait` returns changes nothing that is counted. -/
theorem collect_counts {events : List ReadyEvent} (h : o.act env (.collect events) = some o') :
    o'.queue = o.queue ∧ o.phase.inHand = [] ∧ o'.phase.inHand = [] ∧ o'.ran = o.ran ∧
      o'.tasks = o.tasks := by
  simp only [OwnedLoop.act] at h
  split at h
  · rename_i hidle
    split_ifs at h
    · split at h
      · obtain rfl := Option.some.inj h
        exact ⟨rfl, by rw [hidle]; rfl, rfl, rfl, rfl⟩
      · obtain rfl := Option.some.inj h
        exact ⟨rfl, by rw [hidle]; rfl, by rw [hidle]; rfl, rfl, rfl⟩
      · cases h
    · obtain rfl := Option.some.inj h
      exact ⟨rfl, by rw [hidle]; rfl, rfl, rfl, rfl⟩
  · cases h

/-- **The owner thread goes on**: a response in hand is done with, or the responses of the
queue are taken in hand, or nothing that is counted changes; and requests may be dispatched. -/
theorem work_counts {now : Time} (h : o.act env (.work now) = some o') :
    o'.queue.length + o'.phase.inHand.length + (if o.phase.inHand = [] then 0 else 1) =
      o.queue.length + o.phase.inHand.length ∧
    o'.ran = o.ran ∧ ∃ more, o'.tasks = o.tasks ++ more := by
  have hnone : ∃ more, o.tasks = o.tasks ++ more := ⟨[], (List.append_nil _).symm⟩
  unfold OwnedLoop.act at h
  cases hphase : o.phase with
  | idle =>
    rw [hphase] at h
    cases h
  | adopting events pending =>
    rw [hphase] at h
    cases pending with
    | nil =>
      obtain rfl := Option.some.inj h
      exact ⟨by simp [PollPhase.inHand], rfl, hnone⟩
    | cons p ps =>
      dsimp only at h
      unfold OwnedLoop.adoptStep at h
      dsimp only at h
      split at h
      · obtain rfl := Option.some.inj h
        exact ⟨rfl, rfl, hnone⟩
      · obtain rfl := Option.some.inj h
        exact ⟨rfl, rfl, hnone⟩
      · cases h
  | delivering events ids =>
    rw [hphase] at h
    cases ids with
    | nil =>
      obtain rfl := Option.some.inj h
      exact ⟨rfl, rfl, hnone⟩
    | cons id ids =>
      dsimp only at h
      unfold OwnedLoop.deliverStep at h
      dsimp only at h
      split at h
      · split at h
        · obtain rfl := Option.some.inj h
          exact ⟨by simp [PollPhase.inHand]; omega, rfl, _, rfl⟩
        · obtain rfl := Option.some.inj h
          exact ⟨by simp [PollPhase.inHand]; omega, rfl, hnone⟩
      · -- a connection that cannot be served is closed, and the loop goes on
        rename_i hfailed
        exact absurd hfailed (deliver_ne_failed env _ _ _ _)
      · cases h
  | ticking events =>
    rw [hphase] at h
    obtain rfl := Option.some.inj h
    exact ⟨rfl, rfl, hnone⟩
  | handling events =>
    rw [hphase] at h
    cases events with
    | nil =>
      obtain rfl := Option.some.inj h
      exact ⟨rfl, rfl, hnone⟩
    | cons e events =>
      dsimp only at h
      unfold OwnedLoop.handleStep at h
      split at h
      · split at h
        · obtain rfl := Option.some.inj h
          exact ⟨rfl, rfl, _, rfl⟩
        · obtain rfl := Option.some.inj h
          exact ⟨rfl, rfl, hnone⟩
      · obtain rfl := Option.some.inj h
        exact ⟨rfl, rfl, hnone⟩
      · cases h

/-! ### The counters -/

variable {s s' : CountedLoop}

/-- How many responses the owner thread has taken from the queue and not yet counted. -/
def inHand (s : CountedLoop) : ℕ :=
  s.owned.phase.inHand.length - if s.place.isPast then 1 else 0

/-- The counters are right: what was submitted was completed or is in flight, and what is in
flight is in the pool or waits for the owner thread. -/
structure Balanced (s : CountedLoop) : Prop where
  submitted : s.submitted = s.completed + BitVec.ofNat 64 s.inFlight
  inFlight : s.inFlight =
    s.queued.length + s.running.length + s.owned.queue.length + s.inHand

/-- What holds in every state of a run in which the queue accepts. -/
structure Counted (s : CountedLoop) : Prop where
  inFlight : s.inFlight + s.place.owed =
    s.queued.length + s.running.length + s.owned.queue.length + s.inHand
  submitted : s.submitted = s.completed + BitVec.ofNat 64 (s.inFlight + s.place.ahead)
  /-- Who counts a response has it in hand. -/
  holds : s.place = .subtracting ∨ s.place.isPast = true → s.owned.phase.inHand ≠ []

/-- **A response is never drained at 0.** -/
theorem Counted.inFlight_pos (h : s.Counted) (hplace : s.place = .outside)
    (hhand : s.owned.phase.inHand ≠ []) : 0 < s.inFlight := by
  have hinFlight := h.inFlight
  rw [inHand, hplace] at hinFlight
  have := List.length_pos_iff.2 hhand
  change s.inFlight + 0 = _ + _ + _ + (_ - 0) at hinFlight
  omega

/-- A step of the owner thread with the counters. -/
theorem Counted.count (h : s.Counted) (hstep : s.count = some s') : s'.Counted := by
  have hinFlight := h.inFlight
  have hsubmitted := h.submitted
  rw [inHand] at hinFlight
  unfold CountedLoop.count at hstep
  cases hplace : s.place with
  | outside =>
    rw [hplace] at hstep hinFlight hsubmitted
    dsimp only at hstep
    split_ifs at hstep with hnone hpos
    · obtain rfl := Option.some.inj hstep
      exact ⟨hinFlight, hsubmitted, fun _ => hnone⟩
    · exact absurd (h.inFlight_pos hplace hnone) hpos
  | subtracting =>
    rw [hplace] at hstep hinFlight hsubmitted
    obtain rfl := Option.some.inj hstep
    have hhand := h.holds (Or.inl hplace)
    have hpos := List.length_pos_iff.2 hhand
    change s.inFlight + 0 = _ + _ + _ + (_ - 0) at hinFlight
    refine ⟨?_, ?_, fun _ => hhand⟩
    · change s.inFlight - 1 + 0 = s.queued.length + s.running.length + s.owned.queue.length +
        (s.owned.phase.inHand.length - 1)
      omega
    · change s.submitted = s.completed + BitVec.ofNat 64 (s.inFlight - 1 + 1)
      rw [Nat.sub_add_cancel (by omega)]
      exact hsubmitted
  | adding =>
    rw [hplace] at hstep hinFlight hsubmitted
    obtain rfl := Option.some.inj hstep
    refine ⟨hinFlight, ?_, fun _ => h.holds (Or.inr (by rw [hplace]; rfl))⟩
    change s.submitted = s.completed + 1 + BitVec.ofNat 64 (s.inFlight + 0)
    rw [hsubmitted, Nat.add_zero]
    change s.completed + BitVec.ofNat 64 (s.inFlight + 1) = _
    rw [Nat.add_comm, BitVec.ofNat_add, ← BitVec.add_assoc]
    rfl
  | counted =>
    rw [hplace] at hstep
    cases hstep
  | dispatching =>
    rw [hplace] at hstep hinFlight hsubmitted
    obtain rfl := Option.some.inj hstep
    refine ⟨?_, hsubmitted, nofun⟩
    change s.inFlight + 0 = _ + _ + _ + (_ - 0) at hinFlight
    change s.inFlight + 1 = (s.queued ++ [s.dispatched]).length + s.running.length +
      s.owned.queue.length + (s.owned.phase.inHand.length - 0)
    rw [List.length_append, List.length_singleton]
    omega
  | addSubmitted =>
    rw [hplace] at hstep hinFlight hsubmitted
    obtain rfl := Option.some.inj hstep
    refine ⟨hinFlight, ?_, nofun⟩
    change s.submitted + 1 = s.completed + BitVec.ofNat 64 (s.inFlight + 1)
    rw [BitVec.ofNat_add, ← BitVec.add_assoc, hsubmitted]
    rfl
  | addInFlight =>
    rw [hplace] at hstep hinFlight hsubmitted
    obtain rfl := Option.some.inj hstep
    unfold afterDispatch
    split_ifs
    · exact ⟨hinFlight, hsubmitted, nofun⟩
    · exact ⟨hinFlight, hsubmitted, nofun⟩

/-- The owner thread goes on in its poll. -/
theorem Counted.work (h : s.Counted) {now : Time}
    (hplace : s.place = if s.owned.phase.inHand = [] then .outside else .counted)
    (hact : s.owned.act env (.work now) = some o') :
    ({ s with owned := o', place := afterDispatch s.dispatched o' } : CountedLoop).Counted := by
  obtain ⟨hcounts, -, -⟩ := work_counts hact
  have hinFlight := h.inFlight
  have hsubmitted := h.submitted
  rw [inHand] at hinFlight
  have hafter : (afterDispatch s.dispatched o').owed = 0 ∧
      (afterDispatch s.dispatched o').ahead = 0 ∧
      (afterDispatch s.dispatched o').isPast = false ∧
      afterDispatch s.dispatched o' ≠ .subtracting := by
    unfold afterDispatch
    split_ifs <;> exact ⟨rfl, rfl, rfl, nofun⟩
  obtain ⟨howed, hahead, hpast, hnot⟩ := hafter
  refine ⟨?_, ?_, ?_⟩
  · change s.inFlight + (afterDispatch s.dispatched o').owed = s.queued.length + s.running.length +
      o'.queue.length + (o'.phase.inHand.length -
        if (afterDispatch s.dispatched o').isPast then 1 else 0)
    rw [howed, hpast]
    split_ifs at hplace hcounts with hnone
    · rw [hplace] at hinFlight
      change s.inFlight + 0 = _ + _ + _ + (_ - 0) at hinFlight
      change _ = _ + (_ - 0)
      omega
    · rw [hplace] at hinFlight
      have := List.length_pos_iff.2 hnone
      change s.inFlight + 0 = _ + _ + _ + (_ - 1) at hinFlight
      change _ = _ + (_ - 0)
      omega
  · change s.submitted = s.completed +
      BitVec.ofNat 64 (s.inFlight + (afterDispatch s.dispatched o').ahead)
    rw [hahead]
    split_ifs at hplace
    · rw [hplace] at hsubmitted
      exact hsubmitted
    · rw [hplace] at hsubmitted
      exact hsubmitted
  · rintro (hsub | hpast')
    · exact absurd hsub hnot
    · cases hpast.symm.trans hpast'

/-- **One step**, while the queue accepts. -/
theorem Counted.step (h : s.Counted) {e : Event} (haccepting : s.accepting = true)
    (hstep : s.step env e = some s') : s'.Counted := by
  cases e with
  | enqueue p =>
    simp only [CountedLoop.step] at hstep
    obtain ⟨owned, hact, rfl⟩ := Option.map_eq_some_iff.1 hstep
    obtain rfl := Option.some.inj hact
    exact ⟨h.inFlight, h.submitted, h.holds⟩
  | collect events =>
    simp only [CountedLoop.step] at hstep
    split_ifs at hstep with hplace
    obtain ⟨owned, hact, rfl⟩ := Option.map_eq_some_iff.1 hstep
    obtain ⟨hqueue, hnone, hnone', -, -⟩ := collect_counts hact
    refine ⟨?_, h.submitted, ?_⟩
    · have hinFlight := h.inFlight
      rw [inHand, hnone] at hinFlight
      change s.inFlight + s.place.owed = s.queued.length + s.running.length +
        owned.queue.length + (owned.phase.inHand.length - if s.place.isPast then 1 else 0)
      rw [hqueue, hnone']
      exact hinFlight
    · rw [hplace]
      nofun
  | work now =>
    simp only [CountedLoop.step] at hstep
    by_cases hplace : s.place = if s.owned.phase.inHand = [] then .outside else .counted
    · rw [if_pos hplace] at hstep
      obtain ⟨owned, hact, rfl⟩ := Option.map_eq_some_iff.1 hstep
      exact h.work hplace hact
    · rw [if_neg hplace] at hstep
      cases hstep
  | count => exact h.count hstep
  | start id =>
    simp only [CountedLoop.step] at hstep
    split_ifs at hstep with hmem
    obtain rfl := Option.some.inj hstep
    refine ⟨?_, h.submitted, h.holds⟩
    have hinFlight := h.inFlight
    have hpos := List.length_pos_of_mem hmem
    change s.inFlight + s.place.owed = (s.queued.erase id).length + (s.running ++ [id]).length +
      s.owned.queue.length + s.inHand
    rw [List.length_erase_of_mem hmem, List.length_append, List.length_singleton]
    omega
  | finish id =>
    simp only [CountedLoop.step, haccepting, if_true] at hstep
    split_ifs at hstep with hmem
    obtain ⟨owned, hact, rfl⟩ := Option.map_eq_some_iff.1 hstep
    simp only [OwnedLoop.act] at hact
    split_ifs at hact
    obtain rfl := Option.some.inj hact
    refine ⟨?_, h.submitted, h.holds⟩
    have hinFlight := h.inFlight
    have hpos := List.length_pos_of_mem hmem
    change s.inFlight + s.place.owed = s.queued.length + (s.running.erase id).length +
      (s.owned.queue ++ [id]).length + s.inHand
    rw [List.length_erase_of_mem hmem, List.length_append, List.length_singleton]
    omega
  | setAccepting accepting =>
    obtain rfl := Option.some.inj hstep
    exact ⟨h.inFlight, h.submitted, h.holds⟩

theorem Counted.balanced (h : s.Counted) (hbetween : s.place.isBetween = true) :
    s.Balanced := by
  have hinFlight := h.inFlight
  have hsubmitted := h.submitted
  have hnone : s.place.owed = 0 ∧ s.place.ahead = 0 := by
    cases hplace : s.place with
    | outside | counted | dispatching => exact ⟨rfl, rfl⟩
    | _ =>
      rw [hplace] at hbetween
      cases hbetween
  rw [hnone.1] at hinFlight
  rw [hnone.2] at hsubmitted
  exact ⟨hsubmitted, hinFlight⟩

theorem counted_init (h : o.Initial) : ({ owned := o } : CountedLoop).Counted := by
  refine ⟨?_, rfl, nofun⟩
  change 0 = 0 + 0 + o.queue.length + o.phase.inHand.length
  rw [h.queue, h.idle]
  rfl

/-! ### Every run of the worker is counted -/

/-- A run from `s` to `t` in which the queue accepts. -/
def AcceptingRun (env : LoopEnv) (s t : CountedLoop) : Prop :=
  ∃ es, exec (step env) s es = some t ∧
    Along (step env) (fun u _ => u.accepting = true) s es

theorem AcceptingRun.refl (env : LoopEnv) (s : CountedLoop) : AcceptingRun env s s :=
  ⟨[], rfl, trivial⟩

theorem AcceptingRun.head {u : CountedLoop} {e : Event} (haccepting : s.accepting = true)
    (hstep : s.step env e = some u) (h : AcceptingRun env u s') : AcceptingRun env s s' := by
  obtain ⟨es, hex, halong⟩ := h
  exact ⟨e :: es, by rw [exec_cons, hstep]; exact hex, Along.cons haccepting hstep halong⟩

theorem AcceptingRun.trans {u : CountedLoop} (h : AcceptingRun env s u)
    (h' : AcceptingRun env u s') : AcceptingRun env s s' := by
  obtain ⟨es, hex, halong⟩ := h
  induction es generalizing s with
  | nil =>
    obtain rfl := Option.some.inj hex
    exact h'
  | cons e es ih =>
    obtain ⟨v, hv, hex⟩ := Option.bind_eq_some_iff.1 hex
    exact (ih hex (halong.2 v hv)).head halong.1 hv

/-- The owner thread is at rest with the counters, and the pool has every request that was not
run, and no other. -/
structure AtRest (s : CountedLoop) : Prop where
  accepting : s.accepting = true
  place : s.place = .outside
  dispatched : s.dispatched = s.owned.tasks.length
  running : s.running = []
  length : s.queued.length + s.owned.ran.length = s.owned.tasks.length
  queued : ∀ id < s.owned.tasks.length, id ∉ s.owned.ran → id ∈ s.queued

/-- The requests of a round are dispatched one after the other. -/
theorem exec_dispatches (env : LoopEnv) (n : ℕ)
    (hplace : s.place = afterDispatch s.dispatched s.owned)
    (hn : s.dispatched + n = s.owned.tasks.length) (haccepting : s.accepting = true)
    (hrunning : s.running = []) (hlength : s.queued.length + s.owned.ran.length = s.dispatched)
    (hqueued : ∀ id < s.dispatched, id ∉ s.owned.ran → id ∈ s.queued) :
    ∃ t, AcceptingRun env s t ∧ t.owned = s.owned ∧ t.AtRest := by
  induction n generalizing s with
  | zero =>
    refine ⟨s, .refl env s, rfl, haccepting, ?_, hn, hrunning, hlength.trans hn, ?_⟩
    · rw [hplace, afterDispatch, if_neg (by omega)]
    · rw [← hn]
      exact hqueued
  | succ n ih =>
    rw [afterDispatch, if_pos (by omega)] at hplace
    have hsubmit : s.step env .count = some { s with
        queued := s.queued ++ [s.dispatched]
        dispatched := s.dispatched + 1
        place := .addSubmitted } := by
      simp only [CountedLoop.step, CountedLoop.count, hplace]
    obtain ⟨t, hrun, howned, hrest⟩ := ih (s := { s with
        queued := s.queued ++ [s.dispatched]
        dispatched := s.dispatched + 1
        submitted := s.submitted + 1
        inFlight := s.inFlight + 1
        place := afterDispatch (s.dispatched + 1) s.owned }) rfl
      (by change s.dispatched + 1 + n = s.owned.tasks.length; omega) haccepting hrunning (by
        change (s.queued ++ [s.dispatched]).length + s.owned.ran.length = s.dispatched + 1
        rw [List.length_append, List.length_singleton]
        omega) (by
        intro id hid hran
        rcases Nat.lt_succ_iff_lt_or_eq.1 hid with hid | rfl
        · exact List.mem_append_left _ (hqueued id hid hran)
        · exact List.mem_append_right _ (List.mem_singleton.2 rfl))
    exact ⟨t, .head haccepting hsubmit (.head (e := .count) haccepting rfl
      (.head (e := .count) haccepting rfl hrun)), howned, hrest⟩

/-- The owner thread counts the response that it has in hand, if it has one. -/
theorem exec_countResponse (env : LoopEnv) (h : s.AtRest) :
    ∃ t, AcceptingRun env s t ∧
      t.place = (if s.owned.phase.inHand = [] then .outside else .counted) ∧
      t.accepting = true ∧ t.owned = s.owned ∧ t.dispatched = s.dispatched ∧
      t.queued = s.queued ∧ t.running = s.running := by
  by_cases hhand : s.owned.phase.inHand = []
  · exact ⟨s, .refl env s, by rw [if_pos hhand]; exact h.place, h.accepting, rfl, rfl, rfl, rfl⟩
  · rw [if_neg hhand]
    have hload : s.step env .count = some { s with
        place := if 0 < s.inFlight then .subtracting else .adding } := by
      simp only [CountedLoop.step, CountedLoop.count, h.place]
      rw [if_neg hhand]
    by_cases hpos : 0 < s.inFlight
    · rw [if_pos hpos] at hload
      exact ⟨{ s with inFlight := s.inFlight - 1, completed := s.completed + 1, place := .counted },
        .head h.accepting hload (.head (e := .count) h.accepting rfl
          (.head (e := .count) h.accepting rfl (.refl env _))),
        rfl, h.accepting, rfl, rfl, rfl, rfl⟩
    · rw [if_neg hpos] at hload
      exact ⟨{ s with completed := s.completed + 1, place := .counted },
        .head h.accepting hload (.head (e := .count) h.accepting rfl (.refl env _)),
        rfl, h.accepting, rfl, rfl, rfl, rfl⟩

/-- **Each action of the worker is a run with the counters.** -/
theorem exec_act (h : s.AtRest) {a : OwnedLoop.Action} (hact : s.owned.act env a = some o') :
    ∃ t, AcceptingRun env s t ∧ t.owned = o' ∧ t.AtRest := by
  cases a with
  | enqueue p =>
    have hstep : s.step env (.enqueue p) = some { s with owned := o' } := by
      simp only [CountedLoop.step, hact, Option.map_some]
    have hsame : o'.tasks = s.owned.tasks ∧ o'.ran = s.owned.ran := by
      obtain rfl := Option.some.inj hact
      exact ⟨rfl, rfl⟩
    refine ⟨_, .head h.accepting hstep (.refl env _), rfl, h.accepting, h.place, ?_, h.running,
      ?_, ?_⟩
    · exact h.dispatched.trans (congrArg List.length hsame.1.symm)
    · change s.queued.length + o'.ran.length = o'.tasks.length
      rw [hsame.1, hsame.2]
      exact h.length
    · change ∀ id < o'.tasks.length, id ∉ o'.ran → id ∈ s.queued
      rw [hsame.1, hsame.2]
      exact h.queued
  | collect events =>
    have hstep : s.step env (.collect events) = some { s with owned := o' } := by
      simp only [CountedLoop.step, h.place, hact, Option.map_some, if_true]
    obtain ⟨-, -, -, hran, htasks⟩ := collect_counts hact
    refine ⟨_, .head h.accepting hstep (.refl env _), rfl, h.accepting, h.place, ?_, h.running,
      ?_, ?_⟩
    · exact h.dispatched.trans (congrArg List.length htasks.symm)
    · change s.queued.length + o'.ran.length = o'.tasks.length
      rw [htasks, hran]
      exact h.length
    · change ∀ id < o'.tasks.length, id ∉ o'.ran → id ∈ s.queued
      rw [htasks, hran]
      exact h.queued
  | complete id =>
    have hact' := hact
    simp only [OwnedLoop.act] at hact'
    split_ifs at hact' with hid
    have hstart : s.step env (.start id) = some { s with
        queued := s.queued.erase id, running := s.running ++ [id] } := by
      simp only [CountedLoop.step]
      rw [if_pos (h.queued id hid.1 hid.2)]
    have hfinish : ({ s with queued := s.queued.erase id, running := s.running ++ [id] } :
        CountedLoop).step env (.finish id) = some { s with
          owned := o', queued := s.queued.erase id, running := (s.running ++ [id]).erase id } := by
      simp only [CountedLoop.step]
      rw [if_pos (List.mem_append_right _ (List.mem_singleton.2 rfl)), if_pos h.accepting, hact]
      rfl
    obtain rfl := Option.some.inj hact'
    have hqueued := h.queued id hid.1 hid.2
    refine ⟨_, .head h.accepting hstart (.head h.accepting hfinish (.refl env _)), rfl,
      h.accepting, h.place, h.dispatched, ?_, ?_, fun id' hid' hran => ?_⟩
    · change (s.running ++ [id]).erase id = []
      rw [h.running, List.nil_append, List.erase_cons_head]
    · have hpos := List.length_pos_of_mem hqueued
      have hlength := h.length
      change (s.queued.erase id).length + (s.owned.ran ++ [id]).length = s.owned.tasks.length
      rw [List.length_erase_of_mem hqueued, List.length_append, List.length_singleton]
      omega
    · obtain ⟨hold, hne⟩ := not_or.1 (fun hor => hran (List.mem_append.2 hor))
      exact (List.mem_erase_of_ne fun heq => hne (List.mem_singleton.2 heq)).2
        (h.queued id' hid' hold)
  | work now =>
    obtain ⟨u, hrun, hplace, haccepting, howned, hdispatched, hqueued, hrunning⟩ :=
      exec_countResponse env h
    obtain ⟨-, hran, more, htasks⟩ := work_counts hact
    have hstep : u.step env (.work now) = some { u with
        owned := o', place := afterDispatch u.dispatched o' } := by
      simp only [CountedLoop.step]
      rw [howned, if_pos hplace, hact]
      rfl
    obtain ⟨t, hdispatch, ht, hrest⟩ := exec_dispatches env more.length
      (s := { u with owned := o', place := afterDispatch u.dispatched o' }) rfl
      (by
        change u.dispatched + more.length = o'.tasks.length
        rw [hdispatched, h.dispatched, htasks, List.length_append])
      haccepting (hrunning.trans h.running) (by
        change u.queued.length + o'.ran.length = u.dispatched
        rw [hqueued, hran, hdispatched, h.dispatched]
        exact h.length) (by
        change ∀ id < u.dispatched, id ∉ o'.ran → id ∈ u.queued
        rw [hdispatched, hqueued, hran, h.dispatched]
        exact h.queued)
    exact ⟨t, hrun.trans (.head haccepting hstep hdispatch), ht, hrest⟩

/-- **Every run of the worker is the worker's part of a run with the counters.** -/
theorem exec_actions {actions : List OwnedLoop.Action} (h : s.AtRest)
    (hrun : exec (OwnedLoop.act env) s.owned actions = some o') :
    ∃ t, AcceptingRun env s t ∧ t.owned = o' ∧ t.AtRest := by
  induction actions generalizing s with
  | nil =>
    obtain rfl := Option.some.inj hrun
    exact ⟨s, .refl env s, rfl, h⟩
  | cons a actions ih =>
    obtain ⟨u, hu, hrest⟩ := Option.bind_eq_some_iff.1 hrun
    obtain ⟨v, hv, rfl, hatRest⟩ := exec_act h hu
    obtain ⟨t, ht, howned, hatRest'⟩ := ih hatRest hrest
    exact ⟨t, hv.trans ht, howned, hatRest'⟩

/-! ### The request counters -/

/-- **The request counters are right.**  In every run of a worker, its pool and its acceptor
while `completed_queue_` accepts: whenever the owner thread is between two of its steps, what
was submitted is what was completed and what is in flight, and what is in flight is in the
queues of the pool, is being run, waits in `completed_queue_`, or was taken from there and is
counted next; and the count is not 0 when a response is drained. -/
theorem request_counts (env : LoopEnv) (h : o.Initial) {es : List Event}
    (hrun : exec (step env) { owned := o } es = some s)
    (haccepting : Along (step env) (fun u _ => u.accepting = true) { owned := o } es) :
    (s.place.isBetween = true → s.Balanced) ∧
    (s.owned.phase.inHand = [] → s.inHand = 0) ∧
    (s.place = .outside → s.owned.phase.inHand ≠ [] → 0 < s.inFlight) := by
  have hcounted : s.Counted := exec_along (I := CountedLoop.Counted)
    (fun _ _ _ h haccepting hstep => h.step haccepting hstep) (counted_init h) haccepting hrun
  refine ⟨hcounted.balanced, fun hnone => ?_, hcounted.inFlight_pos⟩
  rw [inHand, hnone]
  exact Nat.zero_sub _

/-- The first connection of a worker sends a request and goes away: one request is in flight,
and it is in the pool. -/
theorem request_counts_firstVisit :
    ∃ es s, exec (step OwnedLoop.poolEnv) { owned := OwnedLoop.beginning } es = some s ∧
      s.owned.tasks.length = 1 ∧ s.inFlight = 1 ∧ s.queued = [0] ∧ s.running = [] ∧
      s.place = .outside ∧ s.Balanced ∧ s.inHand = 0 := by
  obtain ⟨actions, owner, applied, hvisit⟩ := OwnedLoop.exec_first_visit
  have hrest : ({ owned := OwnedLoop.beginning } : CountedLoop).AtRest :=
    ⟨rfl, rfl, rfl, rfl, rfl, fun _ hid => absurd hid (Nat.not_lt_zero _)⟩
  obtain ⟨s, ⟨es, hrun, haccepting⟩, howned, hs⟩ := exec_actions hrest hvisit
  obtain ⟨hbetween, hnone, -⟩ := request_counts OwnedLoop.poolEnv OwnedLoop.initial_beginning
    hrun haccepting
  have hbalanced : s.Balanced := hbetween (by rw [hs.place]; rfl)
  have hhand : s.inHand = 0 := hnone (by rw [howned]; rfl)
  have htasks : s.owned.tasks.length = 1 := by rw [howned]; rfl
  have hran : s.owned.ran = [] := by rw [howned]; rfl
  have hqueued : s.queued = [0] := by
    have hlength : s.queued.length + 0 = 1 := by
      have h := hs.length
      rwa [hran, htasks] at h
    have hmem := hs.queued 0 (by rw [htasks]; exact Nat.one_pos) (by rw [hran]; exact nofun)
    obtain ⟨id, hid⟩ := List.length_eq_one_iff.1 hlength
    rw [hid, List.mem_singleton] at hmem
    rw [hid, hmem]
  have hinFlight : s.inFlight = 1 := by
    rw [hbalanced.inFlight, hqueued, hs.running, hhand, howned]
    rfl
  exact ⟨es, s, hrun, htasks, hinFlight, hqueued, hs.running, hs.place, hbalanced, hhand⟩

end CountedLoop
end Server
end MiniRpc
