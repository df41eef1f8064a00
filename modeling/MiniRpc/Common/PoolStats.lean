/-
# The counters of the thread pool

`Submit` and `WorkerMain` keep the numbers that `GetStatsSnapshot` reports
(`src/common/thread_pool.cpp`).  Each `fetch_add`, `fetch_sub` and load of them is a
step here, between the steps of `ThreadPool`: `Submit` counts a task after its push
and before its look at `is_waiting`; a worker subtracts its batch before it runs it,
and adds it to `completed_tasks_` afterwards.  The counters are 64-bit numbers and
wrap around.

A task is on two books, that of `pending` and that of `submitted_tasks_`; between its
push and the entry it is in the hands of its call.  `Accounted` says what the counters
are in terms of the entries and of where the workers are.
-/

import MiniRpc.Common.AcceptedTasks
import MiniRpc.Library.Ledger
import Mathlib.Algebra.BigOperators.Group.Finset.Piecewise

namespace MiniRpc
namespace Common

open Transition

/-- What a call of `Submit` has still to count of the task that it has pushed. -/
inductive Owed where
  | nothing
  | pending (task idx : ℕ)
  | submitted (task idx : ℕ)
  deriving DecidableEq, Repr

/-- The task, and its worker, that is not in `pending` yet. -/
def Owed.toPending : Owed → Option (ℕ × ℕ)
  | .pending task idx => some (task, idx)
  | _ => none

/-- The task, and its worker, that is not in `submitted_tasks_` yet. -/
def Owed.toSubmit : Owed → Option (ℕ × ℕ)
  | .pending task idx | .submitted task idx => some (task, idx)
  | .nothing => none

/-- The task, and its worker, whose place in the queue is still to be filled. -/
def Client.toFill : Client → Option (ℕ × ℕ)
  | .filling task idx _ _ => some (task, idx)
  | _ => none

/-- What is left to count after this step of the call: `TryPush` returns true. -/
def Client.owed : Client → Owed
  | .filling task idx _ _ => .pending task idx
  | _ => .nothing

/-- Where a worker is with the counters; `count` is the size of its batch. -/
inductive Tally where
  | outside
  /-- `data.pending.fetch_sub(count)`. -/
  | subtract (count : ℕ)
  | activate (count : ℕ)
  /-- The loop over the batch. -/
  | inside (count : ℕ)
  | deactivate (count : ℕ)
  /-- `completed_tasks_.fetch_add(count)`. -/
  | complete (count : ℕ)
  deriving DecidableEq, Repr

/-- A step of `WorkerMain` from this place, `none` where the counters come first. -/
def Tally.next : Tally → WorkerPlace → Option Tally
  | .outside, .notifying batch => some (.subtract batch.length)
  | .outside, _ => some .outside
  | .inside count, .running [] => some (.deactivate count)
  | .inside count, _ => some (.inside count)
  | _, _ => none

/-- The counter of `WorkerData`, with the worker's thread. -/
structure WorkerCounters where
  pending : BitVec 64 := 0
  tally : Tally := .outside
  /-- The tasks that were added to `pending` and to `submitted_tasks_`. -/
  counted : List ℕ := []
  submitted : List ℕ := []
  /-- How many were subtracted from `pending`, and added to `completed_tasks_`. -/
  subtracted : ℕ := 0
  completed : ℕ := 0

/-- `StatsSnapshot`. -/
structure StatsSnapshot where
  threadCount : ℕ := 0
  activeWorkers : BitVec 64 := 0
  queueSize : BitVec 64 := 0
  submittedTasks : BitVec 64 := 0
  completedTasks : BitVec 64 := 0
  acceptingTasks : Bool := false

/-- What a thread reads next in `GetStatsSnapshot`. -/
inductive Reading where
  | activeWorkers
  | submittedTasks
  | completedTasks
  | acceptingTasks
  | pending (i : ℕ)
  deriving DecidableEq, Repr

/-- The workers whose `pending` was read. -/
def Reading.upto : Reading → ℕ
  | .pending i => i
  | _ => 0

/-- The pool with its counters. -/
structure MeteredPool where
  pool : ThreadPool := {}
  counters : ℕ → WorkerCounters := fun _ => {}
  owes : ℕ → Owed := fun _ => .nothing
  activeWorkers : BitVec 64 := 0
  submittedTasks : BitVec 64 := 0
  completedTasks : BitVec 64 := 0
  /-- The threads in `GetStatsSnapshot`, and what it returned. -/
  readers : ℕ → Option (Reading × StatsSnapshot) := fun _ => none
  snapshots : List StatsSnapshot := []

namespace MeteredPool

/-- One step of one thread. -/
inductive Event where
  | pool (e : ThreadPool.Event)
  /-- The thread `t` counts in `Submit`. -/
  | count (t : ℕ)
  /-- The worker `i` counts in `WorkerMain`. -/
  | tally (i : ℕ)
  | getStatsSnapshot (u : ℕ)
  | load (u : ℕ)

/-- The counters of worker `i` are now `c`. -/
def setCounters (s : MeteredPool) (i : ℕ) (c : WorkerCounters) : MeteredPool :=
  { s with counters := Function.update s.counters i c }

/-- A step of the pool; who has something to count does that first. -/
def work (cfg : PoolConfig) (s : MeteredPool) : ThreadPool.Event → Option MeteredPool
  | .client t k =>
    if s.owes t = .nothing then
      (s.pool.step cfg (.client t k)).map fun pool =>
        { s with pool, owes := Function.update s.owes t (s.pool.clients t).owed }
    else none
  | .worker i => do
    let tally ← (s.counters i).tally.next (s.pool.data i).place
    let pool ← s.pool.step cfg (.worker i)
    pure (setCounters { s with pool } i { s.counters i with tally })
  | e => (s.pool.step cfg e).map fun pool => { s with pool }

/-- `Submit` counts its task.  After `Join` the data of the workers must not be touched. -/
def count (s : MeteredPool) (t : ℕ) : Option MeteredPool :=
  match s.owes t with
  | .nothing => none
  | .pending task idx =>
    if s.pool.joined then none
    else
      let c := s.counters idx
      some { s.setCounters idx { c with
        pending := c.pending + 1, counted := c.counted ++ [task] } with
        owes := Function.update s.owes t (.submitted task idx) }
  | .submitted task idx =>
    let c := s.counters idx
    some { s.setCounters idx { c with submitted := c.submitted ++ [task] } with
      submittedTasks := s.submittedTasks + 1
      owes := Function.update s.owes t .nothing }

/-- `WorkerMain` counts its batch. -/
def tally (s : MeteredPool) (i : ℕ) : Option MeteredPool :=
  let c := s.counters i
  match c.tally with
  | .outside | .inside _ => none
  | .subtract count =>
    some (s.setCounters i { c with
      pending := c.pending - BitVec.ofNat 64 count
      subtracted := c.subtracted + count
      tally := .activate count })
  | .activate count =>
    some { s.setCounters i { c with tally := .inside count } with
      activeWorkers := s.activeWorkers + 1 }
  | .deactivate count =>
    some { s.setCounters i { c with tally := .complete count } with
      activeWorkers := s.activeWorkers - 1 }
  | .complete count =>
    some { s.setCounters i { c with completed := c.completed + count, tally := .outside } with
      completedTasks := s.completedTasks + BitVec.ofNat 64 count }

/-- The thread `u` is now here in `GetStatsSnapshot`. -/
def setReader (s : MeteredPool) (u : ℕ) (r : Option (Reading × StatsSnapshot)) : MeteredPool :=
  { s with readers := Function.update s.readers u r }

/-- `GetStatsSnapshot` goes on. -/
def load (cfg : PoolConfig) (s : MeteredPool) (u : ℕ) : Option MeteredPool :=
  match s.readers u with
  | none => none
  | some (.activeWorkers, r) =>
    some (s.setReader u (some (.submittedTasks, { r with activeWorkers := s.activeWorkers })))
  | some (.submittedTasks, r) =>
    some (s.setReader u (some (.completedTasks, { r with submittedTasks := s.submittedTasks })))
  | some (.completedTasks, r) =>
    some (s.setReader u (some (.acceptingTasks, { r with completedTasks := s.completedTasks })))
  | some (.acceptingTasks, r) =>
    some (s.setReader u (some (.pending 0, { r with acceptingTasks := s.pool.acceptingTasks })))
  | some (.pending i, r) =>
    if s.pool.joined ∨ cfg.threads ≤ i then
      some { s.setReader u none with snapshots := s.snapshots ++ [r] }
    else
      some (s.setReader u (some (.pending (i + 1),
        { r with queueSize := r.queueSize + (s.counters i).pending })))

/-- One step, `none` if it cannot happen in the state. -/
def step (cfg : PoolConfig) (s : MeteredPool) : Event → Option MeteredPool
  | .pool e => s.work cfg e
  | .count t => s.count t
  | .tally i => s.tally i
  | .getStatsSnapshot u =>
    match s.readers u with
    | none => some (s.setReader u (some (.activeWorkers, { threadCount := cfg.threads })))
    | some _ => none
  | .load u => s.load cfg u

end MeteredPool

/-! ### What a step of the pool does to the numbers -/

namespace ThreadPool

variable {cfg : PoolConfig} {s s' : ThreadPool} {t k : ℕ}

/-- Who fills its place goes on in the call; otherwise a place is taken, or the tasks are as
they were. -/
theorem submitStep_toFill {accepting : Bool} {d d' : WorkerData} {c c' : Client}
    (h : submitStep cfg accepting t k d c = some (d', c')) :
    d'.ran = d.ran ∧ d'.place = d.place ∧
    ((c'.toFill = none ∧ d'.won = d.won) ∨
      ∃ task i, c.toFill = none ∧ c.unplaced = some task ∧ c.worker = some i ∧
        c'.toFill = some (task, i) ∧ d'.won = d.won ++ [task]) ∧
    ∀ task i, c.toFill = some (task, i) → c' ≠ .outside := by
  have hidle : ∀ {c c' : Client}, c.toFill = none →
      ∀ task i, c.toFill = some (task, i) → c' ≠ .outside := by
    intro c c' hnone task i hsome
    rw [hnone] at hsome
    cases hsome
  cases c with
  | tryPush task idx left =>
    simp only [submitStep] at h
    split_ifs at h
    · obtain ⟨rfl, rfl⟩ := Prod.mk.inj (Option.some.inj h)
      exact ⟨rfl, rfl, Or.inr ⟨task, idx, rfl, rfl, rfl, rfl, rfl⟩, hidle rfl⟩
    · obtain ⟨rfl, rfl⟩ := Prod.mk.inj (Option.some.inj h)
      exact ⟨rfl, rfl, Or.inl ⟨rfl, rfl⟩, hidle rfl⟩
    · obtain ⟨rfl, rfl⟩ := Prod.mk.inj (Option.some.inj h)
      exact ⟨rfl, rfl, Or.inl ⟨rfl, rfl⟩, hidle rfl⟩
  | slowPush task idx =>
    simp only [submitStep] at h
    split_ifs at h
    · obtain ⟨rfl, rfl⟩ := Prod.mk.inj (Option.some.inj h)
      exact ⟨rfl, rfl, Or.inr ⟨task, idx, rfl, rfl, rfl, rfl, rfl⟩, hidle rfl⟩
    · obtain ⟨rfl, rfl⟩ := Prod.mk.inj (Option.some.inj h)
      exact ⟨rfl, rfl, Or.inl ⟨rfl, rfl⟩, hidle rfl⟩
  | filling task idx ticket slow =>
    obtain ⟨rfl, rfl⟩ := Prod.mk.inj (Option.some.inj h)
    refine ⟨rfl, rfl, Or.inl ⟨?_, rfl⟩, fun _ _ _ => ?_⟩
    · cases slow <;> rfl
    · cases slow <;> simp
  | checkWaiting task idx =>
    obtain ⟨rfl, rfl⟩ := Prod.mk.inj (Option.some.inj h)
    refine ⟨rfl, rfl, Or.inl ⟨?_, rfl⟩, hidle rfl⟩
    split_ifs <;> rfl
  | slowAccepting task idx =>
    obtain ⟨rfl, rfl⟩ := Prod.mk.inj (Option.some.inj h)
    refine ⟨rfl, rfl, Or.inl ⟨?_, rfl⟩, hidle rfl⟩
    split_ifs <;> rfl
  | unlocking task idx ok =>
    obtain ⟨rfl, rfl⟩ := Prod.mk.inj (Option.some.inj h)
    exact ⟨rfl, rfl, Or.inl ⟨rfl, rfl⟩, hidle rfl⟩
  | slowSleep task idx =>
    obtain ⟨rfl, rfl⟩ := Prod.mk.inj (Option.some.inj h)
    exact ⟨rfl, rfl, Or.inl ⟨rfl, rfl⟩, hidle rfl⟩
  | lockNotify task idx | notifyOne task idx | lockSlow task idx | slowWaiting task idx =>
    simp only [submitStep] at h
    split_ifs at h
    obtain ⟨rfl, rfl⟩ := Prod.mk.inj (Option.some.inj h)
    exact ⟨rfl, rfl, Or.inl ⟨rfl, rfl⟩, hidle rfl⟩
  | _ => cases h

/-- The thread `t` makes a step: nobody else moves, and what was run stays. -/
structure Moves (s s' : ThreadPool) (t : ℕ) : Prop where
  others : ∀ u, u ≠ t → s'.clients u = s.clients u
  ran : ∀ i, (s'.data i).ran = (s.data i).ran
  place : ∀ i, (s'.data i).place = (s.data i).place
  /-- No task gets a place, or that of the call does. -/
  won : ((s'.clients t).toFill = none ∧ ∀ i, (s'.data i).won = (s.data i).won) ∨
    ∃ task i, (s.clients t).toFill = none ∧ (s.clients t).unplaced = some task ∧
      (s'.clients t).toFill = some (task, i) ∧
      (fun j => (s'.data j).won) =
        Function.update (fun j => (s.data j).won) i ((s.data i).won ++ [task])
  busy : ∀ task i, (s.clients t).toFill = some (task, i) → s'.clients t ≠ .outside

theorem moves_goto (s : ThreadPool) {c : Client} (hfill : c.toFill = none)
    (hold : (s.clients t).toFill = none) : Moves s (s.goto t c) t := by
  have hnew : (s.goto t c).clients t = c := Function.update_self ..
  refine ⟨fun u hu => Function.update_of_ne hu _ _, fun _ => rfl, fun _ => rfl,
    Or.inl ⟨by rw [hnew, hfill], fun _ => rfl⟩, fun task i hi => ?_⟩
  rw [hold] at hi
  cases hi

theorem Beside.moves {i : ℕ} {d : WorkerData} {c : Client} (h : Beside s s' t i d c)
    (hfill : c.toFill = none) (hold : (s.clients t).toFill = none) : Moves s s' t := by
  have hdata : ∀ j, (s'.data j).ran = (s.data j).ran ∧ (s'.data j).place = (s.data j).place ∧
      (s'.data j).won = (s.data j).won := by
    intro j
    rw [h.data, Function.update_apply]
    split_ifs with hj
    · rw [hj]
      exact ⟨h.same.ran, h.same.place, h.same.won⟩
    · exact ⟨rfl, rfl, rfl⟩
  have hnew : s'.clients t = c := by rw [h.clients, Function.update_self]
  refine ⟨fun u hu => by rw [h.clients, Function.update_of_ne hu], fun j => (hdata j).1,
    fun j => (hdata j).2.1, Or.inl ⟨by rw [hnew, hfill], fun j => (hdata j).2.2⟩,
    fun task i hi => ?_⟩
  rw [hold] at hi
  cases hi

theorem toFill_of_isAside {c : Client} (h : c.isAside = true) : c.toFill = none := by
  cases c with
  | filling task idx ticket slow => cases h
  | _ => rfl

/-- **A step of a call.** -/
theorem client_moves (h : s.client cfg t k = some s') : Moves s s' t := by
  rcases client_cases h with ⟨i, d, c, hworker, -, hsub, rfl⟩ | ⟨task, idx, hc, rfl⟩ |
    ⟨task, ok, hc, rfl⟩ | ⟨i, hc, ⟨-, rfl⟩ | ⟨-, rfl⟩⟩ | ⟨i, d, c, hc, hc', -, hbeside⟩
  · obtain ⟨hran, hplace, hwon, hbusy⟩ := submitStep_toFill hsub
    have hnew : ((s.setData i d).goto t c).clients t = c := Function.update_self ..
    have hdata : ∀ j, (((s.setData i d).goto t c).data j).ran = (s.data j).ran ∧
        (((s.setData i d).goto t c).data j).place = (s.data j).place := by
      intro j
      change (Function.update s.data i d j).ran = _ ∧ (Function.update s.data i d j).place = _
      rw [Function.update_apply]
      split_ifs with hj
      · rw [hj]
        exact ⟨hran, hplace⟩
      · exact ⟨rfl, rfl⟩
    have hlists : (fun j => (((s.setData i d).goto t c).data j).won) =
        Function.update (fun j => (s.data j).won) i d.won := by
      funext j
      change (Function.update s.data i d j).won = _
      rw [Function.update_apply, Function.update_apply]
      split_ifs <;> rfl
    refine ⟨fun u hu => Function.update_of_ne hu _ _, fun j => (hdata j).1,
      fun j => (hdata j).2, ?_, fun task j hj => by rw [hnew]; exact hbusy task j hj⟩
    rw [hnew, hlists]
    rcases hwon with ⟨hfill, hsame⟩ | ⟨task, j, hold, hun, hj, hfill, hwon⟩
    · refine Or.inl ⟨hfill, fun j => ?_⟩
      rw [congrFun hlists j, hsame, Function.update_eq_self]
    · obtain rfl := Option.some.inj (hj.symm.trans hworker)
      exact Or.inr ⟨task, j, hold, hun, hfill, by rw [hwon]⟩
  · refine moves_goto s ?_ (by rw [hc]; rfl)
    split_ifs <;> rfl
  · have := moves_goto (t := t) { s with
      accepted := if ok then s.accepted ++ [task] else s.accepted
      rejected := if ok then s.rejected else s.rejected ++ [task] } (c := .outside) rfl
        (by rw [hc]; rfl)
    exact { this with }
  · have := moves_goto (t := t) { s with joined := true } (c := .outside) rfl (by rw [hc]; rfl)
    exact { this with }
  · exact moves_goto s rfl (by rw [hc]; rfl)
  · exact hbeside.moves (toFill_of_isAside hc') (toFill_of_isAside hc)

/-- A thread that is in no call begins one. -/
theorem step_moves {e : Event} (hstep : s.step cfg e = some s')
    (he : (∃ valid idx, e = .submit t valid idx) ∨ e = .stop t ∨ e = .join t) :
    Moves s s' t ∧ s.clients t = .outside := by
  rcases he with ⟨valid, idx, rfl⟩ | rfl | rfl
  · simp only [step] at hstep
    split at hstep
    · rename_i hc
      obtain rfl := Option.some.inj hstep
      have hmoves := moves_goto (t := t) { s with tasks := s.tasks + 1 }
        (c := if valid then .checkAccepting s.tasks idx else .returning s.tasks false)
        (by cases valid <;> rfl) (by rw [hc.1]; rfl)
      exact ⟨{ hmoves with }, hc.1⟩
    · cases hstep
  · simp only [step] at hstep
    split_ifs at hstep with hc
    obtain rfl := Option.some.inj hstep
    exact ⟨moves_goto s rfl (by rw [hc]; rfl), hc⟩
  · simp only [step] at hstep
    split_ifs at hstep with hc
    obtain rfl := Option.some.inj hstep
    exact ⟨moves_goto s rfl (by rw [hc]; rfl), hc⟩

end ThreadPool

/-- The numbers that a worker has subtracted and added, by where it is. -/
def Tallied (d : WorkerData) (c : WorkerCounters) : Prop :=
  match c.tally with
  | .outside => (∀ batch, d.place ≠ .running batch) ∧ c.subtracted = d.ran.length ∧
      c.completed = d.ran.length
  | .subtract count => ∃ batch, d.place = .running batch ∧ batch.length = count ∧
      c.subtracted = d.ran.length ∧ c.completed = d.ran.length
  | .activate count => ∃ batch, d.place = .running batch ∧ batch.length = count ∧
      c.subtracted = d.ran.length + count ∧ c.completed = d.ran.length
  | .inside count => ∃ batch, d.place = .running batch ∧
      c.subtracted = d.ran.length + batch.length ∧ c.completed + count = c.subtracted
  | .deactivate count | .complete count => d.place = .popping [] ∧
      c.subtracted = d.ran.length ∧ c.completed + count = d.ran.length

/-- A worker that runs nothing runs nothing, and after the notification it runs its batch. -/
theorem work_outside {cfg : PoolConfig} {stop : Bool} {d d' : WorkerData}
    (hidle : ∀ batch, d.place ≠ .running batch) (hwork : d.work cfg stop = some d') :
    d'.ran = d.ran ∧ ((∃ batch, d.place = .notifying batch ∧ d'.place = .running batch) ∨
      (∀ batch, d.place ≠ .notifying batch) ∧ ∀ batch, d'.place ≠ .running batch) := by
  unfold WorkerData.work at hwork
  cases hplace : d.place <;> rw [hplace] at hwork
  case running batch => exact absurd hplace (hidle batch)
  case notifying batch =>
    obtain rfl := Option.some.inj hwork
    exact ⟨rfl, Or.inl ⟨batch, rfl, rfl⟩⟩
  case popping batch =>
    dsimp only at hwork
    split at hwork
    · obtain rfl := Option.some.inj hwork
      exact ⟨rfl, Or.inr ⟨nofun, nofun⟩⟩
    · obtain rfl := Option.some.inj hwork
      refine ⟨rfl, Or.inr ⟨nofun, ?_⟩⟩
      split_ifs <;> rintro _ ⟨⟩
  case locking | waiting =>
    dsimp only at hwork
    split_ifs at hwork
    obtain rfl := Option.some.inj hwork
    exact ⟨rfl, Or.inr ⟨nofun, nofun⟩⟩
  case checkStop | checkEmpty | recheckStop | testStop | testEmpty =>
    obtain rfl := Option.some.inj hwork
    refine ⟨rfl, Or.inr ⟨nofun, ?_⟩⟩
    split_ifs <;> rintro _ ⟨⟩
  case exited => cases hwork
  all_goals
    obtain rfl := Option.some.inj hwork
    exact ⟨rfl, Or.inr ⟨nofun, nofun⟩⟩

/-- **A step of the worker** at its queue and its batch. -/
theorem Tallied.work {cfg : PoolConfig} {stop : Bool} {d d' : WorkerData} {c : WorkerCounters}
    {tally : Tally} (h : Tallied d c) (hnext : c.tally.next d.place = some tally)
    (hwork : d.work cfg stop = some d') : Tallied d' { c with tally } := by
  cases htally : c.tally with
  | outside =>
    rw [Tallied, htally] at h
    obtain ⟨hidle, hsub, hcomp⟩ := h
    obtain ⟨hran, ⟨batch, hplace, hplace'⟩ | ⟨hnot, hidle'⟩⟩ := work_outside hidle hwork
    · rw [htally, hplace] at hnext
      obtain rfl := Option.some.inj hnext
      exact ⟨batch, hplace', rfl, by rw [hran]; exact hsub, by rw [hran]; exact hcomp⟩
    · have hsame : tally = .outside := by
        rw [htally] at hnext
        cases hplace : d.place with
        | notifying batch => exact absurd hplace (hnot batch)
        | _ =>
          rw [hplace] at hnext
          exact (Option.some.inj hnext).symm
      subst hsame
      exact ⟨hidle', by rw [hran]; exact hsub, by rw [hran]; exact hcomp⟩
  | inside count =>
    rw [Tallied, htally] at h
    obtain ⟨batch, hplace, hsub, hcomp⟩ := h
    rw [htally, hplace] at hnext
    rw [WorkerData.work, hplace] at hwork
    cases batch with
    | nil =>
      obtain rfl := Option.some.inj hnext
      obtain rfl := Option.some.inj hwork
      exact ⟨rfl, hsub, hcomp.trans hsub⟩
    | cons task batch =>
      obtain rfl := Option.some.inj hnext
      obtain rfl := Option.some.inj hwork
      refine ⟨batch, rfl, ?_, hcomp⟩
      rw [hsub, List.length_append, List.length_cons, List.length_singleton]
      omega
  | _ =>
    rw [htally] at hnext
    cases hnext

namespace MeteredPool

variable {cfg : PoolConfig} {s s' : MeteredPool} {t i : ℕ}

/-! ### The books -/

/-- The task that the call has pushed and not yet added to `pending`, and its worker. -/
def uncounted (s : MeteredPool) (t : ℕ) : Option (ℕ × ℕ) :=
  (s.pool.clients t).toFill.or (s.owes t).toPending

/-- The task that the call has pushed and not yet added to `submitted_tasks_`. -/
def unsubmitted (s : MeteredPool) (t : ℕ) : Option (ℕ × ℕ) :=
  (s.pool.clients t).toFill.or (s.owes t).toSubmit

/-- What holds of the counters in every state. -/
structure Accounted (cfg : PoolConfig) (s : MeteredPool) : Prop where
  traced : s.pool.Traced cfg
  owes : ∀ t task i, (s.owes t).toSubmit = some (task, i) →
    (s.pool.clients t).toFill = none ∧ s.pool.clients t ≠ .outside ∧ i < cfg.threads
  counted : Ledger (fun i => (s.pool.data i).won) s.uncounted fun i => (s.counters i).counted
  submitted : Ledger (fun i => (s.pool.data i).won) s.unsubmitted fun i => (s.counters i).submitted
  tallied : ∀ i, Tallied (s.pool.data i) (s.counters i)
  outside : ∀ i, cfg.threads ≤ i → (s.counters i).tally = .outside
  pending : ∀ i, (s.counters i).pending =
    BitVec.ofNat 64 (s.counters i).counted.length - BitVec.ofNat 64 (s.counters i).subtracted
  submittedTasks : s.submittedTasks =
    BitVec.ofNat 64 (∑ i ∈ Finset.range cfg.threads, (s.counters i).submitted.length)
  completedTasks : s.completedTasks =
    BitVec.ofNat 64 (∑ i ∈ Finset.range cfg.threads, (s.counters i).completed)

/-- One field of the counters, where those of one worker change. -/
theorem field_setCounters {β : Type*} (f : WorkerCounters → β) (s : MeteredPool) (i : ℕ)
    (c : WorkerCounters) : (fun j => f ((s.setCounters i c).counters j)) =
      Function.update (fun j => f (s.counters j)) i (f c) := by
  funext j
  change f (Function.update s.counters i c j) = _
  rw [Function.update_apply, Function.update_apply]
  split_ifs <;> rfl

theorem sum_update_add {n : ℕ} (hi : i < n) (f : ℕ → ℕ) (k : ℕ) :
    ∑ j ∈ Finset.range n, Function.update f i (f i + k) j = ∑ j ∈ Finset.range n, f j + k := by
  rw [Finset.sum_update_of_mem (Finset.mem_range.2 hi)]
  have := Finset.add_sum_erase (Finset.range n) f (Finset.mem_range.2 hi)
  rw [Finset.sdiff_singleton_eq_erase]
  omega

theorem owed_toPending (c : Client) : c.owed.toPending = c.toFill := by
  cases c <;> rfl

theorem owed_toSubmit (c : Client) : c.owed.toSubmit = c.toFill := by
  cases c <;> rfl

/-- What is in the hands of the calls after a step of the thread `t`, in either book. -/
theorem ledger_moves {f : Owed → Option (ℕ × ℕ)} (hnothing : f .nothing = none)
    (howed : ∀ c : Client, f c.owed = c.toFill) {pool : ThreadPool} {entered : ℕ → List ℕ}
    (hmoves : ThreadPool.Moves s.pool pool t) (howes : s.owes t = .nothing)
    (hnew : ∀ task i, (s.pool.clients t).unplaced = some task → task ∉ (s.pool.data i).won)
    (h : Ledger (fun i => (s.pool.data i).won)
      (fun u => (s.pool.clients u).toFill.or (f (s.owes u))) entered) :
    Ledger (fun i => (pool.data i).won) (fun u => (pool.clients u).toFill.or
      (f (Function.update s.owes t (s.pool.clients t).owed u))) entered := by
  have hother : ∀ u, u ≠ t → (pool.clients u).toFill.or
      (f (Function.update s.owes t (s.pool.clients t).owed u)) =
        (s.pool.clients u).toFill.or (f (s.owes u)) := by
    intro u hu
    rw [hmoves.others u hu, Function.update_of_ne hu]
  have hself : (pool.clients t).toFill.or
      (f (Function.update s.owes t (s.pool.clients t).owed t)) =
        (pool.clients t).toFill.or (s.pool.clients t).toFill := by
    rw [Function.update_self, howed]
  rcases hmoves.won with ⟨hfill, hwon⟩ | ⟨task, i, hold, hun, hfill, hwon⟩
  · -- nothing was pushed, and what the call held it still holds
    convert h using 2 with i u
    · exact hwon i
    · by_cases hu : u = t
      · rw [hu, hself, hfill, howes, hnothing, Option.none_or, Option.or_none]
      · exact hother u hu
  · rw [hwon]
    convert h.list (k := t) (a := task) (i := i) ?_ (hnew task i hun) using 1
    · funext u
      by_cases hu : u = t
      · rw [hu, hself, hfill, Option.some_or, Function.update_self]
      · rw [hother u hu, Function.update_of_ne hu]
    · rw [hold, howes, hnothing]
      rfl

theorem worker_of_toFill {c : Client} {task : ℕ} (h : c.toFill = some (task, i)) :
    c.worker = some i := by
  cases c with
  | filling task' idx ticket slow =>
    obtain ⟨-, rfl⟩ := Prod.mk.inj (Option.some.inj h)
    rfl
  | _ => cases h

/-- **A thread moves** in a call of `Submit`, `Stop` or `Join`; what it has pushed it has to
count. -/
theorem Accounted.moves (h : s.Accounted cfg) {pool : ThreadPool} (htraced : pool.Traced cfg)
    (hmoves : ThreadPool.Moves s.pool pool t) (howes : s.owes t = .nothing) :
    ({ s with pool, owes := Function.update s.owes t (s.pool.clients t).owed } :
      MeteredPool).Accounted cfg := by
  have hnew : ∀ task i, (s.pool.clients t).unplaced = some task → task ∉ (s.pool.data i).won :=
    fun task i htask => (h.traced.unplaced t task htask).2.1 i
  refine { h with
    traced := htraced, owes := fun u task i hu => ?_
    counted := ledger_moves rfl owed_toPending hmoves howes hnew h.counted
    submitted := ledger_moves rfl owed_toSubmit hmoves howes hnew h.submitted
    tallied := fun i => ?_ }
  · replace hu : (Function.update s.owes t (s.pool.clients t).owed u).toSubmit =
      some (task, i) := hu
    change (pool.clients u).toFill = none ∧ pool.clients u ≠ .outside ∧ i < cfg.threads
    rw [Function.update_apply] at hu
    split_ifs at hu with hut
    · rw [owed_toSubmit] at hu
      rw [hut]
      refine ⟨?_, hmoves.busy task i hu, h.traced.worker t i (worker_of_toFill hu)⟩
      rcases hmoves.won with ⟨hfill, -⟩ | ⟨_, _, hold, -⟩
      · exact hfill
      · cases hold.symm.trans hu
    · rw [hmoves.others u hut]
      exact h.owes u task i hu
  · have hi := h.tallied i
    unfold Tallied at hi ⊢
    rw [hmoves.place, hmoves.ran]
    exact hi

/-- Steps after which the tasks with places are the same, and the counters of one worker are
`c`. -/
theorem Accounted.update (h : s.Accounted cfg) {pool : ThreadPool} {c : WorkerCounters}
    {owes : ℕ → Owed} {active submitted completed : BitVec 64} (htraced : pool.Traced cfg)
    (hclients : pool.clients = s.pool.clients)
    (hwon : (fun j => (pool.data j).won) = fun j => (s.pool.data j).won) (hi : i < cfg.threads)
    (hothers : ∀ j, j ≠ i → pool.data j = s.pool.data j)
    (howes : ∀ u task j, (owes u).toSubmit = some (task, j) →
      (s.owes u).toSubmit = some (task, j))
    (hcounted : Ledger (fun j => (s.pool.data j).won)
      (fun u => (s.pool.clients u).toFill.or (owes u).toPending)
      (Function.update (fun j => (s.counters j).counted) i c.counted))
    (hsubmitted : Ledger (fun j => (s.pool.data j).won)
      (fun u => (s.pool.clients u).toFill.or (owes u).toSubmit)
      (Function.update (fun j => (s.counters j).submitted) i c.submitted))
    (htallied : Tallied (pool.data i) c)
    (hpending : c.pending =
      BitVec.ofNat 64 c.counted.length - BitVec.ofNat 64 c.subtracted)
    (hsubmittedTasks : submitted = BitVec.ofNat 64 (∑ j ∈ Finset.range cfg.threads,
      Function.update (fun j => (s.counters j).submitted.length) i c.submitted.length j))
    (hcompletedTasks : completed = BitVec.ofNat 64 (∑ j ∈ Finset.range cfg.threads,
      Function.update (fun j => (s.counters j).completed) i c.completed j)) :
    ({ s.setCounters i c with
      pool, owes, activeWorkers := active, submittedTasks := submitted
      completedTasks := completed } : MeteredPool).Accounted cfg := by
  have hfield := fun {β : Type} (f : WorkerCounters → β) => field_setCounters f s i c
  refine ⟨htraced, fun u task j hu => ?_, ?_, ?_, fun j => ?_, fun j hj => ?_, fun j => ?_, ?_, ?_⟩
  · change (pool.clients u).toFill = none ∧ pool.clients u ≠ .outside ∧ j < cfg.threads
    rw [hclients]
    exact h.owes u task j (howes u task j hu)
  · rw [hfield WorkerCounters.counted]
    change Ledger (fun j => (pool.data j).won)
      (fun u => (pool.clients u).toFill.or (owes u).toPending) _
    rw [hwon, hclients]
    exact hcounted
  · rw [hfield WorkerCounters.submitted]
    change Ledger (fun j => (pool.data j).won)
      (fun u => (pool.clients u).toFill.or (owes u).toSubmit) _
    rw [hwon, hclients]
    exact hsubmitted
  · change Tallied (pool.data j) (Function.update s.counters i c j)
    by_cases hj : j = i
    · rw [hj, Function.update_self]
      exact htallied
    · rw [Function.update_of_ne hj, hothers j hj]
      exact h.tallied j
  · change (Function.update s.counters i c j).tally = .outside
    rw [Function.update_of_ne (by omega)]
    exact h.outside j hj
  · change (Function.update s.counters i c j).pending =
      BitVec.ofNat 64 (Function.update s.counters i c j).counted.length -
        BitVec.ofNat 64 (Function.update s.counters i c j).subtracted
    rw [Function.update_apply]
    split_ifs
    · exact hpending
    · exact h.pending j
  · rw [hfield fun c => c.submitted.length]
    exact hsubmittedTasks
  · rw [hfield WorkerCounters.completed]
    exact hcompletedTasks

/-- A worker is elsewhere with the counters. -/
theorem Accounted.retally (h : s.Accounted cfg) {pool : ThreadPool} {tally : Tally}
    (active : BitVec 64) (htraced : pool.Traced cfg) (hclients : pool.clients = s.pool.clients)
    (hwon : (fun j => (pool.data j).won) = fun j => (s.pool.data j).won) (hi : i < cfg.threads)
    (hothers : ∀ j, j ≠ i → pool.data j = s.pool.data j)
    (htallied : Tallied (pool.data i) { s.counters i with tally }) :
    ({ s.setCounters i { s.counters i with tally } with
      pool, activeWorkers := active } : MeteredPool).Accounted cfg := by
  refine h.update htraced hclients hwon hi hothers (fun _ _ _ => id) ?_ ?_ htallied (h.pending i)
    ?_ ?_
  · rw [Function.update_eq_self]
    exact h.counted
  · rw [Function.update_eq_self]
    exact h.submitted
  · rw [Function.update_eq_self]
    exact h.submittedTasks
  · rw [Function.update_eq_self]
    exact h.completedTasks

/-- **A worker** goes on with its queue and its batch. -/
theorem Accounted.worker (h : s.Accounted cfg) {pool : ThreadPool} {tally : Tally}
    (hnext : (s.counters i).tally.next (s.pool.data i).place = some tally)
    (hstep : s.pool.step cfg (.worker i) = some pool) :
    (setCounters { s with pool } i { s.counters i with tally }).Accounted cfg := by
  have htraced := h.traced.step hstep
  simp only [ThreadPool.step] at hstep
  split_ifs at hstep with hi
  obtain ⟨d, hd, rfl⟩ := Option.map_eq_some_iff.1 hstep
  have hnew : (s.pool.setData i d).data i = d := Function.update_self ..
  have hothers : ∀ j, j ≠ i → (s.pool.setData i d).data j = s.pool.data j :=
    fun j hj => Function.update_of_ne hj _ _
  refine h.retally s.activeWorkers htraced rfl (funext fun j => ?_) hi hothers ?_
  · by_cases hj : j = i
    · rw [hj, hnew, (ThreadPool.work_cases hd).1]
    · rw [hothers j hj]
  · rw [hnew]
    exact (h.tallied i).work hnext hd

/-- The hands of the calls where `t`, which has its place filled, owes `o`. -/
theorem hand_update (f : Owed → Option (ℕ × ℕ)) (o : Owed)
    (hfill : (s.pool.clients t).toFill = none) :
    (fun u => (s.pool.clients u).toFill.or (f (Function.update s.owes t o u))) =
      Function.update (fun u => (s.pool.clients u).toFill.or (f (s.owes u))) t (f o) := by
  funext u
  by_cases hu : u = t
  · rw [hu, Function.update_self, Function.update_self, hfill, Option.none_or]
  · rw [Function.update_of_ne hu, Function.update_of_ne hu]

/-- **`Submit` counts its task.** -/
theorem Accounted.count (h : s.Accounted cfg) (hstep : s.count t = some s') :
    s'.Accounted cfg := by
  unfold MeteredPool.count at hstep
  split at hstep
  · cases hstep
  · rename_i task idx howes
    split_ifs at hstep
    obtain rfl := Option.some.inj hstep
    obtain ⟨hfill, -, hi⟩ := h.owes t task idx (by rw [howes]; rfl)
    have hhand : s.uncounted t = some (task, idx) := by
      rw [uncounted, hfill, howes]
      rfl
    have hkept : s.unsubmitted t = some (task, idx) := by
      rw [unsubmitted, hfill, howes]
      rfl
    refine h.update h.traced rfl rfl hi (fun _ _ => rfl) (fun u task' j hu => ?_) ?_ ?_
      (h.tallied idx) ?_ ?_ ?_
    · rw [Function.update_apply] at hu
      split_ifs at hu with hut
      · rw [hut, howes]
        exact hu
      · exact hu
    · rw [hand_update Owed.toPending _ hfill]
      exact h.counted.enter hhand
    · rw [hand_update Owed.toSubmit _ hfill, Function.update_eq_self]
      convert h.submitted using 1
      rw [show Owed.toSubmit (.submitted task idx) = s.unsubmitted t from hkept.symm]
      exact Function.update_eq_self t s.unsubmitted
    · rw [h.pending idx, List.length_append, List.length_singleton, BitVec.ofNat_add]
      exact BitVec.sub_add_comm
    · rw [Function.update_eq_self]
      exact h.submittedTasks
    · rw [Function.update_eq_self]
      exact h.completedTasks
  · rename_i task idx howes
    obtain rfl := Option.some.inj hstep
    obtain ⟨hfill, -, hi⟩ := h.owes t task idx (by rw [howes]; rfl)
    have hhand : s.unsubmitted t = some (task, idx) := by
      rw [unsubmitted, hfill, howes]
      rfl
    have hkept : s.uncounted t = none := by
      rw [uncounted, hfill, howes]
      rfl
    refine h.update h.traced rfl rfl hi (fun _ _ => rfl) (fun u task' j hu => ?_) ?_ ?_
      (h.tallied idx) (h.pending idx) ?_ ?_
    · rw [Function.update_apply] at hu
      split_ifs at hu
      · cases hu
      · exact hu
    · rw [hand_update Owed.toPending _ hfill, Function.update_eq_self]
      convert h.counted using 1
      rw [show Owed.toPending .nothing = s.uncounted t from hkept.symm]
      exact Function.update_eq_self t s.uncounted
    · rw [hand_update Owed.toSubmit _ hfill]
      exact h.submitted.enter hhand
    · rw [h.submittedTasks, List.length_append, List.length_singleton,
        sum_update_add hi fun j => (s.counters j).submitted.length, BitVec.ofNat_add]
      rfl
    · rw [Function.update_eq_self]
      exact h.completedTasks

/-- Who counts is a worker of the pool. -/
theorem Accounted.lt_of_tally (h : s.Accounted cfg) (hstep : s.tally i = some s') :
    i < cfg.threads := by
  by_contra hi
  have hout := h.outside i (by omega)
  simp [MeteredPool.tally, hout] at hstep

/-- **A worker counts its batch.** -/
theorem Accounted.tally (h : s.Accounted cfg) (hstep : s.tally i = some s') :
    s'.Accounted cfg := by
  have hi := h.lt_of_tally hstep
  have htallied := h.tallied i
  cases htally : (s.counters i).tally with
  | outside => simp [MeteredPool.tally, htally] at hstep
  | inside count => simp [MeteredPool.tally, htally] at hstep
  | subtract count =>
    simp only [MeteredPool.tally, htally] at hstep
    obtain rfl := Option.some.inj hstep
    rw [Tallied, htally] at htallied
    obtain ⟨batch, hplace, hcount, hsub, hcomp⟩ := htallied
    refine h.update h.traced rfl rfl hi (fun _ _ => rfl) (fun _ _ _ => id) ?_ ?_
      ⟨batch, hplace, hcount, by rw [hsub], hcomp⟩ ?_ ?_ ?_
    · rw [Function.update_eq_self]
      exact h.counted
    · rw [Function.update_eq_self]
      exact h.submitted
    · rw [h.pending i, BitVec.ofNat_add, BitVec.sub_sub]
    · rw [Function.update_eq_self]
      exact h.submittedTasks
    · rw [Function.update_eq_self]
      exact h.completedTasks
  | activate count =>
    simp only [MeteredPool.tally, htally] at hstep
    obtain rfl := Option.some.inj hstep
    rw [Tallied, htally] at htallied
    obtain ⟨batch, hplace, hcount, hsub, hcomp⟩ := htallied
    have hbatch : (s.counters i).subtracted = (s.pool.data i).ran.length + batch.length := by
      rw [hsub, hcount]
    have hleft : (s.counters i).completed + count = (s.counters i).subtracted := by
      rw [hsub, hcomp]
    exact h.retally (s.activeWorkers + 1) h.traced rfl rfl hi (fun _ _ => rfl)
      ⟨batch, hplace, hbatch, hleft⟩
  | deactivate count =>
    simp only [MeteredPool.tally, htally] at hstep
    obtain rfl := Option.some.inj hstep
    rw [Tallied, htally] at htallied
    exact h.retally (s.activeWorkers - 1) h.traced rfl rfl hi (fun _ _ => rfl) htallied
  | complete count =>
    simp only [MeteredPool.tally, htally] at hstep
    obtain rfl := Option.some.inj hstep
    rw [Tallied, htally] at htallied
    obtain ⟨hplace, hsub, hcomp⟩ := htallied
    have hidle : ∀ batch, (s.pool.data i).place ≠ .running batch := by
      rw [hplace]
      nofun
    refine h.update h.traced rfl rfl hi (fun _ _ => rfl) (fun _ _ _ => id) ?_ ?_
      ⟨hidle, hsub, hcomp⟩ (h.pending i) ?_ ?_
    · rw [Function.update_eq_self]
      exact h.counted
    · rw [Function.update_eq_self]
      exact h.submitted
    · rw [Function.update_eq_self]
      exact h.submittedTasks
    · rw [h.completedTasks, sum_update_add hi fun j => (s.counters j).completed, BitVec.ofNat_add]

/-- `GetStatsSnapshot` only reads. -/
theorem load_cases {u : ℕ} (hstep : s.load cfg u = some s') :
    ∃ readers snapshots, s' = { s with readers, snapshots } := by
  unfold load at hstep
  split at hstep
  · cases hstep
  · exact ⟨_, _, (Option.some.inj hstep).symm⟩
  · exact ⟨_, _, (Option.some.inj hstep).symm⟩
  · exact ⟨_, _, (Option.some.inj hstep).symm⟩
  · exact ⟨_, _, (Option.some.inj hstep).symm⟩
  · split_ifs at hstep <;> exact ⟨_, _, (Option.some.inj hstep).symm⟩

/-- A thread that is in no call begins one. -/
theorem Accounted.begins (h : s.Accounted cfg) {pool : ThreadPool} {e : ThreadPool.Event}
    (hpool : s.pool.step cfg e = some pool)
    (he : (∃ valid idx, e = .submit t valid idx) ∨ e = .stop t ∨ e = .join t) :
    ({ s with pool } : MeteredPool).Accounted cfg := by
  obtain ⟨hmoves, hout⟩ := ThreadPool.step_moves hpool he
  have howes : s.owes t = .nothing := by
    cases ht : s.owes t with
    | nothing => rfl
    | pending task idx => exact absurd hout (h.owes t task idx (by rw [ht]; rfl)).2.1
    | submitted task idx => exact absurd hout (h.owes t task idx (by rw [ht]; rfl)).2.1
  have hsame : Function.update s.owes t (s.pool.clients t).owed = s.owes := by
    rw [hout, show Client.owed .outside = s.owes t from howes.symm, Function.update_eq_self]
  have hmoved := h.moves (h.traced.step hpool) hmoves howes
  rwa [hsame] at hmoved

/-- The books are right after a step of the pool. -/
theorem Accounted.work (h : s.Accounted cfg) {e : ThreadPool.Event}
    (hstep : s.work cfg e = some s') : s'.Accounted cfg := by
  cases e with
  | client t k =>
    simp only [MeteredPool.work] at hstep
    split_ifs at hstep with howes
    obtain ⟨pool, hpool, rfl⟩ := Option.map_eq_some_iff.1 hstep
    exact h.moves (h.traced.step hpool) (ThreadPool.client_moves hpool) howes
  | worker i =>
    obtain ⟨tally, htally, hstep⟩ := Option.bind_eq_some_iff.1 hstep
    obtain ⟨pool, hpool, hstep⟩ := Option.bind_eq_some_iff.1 hstep
    obtain rfl := Option.some.inj hstep
    exact h.worker htally hpool
  | submit t valid idx =>
    obtain ⟨pool, hpool, rfl⟩ := Option.map_eq_some_iff.1 hstep
    exact h.begins hpool (Or.inl ⟨valid, idx, rfl⟩)
  | stop t =>
    obtain ⟨pool, hpool, rfl⟩ := Option.map_eq_some_iff.1 hstep
    exact h.begins hpool (Or.inr (Or.inl rfl))
  | join t =>
    obtain ⟨pool, hpool, rfl⟩ := Option.map_eq_some_iff.1 hstep
    exact h.begins hpool (Or.inr (Or.inr rfl))
  | spurious i waiter =>
    obtain ⟨pool, hpool, rfl⟩ := Option.map_eq_some_iff.1 hstep
    have htraced := h.traced.step hpool
    simp only [ThreadPool.step] at hpool
    split_ifs at hpool
    obtain rfl := Option.some.inj hpool
    -- the condition variable has nothing to do with tasks
    have hsame : ∀ {β : Type} (f : WorkerData → β), (∀ d waiters, f { d with waiters } = f d) →
        ∀ j, f (Function.update s.pool.data i { s.pool.data i with
          waiters := (s.pool.data i).waiters.erase waiter } j) = f (s.pool.data j) := by
      intro β f hf j
      rw [Function.update_apply]
      split_ifs with hj
      · rw [hj, hf]
      · rfl
    have hwon := funext (hsame WorkerData.won fun _ _ => rfl)
    refine { h with traced := htraced, counted := ?_, submitted := ?_, tallied := fun j => ?_ }
    · change Ledger (fun j => (Function.update s.pool.data i _ j).won) s.uncounted _
      rw [hwon]
      exact h.counted
    · change Ledger (fun j => (Function.update s.pool.data i _ j).won) s.unsubmitted _
      rw [hwon]
      exact h.submitted
    · exact (hsame (fun d => Tallied d (s.counters j)) (fun _ _ => rfl) j).mpr (h.tallied j)

theorem Accounted.step (h : s.Accounted cfg) {e : Event} (hstep : s.step cfg e = some s') :
    s'.Accounted cfg := by
  cases e with
  | pool e => exact h.work hstep
  | count t => exact h.count hstep
  | tally i => exact h.tally hstep
  | getStatsSnapshot u =>
    simp only [MeteredPool.step] at hstep
    split at hstep
    · obtain rfl := Option.some.inj hstep
      exact { h with }
    · cases hstep
  | load u =>
    obtain ⟨readers, snapshots, rfl⟩ := load_cases hstep
    exact { h with }

theorem accounted_init (cfg : PoolConfig) : ({} : MeteredPool).Accounted cfg where
  traced := ThreadPool.traced_init cfg
  owes := nofun
  counted := Ledger.empty
  submitted := Ledger.empty
  tallied := fun _ => ⟨nofun, rfl, rfl⟩
  outside := fun _ _ => rfl
  pending := fun _ => (BitVec.sub_self _).symm
  submittedTasks := by simp
  completedTasks := by simp

end MeteredPool
end Common
end MiniRpc
