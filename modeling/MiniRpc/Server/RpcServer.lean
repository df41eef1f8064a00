/-
# Starting and stopping the server

`RpcServer::Start` and `RpcServer::Stop` (`src/server/rpc_server.cpp`) with the
threads around them: any number of threads call the two, and each `WorkerLoop`
has a thread of its own that is in `Run` (`src/server/worker_loop.cpp`).  The
steps of all of them are the events of one step function, so a list of events is
an interleaving.  Each access of `stop_requested_` is a step; `running_` is read
and written under `lifecycle_mu_` only, so a critical section is one step, except
in the branch of `Stop` that keeps the lock while it frees everything.

Of the system calls and of `ThreadPool::Start` only success or failure counts.
Of a `WorkerLoop` the flag, the pool it points to and the place in `Run` are
kept: `PollOnce` and the drains after the loop can each run
`DispatchRequestToThreadPool` any number of times.  The acceptor's descriptors
and the connections that it hands over play no part in what follows.
-/

import MiniRpc.Library.Transition
import Mathlib.Logic.Function.Basic

namespace MiniRpc
namespace Server

open Transition

/-- How far a `ThreadPool` is: between `Start` and `Stop`, after `Stop`, after
`Join` (which clears its queues), or destroyed. -/
inductive PoolStatus where
  | started
  | stopping
  | joined
  | destroyed
  deriving DecidableEq, Repr

/-- The pool was neither joined and cleared nor destroyed. -/
def PoolStatus.isAlive : PoolStatus → Bool
  | .started | .stopping => true
  | .joined | .destroyed => false

/-- Where a worker thread is in `Run`. -/
inductive RunPhase where
  /-- Before the test of `stop_requested_`. -/
  | checking
  | polling
  /-- In the drains after the loop. -/
  | draining
  | closingAll
  | exited
  deriving DecidableEq, Repr

/-- A `WorkerLoop` whose thread was started; `threadPool` is the number of the
pool it points to. -/
structure LoopThread where
  threadPool : Option ℕ
  stopRequested : Bool := false
  phase : RunPhase := .checking
  deriving DecidableEq, Repr

/-- The thread may still come to `DispatchRequestToThreadPool`: in `PollOnce`, or
in `DrainCompletedResponses` after the loop. -/
def LoopThread.canDispatch (w : LoopThread) : Bool :=
  match w.phase with
  | .checking | .polling | .draining => true
  | .closingAll | .exited => false

/-- A worker thread goes on in `Run`. -/
def LoopThread.run (w : LoopThread) (ok : Bool) : Option LoopThread :=
  match w.phase with
  | .checking => some { w with phase := if w.stopRequested then .draining else .polling }
  | .polling => some { w with phase := if ok then .checking else .draining }
  | .draining => some { w with phase := .closingAll }
  | .closingAll => some { w with phase := .exited }
  | .exited => none

/-- The places of `StopBusinessThreadPool` and `StopWorkers`. -/
inductive Shutdown where
  | stopPool
  | joinPool
  | resetPool
  | requestStop (i : ℕ)
  | joinWorker (i : ℕ)
  | clear
  deriving DecidableEq, Repr

/-- Who runs the two: `Start` after a failed `StartWorkers`, `Start` at its end,
or `Stop` on a server that does not run. -/
inductive Path where
  | failed
  | tail
  | fallback
  deriving DecidableEq, Repr

/-- What a thread does next in `Start` or `Stop`. -/
inductive Caller where
  | outside
  /-- `Start`: `stop_requested_.store(false)`. -/
  | clearStop
  /-- `accepting_new_connections_.store(true)`. -/
  | openAccept
  | initAcceptor
  | startPool
  /-- `workers_.clear()` of `StartWorkers`, and then its loop. -/
  | clearWorkers
  | startWorkers (i : ℕ)
  /-- The test of the accept loop, and its body. -/
  | checkStop
  | accepting
  /-- After the loop: the two flags. -/
  | closeAccept
  | raiseStop
  | shutdown (path : Path) (place : Shutdown)
  /-- `running_ = false` with the notification under the lock. -/
  | failing
  /-- `running_ = false`, and the notification after it. -/
  | publishing
  | notifying
  /-- `Stop` on a server that does not run: the two flags, and the return. -/
  | fallbackRaise
  | fallbackClose
  | returning
  /-- `Stop` on a server that runs: the two flags. -/
  | stopClose
  | stopRaise
  /-- The lock is taken and `running_` tested; in `lifecycle_cv_.wait`; woken, and
  about to take the lock and test again. -/
  | relocking
  | waiting
  | woken
  deriving DecidableEq, Repr

/-- A call of `Stop` that has stored its request and waits for `running_` to become
false: it is about to test it, sleeps, or was woken. -/
def Caller.awaits : Caller → Bool
  | .relocking | .waiting | .woken => true
  | _ => false

/-- Whether a call has the pool and the workers in its hands: as the call of `Start`
that set `running_`, as a call of `Stop` that holds the lock, or not. -/
inductive Role where
  | owner
  | fallback
  | bystander
  deriving DecidableEq, Repr

/-- The role at each place. -/
def Caller.role : Caller → Role
  | .clearStop | .openAccept | .initAcceptor | .startPool | .clearWorkers | .startWorkers _
  | .checkStop | .accepting | .closeAccept | .raiseStop | .failing | .publishing => .owner
  | .shutdown .failed _ | .shutdown .tail _ => .owner
  | .fallbackRaise | .fallbackClose | .shutdown .fallback _ | .returning => .fallback
  | .outside | .notifying | .stopClose | .stopRaise | .relocking | .waiting | .woken => .bystander

/-- What follows after `StopWorkers`. -/
def Path.next : Path → Caller
  | .failed => .failing
  | .tail => .publishing
  | .fallback => .returning

/-- The server, with the threads that call it and those of its workers. -/
structure RpcServer where
  running : Bool := false
  stopRequested : Bool := false
  acceptingNewConnections : Bool := false
  /-- Who holds `lifecycle_mu_`. -/
  lifecycleMu : Option ℕ := none
  /-- All pools that were made; `businessThreadPool` is the number of one. -/
  pools : List PoolStatus := []
  businessThreadPool : Option ℕ := none
  workers : List LoopThread := []
  callers : ℕ → Caller := fun _ => .outside
  /-- What the calls of `Submit` by the workers found of the pool. -/
  submits : List PoolStatus := []

/-- `worker_count_` and `business_thread_count_`. -/
structure ServerConfig where
  workerCount : ℕ := 2
  businessThreadCount : ℕ := 2

/-- The constructor makes at least one worker. -/
def ServerConfig.workers (cfg : ServerConfig) : ℕ :=
  if cfg.workerCount = 0 then 1 else cfg.workerCount

namespace RpcServer

/-- One step of one thread. -/
inductive Event where
  /-- A call of `Start`: its critical section. -/
  | start (t : ℕ)
  /-- A call of `Stop`: its first critical section. -/
  | stop (t : ℕ)
  /-- A thread goes on; `ok` says how the system calls of the step end. -/
  | advance (t : ℕ) (ok : Bool)
  /-- A worker goes on in `Run`; `ok` is what `PollOnce` returns. -/
  | work (i : ℕ) (ok : Bool)
  /-- A worker runs `DispatchRequestToThreadPool`. -/
  | dispatch (i : ℕ)

/-- The thread `t` is now at `c`. -/
def goto (s : RpcServer) (t : ℕ) (c : Caller) : RpcServer :=
  { s with callers := Function.update s.callers t c }

/-- `lifecycle_cv_.notify_all()`. -/
def notifyAll (s : RpcServer) : RpcServer :=
  { s with callers := fun u => if s.callers u = .waiting then .woken else s.callers u }

/-- A pool of the server gets another status. -/
def setPool (s : RpcServer) (p : ℕ) (status : PoolStatus) : RpcServer :=
  { s with pools := s.pools.set p status }

/-- `business_thread_pool_.reset()`. -/
def resetPool (s : RpcServer) : RpcServer :=
  match s.businessThreadPool with
  | none => s
  | some p => { s.setPool p .destroyed with businessThreadPool := none }

/-- `workers_.clear()`: each destructor requests the stop and joins. -/
def clearStep (s : RpcServer) (t : ℕ) (next : Caller) : Option RpcServer :=
  match s.workers with
  | [] => some (s.goto t next)
  | w :: ws =>
    if w.phase = .exited then some { s with workers := ws }
    else if w.stopRequested then none
    else some { s with workers := { w with stopRequested := true } :: ws }

/-- One step of `StopBusinessThreadPool` and `StopWorkers`. -/
def shutdownStep (s : RpcServer) (t : ℕ) (path : Path) : Shutdown → Option RpcServer
  | .stopPool =>
    match s.businessThreadPool with
    | none => some (s.goto t (.shutdown path (.requestStop 0)))
    | some p => some ((s.setPool p .stopping).goto t (.shutdown path .joinPool))
  | .joinPool =>
    s.businessThreadPool.map fun p => (s.setPool p .joined).goto t (.shutdown path .resetPool)
  | .resetPool => some (s.resetPool.goto t (.shutdown path (.requestStop 0)))
  | .requestStop i =>
    if i < s.workers.length then
      some (goto { s with
        workers := s.workers.modify i fun w => { w with stopRequested := true } } t
          (.shutdown path (.requestStop (i + 1))))
    else some (s.goto t (.shutdown path (.joinWorker 0)))
  | .joinWorker i =>
    match s.workers[i]? with
    | some w =>
      if w.phase = .exited then some (s.goto t (.shutdown path (.joinWorker (i + 1)))) else none
    | none => some (s.goto t (.shutdown path .clear))
  | .clear => s.clearStep t path.next

/-- `StartBusinessThreadPool`; the old pool, if there is one, is destroyed. -/
def startPool (cfg : ServerConfig) (s : RpcServer) (t : ℕ) (ok : Bool) : RpcServer :=
  let s := s.resetPool
  if cfg.businessThreadCount = 0 then s.goto t .clearWorkers
  else if ok then
    goto { s with
      pools := s.pools ++ [.started]
      businessThreadPool := some s.pools.length } t .clearWorkers
  else goto { s with pools := s.pools ++ [.destroyed] } t .failing

/-- `Init` and `Start` of the next worker. -/
def startWorker (cfg : ServerConfig) (s : RpcServer) (t i : ℕ) (ok : Bool) : RpcServer :=
  if i < cfg.workers then
    if ok then
      goto { s with workers := s.workers ++ [⟨s.businessThreadPool, false, .checking⟩] } t
        (.startWorkers (i + 1))
    else s.goto t (.shutdown .failed .stopPool)
  else s.goto t .checkStop

/-- The lock is taken, `running_` is tested and the lock given back. -/
def awaitStopped (s : RpcServer) (t : ℕ) : Option RpcServer :=
  if s.lifecycleMu = none then some (s.goto t (if s.running then .waiting else .outside))
  else none

/-- A thread goes on in `Start` or `Stop`. -/
def advance (cfg : ServerConfig) (s : RpcServer) (t : ℕ) (ok : Bool) : Option RpcServer :=
  match s.callers t with
  | .outside => none
  | .clearStop => some (goto { s with stopRequested := false } t .openAccept)
  | .openAccept => some (goto { s with acceptingNewConnections := true } t .initAcceptor)
  | .initAcceptor => some (s.goto t (if ok then .startPool else .failing))
  | .startPool => some (s.startPool cfg t ok)
  | .clearWorkers => s.clearStep t (.startWorkers 0)
  | .startWorkers i => some (s.startWorker cfg t i ok)
  | .checkStop => some (s.goto t (if s.stopRequested then .closeAccept else .accepting))
  | .accepting => some (s.goto t (if ok then .checkStop else .closeAccept))
  | .closeAccept => some (goto { s with acceptingNewConnections := false } t .raiseStop)
  | .raiseStop => some (goto { s with stopRequested := true } t (.shutdown .tail .stopPool))
  | .shutdown path place => s.shutdownStep t path place
  | .failing =>
    if s.lifecycleMu = none then some ((notifyAll { s with running := false }).goto t .outside)
    else none
  | .publishing =>
    if s.lifecycleMu = none then some (goto { s with running := false } t .notifying) else none
  | .notifying => some (s.notifyAll.goto t .outside)
  | .fallbackRaise => some (goto { s with stopRequested := true } t .fallbackClose)
  | .fallbackClose =>
    some (goto { s with acceptingNewConnections := false } t (.shutdown .fallback .stopPool))
  | .returning => some (goto { s with lifecycleMu := none } t .outside)
  | .stopClose => some (goto { s with acceptingNewConnections := false } t .stopRaise)
  | .stopRaise => some (goto { s with stopRequested := true } t .relocking)
  | .relocking => s.awaitStopped t
  -- a condition variable may wake its waiters without a notification
  | .waiting => some (s.goto t .woken)
  | .woken => s.awaitStopped t

/-- One step, `none` if it cannot happen in the state. -/
def step (cfg : ServerConfig) (s : RpcServer) : Event → Option RpcServer
  | .start t =>
    if s.callers t = .outside ∧ s.lifecycleMu = none then
      if s.running then some s else some (goto { s with running := true } t .clearStop)
    else none
  | .stop t =>
    if s.callers t = .outside ∧ s.lifecycleMu = none then
      if s.running then some (s.goto t .stopClose)
      else some (goto { s with lifecycleMu := some t } t .fallbackRaise)
    else none
  | .advance t ok => s.advance cfg t ok
  | .work i ok => do
    let w ← s.workers[i]?
    let w' ← w.run ok
    pure { s with workers := s.workers.set i w' }
  | .dispatch i => do
    let w ← s.workers[i]?
    if w.phase = .polling ∨ w.phase = .draining then
      -- without a pool the call returns at once
      pure { s with submits := s.submits ++ (w.threadPool.bind (s.pools[·]?)).toList }
    else none

variable {cfg : ServerConfig} {s s' : RpcServer} {t : ℕ} {c : Caller} {e : Event}

@[simp] theorem goto_callers (s : RpcServer) (t : ℕ) (c : Caller) :
    (s.goto t c).callers = Function.update s.callers t c := rfl

/-- `t` goes to `c`, and besides that only the pools and the workers change. -/
structure Frame (s s' : RpcServer) (t : ℕ) (c : Caller) : Prop where
  callers : s'.callers = Function.update s.callers t c
  running : s'.running = s.running
  stopRequested : s'.stopRequested = s.stopRequested
  lifecycleMu : s'.lifecycleMu = s.lifecycleMu
  submits : s'.submits = s.submits

theorem frame_goto (s : RpcServer) (t : ℕ) (c : Caller) : Frame s (s.goto t c) t c :=
  ⟨rfl, rfl, rfl, rfl, rfl⟩

/-- The thread stays where it is. -/
theorem frame_stay (s : RpcServer) (t : ℕ) (workers : List LoopThread) :
    Frame s { s with workers } t (s.callers t) :=
  ⟨(Function.update_eq_self t s.callers).symm, rfl, rfl, rfl, rfl⟩

theorem frame_resetPool (s : RpcServer) (t : ℕ) (c : Caller) :
    Frame s (s.resetPool.goto t c) t c := by
  unfold resetPool
  split <;> exact ⟨rfl, rfl, rfl, rfl, rfl⟩

theorem clearStep_frame {next : Caller} (h : s.clearStep t next = some s') :
    Frame s s' t next ∨ Frame s s' t (s.callers t) := by
  unfold clearStep at h
  split at h
  · obtain rfl := Option.some.inj h
    exact Or.inl (frame_goto s t next)
  · split_ifs at h
    · obtain rfl := Option.some.inj h
      exact Or.inr (frame_stay s t _)
    · obtain rfl := Option.some.inj h
      exact Or.inr (frame_stay s t _)

/-- A step of the shutdown leads to the next one, or to what follows after it. -/
theorem shutdownStep_frame {path : Path} {place : Shutdown}
    (hcaller : s.callers t = .shutdown path place) (h : s.shutdownStep t path place = some s') :
    (∃ next, Frame s s' t (.shutdown path next)) ∨ Frame s s' t path.next := by
  cases place with
  | stopPool =>
    simp only [shutdownStep] at h
    split at h
    · obtain rfl := Option.some.inj h
      exact Or.inl ⟨_, frame_goto s t _⟩
    · obtain rfl := Option.some.inj h
      exact Or.inl ⟨_, ⟨rfl, rfl, rfl, rfl, rfl⟩⟩
  | joinPool =>
    obtain ⟨p, -, rfl⟩ := Option.map_eq_some_iff.1 h
    exact Or.inl ⟨_, ⟨rfl, rfl, rfl, rfl, rfl⟩⟩
  | resetPool =>
    obtain rfl := Option.some.inj h
    exact Or.inl ⟨_, frame_resetPool s t _⟩
  | requestStop i =>
    simp only [shutdownStep] at h
    split_ifs at h
    · obtain rfl := Option.some.inj h
      exact Or.inl ⟨_, ⟨rfl, rfl, rfl, rfl, rfl⟩⟩
    · obtain rfl := Option.some.inj h
      exact Or.inl ⟨_, frame_goto s t _⟩
  | joinWorker i =>
    simp only [shutdownStep] at h
    split at h
    · split_ifs at h
      obtain rfl := Option.some.inj h
      exact Or.inl ⟨_, frame_goto s t _⟩
    · obtain rfl := Option.some.inj h
      exact Or.inl ⟨_, frame_goto s t _⟩
  | clear =>
    rcases clearStep_frame h with h | h
    · exact Or.inr h
    · exact Or.inl ⟨.clear, hcaller ▸ h⟩

theorem Path.role_next (path : Path) (place : Shutdown) :
    path.next.role = (Caller.shutdown path place).role := by
  cases path <;> rfl

theorem role_shutdown (path : Path) (place place' : Shutdown) :
    (Caller.shutdown path place).role = (Caller.shutdown path place').role := by
  cases path <;> rfl

theorem startPool_frame (cfg : ServerConfig) (s : RpcServer) (t : ℕ) (ok : Bool) :
    ∃ next, Frame s (s.startPool cfg t ok) t next ∧ next.role = .owner := by
  have hreset := frame_resetPool s t
  unfold startPool
  dsimp only
  split_ifs
  · exact ⟨_, hreset .clearWorkers, rfl⟩
  · refine ⟨.clearWorkers, ?_, rfl⟩
    obtain ⟨h₁, h₂, h₃, h₄, h₅⟩ := hreset .clearWorkers
    exact ⟨h₁, h₂, h₃, h₄, h₅⟩
  · refine ⟨.failing, ?_, rfl⟩
    obtain ⟨h₁, h₂, h₃, h₄, h₅⟩ := hreset .failing
    exact ⟨h₁, h₂, h₃, h₄, h₅⟩

theorem startWorker_frame (cfg : ServerConfig) (s : RpcServer) (t i : ℕ) (ok : Bool) :
    ∃ next, Frame s (s.startWorker cfg t i ok) t next ∧ next.role = .owner := by
  unfold startWorker
  split_ifs
  · exact ⟨_, ⟨rfl, rfl, rfl, rfl, rfl⟩, rfl⟩
  · exact ⟨_, frame_goto s t _, rfl⟩
  · exact ⟨_, frame_goto s t _, rfl⟩

/-- A call that has nothing in its hands leaves the pools and the workers alone. -/
structure Aside (s s' : RpcServer) : Prop where
  pools : s'.pools = s.pools
  businessThreadPool : s'.businessThreadPool = s.businessThreadPool
  workers : s'.workers = s.workers

theorem awaitStopped_frame (h : s.awaitStopped t = some s') :
    ∃ next, Frame s s' t next ∧ Aside s s' ∧ next.role = .bystander := by
  unfold awaitStopped at h
  split_ifs at h
  · obtain rfl := Option.some.inj h
    exact ⟨.waiting, frame_goto s t _, ⟨rfl, rfl, rfl⟩, rfl⟩
  · obtain rfl := Option.some.inj h
    exact ⟨.outside, frame_goto s t _, ⟨rfl, rfl, rfl⟩, rfl⟩

/-- **What a call does next.**  It moves on with the pool and the workers in its
hands, it stores one of the two values of `stop_requested_`, it gives `running_`
or the lock back, or it has nothing in its hands. -/
theorem advance_cases {ok : Bool} (h : s.advance cfg t ok = some s') :
    (∃ next, Frame s s' t next ∧ (s.callers t).role ≠ .bystander ∧
      next.role = (s.callers t).role) ∨
    (s.callers t = .clearStop ∧ s' = goto { s with stopRequested := false } t .openAccept) ∨
    (∃ next, s' = goto { s with stopRequested := true } t next ∧
      next.role = (s.callers t).role) ∨
    (∃ next, (s' = goto (notifyAll { s with running := false }) t next ∨
        s' = goto { s with running := false } t next) ∧
      s.lifecycleMu = none ∧ (s.callers t = .failing ∨ s.callers t = .publishing) ∧
      next.role = .bystander ∧ next.awaits = false) ∨
    (s.callers t = .returning ∧ s' = goto { s with lifecycleMu := none } t .outside) ∨
    (∃ next, (Frame s s' t next ∨ Frame s.notifyAll s' t next) ∧ Aside s s' ∧
      (s.callers t).role = .bystander ∧ next.role = .bystander ∧
      (next.awaits = true → (s.callers t).awaits = true)) := by
  unfold advance at h
  cases hc : s.callers t <;> rw [hc] at h
  case outside => cases h
  case clearStop =>
    obtain rfl := Option.some.inj h
    exact Or.inr (Or.inl ⟨rfl, rfl⟩)
  case openAccept =>
    obtain rfl := Option.some.inj h
    exact Or.inl ⟨.initAcceptor, ⟨rfl, rfl, rfl, rfl, rfl⟩, by simp [Caller.role], rfl⟩
  case initAcceptor =>
    obtain rfl := Option.some.inj h
    refine Or.inl ⟨_, frame_goto s t _, by simp [Caller.role], ?_⟩
    split_ifs <;> rfl
  case startPool =>
    obtain rfl := Option.some.inj h
    obtain ⟨next, hframe, hrole⟩ := startPool_frame cfg s t ok
    exact Or.inl ⟨next, hframe, by simp [Caller.role], hrole⟩
  case clearWorkers =>
    rcases clearStep_frame h with hframe | hframe
    · exact Or.inl ⟨_, hframe, by simp [Caller.role], rfl⟩
    · exact Or.inl ⟨_, hframe, by simp [Caller.role], by rw [hc]⟩
  case startWorkers i =>
    obtain rfl := Option.some.inj h
    obtain ⟨next, hframe, hrole⟩ := startWorker_frame cfg s t i ok
    exact Or.inl ⟨next, hframe, by simp [Caller.role], hrole⟩
  case checkStop =>
    obtain rfl := Option.some.inj h
    refine Or.inl ⟨_, frame_goto s t _, by simp [Caller.role], ?_⟩
    split_ifs <;> rfl
  case accepting =>
    obtain rfl := Option.some.inj h
    refine Or.inl ⟨_, frame_goto s t _, by simp [Caller.role], ?_⟩
    split_ifs <;> rfl
  case closeAccept =>
    obtain rfl := Option.some.inj h
    exact Or.inl ⟨.raiseStop, ⟨rfl, rfl, rfl, rfl, rfl⟩, by simp [Caller.role], rfl⟩
  case raiseStop =>
    obtain rfl := Option.some.inj h
    exact Or.inr (Or.inr (Or.inl ⟨_, rfl, rfl⟩))
  case shutdown path place =>
    have hrole : (Caller.shutdown path place).role ≠ .bystander := by
      cases path <;> simp [Caller.role]
    rcases shutdownStep_frame hc h with ⟨next, hframe⟩ | hframe
    · exact Or.inl ⟨_, hframe, hrole, role_shutdown path next place⟩
    · exact Or.inl ⟨_, hframe, hrole, Path.role_next path place⟩
  case failing =>
    dsimp only at h
    split_ifs at h with hlock
    obtain rfl := Option.some.inj h
    exact Or.inr (Or.inr (Or.inr (Or.inl ⟨_, Or.inl rfl, hlock, Or.inl rfl, rfl, rfl⟩)))
  case publishing =>
    dsimp only at h
    split_ifs at h with hlock
    obtain rfl := Option.some.inj h
    exact Or.inr (Or.inr (Or.inr (Or.inl ⟨_, Or.inr rfl, hlock, Or.inr rfl, rfl, rfl⟩)))
  case fallbackRaise =>
    obtain rfl := Option.some.inj h
    exact Or.inr (Or.inr (Or.inl ⟨_, rfl, rfl⟩))
  case fallbackClose =>
    obtain rfl := Option.some.inj h
    exact Or.inl ⟨.shutdown .fallback .stopPool, ⟨rfl, rfl, rfl, rfl, rfl⟩,
      by simp [Caller.role], rfl⟩
  case returning =>
    obtain rfl := Option.some.inj h
    exact Or.inr (Or.inr (Or.inr (Or.inr (Or.inl ⟨rfl, rfl⟩))))
  case stopRaise =>
    obtain rfl := Option.some.inj h
    exact Or.inr (Or.inr (Or.inl ⟨_, rfl, rfl⟩))
  all_goals refine Or.inr (Or.inr (Or.inr (Or.inr (Or.inr ?_))))
  case notifying =>
    obtain rfl := Option.some.inj h
    exact ⟨.outside, Or.inr (frame_goto _ t _), ⟨rfl, rfl, rfl⟩, rfl, rfl, by simp [Caller.awaits]⟩
  case stopClose =>
    obtain rfl := Option.some.inj h
    exact ⟨.stopRaise, Or.inl ⟨rfl, rfl, rfl, rfl, rfl⟩, ⟨rfl, rfl, rfl⟩, rfl, rfl,
      by simp [Caller.awaits]⟩
  case waiting =>
    obtain rfl := Option.some.inj h
    exact ⟨.woken, Or.inl (frame_goto s t _), ⟨rfl, rfl, rfl⟩, rfl, rfl, fun _ => rfl⟩
  case relocking =>
    obtain ⟨next, hframe, haside, hrole⟩ := awaitStopped_frame h
    exact ⟨next, Or.inl hframe, haside, rfl, hrole, fun _ => rfl⟩
  case woken =>
    obtain ⟨next, hframe, haside, hrole⟩ := awaitStopped_frame h
    exact ⟨next, Or.inl hframe, haside, rfl, hrole, fun _ => rfl⟩

/-! ### A stop request is not lost -/

/-- `Start` does not take back the request of a call of `Stop` that waits. -/
def KeepsRequest (s : RpcServer) : Event → Prop
  | .advance t _ => s.callers t = .clearStop → ∀ u, (s.callers u).awaits = false
  | _ => True

/-- Where a call of `Stop` waits, its request stands. -/
def Alert (s : RpcServer) : Prop :=
  ∀ u, (s.callers u).awaits = true → s.stopRequested = true

/-- Nobody who moves comes to wait without a request. -/
theorem Alert.update (h : s.Alert) (hcallers : s'.callers = Function.update s.callers t c)
    (hstop : s.stopRequested = true → s'.stopRequested = true)
    (hc : c.awaits = true → (s.callers t).awaits = true ∨ s'.stopRequested = true) : s'.Alert := by
  intro u hu
  rw [hcallers, Function.update_apply] at hu
  split_ifs at hu
  · exact (hc hu).elim (fun ht => hstop (h t ht)) id
  · exact hstop (h u hu)

theorem Alert.notifyAll (h : s.Alert) : s.notifyAll.Alert := by
  intro u hu
  refine h u ?_
  unfold RpcServer.notifyAll at hu
  dsimp only at hu
  split_ifs at hu with hw
  · rw [hw]
    rfl
  · exact hu

theorem awaits_of_role (h : c.role ≠ .bystander) : c.awaits = false := by
  cases c <;> first | rfl | exact absurd rfl h

theorem notifyAll_awaits (s : RpcServer) (t : ℕ) :
    (s.notifyAll.callers t).awaits = (s.callers t).awaits := by
  unfold notifyAll
  dsimp only
  split_ifs with hw
  · rw [hw]
    rfl
  · rfl

theorem Alert.advance {ok : Bool} (h : s.Alert) (hkeeps : s.KeepsRequest (.advance t ok))
    (hstep : s.advance cfg t ok = some s') : s'.Alert := by
  rcases advance_cases hstep with ⟨next, hframe, hrole, hnext⟩ | ⟨hclear, rfl⟩ | ⟨next, rfl, -⟩ |
    ⟨next, rfl | rfl, -, -, -, hnext⟩ | ⟨-, rfl⟩ | ⟨next, hframe | hframe, -, -, -, hnext⟩
  · refine h.update hframe.callers (by simp [hframe.stopRequested]) ?_
    rw [awaits_of_role (hnext ▸ hrole)]
    nofun
  · -- the flag goes down, but nobody waits
    intro u hu
    replace hu : (Function.update s.callers t .openAccept u).awaits = true := hu
    rw [Function.update_apply] at hu
    split_ifs at hu
    · cases hu
    · rw [hkeeps hclear u] at hu
      cases hu
  · exact h.update rfl (fun _ => rfl) fun _ => Or.inr rfl
  · exact Alert.update (s := s.notifyAll) h.notifyAll rfl id (by simp [hnext])
  · exact h.update rfl id (by simp [hnext])
  · exact h.update rfl id nofun
  · exact h.update hframe.callers (by simp [hframe.stopRequested]) fun hc => Or.inl (hnext hc)
  · refine h.notifyAll.update hframe.callers (by simp [hframe.stopRequested]) fun hc => Or.inl ?_
    rw [notifyAll_awaits]
    exact hnext hc

theorem Alert.step (h : s.Alert) (hkeeps : s.KeepsRequest e) (hstep : s.step cfg e = some s') :
    s'.Alert := by
  cases e with
  | start t =>
    simp only [RpcServer.step] at hstep
    split_ifs at hstep
    · obtain rfl := Option.some.inj hstep
      exact h
    · obtain rfl := Option.some.inj hstep
      exact h.update rfl id nofun
  | stop t =>
    simp only [RpcServer.step] at hstep
    split_ifs at hstep
    · obtain rfl := Option.some.inj hstep
      exact h.update rfl id nofun
    · obtain rfl := Option.some.inj hstep
      exact h.update rfl id nofun
  | advance t ok => exact h.advance hkeeps hstep
  | work i ok =>
    obtain ⟨w, -, hstep⟩ := Option.bind_eq_some_iff.1 hstep
    obtain ⟨w', -, hstep⟩ := Option.bind_eq_some_iff.1 hstep
    obtain rfl := Option.some.inj hstep
    exact h
  | dispatch i =>
    obtain ⟨w, -, hstep⟩ := Option.bind_eq_some_iff.1 hstep
    split_ifs at hstep
    obtain rfl := Option.some.inj hstep
    exact h

/-- **A stop request stands exactly as long as `Start` does not take it back.**  In
every run of any number of calls of `Start` and `Stop`: wherever a call of `Stop`
waits for `running_` to become false its request stands, so the accept loop leaves
at its next test, if and only if no `Start` clears `stop_requested_` while a call of
`Stop` waits. -/
theorem stop_request_stands_iff (cfg : ServerConfig) (es : List Event) :
    (∀ pre post s, es = pre ++ post → exec (step cfg) {} pre = some s →
      ∀ u, (s.callers u).awaits = true → s.stopRequested = true ∧
        ∀ t ok, s.callers t = .checkStop → s.advance cfg t ok = some (s.goto t .closeAccept)) ↔
    Along (step cfg) KeepsRequest {} es := by
  refine safe_iff_along (I := Alert) (S := fun s => ∀ u, (s.callers u).awaits = true →
    s.stopRequested = true ∧ ∀ t ok, s.callers t = .checkStop →
      s.advance cfg t ok = some (s.goto t .closeAccept)) ?_ ?_ ?_ ?_
  · exact fun s e s' h hkeeps hstep => h.step hkeeps hstep
  · intro s h u hu
    refine ⟨h u hu, fun t ok ht => ?_⟩
    unfold RpcServer.advance
    rw [ht]
    simp [h u hu]
  · intro s e _ hbreak
    cases e with
    | advance t ok =>
      obtain ⟨hclear, hwaits⟩ := Classical.not_imp.1 hbreak
      obtain ⟨u, hu⟩ := not_forall.1 hwaits
      refine ⟨goto { s with stopRequested := false } t .openAccept, ?_, fun hall => ?_⟩
      · change s.advance cfg t ok = _
        rw [RpcServer.advance, hclear]
      · have hne : u ≠ t := by
          rintro rfl
          rw [hclear] at hu
          exact hu rfl
        have hawaits : (Function.update s.callers t .openAccept u).awaits = true := by
          rw [Function.update_of_ne hne]
          simpa using hu
        cases (hall u hawaits).1
    | _ => exact absurd trivial hbreak
  · intro u hu
    cases hu

/-- `Stop` comes between the two parts of the prologue of `Start`: the request is
taken back, and `Stop` sleeps while the server runs on. -/
theorem stop_request_lost :
    ∃ s, exec (step {}) {} [.start 0, .stop 1, .advance 1 true, .advance 1 true, .advance 1 true,
      .advance 0 true] = some s ∧ s.callers 1 = .waiting ∧ s.running = true ∧
      s.stopRequested = false :=
  ⟨_, rfl, rfl, rfl, rfl⟩

end RpcServer
end Server
end MiniRpc
