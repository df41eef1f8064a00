/-
# The thread pool

`ThreadPool` of `src/common/thread_pool.cpp`: any number of threads in `Submit`,
`Stop` and `Join`, and a thread in `WorkerMain` for each worker.  Each atomic
load and store, each step of a mutex and of a condition variable, and each step
of a queue that another thread can see is a step here, so a list of events is an
interleaving.

A queue is a `TicketQueue`: a push takes a place and fills it later, or it finds
all places taken; this is what `MpscRingQueue` is to its users
(`RingQueue.refines`, `RingQueue.tryPush_full`).  A condition variable is the
list of its waiters; a thread that was woken has left the list and still has to
take the mutex.  A task is a number, in the order of
the calls of `Submit`.  The counters of `GetStatsSnapshot` are left out: nothing
else reads them.
-/

import MiniRpc.Common.RingPlaces
import MiniRpc.Library.Transition
import Mathlib.Logic.Function.Basic

namespace MiniRpc
namespace Common

open Transition

/-- The parameter of the constructor, `kQueueCapacity` and `kBatchSize`. -/
structure PoolConfig where
  threadCount : ℕ
  queueCapacity : ℕ := 1024
  batchSize : ℕ := 32

/-- `thread_count_`. -/
def PoolConfig.threads (cfg : PoolConfig) : ℕ :=
  if cfg.threadCount = 0 then 1 else cfg.threadCount

/-- What a worker does next in `WorkerMain`. -/
inductive WorkerPlace where
  /-- In `PopBatch`, with the tasks it has so far. -/
  | popping (batch : List ℕ)
  /-- The batch is empty: `stop_requested_` is read next. -/
  | checkStop
  | setWaiting
  /-- The second look at the queue and at the flag. -/
  | checkEmpty
  | clearWaiting
  | recheckStop
  | clearExit
  /-- `cv_mutex`, and the predicate of `cv.wait`. -/
  | locking
  | testStop
  | testEmpty
  | sleeping
  | waiting
  /-- After `cv.wait`: the flag, and the end of the scope of the lock. -/
  | leaving
  | unlocking
  | notifying (batch : List ℕ)
  | running (batch : List ℕ)
  | exited
  deriving DecidableEq, Repr

/-- The tasks that a worker has taken out of its queue and not yet run. -/
def WorkerPlace.batch : WorkerPlace → List ℕ
  | .popping batch | .notifying batch | .running batch => batch
  | _ => []

/-- The worker has decided to leave `WorkerMain`. -/
def WorkerPlace.isGone : WorkerPlace → Bool
  | .clearExit | .exited => true
  | _ => false

/-- `WorkerData`, with the worker's thread.  A waiter of `cv` is the worker (`none`)
or a caller of `Submit`. -/
structure WorkerData where
  queue : TicketQueue ℕ := {}
  cvMutex : Bool := false
  waiters : List (Option ℕ) := []
  isWaiting : Bool := false
  place : WorkerPlace := .popping []
  /-- The tasks that got a place in the queue, and those that the worker has run. -/
  won : List ℕ := []
  ran : List ℕ := []

/-- What a thread does next in `Submit`, `Stop` or `Join`. -/
inductive Client where
  | outside
  | checkAccepting (task idx : ℕ)
  /-- `TryPush` in the loop, with the attempts that are left. -/
  | tryPush (task idx left : ℕ)
  /-- `TryPush` has won a place and has it to fill. -/
  | filling (task idx ticket : ℕ) (slow : Bool)
  | checkWaiting (task idx : ℕ)
  | lockNotify (task idx : ℕ)
  | notifyOne (task idx : ℕ)
  | unlocking (task idx : ℕ) (ok : Bool)
  /-- The slow path. -/
  | lockSlow (task idx : ℕ)
  | slowPush (task idx : ℕ)
  | slowAccepting (task idx : ℕ)
  | slowSleep (task idx : ℕ)
  | slowWaiting (task idx : ℕ)
  | returning (task : ℕ) (ok : Bool)
  /-- `Stop`: the two exchanges, and then the lock and the notification of each worker. -/
  | stopAccepting
  | stopRequest (wasAccepting : Bool)
  | stopLock (i : ℕ)
  | stopUnlock (i : ℕ)
  | stopNotify (i : ℕ)
  /-- `Join`: the workers are joined in turn. -/
  | joining (i : ℕ)
  deriving DecidableEq, Repr

/-- The pool after `Start`. -/
structure ThreadPool where
  acceptingTasks : Bool := true
  stopRequested : Bool := false
  data : ℕ → WorkerData := fun _ => {}
  clients : ℕ → Client := fun _ => .outside
  /-- `Join` has returned, and `worker_data_` is gone. -/
  joined : Bool := false
  /-- The number of calls of `Submit`, and the tasks for which it returned true and false. -/
  tasks : ℕ := 0
  accepted : List ℕ := []
  rejected : List ℕ := []

/-- A step of a worker; `stop` is the value of `stop_requested_`. -/
def WorkerData.work (cfg : PoolConfig) (stop : Bool) (d : WorkerData) : Option WorkerData :=
  match d.place with
  | .popping batch =>
    match if batch.length < cfg.batchSize then d.queue.pop else none with
    | some (task, queue) => some { d with queue, place := .popping (batch ++ [task]) }
    | none => some { d with place := if batch = [] then .checkStop else .notifying batch }
  | .checkStop => some { d with place := if stop then .exited else .setWaiting }
  | .setWaiting => some { d with isWaiting := true, place := .checkEmpty }
  | .checkEmpty =>
    some { d with place := if d.queue.pop.isSome then .clearWaiting else .recheckStop }
  | .clearWaiting => some { d with isWaiting := false, place := .popping [] }
  | .recheckStop => some { d with place := if stop then .clearExit else .locking }
  | .clearExit => some { d with isWaiting := false, place := .exited }
  | .locking => if d.cvMutex then none else some { d with cvMutex := true, place := .testStop }
  | .testStop => some { d with place := if stop then .leaving else .testEmpty }
  | .testEmpty => some { d with place := if d.queue.pop.isSome then .leaving else .sleeping }
  | .sleeping =>
    some { d with cvMutex := false, waiters := d.waiters ++ [none], place := .waiting }
  | .waiting =>
    if none ∈ d.waiters ∨ d.cvMutex then none
    else some { d with cvMutex := true, place := .testStop }
  | .leaving => some { d with isWaiting := false, place := .unlocking }
  | .unlocking => some { d with cvMutex := false, place := .popping [] }
  | .notifying batch => some { d with waiters := [], place := .running batch }
  | .running [] => some { d with place := .popping [] }
  | .running (task :: batch) =>
    some { d with ran := d.ran ++ [task], place := .running batch }
  | .exited => none

/-- The worker that a call of `Submit` is at, or begins with. -/
def Client.worker : Client → Option ℕ
  | .checkAccepting _ idx | .tryPush _ idx _ | .filling _ idx _ _ | .checkWaiting _ idx
  | .lockNotify _ idx | .notifyOne _ idx | .unlocking _ idx _ | .lockSlow _ idx | .slowPush _ idx
  | .slowAccepting _ idx | .slowSleep _ idx | .slowWaiting _ idx => some idx
  | _ => none

/-- The task of a call of `Submit` that has no place in a queue. -/
def Client.unplaced : Client → Option ℕ
  | .checkAccepting task _ | .tryPush task _ _ | .lockSlow task _ | .slowPush task _
  | .slowAccepting task _ | .slowSleep task _ | .slowWaiting task _ | .unlocking task _ false
  | .returning task false => some task
  | _ => none

/-- The task of a call of `Submit` that has a place. -/
def Client.placed : Client → Option ℕ
  | .filling task _ _ _ | .checkWaiting task _ | .lockNotify task _ | .notifyOne task _
  | .unlocking task _ true | .returning task true => some task
  | _ => none

/-- The worker to whose queue the next step of the call pushes. -/
def Client.pushing : Client → Option ℕ
  | .tryPush _ idx _ | .slowPush _ idx => some idx
  | _ => none

/-- A thread that is in `Stop` or in no call. -/
def Client.isAside : Client → Bool
  | .outside | .stopAccepting | .stopRequest _ | .stopLock _ | .stopUnlock _ | .stopNotify _ => true
  | _ => false

/-- A step of a call of `Submit` by the thread `t` at its worker; `k` is the place of
the waiter that `notify_one` wakes. -/
def submitStep (cfg : PoolConfig) (accepting : Bool) (t k : ℕ) (d : WorkerData) :
    Client → Option (WorkerData × Client)
  | .tryPush task idx left =>
    if d.queue.line.length < cfg.queueCapacity then
      some ({ d with queue := d.queue.reserve task, won := d.won ++ [task] },
        .filling task idx d.queue.ticket false)
    else
      let next := (idx + 1) % cfg.threads
      some (d, if left ≤ 1 then .lockSlow task next else .tryPush task next (left - 1))
  | .filling task idx ticket slow =>
    some ({ d with queue := d.queue.fill ticket },
      if slow then .notifyOne task idx else .checkWaiting task idx)
  | .checkWaiting task idx =>
    some (d, if d.isWaiting then .lockNotify task idx else .returning task true)
  | .lockNotify task idx =>
    if d.cvMutex then none else some ({ d with cvMutex := true }, .notifyOne task idx)
  | .notifyOne task idx =>
    if d.waiters = [] ∨ k < d.waiters.length then
      some ({ d with waiters := d.waiters.eraseIdx k }, .unlocking task idx true)
    else none
  | .unlocking task _ ok => some ({ d with cvMutex := false }, .returning task ok)
  | .lockSlow task idx =>
    if d.cvMutex then none else some ({ d with cvMutex := true }, .slowPush task idx)
  | .slowPush task idx =>
    if d.queue.line.length < cfg.queueCapacity then
      some ({ d with queue := d.queue.reserve task, won := d.won ++ [task] },
        .filling task idx d.queue.ticket true)
    else some (d, .slowAccepting task idx)
  | .slowAccepting task idx =>
    some (d, if accepting then .slowSleep task idx else .unlocking task idx false)
  | .slowSleep task idx =>
    some ({ d with cvMutex := false, waiters := d.waiters ++ [some t] }, .slowWaiting task idx)
  | .slowWaiting task idx =>
    if some t ∈ d.waiters ∨ d.cvMutex then none
    else some ({ d with cvMutex := true }, .slowPush task idx)
  | _ => none

namespace ThreadPool

/-- One step of one thread. -/
inductive Event where
  /-- A call of `Submit`; the task may be an empty function, and the thread-local counter
  makes any worker the first. -/
  | submit (t : ℕ) (valid : Bool) (idx : ℕ)
  | stop (t : ℕ)
  | join (t : ℕ)
  /-- A thread goes on in its call. -/
  | client (t k : ℕ)
  | worker (i : ℕ)
  /-- A waiter of worker `i` wakes up without a notification. -/
  | spurious (i : ℕ) (waiter : Option ℕ)

/-- The thread `t` is now at `c`. -/
def goto (s : ThreadPool) (t : ℕ) (c : Client) : ThreadPool :=
  { s with clients := Function.update s.clients t c }

/-- The data of worker `i` is now `d`. -/
def setData (s : ThreadPool) (i : ℕ) (d : WorkerData) : ThreadPool :=
  { s with data := Function.update s.data i d }

/-- A thread goes on in `Submit`, `Stop` or `Join`.  After `Join` the data of the workers
must not be touched. -/
def client (cfg : PoolConfig) (s : ThreadPool) (t k : ℕ) : Option ThreadPool :=
  match s.clients t with
  | .outside => none
  | .checkAccepting task idx =>
    some (s.goto t (if s.acceptingTasks then .tryPush task idx cfg.threads
      else .returning task false))
  | .returning task ok =>
    some (goto { s with
      accepted := if ok then s.accepted ++ [task] else s.accepted
      rejected := if ok then s.rejected else s.rejected ++ [task] } t .outside)
  | .stopAccepting =>
    some (goto { s with acceptingTasks := false } t (.stopRequest s.acceptingTasks))
  | .stopRequest wasAccepting =>
    some (goto { s with stopRequested := true } t
      (if wasAccepting || !s.stopRequested then .stopLock 0 else .outside))
  | .stopLock i =>
    if s.joined ∨ cfg.threads ≤ i then some (s.goto t .outside)
    else if (s.data i).cvMutex then none
    else some ((s.setData i { s.data i with cvMutex := true }).goto t (.stopUnlock i))
  | .stopUnlock i =>
    if s.joined then none
    else some ((s.setData i { s.data i with cvMutex := false }).goto t (.stopNotify i))
  | .stopNotify i =>
    if s.joined then none
    else some ((s.setData i { s.data i with waiters := [] }).goto t (.stopLock (i + 1)))
  | .joining i =>
    if s.joined ∨ cfg.threads ≤ i then some (goto { s with joined := true } t .outside)
    else if (s.data i).place = .exited then some (s.goto t (.joining (i + 1)))
    else none
  | c => do
    let i ← c.worker
    if s.joined then none
    else
      let (d, next) ← submitStep cfg s.acceptingTasks t k (s.data i) c
      pure ((s.setData i d).goto t next)

/-- One step, `none` if it cannot happen in the state. -/
def step (cfg : PoolConfig) (s : ThreadPool) : Event → Option ThreadPool
  | .submit t valid idx =>
    if s.clients t = .outside ∧ idx < cfg.threads then
      some (goto { s with tasks := s.tasks + 1 } t
        (if valid then .checkAccepting s.tasks idx else .returning s.tasks false))
    else none
  | .stop t => if s.clients t = .outside then some (s.goto t .stopAccepting) else none
  | .join t => if s.clients t = .outside then some (s.goto t (.joining 0)) else none
  | .client t k => s.client cfg t k
  | .worker i =>
    if i < cfg.threads then ((s.data i).work cfg s.stopRequested).map (s.setData i) else none
  | .spurious i waiter =>
    if waiter ∈ (s.data i).waiters then
      some (s.setData i { s.data i with waiters := (s.data i).waiters.erase waiter })
    else none

/-! ### What one step does to the tasks -/

/-- The queue, the history and the place of a worker are the same. -/
structure SameTasks (d d' : WorkerData) : Prop where
  values : d'.queue.values = d.queue.values
  won : d'.won = d.won
  ran : d'.ran = d.ran
  place : d'.place = d.place

/-- **A step of `Submit`** takes a place for its task, or it changes nothing that
concerns tasks. -/
theorem submitStep_cases {cfg : PoolConfig} {accepting : Bool} {t k : ℕ} {d d' : WorkerData}
    {c c' : Client} (h : submitStep cfg accepting t k d c = some (d', c')) :
    (SameTasks d d' ∧ c'.unplaced = c.unplaced ∧ c'.placed = c.placed ∧
      (∀ i, c'.worker = some i → c.worker = some i ∨ i < cfg.threads)) ∨
    ∃ task i, c.unplaced = some task ∧ c.worker = some i ∧ c'.unplaced = none ∧
      c'.placed = some task ∧ c'.worker = some i ∧ d.queue.line.length < cfg.queueCapacity ∧
      ((∃ left, c = .tryPush task i left) ∨ c = .slowPush task i) ∧
      d' = { d with queue := d.queue.reserve task, won := d.won ++ [task] } := by
  have hthreads : 0 < cfg.threads := by
    unfold PoolConfig.threads
    split_ifs <;> omega
  cases c with
  | tryPush task idx left =>
    simp only [submitStep] at h
    split_ifs at h with hroom hleft
    · obtain ⟨rfl, rfl⟩ := Prod.mk.inj (Option.some.inj h)
      exact Or.inr ⟨task, idx, rfl, rfl, rfl, rfl, rfl, hroom, Or.inl ⟨left, rfl⟩, rfl⟩
    · obtain ⟨rfl, rfl⟩ := Prod.mk.inj (Option.some.inj h)
      refine Or.inl ⟨⟨rfl, rfl, rfl, rfl⟩, rfl, rfl, fun i hi => Or.inr ?_⟩
      rw [← Option.some.inj hi]
      exact Nat.mod_lt _ hthreads
    · obtain ⟨rfl, rfl⟩ := Prod.mk.inj (Option.some.inj h)
      refine Or.inl ⟨⟨rfl, rfl, rfl, rfl⟩, rfl, rfl, fun i hi => Or.inr ?_⟩
      rw [← Option.some.inj hi]
      exact Nat.mod_lt _ hthreads
  | slowPush task idx =>
    simp only [submitStep] at h
    split_ifs at h with hroom
    · obtain ⟨rfl, rfl⟩ := Prod.mk.inj (Option.some.inj h)
      exact Or.inr ⟨task, idx, rfl, rfl, rfl, rfl, rfl, hroom, Or.inr rfl, rfl⟩
    · obtain ⟨rfl, rfl⟩ := Prod.mk.inj (Option.some.inj h)
      exact Or.inl ⟨⟨rfl, rfl, rfl, rfl⟩, rfl, rfl, fun i hi => Or.inl hi⟩
  | filling task idx ticket slow =>
    obtain ⟨rfl, rfl⟩ := Prod.mk.inj (Option.some.inj h)
    refine Or.inl ⟨⟨TicketQueue.values_fill _ _, rfl, rfl, rfl⟩, ?_, ?_, fun i hi => Or.inl ?_⟩
    all_goals cases slow <;> first | rfl | exact hi
  | checkWaiting task idx =>
    obtain ⟨rfl, rfl⟩ := Prod.mk.inj (Option.some.inj h)
    refine Or.inl ⟨⟨rfl, rfl, rfl, rfl⟩, ?_, ?_, fun i hi => Or.inl ?_⟩
    · split_ifs <;> rfl
    · split_ifs <;> rfl
    · split_ifs at hi
      · exact hi
      · cases hi
  | lockNotify task idx =>
    simp only [submitStep] at h
    split_ifs at h
    obtain ⟨rfl, rfl⟩ := Prod.mk.inj (Option.some.inj h)
    exact Or.inl ⟨⟨rfl, rfl, rfl, rfl⟩, rfl, rfl, fun i hi => Or.inl hi⟩
  | notifyOne task idx =>
    simp only [submitStep] at h
    split_ifs at h
    obtain ⟨rfl, rfl⟩ := Prod.mk.inj (Option.some.inj h)
    exact Or.inl ⟨⟨rfl, rfl, rfl, rfl⟩, rfl, rfl, fun i hi => Or.inl hi⟩
  | unlocking task idx ok =>
    obtain ⟨rfl, rfl⟩ := Prod.mk.inj (Option.some.inj h)
    refine Or.inl ⟨⟨rfl, rfl, rfl, rfl⟩, ?_, ?_, nofun⟩
    all_goals cases ok <;> rfl
  | lockSlow task idx =>
    simp only [submitStep] at h
    split_ifs at h
    obtain ⟨rfl, rfl⟩ := Prod.mk.inj (Option.some.inj h)
    exact Or.inl ⟨⟨rfl, rfl, rfl, rfl⟩, rfl, rfl, fun i hi => Or.inl hi⟩
  | slowAccepting task idx =>
    obtain ⟨rfl, rfl⟩ := Prod.mk.inj (Option.some.inj h)
    refine Or.inl ⟨⟨rfl, rfl, rfl, rfl⟩, ?_, ?_, fun i hi => Or.inl ?_⟩
    all_goals split_ifs at * <;> first | rfl | exact hi
  | slowSleep task idx =>
    obtain ⟨rfl, rfl⟩ := Prod.mk.inj (Option.some.inj h)
    exact Or.inl ⟨⟨rfl, rfl, rfl, rfl⟩, rfl, rfl, fun i hi => Or.inl hi⟩
  | slowWaiting task idx =>
    simp only [submitStep] at h
    split_ifs at h
    obtain ⟨rfl, rfl⟩ := Prod.mk.inj (Option.some.inj h)
    exact Or.inl ⟨⟨rfl, rfl, rfl, rfl⟩, rfl, rfl, fun i hi => Or.inl hi⟩
  | _ => cases h

/-- **A step of a worker** moves tasks from the queue to the batch and from there to
those that were run; it decides to leave only where it has seen the stop flag. -/
theorem work_cases {cfg : PoolConfig} {stop : Bool} {d d' : WorkerData}
    (h : d.work cfg stop = some d') :
    d'.won = d.won ∧
    d'.ran ++ d'.place.batch ++ d'.queue.values = d.ran ++ d.place.batch ++ d.queue.values ∧
    d.place ≠ .exited ∧ (d.place.isGone = true → d'.place = .exited) ∧
    (d'.place.isGone = true → d'.queue = d.queue ∧ (d.place.isGone = true ∨
      stop = true ∧ (d.place = .checkStop ∨ d.place = .recheckStop))) := by
  unfold WorkerData.work at h
  cases hplace : d.place <;> rw [hplace] at h
  case popping batch =>
    dsimp only at h
    split at h
    · rename_i task queue hpop
      obtain rfl := Option.some.inj h
      split_ifs at hpop
      refine ⟨rfl, ?_, nofun, nofun, nofun⟩
      rw [TicketQueue.values_of_pop hpop]
      simp [WorkerPlace.batch]
    · obtain rfl := Option.some.inj h
      split_ifs with hnil
      · exact ⟨rfl, by simp [WorkerPlace.batch, hnil], nofun, nofun, nofun⟩
      · exact ⟨rfl, rfl, nofun, nofun, nofun⟩
  case checkStop =>
    obtain rfl := Option.some.inj h
    cases stop with
    | true => exact ⟨rfl, rfl, nofun, nofun, fun _ => ⟨rfl, Or.inr ⟨rfl, Or.inl rfl⟩⟩⟩
    | false => exact ⟨rfl, rfl, nofun, nofun, nofun⟩
  case recheckStop =>
    obtain rfl := Option.some.inj h
    cases stop with
    | true => exact ⟨rfl, rfl, nofun, nofun, fun _ => ⟨rfl, Or.inr ⟨rfl, Or.inr rfl⟩⟩⟩
    | false => exact ⟨rfl, rfl, nofun, nofun, nofun⟩
  case clearExit =>
    obtain rfl := Option.some.inj h
    exact ⟨rfl, rfl, nofun, fun _ => rfl, fun _ => ⟨rfl, Or.inl rfl⟩⟩
  case checkEmpty =>
    obtain rfl := Option.some.inj h
    split_ifs <;> exact ⟨rfl, rfl, nofun, nofun, nofun⟩
  case testStop =>
    obtain rfl := Option.some.inj h
    split_ifs <;> exact ⟨rfl, rfl, nofun, nofun, nofun⟩
  case testEmpty =>
    obtain rfl := Option.some.inj h
    split_ifs <;> exact ⟨rfl, rfl, nofun, nofun, nofun⟩
  case locking =>
    dsimp only at h
    split_ifs at h
    obtain rfl := Option.some.inj h
    exact ⟨rfl, rfl, nofun, nofun, nofun⟩
  case waiting =>
    dsimp only at h
    split_ifs at h
    obtain rfl := Option.some.inj h
    exact ⟨rfl, rfl, nofun, nofun, nofun⟩
  case running batch =>
    cases batch with
    | nil =>
      obtain rfl := Option.some.inj h
      exact ⟨rfl, rfl, nofun, nofun, nofun⟩
    | cons task batch =>
      obtain rfl := Option.some.inj h
      exact ⟨rfl, by simp [WorkerPlace.batch], nofun, nofun, nofun⟩
  case exited => cases h
  all_goals
    obtain rfl := Option.some.inj h
    exact ⟨rfl, rfl, nofun, nofun, nofun⟩

variable {cfg : PoolConfig} {s s' : ThreadPool} {t k : ℕ}

/-- `t` goes to `c`, the data of worker `i` becomes `d` without a change for the tasks,
and nothing else that concerns tasks changes. -/
structure Beside (s s' : ThreadPool) (t i : ℕ) (d : WorkerData) (c : Client) : Prop where
  data : s'.data = Function.update s.data i d
  clients : s'.clients = Function.update s.clients t c
  tasks : s'.tasks = s.tasks
  accepted : s'.accepted = s.accepted
  rejected : s'.rejected = s.rejected
  joined : s'.joined = s.joined
  same : SameTasks (s.data i) d

theorem beside_goto (s : ThreadPool) (t : ℕ) (c : Client) :
    Beside s (s.goto t c) t 0 (s.data 0) c :=
  ⟨(Function.update_eq_self 0 s.data).symm, rfl, rfl, rfl, rfl, rfl, rfl, rfl, rfl, rfl⟩

/-- **A step of a call**: `Submit` at its worker, its test of `accepting_tasks_`, its
return, `Join`, or a step of `Stop`, which has nothing to do with tasks. -/
theorem client_cases (h : s.client cfg t k = some s') :
    (∃ i d c, (s.clients t).worker = some i ∧ s.joined = false ∧
      submitStep cfg s.acceptingTasks t k (s.data i) (s.clients t) = some (d, c) ∧
      s' = (s.setData i d).goto t c) ∨
    (∃ task idx, s.clients t = .checkAccepting task idx ∧ s' = s.goto t
      (if s.acceptingTasks then .tryPush task idx cfg.threads else .returning task false)) ∨
    (∃ task ok, s.clients t = .returning task ok ∧ s' = goto { s with
      accepted := if ok then s.accepted ++ [task] else s.accepted
      rejected := if ok then s.rejected else s.rejected ++ [task] } t .outside) ∨
    (∃ i, s.clients t = .joining i ∧ (((s.joined = true ∨ cfg.threads ≤ i) ∧
        s' = goto { s with joined := true } t .outside) ∨
      ((s.data i).place = .exited ∧ s' = s.goto t (.joining (i + 1))))) ∨
    (∃ i d c, (s.clients t).isAside = true ∧ c.isAside = true ∧
      (∀ u ∈ d.waiters, u ∈ (s.data i).waiters) ∧ Beside s s' t i d c) := by
  unfold client at h
  cases hc : s.clients t <;> rw [hc] at h
  case outside => cases h
  case checkAccepting task idx =>
    exact Or.inr (Or.inl ⟨task, idx, rfl, (Option.some.inj h).symm⟩)
  case returning task ok =>
    exact Or.inr (Or.inr (Or.inl ⟨task, ok, rfl, (Option.some.inj h).symm⟩))
  case joining i =>
    refine Or.inr (Or.inr (Or.inr (Or.inl ⟨i, rfl, ?_⟩)))
    dsimp only at h
    split_ifs at h with hdone hexited
    · exact Or.inl ⟨hdone, (Option.some.inj h).symm⟩
    · exact Or.inr ⟨hexited, (Option.some.inj h).symm⟩
  case stopAccepting =>
    obtain rfl := Option.some.inj h
    exact Or.inr (Or.inr (Or.inr (Or.inr ⟨0, s.data 0, _, rfl, rfl, fun _ => id,
      { beside_goto s t (.stopRequest s.acceptingTasks) with }⟩)))
  case stopRequest was =>
    obtain rfl := Option.some.inj h
    refine Or.inr (Or.inr (Or.inr (Or.inr ⟨0, s.data 0, _, rfl, ?_, fun _ => id,
      { beside_goto s t _ with }⟩)))
    split_ifs <;> rfl
  case stopLock i =>
    dsimp only at h
    split_ifs at h
    · obtain rfl := Option.some.inj h
      exact Or.inr (Or.inr (Or.inr (Or.inr ⟨0, s.data 0, _, rfl, rfl, fun _ => id,
        beside_goto s t _⟩)))
    · obtain rfl := Option.some.inj h
      exact Or.inr (Or.inr (Or.inr (Or.inr ⟨i, { s.data i with cvMutex := true }, .stopUnlock i,
        rfl, rfl, fun _ => id, ⟨rfl, rfl, rfl, rfl, rfl, rfl, rfl, rfl, rfl, rfl⟩⟩)))
  case stopUnlock i =>
    dsimp only at h
    split_ifs at h
    obtain rfl := Option.some.inj h
    exact Or.inr (Or.inr (Or.inr (Or.inr ⟨i, { s.data i with cvMutex := false }, .stopNotify i,
      rfl, rfl, fun _ => id, ⟨rfl, rfl, rfl, rfl, rfl, rfl, rfl, rfl, rfl, rfl⟩⟩)))
  case stopNotify i =>
    dsimp only at h
    split_ifs at h
    obtain rfl := Option.some.inj h
    exact Or.inr (Or.inr (Or.inr (Or.inr ⟨i, { s.data i with waiters := [] }, .stopLock (i + 1),
      rfl, rfl, nofun, ⟨rfl, rfl, rfl, rfl, rfl, rfl, rfl, rfl, rfl, rfl⟩⟩)))
  all_goals
    left
    dsimp only [Client.worker, Option.bind_eq_bind, Option.bind_some] at h
    split_ifs at h with hjoined
    obtain ⟨⟨d, c⟩, hstep, hs'⟩ := Option.bind_eq_some_iff.1 h
    exact ⟨_, d, c, rfl, by simpa using hjoined, hstep, (Option.some.inj hs').symm⟩

end ThreadPool
end Common
end MiniRpc
