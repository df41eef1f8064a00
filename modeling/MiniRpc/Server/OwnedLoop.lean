/-
# A worker in small steps

A worker with a thread pool gives a request away and gets the response back
later, on another thread's word: `fd` and `connection_token` are all that says
which connection it belongs to (`DispatchRequestToThreadPool` and
`DrainCompletedResponses` of `src/server/worker_loop.cpp`).

This module runs the worker in small steps, with the acceptor and the pool in
between: one poll is taken apart at its loops, and each round of a loop is a call
of the function of `WorkerLoop` that makes it.  Beside the worker's own state a
run records which connection is which: connections are numbered in the order in
which they got their tokens, tasks in the order in which they were submitted, and
`log` and `applied` say on which connection a response was queued and an event
was applied.  The kernel reports events only of registered descriptors, and the
pool runs a task once; nothing else is assumed.
-/

import MiniRpc.Server.Suspended

namespace MiniRpc
namespace Server

open Protocol Splitter Transition

/-- A task submitted to the pool, with the number of its connection. -/
structure PoolTask where
  uid : ℕ
  fd : ℤ
  token : ℕ
  request : DispatchRequest

/-- An event as `epoll_wait` returned it, with the number of the connection it
was reported for; none for the wake-up descriptor. -/
structure Collected where
  event : ReadyEvent
  uid : Option ℕ

/-- Where the owner thread is in `PollOnce`. -/
inductive PollPhase where
  | idle
  /-- In the loop of `DrainPendingConnections`. -/
  | adopting (events : List Collected) (pending : List PendingConnection)
  /-- In the loop of `DrainCompletedResponses`. -/
  | delivering (events : List Collected) (tasks : List ℕ)
  /-- Before step 2. -/
  | ticking (events : List Collected)
  /-- In the loop of step 3. -/
  | handling (events : List Collected)

/-- The events that are still to be handled in this poll. -/
def PollPhase.events : PollPhase → List Collected
  | .idle => []
  | .adopting events _ => events
  | .delivering events _ => events
  | .ticking events => events
  | .handling events => events

/-- The tasks whose responses `DrainCompletedResponses` has taken and not yet
looked at. -/
def PollPhase.inHand : PollPhase → List ℕ
  | .delivering _ tasks => tasks
  | _ => []

/-- The owner thread is in the loop of `DrainPendingConnections`. -/
def PollPhase.isAdopting : PollPhase → Bool
  | .adopting _ _ => true
  | _ => false

/-- A worker in the course of a run. -/
structure OwnedLoop where
  loop : WorkerLoop
  phase : PollPhase := .idle
  /-- The descriptor and the token of each connection that got a token. -/
  issued : List (ℤ × ℕ) := []
  /-- The number of the connection that was last put into the table at `fd`. -/
  owner : ℤ → ℕ := fun _ => 0
  tasks : List PoolTask := []
  /-- The tasks that were run. -/
  ran : List ℕ := []
  /-- The tasks whose responses are in `completed_queue_`. -/
  queue : List ℕ := []
  /-- The responses that were queued: the task, and the connection. -/
  log : List (ℕ × ℕ) := []
  /-- The events that were applied: the connection they were reported for, and
  the one they were applied to. -/
  applied : List (Option ℕ × ℕ) := []

namespace WorkerLoop

/-- The requests of a connection that went to the pool while it went from having
handed over `before` to having handed over `after`. -/
def submitted (env : LoopEnv) (uid : ℕ) (fd : ℤ) (token : ℕ) (before after : List RpcRequest) :
    List PoolTask :=
  ((after.drop before.length).mapIdx fun i request =>
    (⟨uid, fd, token, dispatchRequest (before.length + i + 1) request⟩ : PoolTask)).filter
      fun task => match env.submit with
        | some submit => submit task.fd task.token task.request
        | none => false

/-- The connection that a completion reaches: its state, and what it is after
the response is queued and `NotifyReadable` has returned. -/
def delivery (env : LoopEnv) (w : WorkerLoop) (r : CompletedResponse) :
    Option (ConnectionState × Connection) :=
  match w.connections.lookup r.fd with
  | none => none
  | some state =>
    if state.connectionToken ≠ r.connectionToken then none
    else
      let cenv := connectionEnv env w r.fd state.connectionToken
      match enqueueResponse cenv state.connection.out r.response with
      | (_, some _) => none
      | (out, none) => some (state, ({ state.connection with out }).notifyReadable cenv)

/-- The connection that an event is applied to: its state, and what the
notifications make of it. -/
def notification (env : LoopEnv) (w : WorkerLoop) (e : ReadyEvent) :
    Option (ConnectionState × Connection) :=
  if e.fd = w.wakeFd then none
  else
    match w.connections.lookup e.fd with
    | none => none
    | some state =>
      let cenv := connectionEnv env w e.fd state.connectionToken
      let c := state.connection
      let c := if e.readable then c.notifyReadable cenv else c
      let c := if e.writable then c.notifyWritable cenv else c
      let c := if e.hangup then (c.markClosing.notifyReadable cenv).notifyWritable cenv else c
      some (state, c)

/-! ### What the calls of a poll leave of the table -/

/-- `w'` has no connection that `w` has not, with the same tokens, and nothing
was taken over, handed over or numbered in between. -/
structure Shrinks (w w' : WorkerLoop) : Prop where
  wakeFd : w'.wakeFd = w.wakeFd
  token : w'.nextConnectionToken = w.nextConnectionToken
  pending : w'.pendingConnections = w.pendingConnections
  completed : w'.completed = w.completed
  entries : ∀ fd state', w'.connections.lookup fd = some state' →
    ∃ state, w.connections.lookup fd = some state ∧
      state'.connectionToken = state.connectionToken

theorem Shrinks.refl (w : WorkerLoop) : Shrinks w w :=
  ⟨rfl, rfl, rfl, rfl, fun _ state h => ⟨state, h, rfl⟩⟩

theorem Shrinks.trans {w w' w'' : WorkerLoop} (h : Shrinks w w') (h' : Shrinks w' w'') :
    Shrinks w w'' := by
  refine ⟨h'.wakeFd.trans h.wakeFd, h'.token.trans h.token, h'.pending.trans h.pending,
    h'.completed.trans h.completed, fun fd state'' hl => ?_⟩
  obtain ⟨state', hl', ht'⟩ := h'.entries fd state'' hl
  obtain ⟨state, hl, ht⟩ := h.entries fd state' hl'
  exact ⟨state, hl, ht'.trans ht⟩

/-- What a call leaves that goes on from `w'`. -/
theorem Shrinks.keeps {w w' : WorkerLoop} (h : Shrinks w w') {r : Ended}
    (hr : r.Keeps (Shrinks w')) : r.Keeps (Shrinks w) := by
  cases r with
  | ok v => exact h.trans hr
  | failed v e => exact h.trans hr
  | blocked => trivial

theorem shrinks_insert {w : WorkerLoop} {fd : ℤ} {state : ConnectionState}
    (h : w.connections.lookup fd = some state) (c : Connection) :
    Shrinks w { w with
      connections := w.connections.insert fd { state with connection := c } } := by
  refine ⟨rfl, rfl, rfl, rfl, fun fd' state' hl => ?_⟩
  by_cases hfd : fd' = fd
  · subst hfd
    rw [AList.lookup_insert] at hl
    obtain rfl := Option.some.inj hl
    exact ⟨state, h, rfl⟩
  · rw [AList.lookup_insert_ne hfd] at hl
    exact ⟨state', hl, rfl⟩

theorem shrinks_closeConnection (env : LoopEnv) (w : WorkerLoop) (fd : ℤ) :
    (w.closeConnection env fd).Keeps (Shrinks w) := by
  unfold closeConnection
  split
  · exact .refl w
  · dsimp only
    split_ifs
    · refine ⟨rfl, rfl, rfl, rfl, fun fd' state' hl => ?_⟩
      by_cases hfd : fd' = fd
      · subst hfd
        simp at hl
      · rw [AList.lookup_erase_ne hfd] at hl
        exact ⟨state', hl, rfl⟩
    · trivial

theorem shrinks_updateEpollInterest (env : LoopEnv) (w : WorkerLoop) (fd : ℤ) :
    (w.updateEpollInterest env fd).Keeps (Shrinks w) := by
  have hcontrol : Shrinks w w.control.2 := ⟨rfl, rfl, rfl, rfl, fun _ state h => ⟨state, h, rfl⟩⟩
  unfold updateEpollInterest
  split
  · rename_i v heq
    rw [heq] at hcontrol
    exact hcontrol.keeps (shrinks_closeConnection env v fd)
  · rename_i v heq
    rw [heq] at hcontrol
    refine hcontrol.trans ⟨rfl, rfl, rfl, rfl, fun fd' state' hl => ?_⟩
    dsimp only at hl
    rw [Table.lookup_update] at hl
    split_ifs at hl with hfd
    · obtain ⟨state, hstate, rfl⟩ := Option.map_eq_some_iff.1 hl
      exact ⟨state, hfd ▸ hstate, rfl⟩
    · exact ⟨state', hl, rfl⟩

/-- `CloseConnection` returns true wherever it returns. -/
theorem closeConnection_ne_failed (env : LoopEnv) (w w' : WorkerLoop) (fd : ℤ) (error : String) :
    w.closeConnection env fd ≠ .failed w' error := by
  unfold closeConnection
  split
  · simp
  · dsimp only
    split_ifs <;> simp

theorem updateEpollInterest_ne_failed (env : LoopEnv) (w w' : WorkerLoop) (fd : ℤ)
    (error : String) : w.updateEpollInterest env fd ≠ .failed w' error := by
  unfold updateEpollInterest
  split
  · exact closeConnection_ne_failed env _ w' fd error
  · simp

/-- A completion is delivered as `delivery` says, or dropped where no connection
has its descriptor and token, or its connection is closed. -/
theorem deliver_cases (env : LoopEnv) (w : WorkerLoop) (r : CompletedResponse) :
    (∃ state c, w.delivery env r = some (state, c) ∧
      w.connections.lookup r.fd = some state ∧ state.connectionToken = r.connectionToken ∧
      w.deliver env r = ({ w with
        connections := w.connections.insert r.fd { state with connection := c }
          }).updateEpollInterest env r.fd) ∨
    (w.delivery env r = none ∧ w.deliver env r = w.closeConnection env r.fd ∧
      ∃ state, w.connections.lookup r.fd = some state ∧
        state.connectionToken = r.connectionToken) ∨
    (w.delivery env r = none ∧ w.deliver env r = .ok w ∧
      ∀ state, w.connections.lookup r.fd = some state →
        state.connectionToken ≠ r.connectionToken) := by
  unfold delivery deliver
  cases hl : w.connections.lookup r.fd with
  | none => exact Or.inr (Or.inr ⟨rfl, rfl, by simp⟩)
  | some state =>
    dsimp only
    by_cases ht : state.connectionToken = r.connectionToken
    · rw [if_neg (not_not.2 ht), if_neg (not_not.2 ht)]
      unfold CompletedResponse.response
      rcases enqueueResponse (connectionEnv env w r.fd state.connectionToken)
        state.connection.out ⟨r.requestId, r.protoErrorCode, r.errorMsg, r.payload⟩ with
        ⟨out, _ | e⟩
      · exact Or.inl ⟨state, _, rfl, rfl, ht, rfl⟩
      · exact Or.inr (Or.inl ⟨rfl, rfl, state, rfl, ht⟩)
    · refine Or.inr (Or.inr ⟨if_pos ht, if_pos ht, fun state' hs => ?_⟩)
      obtain rfl := Option.some.inj hs
      exact ht

theorem shrinks_deliver (env : LoopEnv) (w : WorkerLoop) (r : CompletedResponse) :
    (w.deliver env r).Keeps (Shrinks w) := by
  rcases deliver_cases env w r with ⟨state, c, -, hl, -, heq⟩ | ⟨-, heq, -⟩ | ⟨-, heq, -⟩
  · rw [heq]
    exact (shrinks_insert hl c).keeps (shrinks_updateEpollInterest env _ _)
  · rw [heq]
    exact shrinks_closeConnection env w _
  · rw [heq]
    exact .refl w

/-- An event is applied as `notification` says, or there is nobody to apply it to. -/
theorem handleEvent_cases (env : LoopEnv) (w : WorkerLoop) (e : ReadyEvent) :
    (∃ state c, w.notification env e = some (state, c) ∧ e.fd ≠ w.wakeFd ∧
      w.connections.lookup e.fd = some state ∧
      w.handleEvent env e =
        (let w' := { w with
          connections := w.connections.insert e.fd { state with connection := c } }
        if !c.coroutineOk then w'.closeConnection env e.fd
        else if c.shouldClose then w'.closeConnection env e.fd
        else w'.updateEpollInterest env e.fd)) ∨
    (w.notification env e = none ∧ w.handleEvent env e = .ok w) := by
  unfold notification handleEvent
  by_cases hwake : e.fd = w.wakeFd
  · exact Or.inr ⟨if_pos hwake, if_pos hwake⟩
  · rw [if_neg hwake, if_neg hwake]
    cases hl : w.connections.lookup e.fd with
    | none => exact Or.inr ⟨rfl, rfl⟩
    | some state => exact Or.inl ⟨state, _, rfl, hwake, rfl, rfl⟩

theorem shrinks_handleEvent (env : LoopEnv) (w : WorkerLoop) (e : ReadyEvent) :
    (w.handleEvent env e).Keeps (Shrinks w) := by
  rcases handleEvent_cases env w e with ⟨state, c, -, -, hl, heq⟩ | ⟨-, heq⟩
  · rw [heq]
    have hinsert := shrinks_insert hl c
    dsimp only
    split_ifs
    · exact hinsert.keeps (shrinks_closeConnection env _ _)
    · exact hinsert.keeps (shrinks_closeConnection env _ _)
    · exact hinsert.keeps (shrinks_updateEpollInterest env _ _)
  · rw [heq]
    exact .refl w

theorem shrinks_tickAll (now : Time) (w : WorkerLoop) : Shrinks w (w.tickAll now) := by
  refine ⟨rfl, rfl, rfl, rfl, fun fd state' hl => ?_⟩
  rw [tickAll, Table.lookup_mapVals] at hl
  obtain ⟨state, hstate, rfl⟩ := Option.map_eq_some_iff.1 hl
  exact ⟨state, hstate, rfl⟩

/-- Emptying the wake-up descriptor changes nothing but what it answers next. -/
theorem drainWakeFd_keeps (w : WorkerLoop) :
    w.drainWakeFd.Keeps fun w' => ∃ rest, w' = { w with wakeReads := rest } := by
  have hscript : ∀ {w : WorkerLoop} {rest : List WakeRead} {r : Ended},
      (r.Keeps fun w' => ∃ rest', w' = { ({ w with wakeReads := rest } : WorkerLoop) with
        wakeReads := rest' }) → r.Keeps fun w' => ∃ rest, w' = { w with wakeReads := rest } := by
    intro w rest r hr
    cases r with
    | ok v => exact hr
    | failed v e => exact hr
    | blocked => trivial
  fun_induction drainWakeFd w with
  | case1 w rest hr ih => exact hscript ih
  | case2 w rest hr ih => exact hscript ih
  | case3 w rest hr => exact ⟨rest, rfl⟩
  | case4 w what rest hr => exact ⟨rest, rfl⟩
  | case5 w hr => exact ⟨w.wakeReads, rfl⟩

/-- A connection that is taken over gets the next token, its descriptor is not
in the table before and nothing else changes there; a failed call changes
nothing there, but a token may be gone. -/
theorem addConnectionOnOwnerThread_cases (env : LoopEnv) (w : WorkerLoop) (p : PendingConnection) :
    (∃ w' c, w.addConnectionOnOwnerThread env p = .ok w' ∧ w.initialized = true ∧
      w.control.1 = none ∧ w.connections.lookup p.fd = none ∧
      w' = { w with
        epollCtl := w.epollCtl.tail
        nextConnectionToken := (w.nextConnectionToken + 1) % 2 ^ 64
        connections := w.connections.insert p.fd ⟨c, w.nextConnectionToken, false⟩ }) ∨
    ∃ w' e, w.addConnectionOnOwnerThread env p = .failed w' e ∧ w'.wakeFd = w.wakeFd ∧
      w'.connections = w.connections ∧
      w'.nextConnectionToken = if w.initialized && w.control.1.isNone then
        (w.nextConnectionToken + 1) % 2 ^ 64 else w.nextConnectionToken := by
  unfold addConnectionOnOwnerThread control
  by_cases hinit : w.initialized = true
  · rw [if_neg (by simp [hinit])]
    cases hctl : w.epollCtl.headD none with
    | some what => exact Or.inr ⟨_, _, rfl, rfl, rfl, by simp [hinit]⟩
    | none =>
      dsimp only
      by_cases hdup : (w.connections.lookup p.fd).isSome = true
      · rw [if_pos hdup]
        exact Or.inr ⟨_, _, rfl, rfl, rfl, by simp [hinit]⟩
      · rw [if_neg hdup]
        exact Or.inl ⟨_, _, rfl, hinit, rfl, by simpa using hdup, rfl⟩
  · have hfalse : w.initialized = false := by simpa using hinit
    rw [if_pos (by simp [hfalse])]
    exact Or.inr ⟨_, _, rfl, rfl, rfl, by simp [hfalse]⟩

end WorkerLoop

namespace OwnedLoop

/-- What `DrainCompletedResponses` finds in the queue for a task. -/
def completion (env : LoopEnv) (s : OwnedLoop) (id : ℕ) : CompletedResponse :=
  match s.tasks[id]? with
  | some task => runTask env.registry task.fd task.token task.request
  | none => ⟨0, 0, "", 0, "", []⟩

/-- A round of the loop of `DrainPendingConnections`.  The coroutine of a new
connection suspends before it reads, so nothing is submitted. -/
def adoptStep (env : LoopEnv) (s : OwnedLoop) (events : List Collected) (p : PendingConnection)
    (ps : List PendingConnection) : Option OwnedLoop :=
  let issued := if s.loop.initialized && s.loop.control.1.isNone then
    s.issued ++ [(p.fd, s.loop.nextConnectionToken)] else s.issued
  match s.loop.addConnectionOnOwnerThread env p with
  | .ok loop =>
    some { s with
      loop, issued
      phase := .adopting events ps
      owner := fun fd => if fd = p.fd then s.issued.length else s.owner fd }
  | .failed loop _ => some { s with loop, issued, phase := .idle }
  | .blocked => none

/-- A round of the loop of `DrainCompletedResponses`. -/
def deliverStep (env : LoopEnv) (s : OwnedLoop) (events : List Collected) (id : ℕ)
    (ids : List ℕ) : Option OwnedLoop :=
  let r := s.completion env id
  match s.loop.deliver env r with
  | .ok loop =>
    match s.loop.delivery env r with
    | some (state, c) =>
      some { s with
        loop
        phase := .delivering events ids
        tasks := s.tasks ++ WorkerLoop.submitted env (s.owner r.fd) r.fd state.connectionToken
          state.connection.out.handed c.out.handed
        log := s.log ++ [(id, s.owner r.fd)] }
    | none => some { s with loop, phase := .delivering events ids }
  | .failed loop _ => some { s with loop, phase := .idle }
  | .blocked => none

/-- A round of the loop of step 3 of `PollOnce`. -/
def handleStep (env : LoopEnv) (s : OwnedLoop) (e : Collected) (events : List Collected) :
    Option OwnedLoop :=
  match s.loop.handleEvent env e.event with
  | .ok loop =>
    match s.loop.notification env e.event with
    | some (state, c) =>
      some { s with
        loop
        phase := .handling events
        tasks := s.tasks ++ WorkerLoop.submitted env (s.owner e.event.fd) e.event.fd
          state.connectionToken state.connection.out.handed c.out.handed
        applied := s.applied ++ [(e.uid, s.owner e.event.fd)] }
    | none => some { s with loop, phase := .handling events }
  | .failed loop _ => some { s with loop, phase := .idle }
  | .blocked => none

/-- The events as they are collected. -/
def collected (s : OwnedLoop) (events : List ReadyEvent) : List Collected :=
  events.map fun e =>
    ⟨e, if (s.loop.connections.lookup e.fd).isSome then some (s.owner e.fd) else none⟩

/-- What the acceptor, the pool and the owner thread do next. -/
inductive Action where
  /-- `EnqueueConnection` by the acceptor. -/
  | enqueue (p : PendingConnection)
  /-- A task of the pool runs and hands its response over. -/
  | complete (id : ℕ)
  /-- `epoll_wait` returns. -/
  | collect (events : List ReadyEvent)
  /-- The owner thread goes on. -/
  | work (now : Time)

/-- One action. -/
def act (env : LoopEnv) (s : OwnedLoop) : Action → Option OwnedLoop
  | .enqueue p =>
    some { s with
      loop := { s.loop with pendingConnections := s.loop.pendingConnections ++ [p] } }
  | .complete id =>
    if id < s.tasks.length ∧ id ∉ s.ran then
      some { s with
        loop := { s.loop with completed := s.loop.completed.map (· ++ [s.completion env id]) }
        ran := s.ran ++ [id]
        queue := s.queue ++ [id] }
    else none
  | .collect events =>
    match s.phase with
    | .idle =>
      if ∀ e ∈ events, e.fd = s.loop.wakeFd ∨ (s.loop.connections.lookup e.fd).isSome then
        if events.any fun e => e.fd = s.loop.wakeFd then
          match s.loop.drainWakeFd with
          | .ok loop =>
            some { s with
              loop := { loop with pendingConnections := [] }
              phase := .adopting (s.collected events) loop.pendingConnections }
          | .failed loop _ => some { s with loop }
          | .blocked => none
        else some { s with phase := .ticking (s.collected events) }
      else none
    | _ => none
  | .work now =>
    match s.phase with
    | .idle => none
    | .adopting events [] =>
      some { s with
        loop := { s.loop with completed := s.loop.completed.map fun _ => [] }
        phase := .delivering events s.queue
        queue := [] }
    | .adopting events (p :: ps) => s.adoptStep env events p ps
    | .delivering events [] => some { s with phase := .ticking events }
    | .delivering events (id :: ids) => s.deliverStep env events id ids
    | .ticking events => some { s with loop := s.loop.tickAll now, phase := .handling events }
    | .handling [] => some { s with phase := .idle }
    | .handling (e :: events) => s.handleStep env e events

/-! ### A poll is a run -/

variable {env : LoopEnv} {s t : OwnedLoop}

/-- `epoll_wait` returns with the wake-up descriptor among its events. -/
theorem act_collect (hidle : s.phase = .idle) {events : List ReadyEvent}
    (hkernel : ∀ e ∈ events, e.fd = s.loop.wakeFd ∨ (s.loop.connections.lookup e.fd).isSome)
    (hwake : (events.any fun e => e.fd = s.loop.wakeFd) = true) {w : WorkerLoop}
    (hdrain : s.loop.drainWakeFd = .ok w) :
    s.act env (.collect events) = some { s with
      loop := { w with pendingConnections := [] }
      phase := .adopting (s.collected events) w.pendingConnections } := by
  simp only [OwnedLoop.act]
  rw [hidle]
  dsimp only
  rw [if_pos hkernel, if_pos hwake, hdrain]

theorem exec_work_cons {actions : List Action} {now : Time} {u : OwnedLoop}
    (h : s.act env (.work now) = some u) (hrest : exec (act env) u actions = some t) :
    exec (act env) s (.work now :: actions) = some t := by
  rw [exec_cons, h]
  exact hrest

/-- The rounds of `DrainPendingConnections`. -/
theorem exec_adopt (now : Time) {events : List Collected} {ps : List PendingConnection}
    {w : WorkerLoop} (hphase : s.phase = .adopting events ps)
    (hadopt : s.loop.adopt env ps = .ok w) :
    ∃ actions t, exec (act env) s actions = some t ∧ t.phase = .adopting events [] ∧
      t.loop = w ∧ t.queue = s.queue ∧ t.tasks = s.tasks ∧ w.completed = s.loop.completed := by
  induction ps generalizing s with
  | nil =>
    obtain rfl := Ended.ok.inj hadopt
    exact ⟨[], s, rfl, hphase, rfl, rfl, rfl, rfl⟩
  | cons p ps ih =>
    obtain ⟨v, hv, hrest⟩ := Ended.andThen_eq_ok.1 hadopt
    obtain ⟨u, hu, huphase, huloop, huqueue, hutasks⟩ :
        ∃ u, s.adoptStep env events p ps = some u ∧ u.phase = .adopting events ps ∧ u.loop = v ∧
          u.queue = s.queue ∧ u.tasks = s.tasks := by
      unfold OwnedLoop.adoptStep
      rw [hv]
      exact ⟨_, rfl, rfl, rfl, rfl, rfl⟩
    have hstep : s.act env (.work now) = some u := by
      rw [OwnedLoop.act, hphase]
      exact hu
    have hcompleted : v.completed = s.loop.completed := by
      rcases WorkerLoop.addConnectionOnOwnerThread_cases env s.loop p with
        ⟨w', c, hadd, -, -, -, rfl⟩ | ⟨w', e, hadd, -⟩
      · obtain rfl := Ended.ok.inj (hv.symm.trans hadd)
        rfl
      · rw [hv] at hadd
        cases hadd
    rw [← huloop] at hrest hcompleted
    obtain ⟨actions, t, hex, hphase', hloop, hqueue, htasks, hcomp⟩ := ih huphase hrest
    exact ⟨_, t, exec_work_cons hstep hex, hphase', hloop, hqueue.trans huqueue,
      htasks.trans hutasks, hcomp.trans hcompleted⟩

/-- The rounds of `DrainCompletedResponses`, for tasks that are known. -/
theorem exec_deliver (now : Time) {events : List Collected} {ids : List ℕ} {w : WorkerLoop}
    (hphase : s.phase = .delivering events ids) (hids : ∀ id ∈ ids, id < s.tasks.length)
    (hdeliver : s.loop.deliverAll env (ids.map (s.completion env)) = .ok w) :
    ∃ actions t, exec (act env) s actions = some t ∧ t.phase = .delivering events [] ∧
      t.loop = w := by
  induction ids generalizing s with
  | nil =>
    obtain rfl := Ended.ok.inj hdeliver
    exact ⟨[], s, rfl, hphase, rfl⟩
  | cons id ids ih =>
    obtain ⟨v, hv, hrest⟩ := Ended.andThen_eq_ok.1 hdeliver
    obtain ⟨u, hu, hphase', hloop, more, htasks⟩ : ∃ u, s.deliverStep env events id ids = some u ∧
        u.phase = .delivering events ids ∧ u.loop = v ∧ ∃ more, u.tasks = s.tasks ++ more := by
      unfold OwnedLoop.deliverStep
      dsimp only
      rw [hv]
      dsimp only
      split
      · exact ⟨_, rfl, rfl, rfl, _, rfl⟩
      · exact ⟨_, rfl, rfl, rfl, [], (List.append_nil _).symm⟩
    have hstep : s.act env (.work now) = some u := by
      rw [OwnedLoop.act, hphase]
      exact hu
    have hids' : ∀ x ∈ ids, x < u.tasks.length := by
      intro x hx
      have := hids x (List.mem_cons_of_mem _ hx)
      rw [htasks, List.length_append]
      omega
    have hsame : ids.map (u.completion env) = ids.map (s.completion env) := by
      refine List.map_congr_left fun x hx => ?_
      rw [completion, completion, htasks,
        List.getElem?_append_left (hids x (List.mem_cons_of_mem _ hx))]
    rw [← hsame, ← hloop] at hrest
    obtain ⟨actions, t, hex, ht, hw⟩ := ih hphase' hids' hrest
    exact ⟨_, t, exec_work_cons hstep hex, ht, hw⟩

/-- The rounds of step 3. -/
theorem exec_handle (now : Time) {events : List Collected} {w : WorkerLoop}
    (hphase : s.phase = .handling events)
    (hhandle : s.loop.handleEvents env (events.map Collected.event) = .ok w) :
    ∃ actions t, exec (act env) s actions = some t ∧ t.phase = .idle ∧ t.loop = w := by
  induction events generalizing s with
  | nil =>
    obtain rfl := Ended.ok.inj hhandle
    have hstep : s.act env (.work now) = some { s with phase := .idle } := by
      rw [OwnedLoop.act, hphase]
    exact ⟨[.work now], _, exec_work_cons hstep rfl, rfl, rfl⟩
  | cons e events ih =>
    obtain ⟨v, hv, hrest⟩ := Ended.andThen_eq_ok.1 hhandle
    obtain ⟨u, hu, hphase', hloop⟩ : ∃ u, s.handleStep env e events = some u ∧
        u.phase = .handling events ∧ u.loop = v := by
      unfold OwnedLoop.handleStep
      rw [hv]
      dsimp only
      split
      · exact ⟨_, rfl, rfl, rfl⟩
      · exact ⟨_, rfl, rfl, rfl⟩
    have hstep : s.act env (.work now) = some u := by
      rw [OwnedLoop.act, hphase]
      exact hu
    rw [← hloop] at hrest
    obtain ⟨actions, t, hex, ht, hw⟩ := ih hphase' hrest
    exact ⟨_, t, exec_work_cons hstep hex, ht, hw⟩

/-- **A poll that succeeds is a run of the owner thread**, with nobody in
between: the rounds of its loops, in order. -/
theorem exec_pollOnce (hids : ∀ id ∈ s.queue, id < s.tasks.length) (hidle : s.phase = .idle)
    (hinit : s.loop.initialized = true)
    (hqueue : s.loop.completed = some (s.queue.map (s.completion env))) {events : List ReadyEvent}
    (hkernel : ∀ e ∈ events, e.fd = s.loop.wakeFd ∨ (s.loop.connections.lookup e.fd).isSome)
    {now : Time} {w : WorkerLoop}
    (hpoll : s.loop.pollOnce env true (.ready events) now = .ok w) :
    ∃ actions t, exec (act env) s actions = some t ∧ t.phase = .idle ∧ t.loop = w := by
  unfold WorkerLoop.pollOnce at hpoll
  rw [if_neg (by simp), if_neg (by simp [hinit])] at hpoll
  obtain ⟨v, hv, hevents⟩ := Ended.andThen_eq_ok.1 hpoll
  have hmap : (s.collected events).map Collected.event = events := by
    rw [collected, List.map_map]
    exact List.map_id events
  -- the drains leave `v`, before `Tick`
  obtain ⟨actions, u, hex, huphase, huloop⟩ : ∃ actions u, exec (act env) s actions = some u ∧
      u.phase = .ticking (s.collected events) ∧ u.loop = v := by
    unfold WorkerLoop.drains at hv
    split_ifs at hv with hwake
    · obtain ⟨v₂, hv₂, hcompleted⟩ := Ended.andThen_eq_ok.1 hv
      obtain ⟨v₁, hv₁, hpending⟩ := Ended.andThen_eq_ok.1 hv₂
      have hcollect : s.act env (.collect events) = some { s with
          loop := { v₁ with pendingConnections := [] }
          phase := .adopting (s.collected events) v₁.pendingConnections } :=
        act_collect hidle hkernel hwake hv₁
      have hdrain := s.loop.drainWakeFd_keeps
      rw [hv₁] at hdrain
      obtain ⟨rest, hrest⟩ := hdrain
      obtain ⟨as₁, t₁, hex₁, hphase₁, hloop₁, hqueue₁, htasks₁, hcomp₁⟩ := exec_adopt now
        (s := { s with
          loop := { v₁ with pendingConnections := [] }
          phase := .adopting (s.collected events) v₁.pendingConnections }) rfl hpending
      have hcomp : v₂.completed = some (s.queue.map (s.completion env)) := by
        rw [hcomp₁, hrest]
        exact hqueue
      have hswap : t₁.act env (.work now) = some { t₁ with
          loop := { t₁.loop with completed := t₁.loop.completed.map fun _ => [] }
          phase := .delivering (s.collected events) t₁.queue
          queue := [] } := by
        rw [OwnedLoop.act, hphase₁]
      unfold WorkerLoop.drainCompletedResponses at hcompleted
      rw [hcomp] at hcompleted
      dsimp only at hcompleted
      obtain ⟨as₂, t₂, hex₂, hphase₂, hloop₂⟩ := exec_deliver now
        (s := { t₁ with
          loop := { t₁.loop with completed := t₁.loop.completed.map fun _ => [] }
          phase := .delivering (s.collected events) s.queue
          queue := [] }) rfl (by rw [htasks₁]; exact hids) (by
            have : s.queue.map (completion env { t₁ with
                loop := { t₁.loop with completed := t₁.loop.completed.map fun _ => [] }
                phase := .delivering (s.collected events) s.queue
                queue := [] }) = s.queue.map (s.completion env) :=
              List.map_congr_left fun id _ => by rw [completion, completion, htasks₁]
            rw [this, hloop₁, hcomp]
            exact hcompleted)
      rw [hqueue₁] at hswap
      have htick : t₂.act env (.work now) =
          some { t₂ with phase := .ticking (s.collected events) } := by
        rw [OwnedLoop.act, hphase₂]
      refine ⟨.collect events :: (as₁ ++ .work now :: (as₂ ++ [.work now])),
        { t₂ with phase := .ticking (s.collected events) }, ?_, rfl, hloop₂⟩
      rw [exec_cons, hcollect, Option.bind_some, exec_append, hex₁, Option.bind_some,
        exec_cons, hswap, Option.bind_some, exec_append, hex₂, Option.bind_some, exec_cons, htick]
      rfl
    · obtain rfl := Ended.ok.inj hv
      refine ⟨[.collect events], { s with phase := .ticking (s.collected events) }, ?_, rfl, rfl⟩
      simp only [exec_cons, OwnedLoop.act]
      rw [hidle]
      dsimp only
      rw [if_pos hkernel, if_neg hwake]
      rfl
  have htick : u.act env (.work now) = some { u with
      loop := u.loop.tickAll now, phase := .handling (s.collected events) } := by
    rw [OwnedLoop.act, huphase]
  rw [← huloop, ← hmap] at hevents
  obtain ⟨actions', t, hex', hphase', hloop'⟩ := exec_handle now
    (s := { u with loop := u.loop.tickAll now, phase := .handling (s.collected events) })
    rfl hevents
  refine ⟨actions ++ .work now :: actions', t, ?_, hphase', hloop'⟩
  rw [exec_append, hex, Option.bind_some]
  exact exec_work_cons htick hex'

end OwnedLoop
end Server
end MiniRpc
