/-
# The event loop of a worker

`src/server/worker_loop.cpp`: `PollOnce` and what it calls on the owner thread.
One poll takes over new connections and finished responses if the wake-up
descriptor is ready, checks the deadlines of all connections, and then handles
the ready events one by one.  A connection is closed where its own event is
handled, or where its response cannot be queued or its registration changed;
nowhere else.

The answers of the kernel come from scripts: `epoll_ctl` (`ADD` and `MOD`; the
result of `DEL` is ignored) and the reads of the wake-up descriptor; what
`epoll_wait` returned and the clock are arguments.  `Get` on the task of a
connection waits for its coroutine to return, so a poll may also never return.
Not modelled are the log, the request counters and the statistics, which no
decision of the loop depends on, and `CloseConnection`'s reason, which is only
logged; `CloseConnection` returns true wherever it returns, so its callers'
error branches are not there.
-/

import MiniRpc.Library.Table
import MiniRpc.Server.HandleConnection

namespace MiniRpc
namespace Server

/-- What all the connections of a worker are built with; `submit` is
`ThreadPool::Submit` for the task of a request, `none` without a pool. -/
structure LoopEnv where
  request : Message RpcRequest
  response : Message RpcResponse
  registry : ServiceRegistry := {}
  submit : Option (ℤ → ℕ → DispatchRequest → Bool) := none

/-- `WorkerLoop::PendingConnection`, with the answers its socket and the clock
will give. -/
structure PendingConnection where
  fd : ℤ
  readClock : List Time := []
  writeClock : List Time := []
  inbox : Inbox := []
  outbox : Outbox := []

/-- `WorkerLoop::ConnectionState`, with whether `EPOLLOUT` is registered. -/
structure ConnectionState where
  connection : Connection
  connectionToken : ℕ
  writeInterest : Bool := false

/-- `WorkerLoop::CompletedResponse`, without the members for statistics. -/
structure CompletedResponse where
  fd : ℤ
  connectionToken : ℕ
  requestId : String
  protoErrorCode : ℤ
  errorMsg : String
  payload : Bytes

/-- What one read of the wake-up descriptor answers. -/
inductive WakeRead where
  | value
  | again
  | interrupted
  | error (what : String)

/-- `WorkerLoop`, as the owner thread sees it. -/
structure WorkerLoop where
  initialized : Bool := true
  wakeFd : ℤ
  connections : Table ℤ ConnectionState := ∅
  pendingConnections : List PendingConnection := []
  /-- The responses in `completed_queue_`, or that there is no queue. -/
  completed : Option (List CompletedResponse) := some []
  nextConnectionToken : ℕ := 1
  epollCtl : List (Option String) := []
  wakeReads : List WakeRead := []

/-- One `epoll_event`: `EPOLLIN`, `EPOLLOUT`, or one of `EPOLLERR`, `EPOLLHUP`
and `EPOLLRDHUP`. -/
structure ReadyEvent where
  fd : ℤ
  readable : Bool := false
  writable : Bool := false
  hangup : Bool := false

/-- What `epoll_wait` returned. -/
inductive Wait where
  | ready (events : List ReadyEvent)
  | interrupted
  | error (what : String)

/-- How a function of the loop ends. -/
inductive Ended where
  | ok (w : WorkerLoop)
  | failed (w : WorkerLoop) (error : String)
  /-- It waits for a coroutine that will not return. -/
  | blocked

/-- Go on after a success. -/
def Ended.andThen (r : Ended) (f : WorkerLoop → Ended) : Ended :=
  match r with
  | .ok w => f w
  | .failed w e => .failed w e
  | .blocked => .blocked

theorem Ended.andThen_eq_ok {r : Ended} {f : WorkerLoop → Ended} {w : WorkerLoop} :
    r.andThen f = .ok w ↔ ∃ v, r = .ok v ∧ f v = .ok w := by
  cases r <;> simp [Ended.andThen]

namespace WorkerLoop

/-- The answer of the next `epoll_ctl`. -/
def control (w : WorkerLoop) : Option String × WorkerLoop :=
  (w.epollCtl.headD none, { w with epollCtl := w.epollCtl.tail })

/-- `DispatchRequestToThreadPool`. -/
def dispatchRequestToThreadPool (submit : ℤ → ℕ → DispatchRequest → Bool) (w : WorkerLoop) (fd : ℤ)
    (token : ℕ) (request : DispatchRequest) : Except String Unit :=
  if w.completed.isNone then .error "worker completion queue not initialized"
  else if submit fd token request then .ok ()
  else .error "thread pool rejected task submission"

/-- What one connection is built with. -/
def connectionEnv (env : LoopEnv) (w : WorkerLoop) (fd : ℤ) (token : ℕ) : Env where
  request := env.request
  response := env.response
  registry := env.registry
  dispatcher := env.submit.map fun submit => w.dispatchRequestToThreadPool submit fd token

/-- `AddConnectionOnOwnerThread`. -/
def addConnectionOnOwnerThread (env : LoopEnv) (w : WorkerLoop) (p : PendingConnection) : Ended :=
  if !w.initialized then .failed w "worker loop not initialized"
  else
    match w.control with
    | (some what, w) => .failed w ("epoll_ctl add client fd failed: " ++ what)
    | (none, w) =>
      let token := w.nextConnectionToken
      let w := { w with nextConnectionToken := (token + 1) % 2 ^ 64 }
      if (w.connections.lookup p.fd).isSome then
        .failed w "duplicate client fd in worker connection map"
      else
        let c : Connection :=
          { Connection.new p.readClock p.writeClock p.outbox with inbox := p.inbox }
        .ok { w with
          connections := w.connections.insert p.fd
            { connection := c.startConnectionCoroutine (connectionEnv env w p.fd token)
              connectionToken := token } }

/-- `CloseConnection`. -/
def closeConnection (env : LoopEnv) (w : WorkerLoop) (fd : ℤ) : Ended :=
  match w.connections.lookup fd with
  | none => .ok w
  | some state =>
    let cenv := connectionEnv env w fd state.connectionToken
    let c := (state.connection.markClosing.notifyReadable cenv).notifyWritable cenv
    if c.coroutine = .returned then .ok { w with connections := w.connections.erase fd }
    else .blocked

/-- `UpdateEpollInterest`. -/
def updateEpollInterest (env : LoopEnv) (w : WorkerLoop) (fd : ℤ) : Ended :=
  match w.control with
  | (some _, w) => w.closeConnection env fd
  | (none, w) =>
    .ok { w with
      connections := w.connections.update fd fun state =>
        { state with writeInterest := state.connection.out.hasPendingWrite } }

/-- `DrainWakeFd`. -/
def drainWakeFd (w : WorkerLoop) : Ended :=
  match _h : w.wakeReads with
  | .value :: rest => drainWakeFd { w with wakeReads := rest }
  | .interrupted :: rest => drainWakeFd { w with wakeReads := rest }
  | .again :: rest => .ok { w with wakeReads := rest }
  | .error what :: rest => .failed { w with wakeReads := rest } ("read wake fd failed: " ++ what)
  | [] => .ok w
termination_by w.wakeReads.length
decreasing_by all_goals simp [_h]

theorem drainWakeFd_of_nil {w : WorkerLoop} (h : w.wakeReads = []) : w.drainWakeFd = .ok w := by
  rw [drainWakeFd]
  split <;> simp_all

/-- Take the connections over in turn. -/
def adopt (env : LoopEnv) : WorkerLoop → List PendingConnection → Ended
  | w, [] => .ok w
  | w, p :: ps => (w.addConnectionOnOwnerThread env p).andThen fun w => adopt env w ps

/-- `DrainPendingConnections`. -/
def drainPendingConnections (env : LoopEnv) (w : WorkerLoop) : Ended :=
  adopt env { w with pendingConnections := [] } w.pendingConnections

/-- One round of the loop of `DrainCompletedResponses`. -/
def deliver (env : LoopEnv) (w : WorkerLoop) (r : CompletedResponse) : Ended :=
  match w.connections.lookup r.fd with
  | none => .ok w
  | some state =>
    if state.connectionToken ≠ r.connectionToken then .ok w
    else
      let cenv := connectionEnv env w r.fd state.connectionToken
      match enqueueResponse cenv state.connection.out
          ⟨r.requestId, r.protoErrorCode, r.errorMsg, r.payload⟩ with
      | (_, some _) => w.closeConnection env r.fd
      | (out, none) =>
        let c := ({ state.connection with out }).notifyReadable cenv
        ({ w with connections := w.connections.insert r.fd { state with connection := c } }
          ).updateEpollInterest env r.fd

/-- Deliver the responses in turn. -/
def deliverAll (env : LoopEnv) : WorkerLoop → List CompletedResponse → Ended
  | w, [] => .ok w
  | w, r :: rs => (w.deliver env r).andThen fun w => deliverAll env w rs

/-- `DrainCompletedResponses`. -/
def drainCompletedResponses (env : LoopEnv) (w : WorkerLoop) : Ended :=
  match w.completed with
  | none => .ok w
  | some rs => deliverAll env { w with completed := some [] } rs

/-- Step 2 of `PollOnce`: `Tick` for every connection. -/
def tickAll (now : Time) (w : WorkerLoop) : WorkerLoop :=
  { w with
    connections := w.connections.mapVals fun state =>
      { state with connection := state.connection.tick now } }

/-- One round of the loop of step 3 of `PollOnce`. -/
def handleEvent (env : LoopEnv) (w : WorkerLoop) (e : ReadyEvent) : Ended :=
  if e.fd = w.wakeFd then .ok w
  else
    match w.connections.lookup e.fd with
    | none => .ok w
    | some state =>
      let cenv := connectionEnv env w e.fd state.connectionToken
      let c := state.connection
      let c := if e.readable then c.notifyReadable cenv else c
      let c := if e.writable then c.notifyWritable cenv else c
      let c := if e.hangup then (c.markClosing.notifyReadable cenv).notifyWritable cenv else c
      let w := { w with connections := w.connections.insert e.fd { state with connection := c } }
      if !c.coroutineOk then w.closeConnection env e.fd
      else if c.shouldClose then w.closeConnection env e.fd
      else w.updateEpollInterest env e.fd

/-- Handle the events in turn. -/
def handleEvents (env : LoopEnv) : WorkerLoop → List ReadyEvent → Ended
  | w, [] => .ok w
  | w, e :: es => (w.handleEvent env e).andThen fun w => handleEvents env w es

/-- The three drains of `PollOnce`, if the wake-up descriptor is ready. -/
def drains (env : LoopEnv) (w : WorkerLoop) (events : List ReadyEvent) : Ended :=
  if events.any fun e => e.fd = w.wakeFd then
    (w.drainWakeFd.andThen fun w => w.drainPendingConnections env).andThen fun w =>
      w.drainCompletedResponses env
  else .ok w

/-- `PollOnce`, called on the owner thread or not. -/
def pollOnce (env : LoopEnv) (w : WorkerLoop) (onOwnerThread : Bool) (wait : Wait) (now : Time) :
    Ended :=
  if !onOwnerThread then .failed w "worker loop accessed from non-owner thread"
  else if !w.initialized then .failed w "worker loop not initialized"
  else
    match wait with
    | .interrupted => .ok w
    | .error what => .failed w ("worker epoll_wait failed: " ++ what)
    | .ready events =>
      (w.drains env events).andThen fun w => (w.tickAll now).handleEvents env events

/-! ### What one event changes -/

/-- `w'` is `w` up to the connection `fd`. -/
structure OnlyAt (fd : ℤ) (w w' : WorkerLoop) : Prop where
  wakeFd : w'.wakeFd = w.wakeFd
  others : ∀ fd', fd' ≠ fd → w'.connections.lookup fd' = w.connections.lookup fd'

theorem OnlyAt.refl (fd : ℤ) (w : WorkerLoop) : OnlyAt fd w w := ⟨rfl, fun _ _ => rfl⟩

theorem OnlyAt.trans {fd : ℤ} {w w' w'' : WorkerLoop} (h : OnlyAt fd w w')
    (h' : OnlyAt fd w' w'') : OnlyAt fd w w'' :=
  ⟨h'.wakeFd.trans h.wakeFd, fun fd' hfd => (h'.others fd' hfd).trans (h.others fd' hfd)⟩

theorem onlyAt_insert (w : WorkerLoop) (fd : ℤ) (state : ConnectionState) :
    OnlyAt fd w { w with connections := w.connections.insert fd state } :=
  ⟨rfl, fun _ hfd => AList.lookup_insert_ne hfd⟩

/-- `CloseConnection` takes the connection out of the table. -/
theorem closeConnection_ok {env : LoopEnv} {w w' : WorkerLoop} {fd : ℤ}
    (h : w.closeConnection env fd = .ok w') :
    OnlyAt fd w w' ∧ w'.connections.lookup fd = none := by
  unfold closeConnection at h
  split at h
  · rename_i hnone
    obtain rfl := Ended.ok.inj h
    exact ⟨.refl _ _, hnone⟩
  · dsimp only at h
    split_ifs at h
    obtain rfl := Ended.ok.inj h
    exact ⟨⟨rfl, fun _ hfd => AList.lookup_erase_ne hfd⟩, AList.lookup_erase _ _⟩

/-- `UpdateEpollInterest` leaves the connection as it is, or closes it. -/
theorem updateEpollInterest_ok {env : LoopEnv} {w w' : WorkerLoop} {fd : ℤ}
    (h : w.updateEpollInterest env fd = .ok w') :
    OnlyAt fd w w' ∧ ∀ state', w'.connections.lookup fd = some state' →
      ∃ state, w.connections.lookup fd = some state ∧ state'.connection = state.connection := by
  unfold updateEpollInterest control at h
  split at h
  · rename_i v heq
    obtain ⟨-, rfl⟩ := Prod.mk.inj heq
    obtain ⟨honly, hnone⟩ := closeConnection_ok h
    exact ⟨⟨honly.wakeFd, honly.others⟩, by simp [hnone]⟩
  · rename_i v heq
    obtain ⟨-, rfl⟩ := Prod.mk.inj heq
    obtain rfl := Ended.ok.inj h
    refine ⟨⟨rfl, fun fd' hfd => Table.lookup_update_ne _ _ hfd⟩, fun state' hstate' => ?_⟩
    simp only [Table.lookup_update_self] at hstate'
    obtain ⟨state, hstate, rfl⟩ := Option.map_eq_some_iff.1 hstate'
    exact ⟨state, hstate, rfl⟩

/-- **One event.**  Only its own connection changes, and that connection is not
closing afterwards, if it is still there. -/
theorem handleEvent_ok {env : LoopEnv} {w w' : WorkerLoop} {e : ReadyEvent}
    (h : w.handleEvent env e = .ok w') :
    OnlyAt e.fd w w' ∧ (e.fd = w.wakeFd → w' = w) ∧ (e.fd ≠ w.wakeFd →
      ∀ state, w'.connections.lookup e.fd = some state → state.connection.shouldClose = false) := by
  unfold handleEvent at h
  by_cases hwake : e.fd = w.wakeFd
  · rw [if_pos hwake] at h
    obtain rfl := Ended.ok.inj h
    exact ⟨.refl _ _, fun _ => rfl, fun hne => absurd hwake hne⟩
  rw [if_neg hwake] at h
  suffices OnlyAt e.fd w w' ∧ ∀ state, w'.connections.lookup e.fd = some state →
      state.connection.shouldClose = false from
    ⟨this.1, fun heq => absurd heq hwake, fun _ => this.2⟩
  split at h
  · rename_i hnone
    obtain rfl := Ended.ok.inj h
    exact ⟨.refl _ _, by simp [hnone]⟩
  rename_i state hstate
  dsimp only at h
  -- what the notifications make of the connection does not matter here
  generalize (if e.hangup then _ else _ : Connection) = c at h
  have hinsert := onlyAt_insert w e.fd { state with connection := c }
  split_ifs at h with hok hclose
  · obtain ⟨honly, hnone⟩ := closeConnection_ok h
    exact ⟨hinsert.trans honly, by simp [hnone]⟩
  · obtain ⟨honly, hnone⟩ := closeConnection_ok h
    exact ⟨hinsert.trans honly, by simp [hnone]⟩
  · obtain ⟨honly, hsame⟩ := updateEpollInterest_ok h
    refine ⟨hinsert.trans honly, fun state' hstate' => ?_⟩
    obtain ⟨state'', hstate'', hc⟩ := hsame state' hstate'
    rw [AList.lookup_insert] at hstate''
    obtain rfl := Option.some.inj hstate''
    rw [hc]
    simpa using hclose

/-- A connection with an event of its own in the batch. -/
def Handled (w : WorkerLoop) (events : List ReadyEvent) (fd : ℤ) : Prop :=
  fd ≠ w.wakeFd ∧ ∃ e ∈ events, e.fd = fd

/-- **A batch of events.**  The connections without an event stay as they are,
and no connection with an event is closing afterwards. -/
theorem handleEvents_ok {env : LoopEnv} {events : List ReadyEvent} {w w' : WorkerLoop}
    (h : w.handleEvents env events = .ok w') :
    (∀ fd, ¬ w.Handled events fd → w'.connections.lookup fd = w.connections.lookup fd) ∧
      ∀ fd, w.Handled events fd → ∀ state, w'.connections.lookup fd = some state →
        state.connection.shouldClose = false := by
  induction events generalizing w with
  | nil =>
    obtain rfl := Ended.ok.inj h
    exact ⟨fun _ _ => rfl, by rintro fd ⟨-, e, he, -⟩; cases he⟩
  | cons e es ih =>
    obtain ⟨v, hv, hrest⟩ := Ended.andThen_eq_ok.1 h
    obtain ⟨honly, hwake, hclean⟩ := handleEvent_ok hv
    obtain ⟨hsame, hdone⟩ := ih hrest
    have hHandled : ∀ fd, v.Handled es fd ↔ fd ≠ w.wakeFd ∧ ∃ e ∈ es, e.fd = fd := by
      intro fd
      rw [Handled, honly.wakeFd]
    refine ⟨fun fd hfd => ?_, fun fd ⟨hne, e', he', hefd⟩ => ?_⟩
    · have hes : ¬ v.Handled es fd := by
        rw [hHandled]
        rintro ⟨hne, e', he', hefd⟩
        exact hfd ⟨hne, e', List.mem_cons_of_mem _ he', hefd⟩
      rw [hsame fd hes]
      by_cases hefd : fd = e.fd
      · -- the wake-up descriptor's own event
        have : fd = w.wakeFd := by
          by_contra hne
          exact hfd ⟨hne, e, List.mem_cons_self, hefd.symm⟩
        rw [hwake (hefd.symm.trans this)]
      · exact honly.others fd hefd
    · by_cases hes : v.Handled es fd
      · exact hdone fd hes
      · rw [hsame fd hes]
        rcases List.mem_cons.1 he' with rfl | he'
        · subst hefd
          exact hclean hne
        · exact absurd ((hHandled fd).2 ⟨hne, e', he', hefd⟩) hes

/-! ### A sample -/

/-- A connection that waits for a request until time 10. -/
def idle : WorkerLoop where
  wakeFd := 3
  connections := (∅ : Table ℤ ConnectionState).insert 7
    { connection :=
        { state := .kReading, readWaiter := true, readDeadline := some 10
          coroutine := .waitReadable }
      connectionToken := 1 }

/-- Messages are not looked at when there is nothing to read. -/
def idleEnv : LoopEnv where
  request := .only ⟨"", "", "", []⟩ []
  response := .only ⟨"", 0, "", []⟩ []

end WorkerLoop
end Server
end MiniRpc
