/-
# Where the coroutine of a connection is suspended

Between two turns of the event loop the coroutine `HandleConnectionCo`
(`src/server/worker_loop.cpp`) of an open connection waits in one of two places.
Four things have to agree on which: the coroutine itself, the waiter handles and
the deadlines of `Connection`, and the `EPOLLOUT` registration of the worker.
Responses come into the write buffer from the coroutine and, while it is
suspended, from `DrainCompletedResponses`, and the ready flags may be stale.

The first half is about one connection: what the coroutine needs when it goes on
from a place (`Ready`), and where it is when it suspends (`Waits`).  The second
half carries this to every run of a worker, by the rules of
`MiniRpc.Server.LoopInvariant`.
-/

import MiniRpc.Library.Transition
import MiniRpc.Server.LoopInvariant
import MiniRpc.Server.Responses

namespace MiniRpc
namespace Server

open Protocol Splitter Transition

/-- The write deadline is set only while something is to be written. -/
def Outbound.Armed (o : Outbound) : Prop := o.writeBuffer = [] → o.writeDeadline = none

theorem armed_enqueueResponse {env : Env} {o : Outbound} (h : o.Armed) (r : RpcResponse) :
    (enqueueResponse env o r).1.Armed := by
  by_cases hsize : ValidLength (env.response.byteSizeLong r)
  · by_cases hroom : Room env o r
    · rw [enqueueResponse_valid hsize hroom]
      intro hnil
      simp [Outbound.armWriteDeadline] at hnil
    · rw [enqueueResponse_noRoom hsize hroom]
      exact h
  · rw [enqueueResponse_invalid hsize]
    exact h

theorem armed_processFrame (env : Env) {o : Outbound} (h : o.Armed) (body : Bytes) :
    (processFrame env o body).1.Armed := by
  unfold processFrame
  cases env.request.parse body with
  | none => exact armed_enqueueResponse h _
  | some request =>
    by_cases hb : request.serviceName = kHeartbeatServiceName
    · simp only [if_pos hb]
      exact armed_enqueueResponse h _
    · simp only [if_neg hb]
      cases env.dispatcher with
      | none =>
        exact armed_enqueueResponse (o := { o with handed := o.handed ++ [request] }) h _
      | some dispatcher =>
        dsimp only
        split <;> exact h

theorem armed_drive {env : Env} {o : Outbound} (h : o.Armed) (xs : Bytes) :
    (frameSplitter.drive (processFrame env) o xs).state.Armed :=
  drive_invariant (P := Outbound.Armed) (fun _ body ho => armed_processFrame env ho body) h

namespace Connection

/-- The coroutine runs: nobody waits, no read deadline is set, and the write
deadline only while something is to be written. -/
structure Running (c : Connection) : Prop where
  readWaiter : c.readWaiter = false
  writeWaiter : c.writeWaiter = false
  readDeadline : c.readDeadline = none
  armed : c.out.Armed

/-- What the coroutine finds when it goes on from a place. -/
def Ready (place : Place) (c : Connection) : Prop :=
  match place with
  | .top => c.Running ∧ c.out.writeBuffer = []
  | .afterRead => c.clearReadDeadline.Running
  | .writeLoop => c.Running ∧ c.shouldClose = false
  | .afterWrite => c.clearWriteDeadline.Running

/-- Suspended in `WaitReadableCo`, with nothing to write. -/
structure AtRead (c : Connection) : Prop where
  coroutine : c.coroutine = .waitReadable
  readWaiter : c.readWaiter = true
  readDeadline : c.readDeadline ≠ none
  writeBuffer : c.out.writeBuffer = []
  writeWaiter : c.writeWaiter = false
  writeDeadline : c.out.writeDeadline = none

/-- Suspended in `WaitWritableCo`, with something to write. -/
structure AtWrite (c : Connection) : Prop where
  coroutine : c.coroutine = .waitWritable
  writeWaiter : c.writeWaiter = true
  writeDeadline : c.out.writeDeadline ≠ none
  writeBuffer : c.out.writeBuffer ≠ []
  readWaiter : c.readWaiter = false
  readDeadline : c.readDeadline = none

/-- Closing, or suspended in one of the two places. -/
def Waits (c : Connection) : Prop := c.shouldClose = true ∨ c.AtRead ∨ c.AtWrite

/-- `OnReadable` keeps what the coroutine relies on, or the connection closes. -/
theorem running_onReadable (env : Env) {c : Connection} (h : c.Running) :
    (c.onReadable env).1.shouldClose = true ∨
      (c.onReadable env).1.Running ∧ (c.onReadable env).2 = none := by
  obtain ⟨b, -, hread⟩ := c.readFromSocket_eq
  unfold onReadable
  rw [hread]
  cases readOutcome c.inbox.ending b.readable with
  | kWouldBlock => exact Or.inr ⟨⟨h.readWaiter, h.writeWaiter, h.readDeadline, h.armed⟩, rfl⟩
  | kPeerClosed => exact Or.inl rfl
  | kError e => exact Or.inl (enterError_fields _ _).1
  | kData =>
    obtain ⟨b', -, hparse⟩ := tryParseRequests_eq env
      { c with inbox := c.inbox.afterEnding, readBuffer := b }
    dsimp only
    rw [hparse]
    dsimp only
    generalize hstop : stopMessage (frameSplitter.drive (processFrame env) c.out b.readable).stop
      = stop
    cases stop with
    | some e => exact Or.inl (enterError_fields _ _).1
    | none =>
      exact Or.inr ⟨⟨h.readWaiter, h.writeWaiter, h.readDeadline, armed_drive h.armed _⟩, rfl⟩

/-- `OnWritable` keeps what the coroutine relies on, or the connection closes. -/
theorem running_onWritable (env : Env) {c : Connection} (h : c.Running) :
    (c.onWritable env).1.shouldClose = true ∨
      (c.onWritable env).1.Running ∧ (c.onWritable env).2 = none := by
  unfold onWritable
  cases flushWrites c.out with
  | mk out failure =>
    cases failure with
    | some e => exact Or.inl (enterError_fields _ _).1
    | none =>
      right
      dsimp only
      split_ifs with hpending
      · refine ⟨⟨h.readWaiter, h.writeWaiter, h.readDeadline, fun hnil => ?_⟩, rfl⟩
        simp only [Outbound.armWriteDeadline] at hnil
        simp [Outbound.hasPendingWrite, hnil] at hpending
      · exact ⟨⟨h.readWaiter, h.writeWaiter, h.readDeadline, fun _ => rfl⟩, rfl⟩

/-- **The coroutine suspends in one of the two places.**  Whatever the place it
goes on from, if it finds there what it needs, it runs until it waits to read
with nothing to write, or to write with something to write, or the connection is
closing. -/
theorem waits_proceed (env : Env) (place : Place) {c : Connection} (h : c.Ready place) :
    (c.proceed env place).Waits := by
  fun_induction proceed env place c with
  | case1 c hclose => exact Or.inl hclose
  | case2 c hopen hready ih => exact ih ⟨h.1.readWaiter, h.1.writeWaiter, rfl, h.1.armed⟩
  | case3 c hopen hready =>
    exact Or.inr (Or.inl ⟨rfl, rfl, by simp [suspendReadable, armReadDeadline], h.2,
      h.1.writeWaiter, h.1.armed h.2⟩)
  | case4 c c₁ hclose => exact Or.inl hclose
  | case5 c c₁ hopen c₂ e hread =>
    have hrun := running_onReadable env (c := c₁) ⟨h.readWaiter, h.writeWaiter, rfl, h.armed⟩
    rw [hread] at hrun
    exact Or.inl (hrun.resolve_right fun hn => by cases hn.2)
  | case6 c c₁ hopen c₂ hread hclose => exact Or.inl hclose
  | case7 c c₁ hopen c₂ hread hclose ih =>
    have hrun := running_onReadable env (c := c₁) ⟨h.readWaiter, h.writeWaiter, rfl, h.armed⟩
    rw [hread] at hrun
    exact ih ⟨(hrun.resolve_left hclose).1, by simpa using hclose⟩
  | case8 c hnone ih =>
    have hnil : c.out.writeBuffer = [] := by simpa [Outbound.hasPendingWrite] using hnone
    exact ih ⟨h.1, hnil⟩
  | case9 c hpending hready ih =>
    exact ih ⟨h.1.readWaiter, h.1.writeWaiter, h.1.readDeadline, fun _ => rfl⟩
  | case10 c hpending hready =>
    have hne : c.out.writeBuffer ≠ [] := by simpa [Outbound.hasPendingWrite] using hpending
    exact Or.inr (Or.inr ⟨rfl, rfl, by simp [suspendWritable, Outbound.armWriteDeadline], hne,
      h.1.readWaiter, h.1.readDeadline⟩)
  | case11 c c₁ hclose => exact Or.inl hclose
  | case12 c c₁ hopen c₂ e hwrite =>
    have hrun := running_onWritable env (c := c₁) ⟨h.readWaiter, h.writeWaiter,
      h.readDeadline, h.armed⟩
    rw [hwrite] at hrun
    exact Or.inl (hrun.resolve_right fun hn => by cases hn.2)
  | case13 c c₁ hopen c₂ hwrite hclose => exact Or.inl hclose
  | case14 c c₁ hopen c₂ hwrite hclose ih =>
    have hrun := running_onWritable env (c := c₁) ⟨h.readWaiter, h.writeWaiter,
      h.readDeadline, h.armed⟩
    rw [hwrite] at hrun
    exact ih ⟨(hrun.resolve_left hclose).1, by simpa using hclose⟩

/-- Closing, or suspended, where the write buffer of a connection that waits to
read may have been filled from outside. -/
def Parked (c : Connection) : Prop :=
  c.shouldClose = true ∨
    (c.coroutine = .waitReadable ∧ c.readWaiter = true ∧ c.writeWaiter = false ∧ c.out.Armed) ∨
    c.AtWrite

theorem Waits.parked {c : Connection} (h : c.Waits) : c.Parked := by
  rcases h with h | h | h
  · exact Or.inl h
  · exact Or.inr (Or.inl ⟨h.coroutine, h.readWaiter, h.writeWaiter, fun _ => h.writeDeadline⟩)
  · exact Or.inr (Or.inr h)

/-- A response queued from outside leaves the coroutine where it is. -/
theorem Waits.enqueueResponse {env : Env} {c : Connection} (h : c.Waits) {r : RpcResponse}
    {out : Outbound} (hq : enqueueResponse env c.out r = (out, none)) :
    Parked { c with out } := by
  obtain ⟨hsize, hroom⟩ := enqueueResponse_ok hq
  rw [enqueueResponse_valid hsize hroom] at hq
  obtain ⟨rfl, -⟩ := Prod.mk.inj hq
  have hne : c.out.writeBuffer ++ [responseChunk env r] ≠ [] := by simp
  rcases h with h | h | h
  · exact Or.inl h
  · exact Or.inr (Or.inl ⟨h.coroutine, h.readWaiter, h.writeWaiter, fun hnil => absurd hnil hne⟩)
  · refine Or.inr (Or.inr ⟨h.coroutine, h.writeWaiter, ?_, hne, h.readWaiter, h.readDeadline⟩)
    simp [Outbound.armWriteDeadline]

theorem shouldClose_resume (env : Env) {c : Connection} (h : c.shouldClose = true) :
    (c.resume env).shouldClose = true := by
  rw [resume_of_shouldClose env h, c.resumeClosing_fields.1]
  exact h

theorem shouldClose_notifyReadable (env : Env) {c : Connection} (h : c.shouldClose = true) :
    (c.notifyReadable env).shouldClose = true := by
  unfold notifyReadable
  dsimp only
  split_ifs
  · exact shouldClose_resume env h
  · exact h

theorem shouldClose_notifyWritable (env : Env) {c : Connection} (h : c.shouldClose = true) :
    (c.notifyWritable env).shouldClose = true := by
  unfold notifyWritable
  dsimp only
  split_ifs
  · exact shouldClose_resume env h
  · exact h

/-- **After `NotifyReadable` the coroutine waits in one of the two places.** -/
theorem waits_notifyReadable (env : Env) {c : Connection} (h : c.Parked) :
    (c.notifyReadable env).Waits := by
  rcases h with h | ⟨hco, hrw, hww, harmed⟩ | h
  · exact Or.inl (shouldClose_notifyReadable env h)
  · unfold notifyReadable resume
    simp only [hrw, if_true, hco]
    exact waits_proceed env .afterRead ⟨rfl, hww, rfl, harmed⟩
  · unfold notifyReadable
    simp only [h.readWaiter, Bool.false_eq_true, if_false]
    exact Or.inr (Or.inr ⟨h.coroutine, h.writeWaiter, h.writeDeadline, h.writeBuffer, rfl,
      h.readDeadline⟩)

/-- **After `NotifyWritable` too.** -/
theorem waits_notifyWritable (env : Env) {c : Connection} (h : c.Waits) :
    (c.notifyWritable env).Waits := by
  rcases h with h | h | h
  · exact Or.inl (shouldClose_notifyWritable env h)
  · unfold notifyWritable
    simp only [h.writeWaiter, Bool.false_eq_true, if_false]
    exact Or.inr (Or.inl ⟨h.coroutine, h.readWaiter, h.readDeadline, h.writeBuffer, rfl,
      h.writeDeadline⟩)
  · unfold notifyWritable resume
    simp only [h.writeWaiter, if_true, h.coroutine]
    exact waits_proceed env .afterWrite ⟨h.readWaiter, rfl, h.readDeadline, fun _ => rfl⟩

theorem shouldClose_markClosing (c : Connection) : c.markClosing.shouldClose = true := by
  unfold markClosing resumeWaitersClosing
  dsimp only
  split_ifs <;> simp [resumeClosing_fields, clearReadDeadline, clearWriteDeadline]

/-- A new connection waits for its first request. -/
theorem startConnectionCoroutine_new (env : Env) (rc wc : List Time) (ob : Outbox) (i : Inbox) :
    startConnectionCoroutine env { new rc wc ob with inbox := i } =
      suspendReadable env { new rc wc ob with inbox := i } := by
  unfold startConnectionCoroutine
  rw [proceed]
  rfl

theorem atRead_start (env : Env) (rc wc : List Time) (ob : Outbox) (i : Inbox) :
    AtRead (startConnectionCoroutine env { new rc wc ob with inbox := i }) := by
  rw [startConnectionCoroutine_new]
  exact ⟨rfl, rfl, by simp [suspendReadable, armReadDeadline], rfl, rfl, rfl⟩

end Connection

/-! ### The connections of a worker -/

/-- Suspended on the read wait, as the worker sees it. -/
def ConnectionState.AtRead (state : ConnectionState) : Prop :=
  state.connection.AtRead ∧ state.writeInterest = false

/-- Suspended on the write wait, as the worker sees it. -/
def ConnectionState.AtWrite (state : ConnectionState) : Prop :=
  state.connection.AtWrite ∧ state.writeInterest = true

theorem ConnectionState.AtRead.not_atWrite {state : ConnectionState} (h : state.AtRead) :
    ¬ state.AtWrite := by
  intro h'
  have := h.1.coroutine.symm.trans h'.1.coroutine
  cases this

/-- Closing, or suspended in one of the two places with the registration to match. -/
def ConnectionState.Settled (state : ConnectionState) : Prop :=
  state.connection.shouldClose = true ∨ state.AtRead ∨ state.AtWrite

theorem ConnectionState.Settled.waits {state : ConnectionState} (h : state.Settled) :
    state.connection.Waits := by
  rcases h with h | h | h
  · exact Or.inl h
  · exact Or.inr (Or.inl h.1)
  · exact Or.inr (Or.inr h.1)

/-- Updating the registration settles a connection that waits. -/
theorem Connection.Waits.settled {c : Connection} (h : c.Waits) (token : ℕ) :
    ConnectionState.Settled ⟨c, token, c.out.hasPendingWrite⟩ := by
  rcases h with h | h | h
  · exact Or.inl h
  · exact Or.inr (Or.inl ⟨h, by simp [Outbound.hasPendingWrite, h.writeBuffer]⟩)
  · exact Or.inr (Or.inr ⟨h, by simp [Outbound.hasPendingWrite, h.writeBuffer]⟩)

namespace WorkerLoop

/-- Every connection of the table is settled. -/
def Settled (w : WorkerLoop) : Prop :=
  ∀ fd state, w.connections.lookup fd = some state → state.Settled

/-- **The calls of the loop settle every connection.** -/
theorem settled_invariant :
    LoopInvariant ConnectionState.Settled fun state => state.connection.Waits where
  start := fun env rc wc inbox outbox _ =>
    Or.inr (Or.inl ⟨Connection.atRead_start env rc wc outbox inbox, rfl⟩)
  between := fun _ h => h.waits
  tick := by
    intro state now h
    unfold Connection.tick
    split_ifs
    · exact h
    · exact Or.inl (Connection.enterError_fields _ _).1
    · exact Or.inl (Connection.enterError_fields _ _).1
    · exact h
  respond := fun env _ _ _ h hq => Connection.waits_notifyReadable env (h.waits.enqueueResponse hq)
  notifyReadable := fun env _ h => Connection.waits_notifyReadable env h.parked
  notifyWritable := fun env _ h => Connection.waits_notifyWritable env h
  markClosing := fun state _ => Or.inl state.connection.shouldClose_markClosing
  settle := fun state h => h.settled state.connectionToken

/-- So every connection of a worker is settled that started without connections. -/
theorem settled_of_exec {w₀ w : WorkerLoop} (h₀ : w₀.connections = ∅) {events : List Event}
    (hrun : exec loopStep w₀ events = some w) : w.Settled := by
  refine exec_invariant ?_ (fun s e t hs ht => settled_invariant.loopStep hs ht) hrun
  intro fd state hlookup
  rw [h₀] at hlookup
  cases hlookup

/-- **The coroutine of an open connection waits in exactly one place.**  After
any run of a worker that starts without connections, and a poll that returns
true, every connection of the table that is not closing is suspended on the read
wait, with a read deadline, nothing to write, no write deadline and `EPOLLOUT`
not registered, or on the write wait, with a write deadline, something to write,
no read deadline and `EPOLLOUT` registered; never both. -/
theorem suspended_in_one_place {w₀ w w' : WorkerLoop} (h₀ : w₀.connections = ∅)
    {events : List Event} (hrun : exec loopStep w₀ events = some w) {env : LoopEnv}
    {onOwnerThread : Bool} {wait : Wait} {now : Time}
    (hpoll : w.pollOnce env onOwnerThread wait now = .ok w') {fd : ℤ} {state : ConnectionState}
    (hstate : w'.connections.lookup fd = some state)
    (hopen : state.connection.shouldClose = false) :
    (state.AtRead ∧ ¬ state.AtWrite ∨ state.AtWrite ∧ ¬ state.AtRead) ∧
      (state.connection.out.writeBuffer ≠ [] →
        state.writeInterest = true ∧ state.connection.out.writeDeadline ≠ none) := by
  have hw := settled_of_exec h₀ hrun
  have hw' := settled_invariant.keeps_pollOnce env hw onOwnerThread wait now
  rw [hpoll] at hw'
  rcases hw' fd state hstate with hclose | hread | hwrite
  · rw [hopen] at hclose
    cases hclose
  · exact ⟨Or.inl ⟨hread, hread.not_atWrite⟩, fun hne => absurd hread.1.writeBuffer hne⟩
  · exact ⟨Or.inr ⟨hwrite, fun hn => hn.not_atWrite hwrite⟩,
      fun _ => ⟨hwrite.2, hwrite.1.writeDeadline⟩⟩

theorem exec_poll {env : LoopEnv} {w w' : WorkerLoop} {onOwnerThread : Bool} {wait : Wait}
    {now : Time} (h : w.pollOnce env onOwnerThread wait now = .ok w') :
    exec loopStep w [.poll env onOwnerThread wait now] = some w' := by
  rw [exec_cons, loopStep, h]
  rfl

/-- A worker with one connection to take over. -/
def arriving : WorkerLoop where
  wakeFd := 3
  pendingConnections := [{ fd := 7 }]

/-- The connection after its coroutine was started at time 0. -/
def firstWait : Connection :=
  { Connection.new [] [] [] with
    state := .kReading, readWaiter := true, readDeadline := some 5000,
    coroutine := .waitReadable }

/-- The worker after it took the connection over. -/
def arrived (c : Connection) : WorkerLoop where
  wakeFd := 3
  connections := (∅ : Table ℤ ConnectionState).insert 7 { connection := c, connectionToken := 1 }
  nextConnectionToken := 2

/-- The connection is taken over in the first poll and waits for a request in the
second. -/
theorem suspended_in_one_place_sample :
    ∃ w w' state, exec loopStep arriving
        [.poll idleEnv true (.ready [{ fd := 3, readable := true }]) 0] = some w ∧
      w.pollOnce idleEnv true (.ready []) 5 = .ok w' ∧
      w'.connections.lookup 7 = some state ∧
      (state.AtRead ∧ ¬ state.AtWrite ∨ state.AtWrite ∧ ¬ state.AtRead) := by
  have hwake := drainWakeFd_of_nil (rfl : arriving.wakeReads = [])
  have hstart := Connection.startConnectionCoroutine_new
    (connectionEnv idleEnv { arriving with pendingConnections := [], nextConnectionToken := 2 } 7 1)
    [] [] [] []
  have hpoll : arriving.pollOnce idleEnv true (.ready [{ fd := 3, readable := true }]) 0 =
      .ok ((arrived firstWait).tickAll 0) := by
    refine Eq.trans ?_ (congrArg (fun c => Ended.ok ((arrived c).tickAll 0)) hstart)
    change Ended.andThen (Ended.andThen (Ended.andThen arriving.drainWakeFd _) _) _ = _
    rw [hwake]
    rfl
  have hpoll' : ((arrived firstWait).tickAll 0).pollOnce idleEnv true (.ready []) 5 =
      .ok (((arrived firstWait).tickAll 0).tickAll 5) := rfl
  obtain ⟨state, hstate, hopen⟩ : ∃ state,
      ((((arrived firstWait).tickAll 0).tickAll 5).connections.lookup 7 = some state) ∧
      state.connection.shouldClose = false := ⟨_, rfl, rfl⟩
  exact ⟨_, _, state, exec_poll hpoll, hpoll', hstate,
    (suspended_in_one_place rfl (exec_poll hpoll) hpoll' hstate hopen).1⟩

end WorkerLoop
end Server
end MiniRpc
