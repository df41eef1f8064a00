/-
# The coroutine frames of a connection that is closed

`CloseConnection` of `src/server/worker_loop.cpp` marks a connection, notifies it
twice, and then waits in `Get` for its coroutine.  Nothing runs on the thread of
the loop while it waits, so the coroutine has to be over by then.

A suspended coroutine is two frames: `HandleConnectionCo` awaits a task,
`ReadRequestCo` or `WriteResponseCo`, and the frame of the task is suspended in
`WaitReadableCo` or `WaitWritableCo`, with its handle in `read_waiter_` or
`write_waiter_`.  Resumed with `should_close_` set, the task returns, its final
suspension transfers to `HandleConnectionCo` (`src/coroutine/task.h`), and that
destroys the task and returns too.  `TaskFrames` follows the frames through the
calls of `CloseConnection`; to resume a frame that is not suspended in a
`co_await` is undefined.

`MiniRpc.Server.HandleConnection` has the two frames as one (`resumeClosing`), and
`closeCalls_of` says that this is right.  `Held` is what the loop makes of a
connection by its calls, between two polls and in the middle of one.
-/

import MiniRpc.Library.Transition
import MiniRpc.Server.LoopInvariant

namespace MiniRpc
namespace Server

open Transition

/-- A coroutine of a connection. -/
inductive TaskFrame where
  | handleConnection
  | readRequest
  | writeResponse
  deriving DecidableEq, Repr

/-- Where a frame is suspended. -/
inductive Suspension where
  /-- In a `co_await`. -/
  | awaiting
  /-- In its final suspension, with the result published. -/
  | final
  deriving DecidableEq, Repr

/-- The frames of a connection and the handles it stores; `task` is what
`HandleConnectionCo` awaits, until it is destroyed, and `resumed` the frames that
`ResumeWaiter` has resumed. -/
structure TaskFrames where
  handler : Suspension
  task : Option (TaskFrame × Suspension) := none
  readWaiter : Option TaskFrame := none
  writeWaiter : Option TaskFrame := none
  resumed : List TaskFrame := []
  deriving DecidableEq

namespace TaskFrames

/-- `HandleConnectionCo` goes on with `should_close_` set: it has the result of its
task, destroys the task and returns.  Nobody awaits it. -/
def finish (f : TaskFrames) : Option TaskFrames :=
  match f.handler, f.task with
  | .awaiting, some (_, .final) => some { f with handler := .final, task := none }
  | _, _ => none

/-- `handle.resume()` with `should_close_` set: the task returns and its final
suspension transfers to its continuation. -/
def resume (f : TaskFrames) (frame : TaskFrame) : Option TaskFrames :=
  if f.task = some (frame, .awaiting) then ({ f with task := some (frame, .final) }).finish
  else none

/-- `ResumeWaiter(read_waiter_)`. -/
def resumeReadWaiter (f : TaskFrames) : Option TaskFrames :=
  match f.readWaiter with
  | none => some f
  | some frame => ({ f with readWaiter := none, resumed := f.resumed ++ [frame] }).resume frame

/-- `ResumeWaiter(write_waiter_)`. -/
def resumeWriteWaiter (f : TaskFrames) : Option TaskFrames :=
  match f.writeWaiter with
  | none => some f
  | some frame => ({ f with writeWaiter := none, resumed := f.resumed ++ [frame] }).resume frame

/-- What `MarkClosing`, `NotifyReadable` and `NotifyWritable` resume. -/
def closeCalls (f : TaskFrames) : Option TaskFrames :=
  ((f.resumeReadWaiter.bind resumeWriteWaiter).bind resumeReadWaiter).bind resumeWriteWaiter

/-- The handles that are stored. -/
def stored (f : TaskFrames) : List TaskFrame := f.readWaiter.toList ++ f.writeWaiter.toList

/-- The frames of a connection. -/
def of (c : Connection) : TaskFrames where
  handler :=
    match c.coroutine with
    | .returned => .final
    | _ => .awaiting
  task :=
    match c.coroutine with
    | .waitReadable => some (.readRequest, .awaiting)
    | .waitWritable => some (.writeResponse, .awaiting)
    | .returned => none
  readWaiter := if c.readWaiter then some .readRequest else none
  writeWaiter := if c.writeWaiter then some .writeResponse else none

end TaskFrames

namespace Connection

/-- The connection after the calls of `CloseConnection`. -/
def closed (env : Env) (c : Connection) : Connection :=
  (c.markClosing.notifyReadable env).notifyWritable env

/-- What the loop makes of a connection by its calls. -/
inductive Held : Connection → Prop where
  | start (env : Env) (readClock writeClock : List Time) (inbox : Inbox) (outbox : Outbox) :
    Held (startConnectionCoroutine env { new readClock writeClock outbox with inbox })
  | notifyReadable {c : Connection} (h : Held c) (env : Env) : Held (c.notifyReadable env)
  | notifyWritable {c : Connection} (h : Held c) (env : Env) : Held (c.notifyWritable env)
  | markClosing {c : Connection} (h : Held c) : Held c.markClosing
  | tick {c : Connection} (h : Held c) (now : Time) : Held (c.tick now)
  | enqueueResponse {c : Connection} (h : Held c) {env : Env} {r : RpcResponse} {out : Outbound}
    {e : Option String} (hq : Server.enqueueResponse env c.out r = (out, e)) : Held { c with out }

/-! ### The stored handle is that of the suspended task -/

/-- No handle is stored. -/
structure Unwaited (c : Connection) : Prop where
  read : c.readWaiter = false
  write : c.writeWaiter = false

/-- The handle of a suspended task is stored, and no other. -/
structure Attached (c : Connection) : Prop where
  read : c.readWaiter = true ↔ c.coroutine = .waitReadable
  write : c.writeWaiter = true ↔ c.coroutine = .waitWritable

variable {c : Connection}

theorem Unwaited.attached (h : c.Unwaited) (hco : c.coroutine = .returned) : c.Attached := by
  constructor
  · rw [h.read, hco]
    simp
  · rw [h.write, hco]
    simp

theorem Attached.unwaited (h : c.Attached) (hco : c.coroutine = .returned) : c.Unwaited := by
  constructor
  · rw [← Bool.not_eq_true, h.read, hco]
    decide
  · rw [← Bool.not_eq_true, h.write, hco]
    decide

/-- With `should_close_` set, the stored handle is resumed and the coroutine
returns. -/
theorem Attached.resumeWaitersClosing (h : c.Attached) :
    c.resumeWaitersClosing.Unwaited ∧ c.resumeWaitersClosing.coroutine = .returned := by
  obtain ⟨hread, hwrite⟩ := h
  cases hco : c.coroutine with
  | waitReadable =>
    have hr : c.readWaiter = true := hread.2 hco
    have hw : c.writeWaiter = false := by simpa [hco] using hwrite
    simp only [Connection.resumeWaitersClosing, hr, hw, if_true, resumeClosing, hco]
    exact ⟨⟨rfl, rfl⟩, rfl⟩
  | waitWritable =>
    have hr : c.readWaiter = false := by simpa [hco] using hread
    have hw : c.writeWaiter = true := hwrite.2 hco
    simp only [Connection.resumeWaitersClosing, hr, hw, Bool.false_eq_true, if_false, if_true,
      resumeClosing, hco]
    exact ⟨⟨rfl, rfl⟩, trivial⟩
  | returned =>
    have hr : c.readWaiter = false := by simpa [hco] using hread
    have hw : c.writeWaiter = false := by simpa [hco] using hwrite
    simp only [Connection.resumeWaitersClosing, hr, hw, Bool.false_eq_true, if_false]
    exact ⟨⟨hr, hw⟩, hco⟩

theorem Attached.enterError (h : c.Attached) (e : String) :
    (c.enterError e).Unwaited ∧ (c.enterError e).coroutine = .returned :=
  Attached.resumeWaitersClosing ⟨h.read, h.write⟩

theorem Attached.markClosing (h : c.Attached) :
    c.markClosing.Unwaited ∧ c.markClosing.coroutine = .returned :=
  Attached.resumeWaitersClosing ⟨h.read, h.write⟩

/-! ### The coroutine runs with no handle stored -/

theorem Unwaited.enterError (h : c.Unwaited) (e : String) : (c.enterError e).Unwaited := by
  have hr : c.readWaiter = false := h.read
  have hw : c.writeWaiter = false := h.write
  constructor <;> simp [Connection.enterError, Connection.resumeWaitersClosing, clearReadDeadline,
    clearWriteDeadline, hr, hw]

theorem Unwaited.onReadable (h : c.Unwaited) (env : Env) : (c.onReadable env).1.Unwaited := by
  obtain ⟨b, -, hread⟩ := c.readFromSocket_eq
  unfold Connection.onReadable
  rw [hread]
  cases readOutcome c.inbox.ending b.readable with
  | kWouldBlock => exact ⟨h.read, h.write⟩
  | kPeerClosed => exact ⟨h.read, h.write⟩
  | kError e =>
    refine Unwaited.enterError ?_ e
    exact ⟨h.read, h.write⟩
  | kData =>
    obtain ⟨b', -, hparse⟩ := tryParseRequests_eq env
      { c with inbox := c.inbox.afterEnding, readBuffer := b }
    dsimp only
    rw [hparse]
    split
    · rename_i c' e heq
      obtain ⟨rfl, -⟩ := Prod.mk.inj heq
      refine Unwaited.enterError ?_ e
      exact ⟨h.read, h.write⟩
    · rename_i c' heq
      obtain ⟨rfl, -⟩ := Prod.mk.inj heq
      exact ⟨h.read, h.write⟩

theorem Unwaited.onWritable (h : c.Unwaited) (env : Env) : (c.onWritable env).1.Unwaited := by
  unfold Connection.onWritable
  split
  · refine Unwaited.enterError ?_ _
    exact ⟨h.read, h.write⟩
  · split_ifs <;> exact ⟨h.read, h.write⟩

/-- **The coroutine suspends with its handle stored, or returns.** -/
theorem Unwaited.proceed (h : c.Unwaited) (env : Env) (place : Place) :
    (c.proceed env place).Attached := by
  fun_induction Connection.proceed env place c with
  | case1 c hclose => exact Unwaited.attached ⟨h.read, h.write⟩ rfl
  | case2 c hopen hready ih => exact ih h
  | case3 c hopen hready =>
    exact ⟨⟨fun _ => rfl, fun _ => rfl⟩, by simp [suspendReadable, armReadDeadline, h.write]⟩
  | case4 c c₁ hclose => exact Unwaited.attached ⟨h.read, h.write⟩ rfl
  | case5 c c₁ hopen c₂ e hread =>
    have hun := Unwaited.onReadable (c := c₁) ⟨h.read, h.write⟩ env
    rw [hread] at hun
    exact Unwaited.attached ⟨hun.read, hun.write⟩ rfl
  | case6 c c₁ hopen c₂ hread hclose =>
    have hun := Unwaited.onReadable (c := c₁) ⟨h.read, h.write⟩ env
    rw [hread] at hun
    exact Unwaited.attached ⟨hun.read, hun.write⟩ rfl
  | case7 c c₁ hopen c₂ hread hclose ih =>
    have hun := Unwaited.onReadable (c := c₁) ⟨h.read, h.write⟩ env
    rw [hread] at hun
    exact ih hun
  | case8 c hnone ih => exact ih h
  | case9 c hpending hready ih => exact ih h
  | case10 c hpending hready =>
    exact ⟨by simp [suspendWritable, h.read], ⟨fun _ => rfl, fun _ => rfl⟩⟩
  | case11 c c₁ hclose => exact Unwaited.attached ⟨h.read, h.write⟩ rfl
  | case12 c c₁ hopen c₂ e hwrite =>
    have hun := Unwaited.onWritable (c := c₁) ⟨h.read, h.write⟩ env
    rw [hwrite] at hun
    exact Unwaited.attached ⟨hun.read, hun.write⟩ rfl
  | case13 c c₁ hopen c₂ hwrite hclose =>
    have hun := Unwaited.onWritable (c := c₁) ⟨h.read, h.write⟩ env
    rw [hwrite] at hun
    exact Unwaited.attached ⟨hun.read, hun.write⟩ rfl
  | case14 c c₁ hopen c₂ hwrite hclose ih =>
    have hun := Unwaited.onWritable (c := c₁) ⟨h.read, h.write⟩ env
    rw [hwrite] at hun
    exact ih hun

/-- A resumption takes the one handle out first. -/
theorem Unwaited.resume (h : c.Unwaited) (env : Env) : (c.resume env).Attached := by
  unfold Connection.resume
  cases hco : c.coroutine with
  | waitReadable => exact h.proceed env .afterRead
  | waitWritable => exact h.proceed env .afterWrite
  | returned => exact h.attached hco

theorem Attached.notifyReadable (h : c.Attached) (env : Env) : (c.notifyReadable env).Attached := by
  unfold Connection.notifyReadable
  dsimp only
  split_ifs with hr
  · have hw : c.writeWaiter = false := by
      rw [← Bool.not_eq_true, h.write, h.read.1 hr]
      decide
    refine Unwaited.resume ?_ env
    exact ⟨rfl, hw⟩
  · exact ⟨h.read, h.write⟩

theorem Attached.notifyWritable (h : c.Attached) (env : Env) : (c.notifyWritable env).Attached := by
  unfold Connection.notifyWritable
  dsimp only
  split_ifs with hw
  · have hr : c.readWaiter = false := by
      rw [← Bool.not_eq_true, h.read, h.write.1 hw]
      decide
    refine Unwaited.resume ?_ env
    exact ⟨hr, rfl⟩
  · exact ⟨h.read, h.write⟩

theorem Attached.tick (h : c.Attached) (now : Time) : (c.tick now).Attached := by
  have herror : ∀ e, (c.enterError e).Attached := fun e =>
    (h.enterError e).1.attached (h.enterError e).2
  unfold Connection.tick
  split_ifs
  · exact h
  · exact herror _
  · exact herror _
  · exact h

/-- **A connection of the loop has the handle of its suspended task stored.** -/
theorem Held.attached (h : c.Held) : c.Attached := by
  induction h with
  | start env rc wc inbox outbox => exact Unwaited.proceed ⟨rfl, rfl⟩ env .top
  | notifyReadable _ env ih => exact ih.notifyReadable env
  | notifyWritable _ env ih => exact ih.notifyWritable env
  | markClosing _ ih => exact ih.markClosing.1.attached ih.markClosing.2
  | tick _ now ih => exact ih.tick now
  | enqueueResponse _ _ ih => exact ⟨ih.read, ih.write⟩

/-- A notification of a connection with no handle stored resumes nothing. -/
theorem Unwaited.closed (h : c.markClosing.Unwaited) (env : Env) :
    (c.closed env).Unwaited ∧ (c.closed env).coroutine = c.markClosing.coroutine := by
  have hread : c.markClosing.notifyReadable env =
      { c.markClosing with readReady := true, state := .kReading } := by
    unfold Connection.notifyReadable
    simp only [h.read, Bool.false_eq_true, if_false]
  have hclosed : c.closed env = { c.markClosing with
      readReady := true, writeReady := true, state := .kWriting } := by
    rw [Connection.closed, hread]
    unfold Connection.notifyWritable
    simp only [h.write, Bool.false_eq_true, if_false]
  rw [hclosed]
  exact ⟨⟨h.read, h.write⟩, rfl⟩

end Connection

namespace TaskFrames

variable {c : Connection}

theorem of_returned (h : c.Unwaited) (hco : c.coroutine = .returned) :
    of c = { handler := .final } := by
  simp [of, h.read, h.write, hco]

/-- **The calls of `CloseConnection`.**  They resume the stored handle once, they
resume no frame that is not suspended, and nothing is left to be resumed. -/
theorem closeCalls_eq (h : c.Attached) :
    (of c).closeCalls = some { handler := .final, resumed := (of c).stored } := by
  cases hc : c.coroutine with
  | waitReadable =>
    have hr : c.readWaiter = true := h.read.2 hc
    have hw : c.writeWaiter = false := by simpa [hc] using h.write
    simp only [of, hc, hr, hw]
    rfl
  | waitWritable =>
    have hr : c.readWaiter = false := by simpa [hc] using h.read
    have hw : c.writeWaiter = true := h.write.2 hc
    simp only [of, hc, hr, hw]
    rfl
  | returned =>
    have hidle := h.unwaited hc
    rw [of_returned hidle hc]
    rfl

/-- They lead to the frames of the connection after them. -/
theorem closeCalls_of (h : c.Attached) (env : Env) :
    (of c).closeCalls = some { of (c.closed env) with resumed := (of c).stored } := by
  obtain ⟨hun, hco⟩ := h.markClosing
  obtain ⟨hun', hco'⟩ := hun.closed env
  rw [of_returned hun' (hco'.trans hco), closeCalls_eq h]

theorem nodup_stored (c : Connection) : (of c).stored.Nodup := by
  cases hr : c.readWaiter <;> cases hw : c.writeWaiter <;> simp [stored, of, hr, hw]

end TaskFrames

/-! ### The loop does not wait for a coroutine -/

/-- A function of the loop returns. -/
def Ended.returns : Ended → Bool
  | .blocked => false
  | _ => true

/-- It returns true. -/
def Ended.succeeds : Ended → Bool
  | .ok _ => true
  | _ => false

theorem Ended.returns_of_succeeds {r : Ended} (h : r.succeeds = true) : r.returns = true := by
  cases r with
  | ok w => rfl
  | failed w e => rfl
  | blocked => cases h

theorem Ended.succeeds_iff {r : Ended} : r.succeeds = true ↔ ∃ w, r = .ok w := by
  cases r <;> simp [succeeds]

variable {P : WorkerLoop → Prop} {r : Ended} {f : WorkerLoop → Ended}

theorem Ended.returns_andThen (hr : r.returns = true) (hk : r.Keeps P)
    (hf : ∀ w, P w → (f w).returns = true) : (r.andThen f).returns = true := by
  cases r with
  | ok w => exact hf w hk
  | failed w e => rfl
  | blocked => cases hr

theorem Ended.succeeds_andThen (hr : r.succeeds = true) (hk : r.Keeps P)
    (hf : ∀ w, P w → (f w).succeeds = true) : (r.andThen f).succeeds = true := by
  cases r with
  | ok w => exact hf w hk
  | failed w e => cases hr
  | blocked => cases hr

namespace WorkerLoop

/-- **The loop changes a connection by its calls.** -/
theorem held_invariant :
    LoopInvariant (fun state => state.connection.Held) fun state => state.connection.Held where
  start := fun env rc wc inbox outbox _ => .start env rc wc inbox outbox
  between := fun _ h => h
  tick := fun _ now h => h.tick now
  respond := fun env _ _ _ h hq => (h.enqueueResponse hq).notifyReadable env
  notifyReadable := fun env _ h => h.notifyReadable env
  notifyWritable := fun env _ h => h.notifyWritable env
  markClosing := fun _ h => h.markClosing
  settle := fun _ h => h

/-- The connections of a worker are held by it. -/
abbrev Holds (w : WorkerLoop) : Prop := w.Everywhere fun state => state.connection.Held

variable {w : WorkerLoop}

/-- **`CloseConnection` removes the connection.** -/
theorem closeConnection_held {fd : ℤ} {state : ConnectionState}
    (hl : w.connections.lookup fd = some state) (h : state.connection.Held) (env : LoopEnv) :
    w.closeConnection env fd = .ok { w with connections := w.connections.erase fd } := by
  obtain ⟨hun, hco⟩ := h.attached.markClosing
  have hclosed := (hun.closed (connectionEnv env w fd state.connectionToken)).2.trans hco
  unfold closeConnection
  rw [hl]
  exact if_pos hclosed

theorem succeeds_closeConnection (env : LoopEnv) {fd : ℤ}
    (h : ∀ state, w.connections.lookup fd = some state → state.connection.Held) :
    (w.closeConnection env fd).succeeds = true := by
  cases hl : w.connections.lookup fd with
  | none =>
    unfold closeConnection
    rw [hl]
    rfl
  | some state =>
    rw [closeConnection_held hl (h state hl)]
    rfl

theorem succeeds_updateEpollInterest (env : LoopEnv) {fd : ℤ}
    (h : ∀ state, w.connections.lookup fd = some state → state.connection.Held) :
    (w.updateEpollInterest env fd).succeeds = true := by
  unfold updateEpollInterest control
  split
  · rename_i v heq
    obtain ⟨-, rfl⟩ := Prod.mk.inj heq
    exact succeeds_closeConnection env h
  · rfl

theorem returns_drainWakeFd : w.drainWakeFd.returns = true := by
  fun_induction drainWakeFd w with
  | case1 w rest hr ih => exact ih
  | case2 w rest hr ih => exact ih
  | case3 => rfl
  | case4 => rfl
  | case5 => rfl

theorem returns_addConnectionOnOwnerThread (env : LoopEnv) (p : PendingConnection) :
    (w.addConnectionOnOwnerThread env p).returns = true := by
  unfold addConnectionOnOwnerThread
  split_ifs
  · rfl
  · split
    · rfl
    · dsimp only
      split_ifs <;> rfl

theorem returns_adopt (env : LoopEnv) (ps : List PendingConnection) (h : w.Holds) :
    (adopt env w ps).returns = true := by
  induction ps generalizing w with
  | nil => rfl
  | cons p ps ih =>
    exact Ended.returns_andThen (returns_addConnectionOnOwnerThread env p)
      (held_invariant.keeps_addConnectionOnOwnerThread env h p) fun v hv => ih hv

theorem succeeds_deliver (env : LoopEnv) (h : w.Holds) (r : CompletedResponse) :
    (w.deliver env r).succeeds = true := by
  unfold deliver
  cases hl : w.connections.lookup r.fd with
  | none => rfl
  | some state =>
    dsimp only
    split_ifs
    · rfl
    · split
      · exact succeeds_closeConnection env (h r.fd)
      · rename_i out hq
        refine succeeds_updateEpollInterest env fun state' hl' => ?_
        rw [AList.lookup_insert] at hl'
        obtain rfl := Option.some.inj hl'
        exact ((h r.fd state hl).enqueueResponse hq).notifyReadable _

theorem succeeds_deliverAll (env : LoopEnv) (rs : List CompletedResponse) (h : w.Holds) :
    (deliverAll env w rs).succeeds = true := by
  induction rs generalizing w with
  | nil => rfl
  | cons r rs ih =>
    exact Ended.succeeds_andThen (succeeds_deliver env h r) (held_invariant.keeps_deliver env h r)
      fun v hv => ih hv

theorem succeeds_drainCompletedResponses (env : LoopEnv) (h : w.Holds) :
    (w.drainCompletedResponses env).succeeds = true := by
  unfold drainCompletedResponses
  split
  · rfl
  · exact succeeds_deliverAll env _ h

theorem succeeds_handleEvent (env : LoopEnv) (h : w.Holds) (e : ReadyEvent) :
    (w.handleEvent env e).succeeds = true := by
  unfold handleEvent
  by_cases hwake : e.fd = w.wakeFd
  · rw [if_pos hwake]
    rfl
  rw [if_neg hwake]
  cases hl : w.connections.lookup e.fd with
  | none => rfl
  | some state =>
    dsimp only
    generalize connectionEnv env w e.fd state.connectionToken = cenv
    have hnotified := held_invariant.keeps_notifications cenv e (h e.fd state hl)
    generalize (if e.hangup then _ else _ : Connection) = c at hnotified ⊢
    have hself : ∀ state', (w.connections.insert e.fd
        { state with connection := c }).lookup e.fd = some state' → state'.connection.Held := by
      intro state' hl'
      rw [AList.lookup_insert] at hl'
      exact Option.some.inj hl' ▸ hnotified
    split_ifs
    · exact succeeds_closeConnection env hself
    · exact succeeds_closeConnection env hself
    · exact succeeds_updateEpollInterest env hself

theorem succeeds_handleEvents (env : LoopEnv) (events : List ReadyEvent) (h : w.Holds) :
    (handleEvents env w events).succeeds = true := by
  induction events generalizing w with
  | nil => rfl
  | cons e es ih =>
    exact Ended.succeeds_andThen (succeeds_handleEvent env h e)
      (held_invariant.keeps_handleEvent env h e) fun v hv => ih hv

theorem returns_drainPendingConnections (env : LoopEnv) (h : w.Holds) :
    (w.drainPendingConnections env).returns = true :=
  returns_adopt env w.pendingConnections h

theorem returns_drains (env : LoopEnv) (events : List ReadyEvent) (h : w.Holds) :
    (w.drains env events).returns = true := by
  unfold drains
  split_ifs
  · have hwake := keeps_drainWakeFd h
    refine Ended.returns_andThen
      (Ended.returns_andThen returns_drainWakeFd hwake fun v hv =>
        returns_drainPendingConnections env hv)
      (hwake.andThen fun v hv => held_invariant.keeps_drainPendingConnections env hv) fun v hv => ?_
    exact Ended.returns_of_succeeds (succeeds_drainCompletedResponses env hv)
  · rfl

/-- **A poll returns.** -/
theorem returns_pollOnce (env : LoopEnv) (h : w.Holds) (onOwnerThread : Bool) (wait : Wait)
    (now : Time) : (w.pollOnce env onOwnerThread wait now).returns = true := by
  unfold pollOnce
  split_ifs
  · rfl
  · rfl
  · cases wait with
    | interrupted => rfl
    | error what => rfl
    | ready events =>
      exact Ended.returns_andThen (returns_drains env events h)
        (held_invariant.keeps_drains env events h) fun v hv => Ended.returns_of_succeeds
          (succeeds_handleEvents env events (held_invariant.everywhere_tickAll hv now))

/-- The connections of a worker that started with none. -/
theorem holds_of_exec {w₀ : WorkerLoop} (h₀ : w₀.connections = ∅) {events : List Event}
    (hrun : exec loopStep w₀ events = some w) : w.Holds := by
  refine exec_invariant ?_ (fun s e t hs ht => held_invariant.loopStep hs ht) hrun
  intro fd state hl
  rw [h₀] at hl
  cases hl

end WorkerLoop

open TaskFrames WorkerLoop

/-- **Closing a connection does not block the loop.**  Whatever the loop has made of
a connection by its calls, the calls of `CloseConnection` resume no frame that is not
suspended, and each stored handle once; they end `HandleConnectionCo`, so that `Get`
returns, and the connection is removed.  The connections of a worker are such
connections after every run, and no poll waits for a coroutine. -/
theorem closes_at_once :
    (∀ c : Connection, c.Held →
      (of c).closeCalls = some { handler := .final, resumed := (of c).stored } ∧
      (of c).stored.Nodup ∧ ∀ env, (c.closed env).coroutine = .returned) ∧
    (∀ (w : WorkerLoop) env fd state, w.connections.lookup fd = some state →
      state.connection.Held →
      w.closeConnection env fd = .ok { w with connections := w.connections.erase fd }) ∧
    ∀ (w₀ w : WorkerLoop) events, w₀.connections = ∅ → exec loopStep w₀ events = some w →
      (∀ fd state, w.connections.lookup fd = some state → state.connection.Held) ∧
      ∀ env onOwnerThread wait now, w.pollOnce env onOwnerThread wait now ≠ .blocked := by
  refine ⟨?_, fun w env fd state hl h => closeConnection_held hl h env, ?_⟩
  · intro c h
    obtain ⟨hun, hco⟩ := h.attached.markClosing
    exact ⟨closeCalls_eq h.attached, nodup_stored c, fun env => (hun.closed env).2.trans hco⟩
  · intro w₀ w events h₀ hrun
    have hw := holds_of_exec h₀ hrun
    refine ⟨hw, fun env onOwnerThread wait now hblocked => ?_⟩
    have hreturns := returns_pollOnce env hw onOwnerThread wait now
    rw [hblocked] at hreturns
    cases hreturns

end Server
end MiniRpc
