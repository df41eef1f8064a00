/-
# What its responses make of a connection

`DrainCompletedResponses` (`src/server/worker_loop.cpp`) queues the completed responses of
a connection in turn and calls `NotifyReadable` after each.  A coroutine that waits to
write goes on waiting.  One that waits to read is resumed by the first: it reads what the
socket has and goes on to write, so it finds the end of the stream, an error of `recv`, a
bad header or a frame that fails, and with a stale `write_ready_` an error of `send`; or it
waits to write, or again to read where it could send everything at once.

`respond` is what the loop computes.  `undisturbed` says of a connection before it, from
its write queue, the bytes in its buffer, what its socket answers and its clock, that it
will be open and that no deadline of it will have passed, and `endures_iff` that this is so.
-/

import MiniRpc.Server.EndOfStream

namespace MiniRpc
namespace Server

open Protocol Splitter

namespace Connection

/-- `Tick` puts the connection in the error state: a deadline has passed. -/
def overdue (now : Time) (c : Connection) : Bool :=
  c.state ≠ .kClosed && c.state ≠ .kError &&
    (expired now c.readDeadline || expired now c.out.writeDeadline)

/-- The completed responses `rs` of a connection are queued in turn, and its coroutine
is notified of each; `none` if one cannot be queued, and the connection is closed. -/
def respond (env : Env) : Connection → List CompletedResponse → Option Connection
  | c, [] => some c
  | c, r :: rs =>
    match enqueueResponse env c.out r.response with
    | (_, some _) => none
    | (out, none) => respond env (({ c with out }).notifyReadable env) rs

/-- A connection with the completed responses `rs` is not closing when its deadlines
have been checked. -/
def Endures (env : Env) (now : Time) (c : Connection) (rs : List CompletedResponse) : Prop :=
  ∀ c', respond env c rs = some c' → c'.shouldClose = false ∧ overdue now c' = false

/-- Responses are queued in turn, `none` if one of them is refused. -/
def queueAll (env : Env) : Outbound → List CompletedResponse → Option Outbound
  | out, [] => some out
  | out, r :: rs =>
    match enqueueResponse env out r.response with
    | (_, some _) => none
    | (out, none) => queueAll env out rs

/-- If all responses are queued, the write deadline that is armed last has not passed. -/
def outlasts (env : Env) (now : Time) (out : Outbound) (rs : List CompletedResponse) : Bool :=
  (queueAll env out rs).all fun out => !expired now out.writeDeadline

/-- The bytes in the buffer and on the socket end badly for a coroutine that reads them,
with `out` to queue the responses in: the stream ends, `recv` fails, or a header is bad, or a
frame fails. -/
def trips (env : Env) (c : Connection) (out : Outbound) : Bool :=
  c.inbox.ending ≠ .wouldBlock ||
    (frameSplitter.drive (processFrame env) out c.unparsed).stop.isSome

/-- What is queued when the coroutine has read, with `out` queued before. -/
def queuedByRead (env : Env) (c : Connection) (out : Outbound) : Outbound :=
  if c.inbox.ending = .wouldBlock then
    (frameSplitter.drive (processFrame env) out c.unparsed).state
  else out

/-- The connection when the coroutine has read, has written everything, with `left` for
what became of the write queue, and waits to read again. -/
def again (env : Env) (c : Connection) (out left : Outbound) : Connection :=
  armReadDeadline env { c with
    readBuffer := (Buffer.new 8192).append
      (frameSplitter.drive (processFrame env) out c.unparsed).rest
    inbox := c.inbox.afterEnding
    out := { left with writeDeadline := none }
    state := .kReading
    readReady := false
    writeReady := false }

/-- Neither its deadlines nor its responses disturb a connection that waits.  Without a
response it is not closing and no deadline has passed.  With some, one of them is refused;
or it waits to write, and outlasts them; or it waits to read, what it reads ends well, and
it outlasts the responses after the first.  With a stale `write_ready_` it writes when it
has read: no `send` fails, and if something is left it outlasts the other responses; if
nothing is, it waits to read again, and the others do not disturb it. -/
def undisturbed (env : Env) (now : Time) : Connection → List CompletedResponse → Bool
  | c, [] => !c.shouldClose && !c.overdue now
  | c, r :: rs =>
    match enqueueResponse env c.out r.response with
    | (_, some _) => true
    | (out, none) =>
      if c.shouldClose then (queueAll env out rs).isNone
      else if !c.readWaiter then outlasts env now out rs
      else if c.trips env out then (queueAll env (c.queuedByRead env out) rs).isNone
      else if !c.writeReady then
        outlasts env now ((c.queuedByRead env out).armWriteDeadline env) rs
      else
        match flushWrites { c.queuedByRead env out with writeDeadline := none } with
        | (left, some _) => (queueAll env left rs).isNone
        | (left, none) =>
          if left.hasPendingWrite then
            -- `OnWritable` arms the deadline, and then `WaitWritableCo`
            outlasts env now ((left.armWriteDeadline env).armWriteDeadline env) rs
          else undisturbed env now (c.again env out left) rs

variable {env : Env} {now : Time} {c c' : Connection} {rs : List CompletedResponse}

/-! ### What is queued -/

theorem pending_of_enqueueResponse {o out : Outbound} {r : RpcResponse}
    (hq : enqueueResponse env o r = (out, none)) : out.writeBuffer ≠ [] := by
  obtain ⟨hsize, hroom⟩ := enqueueResponse_ok hq
  rw [enqueueResponse_valid hsize hroom] at hq
  rw [← (Prod.mk.inj hq).1]
  simp [Outbound.armWriteDeadline]

theorem pending_enqueueResponse {o : Outbound} (h : o.writeBuffer ≠ []) (r : RpcResponse) :
    (enqueueResponse env o r).1.writeBuffer ≠ [] := by
  cases hq : enqueueResponse env o r with
  | mk o' failure =>
    cases failure with
    | some e => exact enqueueResponse_failed hq ▸ h
    | none => exact pending_of_enqueueResponse hq

theorem pending_processFrame {o : Outbound} (h : o.writeBuffer ≠ []) (body : Bytes) :
    (processFrame env o body).1.writeBuffer ≠ [] := by
  unfold processFrame
  cases env.request.parse body with
  | none => exact pending_enqueueResponse h _
  | some request =>
    by_cases hb : request.serviceName = kHeartbeatServiceName
    · simp only [if_pos hb]
      exact pending_enqueueResponse h _
    · simp only [if_neg hb]
      cases env.dispatcher with
      | none =>
        exact pending_enqueueResponse (o := { o with handed := o.handed ++ [request] }) h _
      | some dispatcher =>
        dsimp only
        split <;> exact h

/-- What is to be written is there when the coroutine has read. -/
theorem pending_queuedByRead {out : Outbound} (h : out.writeBuffer ≠ []) :
    (c.queuedByRead env out).writeBuffer ≠ [] := by
  unfold queuedByRead
  split_ifs
  · exact drive_invariant (P := fun o : Outbound => o.writeBuffer ≠ [])
      (fun _ body ho => pending_processFrame ho body) h
  · exact h

theorem pending_same (h : Same c c') : c'.out.pendingWriteBytes = c.out.pendingWriteBytes :=
  (congrArg Outbound.pendingWriteBytes h.out :)

/-- Whether responses are refused depends on how much is queued. -/
theorem queueAll_isNone {o o' : Outbound} (h : o.pendingWriteBytes = o'.pendingWriteBytes) :
    queueAll env o rs = none ↔ queueAll env o' rs = none := by
  induction rs generalizing o o' with
  | nil => simp [queueAll]
  | cons r rs ih =>
    rw [queueAll, queueAll]
    by_cases hsize : ValidLength (env.response.byteSizeLong r.response)
    · by_cases hroom : Room env o r.response
      · have hroom' : Room env o' r.response := by
          rw [Room, ← h]
          exact hroom
        rw [enqueueResponse_valid hsize hroom, enqueueResponse_valid hsize hroom']
        exact ih (by simp only [Outbound.armWriteDeadline, h])
      · have hroom' : ¬ Room env o' r.response := by
          rw [Room, ← h]
          exact hroom
        rw [enqueueResponse_noRoom hsize hroom, enqueueResponse_noRoom hsize hroom']
    · rw [enqueueResponse_invalid hsize, enqueueResponse_invalid hsize]

/-! ### What `OnReadable` does -/

/-- Where what is read ends badly the connection closes. -/
theorem onReadable_trips (h : c.trips env c.out = true) :
    (c.onReadable env).1.shouldClose = true ∧
      (c.onReadable env).1.out.pendingWriteBytes =
        (c.queuedByRead env c.out).pendingWriteBytes := by
  have herror : ∀ (d : Connection) (e : String), (d.enterError e).shouldClose = true ∧
      (d.enterError e).out.pendingWriteBytes = d.out.pendingWriteBytes :=
    fun d e => ⟨(d.enterError_fields e).1, pending_same (.enterError d e)⟩
  obtain ⟨b, hb, hread⟩ := c.readFromSocket_eq
  unfold onReadable
  rw [trips, unparsed, ← hb] at h
  rw [hread, queuedByRead, unparsed, ← hb]
  rcases c.inbox.ending_cases with hend | hend | ⟨what, hend⟩
  · simp [hend, readOutcome]
  · rw [if_pos hend, hend]
    by_cases hnil : b.readable = []
    · simp [hend, hnil, drive_more cut_nil] at h
    · obtain ⟨b', -, hparse⟩ := tryParseRequests_eq env
        { c with inbox := c.inbox.afterEnding, readBuffer := b }
      dsimp only at hparse
      simp only [readOutcome, if_neg hnil, hparse]
      simp only [hend, ne_eq, not_true_eq_false, decide_false, Bool.false_or] at h
      obtain ⟨why, hwhy⟩ := Option.isSome_iff_exists.1 h
      rw [hwhy]
      cases why with
      | bad => exact herror _ _
      | failed e => exact herror _ _
  · rw [if_neg (by simp [hend]), hend]
    exact herror _ _

/-- Where it ends well the bytes are read and their frames are processed. -/
theorem onReadable_reads_on (h : c.trips env c.out = false) :
    ∃ (b : Buffer) (bodies : List Bytes) (state : State),
      b.readable = (frameSplitter.drive (processFrame env) c.out c.unparsed).rest ∧
      c.onReadable env = ({ c with
        readBuffer := b, bodies, state
        inbox := c.inbox.afterEnding
        out := c.queuedByRead env c.out }, none) := by
  obtain ⟨hblock, hstop⟩ := Bool.or_eq_false_iff.1 h
  have hend : c.inbox.ending = .wouldBlock := by simpa using hblock
  obtain ⟨b, hb, hread⟩ := c.readFromSocket_eq
  unfold onReadable
  rw [hread, queuedByRead, if_pos hend, hend]
  rw [unparsed, ← hb] at hstop ⊢
  by_cases hnil : b.readable = []
  · refine ⟨b, c.bodies, c.state, ?_, ?_⟩
    · rw [hnil, drive_more cut_nil]
    · simp [readOutcome, hnil, drive_more cut_nil]
  · obtain ⟨b', hb', hparse⟩ := tryParseRequests_eq env
      { c with inbox := c.inbox.afterEnding, readBuffer := b }
    dsimp only at hparse hb'
    simp only [readOutcome, if_neg hnil, hparse]
    rw [Option.isSome_eq_false_iff, Option.isNone_iff_eq_none] at hstop
    rw [hstop]
    exact ⟨b', _, _, hb', rfl⟩

/-! ### What a notification does -/

/-- What is there when a resumed coroutine has read all it can. -/
def hasRead (env : Env) (c : Connection) (b : Buffer) (bodies : List Bytes) (state : State) :
    Connection :=
  { c with
    readBuffer := b, bodies, state
    inbox := c.inbox.afterEnding
    out := c.queuedByRead env c.out
    readReady := false
    readWaiter := false
    readDeadline := none }

/-- A connection that waits to read closes where what it reads ends badly. -/
theorem notifyReadable_trips (hcoroutine : c.coroutine = .waitReadable)
    (hwaiter : c.readWaiter = true) (hopen : c.shouldClose = false)
    (h : c.trips env c.out = true) :
    (c.notifyReadable env).shouldClose = true ∧
      (c.notifyReadable env).out.pendingWriteBytes =
        (c.queuedByRead env c.out).pendingWriteBytes := by
  unfold notifyReadable resume
  simp only [hwaiter, if_true, hcoroutine]
  rw [proceed]
  dsimp only
  rw [if_neg (by simp [clearReadDeadline, hopen])]
  have htrips := onReadable_trips (c := { c with
    readReady := false, state := .kReading, readWaiter := false, coroutine := .waitReadable
    readDeadline := none }) h
  split
  · rename_i c₂ e heq
    exact (heq ▸ htrips :)
  · rename_i c₂ heq
    have hclose : c₂.shouldClose = true := (heq ▸ htrips.1 :)
    rw [if_pos hclose]
    exact (heq ▸ htrips :)

/-- Where it ends well the coroutine goes on to write. -/
theorem notifyReadable_reads_on (hcoroutine : c.coroutine = .waitReadable)
    (hwaiter : c.readWaiter = true) (hopen : c.shouldClose = false)
    (h : c.trips env c.out = false) :
    ∃ (b : Buffer) (bodies : List Bytes) (state : State),
      b.readable = (frameSplitter.drive (processFrame env) c.out c.unparsed).rest ∧
      c.notifyReadable env = (c.hasRead env b bodies state).proceed env .writeLoop := by
  obtain ⟨b, bodies, state, hb, hread⟩ := onReadable_reads_on (c := { c with
    readReady := false, state := .kReading, readWaiter := false, coroutine := .waitReadable
    readDeadline := none }) h
  refine ⟨b, bodies, state, hb, ?_⟩
  unfold notifyReadable resume
  simp only [hwaiter, if_true, hcoroutine]
  rw [proceed]
  dsimp only
  rw [if_neg (by simp [clearReadDeadline, hopen])]
  split
  · rename_i c₂ e heq
    cases (Prod.mk.inj (heq.symm.trans hread)).2
  · rename_i c₂ heq
    obtain rfl := (Prod.mk.inj (heq.symm.trans hread)).1
    rw [if_neg (by simp [hopen]), hasRead, hcoroutine]
    rfl

/-- A coroutine that goes on to write with a stale `write_ready_` calls `OnWritable`. -/
theorem proceed_stale {d : Connection} {failure : Option String}
    (hpending : c.out.hasPendingWrite = true) (hready : c.writeReady = true)
    (hopen : c.shouldClose = false)
    (h : onWritable env { c.clearWriteDeadline with writeReady := false } = (d, failure)) :
    c.proceed env .writeLoop =
      failure.elim (if d.shouldClose then d.coReturn else d.proceed env .writeLoop) d.coFail := by
  generalize hgo : d.proceed env .writeLoop = d'
  rw [proceed, if_neg (by simp [hpending]), if_pos hready, proceed]
  dsimp only
  rw [if_neg (by simp [clearWriteDeadline, hopen])]
  split
  · rename_i c₂ e heq
    obtain ⟨rfl, rfl⟩ := Prod.mk.inj (h.symm.trans heq)
    rfl
  · rename_i c₂ heq
    obtain ⟨rfl, rfl⟩ := Prod.mk.inj (h.symm.trans heq)
    rw [hgo]
    rfl

/-- It closes if `send` fails, -/
theorem proceed_stale_failed (env : Env) {left : Outbound} {e : String}
    (hpending : c.out.hasPendingWrite = true) (hready : c.writeReady = true)
    (hopen : c.shouldClose = false)
    (h : flushWrites { c.out with writeDeadline := none } = (left, some e)) :
    (c.proceed env .writeLoop).shouldClose = true ∧
      (c.proceed env .writeLoop).out.pendingWriteBytes = left.pendingWriteBytes := by
  have hwrite : onWritable env { c.clearWriteDeadline with writeReady := false } =
      (enterError { c with out := left, writeReady := false } e, some e) := by
    simp only [onWritable, clearWriteDeadline, h]
  rw [proceed_stale hpending hready hopen hwrite]
  exact ⟨(enterError_fields _ e).1, pending_same (.enterError _ e)⟩

/-- waits to write if something is left, -/
theorem proceed_stale_left {left : Outbound} (hpending : c.out.hasPendingWrite = true)
    (hready : c.writeReady = true) (hopen : c.shouldClose = false)
    (h : flushWrites { c.out with writeDeadline := none } = (left, none))
    (hleft : left.hasPendingWrite = true) :
    c.proceed env .writeLoop =
      suspendWritable env { c with out := left.armWriteDeadline env, writeReady := false } := by
  have hwrite : onWritable env { c.clearWriteDeadline with writeReady := false } =
      ({ c with out := left.armWriteDeadline env, writeReady := false }, none) := by
    simp only [onWritable, clearWriteDeadline, h, hleft, if_true]
  rw [proceed_stale hpending hready hopen hwrite, Option.elim_none, if_neg (by simp [hopen])]
  exact proceed_pending env hleft rfl

/-- and waits to read if nothing is. -/
theorem proceed_stale_flushed {left : Outbound} (hpending : c.out.hasPendingWrite = true)
    (hready : c.writeReady = true) (hopen : c.shouldClose = false) (hread : c.readReady = false)
    (h : flushWrites { c.out with writeDeadline := none } = (left, none))
    (hleft : left.hasPendingWrite = false) :
    c.proceed env .writeLoop = suspendReadable env
      { c with out := { left with writeDeadline := none }, writeReady := false } := by
  have hwrite : onWritable env { c.clearWriteDeadline with writeReady := false } =
      ({ c with
        out := { left with writeDeadline := none }, writeReady := false, state := .kOpen },
        none) := by
    simp only [onWritable, clearWriteDeadline, h, hleft, Bool.false_eq_true, if_false]
  rw [proceed_stale hpending hready hopen hwrite, Option.elim_none, if_neg (by simp [hopen]),
    proceed]
  rw [if_pos (by simpa [Outbound.hasPendingWrite] using hleft), proceed, if_neg (by simp [hopen]),
    if_neg (by simp [hread])]
  rfl

/-! ### What the responses come to -/

/-- A connection that is closing is so after its responses. -/
theorem respond_of_shouldClose (hclose : c.shouldClose = true) (h : respond env c rs = some c') :
    c'.shouldClose = true := by
  induction rs generalizing c with
  | nil => exact Option.some.inj h ▸ hclose
  | cons r rs ih =>
    rw [respond] at h
    split at h
    · cases h
    · rename_i out hq
      exact ih (shouldClose_notifyReadable env (c := { c with out }) hclose) h

/-- A notification of a closing connection queues nothing. -/
theorem same_notifyReadable_closing (hclose : c.shouldClose = true) :
    Same c (c.notifyReadable env) := by
  have hset : Same c { c with readReady := true, state := .kReading } := ⟨rfl, rfl, rfl, id⟩
  have hwaiter : Same c { c with readReady := true, state := .kReading, readWaiter := false } :=
    ⟨rfl, rfl, rfl, id⟩
  unfold notifyReadable
  dsimp only
  split_ifs
  · rw [resume_of_shouldClose env (hwaiter.closing hclose)]
    exact hwaiter.trans (.resumeClosing _)
  · exact hset

/-- The responses of a closing connection are queued for nobody. -/
theorem respond_isNone_of_shouldClose (hclose : c.shouldClose = true) :
    respond env c rs = none ↔ queueAll env c.out rs = none := by
  induction rs generalizing c with
  | nil => simp [respond, queueAll]
  | cons r rs ih =>
    unfold respond queueAll
    cases hq : enqueueResponse env c.out r.response with
    | mk out failure =>
      cases failure with
      | some e => exact iff_of_true rfl rfl
      | none =>
        have hsame : Same { c with out } (({ c with out }).notifyReadable env) :=
          same_notifyReadable_closing hclose
        dsimp only
        rw [ih (hsame.closing hclose)]
        exact queueAll_isNone (pending_same hsame)

/-- A connection that has closed is gone only if a response is refused. -/
theorem endures_of_shouldClose {out : Outbound} (hclose : c.shouldClose = true)
    (hout : c.out.pendingWriteBytes = out.pendingWriteBytes) :
    Endures env now c rs ↔ (queueAll env out rs).isNone = true := by
  rw [Option.isNone_iff_eq_none, ← queueAll_isNone hout, ← respond_isNone_of_shouldClose hclose]
  constructor
  · intro h
    cases hrespond : respond env c rs with
    | none => rfl
    | some c' =>
      have hopen := (h c' hrespond).1
      rw [respond_of_shouldClose hclose hrespond] at hopen
      cases hopen
  · intro h c' hrespond
    rw [h] at hrespond
    cases hrespond

/-- A connection that waits to write goes on waiting when a response is queued. -/
theorem AtWrite.notifyReadable (hc : c.AtWrite) {r : RpcResponse} {out : Outbound}
    (hq : enqueueResponse env c.out r = (out, none)) :
    ∃ c', ({ c with out } : Connection).notifyReadable env = c' ∧ c'.AtWrite ∧ c'.out = out ∧
      c'.shouldClose = c.shouldClose ∧ c'.state = .kReading := by
  refine ⟨{ c with out, readReady := true, state := .kReading }, ?_, ⟨hc.coroutine,
    hc.writeWaiter, ?_, pending_of_enqueueResponse hq, hc.readWaiter, hc.readDeadline⟩, rfl, rfl,
    rfl⟩
  · unfold Connection.notifyReadable
    simp [hc.readWaiter]
  · obtain ⟨hsize, hroom⟩ := enqueueResponse_ok hq
    rw [enqueueResponse_valid hsize hroom] at hq
    obtain ⟨rfl, -⟩ := Prod.mk.inj hq
    simp [Outbound.armWriteDeadline]

/-- A connection that waits to write is overdue if its write deadline has passed. -/
theorem overdue_of_atWrite (hc : c.AtWrite) (hstate : c.state = .kReading ∨ c.state = .kWriting) :
    c.overdue now = expired now c.out.writeDeadline := by
  rcases hstate with h | h <;> simp [overdue, h, hc.readDeadline, expired]

/-- Its responses leave it open, and it endures if it outlasts them. -/
theorem endures_of_atWrite (hc : c.AtWrite) (hopen : c.shouldClose = false)
    (hstate : c.state = .kReading ∨ c.state = .kWriting) :
    Endures env now c rs ↔ outlasts env now c.out rs = true := by
  induction rs generalizing c with
  | nil => simp [Endures, respond, outlasts, queueAll, hopen, overdue_of_atWrite hc hstate]
  | cons r rs ih =>
    rw [Endures, outlasts, respond, queueAll]
    split
    · exact iff_of_true (fun c' h => by cases h) rfl
    · rename_i out hq
      obtain ⟨c', heq, hc', rfl, hopen', hstate'⟩ := hc.notifyReadable hq
      rw [heq]
      exact ih hc' (hopen'.trans hopen) (Or.inl hstate')

/-- The connections differ in nothing that `undisturbed` looks at. -/
structure Alike (c c' : Connection) : Prop where
  readable : c'.readBuffer.readable = c.readBuffer.readable
  out : c'.out = c.out
  state : c'.state = c.state
  shouldClose : c'.shouldClose = c.shouldClose
  writeReady : c'.writeReady = c.writeReady
  readDeadline : c'.readDeadline = c.readDeadline
  readWaiter : c'.readWaiter = c.readWaiter
  inbox : c'.inbox = c.inbox
  clock : c'.clock = c.clock

theorem Alike.unparsed (h : Alike c c') : c'.unparsed = c.unparsed := by
  rw [Connection.unparsed, Connection.unparsed, h.readable, h.inbox]

theorem Alike.trips (h : Alike c c') (out : Outbound) : c'.trips env out = c.trips env out := by
  rw [Connection.trips, Connection.trips, h.unparsed, h.inbox]

theorem Alike.queuedByRead (h : Alike c c') (out : Outbound) :
    c'.queuedByRead env out = c.queuedByRead env out := by
  rw [Connection.queuedByRead, Connection.queuedByRead, h.unparsed, h.inbox]

theorem Alike.again (env : Env) (h : Alike c c') (out left : Outbound) :
    Alike (c.again env out left) (c'.again env out left) := by
  have hunparsed := h.unparsed
  constructor
  case readDeadline => simp only [Connection.again, armReadDeadline, h.clock]
  case clock => simp only [Connection.again, armReadDeadline, h.clock]
  all_goals simp only [Connection.again, armReadDeadline, hunparsed, h.inbox, h.shouldClose,
    h.readWaiter]

theorem Alike.undisturbed (h : Alike c c') :
    c'.undisturbed env now rs = c.undisturbed env now rs := by
  induction rs generalizing c c' with
  | nil =>
    simp only [Connection.undisturbed, overdue, h.shouldClose, h.state, h.readDeadline, h.out]
  | cons r rs ih =>
    have hagain := fun out left => ih (h.again env out left)
    simp only [Connection.undisturbed, h.out, h.shouldClose, h.readWaiter, h.writeReady, h.trips,
      h.queuedByRead, hagain]

/-- What is asked of a coroutine that goes on to write, -/
theorem endures_of_pending (hc : c.Running) (hpending : c.out.hasPendingWrite = true)
    (hready : c.writeReady = false) (hopen : c.shouldClose = false) :
    Endures env now (c.proceed env .writeLoop) rs ↔
      outlasts env now (c.out.armWriteDeadline env) rs = true := by
  have hne : c.out.writeBuffer ≠ [] := by simpa [Outbound.hasPendingWrite] using hpending
  rw [proceed_pending env hpending hready]
  exact endures_of_atWrite ⟨rfl, rfl, by simp [suspendWritable, Outbound.armWriteDeadline], hne,
    hc.readWaiter, hc.readDeadline⟩ hopen (Or.inr rfl)

/-- and with a stale `write_ready_`. -/
theorem endures_of_stale (hc : c.Running) (hpending : c.out.hasPendingWrite = true)
    (hready : c.writeReady = true) (hopen : c.shouldClose = false) (hread : c.readReady = false)
    (reading : ∀ {c : Connection}, c.AtRead →
      (Endures env now c rs ↔ c.undisturbed env now rs = true)) :
    Endures env now (c.proceed env .writeLoop) rs ↔
      (match flushWrites { c.out with writeDeadline := none } with
      | (left, some _) => (queueAll env left rs).isNone
      | (left, none) =>
        if left.hasPendingWrite then
          outlasts env now ((left.armWriteDeadline env).armWriteDeadline env) rs
        else undisturbed env now (suspendReadable env
          { c with out := { left with writeDeadline := none }, writeReady := false }) rs) =
        true := by
  split
  · rename_i left e hflush
    obtain ⟨hclose, hout⟩ := proceed_stale_failed env hpending hready hopen hflush
    exact endures_of_shouldClose hclose hout
  · rename_i left hflush
    by_cases hleft : left.hasPendingWrite = true
    · have hne : left.writeBuffer ≠ [] := by simpa [Outbound.hasPendingWrite] using hleft
      rw [if_pos hleft, proceed_stale_left hpending hready hopen hflush hleft]
      exact endures_of_atWrite ⟨rfl, rfl, by simp [suspendWritable, Outbound.armWriteDeadline],
        hne, hc.readWaiter, hc.readDeadline⟩ hopen (Or.inr rfl)
    · have hnil : left.writeBuffer = [] := by simpa [Outbound.hasPendingWrite] using hleft
      rw [if_neg hleft, proceed_stale_flushed hpending hready hopen hread hflush
        (by simpa using hleft)]
      exact reading ⟨rfl, rfl, by simp [suspendReadable, armReadDeadline], hnil, hc.writeWaiter,
        rfl⟩

/-- **What a connection endures.**  The responses of a connection that waits, or is closing,
and then its deadlines leave it open, or gone, exactly if it is undisturbed. -/
theorem endures_iff (hc : c.Waits) : Endures env now c rs ↔ c.undisturbed env now rs = true := by
  induction rs generalizing c with
  | nil => simp [Endures, respond, undisturbed]
  | cons r rs ih =>
    rw [Endures, undisturbed, respond]
    split
    · exact iff_of_true (fun c' h => by cases h) rfl
    rename_i out hq
    change Endures env now (({ c with out }).notifyReadable env) rs ↔ _
    by_cases hclose : c.shouldClose = true
    · rw [if_pos hclose]
      have hsame : Same { c with out } (({ c with out }).notifyReadable env) :=
        same_notifyReadable_closing hclose
      exact endures_of_shouldClose (hsame.closing hclose) (pending_same hsame)
    rw [if_neg hclose]
    have hopen : c.shouldClose = false := by simpa using hclose
    rcases hc.resolve_left hclose with hc | hc
    swap
    · -- the coroutine is not resumed
      obtain ⟨c', heq, hc', rfl, hopen', hstate'⟩ := hc.notifyReadable hq
      rw [if_pos (by simp [hc.readWaiter]), heq]
      exact endures_of_atWrite hc' (hopen'.trans hopen) (Or.inl hstate')
    rw [if_neg (by simp [hc.readWaiter])]
    by_cases htrips : c.trips env out = true
    · rw [if_pos htrips]
      obtain ⟨hclose', hout⟩ := notifyReadable_trips (c := { c with out }) hc.coroutine
        hc.readWaiter hopen htrips
      exact endures_of_shouldClose hclose' hout
    rw [if_neg htrips]
    obtain ⟨b, bodies, state, hb, heq⟩ := notifyReadable_reads_on (c := { c with out })
      hc.coroutine hc.readWaiter hopen (Bool.eq_false_of_not_eq_true htrips)
    have hne : (c.queuedByRead env out).writeBuffer ≠ [] :=
      pending_queuedByRead (pending_of_enqueueResponse hq)
    have hpending : (c.queuedByRead env out).hasPendingWrite = true := by
      simpa [Outbound.hasPendingWrite] using hne
    rw [heq]
    have hrunning : Running (hasRead env { c with out } b bodies state) :=
      ⟨rfl, hc.writeWaiter, rfl, fun hnil => absurd hnil hne⟩
    by_cases hready : c.writeReady = true
    · rw [if_neg (by simp [hready])]
      have halike : ∀ left, Alike (c.again env out left) (suspendReadable env
          { hasRead env { c with out } b bodies state with
            out := { left with writeDeadline := none }, writeReady := false }) := by
        intro left
        have hrest : ((Buffer.new 8192).append (frameSplitter.drive (processFrame env) out
            c.unparsed).rest).readable = b.readable := by
          rw [Buffer.readable_append, Buffer.readable_new, List.nil_append]
          exact hb.symm
        exact ⟨hrest.symm, rfl, rfl, rfl, rfl, rfl, hc.readWaiter.symm, rfl, rfl⟩
      rw [endures_of_stale hrunning hpending hready hopen rfl fun hc => ih (Or.inr (Or.inl hc))]
      simp only [(halike _).undisturbed]
      rfl
    · have hstale : c.writeReady = false := by simpa using hready
      rw [if_pos (by simp [hstale])]
      exact endures_of_pending hrunning hpending hstale hopen

end Connection
end Server
end MiniRpc
