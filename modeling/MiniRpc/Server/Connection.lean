/-
# One connection of the server

`src/server/connection.cpp` and the coroutine `HandleConnectionCo` of
`src/server/worker_loop.cpp`: reading and parsing (`ReadFromSocket`,
`TryParseRequests`, `OnReadable`), writing (`OnWritable`), closing
(`EnterError`, `MarkClosing`, `MarkClosed`, `Tick`) and the coroutine that waits
for the socket in between.

A connection has one coroutine, and `read_waiter_` and `write_waiter_` are
handles of the task it waits in, so they are modelled by whether they are set;
`coroutine` says at which `co_await` the coroutine is suspended, or that it has
returned.  All of it runs on the owner thread: a resumed coroutine runs until it
suspends again or returns before the call that resumed it goes on.  What a
coroutine does when it is resumed with `should_close_` set is short and is said
on its own (`resumeClosing`), because `EnterError` and `MarkClosing` resume their
waiters and are themselves called from inside the coroutine.
-/

import MiniRpc.Server.Buffer
import MiniRpc.Server.Requests

namespace MiniRpc
namespace Server

open Protocol

/-- `Connection::State`. -/
inductive State where
  | kOpen
  | kReading
  | kWriting
  | kClosing
  | kClosed
  | kError
  deriving DecidableEq, Repr

/-- `Connection::ReadResult`, an error with its message. -/
inductive ReadResult where
  | kWouldBlock
  | kData
  | kPeerClosed
  | kError (message : String)
  deriving DecidableEq, Repr

/-- Where `HandleConnectionCo` is suspended, or that it is not there (any more). -/
inductive Coroutine where
  | waitReadable
  | waitWritable
  | returned
  deriving DecidableEq, Repr

/-- `Connection`, with the members of `WorkerLoop::ConnectionState` that its
coroutine writes; `bodies` records the bodies of the frames consumed so far. -/
structure Connection where
  readBuffer : Buffer := Buffer.new 8192
  bodies : List Bytes := []
  out : Outbound := {}
  lastError : String := ""
  state : State := .kOpen
  shouldClose : Bool := false
  readReady : Bool := false
  writeReady : Bool := false
  readDeadline : Option Time := none
  readWaiter : Bool := false
  writeWaiter : Bool := false
  inbox : Inbox := []
  clock : List Time := []
  coroutine : Coroutine := .returned
  coroutineOk : Bool := true
  coroutineError : String := ""

namespace Connection

/-- The constructor, for a clock and a socket that answer as given. -/
def new (readClock writeClock : List Time) (outbox : Outbox) : Connection :=
  { clock := readClock, out := { clock := writeClock, outbox } }

/-- `ArmReadDeadline`. -/
def armReadDeadline (env : Env) (c : Connection) : Connection :=
  { c with
    readDeadline := some (c.clock.headD 0 + env.options.readTimeout)
    clock := c.clock.tail }

/-- `ClearReadDeadline`. -/
def clearReadDeadline (c : Connection) : Connection := { c with readDeadline := none }

/-- `ClearWriteDeadline`. -/
def clearWriteDeadline (c : Connection) : Connection :=
  { c with out := { c.out with writeDeadline := none } }

/-- What the coroutine does when it is resumed with `should_close_` set:
`await_resume` clears the ready flag, the deadline is cleared, and the task and
`HandleConnectionCo` return. -/
def resumeClosing (c : Connection) : Connection :=
  match c.coroutine with
  | .waitReadable => { c.clearReadDeadline with readReady := false, coroutine := .returned }
  | .waitWritable => { c.clearWriteDeadline with writeReady := false, coroutine := .returned }
  | .returned => c

/-- `ResumeWaiter(read_waiter_); ResumeWaiter(write_waiter_)` with `should_close_` set. -/
def resumeWaitersClosing (c : Connection) : Connection :=
  let c := if c.readWaiter then resumeClosing { c with readWaiter := false } else c
  if c.writeWaiter then resumeClosing { c with writeWaiter := false } else c

/-- `EnterError`. -/
def enterError (c : Connection) (message : String) : Connection :=
  let c : Connection :=
    { c with
      lastError := if message = "" then c.lastError else message
      shouldClose := true
      state := .kError }
  c.clearReadDeadline.clearWriteDeadline.resumeWaitersClosing

/-- `MarkClosing`. -/
def markClosing (c : Connection) : Connection :=
  let c : Connection :=
    { c with
      state := if c.state ≠ .kClosed ∧ c.state ≠ .kError then .kClosing else c.state
      shouldClose := true }
  c.clearReadDeadline.clearWriteDeadline.resumeWaitersClosing

/-- `MarkClosed`. -/
def markClosed (c : Connection) : Connection :=
  { c.clearReadDeadline.clearWriteDeadline with
    shouldClose := true
    state := .kClosed
    readReady := false
    writeReady := false
    readWaiter := false
    writeWaiter := false }

/-- A deadline that is set and has passed. -/
def expired (now : Time) (deadline : Option Time) : Bool :=
  match deadline with
  | none => false
  | some d => d ≤ now

/-- `Tick`. -/
def tick (now : Time) (c : Connection) : Connection :=
  if c.state = .kClosed ∨ c.state = .kError ∨ c.shouldClose then c
  else if expired now c.readDeadline then c.enterError "read timeout"
  else if expired now c.out.writeDeadline then c.enterError "write timeout"
  else c

/-- `ReadFromSocket`: read in chunks of 4096 bytes until the socket has no more. -/
def readFromSocket (c : Connection) : Connection × ReadResult :=
  match _h : recv 4096 c.inbox with
  | (.data b bs, inbox) =>
    readFromSocket { c with inbox, readBuffer := c.readBuffer.append (b :: bs) }
  | (.eof, inbox) => ({ c with inbox }, .kPeerClosed)
  | (.interrupted, inbox) => readFromSocket { c with inbox }
  | (.wouldBlock, inbox) =>
    ({ c with inbox }, if c.readBuffer.readableBytes = 0 then .kWouldBlock else .kData)
  | (.error what, inbox) => ({ c with inbox }, .kError ("recv failed: " ++ what))
termination_by c.inbox.weight
decreasing_by
  · exact Inbox.weight_recv_data _h
  · exact Inbox.weight_recv_interrupted _h

/-- `TryParseRequests`: every complete frame in the buffer, in order. -/
def tryParseRequests (env : Env) (c : Connection) : Connection × Option String :=
  if kFrameHeaderBytes ≤ c.readBuffer.readableBytes then
    match decodeFrameHeader c.readBuffer.readable with
    | .error e => (c, some e)
    | .ok bodyLength =>
      if hlen : c.readBuffer.readableBytes < kFrameHeaderBytes + bodyLength then (c, none)
      else
        match processFrame env c.out
            ((c.readBuffer.readable.drop kFrameHeaderBytes).take bodyLength) with
        | (out, some e) => ({ c with out }, some e)
        | (out, none) =>
          tryParseRequests env
            { c with
              out
              bodies := c.bodies ++
                [(c.readBuffer.readable.drop kFrameHeaderBytes).take bodyLength]
              readBuffer := c.readBuffer.retrieve (kFrameHeaderBytes + bodyLength) (by omega) }
  else (c, none)
termination_by c.readBuffer.readableBytes
decreasing_by
  rw [← Buffer.length_readable, Buffer.readable_retrieve, List.length_drop, Buffer.length_readable]
  have : 0 < kFrameHeaderBytes := by decide
  omega

/-- `OnReadable`. -/
def onReadable (env : Env) (c : Connection) : Connection × Option String :=
  match c.readFromSocket with
  | (c, .kPeerClosed) => ({ c with state := .kClosing, shouldClose := true }, none)
  | (c, .kError e) => (c.enterError e, some e)
  | (c, .kWouldBlock) => (c, none)
  | (c, .kData) =>
    match c.tryParseRequests env with
    | (c, some e) => (c.enterError e, some e)
    | (c, none) => ({ c with state := .kOpen }, none)

/-- `OnWritable`. -/
def onWritable (env : Env) (c : Connection) : Connection × Option String :=
  match flushWrites c.out with
  | (out, some e) => ({ c with out }.enterError e, some e)
  | (out, none) =>
    if out.hasPendingWrite then ({ c with out := out.armWriteDeadline env }, none)
    else ({ { c with out }.clearWriteDeadline with state := .kOpen }, none)

/-! ### What the functions do to the connection -/

theorem resumeClosing_fields (c : Connection) :
    c.resumeClosing.shouldClose = c.shouldClose ∧ c.resumeClosing.state = c.state ∧
      c.resumeClosing.lastError = c.lastError ∧ c.resumeClosing.bodies = c.bodies ∧
      c.resumeClosing.readBuffer = c.readBuffer ∧
      c.resumeClosing.out.handed = c.out.handed := by
  unfold resumeClosing
  split <;> exact ⟨rfl, rfl, rfl, rfl, rfl, rfl⟩

/-- What `EnterError` leaves. -/
theorem enterError_fields (c : Connection) (e : String) :
    (c.enterError e).shouldClose = true ∧ (c.enterError e).state = .kError ∧
      (c.enterError e).lastError = (if e = "" then c.lastError else e) ∧
      (c.enterError e).bodies = c.bodies ∧ (c.enterError e).readBuffer = c.readBuffer ∧
      (c.enterError e).out.handed = c.out.handed := by
  unfold enterError resumeWaitersClosing
  dsimp only
  split_ifs <;> simp [resumeClosing_fields, clearReadDeadline, clearWriteDeadline]

/-- The result of `ReadFromSocket` after the answer that ended it, with the
given bytes in the buffer. -/
def readOutcome (ending : RecvResult) (unread : Bytes) : ReadResult :=
  match ending with
  | .eof => .kPeerClosed
  | .error what => .kError ("recv failed: " ++ what)
  | _ => if unread = [] then .kWouldBlock else .kData

theorem readFromSocket_data {c : Connection} {b : UInt8} {bs : Bytes} {i : Inbox}
    (h : recv 4096 c.inbox = (.data b bs, i)) :
    c.readFromSocket =
      readFromSocket { c with inbox := i, readBuffer := c.readBuffer.append (b :: bs) } := by
  rw [readFromSocket]
  split <;> simp_all

theorem readFromSocket_interrupted {c : Connection} {i : Inbox}
    (h : recv 4096 c.inbox = (.interrupted, i)) :
    c.readFromSocket = readFromSocket { c with inbox := i } := by
  rw [readFromSocket]
  split <;> simp_all

/-- **`ReadFromSocket` appends what arrived** up to the answer that ends the
series, and touches nothing but the buffer and the socket. -/
theorem readFromSocket_eq (c : Connection) :
    ∃ b : Buffer, b.readable = c.readBuffer.readable ++ c.inbox.arrived ∧
      c.readFromSocket = ({ c with inbox := c.inbox.afterEnding, readBuffer := b },
        readOutcome c.inbox.ending b.readable) := by
  induction hw : c.inbox.weight using Nat.strongRecOn generalizing c with
  | _ w ih =>
    rcases Inbox.recv_ending 4096 c.inbox with
      ⟨b, bs, i, hr, ha, he, hae⟩ | ⟨i, hr, ha, he, hae⟩ | ⟨hr, ha, hend⟩
    · obtain ⟨b', hb', heq⟩ := ih _ (hw ▸ Inbox.weight_recv_data hr)
        { c with inbox := i, readBuffer := c.readBuffer.append (b :: bs) } rfl
      refine ⟨b', ?_, ?_⟩
      · rw [hb', ha, Buffer.readable_append, List.append_assoc]
      · rw [readFromSocket_data hr, heq, he, hae]
    · obtain ⟨b', hb', heq⟩ :=
        ih _ (hw ▸ Inbox.weight_recv_interrupted hr) { c with inbox := i } rfl
      refine ⟨b', by rw [hb', ha], ?_⟩
      rw [readFromSocket_interrupted hr, heq, he, hae]
    · refine ⟨c.readBuffer, by rw [ha, List.append_nil], ?_⟩
      have hnil : c.readBuffer.readable = [] ↔ c.readBuffer.readableBytes = 0 := by
        rw [← Buffer.length_readable, List.length_eq_zero_iff]
      rw [readFromSocket]
      rcases hend with he | he | ⟨what, he⟩ <;> rw [he] at hr ⊢ <;>
        split <;> simp_all [readOutcome]

/-- The error message of `TryParseRequests` for the way a drive stopped. -/
def stopMessage : Option (Splitter.Stop String) → Option String
  | none => none
  | some .bad => some "invalid request frame length"
  | some (.failed e) => some e

/-- **`TryParseRequests` drives the frame splitter** over the bytes in the
buffer, with `processFrame` as the handler. -/
theorem tryParseRequests_eq (env : Env) (c : Connection) :
    ∃ b : Buffer,
      b.readable = (frameSplitter.drive (processFrame env) c.out c.readBuffer.readable).rest ∧
      c.tryParseRequests env =
        ({ c with
            out := (frameSplitter.drive (processFrame env) c.out c.readBuffer.readable).state
            bodies := c.bodies ++
              (frameSplitter.drive (processFrame env) c.out c.readBuffer.readable).items
            readBuffer := b },
          stopMessage
            (frameSplitter.drive (processFrame env) c.out c.readBuffer.readable).stop) := by
  induction hn : c.readBuffer.readableBytes using Nat.strongRecOn generalizing c with
  | _ n ih =>
    have hlen := c.readBuffer.length_readable
    rw [tryParseRequests]
    by_cases hhead : kFrameHeaderBytes ≤ c.readBuffer.readableBytes
    swap
    · rw [if_neg hhead, Splitter.drive_more (cut_of_short (by omega))]
      exact ⟨c.readBuffer, rfl, by simp [stopMessage]⟩
    rw [if_pos hhead]
    by_cases hvalid : ValidLength (decodeLength c.readBuffer.readable)
    swap
    · rw [decodeFrameHeader_invalid hvalid, Splitter.drive_bad (cut_of_invalid (by omega) hvalid)]
      exact ⟨c.readBuffer, rfl, by simp [stopMessage]⟩
    rw [decodeFrameHeader_valid hvalid]
    dsimp only
    by_cases hbody : c.readBuffer.readableBytes <
        kFrameHeaderBytes + decodeLength c.readBuffer.readable
    · rw [dif_pos hbody, Splitter.drive_more (cut_of_incomplete (by omega) hvalid (by omega))]
      exact ⟨c.readBuffer, rfl, by simp [stopMessage]⟩
    rw [dif_neg hbody]
    have hcut := cut_of_complete hvalid (by omega)
    rcases hp : processFrame env c.out ((c.readBuffer.readable.drop kFrameHeaderBytes).take
        (decodeLength c.readBuffer.readable)) with ⟨out, _ | e⟩
    · have hn' : (c.readBuffer.retrieve (kFrameHeaderBytes +
          decodeLength c.readBuffer.readable) (by omega)).readableBytes < n := by
        have : 0 < kFrameHeaderBytes := by decide
        rw [← Buffer.length_readable, Buffer.readable_retrieve, List.length_drop, hlen]
        omega
      obtain ⟨b, hb, heq⟩ := ih _ hn' { c with
        out
        bodies := c.bodies ++ [(c.readBuffer.readable.drop kFrameHeaderBytes).take
          (decodeLength c.readBuffer.readable)]
        readBuffer := c.readBuffer.retrieve
          (kFrameHeaderBytes + decodeLength c.readBuffer.readable) (by omega) } rfl
      rw [Splitter.drive_item hcut hp, ← Buffer.readable_retrieve _ _ (by omega)]
      refine ⟨b, hb, ?_⟩
      dsimp only
      rw [heq, List.append_assoc]
      rfl
    · rw [Splitter.drive_failed hcut hp]
      exact ⟨c.readBuffer, rfl, by simp [stopMessage]⟩

end Connection
end Server
end MiniRpc
