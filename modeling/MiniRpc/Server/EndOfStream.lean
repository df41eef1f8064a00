/-
# What is handed over when a connection closes

The event loop of a worker (`PollOnce` of `src/server/worker_loop.cpp`) notifies a
connection of what is ready on its socket, gives it the responses of the pool, checks its
deadlines and closes it.  `Connection.act` is what one of these does to the connection, as
the loop of `MiniRpc.Server.WorkerLoop` does (`handleEvent_act`, `deliver_act`,
`tickAll_act`).  What the socket answers is the script of `MiniRpc.Common.Socket`: the bytes
before the end of the stream are all the bytes that the client sent (`Inbox.bytes`),
wherever the answers of `recv` cut them.

A step of the loop comes to `OnReadable` at most once, and only if the coroutine waits to
read or gets to it because all output is flushed (`Connection.reads`).  So a connection may
be marked closing with requests in its buffer or on its socket: because the last bytes are
read together with the EOF, or because the loop marks it while it waits to write.
`handed_iff` says when none is left behind.
-/

import MiniRpc.Server.Reading
import MiniRpc.Server.Session
import MiniRpc.Server.Suspended
import MiniRpc.Server.TaskFrames

namespace MiniRpc

/-- The bytes before the end of the stream, `EAGAIN` or not between them. -/
def Inbox.bytes : Inbox → Bytes
  | .data b bs :: rest => b :: bs ++ Inbox.bytes rest
  | .eof :: _ => []
  | _ :: rest => Inbox.bytes rest
  | [] => []

theorem Inbox.ending_cases (i : Inbox) :
    i.ending = .eof ∨ i.ending = .wouldBlock ∨ ∃ what, i.ending = .error what := by
  induction i with
  | nil => exact Or.inr (Or.inl rfl)
  | cons r rest ih =>
    cases r with
    | data b bs => exact ih
    | interrupted => exact ih
    | eof => exact Or.inl rfl
    | wouldBlock => exact Or.inr (Or.inl rfl)
    | error what => exact Or.inr (Or.inr ⟨what, rfl⟩)

/-- What one series of `recv` calls gets comes first. -/
theorem Inbox.bytes_eq (i : Inbox) : ∃ more, i.bytes = i.arrived ++ more ∧
    (i.ending = .wouldBlock → more = Inbox.bytes i.afterEnding) := by
  induction i with
  | nil => exact ⟨[], rfl, fun _ => rfl⟩
  | cons r rest ih =>
    obtain ⟨more, hmore, hblock⟩ := ih
    cases r with
    | data b bs =>
      refine ⟨more, ?_, hblock⟩
      rw [Inbox.bytes, Inbox.arrived, hmore, List.append_assoc]
    | interrupted => exact ⟨more, hmore, hblock⟩
    | eof => exact ⟨[], rfl, fun h => by cases h⟩
    | wouldBlock => exact ⟨Inbox.bytes rest, rfl, fun _ => rfl⟩
    | error what => exact ⟨Inbox.bytes rest, rfl, fun h => by cases h⟩

namespace Server

open Protocol Splitter

namespace Connection

/-- What the event loop does to one of its connections. -/
inductive Act where
  /-- Step 3 of `PollOnce`, for an event of the connection. -/
  | event (e : ReadyEvent)
  /-- `DrainCompletedResponses` comes to a response of the connection. -/
  | respond (response : RpcResponse)
  | tick (now : Time)
  /-- `CloseConnection`, up to `MarkClosed`. -/
  | close

/-- The connection after it. -/
def act (env : Env) (c : Connection) : Act → Connection
  | .event e =>
    let c := if e.readable then c.notifyReadable env else c
    let c := if e.writable then c.notifyWritable env else c
    if e.hangup then (c.markClosing.notifyReadable env).notifyWritable env else c
  | .respond response =>
    match enqueueResponse env c.out response with
    | (_, some _) => c.closed env
    | (out, none) => ({ c with out }).notifyReadable env
  | .tick now => c.tick now
  | .close => c.closed env

/-- A new connection of a worker, for a clock and a socket that answer as given. -/
def first (env : Env) (readClock writeClock : List Time) (inbox : Inbox) (outbox : Outbox) :
    Connection :=
  startConnectionCoroutine env { new readClock writeClock outbox with inbox }

/-- What the loop does to the connection in turn. -/
def acts (env : Env) (c : Connection) (as : List Act) : Connection := as.foldl (act env) c

/-- The requests in the bytes that were read and not parsed, and in those that the client
sent and that were not read. -/
def remaining (env : Env) (c : Connection) : List RpcRequest :=
  requests env (c.readBuffer.readable ++ c.inbox.bytes)

/-- What is queued when `WaitWritableCo` is over and `OnWritable` has written everything. -/
def flushed (c : Connection) : Option Outbound :=
  match flushWrites c.clearWriteDeadline.out with
  | (_, some _) => none
  | (out, none) => if out.hasPendingWrite then none else some { out with writeDeadline := none }

/-- What is queued when a step comes to `OnReadable`, if it does: the coroutine waits to
read and is notified, or it waits to write, everything is written, and it has been notified
that there is something to read. -/
def reads (env : Env) (c : Connection) : Act → Option Outbound
  | .event e =>
    if c.readWaiter then if e.readable then some c.out else none
    else if e.writable && (e.readable || c.readReady) then c.flushed
    else none
  | .respond response =>
    match enqueueResponse env c.out response with
    | (_, some _) => none
    | (out, none) => if c.readWaiter then some out else none
  | .tick _ => none
  | .close => none

/-- The bytes in the buffer when `ReadFromSocket` is over. -/
def unparsed (c : Connection) : Bytes := c.readBuffer.readable ++ c.inbox.arrived

/-- The step leaves no request behind: none remains, or it reads what there is, up to
`EAGAIN`, which completes all the requests that remain, and no frame before the last of them
fails. -/
def Spares (env : Env) (c : Connection) (a : Act) : Prop :=
  c.remaining env = [] ∨ ∃ out, c.reads env a = some out ∧ c.inbox.ending = .wouldBlock ∧
    requests env c.unparsed = c.remaining env ∧
    (reached env out (frameSplitter.split c.unparsed).items).filterMap (business env) =
      requests env c.unparsed

/-- What `OnReadable` hands over, with `out` to queue the responses in. -/
def parsed (env : Env) (c : Connection) (out : Outbound) : List RpcRequest :=
  if c.inbox.ending = .wouldBlock then
    (reached env out (frameSplitter.split c.unparsed).items).filterMap (business env)
  else []

/-- `c'` has the bytes and the requests that `c` has. -/
structure Unread (c c' : Connection) : Prop where
  bodies : c'.bodies = c.bodies
  readBuffer : c'.readBuffer = c.readBuffer
  inbox : c'.inbox = c.inbox
  handed : c'.out.handed = c.out.handed
  closing : c.shouldClose = true → c'.shouldClose = true

namespace Unread

variable {c c' c'' : Connection}

theorem refl (c : Connection) : Unread c c := ⟨rfl, rfl, rfl, rfl, id⟩

theorem trans (h : Unread c c') (h' : Unread c' c'') : Unread c c'' :=
  ⟨h'.bodies.trans h.bodies, h'.readBuffer.trans h.readBuffer, h'.inbox.trans h.inbox,
    h'.handed.trans h.handed, fun hc => h'.closing (h.closing hc)⟩

theorem of_same (h : Same c c') (hi : c'.inbox = c.inbox) : Unread c c' :=
  ⟨h.bodies, h.readBuffer, hi, h.keeps.handed, h.closing⟩

theorem inbox_resumeClosing (c : Connection) : c.resumeClosing.inbox = c.inbox := by
  unfold Connection.resumeClosing
  split <;> rfl

theorem inbox_resumeWaitersClosing (c : Connection) :
    c.resumeWaitersClosing.inbox = c.inbox := by
  unfold Connection.resumeWaitersClosing
  dsimp only
  split_ifs <;> simp only [inbox_resumeClosing]

theorem enterError (c : Connection) (e : String) : Unread c (c.enterError e) :=
  of_same (.enterError c e) (inbox_resumeWaitersClosing _)

theorem markClosing (c : Connection) : Unread c c.markClosing :=
  of_same (.markClosing c) (inbox_resumeWaitersClosing _)

theorem tick (now : Time) (c : Connection) : Unread c (c.tick now) := by
  unfold Connection.tick
  split_ifs
  · exact .refl c
  · exact .enterError c _
  · exact .enterError c _
  · exact .refl c

theorem onWritable (env : Env) (c : Connection) : Unread c (c.onWritable env).1 := by
  have hkeeps := Keeps.onWritable env c
  refine ⟨hkeeps.bodies, hkeeps.readBuffer, ?_, hkeeps.handed, hkeeps.closing⟩
  unfold Connection.onWritable
  split
  · exact (enterError _ _).inbox
  · split_ifs <;> rfl

/-- A coroutine that is resumed to find the flag set reads nothing. -/
theorem resume_closing (env : Env) (h : c.shouldClose = true) : Unread c (c.resume env) := by
  rw [resume_of_shouldClose env h]
  exact of_same (.resumeClosing c) (inbox_resumeClosing c)

theorem notifyReadable_closing (env : Env) (h : c.shouldClose = true) :
    Unread c (c.notifyReadable env) := by
  have hset : Unread c { c with readReady := true, state := .kReading } := ⟨rfl, rfl, rfl, rfl, id⟩
  have hwaiter : Unread c { c with readReady := true, state := .kReading, readWaiter := false } :=
    ⟨rfl, rfl, rfl, rfl, id⟩
  unfold Connection.notifyReadable
  dsimp only
  split_ifs
  · exact hwaiter.trans (resume_closing env (hwaiter.closing h))
  · exact hset

theorem notifyWritable_closing (env : Env) (h : c.shouldClose = true) :
    Unread c (c.notifyWritable env) := by
  have hset : Unread c { c with writeReady := true, state := .kWriting } := ⟨rfl, rfl, rfl, rfl, id⟩
  have hwaiter : Unread c { c with writeReady := true, state := .kWriting, writeWaiter := false } :=
    ⟨rfl, rfl, rfl, rfl, id⟩
  unfold Connection.notifyWritable
  dsimp only
  split_ifs
  · exact hwaiter.trans (resume_closing env (hwaiter.closing h))
  · exact hset

theorem closed (env : Env) (c : Connection) : Unread c (c.closed env) := by
  have hmark := c.shouldClose_markClosing
  exact ((markClosing c).trans (notifyReadable_closing env hmark)).trans
    (notifyWritable_closing env (shouldClose_notifyReadable env hmark))

end Unread

/-! ### What one step reads -/

theorem onReadable_handed (env : Env) (c : Connection) :
    (c.onReadable env).1.out.handed = c.out.handed ++ c.parsed env c.out := by
  obtain ⟨b, hb, hread⟩ := c.readFromSocket_eq
  unfold onReadable
  rw [hread, parsed, unparsed, ← hb]
  rcases c.inbox.ending_cases with hend | hend | ⟨what, hend⟩
  · simp [hend, readOutcome]
  · rw [if_pos hend, hend]
    by_cases hnil : b.readable = []
    · simp [readOutcome, hnil, split, drive_more cut_nil, reached]
    · obtain ⟨b', -, hparse⟩ := tryParseRequests_eq env
        { c with inbox := c.inbox.afterEnding, readBuffer := b }
      dsimp only at hparse
      simp only [readOutcome, if_neg hnil, hparse]
      rw [← drive_handed]
      cases stopMessage (frameSplitter.drive (processFrame env) c.out b.readable).stop with
      | none => rfl
      | some e => exact (enterError_fields _ e).2.2.2.2.2
  · simp [hend, readOutcome, enterError_fields]

/-- A connection that stays open has read up to `EAGAIN`. -/
theorem onReadable_open (env : Env) {c : Connection}
    (hopen : (c.onReadable env).1.shouldClose = false) :
    c.inbox.ending = .wouldBlock ∧ (c.onReadable env).1.inbox = c.inbox.afterEnding := by
  obtain ⟨b, hb, hread⟩ := c.readFromSocket_eq
  unfold onReadable at hopen ⊢
  rw [hread] at hopen ⊢
  rcases c.inbox.ending_cases with hend | hend | ⟨what, hend⟩
  · simp [hend, readOutcome] at hopen
  · refine ⟨hend, ?_⟩
    cases readOutcome c.inbox.ending b.readable with
    | kWouldBlock => rfl
    | kPeerClosed => rfl
    | kError e => exact (Unread.enterError _ e).inbox
    | kData =>
      obtain ⟨b', -, hparse⟩ := tryParseRequests_eq env
        { c with inbox := c.inbox.afterEnding, readBuffer := b }
      dsimp only
      rw [hparse]
      dsimp only
      cases stopMessage (frameSplitter.drive (processFrame env) c.out b.readable).stop with
      | none => rfl
      | some e => exact (Unread.enterError _ e).inbox
  · simp [hend, readOutcome, enterError_fields] at hopen

/-- The end of the stream closes the connection. -/
theorem onReadable_eof (env : Env) {c : Connection} (hend : c.inbox.ending = .eof) :
    (c.onReadable env).1.shouldClose = true := by
  by_contra hopen
  have := (onReadable_open env (by simpa using hopen)).1
  rw [hend] at this
  cases this

theorem noNewFlag_proceed (env : Env) (place : Place) (c : Connection) :
    NoNewFlag c (c.proceed env place) := by
  fun_induction proceed env place c with
  | case1 c hclose => exact ⟨le_rfl, le_rfl⟩
  | case2 c hopen hready ih => exact ih
  | case3 c hopen hready => exact ⟨le_rfl, le_rfl⟩
  | case4 c c₁ hclose => exact ⟨Bool.false_le _, le_rfl⟩
  | case5 c c₁ hopen c₂ e hread =>
    have hclear : NoNewFlag c c₁ := ⟨Bool.false_le _, le_rfl⟩
    have hflags := noNewFlag_onReadable env c₁
    rw [hread] at hflags
    exact hclear.trans hflags
  | case6 c c₁ hopen c₂ hread hclose =>
    have hclear : NoNewFlag c c₁ := ⟨Bool.false_le _, le_rfl⟩
    have hflags := noNewFlag_onReadable env c₁
    rw [hread] at hflags
    exact hclear.trans hflags
  | case7 c c₁ hopen c₂ hread hclose ih =>
    have hclear : NoNewFlag c c₁ := ⟨Bool.false_le _, le_rfl⟩
    have hflags := noNewFlag_onReadable env c₁
    rw [hread] at hflags
    exact (hclear.trans hflags).trans ih
  | case8 c hnone ih => exact ih
  | case9 c hpending hready ih => exact ih
  | case10 c hpending hready => exact ⟨le_rfl, le_rfl⟩
  | case11 c c₁ hclose => exact ⟨le_rfl, Bool.false_le _⟩
  | case12 c c₁ hopen c₂ e hwrite =>
    have hclear : NoNewFlag c c₁ := ⟨le_rfl, Bool.false_le _⟩
    have hflags := noNewFlag_onWritable env c₁
    rw [hwrite] at hflags
    exact hclear.trans hflags
  | case13 c c₁ hopen c₂ hwrite hclose =>
    have hclear : NoNewFlag c c₁ := ⟨le_rfl, Bool.false_le _⟩
    have hflags := noNewFlag_onWritable env c₁
    rw [hwrite] at hflags
    exact hclear.trans hflags
  | case14 c c₁ hopen c₂ hwrite hclose ih =>
    have hclear : NoNewFlag c c₁ := ⟨le_rfl, Bool.false_le _⟩
    have hflags := noNewFlag_onWritable env c₁
    rw [hwrite] at hflags
    exact (hclear.trans hflags).trans ih

/-- A coroutine that goes on without the ready flag, and not from `WaitReadableCo`, reads
nothing. -/
theorem unread_proceed (env : Env) {place : Place} {c : Connection} (hplace : place ≠ .afterRead)
    (hready : c.readReady = false) : Unread c (c.proceed env place) := by
  have hwritten : ∀ {c c₂ : Connection} {e : Option String},
      ({ c.clearWriteDeadline with writeReady := false }).onWritable env = (c₂, e) →
      Unread c c₂ := by
    intro c c₂ e hwrite
    have hclear : Unread c { c.clearWriteDeadline with writeReady := false } :=
      ⟨rfl, rfl, rfl, rfl, id⟩
    have h := Unread.onWritable env { c.clearWriteDeadline with writeReady := false }
    rw [hwrite] at h
    exact hclear.trans h
  fun_induction proceed env place c with
  | case1 c hclose => exact ⟨rfl, rfl, rfl, rfl, id⟩
  | case2 c hopen hready' ih =>
    rw [hready] at hready'
    cases hready'
  | case3 c hopen hready' => exact ⟨rfl, rfl, rfl, rfl, id⟩
  | case4 c c₁ hclose => exact absurd rfl hplace
  | case5 c c₁ hopen c₂ e hread => exact absurd rfl hplace
  | case6 c c₁ hopen c₂ hread hclose => exact absurd rfl hplace
  | case7 c c₁ hopen c₂ hread hclose ih => exact absurd rfl hplace
  | case8 c hnone ih => exact ih (by decide) hready
  | case9 c hpending hready' ih => exact ih (by decide) hready
  | case10 c hpending hready' => exact ⟨rfl, rfl, rfl, rfl, id⟩
  | case11 c c₁ hclose => exact ⟨rfl, rfl, rfl, rfl, id⟩
  | case12 c c₁ hopen c₂ e hwrite =>
    exact (hwritten hwrite).trans ⟨rfl, rfl, rfl, rfl, id⟩
  | case13 c c₁ hopen c₂ hwrite hclose =>
    exact (hwritten hwrite).trans ⟨rfl, rfl, rfl, rfl, id⟩
  | case14 c c₁ hopen c₂ hwrite hclose ih =>
    have hflags := noNewFlag_onWritable env c₁
    rw [hwrite] at hflags
    exact (hwritten hwrite).trans (ih (by decide) (le_bot_iff.1 (hflags.1.trans_eq hready)))

/-- From `c` to `c'`, `OnReadable` was called with `out` to queue the responses in, or not
at all, and nothing else was read. -/
def Went (env : Env) (c c' : Connection) : Option Outbound → Prop
  | none => Unread c c'
  | some out => out.handed = c.out.handed ∧ ∃ d : Connection, d.bodies = c.bodies ∧
    d.readBuffer = c.readBuffer ∧ d.inbox = c.inbox ∧ d.out = out ∧ d.shouldClose = false ∧
    Unread (d.onReadable env).1 c'

theorem Went.trans {env : Env} {c c' c'' : Connection} {out : Option Outbound}
    (h : Went env c c' out) (h' : Unread c' c'') : Went env c c'' out := by
  cases out with
  | none => exact Unread.trans h h'
  | some out =>
    obtain ⟨hhanded, d, hbodies, hbuffer, hinbox, hout, hopen, hread⟩ := h
    exact ⟨hhanded, d, hbodies, hbuffer, hinbox, hout, hopen, hread.trans h'⟩

theorem Went.head {env : Env} {c c' c'' : Connection} {out : Option Outbound}
    (h : Unread c c') (h' : Went env c' c'' out) : Went env c c'' out := by
  cases out with
  | none => exact h.trans h'
  | some out =>
    obtain ⟨hhanded, d, hbodies, hbuffer, hinbox, hout, hopen, hread⟩ := h'
    exact ⟨hhanded.trans h.handed, d, hbodies.trans h.bodies, hbuffer.trans h.readBuffer,
      hinbox.trans h.inbox, hout, hopen, hread⟩

/-- The coroutine reads once when its wait to read is over. -/
theorem went_afterRead (env : Env) {c : Connection} (hopen : c.shouldClose = false) :
    Went env c (c.proceed env .afterRead) (some c.out) ∧
      (c.proceed env .afterRead).readReady = false := by
  have hflags := noNewFlag_onReadable env { c.clearReadDeadline with readReady := false }
  have hgo : Unread (({ c.clearReadDeadline with readReady := false }).onReadable env).1
      (c.proceed env .afterRead) ∧ (c.proceed env .afterRead).readReady = false := by
    rw [proceed]
    dsimp only
    rw [if_neg (by simp [clearReadDeadline, hopen])]
    split
    · rename_i c₂ e heq
      rw [heq] at hflags ⊢
      exact ⟨⟨rfl, rfl, rfl, rfl, id⟩, le_bot_iff.1 hflags.1⟩
    · rename_i c₂ heq
      rw [heq] at hflags ⊢
      have hready : c₂.readReady = false := le_bot_iff.1 hflags.1
      split_ifs
      · exact ⟨⟨rfl, rfl, rfl, rfl, id⟩, hready⟩
      · exact ⟨unread_proceed env (by decide) hready,
          le_bot_iff.1 ((noNewFlag_proceed env .writeLoop c₂).1.trans_eq hready)⟩
  exact ⟨⟨rfl, { c.clearReadDeadline with readReady := false }, rfl, rfl, rfl, rfl, hopen, hgo.1⟩,
    hgo.2⟩

theorem onWritable_some {env : Env} {c c' : Connection} {e : String}
    (h : c.onWritable env = (c', some e)) : (flushWrites c.out).2 = some e := by
  unfold onWritable at h
  split at h
  · rename_i out e' heq
    rw [heq]
    exact (Prod.mk.inj h).2
  · split_ifs at h <;> cases (Prod.mk.inj h).2

theorem onWritable_none {env : Env} {c c' : Connection} (h : c.onWritable env = (c', none)) :
    ∃ out, flushWrites c.out = (out, none) ∧
      (out.hasPendingWrite = true ∧ c' = { c with out := out.armWriteDeadline env } ∨
        out.hasPendingWrite = false ∧
          c' = { c with out := { out with writeDeadline := none }, state := .kOpen }) := by
  unfold onWritable at h
  split at h
  · cases (Prod.mk.inj h).2
  · rename_i out heq
    refine ⟨out, heq, ?_⟩
    split_ifs at h with hpending
    · exact Or.inl ⟨hpending, (Prod.mk.inj h).1.symm⟩
    · exact Or.inr ⟨by simpa using hpending, (Prod.mk.inj h).1.symm⟩

theorem proceed_pending (env : Env) {c : Connection} (hpending : c.out.hasPendingWrite = true)
    (hready : c.writeReady = false) : c.proceed env .writeLoop = c.suspendWritable env := by
  rw [proceed, if_neg (by simp [hpending]), if_neg (by simp [hready])]

theorem proceed_readable (env : Env) {c : Connection} (hpending : c.out.hasPendingWrite = false)
    (hopen : c.shouldClose = false) (hready : c.readReady = true) :
    c.proceed env .writeLoop = c.proceed env .afterRead := by
  generalize hgo : c.proceed env .afterRead = c'
  rw [proceed, if_pos (by simp [hpending]), proceed, if_neg (by simp [hopen]), if_pos hready]
  exact hgo

/-- The coroutine reads when its wait to write is over and everything is written, if it has
been notified. -/
theorem went_afterWrite (env : Env) {c : Connection} (hopen : c.shouldClose = false)
    (hready : c.readReady = true) : Went env c (c.proceed env .afterWrite) c.flushed := by
  have hclear : Unread c { c.clearWriteDeadline with writeReady := false } :=
    ⟨rfl, rfl, rfl, rfl, id⟩
  have hwritten := Unread.onWritable env { c.clearWriteDeadline with writeReady := false }
  rw [proceed]
  dsimp only
  rw [if_neg (by simp [clearWriteDeadline, hopen])]
  split
  · rename_i c₂ e heq
    have hfailed := onWritable_some heq
    have hflush : c.flushed = none := by
      rw [flushed]
      split
      · rfl
      · rename_i out hout
        rw [hout] at hfailed
        cases hfailed
    rw [heq] at hwritten
    rw [hflush]
    exact (hclear.trans hwritten).trans ⟨rfl, rfl, rfl, rfl, id⟩
  · rename_i c₂ heq
    rw [heq] at hwritten
    replace hwritten := hclear.trans hwritten
    obtain ⟨out, hout, ⟨hpending, hc₂⟩ | ⟨hnone, hc₂⟩⟩ := onWritable_none heq
    · have hflush : c.flushed = none := by
        rw [flushed, hout]
        exact if_pos hpending
      have hpending₂ : c₂.out.hasPendingWrite = true := hc₂ ▸ hpending
      rw [hflush, if_neg (by simp [hc₂, clearWriteDeadline, hopen]),
        proceed_pending env hpending₂ (by rw [hc₂])]
      exact hwritten.trans ⟨rfl, rfl, rfl, rfl, id⟩
    · have hflush : c.flushed = some { out with writeDeadline := none } := by
        rw [flushed, hout]
        exact if_neg (by simp [hnone])
      have hopen₂ : c₂.shouldClose = false := hc₂ ▸ hopen
      have hnone₂ : c₂.out.hasPendingWrite = false := hc₂ ▸ hnone
      have hout₂ : c₂.out = { out with writeDeadline := none } := by rw [hc₂]
      rw [hflush, if_neg (by simp [hopen₂]),
        proceed_readable env hnone₂ hopen₂ (by rw [hc₂]; exact hready), ← hout₂]
      exact Went.head hwritten (went_afterRead env hopen₂).1

/-- A connection that waits to read does so when it is notified. -/
theorem went_notifyReadable (env : Env) {c : Connection} (hcoroutine : c.coroutine = .waitReadable)
    (hwaiter : c.readWaiter = true) (hopen : c.shouldClose = false) :
    Went env c (c.notifyReadable env) (some c.out) ∧ (c.notifyReadable env).readReady = false := by
  unfold notifyReadable resume
  simp only [hwaiter, if_true, hcoroutine]
  exact went_afterRead env (c := { c with
    readReady := true, state := .kReading, readWaiter := false, coroutine := .waitReadable }) hopen

/-- A connection that waits to write and was notified of something to read. -/
theorem went_notifyWritable (env : Env) {c : Connection} (hcoroutine : c.coroutine = .waitWritable)
    (hwaiter : c.writeWaiter = true) (hopen : c.shouldClose = false) (hready : c.readReady = true) :
    Went env c (c.notifyWritable env) c.flushed := by
  unfold notifyWritable resume
  simp only [hwaiter, if_true, hcoroutine]
  have hset : Unread c { c with
      writeReady := true, state := .kWriting, writeWaiter := false
      coroutine := .waitWritable } := ⟨rfl, rfl, rfl, rfl, id⟩
  exact Went.head hset (went_afterWrite env hopen hready)

/-- A connection that does not wait to write, or was notified of nothing to read. -/
theorem unread_notifyWritable (env : Env) {c : Connection} (h : c.Waits)
    (hready : c.writeWaiter = true → c.readReady = false) : Unread c (c.notifyWritable env) := by
  rcases h with h | h | h
  · exact .notifyWritable_closing env h
  · unfold notifyWritable
    simp only [h.writeWaiter, Bool.false_eq_true, if_false]
    exact ⟨rfl, rfl, rfl, rfl, id⟩
  · unfold notifyWritable resume
    simp only [h.writeWaiter, if_true, h.coroutine]
    have hset : Unread c { c with
        writeReady := true, state := .kWriting, writeWaiter := false
        coroutine := .waitWritable } := ⟨rfl, rfl, rfl, rfl, id⟩
    exact hset.trans (unread_proceed env (by decide) (hready h.writeWaiter))

/-- **What one step of the loop reads.** -/
theorem went_act (env : Env) {c : Connection} (h : c.Waits) (hopen : c.shouldClose = false)
    (a : Act) : Went env c (c.act env a) (c.reads env a) := by
  replace h := h.resolve_left (by simp [hopen])
  cases a with
  | event e =>
    -- what a hang-up does comes last and reads nothing
    have hhangup : ∀ c' : Connection, Unread c' (if e.hangup then
        (c'.markClosing.notifyReadable env).notifyWritable env else c') := by
      intro c'
      split_ifs
      · exact .closed env c'
      · exact .refl c'
    rw [act]
    refine Went.trans ?_ (hhangup _)
    rcases h with h | h
    · have hread : c.reads env (.event e) = if e.readable then some c.out else none := by
        rw [reads, if_pos h.readWaiter]
      rw [hread]
      by_cases hr : e.readable = true
      · obtain ⟨hwent, hready⟩ := went_notifyReadable env h.coroutine h.readWaiter hopen
        have hwaits := waits_notifyReadable env (Waits.parked (Or.inr (Or.inl h)))
        simp only [hr, if_true]
        refine hwent.trans ?_
        split_ifs
        · exact unread_notifyWritable env hwaits fun _ => hready
        · exact .refl _
      · simp only [hr, Bool.false_eq_true, if_false]
        split_ifs
        · exact unread_notifyWritable env (Or.inr (Or.inl h)) fun hw => by
            rw [h.writeWaiter] at hw
            cases hw
        · exact .refl c
    · have hread : c.reads env (.event e) =
          if e.writable && (e.readable || c.readReady) then c.flushed else none := by
        rw [reads, if_neg (by simp [h.readWaiter])]
      -- the flag is set, and the coroutine goes on to wait
      obtain ⟨c₁, hc₁, hflushed, hset, hready, hopen₁, hwrite⟩ : ∃ c₁ : Connection,
          (if e.readable then c.notifyReadable env else c) = c₁ ∧ c₁.flushed = c.flushed ∧
          Unread c c₁ ∧ c₁.readReady = (e.readable || c.readReady) ∧
          c₁.shouldClose = false ∧ c₁.AtWrite := by
        refine ⟨_, rfl, ?_⟩
        split_ifs with hr
        · unfold notifyReadable
          simp only [h.readWaiter, Bool.false_eq_true, if_false, hr, Bool.true_or]
          exact ⟨rfl, ⟨rfl, rfl, rfl, rfl, id⟩, trivial, hopen, h.coroutine, h.writeWaiter,
            h.writeDeadline, h.writeBuffer, rfl, h.readDeadline⟩
        · exact ⟨rfl, .refl c, by simp [hr], hopen, h⟩
      rw [hread, hc₁, ← hready, ← hflushed]
      refine Went.head hset ?_
      by_cases hw : e.writable = true
      · by_cases hr : c₁.readReady = true
        · simp only [hw, hr, Bool.and_self, if_true]
          exact went_notifyWritable env hwrite.coroutine hwrite.writeWaiter hopen₁ hr
        · simp only [hw, hr, Bool.and_false, Bool.false_eq_true, if_false, if_true]
          exact unread_notifyWritable env (Or.inr (Or.inr hwrite)) fun _ => by simpa using hr
      · simp only [hw, Bool.false_and, Bool.false_eq_true, if_false]
        exact Unread.refl c₁
  | respond response =>
    rw [act, reads]
    have hhanded := enqueueResponse_handed env c.out response
    cases hq : enqueueResponse env c.out response with
    | mk out failure =>
      rw [hq] at hhanded
      cases failure with
      | some e => exact Unread.closed env c
      | none =>
        have hqueued : Unread c { c with out } := ⟨rfl, rfl, rfl, hhanded, id⟩
        dsimp only
        rcases h with h | h
        · rw [if_pos h.readWaiter]
          exact Went.head hqueued (went_notifyReadable env (c := { c with out }) h.coroutine
            h.readWaiter hopen).1
        · rw [if_neg (by simp [h.readWaiter])]
          unfold notifyReadable
          simp only [h.readWaiter, Bool.false_eq_true, if_false]
          exact ⟨rfl, rfl, rfl, hhanded, id⟩
  | tick now => exact Unread.tick now c
  | close => exact Unread.closed env c

/-! ### A run of the loop -/

/-- Where an open connection stands in the bytes that the client sends: its requests up to
here are handed over, and the others remain. -/
structure Tracks (env : Env) (sent : Bytes) (c : Connection) : Prop where
  waits : c.Waits
  handed : c.out.handed = c.bodies.filterMap (business env)
  received : c.received ++ c.inbox.bytes = sent
  sized : ∀ body ∈ c.bodies, ValidLength body.length

/-- The requests are those handed over and those that remain. -/
theorem Tracks.requests_eq {env : Env} {sent : Bytes} {c : Connection} (h : c.Tracks env sent) :
    requests env sent = c.out.handed ++ c.remaining env := by
  rw [← h.received, h.handed, remaining, requests, requests, Connection.received,
    List.append_assoc, split_stream_items h.sized, List.filterMap_append]

theorem Tracks.first (env : Env) (readClock writeClock : List Time) (inbox : Inbox)
    (outbox : Outbox) :
    Tracks env inbox.bytes (first env readClock writeClock inbox outbox) := by
  have hfirst := startConnectionCoroutine_new env readClock writeClock outbox inbox
  refine ⟨Or.inr (Or.inl (atRead_start env readClock writeClock outbox inbox)), ?_, ?_, ?_⟩
  · rw [Connection.first, hfirst]
    rfl
  · rw [Connection.first, hfirst]
    rfl
  · rw [Connection.first, hfirst]
    simp [suspendReadable, armReadDeadline, Connection.new]

theorem waits_act (env : Env) {c : Connection} (h : c.Waits) (a : Act) : (c.act env a).Waits := by
  have hclosed : ∀ c : Connection, (c.closed env).Waits := fun c =>
    Or.inl ((Unread.notifyWritable_closing env
      (shouldClose_notifyReadable env c.shouldClose_markClosing)).closing
        (shouldClose_notifyReadable env c.shouldClose_markClosing))
  cases a with
  | event e =>
    have hread : Waits (if e.readable then c.notifyReadable env else c) := by
      split_ifs
      · exact waits_notifyReadable env h.parked
      · exact h
    rw [act]
    generalize (if e.readable then c.notifyReadable env else c) = c₁ at hread ⊢
    have hwrite : Waits (if e.writable then c₁.notifyWritable env else c₁) := by
      split_ifs
      · exact waits_notifyWritable env hread
      · exact hread
    generalize (if e.writable then c₁.notifyWritable env else c₁) = c₂ at hwrite ⊢
    split_ifs
    · exact hclosed c₂
    · exact hwrite
  | respond response =>
    rw [act]
    split
    · exact hclosed c
    · rename_i out hq
      exact waits_notifyReadable env (h.enqueueResponse hq)
  | tick now =>
    rw [act]
    unfold tick
    split_ifs
    · exact h
    · exact Or.inl (enterError_fields _ _).1
    · exact Or.inl (enterError_fields _ _).1
    · exact h
  | close => exact hclosed c

/-- Once the connection is closing, no step hands over a request. -/
theorem act_closing (env : Env) {c : Connection} (h : c.shouldClose = true) (a : Act) :
    (c.act env a).shouldClose = true ∧ (c.act env a).out.handed = c.out.handed := by
  suffices hunread : Unread c (c.act env a) from ⟨hunread.closing h, hunread.handed⟩
  cases a with
  | event e =>
    have hread : Unread c (if e.readable then c.notifyReadable env else c) := by
      split_ifs
      · exact .notifyReadable_closing env h
      · exact .refl c
    rw [act]
    generalize (if e.readable then c.notifyReadable env else c) = c₁ at hread ⊢
    have hwrite : Unread c (if e.writable then c₁.notifyWritable env else c₁) := by
      split_ifs
      · exact hread.trans (.notifyWritable_closing env (hread.closing h))
      · exact hread
    generalize (if e.writable then c₁.notifyWritable env else c₁) = c₂ at hwrite ⊢
    split_ifs
    · exact hwrite.trans (.closed env c₂)
    · exact hwrite
  | respond response =>
    have hhanded := enqueueResponse_handed env c.out response
    rw [act]
    split
    · exact .closed env c
    · rename_i out hq
      rw [hq] at hhanded
      have hqueued : Unread c { c with out } := ⟨rfl, rfl, rfl, hhanded, id⟩
      exact hqueued.trans (.notifyReadable_closing env (c := { c with out }) h)
  | tick now => exact .tick now c
  | close => exact .closed env c

/-- The requests that a step hands over. -/
def taken (env : Env) (c : Connection) (a : Act) : List RpcRequest :=
  (c.reads env a).elim [] (c.parsed env)

/-- **What one step hands over.** -/
theorem act_handed (env : Env) {c : Connection} (h : c.Waits) (hopen : c.shouldClose = false)
    (a : Act) : (c.act env a).out.handed = c.out.handed ++ c.taken env a := by
  have hwent := went_act env h hopen a
  unfold taken
  cases hreads : c.reads env a with
  | none =>
    rw [hreads] at hwent
    rw [Unread.handed hwent, Option.elim_none, List.append_nil]
  | some out =>
    rw [hreads] at hwent
    obtain ⟨hhanded, d, -, hbuffer, hinbox, rfl, -, hread⟩ := hwent
    rw [hread.handed, onReadable_handed, hhanded, Option.elim_some]
    simp only [parsed, unparsed, hbuffer, hinbox]

/-- **A step that leaves the connection open** leaves it where it stands in the stream. -/
theorem Tracks.act {env : Env} {sent : Bytes} {c : Connection} (h : c.Tracks env sent)
    (hopen : c.shouldClose = false) {a : Act} (hopen' : (c.act env a).shouldClose = false) :
    Tracks env sent (c.act env a) := by
  have hwaits := waits_act env h.waits a
  have hwent := went_act env h.waits hopen a
  cases hreads : c.reads env a with
  | none =>
    rw [hreads] at hwent
    have hunread : Unread c (c.act env a) := hwent
    refine ⟨hwaits, ?_, ?_, ?_⟩
    · rw [hunread.handed, hunread.bodies, h.handed]
    · rw [Connection.received, hunread.bodies, hunread.readBuffer, hunread.inbox]
      exact h.received
    · rw [hunread.bodies]
      exact h.sized
  | some out =>
    rw [hreads] at hwent
    obtain ⟨hhanded, d, hbodies, hbuffer, hinbox, rfl, hopen₁, hread⟩ := hwent
    have hopen₂ : (d.onReadable env).1.shouldClose = false := by
      rw [← Bool.not_eq_true]
      intro hclose
      rw [hread.closing hclose] at hopen'
      cases hopen'
    obtain ⟨items, extra, hreads', hextra⟩ := onReadable_reads env d
    obtain rfl : extra = none := by
      by_contra hne
      rw [hextra hne] at hopen₂
      cases hopen₂
    obtain ⟨hending, hafter⟩ := onReadable_open env hopen₂
    refine ⟨hwaits, ?_, ?_, ?_⟩
    · rw [hread.handed, hread.bodies, hreads'.handed, hreads'.bodies, hbodies, hhanded, h.handed]
      simp
    · obtain ⟨more, hmore, hblock⟩ := d.inbox.bytes_eq
      rw [Connection.received, hread.bodies, hread.readBuffer, hread.inbox, hafter,
        ← hblock hending]
      have hreceived := hreads'.received
      rw [Connection.received, Connection.received, hbodies, hbuffer] at hreceived
      rw [hreceived, List.append_assoc, ← hmore, hinbox]
      exact h.received
    · rw [hread.bodies, hreads'.bodies, hbodies]
      intro body hbody
      rcases List.mem_append.1 hbody with hbody | hbody
      · exact h.sized body hbody
      · exact hreads'.sized body hbody

theorem acts_closing (env : Env) {c : Connection} (h : c.shouldClose = true) (as : List Act) :
    (c.acts env as).shouldClose = true ∧ (c.acts env as).out.handed = c.out.handed := by
  induction as generalizing c with
  | nil => exact ⟨h, rfl⟩
  | cons a as ih =>
    obtain ⟨hclose, hhanded⟩ := act_closing env h a
    obtain ⟨hclose', hhanded'⟩ := ih hclose
    exact ⟨hclose', hhanded'.trans hhanded⟩

/-- **A connection that is open after a run** stands somewhere in the stream. -/
theorem Tracks.acts {env : Env} {sent : Bytes} {c : Connection} (h : c.Tracks env sent)
    {as : List Act} (hopen : (c.acts env as).shouldClose = false) :
    Tracks env sent (c.acts env as) := by
  induction as generalizing c with
  | nil => exact h
  | cons a as ih =>
    have hstill : ∀ {d : Connection}, (d.acts env as).shouldClose = false →
        d.shouldClose = false := by
      intro d hd
      rw [← Bool.not_eq_true]
      intro hclose
      rw [(acts_closing env hclose as).1] at hd
      cases hd
    have hnext : (c.act env a).shouldClose = false := hstill hopen
    have hnow : c.shouldClose = false := by
      rw [← Bool.not_eq_true]
      intro hclose
      rw [(act_closing env hclose a).1] at hnext
      cases hnext
    exact ih (h.act hnow hnext) hopen

/-- The bytes that a series of `recv` calls gets are the first of those that remain. -/
theorem requests_unparsed_le (env : Env) (c : Connection) :
    requests env c.unparsed <+: c.remaining env := by
  obtain ⟨more, hmore, -⟩ := c.inbox.bytes_eq
  rw [remaining, hmore, ← List.append_assoc]
  exact (split_items_le _ _).filterMap _

/-- A step hands over all the requests that remain exactly if it leaves none behind. -/
theorem taken_eq_remaining_iff (env : Env) (c : Connection) (a : Act) :
    c.taken env a = c.remaining env ↔ c.Spares env a := by
  have hle := requests_unparsed_le env c
  have hreached : ∀ out, (reached env out (frameSplitter.split c.unparsed).items).filterMap
      (business env) <+: requests env c.unparsed := fun out => (reached_le _ _ _).filterMap _
  have hnil : c.taken env a = [] → (c.taken env a = c.remaining env ↔ c.remaining env = []) :=
    fun h => by rw [h, eq_comm]
  unfold Spares
  cases hreads : c.reads env a with
  | none =>
    rw [hnil (by rw [taken, hreads]; rfl)]
    simp
  | some out =>
    have htaken : c.taken env a = c.parsed env out := by
      rw [taken, hreads]
      rfl
    by_cases hend : c.inbox.ending = .wouldBlock
    · rw [parsed, if_pos hend] at htaken
      rw [htaken]
      constructor
      · intro heq
        have hfull : requests env c.unparsed = c.remaining env :=
          hle.eq_of_length_le (heq ▸ (hreached out).length_le)
        exact Or.inr ⟨out, rfl, hend, hfull, heq.trans hfull.symm⟩
      · rintro (hnone | ⟨out', hout', -, hfull, hall⟩)
        · have hnone' := (hreached out).trans hle
          rw [hnone, List.prefix_nil] at hnone'
          rw [hnone', hnone]
        · obtain rfl := Option.some.inj hout'
          exact hall.trans hfull
    · rw [hnil (by rw [htaken, parsed, if_neg hend])]
      simp [hend]

/-- A step that reads the EOF marks the connection closing. -/
theorem act_eof (env : Env) {c : Connection} (h : c.Waits) (hopen : c.shouldClose = false)
    {a : Act} (hreads : (c.reads env a).isSome = true) (hend : c.inbox.ending = .eof) :
    (c.act env a).shouldClose = true := by
  have hwent := went_act env h hopen a
  obtain ⟨out, hout⟩ := Option.isSome_iff_exists.1 hreads
  rw [hout] at hwent
  obtain ⟨-, d, -, -, hinbox, -, -, hread⟩ := hwent
  exact hread.closing (onReadable_eof env (hinbox ▸ hend))

/-- **When no request is left behind.**  Whatever the socket answers and the loop does, the
step of the loop that marks a connection closing, and everything after it, has handed over
the requests of all the bytes that the client sent exactly if that step spares them. -/
theorem handed_iff (env : Env) (readClock writeClock : List Time) (inbox : Inbox)
    (outbox : Outbox) {before : List Act} {a : Act} (after : List Act)
    (hopen : ((first env readClock writeClock inbox outbox).acts env before).shouldClose = false)
    (hclose : (((first env readClock writeClock inbox outbox).acts env before).act env a
      ).shouldClose = true) :
    ((first env readClock writeClock inbox outbox).acts env (before ++ a :: after)).out.handed =
        requests env inbox.bytes ↔
      ((first env readClock writeClock inbox outbox).acts env before).Spares env a := by
  have htracks := (Tracks.first env readClock writeClock inbox outbox).acts hopen
  have hsplit : (first env readClock writeClock inbox outbox).acts env (before ++ a :: after) =
      (((first env readClock writeClock inbox outbox).acts env before).act env a).acts env after :=
    List.foldl_append
  rw [hsplit, (acts_closing env hclose after).2, act_handed env htracks.waits hopen,
    htracks.requests_eq, List.append_cancel_left_eq]
  exact taken_eq_remaining_iff env _ a

/-- A complete frame. -/
def sampleFrame : Bytes := [0, 0, 9] ++ sampleBody

/-- A frame, and then the EOF. -/
def frameThenEof : Inbox := [.data 0 sampleFrame, .wouldBlock, .eof]

/-- The frame is read and answered, and then the EOF is read: the request is handed over. -/
theorem handed_iff_two_events :
    ((first sampleEnv [] [] frameThenEof []).acts sampleEnv
      ([.event { fd := 7, readable := true }, .event { fd := 7, writable := true }] ++
        [.event { fd := 7, readable := true, hangup := true }])).out.handed = [sampleRequest] :=
  ((handed_iff sampleEnv [] [] frameThenEof [] [] (by decide +kernel) (by decide +kernel)).2
    (Or.inl (by decide +kernel))).trans (by decide +kernel)

/-- The client sends a frame, and the EOF is there when it is read. -/
def frameWithEof : Inbox := [.data 0 sampleFrame, .eof]

/-- The client sends a frame, another one, and the EOF. -/
def twoFrames : Inbox := [.data 0 sampleFrame, .wouldBlock, .data 0 sampleFrame, .eof]

/-- Three events: the first frame arrives, the second, and the EOF. -/
def threeEvents : List Act :=
  [.event { fd := 7, readable := true }, .event { fd := 7, readable := true },
    .event { fd := 7, readable := true, hangup := true }]

/-- **A frame that is read together with the EOF is lost, and one that arrives while the
connection waits to write.** -/
theorem eof_loses_request :
    (((first sampleEnv [] [] frameWithEof []).act sampleEnv
          (.event { fd := 7, readable := true })).shouldClose = true ∧
        ((first sampleEnv [] [] frameWithEof []).act sampleEnv
          (.event { fd := 7, readable := true })).out.handed = [] ∧
        requests sampleEnv frameWithEof.bytes = [sampleRequest]) ∧
      ((first sampleEnv [] [] twoFrames []).acts sampleEnv threeEvents).shouldClose = true ∧
      ((first sampleEnv [] [] twoFrames []).acts sampleEnv threeEvents).out.handed =
        [sampleRequest] ∧
      requests sampleEnv twoFrames.bytes = [sampleRequest, sampleRequest] := by
  decide +kernel

end Connection

/-! ### The connections of a worker -/

namespace WorkerLoop

open Connection

variable {env : LoopEnv} {w w' : WorkerLoop} {state state' : ConnectionState}

/-- **An event of a connection** is what the loop does to it, and a connection that is
closing after it is gone. -/
theorem handleEvent_act {e : ReadyEvent} (hfd : e.fd ≠ w.wakeFd)
    (hl : w.connections.lookup e.fd = some state) (h : w.handleEvent env e = .ok w')
    (hl' : w'.connections.lookup e.fd = some state') :
    state'.connection = state.connection.act (connectionEnv env w e.fd state.connectionToken)
        (.event e) ∧ state'.connection.shouldClose = false := by
  refine ⟨?_, (handleEvent_ok h).2.2 hfd state' hl'⟩
  unfold handleEvent at h
  rw [if_neg hfd, hl] at h
  dsimp only at h
  rw [act]
  generalize (if e.hangup then _ else _ : Connection) = c at h ⊢
  split_ifs at h
  · rw [(closeConnection_ok h).2] at hl'
    cases hl'
  · rw [(closeConnection_ok h).2] at hl'
    cases hl'
  · obtain ⟨state'', hstate'', hc⟩ := (updateEpollInterest_ok h).2 state' hl'
    rw [AList.lookup_insert] at hstate''
    rw [hc, ← Option.some.inj hstate'']

/-- So is a response of the pool. -/
theorem deliver_act {r : CompletedResponse} (hl : w.connections.lookup r.fd = some state)
    (htoken : state.connectionToken = r.connectionToken) (h : w.deliver env r = .ok w')
    (hl' : w'.connections.lookup r.fd = some state') :
    state'.connection = state.connection.act (connectionEnv env w r.fd state.connectionToken)
      (.respond r.response) := by
  unfold deliver at h
  rw [hl] at h
  dsimp only at h
  rw [if_neg (by simp [htoken])] at h
  rw [act]
  split at h
  · rw [(closeConnection_ok h).2] at hl'
    cases hl'
  · rename_i out hq
    rw [CompletedResponse.response, hq]
    obtain ⟨state'', hstate'', hc⟩ := (updateEpollInterest_ok h).2 state' hl'
    rw [AList.lookup_insert] at hstate''
    rw [hc, ← Option.some.inj hstate'']

/-- So is the check of the deadlines. -/
theorem tickAll_act {now : Time} {fd : ℤ} (hl : w.connections.lookup fd = some state)
    (hl' : (w.tickAll now).connections.lookup fd = some state') :
    state'.connection = state.connection.act (connectionEnv env w fd state.connectionToken)
      (.tick now) := by
  unfold tickAll at hl'
  rw [Table.lookup_mapVals, hl] at hl'
  exact (Option.some.inj hl') ▸ rfl

end WorkerLoop
end Server
end MiniRpc
