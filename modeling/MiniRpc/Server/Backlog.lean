/-
# What is left in the buffers of a connection

`OnReadable` parses all complete frames after every read, and `QueueResponse` refuses
what goes over `max_write_buffer_bytes` (`src/server/connection.cpp`).  So between two
calls an open connection holds less than one frame unread and never more than the limit
unsent (`Slim`), whatever its client sends and however slowly it reads.
-/

import MiniRpc.Server.Reading
import MiniRpc.Server.WriteQueue

namespace MiniRpc
namespace Server

open Protocol Splitter

variable {env : Env}

/-- A frame keeps the balance, however it is answered. -/
theorem Balanced.processFrame {o : Outbound} (h : Balanced env o) (body : Bytes) :
    Balanced env (processFrame env o body).1 := by
  unfold Server.processFrame
  cases env.request.parse body with
  | none => exact h.enqueueResponse _
  | some request =>
    by_cases hbeat : request.serviceName = kHeartbeatServiceName
    · simp only [if_pos hbeat]
      exact h.enqueueResponse _
    · simp only [if_neg hbeat]
      cases env.dispatcher with
      | none =>
        have hhanded : Balanced env { o with handed := o.handed ++ [request] } := h.congr rfl rfl
        exact hhanded.enqueueResponse _
      | some dispatcher =>
        dsimp only
        split <;> exact h.congr rfl rfl

/-- **An open connection holds less than a frame unread**, and its write queue is
balanced. -/
structure Slim (env : Env) (c : Connection) : Prop where
  unread : c.shouldClose = false → frameSplitter.cut c.readBuffer.readable = .more
  queued : Balanced env c.out

namespace Slim

variable {c c' : Connection}

theorem new (env : Env) (rc wc : List Time) (i : Inbox) (o : Outbox) :
    Slim env { Connection.new rc wc o with inbox := i } where
  unread := fun _ => cut_nil
  queued := ⟨rfl, Nat.zero_le _, by simp [Connection.new]⟩

/-- The environment matters for the limit only. -/
theorem congr {env' : Env} (h : Slim env c) (heq : env'.options = env.options) : Slim env' c where
  unread := h.unread
  queued := ⟨h.queued.count, heq ▸ h.queued.limit, h.queued.offset⟩

/-- The write queue changed, and nothing was read. -/
theorem flushed (h : Slim env c) (hbuffer : c'.readBuffer = c.readBuffer)
    (hclosing : c.shouldClose = true → c'.shouldClose = true) (hout : Balanced env c'.out) :
    Slim env c' where
  unread := fun hopen => hbuffer ▸ h.unread (by
    by_contra hne
    rw [hclosing (by simpa using hne)] at hopen
    cases hopen)
  queued := hout

theorem same (h : Slim env c) (hs : Same c c') : Slim env c' :=
  h.flushed hs.readBuffer hs.closing (h.queued.congr (congrArg Outbound.writeBuffer hs.out :)
    (congrArg Outbound.pendingWriteBytes hs.out :))

/-- A connection that closes may have left anything unread. -/
theorem closing (hclose : c.shouldClose = true) (hout : Balanced env c.out) : Slim env c where
  unread := fun hopen => by
    rw [hclose] at hopen
    cases hopen
  queued := hout

/-- **`OnReadable` leaves less than a frame**, or closes the connection. -/
theorem onReadable (h : Slim env c) : Slim env (c.onReadable env).1 := by
  obtain ⟨b, -, hread⟩ := c.readFromSocket_eq
  -- `EnterError` sets the flag and leaves the queue alone
  have herror : ∀ (d : Connection) (e : String), Balanced env d.out →
      Slim env (d.enterError e) := fun d e hout =>
    (closing (c := { d with shouldClose := true }) rfl hout).same
      { Same.enterError d e with closing := fun _ => (Connection.enterError_fields d e).1 }
  unfold Connection.onReadable
  rw [hread]
  cases hresult : Connection.readOutcome c.inbox.ending b.readable with
  | kWouldBlock =>
    refine ⟨fun _ => ?_, h.queued⟩
    -- nothing is in the buffer when nothing could be read
    have hnil : b.readable = [] := by
      unfold Connection.readOutcome at hresult
      split at hresult
      · cases hresult
      · cases hresult
      · by_contra hne
        rw [if_neg hne] at hresult
        cases hresult
    show frameSplitter.cut b.readable = .more
    rw [hnil]
    exact cut_nil
  | kPeerClosed => exact closing rfl h.queued
  | kError e => exact herror _ e h.queued
  | kData =>
    obtain ⟨b', hb', hparse⟩ := Connection.tryParseRequests_eq env
      { c with inbox := c.inbox.afterEnding, readBuffer := b }
    dsimp only at hb' hparse ⊢
    have hqueued : Balanced env (frameSplitter.drive (processFrame env) c.out b.readable).state :=
      drive_invariant (fun _ body ho => ho.processFrame body) h.queued
    have hrest : (frameSplitter.drive (processFrame env) c.out b.readable).stop = none →
        frameSplitter.cut (frameSplitter.drive (processFrame env) c.out b.readable).rest = .more :=
      cut_rest
    generalize frameSplitter.drive (processFrame env) c.out b.readable = p
      at hb' hparse hqueued hrest
    rw [hparse]
    cases hstop : p.stop with
    | none => exact ⟨fun _ => hb' ▸ hrest hstop, hqueued⟩
    | some why =>
      cases why with
      | bad => exact herror _ _ hqueued
      | failed e => exact herror _ e hqueued

/-- **`OnWritable` keeps the balance** and reads nothing. -/
theorem onWritable (h : Slim env c) : Slim env (c.onWritable env).1 := by
  have hkeeps := Keeps.onWritable env c
  refine h.flushed hkeeps.readBuffer hkeeps.closing ?_
  have hflush := h.queued.flushWrites
  unfold Connection.onWritable
  split
  · rename_i out e heq
    rw [heq] at hflush
    have hsame := (Same.enterError { c with out } e).out
    exact hflush.congr (congrArg Outbound.writeBuffer hsame :)
      (congrArg Outbound.pendingWriteBytes hsame :)
  · rename_i out heq
    rw [heq] at hflush
    split_ifs <;> exact hflush.congr rfl rfl

/-- **Every round of the coroutine** keeps a connection slim. -/
theorem coRound (h : Slim env c) (place : Connection.Place) :
    Slim env (c.coRound env place).1 := by
  rcases coRound_cases env place c with
    ⟨hsame, -⟩ | ⟨-, c₁, hbefore, -, hafter⟩ | ⟨-, c₁, hbefore, hafter⟩
  · exact h.same hsame
  · exact (h.same hbefore).onReadable.same hafter
  · exact (h.same hbefore).onWritable.same hafter

end Slim
end Server
end MiniRpc
