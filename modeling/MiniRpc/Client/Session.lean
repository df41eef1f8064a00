/-
# A dispatcher reads its responses

Readable events of a dispatcher one after the other, made as long as
`dispatcher_running_` is set.  While only data arrives such a session drives the
frame splitter over the stream, however the stream is cut (`readableEvents_eq`);
the bodies it takes are those of the stream up to the first that does not parse
(`drive_items`).
-/

import MiniRpc.Client.Dispatcher

namespace MiniRpc
namespace Client
namespace Dispatcher

open Protocol Splitter

variable {α : Type*} {M : Message RpcResponse}

/-- One readable event, with the answers `recv` gives in it. -/
def readableEvent (M : Message RpcResponse) (d : Dispatcher α) (answers : Inbox) : Dispatcher α :=
  if d.running then onReadable M { d with inbox := answers } else d

/-- Readable events in turn. -/
def readableEvents (M : Message RpcResponse) (d : Dispatcher α) (events : List Inbox) :
    Dispatcher α :=
  events.foldl (readableEvent M) d

/-- The table and the wake-ups after `FailAll`, if there was a reason for it. -/
def failing (s : PendingCalls α × List (Wake α)) :
    Option RpcCallResult → PendingCalls α × List (Wake α)
  | none => s
  | some r => ((s.1.failAll r).1, s.2 ++ (s.1.failAll r).2)

/-- Where a dispatcher stands that has decoded its stream as far as `p` says. -/
structure Decoded (p : Progress (PendingCalls α × List (Wake α)) UInt8 RpcCallResult)
    (d : Dispatcher α) : Prop where
  bodies : d.bodies = p.items
  table : (d.pending, d.wakes) = failing p.state (stopFailure p.stop)
  running : d.running = true ↔ p.stop = none
  rest : p.stop = none → d.readBuffer = p.rest

theorem stopFailure_eq_none {stop : Option (Stop RpcCallResult)} :
    stopFailure stop = none ↔ stop = none := by
  rcases stop with _ | _ | _ <;> simp [stopFailure]

/-- **A readable event with data only feeds the splitter one more chunk.** -/
theorem Decoded.readableEvent
    {p : Progress (PendingCalls α × List (Wake α)) UInt8 RpcCallResult} {d : Dispatcher α}
    (h : Decoded p d) {i : Inbox} (hi : i.Flowing) :
    Decoded (frameSplitter.feed (handleBody M) p i.arrived) (d.readableEvent M i) := by
  unfold feed Dispatcher.readableEvent
  cases hstop : p.stop with
  | some stop =>
    rw [if_neg (by simp [h.running, hstop])]
    exact h
  | none =>
    have hrun := h.running.2 hstop
    have htable := h.table
    rw [hstop] at htable
    rw [if_pos hrun]
    obtain ⟨e, he, hdrain⟩ := drain_filled (d := { d with inbox := i })
      (by intro what hf; rw [hi.ending] at hf; cases hf.1)
    obtain ⟨activity, clock, hframes⟩ := e.handleReadableFrames_eq M
    have hbuffer : e.readBuffer = p.rest ++ i.arrived := by
      rw [he.readBuffer]
      exact congrArg (· ++ i.arrived) (h.rest hstop)
    have hstate : (e.pending, e.wakes) = p.state := by
      rw [he.pending, he.wakes]
      exact htable
    have hbodies : e.bodies = p.items := he.bodies.trans h.bodies
    rw [onReadable, hdrain]
    simp only [hi.ending]
    rw [if_neg (by simp [he.running, hrun]), hframes, hbuffer, hstate]
    generalize frameSplitter.drive (handleBody M) p.state (p.rest ++ i.arrived) = q
    cases hq : stopFailure q.stop with
    | none =>
      exact ⟨congrArg (· ++ q.items) hbodies, by simp only [hq]; rfl,
        by simp [stopFailure_eq_none.1 hq, driven, he.running, hrun], fun _ => rfl⟩
    | some r =>
      have hne : q.stop ≠ none := by
        intro h0
        simp [h0, stopFailure] at hq
      exact ⟨congrArg (· ++ q.items) hbodies, by simp only [hq]; rfl, by simp [hne],
        fun h0 => absurd h0 hne⟩

/-- **A session of data events is a drive over the stream**, chunk by chunk. -/
theorem readableEvents_eq {p : Progress (PendingCalls α × List (Wake α)) UInt8 RpcCallResult}
    {d : Dispatcher α} (h : Decoded p d) {events : List Inbox} (hi : ∀ i ∈ events, i.Flowing) :
    Decoded ((events.map Inbox.arrived).foldl (frameSplitter.feed (handleBody M)) p)
      (d.readableEvents M events) := by
  induction events generalizing p d with
  | nil => exact h
  | cons i is ih =>
    exact ih (h.readableEvent (hi i (by simp))) fun i' hi' => hi i' (by simp [hi'])

end Dispatcher
end Client
end MiniRpc
