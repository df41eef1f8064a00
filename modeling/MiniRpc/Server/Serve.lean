/-
# The blocking loop of a connection

`Serve` of `src/server/connection.cpp` serves a client without an event loop: it makes
the socket non-blocking, which may fail, and then calls `OnReadable` and, if something is
to be written, `OnWritable`, until one of them fails or the connection closes.  Unlike the
coroutine of a worker it reads again while responses wait to be written, and there is no
dispatcher.

`Serving` is what the loop keeps.  It is the contract that the coroutine has as well
(`MiniRpc.EndToEnd.ServerEnd`): the replies to the frames that were taken, in their
order, each in a frame of its own.
-/

import MiniRpc.Server.Backlog

namespace MiniRpc
namespace Server

open Protocol Splitter Transition

namespace Connection

/-- One turn of the loop in `Serve`, and what it returns if it ends there. -/
def serveTurn (env : Env) (c : Connection) : Connection × Option Bool :=
  match c.onReadable env with
  | (c, some _) => (c, some false)
  | (c, none) =>
    if c.shouldClose then (c, some true)
    else if !c.out.hasPendingWrite then (c, none)
    else
      match c.onWritable env with
      | (c, some _) => (c, some false)
      | (c, none) => (c, none)

/-- What the socket answers in one turn. -/
def answering (c : Connection) (turn : Inbox × Outbox) : Connection :=
  { c with inbox := turn.1, out := { c.out with outbox := turn.2 } }

/-- The loop of `Serve`, for as many turns as the socket has answers for. -/
def serveLoop (env : Env) : Connection → List (Inbox × Outbox) → Connection × Option Bool
  | c, [] => (c, none)
  | c, turn :: turns =>
    match (c.answering turn).serveTurn env with
    | (c, some result) => (c, some result)
    | (c, none) => serveLoop env c turns

/-- What `fcntl` answers `Serve`: whether `F_GETFL` finds `O_NONBLOCK` set, `none` if it
fails, and whether `F_SETFL` succeeds. -/
structure Fcntl where
  getfl : Option Bool
  setfl : Bool

/-- The socket cannot be made non-blocking. -/
def Fcntl.fails (f : Fcntl) : Bool :=
  match f.getfl with
  | none => true
  | some nonBlocking => !nonBlocking && !f.setfl

/-- `Serve`. -/
def serve (env : Env) (c : Connection) (f : Fcntl) (turns : List (Inbox × Outbox)) :
    Connection × Option Bool :=
  if f.fails then (c, some false) else c.serveLoop env turns

theorem onReadable_failed {env : Env} {c c' : Connection} {e : String}
    (h : c.onReadable env = (c', some e)) : c'.state = .kError := by
  unfold onReadable at h
  split at h
  · cases h
  · obtain ⟨rfl, -⟩ := Prod.mk.inj h
    exact (enterError_fields _ _).2.1
  · cases h
  · split at h
    · obtain ⟨rfl, -⟩ := Prod.mk.inj h
      exact (enterError_fields _ _).2.1
    · cases h

theorem onWritable_failed {env : Env} {c c' : Connection} {e : String}
    (h : c.onWritable env = (c', some e)) : c'.state = .kError := by
  unfold onWritable at h
  split at h
  · obtain ⟨rfl, -⟩ := Prod.mk.inj h
    exact (enterError_fields _ _).2.1
  · split_ifs at h
    · cases (Prod.mk.inj h).2
    · cases (Prod.mk.inj h).2

/-- An `OnReadable` that does not fail closes the connection only at the end of the
stream. -/
theorem onReadable_ok {env : Env} {c c' : Connection} (hopen : c.shouldClose = false)
    (h : c.onReadable env = (c', none)) (hclose : c'.shouldClose = true) :
    c'.state = .kClosing := by
  obtain ⟨b, -, hread⟩ := c.readFromSocket_eq
  unfold onReadable at h
  rw [hread] at h
  cases hresult : readOutcome c.inbox.ending b.readable with
  | kWouldBlock =>
    rw [hresult] at h
    obtain ⟨rfl, -⟩ := Prod.mk.inj h
    exact absurd (hopen.symm.trans hclose) (by simp)
  | kPeerClosed =>
    rw [hresult] at h
    obtain ⟨rfl, -⟩ := Prod.mk.inj h
    rfl
  | kError e =>
    rw [hresult] at h
    cases (Prod.mk.inj h).2
  | kData =>
    rw [hresult] at h
    obtain ⟨b', -, hparse⟩ := tryParseRequests_eq env
      { c with inbox := c.inbox.afterEnding, readBuffer := b }
    dsimp only at h
    rw [hparse] at h
    split at h
    · cases (Prod.mk.inj h).2
    · rename_i heq
      obtain ⟨rfl, -⟩ := Prod.mk.inj heq
      obtain ⟨rfl, -⟩ := Prod.mk.inj h
      exact absurd (hopen.symm.trans hclose) (by simp)

/-- An `OnWritable` that does not fail leaves the flag alone. -/
theorem onWritable_ok {env : Env} {c c' : Connection} (h : c.onWritable env = (c', none)) :
    c'.shouldClose = c.shouldClose := by
  unfold onWritable at h
  split at h
  · cases h
  · split_ifs at h <;> (obtain ⟨rfl, -⟩ := Prod.mk.inj h; rfl)

end Connection

/-- What `Serve` keeps: the connection has read `arrived`, and queued the replies to the
frames that it took. -/
structure Serving (env : Env) (arrived : Bytes) (c : Connection) : Prop where
  received : c.received = arrived
  sized : ∀ body ∈ c.bodies, ValidLength body.length
  emitted : c.out.emitted =
    stream (c.bodies.map fun body => env.response.serialize (reply env body))
  slim : Slim env c

namespace Serving

variable {env : Env} {c c' : Connection} {arrived : Bytes}

theorem new (env : Env) (rc wc : List Time) (o : Outbox) :
    Serving env [] (Connection.new rc wc o) where
  received := rfl
  sized := fun body hbody => by cases hbody
  emitted := rfl
  slim := Slim.new env rc wc [] o

/-- Nothing is read and nothing is queued. -/
theorem keeps (h : Serving env arrived c) (hk : Keeps c c') (hslim : Slim env c') :
    Serving env arrived c' where
  received := hk.received.trans h.received
  sized := hk.bodies ▸ h.sized
  emitted := by rw [hk.emitted, h.emitted, hk.bodies]
  slim := hslim

theorem answering (h : Serving env arrived c) (turn : Inbox × Outbox) :
    Serving env arrived (c.answering turn) :=
  have hsame : Same c (c.answering turn) := ⟨rfl, rfl, rfl, id⟩
  h.keeps hsame.keeps (h.slim.same hsame)

/-- **`OnReadable` reads on**: the frames that came are taken and replied to. -/
theorem onReadable (h : Serving env arrived c) (hinline : env.dispatcher = none) :
    Serving env (arrived ++ c.inbox.arrived) (c.onReadable env).1 := by
  obtain ⟨items, extra, hreads, -⟩ := onReadable_reads env c
  have hreplies : (items.filterMap fun body => (WriteEvent.frame body).response env) =
      items.map (reply env) := by
    rw [← List.filterMap_eq_map]
    exact List.filterMap_congr fun body _ => by simp [WriteEvent.response, hinline]
  refine ⟨?_, fun body hbody => ?_, ?_, h.slim.onReadable⟩
  · rw [hreads.received, h.received]
  · rw [hreads.bodies] at hbody
    rcases List.mem_append.1 hbody with hbody | hbody
    · exact h.sized body hbody
    · exact hreads.sized body hbody
  · rw [hreads.emitted, h.emitted, hreplies, hreads.bodies, List.map_append, List.map_map, stream,
      stream, stream, List.flatMap_append]
    rfl

theorem onWritable (h : Serving env arrived c) : Serving env arrived (c.onWritable env).1 :=
  h.keeps (.onWritable env c) h.slim.onWritable

/-- **What a turn keeps**: it has read what came, and replied to it. -/
theorem turn (h : Serving env arrived c) (hinline : env.dispatcher = none) :
    Serving env (arrived ++ c.inbox.arrived) (c.serveTurn env).1 := by
  have hread := h.onReadable hinline
  unfold Connection.serveTurn
  split
  · rename_i c' e heq
    rwa [heq] at hread
  · rename_i c' heq
    rw [heq] at hread
    split_ifs
    · exact hread
    · exact hread
    · split
      · rename_i c'' e hwrite
        have hwritten := hread.onWritable
        rwa [hwrite] at hwritten
      · rename_i c'' hwrite
        have hwritten := hread.onWritable
        rwa [hwrite] at hwritten

end Serving

/-- What the result of a turn says about the connection. -/
def Outcome (c : Connection) : Option Bool → Prop
  | none => c.shouldClose = false
  | some true => c.state = .kClosing
  | some false => c.state = .kError

/-- **How a turn ends.** -/
theorem Connection.serveTurn_outcome (env : Env) {c : Connection}
    (hopen : c.shouldClose = false) :
    Outcome (c.serveTurn env).1 (c.serveTurn env).2 := by
  unfold Connection.serveTurn
  split
  · rename_i c' e heq
    exact Connection.onReadable_failed heq
  · rename_i c' heq
    by_cases hclose : c'.shouldClose = true
    · rw [if_pos hclose]
      exact Connection.onReadable_ok hopen heq hclose
    have hopen' : c'.shouldClose = false := by simpa using hclose
    rw [if_neg hclose]
    split_ifs
    · exact hopen'
    · split
      · rename_i c'' e hwrite
        exact Connection.onWritable_failed hwrite
      · rename_i c'' hwrite
        exact (Connection.onWritable_ok hwrite).trans hopen'

/-- What arrives in the turns together. -/
def arrivals (turns : List (Inbox × Outbox)) : Bytes := turns.flatMap fun turn => turn.1.arrived

/-- **A run of the loop** stays at what a turn keeps, and has read what arrived until it
ended. -/
theorem Serving.serveLoop {env : Env} {c : Connection} {arrived : Bytes}
    (h : Serving env arrived c) (hopen : c.shouldClose = false) (hinline : env.dispatcher = none)
    (turns : List (Inbox × Outbox)) :
    ∃ read, read <+: arrivals turns ∧ Serving env (arrived ++ read) (c.serveLoop env turns).1 ∧
      Outcome (c.serveLoop env turns).1 (c.serveLoop env turns).2 ∧
      ((c.serveLoop env turns).2 = none → read = arrivals turns) := by
  induction turns generalizing c arrived with
  | nil => exact ⟨[], List.prefix_rfl, (List.append_nil arrived).symm ▸ h, hopen, fun _ => rfl⟩
  | cons turn turns ih =>
    have hturn := (h.answering turn).turn hinline
    have houtcome := Connection.serveTurn_outcome env (c := c.answering turn) hopen
    have hall : arrivals (turn :: turns) = turn.1.arrived ++ arrivals turns := List.flatMap_cons
    rw [Connection.serveLoop]
    split
    · rename_i c' result heq
      rw [heq] at hturn houtcome
      exact ⟨turn.1.arrived, hall ▸ List.prefix_append _ _, hturn, houtcome, fun hnone => by
        cases hnone⟩
    · rename_i c' heq
      rw [heq] at hturn houtcome
      obtain ⟨read, hle, hserving, hend, hread⟩ := ih hturn houtcome
      refine ⟨turn.1.arrived ++ read, ?_, ?_, hend, fun hnone => ?_⟩
      · exact hall ▸ (List.prefix_append_right_inj _).2 hle
      · exact (List.append_assoc ..) ▸ hserving
      · rw [hread hnone, hall]

/-- **`Serve` is a decoder that answers.**  Whatever the socket does in its turns, the
connection has queued the replies to the frames it took, in their order and each in a frame
of its own; `send` took the first bytes of them, and what is left is never more than
`max_write_buffer_bytes`.  The frames are the first that arrived, and all of them
as long as the loop goes on; when it returns, it says whether the client closed the
connection or something failed.  Only a socket that stays blocking makes it return without
an error of the connection, before it has read a byte. -/
theorem serve_answers {env : Env} (hinline : env.dispatcher = none) (rc wc : List Time)
    (o : Outbox) (f : Connection.Fcntl) (turns : List (Inbox × Outbox)) {c : Connection}
    {result : Option Bool} (hserve : (Connection.new rc wc o).serve env f turns = (c, result)) :
    c.out.wire <+: stream (c.bodies.map fun body => env.response.serialize (reply env body)) ∧
    c.out.pendingWriteBytes ≤ env.options.maxWriteBufferBytes ∧
    c.bodies <+: (frameSplitter.split (arrivals turns)).items ∧
    (result = none → c.bodies = (frameSplitter.split (arrivals turns)).items ∧
      c.shouldClose = false) ∧
    (result = some true → c.state = .kClosing) ∧
    (result = some false →
      f.fails = false ∧ c.state = .kError ∨ f.fails = true ∧ c = Connection.new rc wc o) := by
  unfold Connection.serve at hserve
  split_ifs at hserve with hfails
  · obtain ⟨rfl, rfl⟩ := Prod.mk.inj hserve
    have hserving := Serving.new env rc wc o
    refine ⟨List.nil_prefix, hserving.slim.queued.limit, List.nil_prefix, ?_, ?_, ?_⟩
    · rintro ⟨⟩
    · rintro ⟨⟩
    · exact fun _ => Or.inr ⟨hfails, rfl⟩
  obtain ⟨read, ⟨more, hmore⟩, hserving, houtcome, hread⟩ :=
    (Serving.new env rc wc o).serveLoop rfl hinline turns
  rw [hserve] at hserving houtcome hread
  rw [List.nil_append] at hserving
  have hreceived : stream c.bodies ++ c.readBuffer.readable = read := hserving.received
  refine ⟨?_, hserving.slim.queued.limit, ?_, fun hnone => ?_, ?_, ?_⟩
  · exact hserving.emitted ▸ List.prefix_append _ _
  · rw [← hmore, ← hreceived, List.append_assoc, split_stream_items hserving.sized]
    exact List.prefix_append _ _
  · subst hnone
    have hunread := hserving.slim.unread houtcome
    rw [← hread rfl, ← hreceived, split_stream_append hserving.sized hunread]
    exact ⟨rfl, houtcome⟩
  · rintro rfl
    exact houtcome
  · rintro rfl
    exact Or.inl ⟨by simpa using hfails, houtcome⟩

/-- A request that comes in two turns is taken in the second of them, on a socket that
was blocking before. -/
theorem serve_answers_two_turns :
    ((Connection.new [] [] []).serve Connection.sampleEnv ⟨some false, true⟩
      [([.data 0 [0, 0]], []), ([.data 9 Connection.sampleBody], [.sent 9])]).1.bodies =
        [Connection.sampleBody] := by
  have hrun : ((Connection.new [] [] []).serve Connection.sampleEnv ⟨some false, true⟩
      [([.data 0 [0, 0]], []), ([.data 9 Connection.sampleBody], [.sent 9])]).2 = none := by
    decide +kernel
  rcases hserve : (Connection.new [] [] []).serve Connection.sampleEnv ⟨some false, true⟩
    [([.data 0 [0, 0]], []), ([.data 9 Connection.sampleBody], [.sent 9])] with ⟨c, result⟩
  rw [hserve] at hrun
  show c.bodies = [Connection.sampleBody]
  rw [((serve_answers rfl [] [] [] _ _ hserve).2.2.2.1 hrun).1]
  exact congrArg Progress.items
    (split_frame (show ValidLength Connection.sampleBody.length by decide))

end Server
end MiniRpc
