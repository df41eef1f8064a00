/-
# A connection reads its requests

Read events of a connection one after the other: each is one call of
`Connection::OnReadable` (`src/server/connection.cpp`) with its own series of
answers of `recv`, made as long as the connection is not closing, as
`ReadRequestCo` does.  Over such a session the connection is a decoder of the
byte stream.  While only data arrives it drives the frame splitter over the
stream, however the stream is cut (`readEvents_eq`).  The end of the stream is
another matter (`MiniRpc.Server.EndOfStream`).
-/

import MiniRpc.Server.Connection

namespace MiniRpc
namespace Server

open Protocol Splitter

/-- The request in a frame that is handed to a handler or the dispatcher: one
that parses and is not a heartbeat. -/
def business (env : Env) (body : Bytes) : Option RpcRequest :=
  match env.request.parse body with
  | none => none
  | some request => if request.serviceName = kHeartbeatServiceName then none else some request

/-- The bodies of a list that are processed when they are taken in turn, up to
the first whose dispatch or response fails. -/
def reached (env : Env) (o : Outbound) : List Bytes → List Bytes
  | [] => []
  | body :: bodies =>
    body :: match processFrame env o body with
      | (o', none) => reached env o' bodies
      | (_, some _) => []

/-- Dispatch and response succeed for each of the bodies in turn. -/
def Accepts (env : Env) : Outbound → List Bytes → Prop
  | _, [] => True
  | o, body :: bodies =>
    (processFrame env o body).2 = none ∧ Accepts env (processFrame env o body).1 bodies

theorem enqueueResponse_handed (env : Env) (o : Outbound) (r : RpcResponse) :
    (enqueueResponse env o r).1.handed = o.handed := by
  unfold enqueueResponse queueResponse
  dsimp only
  split
  · rename_i h
    split_ifs at h
    split at h
    · cases h
    · split_ifs at h
      obtain rfl := Except.ok.inj h
      rfl
  · rfl

/-- A processed frame hands over its request. -/
theorem processFrame_handed (env : Env) (o : Outbound) (body : Bytes) :
    (processFrame env o body).1.handed = o.handed ++ (business env body).toList := by
  unfold processFrame business
  cases env.request.parse body with
  | none => simp [enqueueResponse_handed]
  | some request =>
    by_cases hb : request.serviceName = kHeartbeatServiceName
    · simp [hb, enqueueResponse_handed]
    · simp only [if_neg hb]
      cases env.dispatcher with
      | none => rw [enqueueResponse_handed]; rfl
      | some dispatcher => dsimp only; split <;> rfl

theorem reached_le (env : Env) (o : Outbound) (bodies : List Bytes) :
    reached env o bodies <+: bodies := by
  induction bodies generalizing o with
  | nil => exact List.prefix_rfl
  | cons body bodies ih =>
    rw [reached, List.prefix_cons_inj]
    split
    · exact ih _
    · exact List.nil_prefix

/-- What a drive hands over: the requests of the frames it reaches. -/
theorem drive_handed (env : Env) (o : Outbound) (xs : Bytes) :
    (frameSplitter.drive (processFrame env) o xs).state.handed =
      o.handed ++ (reached env o (frameSplitter.split xs).items).filterMap (business env) := by
  unfold split
  induction o, xs using drive_induction frameSplitter (processFrame env) with
  | more o xs hc => simp [drive_more hc, reached]
  | bad o xs hc => simp [drive_bad hc, reached]
  | failed o xs body rest o' e hc hh =>
    have : o'.handed = o.handed ++ (business env body).toList := by
      simpa [hh] using processFrame_handed env o body
    rw [drive_failed hc hh, drive_item hc rfl]
    simp only [reached, hh, List.filterMap_cons, List.filterMap_nil, this]
    cases business env body <;> rfl
  | item o xs body rest o' hc hh ih =>
    have : o'.handed = o.handed ++ (business env body).toList := by
      simpa [hh] using processFrame_handed env o body
    rw [drive_item hc hh, drive_item hc rfl]
    simp only [reached, hh, List.filterMap_cons, ih, this, List.append_assoc]
    cases business env body <;> rfl

theorem reached_of_accepts {env : Env} {o : Outbound} {bodies : List Bytes}
    (h : Accepts env o bodies) : reached env o bodies = bodies := by
  induction bodies generalizing o with
  | nil => rfl
  | cons body bodies ih =>
    rcases hp : processFrame env o body with ⟨o', _ | e⟩ <;> rw [Accepts, hp] at h
    · simp only [reached, hp, ih h.2]
    · cases h.1

/-- A drive over bodies that are accepted does not fail. -/
theorem drive_accepts {env : Env} {o : Outbound} {xs : Bytes}
    (h : Accepts env o (frameSplitter.split xs).items) (why : String) :
    (frameSplitter.drive (processFrame env) o xs).stop ≠ some (.failed why) := by
  unfold split at h
  induction o, xs using drive_induction frameSplitter (processFrame env) with
  | more o xs hc => simp [drive_more hc]
  | bad o xs hc => simp [drive_bad hc]
  | failed o xs body rest o' e hc hh =>
    rw [drive_item hc rfl, Accepts, hh] at h
    cases h.1
  | item o xs body rest o' hc hh ih =>
    rw [drive_item hc rfl, Accepts, hh] at h
    rw [drive_item hc hh]
    exact ih h.2

namespace Connection

/-- One read event, with the answers `recv` gives in it. -/
def readEvent (env : Env) (c : Connection) (answers : Inbox) : Connection :=
  if c.shouldClose then c else (onReadable env { c with inbox := answers }).1

/-- Read events in turn. -/
def readEvents (env : Env) (c : Connection) (events : List Inbox) : Connection :=
  events.foldl (readEvent env) c

/-! ### While only data arrives -/

/-- Where a connection stands that has decoded its stream as far as `p` says. -/
structure Decoded (p : Progress Outbound UInt8 String) (c : Connection) : Prop where
  bodies : c.bodies = p.items
  handed : c.out.handed = p.state.handed
  rest : c.readBuffer.readable = p.rest
  going : p.stop = none → c.shouldClose = false ∧ c.lastError = "" ∧ c.out = p.state
  stopped : p.stop ≠ none → c.shouldClose = true ∧ c.state = .kError
  bad : p.stop = some .bad → c.lastError = "invalid request frame length"

/-- A connection that was just built has decoded nothing. -/
theorem Decoded.fresh {c : Connection} (hb : c.bodies = []) (hr : c.readBuffer.readable = [])
    (hc : c.shouldClose = false) (he : c.lastError = "") : Decoded ⟨c.out, [], [], none⟩ c where
  bodies := hb
  handed := rfl
  rest := hr
  going := fun _ => ⟨hc, he, rfl⟩
  stopped := fun h => absurd rfl h
  bad := by simp

/-- What `OnReadable` makes of a drive that `TryParseRequests` did. -/
theorem Decoded.parsed {items : List Bytes} {q : Progress Outbound UInt8 String} {c : Connection}
    (hbodies : c.bodies = items ++ q.items) (hout : c.out = q.state)
    (hrest : c.readBuffer.readable = q.rest) (hopen : c.shouldClose = false)
    (herr : c.lastError = "") :
    Decoded { q with items := items ++ q.items }
      (match stopMessage q.stop with
        | some e => c.enterError e
        | none => { c with state := .kOpen }) := by
  have hhanded := congrArg Outbound.handed hout
  rcases hq : q.stop with _ | _ | e
  · exact ⟨hbodies, hhanded, hrest, fun _ => ⟨hopen, herr, hout⟩, by simp, by simp⟩
  · obtain ⟨h₁, h₂, h₃, h₄, h₅, h₆⟩ := c.enterError_fields "invalid request frame length"
    exact ⟨h₄.trans hbodies, h₆.trans hhanded, (congrArg _ h₅).trans hrest, by simp,
      fun _ => ⟨h₁, h₂⟩, fun _ => h₃⟩
  · obtain ⟨h₁, h₂, -, h₄, h₅, h₆⟩ := c.enterError_fields e
    exact ⟨h₄.trans hbodies, h₆.trans hhanded, (congrArg _ h₅).trans hrest, by simp,
      fun _ => ⟨h₁, h₂⟩, by simp⟩

/-- **A read event with data only feeds the splitter one more chunk.** -/
theorem Decoded.readEvent {env : Env} {p : Progress Outbound UInt8 String} {c : Connection}
    (h : Decoded p c) {i : Inbox} (hi : i.Flowing) :
    Decoded (frameSplitter.feed (processFrame env) p i.arrived) (c.readEvent env i) := by
  unfold feed Connection.readEvent
  cases hstop : p.stop with
  | some stop =>
    rw [if_pos (h.stopped (by simp [hstop])).1]
    exact h
  | none =>
    obtain ⟨hopen, herr, hout⟩ := h.going hstop
    rw [if_neg (by simp [hopen]), ← hout]
    obtain ⟨b, hb, hread⟩ := readFromSocket_eq { c with inbox := i }
    rw [hi.ending] at hread
    dsimp only at hb hread
    rw [h.rest] at hb
    rw [onReadable, hread, ← hb]
    by_cases hnil : b.readable = []
    · -- nothing in the buffer, and `TryParseRequests` is not called
      rw [hnil, drive_more cut_nil]
      simp only [readOutcome, if_true]
      exact ⟨by simp [h.bodies], rfl, hnil, fun _ => ⟨hopen, herr, rfl⟩, by simp, by simp⟩
    · obtain ⟨b', hb', hparse⟩ := tryParseRequests_eq env
        { c with inbox := i.afterEnding, readBuffer := b }
      dsimp only at hb' hparse
      simp only [readOutcome, if_neg hnil, hparse]
      generalize frameSplitter.drive (processFrame env) c.out b.readable = q at hb' ⊢
      have hbodies : c.bodies ++ q.items = p.items ++ q.items := by rw [h.bodies]
      have key := Decoded.parsed (q := q)
        (c := { c with
          inbox := i.afterEnding, out := q.state, bodies := c.bodies ++ q.items, readBuffer := b' })
        hbodies rfl hb' hopen herr
      cases hq : stopMessage q.stop with
      | none => simpa only [hq] using key
      | some e => simpa only [hq] using key

/-- **A session of data events is a drive over the stream**, chunk by chunk. -/
theorem readEvents_eq (env : Env) {p : Progress Outbound UInt8 String} {c : Connection}
    (h : Decoded p c) {events : List Inbox} (hi : ∀ i ∈ events, i.Flowing) :
    Decoded ((events.map Inbox.arrived).foldl (frameSplitter.feed (processFrame env)) p)
      (c.readEvents env events) := by
  induction events generalizing p c with
  | nil => exact h
  | cons i is ih =>
    exact ih (h.readEvent (hi i (by simp))) fun i' hi' => hi i' (by simp [hi'])

/-! ### The requests of a stream -/

/-- The requests of a byte stream: those of its complete frames, up to the first
malformed one. -/
def requests (env : Env) (xs : Bytes) : List RpcRequest :=
  (frameSplitter.split xs).items.filterMap (business env)

/-- A request for method `M` of service `S`. -/
def sampleRequest : RpcRequest := ⟨"1", "S", "M", []⟩

/-- Its body: three string fields of one byte each. -/
def sampleBody : Bytes := [0x0A, 1, 0x31, 0x12, 1, 0x53, 0x1A, 1, 0x4D]

/-- The body of its response: `METHOD_NOT_FOUND` and a text of 21 bytes. -/
def sampleReply : Bytes :=
  [0x0A, 1, 0x31, 0x10, 1, 0x1A, 21] ++
    "method not found: S.M".toList.map fun c => UInt8.ofNat c.toNat

/-- A server that has no handler for the request. -/
def sampleEnv : Env where
  request := .only sampleRequest sampleBody
  response := .only ⟨"1", 1, "method not found: S.M", []⟩ sampleReply

end Connection
end Server
end MiniRpc
