/-
# The encoders and the decoders together

Two encoders write frames (`Codec::WriteMessage`; `Connection::QueueResponse`
with `EncodeFrame`) and three decoders read them (`Codec::ReadMessage`,
`Connection::TryParseRequests`, the client's `HandleReadableFrames`).  The
encoders write the same stream, and every decoder takes it apart again, however
it is cut (`round_trip`).  On any other byte string the two decoders that buffer
do what the frame splitter does with the whole of it (`cutting_irrelevant`).
-/

import MiniRpc.Client.Session
import MiniRpc.Server.Session
import Mathlib.Data.List.TakeWhile

namespace MiniRpc
namespace Protocol

open Splitter Server Client

variable {α : Type*}

/-! ### What is left of a byte string -/

/-- The frames of a string and what is left of it: the beginning of one more
frame, or a header that announces an invalid length. -/
theorem split_position (xs : Bytes) :
    stream (frameSplitter.split xs).items ++ (frameSplitter.split xs).rest = xs ∧
      ((frameSplitter.split xs).stop = none →
        (∃ body more, more ≠ [] ∧ frame body = (frameSplitter.split xs).rest ++ more) ∧
        (frameSplitter.split xs).rest.length < kFrameHeaderBytes + kMaxFrameSize) ∧
      ((frameSplitter.split xs).stop ≠ none →
        kFrameHeaderBytes ≤ (frameSplitter.split xs).rest.length ∧
        ¬ ValidLength (decodeLength (frameSplitter.split xs).rest)) := by
  refine ⟨stream_items_append_rest () xs, fun h => ?_, fun h => ?_⟩
  · have hmore : frameSplitter.cut (frameSplitter.split xs).rest = .more := cut_rest h
    exact ⟨prefix_of_cut_more hmore, length_of_cut_more hmore⟩
  · have hbad : frameSplitter.cut (frameSplitter.split xs).rest = .bad :=
      cut_rest_bad (split_stop h)
    exact cutFrame_eq_bad hbad

/-! ### The server's decoder -/

/-- What a server connection has made of the byte string `xs`. -/
structure ServerDecodes (env : Env) (xs : Bytes) (c : Connection) : Prop where
  bodies : c.bodies = (frameSplitter.split xs).items
  handed : c.out.handed = (frameSplitter.split xs).items.filterMap (business env)
  going : (frameSplitter.split xs).stop = none → c.shouldClose = false ∧ c.lastError = "" ∧
    c.readBuffer.readable = (frameSplitter.split xs).rest
  stopped : (frameSplitter.split xs).stop ≠ none → c.shouldClose = true ∧ c.state = .kError ∧
    c.lastError = "invalid request frame length"

/-- **The server's decoder does what the splitter does**, however the string is
cut, if dispatch and response succeed. -/
theorem server_decodes {env : Env} {rc wc : List Time} {ob : Outbox} {events : List Inbox}
    (hi : ∀ i ∈ events, i.Flowing)
    (haccept : Accepts env (Connection.new rc wc ob).out
      (frameSplitter.split (received events)).items) :
    ServerDecodes env (received events)
      ((Connection.new rc wc ob).readEvents env events) := by
  have hdec := Connection.readEvents_eq env
    (Connection.Decoded.fresh (c := Connection.new rc wc ob) rfl rfl rfl rfl) hi
  obtain ⟨unread, hflat, hunread⟩ := drive_flatten (processFrame env) cut_nil
    (Connection.new rc wc ob).out (events.map Inbox.arrived)
  have hhanded := drive_handed env (Connection.new rc wc ob).out (received events)
  obtain ⟨hitems, hrest, hstop⟩ := drive_eq_split (drive_accepts haccept)
  have hfailed := drive_accepts haccept
  rw [reached_of_accepts haccept] at hhanded
  rw [received] at hhanded hitems hrest hstop hfailed ⊢
  rw [hflat] at hhanded hitems hrest hstop hfailed
  rw [feedAll] at hhanded hitems hrest hstop hfailed hunread
  dsimp only at hhanded hitems hrest hstop hfailed
  refine ⟨hdec.bodies.trans hitems, hdec.handed.trans hhanded, fun h => ?_, fun h => ?_⟩
  · obtain ⟨hopen, herr, -⟩ := hdec.going (hstop.2 h)
    refine ⟨hopen, herr, hdec.rest.trans ?_⟩
    rw [← hrest, hunread (hstop.2 h), List.append_nil]
  · obtain ⟨hclose, hstate⟩ := hdec.stopped fun h' => h (hstop.1 h')
    exact ⟨hclose, hstate, hdec.bad (stop_eq_bad (fun h' => h (hstop.1 h')) hfailed)⟩

/-! ### The client's decoder -/

/-- The failure with which the client stops in the byte string `xs`, if it does:
it looks at a body before it looks at the next header. -/
def clientFailure (M : Message RpcResponse) (xs : Bytes) : Option RpcCallResult :=
  if (frameSplitter.split xs).items.any fun body => (M.parse body).isNone then
    some Dispatcher.parseFailure
  else if (frameSplitter.split xs).stop = none then none
  else some Dispatcher.lengthFailure

/-- What a dispatcher that began with the table `s` has made of the byte string
`xs`: it stops at the first malformed frame, by its length or by its body. -/
structure ClientDecodes (M : Message RpcResponse) (s : PendingCalls α × List (Wake α)) (xs : Bytes)
    (d : Dispatcher α) : Prop where
  bodies : d.bodies = (frameSplitter.split xs).items.takeWhile fun body => (M.parse body).isSome
  table : (d.pending, d.wakes) = Dispatcher.failing
    ((Dispatcher.responses M xs).foldl Dispatcher.respond s) (clientFailure M xs)
  running : d.running = true ↔ clientFailure M xs = none
  rest : d.running = true → d.readBuffer = (frameSplitter.split xs).rest

/-- A drive of the client takes the bodies up to the first that does not parse. -/
theorem drive_handleBody (M : Message RpcResponse) (s : PendingCalls α × List (Wake α))
    (xs : Bytes) :
    (frameSplitter.drive (Dispatcher.handleBody M) s xs).items =
        (frameSplitter.split xs).items.takeWhile (fun body => (M.parse body).isSome) ∧
      Dispatcher.stopFailure (frameSplitter.drive (Dispatcher.handleBody M) s xs).stop =
        clientFailure M xs ∧
      (clientFailure M xs = none → (frameSplitter.drive (Dispatcher.handleBody M) s xs).rest =
        (frameSplitter.split xs).rest) := by
  unfold clientFailure split
  induction s, xs using drive_induction frameSplitter
    (Dispatcher.handleBody M) with
  | more s xs hc => simp [drive_more hc, Dispatcher.stopFailure]
  | bad s xs hc => simp [drive_bad hc, Dispatcher.stopFailure]
  | failed s xs body rest s' r hc hh =>
    cases hp : M.parse body with
    | some response => simp [Dispatcher.handleBody, hp] at hh
    | none =>
      obtain ⟨-, rfl⟩ : s = s' ∧ Dispatcher.parseFailure = r := by
        simpa [Dispatcher.handleBody, hp] using hh
      rw [drive_failed hc hh, drive_item hc rfl]
      simp [hp, Dispatcher.stopFailure]
  | item s xs body rest s' hc hh ih =>
    cases hp : M.parse body with
    | none => simp [Dispatcher.handleBody, hp] at hh
    | some response =>
      rw [drive_item hc hh, drive_item hc rfl]
      obtain ⟨h₁, h₂, h₃⟩ := ih
      simp only [List.any_cons, hp, Option.isNone_some, Bool.false_or]
      refine ⟨?_, h₂, h₃⟩
      rw [List.takeWhile_cons, if_pos (by simp [hp]), h₁]

/-- **The client's decoder does what the splitter does**, however the string is
cut, up to the first body that does not parse. -/
theorem client_decodes {M : Message RpcResponse} {d : Dispatcher α} (hb : d.bodies = [])
    (hr : d.readBuffer = []) (hrun : d.running = true) {events : List Inbox}
    (hi : ∀ i ∈ events, i.Flowing) :
    ClientDecodes M (d.pending, d.wakes) (received events)
      (d.readableEvents M events) := by
  have hdec := Dispatcher.readableEvents_eq (M := M)
    (p := ⟨(d.pending, d.wakes), [], [], none⟩) (d := d)
    ⟨hb, rfl, by simp [hrun], fun _ => hr⟩ hi
  obtain ⟨unread, hflat, hunread⟩ := drive_flatten (Dispatcher.handleBody M) cut_nil
    (d.pending, d.wakes) (events.map Inbox.arrived)
  obtain ⟨hitems, hstop, hrest⟩ :=
    drive_handleBody M (d.pending, d.wakes) (received events)
  have hstate := Dispatcher.drive_state (M := M) (d.pending, d.wakes) (received events)
  rw [received] at hitems hstop hrest hstate ⊢
  rw [hflat] at hitems hstop hrest hstate
  rw [feedAll] at hitems hstop hrest hstate hunread
  dsimp only at hitems hstop hrest hstate
  have hrunning : (d.readableEvents M events).running = true ↔
      clientFailure M (events.map Inbox.arrived).flatten = none := by
    rw [hdec.running, ← hstop, Dispatcher.stopFailure_eq_none]
  refine ⟨hdec.bodies.trans hitems, ?_, hrunning, fun h => ?_⟩
  · rw [hdec.table, hstop, hstate]
  · have hnone := hdec.running.1 h
    rw [hdec.rest hnone, ← hrest (hrunning.1 h), hunread hnone, List.append_nil]

/-! ### The two decoders on any byte string -/

/-- **How a byte string is cut does not matter.**  Every way of cutting `xs` into
answers of `recv` and read events makes the server, with dispatch and response
succeeding, and the client decode what the splitter finds in the whole of `xs`;
what is left is the beginning of one frame, or a malformed header; and where all
complete bodies parse, the two take the same bodies and stop at the same place. -/
theorem cutting_irrelevant (env : Env) (rc wc : List Time) (ob : Outbox)
    (M : Message RpcResponse) (pending : PendingCalls α) (wakes : List (Wake α))
    (clock : List Time) (xs : Bytes) :
    (Accepts env (Connection.new rc wc ob).out (frameSplitter.split xs).items →
      ∀ events, (∀ i ∈ events, Inbox.Flowing i) → received events = xs →
        ServerDecodes env xs ((Connection.new rc wc ob).readEvents env events)) ∧
    (∀ events, (∀ i ∈ events, Inbox.Flowing i) → received events = xs →
      ClientDecodes M (pending, wakes) xs
        (Dispatcher.readableEvents M { pending, wakes, clock } events)) ∧
    (stream (frameSplitter.split xs).items ++ (frameSplitter.split xs).rest = xs ∧
      ((frameSplitter.split xs).stop = none →
        (∃ body more, more ≠ [] ∧ frame body = (frameSplitter.split xs).rest ++ more) ∧
        (frameSplitter.split xs).rest.length < kFrameHeaderBytes + kMaxFrameSize) ∧
      ((frameSplitter.split xs).stop ≠ none →
        kFrameHeaderBytes ≤ (frameSplitter.split xs).rest.length ∧
        ¬ ValidLength (decodeLength (frameSplitter.split xs).rest))) ∧
    (Accepts env (Connection.new rc wc ob).out (frameSplitter.split xs).items →
      (∀ body ∈ (frameSplitter.split xs).items, (M.parse body).isSome) →
      ∀ events events', (∀ i ∈ events, Inbox.Flowing i) → received events = xs →
        (∀ i ∈ events', Inbox.Flowing i) → received events' = xs →
        ((Connection.new rc wc ob).readEvents env events).bodies =
          (Dispatcher.readableEvents M { pending, wakes, clock } events').bodies ∧
        (((Connection.new rc wc ob).readEvents env events).shouldClose = true ↔
          (Dispatcher.readableEvents M { pending, wakes, clock } events').running = false)) := by
  have hserver : Accepts env (Connection.new rc wc ob).out (frameSplitter.split xs).items →
      ∀ events, (∀ i ∈ events, Inbox.Flowing i) → received events = xs →
        ServerDecodes env xs ((Connection.new rc wc ob).readEvents env events) := by
    rintro haccept events hi rfl
    exact server_decodes hi haccept
  have hclient : ∀ events, (∀ i ∈ events, Inbox.Flowing i) → received events = xs →
      ClientDecodes M (pending, wakes) xs
        (Dispatcher.readableEvents M { pending, wakes, clock } events) := by
    rintro events hi rfl
    exact client_decodes (d := { pending, wakes, clock }) rfl rfl rfl hi
  refine ⟨hserver, hclient, split_position xs, ?_⟩
  intro haccept hparse events events' hi hx hi' hx'
  have hs := hserver haccept events hi hx
  have hc := hclient events' hi' hx'
  have hany : ((frameSplitter.split xs).items.any fun body => (M.parse body).isNone) = false := by
    rw [List.any_eq_false]
    intro body hbody
    simpa [Option.isSome_iff_ne_none] using hparse body hbody
  constructor
  · rw [hs.bodies, hc.bodies, List.takeWhile_eq_self_iff.2 hparse]
  · rw [← Bool.not_eq_true, hc.running, clientFailure, if_neg (by simp [hany])]
    by_cases hstop : (frameSplitter.split xs).stop = none
    · simp [hstop, (hs.going hstop).1]
    · simp [hstop, (hs.stopped hstop).1]

open Connection in
/-- A frame cut inside its header, read by the server and the client. -/
theorem cutting_irrelevant_sample :
    ServerDecodes sampleEnv (frame sampleBody)
      ((new [] [] []).readEvents sampleEnv [[.data 0 [0]], [.data 0 (9 :: sampleBody)]]) ∧
    ClientDecodes sampleEnv.response (({} : PendingCalls ℕ), []) (frame sampleBody)
      (Dispatcher.readableEvents sampleEnv.response {}
        [[.data 0 [0]], [.data 0 (9 :: sampleBody)]]) := by
  have hi : ∀ i ∈ [[RecvResult.data 0 [0]], [RecvResult.data 0 (9 :: sampleBody)]],
      Inbox.Flowing i := by
    simp [Inbox.Flowing]
  obtain ⟨hserver, hclient, -⟩ := cutting_irrelevant sampleEnv [] [] [] sampleEnv.response
    ({} : PendingCalls ℕ) [] [] (frame sampleBody)
  refine ⟨hserver ?_ _ hi rfl, hclient _ hi rfl⟩
  rw [split_frame (by decide)]
  exact ⟨rfl, trivial⟩

/-! ### The encoders -/

/-- `QueueResponse` called for each response, as long as it succeeds. -/
def queueResponses (env : Env) (o : Outbound) : List RpcResponse → Except String Outbound
  | [] => .ok o
  | r :: rs =>
    match queueResponse env o r with
    | .error e => .error e
    | .ok o => queueResponses env o rs

/-- The responses queued one after the other are the stream of their frames. -/
theorem queueResponses_eq {env : Env} {rs : List RpcResponse}
    (hsize : ∀ r ∈ rs, ValidLength (env.response.byteSizeLong r)) {o : Outbound}
    (hlimit : o.pendingWriteBytes + (stream (rs.map env.response.serialize)).length ≤
      env.options.maxWriteBufferBytes) :
    ∃ o' chunks, queueResponses env o rs = .ok o' ∧ o'.writeBuffer = o.writeBuffer ++ chunks ∧
      (chunks.map PendingChunk.data).flatten = stream (rs.map env.response.serialize) := by
  induction rs generalizing o with
  | nil => exact ⟨o, [], rfl, (List.append_nil _).symm, rfl⟩
  | cons r rs ih =>
    rw [List.map_cons, stream_cons, List.length_append] at hlimit
    have hone := queueResponse_valid (o := o) (hsize r (by simp)) (by omega)
    obtain ⟨o', chunks, hrest, hbuffer, hdata⟩ := ih (fun r' hr' => hsize r' (by simp [hr']))
      (o := { o with
        pendingWriteBytes := o.pendingWriteBytes + (frame (env.response.serialize r)).length
        writeBuffer := o.writeBuffer ++ [{ data := frame (env.response.serialize r) }] })
      (by dsimp only; omega)
    refine ⟨o', { data := frame (env.response.serialize r) } :: chunks, ?_, ?_, ?_⟩
    · rw [queueResponses, hone]
      exact hrest
    · rw [hbuffer, List.append_assoc]
      rfl
    · rw [List.map_cons, List.flatten_cons, hdata]
      rfl

/-! ### The round trip -/

variable {μ : Type*} {M : Message μ}

/-- The stream of messages that fit is split into their bodies. -/
theorem split_messages {ms : List μ} (hsize : ∀ m ∈ ms, ValidLength (M.byteSizeLong m)) :
    frameSplitter.split (stream (ms.map M.serialize)) = ⟨(), ms.map M.serialize, [], none⟩ := by
  refine split_stream fun b hb => ?_
  obtain ⟨m, hm, rfl⟩ := List.mem_map.1 hb
  exact hsize m hm

theorem map_parse_serialize {ms : List μ} (hinv : M.Inverts ms) :
    (ms.map M.serialize).map M.parse = ms.map some := by
  rw [List.map_map, List.map_inj_left]
  exact hinv

/-- The requests in the bodies of requests: all but the heartbeats. -/
theorem filterMap_business {env : Env} {qs : List RpcRequest} (hinv : env.request.Inverts qs) :
    (qs.map env.request.serialize).filterMap (business env) =
      qs.filter fun q => q.serviceName ≠ kHeartbeatServiceName := by
  induction qs with
  | nil => rfl
  | cons q qs ih =>
    have hq : env.request.parse (env.request.serialize q) = some q := hinv q (by simp)
    rw [List.map_cons, List.filterMap_cons, List.filter_cons,
      ih fun q' hq' => hinv q' (by simp [hq'])]
    by_cases hb : q.serviceName = kHeartbeatServiceName <;> simp [business, hq, hb]

/-- The responses in the bodies of responses. -/
theorem parsed_serialize {R : Message RpcResponse} {rs : List RpcResponse} (hinv : R.Inverts rs) :
    Dispatcher.parsed R (rs.map R.serialize) = rs := by
  induction rs with
  | nil => rfl
  | cons r rs ih =>
    have hr : R.parse (R.serialize r) = some r := hinv r (by simp)
    rw [List.map_cons, Dispatcher.parsed, hr]
    dsimp only
    rw [ih fun r' hr' => hinv r' (by simp [hr'])]

/-- **What the encoders write, the decoders read.**  Messages of 1 byte to 4 MiB
are written as the stream of their frames, by `WriteMessage` under any partial
sends and by `QueueResponse` within the backpressure limit.  Cut in any way, the
stream is read back by `ReadMessage`, by the server's connection (dispatch and
response succeeding) and by the client's dispatcher as exactly these messages,
with nothing left.  Other sizes are refused and nothing is written. -/
theorem round_trip (env : Env) :
    -- the encoders
    (∀ {μ : Type} (M : Message μ) (ms : List μ), (∀ m ∈ ms, ValidLength (M.byteSizeLong m)) →
      ∀ o, Outbox.Flowing o →
        ∃ o', writeMessages M ms o = (stream (ms.map M.serialize), none, o')) ∧
    (∀ body : Bytes, ValidLength body.length → encodeFrame body = .ok (frame body)) ∧
    (∀ rs, (∀ r ∈ rs, ValidLength (env.response.byteSizeLong r)) →
      ∀ o : Outbound, o.pendingWriteBytes + (stream (rs.map env.response.serialize)).length ≤
          env.options.maxWriteBufferBytes →
        ∃ o' chunks, queueResponses env o rs = .ok o' ∧ o'.writeBuffer = o.writeBuffer ++ chunks ∧
          (chunks.map PendingChunk.data).flatten = stream (rs.map env.response.serialize)) ∧
    -- the decoders
    (∀ {μ : Type} (M : Message μ) (ms : List μ), M.Inverts ms →
      (∀ m ∈ ms, ValidLength (M.byteSizeLong m)) →
      ∀ i, Inbox.Flowing i → i.arrived = stream (ms.map M.serialize) →
        ∃ i', readMessages M ms.length i = (.ok ms, i') ∧ i'.arrived = []) ∧
    (∀ qs, env.request.Inverts qs → (∀ q ∈ qs, ValidLength (env.request.byteSizeLong q)) →
      ∀ rc wc ob events, (∀ i ∈ events, Inbox.Flowing i) →
        received events = stream (qs.map env.request.serialize) →
        Accepts env (Connection.new rc wc ob).out (qs.map env.request.serialize) →
        ((Connection.new rc wc ob).readEvents env events).bodies.map env.request.parse =
            qs.map some ∧
          ((Connection.new rc wc ob).readEvents env events).out.handed =
            qs.filter (fun q => q.serviceName ≠ kHeartbeatServiceName) ∧
          ((Connection.new rc wc ob).readEvents env events).readBuffer.readable = [] ∧
          ((Connection.new rc wc ob).readEvents env events).shouldClose = false) ∧
    (∀ rs, env.response.Inverts rs → (∀ r ∈ rs, ValidLength (env.response.byteSizeLong r)) →
      ∀ (pending : PendingCalls α) wakes clock events, (∀ i ∈ events, Inbox.Flowing i) →
        received events = stream (rs.map env.response.serialize) →
        (Dispatcher.readableEvents env.response { pending, wakes, clock } events).bodies.map
            env.response.parse = rs.map some ∧
          ((Dispatcher.readableEvents env.response { pending, wakes, clock } events).pending,
              (Dispatcher.readableEvents env.response { pending, wakes, clock } events).wakes) =
            rs.foldl Dispatcher.respond (pending, wakes) ∧
          (Dispatcher.readableEvents env.response { pending, wakes, clock } events).readBuffer =
            [] ∧
          (Dispatcher.readableEvents env.response { pending, wakes, clock } events).running =
            true) ∧
    -- sizes out of bounds
    (∀ {μ : Type} (M : Message μ) (m : μ), ¬ ValidLength (M.byteSizeLong m) →
      ∀ o, ∃ e, writeMessage M m o = ([], some e, o)) ∧
    (∀ body : Bytes, ¬ ValidLength body.length → ∃ e, encodeFrame body = .error e) ∧
    (∀ r, ¬ ValidLength (env.response.byteSizeLong r) →
      ∀ o, ∃ e, queueResponse env o r = .error e) := by
  refine ⟨?_, ?_, ?_, ?_, ?_, ?_, ?_, ?_, ?_⟩
  · intro μ M ms hsize o ho
    exact writeMessages_flowing hsize ho
  · intro body hbody
    exact encodeFrame_valid hbody
  · intro rs hsize o hlimit
    exact queueResponses_eq hsize hlimit
  · intro μ M ms hinv hsize i hi ha
    exact readMessages_flowing hinv hsize hi ha
  · intro qs hinv hsize rc wc ob events hi hx haccept
    have hsplit := split_messages hsize
    rw [← hx] at hsplit
    have h := server_decodes hi (by rw [hsplit]; exact haccept)
    have hgoing := h.going (by rw [hsplit])
    have hhanded := h.handed
    rw [hsplit] at hgoing hhanded
    refine ⟨?_, hhanded.trans (filterMap_business hinv), hgoing.2.2, hgoing.1⟩
    rw [h.bodies, hsplit]
    exact map_parse_serialize hinv
  · intro rs hinv hsize pending wakes clock events hi hx
    have hsplit := split_messages hsize
    rw [← hx] at hsplit
    have h := client_decodes (M := env.response) (d := { pending, wakes, clock }) rfl rfl rfl hi
    have hparse : ∀ body ∈ rs.map env.response.serialize, (env.response.parse body).isSome := by
      intro body hbody
      obtain ⟨r, hr, rfl⟩ := List.mem_map.1 hbody
      rw [hinv r hr]
      rfl
    have hnone : clientFailure env.response (received events) = none := by
      rw [clientFailure, hsplit, if_neg, if_pos rfl]
      simpa [Option.isSome_iff_ne_none] using hparse
    have hresponses : Dispatcher.responses env.response (received events) = rs := by
      rw [Dispatcher.responses, hsplit]
      exact parsed_serialize hinv
    have hrun := h.running.2 hnone
    refine ⟨?_, ?_, ?_, hrun⟩
    · rw [h.bodies, hsplit, List.takeWhile_eq_self_iff.2 hparse]
      exact map_parse_serialize hinv
    · rw [h.table, hnone, hresponses]
      rfl
    · rw [h.rest hrun, hsplit]
  · intro μ M m hm o
    exact writeMessage_refused hm o
  · intro body hbody
    exact ⟨_, encodeFrame_invalid hbody⟩
  · intro r hr o
    exact ⟨_, queueResponse_invalid hr⟩

open Connection in
/-- A request written with a partial send and read in two events, and its
response read one byte first. -/
theorem round_trip_sample :
    (∃ o', writeMessages sampleEnv.request [sampleRequest] [.sent 1, .interrupted] =
      (stream [sampleBody], none, o')) ∧
    ((new [] [] []).readEvents sampleEnv
      [[.data 0 [0]], [.data 0 [9], .interrupted, .data 0x0A (sampleBody.drop 1)]]).out.handed =
        [sampleRequest] ∧
    (Dispatcher.readableEvents sampleEnv.response ({} : Dispatcher ℕ)
      [[.data 0 [], .data 0 ([0, 28] ++ sampleReply)]]).bodies.map sampleEnv.response.parse =
        [some ⟨"1", 1, "method not found: S.M", []⟩] := by
  obtain ⟨hwrite, -, -, -, hserver, hclient, -⟩ := round_trip (α := ℕ) sampleEnv
  refine ⟨hwrite sampleEnv.request [sampleRequest] (by decide) _ (by simp [Outbox.Flowing]), ?_, ?_⟩
  · refine (hserver [sampleRequest] ?_ (by decide) [] [] [] _ (by simp [Inbox.Flowing]) rfl
      ⟨rfl, trivial⟩).2.1.trans rfl
    intro q hq
    rw [List.mem_singleton.1 hq]
    rfl
  · refine (hclient [⟨"1", 1, "method not found: S.M", []⟩] ?_ (by decide) {} [] [] _
      (by simp [Inbox.Flowing]) rfl).1
    intro r hr
    rw [List.mem_singleton.1 hr]
    rfl

end Protocol
end MiniRpc
