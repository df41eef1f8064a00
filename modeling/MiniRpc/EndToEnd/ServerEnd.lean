/-
# The server's end of a connection

One connection of the server while its client talks to it: the calls of the event
loop and the rounds of the coroutine (`MiniRpc.Server.Closing`), each round with
the answers of the socket, and the responses that come back from the thread pool.
A request is known to the pool by its place among those that were handed over; a
task runs once, so a response comes back once, in any order and at any time.

`Served` says what the end has queued, whatever happened to it: without a pool
the replies to the frames it took, in their order; with a pool the replies to the
frames that are not dispatched, and the answers that came back, no request's
twice.
-/

import MiniRpc.Server.Reading

namespace MiniRpc
namespace EndToEnd

open Protocol Splitter Server Transition

/-- What a connection is built with in one round: what its worker has, with a
dispatcher that answers as given if there is a pool. -/
def connectionEnv (env : LoopEnv) (dispatch : DispatchRequest → Except String Unit) : Env where
  request := env.request
  response := env.response
  registry := env.registry
  dispatcher := env.submit.map fun _ => dispatch

/-- What a connection is built with, as far as its requests and replies go. -/
def baseEnv (env : LoopEnv) : Env := connectionEnv env fun _ => .ok ()

/-- **What the server says to a request.** -/
def serve (env : LoopEnv) (request : RpcRequest) : RpcResponse :=
  if request.serviceName = kHeartbeatServiceName then ⟨request.requestId, 0, "", []⟩
  else answer (env.registry.find request.serviceName request.methodName) request

/-- The reply to a frame that is not dispatched. -/
def ownReply (env : LoopEnv) (body : Bytes) : Option RpcResponse :=
  if env.submit.isSome && (business (baseEnv env) body).isSome then none
  else some (reply (baseEnv env) body)

theorem serve_requestId (env : LoopEnv) (request : RpcRequest) :
    (serve env request).requestId = request.requestId := by
  unfold serve
  split_ifs
  · rfl
  · exact answer_requestId _ _

/-- The reply to the frame of a request. -/
theorem reply_eq_serve {env : LoopEnv} {body : Bytes} {request : RpcRequest}
    (h : env.request.parse body = some request) : reply (baseEnv env) body = serve env request := by
  have hp : (baseEnv env).request.parse body = some request := h
  unfold reply serve
  rw [hp]
  dsimp only
  rw [handleOneRequest_eq]
  rfl

/-- A request that is handed over was parsed from its frame, and is no heartbeat. -/
theorem business_eq_some {env : Env} {body : Bytes} {request : RpcRequest}
    (h : business env body = some request) :
    env.request.parse body = some request ∧ request.serviceName ≠ kHeartbeatServiceName := by
  unfold business at h
  cases hp : env.request.parse body with
  | none => simp [hp] at h
  | some q =>
    rw [hp] at h
    dsimp only at h
    split_ifs at h with hbeat
    obtain rfl := Option.some.inj h
    exact ⟨rfl, hbeat⟩

/-- The server's end of a connection: the connection, and which of the requests
it handed over had their response back from the pool. -/
structure ServerEnd where
  turn : Turn
  completed : List ℕ := []

namespace ServerEnd

/-- The connection. -/
def connection (s : ServerEnd) : Connection := s.turn.connection

/-- What happens to the end. -/
inductive Act where
  /-- A round of the coroutine: how the dispatcher answers, and the socket. -/
  | round (dispatch : DispatchRequest → Except String Unit) (answers : Inbox) (takes : Outbox)
  /-- The response to the `i`-th request that was handed over comes back.  A request whose
  dispatch failed is handed over too; that a response to it comes is more than the code
  does. -/
  | complete (i : ℕ)
  | notifyReadable
  | notifyWritable
  | tick (now : Time)
  | markClosing
  | markClosed

/-- A connection that was just accepted. -/
def start (readClock writeClock : List Time) : ServerEnd := ⟨.start readClock writeClock [] [], []⟩

/-- The socket will answer as given. -/
def answering (s : Turn) (answers : Inbox) (takes : Outbox) : Turn :=
  { s with connection := { s.connection with
      inbox := answers, out := { s.connection.out with outbox := takes } } }

/-- A call of the loop. -/
def call (s : ServerEnd) (a : Turn.Act) : Option ServerEnd :=
  (s.turn.step a).map fun turn => { s with turn }

/-- One step, `none` if it cannot happen in the state.  What comes back is the
answer to the request (`runTask_response`). -/
def step (env : LoopEnv) (s : ServerEnd) : Act → Option ServerEnd
  | .round dispatch answers takes =>
    ((answering s.turn answers takes).step (.round (connectionEnv env dispatch))).map fun turn =>
      { s with turn }
  | .complete i =>
    match s.connection.out.handed[i]? with
    | none => none
    | some request =>
      if env.submit.isNone || i ∈ s.completed then none
      else
        (s.turn.step (.enqueueResponse (baseEnv env)
          (answer (env.registry.find request.serviceName request.methodName) request))).map
            fun turn => { turn, completed := s.completed ++ [i] }
  | .notifyReadable => s.call .notifyReadable
  | .notifyWritable => s.call .notifyWritable
  | .tick now => s.call (.tick now)
  | .markClosing => s.call .markClosing
  | .markClosed => s.call .markClosed

/-- The answer to the `i`-th request that was handed over. -/
def answerTo (env : LoopEnv) (handed : List RpcRequest) (i : ℕ) : Option RpcResponse :=
  handed[i]?.map (serve env)

/-- **What the end has queued**: `responses`, each in a frame of its own. -/
structure Served (env : LoopEnv) (s : ServerEnd) (responses : List RpcResponse) : Prop where
  emitted : s.connection.out.emitted = stream (responses.map env.response.serialize)
  valid : ∀ r ∈ responses, ValidLength (env.response.byteSizeLong r)
  inline : env.submit = none → responses = s.connection.bodies.map (reply (baseEnv env))
  pooled : ∃ ids : List ℕ, ids.Sublist s.completed ∧
    responses.Perm (s.connection.bodies.filterMap (ownReply env) ++
      ids.filterMap (answerTo env s.connection.out.handed))
  handed : ∃ extra : Option RpcRequest,
    s.connection.out.handed =
      s.connection.bodies.filterMap (business (baseEnv env)) ++ extra.toList ∧
    ∀ q ∈ extra, s.connection.shouldClose = true ∧ ∃ body rest,
      frameSplitter.cut s.connection.readBuffer.readable = .item body rest ∧
        business (baseEnv env) body = some q
  nodup : s.completed.Nodup
  completed : ∀ i ∈ s.completed, i < s.connection.out.handed.length
  sized : ∀ body ∈ s.connection.bodies, ValidLength body.length

variable {env : LoopEnv} {s t : ServerEnd} {responses : List RpcResponse}

theorem Served.start (rc wc : List Time) : Served env (start rc wc) [] where
  emitted := rfl
  valid := by simp
  inline := fun _ => rfl
  pooled := ⟨[], List.Sublist.refl _, List.Perm.refl _⟩
  handed := ⟨none, rfl, by simp⟩
  nodup := List.nodup_nil
  completed := by simp [ServerEnd.start]
  sized := by
    intro body hbody
    cases hbody

/-- What is not reading, and brings no response back, queues nothing. -/
theorem Served.keeps (h : s.Served env responses) (hk : Keeps s.connection t.connection)
    (hc : t.completed = s.completed) : t.Served env responses where
  emitted := hk.emitted.trans h.emitted
  valid := h.valid
  inline := fun hd => hk.bodies ▸ h.inline hd
  pooled := by
    rw [hk.bodies, hk.handed, hc]
    exact h.pooled
  handed := by
    obtain ⟨extra, hhanded, hextra⟩ := h.handed
    rw [hk.bodies, hk.handed, hk.readBuffer]
    exact ⟨extra, hhanded, fun q hq => ⟨hk.closing (hextra q hq).1, (hextra q hq).2⟩⟩
  nodup := hc ▸ h.nodup
  completed := fun i hi => by
    rw [hk.handed]
    exact h.completed i (hc ▸ hi)
  sized := hk.bodies ▸ h.sized

/-- An answer stays what it is when more requests are handed over. -/
theorem filterMap_answerTo {handed more : List RpcRequest} {ids : List ℕ}
    (h : ∀ i ∈ ids, i < handed.length) :
    ids.filterMap (answerTo env (handed ++ more)) = ids.filterMap (answerTo env handed) := by
  refine List.filterMap_congr fun i hi => ?_
  rw [answerTo, answerTo, List.getElem?_append_left (h i hi)]

/-- A frame taken in a round gets its own reply, or is dispatched. -/
theorem response_frame (dispatch : DispatchRequest → Except String Unit) (body : Bytes) :
    (WriteEvent.frame body).response (connectionEnv env dispatch) = ownReply env body := by
  have hd : (connectionEnv env dispatch).dispatcher.isSome = env.submit.isSome := by
    simp [connectionEnv]
  rw [WriteEvent.response, hd]
  rfl

/-- **A round that reads** queues the replies to the frames it takes. -/
theorem Served.reads (h : s.Served env responses)
    {dispatch : DispatchRequest → Except String Unit} {arrived : Bytes} {items : List Bytes}
    {extra : Option RpcRequest} (hopen : s.connection.shouldClose = false)
    (hr : Reads (connectionEnv env dispatch) s.connection t.connection arrived items extra)
    (hclose : extra ≠ none → t.connection.shouldClose = true) (hc : t.completed = s.completed) :
    t.Served env (responses ++ items.filterMap (ownReply env)) := by
  have hown : (items.filterMap fun body =>
      (WriteEvent.frame body).response (connectionEnv env dispatch)) =
        items.filterMap (ownReply env) :=
    List.filterMap_congr fun body _ => response_frame dispatch body
  -- the connection was open, so no request was handed over without being taken
  have hhanded : s.connection.out.handed =
      s.connection.bodies.filterMap (business (baseEnv env)) := by
    obtain ⟨extra₀, hhanded, hextra⟩ := h.handed
    cases extra₀ with
    | none => simpa using hhanded
    | some q =>
      rw [(hextra q rfl).1] at hopen
      cases hopen
  have hbodies := hr.bodies
  have hmore := hr.handed
  refine ⟨?_, ?_, fun hd => ?_, ?_, ⟨extra, ?_, fun q hq => ?_⟩, hc ▸ h.nodup, fun i hi => ?_,
    fun body hbody => ?_⟩
  · rw [hr.emitted, h.emitted, hown, List.map_append, stream, stream, stream, List.flatMap_append]
    rfl
  · intro r hrs
    rcases List.mem_append.1 hrs with hrs | hrs
    · exact h.valid r hrs
    · exact hr.valid r (hown ▸ hrs)
  · have hreply : items.filterMap (ownReply env) = items.map (reply (baseEnv env)) := by
      rw [← List.filterMap_eq_map]
      refine List.filterMap_congr fun body _ => ?_
      simp [ownReply, hd]
    rw [hbodies, h.inline hd, hreply, List.map_append]
  · obtain ⟨ids, hsub, hperm⟩ := h.pooled
    refine ⟨ids, hc ▸ hsub, ?_⟩
    rw [hmore, List.append_assoc,
      filterMap_answerTo fun i hi => h.completed i (hsub.subset hi), hbodies,
      List.filterMap_append, List.append_assoc]
    refine (hperm.append_right _).trans ?_
    rw [List.append_assoc]
    exact (List.perm_append_comm).append_left _
  · rw [hmore, hhanded, hbodies, List.filterMap_append]
    rfl
  · exact ⟨hclose (by rw [hq]; simp), hr.extra q hq⟩
  · have := h.completed i (hc ▸ hi)
    rw [hmore, List.append_assoc, List.length_append]
    omega
  · rw [hbodies] at hbody
    rcases List.mem_append.1 hbody with hbody | hbody
    · exact h.sized body hbody
    · exact hr.sized body hbody

/-- A request that was handed over is no heartbeat, so it is answered as `answer`
says. -/
theorem Served.serve_handed (h : s.Served env responses) {request : RpcRequest}
    (hmem : request ∈ s.connection.out.handed) :
    request.serviceName ≠ kHeartbeatServiceName ∧ serve env request =
      answer (env.registry.find request.serviceName request.methodName) request := by
  have hname : request.serviceName ≠ kHeartbeatServiceName := by
    obtain ⟨extra, hhanded, hextra⟩ := h.handed
    rw [hhanded] at hmem
    rcases List.mem_append.1 hmem with hmem | hmem
    · obtain ⟨body, -, hb⟩ := List.mem_filterMap.1 hmem
      exact (business_eq_some hb).2
    · obtain ⟨-, body, rest, -, hb⟩ := hextra request (by simpa using hmem)
      exact (business_eq_some hb).2
  exact ⟨hname, if_neg hname⟩

/-- **Every response is the reply to a frame** that was taken, or whose dispatch
failed; a request in the frame was handed over. -/
theorem Served.source (h : s.Served env responses) {r : RpcResponse} (hr : r ∈ responses) :
    ∃ body, (body ∈ s.connection.bodies ∨
        ∃ rest, frameSplitter.cut s.connection.readBuffer.readable = .item body rest) ∧
      r = reply (baseEnv env) body ∧
      ∀ request, business (baseEnv env) body = some request →
        request ∈ s.connection.out.handed := by
  obtain ⟨extra, hhanded, hextra⟩ := h.handed
  obtain ⟨ids, -, hperm⟩ := h.pooled
  have htaken : ∀ body ∈ s.connection.bodies, ∀ request,
      business (baseEnv env) body = some request → request ∈ s.connection.out.handed := by
    intro body hbody request hb
    rw [hhanded]
    exact List.mem_append_left _ (List.mem_filterMap.2 ⟨body, hbody, hb⟩)
  rcases List.mem_append.1 (hperm.mem_iff.1 hr) with hr | hr
  · obtain ⟨body, hbody, hown⟩ := List.mem_filterMap.1 hr
    unfold ownReply at hown
    split_ifs at hown
    exact ⟨body, Or.inl hbody, (Option.some.inj hown).symm, htaken body hbody⟩
  · obtain ⟨i, -, hi⟩ := List.mem_filterMap.1 hr
    obtain ⟨request, hrequest, rfl⟩ := Option.map_eq_some_iff.1 hi
    have hmem := List.mem_of_getElem? hrequest
    have hmem' := hmem
    rw [hhanded] at hmem'
    rcases List.mem_append.1 hmem' with hmem' | hmem'
    · obtain ⟨body, hbody, hb⟩ := List.mem_filterMap.1 hmem'
      exact ⟨body, Or.inl hbody, (reply_eq_serve (business_eq_some hb).1).symm,
        htaken body hbody⟩
    · obtain ⟨-, body, rest, hcut, hb⟩ := hextra request (by simpa using hmem')
      refine ⟨body, Or.inr ⟨rest, hcut⟩, (reply_eq_serve (business_eq_some hb).1).symm, ?_⟩
      intro request' hb'
      exact Option.some.inj (hb.symm.trans hb') ▸ hmem

/-- **A response comes back** and is queued, or refused. -/
theorem Served.complete (h : s.Served env responses) {i : ℕ}
    (hs : s.step env (.complete i) = some t) :
    ∃ more, t.Served env (responses ++ more) ∧ t.connection.received = s.connection.received ∧
      t.connection.out.wire = s.connection.out.wire ∧
      t.connection.out.handed = s.connection.out.handed := by
  simp only [ServerEnd.step] at hs
  cases hq : s.connection.out.handed[i]? with
  | none => simp [hq] at hs
  | some request =>
    rw [hq] at hs
    dsimp only at hs
    split_ifs at hs with hcond
    obtain ⟨turn, hturn, rfl⟩ := Option.map_eq_some_iff.1 hs
    obtain ⟨-, rfl⟩ := Turn.called_cases hturn
    obtain ⟨hpool, hnew⟩ := not_or.1 (by simpa using hcond)
    obtain ⟨hi, -⟩ := List.getElem?_eq_some_iff.1 hq
    have hserve := (h.serve_handed (List.mem_of_getElem? hq)).2
    rw [← hserve]
    obtain ⟨ids, hsub, hperm⟩ := h.pooled
    have hnodup : (s.completed ++ [i]).Nodup :=
      List.nodup_append.2 ⟨h.nodup, by simp, by rintro j hj k hk rfl; simp_all⟩
    have hcompleted : ∀ j ∈ s.completed ++ [i], j < s.connection.out.handed.length := by
      intro j hj
      rcases List.mem_append.1 hj with hj | hj
      · exact h.completed j hj
      · rw [List.mem_singleton.1 hj]
        exact hi
    have hinline : env.submit ≠ none := by simpa using hpool
    rcases hr : enqueueResponse (baseEnv env) s.connection.out (serve env request) with ⟨out, _ | e⟩
    · have hemit := enqueueResponse_emitted hr
      have hhanded := enqueueResponse_handed (baseEnv env) s.connection.out (serve env request)
      have hwire := enqueueResponse_wire (baseEnv env) s.connection.out (serve env request)
      rw [hr] at hhanded hwire
      have hr' : enqueueResponse (baseEnv env) s.turn.connection.out (serve env request) =
        (out, none) := hr
      refine ⟨[serve env request], ?_, rfl, by simpa only [ServerEnd.connection, hr'] using hwire,
        by simpa only [ServerEnd.connection, hr'] using hhanded⟩
      simp only [hr']
      refine ⟨?_, ?_, fun hd => absurd hd hinline, ⟨ids ++ [i], hsub.append_right [i], ?_⟩, ?_,
        hnodup, ?_, h.sized⟩
      · rw [List.map_append, stream, List.flatMap_append]
        refine hemit.trans ?_
        rw [h.emitted]
        simp [stream, baseEnv, connectionEnv]
      · intro r hmem
        rcases List.mem_append.1 hmem with hmem | hmem
        · exact h.valid r hmem
        · rw [List.mem_singleton.1 hmem]
          exact (enqueueResponse_ok hr).1
      · show (responses ++ [serve env request]).Perm
          (s.connection.bodies.filterMap (ownReply env) ++
          (ids ++ [i]).filterMap (answerTo env out.handed))
        have hone : answerTo env s.connection.out.handed i = some (serve env request) := by
          rw [answerTo, hq]
          rfl
        rw [hhanded, List.filterMap_append, ← List.append_assoc]
        refine (hperm.append_right _).trans (List.Perm.of_eq ?_)
        rw [List.filterMap_cons, hone, List.filterMap_nil]
      · show ∃ extra, out.handed = _ ∧ _
        rw [hhanded]
        exact h.handed
      · show ∀ j ∈ s.completed ++ [i], j < out.handed.length
        rw [hhanded]
        exact hcompleted
    · obtain rfl := enqueueResponse_failed hr
      have hr' : enqueueResponse (baseEnv env) s.turn.connection.out (serve env request) =
        (s.turn.connection.out, some e) := hr
      refine ⟨[], ?_, rfl, by simp only [ServerEnd.connection, hr'],
        by simp only [ServerEnd.connection, hr']⟩
      rw [List.append_nil]
      simp only [hr']
      exact ⟨h.emitted, h.valid, fun hd => absurd hd hinline,
        ⟨ids, hsub.trans (List.sublist_append_left _ _), hperm⟩, h.handed, hnodup, hcompleted,
        h.sized⟩

/-- Every round but one that reads keeps what was read and queued. -/
theorem coRound_keeps (e : Env) {place : Connection.Place} {c : Connection}
    (h : place = .afterRead → c.shouldClose = true) : Keeps c (c.coRound e place).1 := by
  rcases coRound_cases e place c with ⟨hsame, -⟩ | ⟨rfl, -⟩ | ⟨-, c₁, hbefore, hafter⟩
  · exact hsame.keeps
  · unfold Connection.coRound
    dsimp only
    rw [if_pos (by simpa [Connection.clearReadDeadline] using h rfl)]
    exact Same.keeps ⟨rfl, rfl, rfl, id⟩
  · exact (hbefore.keeps.trans (.onWritable e c₁)).trans hafter.keeps

/-- A round that reads. -/
theorem coRound_reads (e : Env) {c : Connection} (hopen : c.shouldClose = false) :
    ∃ items extra, Reads e c (c.coRound e .afterRead).1 c.inbox.arrived items extra ∧
      (extra ≠ none → (c.coRound e .afterRead).1.shouldClose = true) := by
  rcases coRound_cases e .afterRead c with
    ⟨-, hclose⟩ | ⟨-, c₁, hbefore, hinbox, hafter⟩ | ⟨hplace, -⟩
  · rw [hclose rfl] at hopen
    cases hopen
  · obtain ⟨items, extra, hreads, hclose⟩ := onReadable_reads e c₁
    rw [← hinbox]
    exact ⟨items, extra, (hreads.of_same hbefore).keeps hafter.keeps,
      fun hne => hafter.closing (hclose hne)⟩
  · cases hplace

/-- A call of the loop leaves what was read and queued alone. -/
theorem call_same {a : Turn.Act} (ha : (∃ now, a = .tick now) ∨ a = .notifyReadable ∨
    a = .notifyWritable ∨ a = .markClosing ∨ a = .markClosed) (hs : s.call a = some t) :
    Same s.connection t.connection ∧ t.completed = s.completed := by
  obtain ⟨turn, hturn, rfl⟩ := Option.map_eq_some_iff.1 hs
  refine ⟨?_, rfl⟩
  rcases ha with ⟨now, rfl⟩ | rfl | rfl | rfl | rfl
  · obtain ⟨-, rfl⟩ := Turn.called_cases hturn
    exact .tick now _
  · show Same s.turn.connection turn.connection
    rw [(Turn.notify_cases hturn).1]
    split_ifs <;> exact ⟨rfl, rfl, rfl, id⟩
  · show Same s.turn.connection turn.connection
    rw [(Turn.notify_cases hturn).1]
    split_ifs <;> exact ⟨rfl, rfl, rfl, id⟩
  · obtain ⟨-, rfl⟩ := Turn.called_cases hturn
    exact .markClosing _
  · obtain ⟨-, rfl⟩ := Turn.called_cases hturn
    exact .markClosed _

/-- `t` has read, queued, handed over and flushed what `s` has, and maybe more. -/
structure Extends (s t : ServerEnd) : Prop where
  received : s.connection.received <+: t.connection.received
  wire : s.connection.out.wire <+: t.connection.out.wire
  handed : s.connection.out.handed <+: t.connection.out.handed

theorem Extends.refl (s : ServerEnd) : s.Extends s :=
  ⟨List.prefix_rfl, List.prefix_rfl, List.prefix_rfl⟩

theorem Extends.trans {u : ServerEnd} (h : s.Extends t) (h' : t.Extends u) : s.Extends u :=
  ⟨h.received.trans h'.received, h.wire.trans h'.wire, h.handed.trans h'.handed⟩

theorem Extends.of_keeps (h : Keeps s.connection t.connection) : s.Extends t :=
  ⟨by rw [h.received], h.wire, by rw [h.handed]⟩

/-- **What one step does**: more may be read, queued and flushed. -/
theorem Served.step {a : Act} (h : s.Served env responses) (hs : s.step env a = some t) :
    ∃ more, t.Served env (responses ++ more) ∧ s.Extends t := by
  have hkeeps : Keeps s.connection t.connection → t.completed = s.completed →
      ∃ more, t.Served env (responses ++ more) ∧ s.Extends t :=
    fun hk hc => ⟨[], by rw [List.append_nil]; exact h.keeps hk hc, .of_keeps hk⟩
  cases a with
  | round dispatch answers takes =>
    obtain ⟨turn, hturn, rfl⟩ := Option.map_eq_some_iff.1 hs
    obtain ⟨place, -, rfl⟩ := Option.map_eq_some_iff.1 hturn
    have hsocket : Keeps s.connection (answering s.turn answers takes).connection :=
      Same.keeps ⟨rfl, rfl, rfl, id⟩
    by_cases hplace : place = .afterRead → s.connection.shouldClose = true
    · exact hkeeps (hsocket.trans (coRound_keeps _ hplace)) rfl
    · obtain ⟨rfl, hopen⟩ := Classical.not_imp.1 hplace
      have hopen : s.connection.shouldClose = false := by simpa using hopen
      have h' : Served env { s with turn := answering s.turn answers takes } responses :=
        h.keeps hsocket rfl
      obtain ⟨items, extra, hreads, hclose⟩ := coRound_reads (connectionEnv env dispatch)
        (c := (answering s.turn answers takes).connection) hopen
      refine ⟨_, h'.reads (t := { s with turn := ⟨_, _⟩ }) hopen hreads hclose rfl, ?_, ?_, ?_⟩
      · rw [← hsocket.received]
        exact hreads.received ▸ List.prefix_append _ _
      · exact hsocket.wire.trans hreads.wire
      · rw [← hsocket.handed]
        exact ⟨_, ((List.append_assoc ..).symm.trans hreads.handed.symm)⟩
  | complete i =>
    obtain ⟨more, ht, hreceived, hwire, hhanded⟩ := h.complete hs
    exact ⟨more, ht, by rw [hreceived], by rw [hwire], by rw [hhanded]⟩
  | notifyReadable =>
    obtain ⟨hk, hc⟩ := call_same (by simp) hs
    exact hkeeps hk.keeps hc
  | notifyWritable =>
    obtain ⟨hk, hc⟩ := call_same (by simp) hs
    exact hkeeps hk.keeps hc
  | tick now =>
    obtain ⟨hk, hc⟩ := call_same (by simp) hs
    exact hkeeps hk.keeps hc
  | markClosing =>
    obtain ⟨hk, hc⟩ := call_same (by simp) hs
    exact hkeeps hk.keeps hc
  | markClosed =>
    obtain ⟨hk, hc⟩ := call_same (by simp) hs
    exact hkeeps hk.keeps hc

end ServerEnd
end EndToEnd
end MiniRpc
