/-
# Requests and responses

How often, over the whole system (`MiniRpc.EndToEnd.System`).  A request is written
once, on one connection, and nothing in between repeats it: the handlers see it
once at most (`handed_once`), and the client reads one response to it at most, in
the order of the requests if the server has no pool (`answers_once`).  What the
parsers of both sides read is never malformed (`never_malformed`).
-/

import MiniRpc.EndToEnd.Answers
import Mathlib.Data.List.Perm.Subperm

namespace MiniRpc
namespace EndToEnd

open Protocol Client Server Transition

/-- Different places of a list hold a part of it. -/
theorem filterMap_getElem?_subperm {α : Type*} {l : List α} {ids : List ℕ} (hnodup : ids.Nodup)
    (hlt : ∀ i ∈ ids, i < l.length) : (ids.filterMap fun i => l[i]?).Subperm l := by
  have hall : (List.range l.length).filterMap (fun i => l[i]?) = l := by
    have hmap : (List.range l.length).map (fun i => l[i]?) = l.map some := by
      refine List.ext_getElem (by simp) fun i h₁ h₂ => ?_
      simp
    have hid : (l.map some).filterMap id = l := by simp [List.filterMap_map]
    rw [← hmap, List.filterMap_map] at hid
    exact hid
  obtain ⟨m, hperm, hsub⟩ : ids.Subperm (List.range l.length) :=
    List.subperm_of_subset hnodup fun i hi => List.mem_range.2 (hlt i hi)
  refine ⟨m.filterMap fun i => l[i]?, hperm.filterMap _, ?_⟩
  have := hsub.filterMap fun i => l[i]?
  rwa [hall] at this

namespace System

variable {env : LoopEnv} {s t : System}

/-- The request is not named like a heartbeat. -/
def isBusiness (x : Option ℕ × RpcRequest) : Bool := x.2.serviceName ≠ kHeartbeatServiceName

/-- What the server's end does with a frame of a request. -/
theorem business_serialize {g : ℕ} (hinv : s.Inverts env) {x : Option ℕ × RpcRequest}
    (hx : x ∈ s.client.requests g) :
    business (baseEnv env) (env.request.serialize x.2) =
      if isBusiness x then some x.2 else none := by
  have hp : (baseEnv env).request.parse (env.request.serialize x.2) = some x.2 := (hinv g x hx).1
  rw [business, hp]
  simp only [isBusiness, decide_not, Bool.not_eq_true', decide_eq_false_iff_not, ite_not]

/-- **The frames that the server's end took, and the requests that it handed over**:
those of requests on its socket, in their order, and maybe one more whose dispatch
failed. -/
theorem Linked.handed (h : s.Linked env) (hinv : s.Inverts env) {g : ℕ} {e : ServerEnd}
    (hg : s.server g = some e) :
    ∃ zs extra : List (Option ℕ × RpcRequest), (zs ++ extra).Sublist (s.client.requests g) ∧
      e.connection.bodies = zs.map (fun x => env.request.serialize x.2) ∧
      e.connection.out.handed = (zs.filter isBusiness ++ extra).map Prod.snd ∧
      ∀ x ∈ extra, isBusiness x = true := by
  obtain ⟨responses, hserved, -⟩ := h.served g e hg
  obtain ⟨xs, hsub, hbodies, -, hnext⟩ := h.frames hg
  obtain ⟨extra, hhanded, hextra⟩ := hserved.handed
  have hmap : ∀ zs : List (Option ℕ × RpcRequest), zs.Sublist xs →
      (zs.map fun x => env.request.serialize x.2).filterMap (business (baseEnv env)) =
        (zs.filter isBusiness).map Prod.snd := by
    intro zs hzs
    rw [List.filterMap_map, ← List.filterMap_eq_filter, List.map_filterMap]
    refine List.filterMap_congr fun x hx => ?_
    rw [Function.comp_apply, business_serialize hinv (hsub.subset (hzs.subset hx))]
    by_cases hb : isBusiness x <;> simp [hb, Option.guard]
  cases extra with
  | none =>
    obtain ⟨zs, hzs, heq⟩ := List.prefix_map_iff.1 hbodies
    refine ⟨zs, [], by simpa using hzs.sublist.trans hsub, heq, ?_, by simp⟩
    rw [hhanded, heq, hmap zs hzs.sublist]
    simp
  | some request =>
    obtain ⟨-, body, rest, hcut, hb⟩ := hextra request rfl
    obtain ⟨ys, hys, heq⟩ := List.prefix_map_iff.1 (hnext body rest hcut)
    obtain ⟨zs, ys', rfl, hzs, hx⟩ := List.map_eq_append_iff.1 heq.symm
    obtain ⟨x, rfl, rfl⟩ := List.map_eq_singleton_iff.1 hx
    have hmem : x ∈ s.client.requests g := hsub.subset (hys.subset (by simp))
    rw [business_serialize hinv hmem] at hb
    split_ifs at hb with hbusiness
    obtain rfl := Option.some.inj hb
    refine ⟨zs, [x], hys.sublist.trans hsub, hzs.symm, ?_, by simpa using hbusiness⟩
    rw [hhanded, ← hzs, hmap zs ((List.sublist_append_left _ _).trans hys.sublist)]
    simp

/-- The entry of a request that is no heartbeat names its call. -/
theorem Linked.call_of_business (h : s.Linked env) {g : ℕ} {x : Option ℕ × RpcRequest}
    (hx : x ∈ s.client.requests g) (hb : isBusiness x = true) :
    ∃ k, x.1 = some k ∧ s.client.asked k = some x.2 := by
  obtain ⟨o, request⟩ := x
  cases o with
  | none => simp [isBusiness, (h.kept.beats g request hx).2, RpcClient.kHeartbeatServiceName,
      kHeartbeatServiceName] at hb
  | some k => exact ⟨k, rfl, (h.kept.written g k request hx).1⟩

/-- Two requests with one id are the same one. -/
theorem Linked.eq_of_requestId (h : s.Linked env) (hN : Client.Numbered s.calls) {g g' : ℕ}
    {x y : Option ℕ × RpcRequest} (hx : x ∈ s.client.requests g) (hy : y ∈ s.client.requests g')
    (hbx : isBusiness x = true) (hby : isBusiness y = true)
    (hid : x.2.requestId = y.2.requestId) : x = y ∧ g = g' := by
  obtain ⟨o, q⟩ := x
  obtain ⟨o', q'⟩ := y
  obtain ⟨j, rfl, hj⟩ := h.call_of_business hx hbx
  obtain ⟨k, rfl, hk⟩ := h.call_of_business hy hby
  obtain ⟨c, hc, hcid⟩ := h.kept.asked j q hj
  obtain ⟨d, hd, hdid⟩ := h.kept.asked k q' hk
  obtain rfl := hN.inj j k c d hc hd (hcid.trans (hid.trans hdid.symm))
  obtain rfl := Option.some.inj (hj.symm.trans hk)
  exact ⟨rfl, h.kept.apart g g' j q q hx hy⟩

/-- **The handlers see a request once at most.**  In a run of the system that spares
its connections, every request that any of the server's ends handed over is one
that a call asked; no end handed one over twice, and no two ends the same. -/
theorem handed_once {es : List Act}
    (hspares : Along (step env) (fun s a => s.spares env a = true) {} es)
    (hrun : exec (step env) {} es = some t)
    (hdraws : (observe (step env) (fun s a => s.event env a) {} es).countP Event.draws < 2 ^ 64)
    (hinv : t.Inverts env) :
    (∀ g e, t.server g = some e → (e.connection.out.handed.map RpcRequest.requestId).Nodup ∧
      ∀ request ∈ e.connection.out.handed, ∃ k, t.client.asked k = some request) ∧
    ∀ g g' e e' request request', t.server g = some e → t.server g' = some e' →
      request ∈ e.connection.out.handed → request' ∈ e'.connection.out.handed →
      request.requestId = request'.requestId → request = request' ∧ g = g' := by
  have h : t.Linked env := linked hspares hrun hinv
  have hN : Client.Numbered t.calls := (decided_exec hdraws (exec_events hrun)).1
  -- the entries of the requests that one end handed over
  have hentries : ∀ g e, t.server g = some e → ∃ ys : List (Option ℕ × RpcRequest),
      ys.Sublist (t.client.requests g) ∧ e.connection.out.handed = ys.map Prod.snd ∧
        ∀ x ∈ ys, isBusiness x = true := by
    intro g e hg
    obtain ⟨zs, extra, hsub, -, hhanded, hextra⟩ := h.handed hinv hg
    refine ⟨zs.filter isBusiness ++ extra, (List.filter_sublist.append_right extra).trans hsub,
      hhanded, fun x hx => ?_⟩
    rcases List.mem_append.1 hx with hx | hx
    · exact (List.mem_filter.1 hx).2
    · exact hextra x hx
  constructor
  · intro g e hg
    obtain ⟨ys, hsub, hhanded, hbusiness⟩ := hentries g e hg
    have hcalls : (ys.filterMap Prod.fst).Nodup := (h.kept.nodup g).sublist (hsub.filterMap _)
    have hnodup : ys.Nodup := by
      refine List.Nodup.of_map Prod.fst ?_
      have hsome : ys.map Prod.fst = (ys.filterMap Prod.fst).map some := by
        rw [List.map_filterMap, ← List.filterMap_eq_map]
        refine List.filterMap_congr fun x hx => ?_
        obtain ⟨k, hk, -⟩ := h.call_of_business (hsub.subset hx) (hbusiness x hx)
        simp [hk]
      rw [hsome]
      exact hcalls.map (Option.some_injective _)
    rw [hhanded, List.map_map]
    refine ⟨hnodup.map_on fun x hx y hy hid => ?_, fun request hmem => ?_⟩
    · exact (h.eq_of_requestId hN (hsub.subset hx) (hsub.subset hy) (hbusiness x hx)
        (hbusiness y hy) hid).1
    · obtain ⟨x, hx, rfl⟩ := List.mem_map.1 hmem
      obtain ⟨k, -, hk⟩ := h.call_of_business (hsub.subset hx) (hbusiness x hx)
      exact ⟨k, hk⟩
  · intro g g' e e' request request' hg hg' hmem hmem' hid
    obtain ⟨ys, hsub, hhanded, hbusiness⟩ := hentries g e hg
    obtain ⟨ys', hsub', hhanded', hbusiness'⟩ := hentries g' e' hg'
    rw [hhanded] at hmem
    rw [hhanded'] at hmem'
    obtain ⟨x, hx, rfl⟩ := List.mem_map.1 hmem
    obtain ⟨y, hy, rfl⟩ := List.mem_map.1 hmem'
    obtain ⟨rfl, hgg⟩ := h.eq_of_requestId hN (hsub.subset hx) (hsub'.subset hy)
      (hbusiness x hx) (hbusiness' y hy) hid
    exact ⟨rfl, hgg⟩

/-- One call. -/
theorem handed_once_sample : ∃ t e, exec (step sampleLoop) {} sampleRun = some t ∧
    t.server 0 = some e ∧ (e.connection.out.handed.map RpcRequest.requestId).Nodup := by
  obtain ⟨t, -, ht, hinv, -⟩ := exists_sampleRun
  have hserver : ((exec (step sampleLoop) {} sampleRun).map fun t => (t.server 0).isSome) =
      some true := by
    decide +kernel
  obtain ⟨t', ht', hsome⟩ := Option.map_eq_some_iff.1 hserver
  obtain rfl := Option.some.inj (ht.symm.trans ht')
  obtain ⟨e, he⟩ := Option.isSome_iff_exists.1 hsome
  exact ⟨t, e, ht, he,
    ((handed_once sampleRun_spares ht (by decide +kernel) hinv).1 0 e he).1⟩

/-! ### Responses -/

/-- The response to a written request, as it is sent. -/
def answerBody (env : LoopEnv) (x : Option ℕ × RpcRequest) : Bytes :=
  env.response.serialize (serve env x.2)

/-- **The server's end answers a request on its socket once at most**, and in the
order of the requests if it has no pool. -/
theorem Linked.answers (h : s.Linked env) (hinv : s.Inverts env) {g : ℕ} {e : ServerEnd}
    (hg : s.server g = some e) {responses : List RpcResponse} (hserved : e.Served env responses) :
    responses.Subperm ((s.client.requests g).map fun x => serve env x.2) ∧
      (env.submit = none →
        responses.Sublist ((s.client.requests g).map fun x => serve env x.2)) := by
  obtain ⟨zs, extra, hsub, hbodies, hhanded, -⟩ := h.handed hinv hg
  have hmem : ∀ x ∈ zs, x ∈ s.client.requests g := fun x hx => hsub.subset (by simp [hx])
  have hreply : ∀ x ∈ zs, reply (baseEnv env) (env.request.serialize x.2) = serve env x.2 :=
    fun x hx => reply_eq_serve (hinv g x (hmem x hx)).1
  have hinline : env.submit = none →
      responses.Sublist ((s.client.requests g).map fun x => serve env x.2) := by
    intro hnone
    have hmap : e.connection.bodies.map (reply (baseEnv env)) = zs.map fun x => serve env x.2 := by
      rw [hbodies, List.map_map]
      exact List.map_congr_left hreply
    rw [hserved.inline hnone, hmap]
    exact ((List.sublist_append_left _ _).trans hsub).map _
  refine ⟨?_, hinline⟩
  cases hpool : env.submit with
  | none => exact (hinline hpool).subperm
  | some submit =>
    obtain ⟨ids, hids, hperm⟩ := hserved.pooled
    -- what is not dispatched is answered in its turn
    have hown : e.connection.bodies.filterMap (ownReply env) =
        (zs.filter fun x => !isBusiness x).map fun x => serve env x.2 := by
      rw [hbodies, List.filterMap_map, ← List.filterMap_eq_filter, List.map_filterMap]
      refine List.filterMap_congr fun x hx => ?_
      rw [Function.comp_apply, ownReply, business_serialize hinv (hmem x hx), hreply x hx, hpool]
      by_cases hb : isBusiness x <;> simp [hb, Option.guard]
    -- what is dispatched is answered once at most
    have hanswers : (ids.filterMap (ServerEnd.answerTo env e.connection.out.handed)).Subperm
        ((zs.filter isBusiness ++ extra).map fun x => serve env x.2) := by
      have hpart := filterMap_getElem?_subperm (l := (zs.filter isBusiness ++ extra).map
        fun x => serve env x.2) (hserved.nodup.sublist hids) fun i hi => by
          have := hserved.completed i (hids.subset hi)
          rw [hhanded] at this
          simpa using this
      have heq : ids.filterMap (ServerEnd.answerTo env e.connection.out.handed) =
          ids.filterMap fun i => ((zs.filter isBusiness ++ extra).map
            fun x => serve env x.2)[i]? := by
        refine List.filterMap_congr fun i _ => ?_
        rw [ServerEnd.answerTo, hhanded, List.getElem?_map, List.getElem?_map, Option.map_map]
        rfl
      rw [heq]
      exact hpart
    refine hperm.subperm.trans ?_
    rw [hown]
    refine ((List.Subperm.refl _).append hanswers).trans ?_
    rw [← List.map_append, ← List.append_assoc]
    refine List.Subperm.trans ?_ (hsub.map _).subperm
    refine (List.Perm.map _ (List.Perm.append_right extra ?_)).subperm
    refine List.perm_append_comm.trans ?_
    exact List.filter_append_perm isBusiness zs

/-- **A request gets one response at most, and its own.**  In a run that spares the
connections, the bodies that the dispatcher of a socket took are answers to
requests that were written on the socket, none to the same request twice; without
a pool they come in the order of the requests. -/
theorem answers_once {es : List Act}
    (hspares : Along (step env) (fun s a => s.spares env a = true) {} es)
    (hrun : exec (step env) {} es = some t) (hinv : t.Inverts env) (g : ℕ) :
    (t.reader g).bodies.Subperm ((t.client.requests g).map (answerBody env)) ∧
      (env.submit = none →
        (t.reader g).bodies.Sublist ((t.client.requests g).map (answerBody env))) := by
  have h : t.Linked env := linked hspares hrun hinv
  obtain ⟨responses, hserved, hnone, hvalid, hwire⟩ := h.wire g
  have hway : OnTheWay (responses.map env.response.serialize)
      (stream (responses.map env.response.serialize)) := by
    refine .stream fun body hbody => ?_
    obtain ⟨r, hr, rfl⟩ := List.mem_map.1 hbody
    exact hvalid r hr
  obtain ⟨others, hall, -⟩ := hway.taken (h.sized g) (h.read g ▸ (h.taken g).trans hwire)
  have htaken : (t.reader g).bodies.Sublist (responses.map env.response.serialize) := by
    rw [hall]
    exact List.sublist_append_left _ _
  cases hg : t.server g with
  | none =>
    rw [hnone hg] at htaken
    obtain heq := List.sublist_nil.1 htaken
    rw [heq]
    exact ⟨List.nil_subperm, fun _ => List.nil_sublist _⟩
  | some e =>
    obtain ⟨hsubperm, hsublist⟩ := h.answers hinv hg (hserved e hg)
    have hmap : (t.client.requests g).map (answerBody env) =
        ((t.client.requests g).map fun x => serve env x.2).map env.response.serialize := by
      rw [List.map_map]
      rfl
    rw [hmap]
    refine ⟨htaken.subperm.trans ?_, fun hd => htaken.trans ((hsublist hd).map _)⟩
    obtain ⟨l, hperm, hsub⟩ := hsubperm
    exact ⟨_, hperm.map _, hsub.map _⟩

/-- One call. -/
theorem answers_once_sample : ∃ t, exec (step sampleLoop) {} sampleRun = some t ∧
    (t.reader 0).bodies = [Server.Connection.sampleReply] ∧
    (t.reader 0).bodies.Sublist ((t.client.requests 0).map (answerBody sampleLoop)) := by
  obtain ⟨t, -, ht, hinv, -⟩ := exists_sampleRun
  have hbodies : ((exec (step sampleLoop) {} sampleRun).map fun t => (t.reader 0).bodies) =
      some [Server.Connection.sampleReply] := by
    decide +kernel
  rw [ht] at hbodies
  exact ⟨t, ht, Option.some.inj hbodies, (answers_once sampleRun_spares ht hinv 0).2 rfl⟩

/-- **Nothing is lost in between.**  In a run that spares the connections, with a
server that has no pool: once the server has read what was written on the socket
and has parsed it, its responses are sent, and the dispatcher has read and parsed
them, it has the answer to every request whose frame was written, in their order. -/
theorem drained_answers {es : List Act}
    (hspares : Along (step env) (fun s a => s.spares env a = true) {} es)
    (hrun : exec (step env) {} es = some t) (hinv : t.Inverts env) (hsubmit : env.submit = none)
    {g : ℕ} {e : ServerEnd} (hg : t.server g = some e)
    (hread : e.connection.received = t.written g)
    (hparsed : frameSplitter.cut e.connection.readBuffer.readable = .more)
    (hsent : e.connection.out.wire = e.connection.out.emitted)
    (htaken : t.taken g = e.connection.out.wire)
    (hdecoded : frameSplitter.cut (t.reader g).unread = .more) :
    ∃ xs : List (Option ℕ × RpcRequest), xs.Sublist (t.client.requests g) ∧
      OnTheWay (xs.map fun x => env.request.serialize x.2) (t.written g) ∧
      (t.reader g).bodies = xs.map (answerBody env) := by
  have h : t.Linked env := linked hspares hrun hinv
  obtain ⟨xs, hsub, hway⟩ := h.kept.onTheWay (h.unbroken.framed g)
  obtain ⟨responses, hserved, -⟩ := h.served g e hg
  -- the server has taken every whole frame
  obtain ⟨others, hall, hothers⟩ := hway.taken_all hserved.sized hread
  obtain rfl := hothers.eq_nil hparsed
  rw [List.append_nil] at hall
  have hresponses : responses.map env.response.serialize = xs.map (answerBody env) := by
    rw [hserved.inline hsubmit, ← hall, List.map_map, List.map_map]
    refine List.map_congr_left fun x hx => ?_
    rw [Function.comp_apply, Function.comp_apply, reply_eq_serve (hinv g x (hsub.subset hx)).1]
    rfl
  -- and the dispatcher every response
  have hback : OnTheWay (xs.map (answerBody env)) (t.taken g) := by
    rw [htaken, hsent, hserved.emitted, hresponses]
    refine .stream fun body hbody => ?_
    rw [← hresponses] at hbody
    obtain ⟨r, hr, rfl⟩ := List.mem_map.1 hbody
    exact hserved.valid r hr
  obtain ⟨others, hall', hothers⟩ := hback.taken_all (h.sized g) (h.read g).symm
  obtain rfl := hothers.eq_nil hdecoded
  rw [List.append_nil] at hall'
  exact ⟨xs, hsub, hway, hall'.symm⟩

/-- One call. -/
theorem drained_answers_sample : ∃ t xs, exec (step sampleLoop) {} sampleRun = some t ∧
    OnTheWay ((xs : List (Option ℕ × RpcRequest)).map fun x => sampleLoop.request.serialize x.2)
      (t.written 0) ∧
    (t.reader 0).bodies = xs.map (answerBody sampleLoop) := by
  obtain ⟨t, -, ht, hinv, -⟩ := exists_sampleRun
  have hfacts : ((exec (step sampleLoop) {} sampleRun).map fun t =>
      (t.server 0).map fun e => decide (e.connection.received = t.written 0 ∧
        e.connection.readBuffer.readable = [] ∧
        e.connection.out.wire = e.connection.out.emitted ∧
        t.taken 0 = e.connection.out.wire ∧ (t.reader 0).unread = [])) = some (some true) := by
    decide +kernel
  rw [ht] at hfacts
  obtain ⟨e, he, hfacts⟩ := Option.map_eq_some_iff.1 (Option.some.inj hfacts)
  obtain ⟨hread, hparsed, hsent, htaken, hdecoded⟩ := of_decide_eq_true hfacts
  obtain ⟨xs, -, hway, hbodies⟩ := drained_answers sampleRun_spares ht hinv rfl he hread
    (hparsed ▸ cut_nil) hsent htaken (hdecoded ▸ cut_nil)
  exact ⟨t, xs, ht, hway, hbodies⟩

/-- **Neither side ever reads a malformed frame.**  In a run that spares the
connections no dispatcher comes to its steps for an invalid length or a body that
does not parse, no buffer of the server begins with an invalid header, and every
frame that the server took holds a request that was written on this socket. -/
theorem never_malformed {es : List Act}
    (hspares : Along (step env) (fun s a => s.spares env a = true) {} es)
    (hrun : exec (step env) {} es = some t) (hinv : t.Inverts env) (g : ℕ) :
    (t.reader g).step env.response .badLength = none ∧
      (t.reader g).step env.response .badBody = none ∧
      ∀ e, t.server g = some e →
        frameSplitter.cut e.connection.readBuffer.readable ≠ .bad ∧
          ∀ body ∈ e.connection.bodies, ∃ x ∈ t.client.requests g,
            env.request.parse body = some x.2 := by
  have h : t.Linked env := linked hspares hrun hinv
  refine ⟨?_, ?_, fun e hg => ?_⟩
  · by_contra hne
    obtain ⟨r, hr⟩ := Option.ne_none_iff_exists'.1 hne
    rcases Reader.step_cases hr with ⟨_, _, _, ⟨⟩, -⟩ | ⟨-, hcut, -⟩ | ⟨_, _, ⟨⟩, -⟩ |
      ⟨-, -, hnot, -⟩
    · exact (h.next g).1 hcut
    · exact hnot rfl
  · by_contra hne
    obtain ⟨r, hr⟩ := Option.ne_none_iff_exists'.1 hne
    rcases Reader.step_cases hr with ⟨_, _, _, ⟨⟩, -⟩ | ⟨⟨⟩, -⟩ | ⟨body, rest, -, hcut, hparse, -⟩ |
      ⟨-, -, -, hnot, -⟩
    · obtain ⟨e, -, x, -, hx, -⟩ := h.decoded hinv hcut
      cases hparse.symm.trans hx
    · exact hnot rfl
  · obtain ⟨zs, extra, hsub, hbodies, -⟩ := h.handed hinv hg
    refine ⟨(h.frames hg).choose_spec.2.2.1, fun body hbody => ?_⟩
    rw [hbodies] at hbody
    obtain ⟨x, hx, rfl⟩ := List.mem_map.1 hbody
    have hmem : x ∈ t.client.requests g := hsub.subset (by simp [hx])
    exact ⟨x, hmem, (hinv g x hmem).1⟩

/-- One call. -/
theorem never_malformed_sample : ∃ t, exec (step sampleLoop) {} sampleRun = some t ∧
    (t.reader 0).step sampleLoop.response .badBody = none := by
  obtain ⟨t, -, ht, hinv, -⟩ := exists_sampleRun
  exact ⟨t, ht, (never_malformed sampleRun_spares ht hinv 0).2.1⟩

end System
end EndToEnd
end MiniRpc
