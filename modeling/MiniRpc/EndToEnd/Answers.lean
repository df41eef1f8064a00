/-
# What a caller gets

Over the whole system (`MiniRpc.EndToEnd.System`): the results that calls receive,
however the threads of the client, the dispatchers, the sockets, the rounds of the
server's coroutines and the tasks of its pool take turns, and over any number of
reconnections.
-/

import MiniRpc.EndToEnd.System
import MiniRpc.Server.Session

namespace MiniRpc
namespace EndToEnd

open Protocol Client Server Transition

namespace System

variable {env : LoopEnv} {s t : System}

/-! ### What a run keeps -/

/-- What `t` has on record that `s` had. -/
structure Grows (s t : System) : Prop where
  requests : ∀ g, s.client.requests g <+: t.client.requests g
  server : ∀ g e, s.server g = some e →
    ∃ e', t.server g = some e' ∧ e.connection.out.handed <+: e'.connection.out.handed
  asked : ∀ k request, s.client.asked k = some request → t.client.asked k = some request

theorem Grows.refl (s : System) : s.Grows s :=
  ⟨fun _ => List.prefix_rfl, fun _ e h => ⟨e, h, List.prefix_rfl⟩, fun _ _ => id⟩

theorem Grows.trans {u : System} (h : s.Grows t) (h' : t.Grows u) : s.Grows u where
  requests := fun g => (h.requests g).trans (h'.requests g)
  server := by
    intro g e he
    obtain ⟨e', he', hle⟩ := h.server g e he
    obtain ⟨e'', he'', hle'⟩ := h'.server g e' he'
    exact ⟨e'', he'', hle.trans hle'⟩
  asked := fun k request hk => h'.asked k request (h.asked k request hk)

theorem clientEnd_requests {M : Message RpcRequest} {s t : ClientEnd} {a : LockedClient.Act}
    (hs : ClientEnd.step M s a = some t) (g : ℕ) : s.requests g <+: t.requests g := by
  obtain ⟨client, -, rfl⟩ := Option.map_eq_some_iff.1 hs
  dsimp only
  cases ClientEnd.puts s.client a with
  | none => exact List.prefix_rfl
  | some x =>
    by_cases hg : g = x.1
    · subst hg
      simp
    · simp [Function.update_of_ne hg]

/-- A step adds to what was written. -/
theorem requests_grow {a : Act} (hs : step env s a = some t) (g : ℕ) :
    s.client.requests g <+: t.client.requests g := by
  cases a with
  | client a =>
    obtain ⟨client, hclient, hs⟩ := Option.bind_eq_some_iff.1 hs
    obtain ⟨reader, -, rfl⟩ := Option.map_eq_some_iff.1 hs
    exact clientEnd_requests hclient g
  | recv g' arrived =>
    simp only [step] at hs
    split at hs
    · split_ifs at hs
      obtain rfl := Option.some.inj hs
      exact List.prefix_rfl
    · cases hs
  | accept g' readClock writeClock =>
    simp only [step] at hs
    split_ifs at hs
    obtain rfl := Option.some.inj hs
    exact List.prefix_rfl
  | server g' a =>
    simp only [step] at hs
    split at hs
    · cases hs
    · obtain ⟨e, -, hs⟩ := Option.bind_eq_some_iff.1 hs
      split_ifs at hs
      obtain rfl := Option.some.inj hs
      exact List.prefix_rfl

theorem Inverts.of_prefix (h : t.Inverts env)
    (hle : ∀ g, s.client.requests g <+: t.client.requests g) : s.Inverts env :=
  fun g x hx => h g x ((hle g).subset hx)

theorem Inverts.of_run {es : List Act} (h : t.Inverts env) (hrun : exec (step env) s es = some t) :
    s.Inverts env :=
  h.of_prefix (exec_invariant (I := fun u => ∀ g, s.client.requests g <+: u.client.requests g)
    (fun _ => List.prefix_rfl) (fun _ _ _ h hs g => (h g).trans (requests_grow hs g)) hrun)

/-- **The link holds in every run that spares the connections.** -/
theorem linked {es : List Act} (hspares : Along (step env) (fun s a => s.spares env a = true) {} es)
    (hrun : exec (step env) {} es = some t) (hinv : t.Inverts env) : t.Linked env :=
  exec_along (I := fun s => s.Inverts env → s.Linked env)
    (fun _ _ _ h hP hs hinv =>
      have hinv' := hinv.of_prefix (requests_grow hs)
      (h hinv').step hinv' hP hs)
    (fun _ => .init) hspares hrun hinv

/-- Nothing was written on a socket that is still to be made. -/
theorem requests_fresh {es : List Act}
    (hspares : Along (step env) (fun s a => s.spares env a = true) {} es)
    (hrun : exec (step env) {} es = some t) (g : ℕ) (hg : t.rpcClient.generations ≤ g) :
    t.client.requests g = [] := by
  have hclient : t.client.Kept env.request ∧ t.client.client.Unbroken := by
    refine exec_along (P := fun s a => s.spares env a = true)
      (I := fun s => s.client.Kept env.request ∧ s.client.client.Unbroken) ?_ ⟨.init, .init⟩
      hspares hrun
    intro s a t h hP hs
    cases a with
    | client a =>
      obtain ⟨client, hclient, hs⟩ := Option.bind_eq_some_iff.1 hs
      obtain ⟨reader, -, rfl⟩ := Option.map_eq_some_iff.1 hs
      simp only [spares, Bool.and_eq_true, Bool.not_eq_true'] at hP
      refine ⟨h.1.step hclient, ?_⟩
      obtain ⟨locked, hlocked, rfl⟩ := Option.map_eq_some_iff.1 hclient
      exact h.2.step hP.1 hlocked
    | recv g arrived =>
      simp only [step] at hs
      split at hs
      · split_ifs at hs
        obtain rfl := Option.some.inj hs
        exact h
      · cases hs
    | accept g readClock writeClock =>
      simp only [step] at hs
      split_ifs at hs
      obtain rfl := Option.some.inj hs
      exact h
    | server g a =>
      simp only [step] at hs
      split at hs
      · cases hs
      · obtain ⟨e, -, hs⟩ := Option.bind_eq_some_iff.1 hs
        split_ifs at hs
        obtain rfl := Option.some.inj hs
        exact h
  have hbodies := hclient.1.bodies g
  rw [hclient.2.fresh g hg] at hbodies
  exact List.map_eq_nil_iff.1 hbodies.symm

/-- A call asks one thing. -/
theorem asked_kept {M : Message RpcRequest} {s t : ClientEnd} {a : LockedClient.Act} (h : s.Kept M)
    (hs : ClientEnd.step M s a = some t) {k : ℕ} {request : RpcRequest}
    (hk : s.asked k = some request) : t.asked k = some request := by
  obtain ⟨client, hclient, rfl⟩ := Option.map_eq_some_iff.1 hs
  dsimp only
  cases hbegins : ClientEnd.begins s.client client a with
  | none => exact hk
  | some x =>
    have hne : k ≠ x.1 := by
      rintro rfl
      unfold ClientEnd.begins at hbegins
      split at hbegins
      · rename_i hmove htop
        obtain ⟨T, m⟩ := a
        obtain rfl : m = _ := hmove
        obtain ⟨-, -, hfresh, -⟩ := ClientEnd.Kept.begin_cases hclient htop
        obtain rfl := Option.some.inj hbegins
        obtain ⟨c, hc, -⟩ := h.asked _ request hk
        rw [hfresh] at hc
        cases hc
      · cases hbegins
    exact (Function.update_of_ne hne ..).trans hk

theorem Grows.of_step {a : Act} (h : s.Linked env) (hs : step env s a = some t) : s.Grows t := by
  have hrequests := requests_grow hs
  cases a with
  | client a =>
    obtain ⟨client, hclient, hs⟩ := Option.bind_eq_some_iff.1 hs
    obtain ⟨reader, -, rfl⟩ := Option.map_eq_some_iff.1 hs
    exact ⟨hrequests, fun _ e he => ⟨e, he, List.prefix_rfl⟩,
      fun k request => asked_kept h.kept hclient⟩
  | recv g' arrived =>
    simp only [step] at hs
    split at hs
    · split_ifs at hs
      obtain rfl := Option.some.inj hs
      exact ⟨hrequests, fun _ e he => ⟨e, he, List.prefix_rfl⟩, fun _ _ => id⟩
    · cases hs
  | accept g' readClock writeClock =>
    simp only [step] at hs
    split_ifs at hs with hnew
    obtain rfl := Option.some.inj hs
    refine ⟨hrequests, fun g e he => ⟨e, ?_, List.prefix_rfl⟩, fun _ _ => id⟩
    have hne : g ≠ g' := by
      rintro rfl
      simp [he] at hnew
    exact (Function.update_of_ne hne ..).trans he
  | server g' a =>
    simp only [step] at hs
    cases hg : s.server g' with
    | none => simp [hg] at hs
    | some e₀ =>
      rw [hg] at hs
      obtain ⟨e', he', hs⟩ := Option.bind_eq_some_iff.1 hs
      split_ifs at hs
      obtain rfl := Option.some.inj hs
      refine ⟨hrequests, fun g e he => ?_, fun _ _ => id⟩
      by_cases hgg : g = g'
      · subst hgg
        obtain rfl := Option.some.inj (hg.symm.trans he)
        obtain ⟨responses, hserved, -⟩ := h.served g e₀ hg
        obtain ⟨more, -, hextends⟩ := hserved.step he'
        exact ⟨e', Function.update_self .., hextends.handed⟩
      · exact ⟨e, (Function.update_of_ne hgg ..).trans he, List.prefix_rfl⟩

/-- What is on record at some time of a run stays there. -/
theorem grows {es : List Act} (hspares : Along (step env) (fun s a => s.spares env a = true) s es)
    (h : s.Linked env) (hrun : exec (step env) s es = some t) (hinv : t.Inverts env) :
    s.Grows t := by
  have hinvariant := exec_along (P := fun s a => s.spares env a = true)
    (I := fun u => u.Inverts env → u.Linked env ∧ s.Grows u)
    (fun u a v hu hP hs hinv => by
      obtain ⟨hlinked, hgrows⟩ := hu (hinv.of_prefix (requests_grow hs))
      exact ⟨hlinked.step (hinv.of_prefix (requests_grow hs)) hP hs,
        hgrows.trans (.of_step hlinked hs)⟩)
    (fun _ => ⟨h, .refl s⟩) hspares hrun
  exact (hinvariant hinv).2

/-! ### The calls of a run -/

/-- The calls of the client. -/
def calls (s : System) : Client.State := s.rpcClient.calls

theorem exec_event {a : Act} (hs : step env s a = some t) :
    exec Client.step s.calls (s.event env a).toList = some t.calls := by
  cases a with
  | client a =>
    obtain ⟨client, hclient, hs⟩ := Option.bind_eq_some_iff.1 hs
    obtain ⟨reader, -, rfl⟩ := Option.map_eq_some_iff.1 hs
    obtain ⟨locked, hlocked, rfl⟩ := Option.map_eq_some_iff.1 hclient
    exact LockedClient.exec_event hlocked
  | recv g arrived =>
    simp only [step] at hs
    split at hs
    · split_ifs at hs
      obtain rfl := Option.some.inj hs
      rfl
    · cases hs
  | accept g readClock writeClock =>
    simp only [step] at hs
    split_ifs at hs
    obtain rfl := Option.some.inj hs
    rfl
  | server g a =>
    simp only [step] at hs
    split at hs
    · cases hs
    · obtain ⟨e, -, hs⟩ := Option.bind_eq_some_iff.1 hs
      split_ifs at hs
      obtain rfl := Option.some.inj hs
      rfl

/-- **A run of the system is a run of the calls.** -/
theorem exec_events {es : List Act} (hrun : exec (step env) s es = some t) :
    exec Client.step s.calls (observe (step env) (fun s a => s.event env a) s es) =
      some t.calls :=
  exec_part calls (fun _ _ _ => exec_event) hrun

/-- A dispatcher that decodes a response has found it in its buffer. -/
theorem found_of_response {a : LockedClient.Act} {g : ℕ} {m : RpcResponse}
    (hs : step env s (.client a) = some t)
    (hmove : a.move = .client (.dispatcher g (.response m))) :
    ∃ body rest, frameSplitter.cut (s.reader g).unread = .item body rest ∧
      env.response.parse body = some m := by
  obtain ⟨client, -, hs⟩ := Option.bind_eq_some_iff.1 hs
  obtain ⟨reader, hreader, -⟩ := Option.map_eq_some_iff.1 hs
  rw [readers, hmove] at hreader
  obtain ⟨r, hr, -⟩ := Option.map_eq_some_iff.1 hreader
  rcases Reader.step_cases hr with ⟨_, body, rest, ⟨⟩, hcut, hparse, -⟩ | ⟨⟨⟩, -⟩ | ⟨_, _, ⟨⟩, -⟩ |
    ⟨-, -, -, -, hnot⟩
  · exact ⟨body, rest, hcut, hparse⟩
  · exact absurd rfl (hnot m)

/-- The request of a call whose id comes back in an answer is the one that was
answered. -/
theorem Linked.asked_of_answer (h : s.Linked env) (hN : Client.Numbered s.calls) {g k : ℕ}
    {c : Call} {x : Option ℕ × RpcRequest} (hx : x ∈ s.client.requests g)
    (hc : s.calls.calls.lookup k = some c) (hid : x.2.requestId = c.requestId) :
    x.1 = some k ∧ s.client.asked k = some x.2 := by
  obtain ⟨o, request⟩ := x
  cases o with
  | none =>
    obtain ⟨n, -, -, hn⟩ := hN.drawn k c hc
    have hbeat := (h.kept.beats g request hx).1
    rw [show request.requestId = toString n from hid.trans hn, isHeartbeatId_toString] at hbeat
    cases hbeat
  | some j =>
    obtain ⟨hj, -⟩ := h.kept.written g j request hx
    obtain ⟨d, hd, hdid⟩ := h.kept.asked j request hj
    obtain rfl := hN.inj j k d c hd hc (hdid.trans hid)
    exact ⟨rfl, hj⟩

/-- **What a call receives is its own answer.**  In a run of the system in which no
heartbeat is cut off, no `Connect` comes before the old dispatcher has left, and
the request ids have not come round, each call receives one result at most: one
that the client made itself, or what the server says to the request of this call,
which the server handed over unless it is named like a heartbeat. -/
theorem received_answer {es : List Act} (hspares : Along (step env)
      (fun s a => s.spares env a = true) {} es) (hrun : exec (step env) {} es = some t)
    (hdraws : (observe (step env) (fun s a => s.event env a) {} es).countP Event.draws < 2 ^ 64)
    (hinv : t.Inverts env) {k : ℕ} {c : Call} (hc : t.calls.calls.lookup k = some c) :
    c.received.length ≤ 1 ∧ ∀ r ∈ c.received,
      (∃ o : Origin, o.isLocal = true ∧ o.result = r) ∨
      ∃ request, t.client.asked k = some request ∧ r = mapped (serve env request) ∧
        (request.serviceName ≠ kHeartbeatServiceName →
          ∃ g e, t.server g = some e ∧ request ∈ e.connection.out.handed) := by
  have hcalls := exec_events hrun
  have hN : Client.Numbered t.calls := (decided_exec hdraws hcalls).1
  have hend : t.Linked env := linked hspares hrun hinv
  obtain ⟨hlen, -, hreceived⟩ := received_first hcalls hdraws hc
  refine ⟨hlen, fun r hr => ?_⟩
  obtain ⟨pre, e, post, u, c', slot, heq, hu, hc', -, -, -, hcase, -⟩ := hreceived r hr
  obtain ⟨pre', a, post', v, rfl, hv, he, rfl⟩ := exists_of_observe_eq heq
  have hvu : v.calls = u := Option.some.inj ((exec_events hv).symm.trans hu)
  -- the step at which the result was decided, and what came after it
  rw [exec_append, hv, Option.bind_some] at hrun
  obtain ⟨w, hw, -⟩ := Option.bind_eq_some_iff.1 hrun
  have hinv' : v.Inverts env := hinv.of_run hrun
  have hlinked : v.Linked env := linked hspares.of_append hv hinv'
  have hgrows : v.Grows t := grows (hspares.after hv) hlinked hrun hinv
  have hlocal : ∀ r, e.settled = some r → (∀ m, e ≠ .response m) →
      ∃ o : Origin, o.isLocal = true ∧ o.result = r := by
    intro r hsettled hne
    cases a with
    | client a =>
      obtain ⟨client, hclient, -⟩ := Option.bind_eq_some_iff.1 hw
      obtain ⟨locked, hlocked, -⟩ := Option.map_eq_some_iff.1 hclient
      rcases LockedClient.origin_of_event hlinked.failing hlocked he hsettled with
        ⟨g, m, -, rfl⟩ | ho
      · exact absurd rfl (hne m)
      · exact ho
    | recv | accept | server => cases he
  rcases hcase with ⟨m, rfl, hid, rfl⟩ | ⟨now, rfl, -, rfl⟩ | rfl | ⟨rfl, hpc⟩
  · cases a with
    | client a =>
      obtain ⟨client, hclient, -⟩ := Option.bind_eq_some_iff.1 hw
      obtain ⟨locked, hlocked, -⟩ := Option.map_eq_some_iff.1 hclient
      rcases LockedClient.origin_of_event hlinked.failing hlocked he rfl with
        ⟨g, m', hmove, heq⟩ | ho
      · obtain rfl := Event.response.inj heq
        obtain ⟨body, rest, hcut, hparse⟩ := found_of_response hw hmove
        obtain ⟨e, hg, x, hx, hdecoded, hhanded⟩ := hlinked.decoded hinv' hcut
        obtain rfl := Option.some.inj (hparse.symm.trans hdecoded)
        have hx' := (hgrows.requests g).subset hx
        rw [serve_requestId] at hid
        refine Or.inr ⟨x.2, (hend.asked_of_answer hN hx' hc hid).2, rfl, fun hname => ?_⟩
        obtain ⟨e', he', hle⟩ := hgrows.server g e hg
        exact ⟨g, e', he', hle.subset (hhanded hname)⟩
      · exact Or.inl ho
    | recv | accept | server => cases he
  · exact Or.inl (hlocal _ rfl (by simp))
  · exact Or.inl (hlocal _ rfl (by simp))
  · have hfails : SendsFail u := exec_invariant (I := SendsFail)
      (by intro k c r h; cases h) (fun _ _ _ h hs => h.step hs) hu
    obtain ⟨e, rfl⟩ := hfails k c' r hc' hpc
    exact Or.inl ⟨.send e, rfl, rfl⟩

open Server.Connection in
/-- A server without handlers, for one request. -/
def sampleLoop : LoopEnv where
  request := sampleEnv.request
  response := sampleEnv.response

open Server.Connection in
/-- A call, and its answer. -/
def sampleRun : List Act :=
  [.client ⟨.user 0, .call 0 ⟨"", "S", "M", []⟩⟩,
    .client ⟨.user 0, .client (.connect 0 true)⟩,
    .client ⟨.dispatcher 0, .client (.dispatcher 0 .start)⟩,
    .client ⟨.dispatcher 0, .client (.dispatcher 0 .ready)⟩,
    .client ⟨.dispatcher 0, .client (.dispatcher 0 .check)⟩,
    .client ⟨.user 0, .client (.call (.begin 0 .callAsync))⟩,
    .client ⟨.user 0, .client (.call (.call 0 .add))⟩,
    .client ⟨.user 0, .await⟩,
    .client ⟨.user 0, .lock⟩,
    .client ⟨.user 0, .write []⟩,
    .accept 0 [] [],
    .server 0 (.round (fun _ => .ok ()) [] []),
    .server 0 .notifyReadable,
    .server 0 (.round (fun _ => .ok ()) [.data 0 ([0, 0, 9] ++ sampleBody)] []),
    .server 0 (.round (fun _ => .ok ()) [] []),
    .server 0 .notifyWritable,
    .server 0 (.round (fun _ => .ok ()) [] []),
    .recv 0 (frame sampleReply),
    .client ⟨.dispatcher 0, .client (.dispatcher 0 (.drain false))⟩,
    .client ⟨.dispatcher 0, .client (.dispatcher 0 .load)⟩,
    .client ⟨.dispatcher 0, .client (.dispatcher 0
      (.response ⟨"1", 1, "method not found: S.M", []⟩))⟩,
    .client ⟨.user 0, .leave⟩,
    .client ⟨.user 0, .client (.call (.call 0 (.bind 5)))⟩]

theorem sampleRun_spares :
    Along (step sampleLoop) (fun s a => s.spares sampleLoop a = true) {} sampleRun := by
  decide +kernel

/-- What the run leaves. -/
theorem exists_sampleRun : ∃ t c, exec (step sampleLoop) {} sampleRun = some t ∧
    t.Inverts sampleLoop ∧ t.calls.calls.lookup 0 = some c ∧
    c.received = [mapped (serve sampleLoop Server.Connection.sampleRequest)] := by
  have hrun : ((exec (step sampleLoop) {} sampleRun).map fun t =>
      (t.rpcClient.generations, t.client.requests 0,
        (t.calls.calls.lookup 0).map Call.received)) =
      some (1, [(some 0, Server.Connection.sampleRequest)],
        some [mapped (serve sampleLoop Server.Connection.sampleRequest)]) := by
    decide +kernel
  obtain ⟨t, ht, heq⟩ := Option.map_eq_some_iff.1 hrun
  obtain ⟨hgen, heq⟩ := Prod.mk.inj heq
  obtain ⟨hrequests, hreceived⟩ := Prod.mk.inj heq
  obtain ⟨c, hc, hreceived⟩ := Option.map_eq_some_iff.1 hreceived
  refine ⟨t, c, ht, ?_, hc, hreceived⟩
  intro g x hx
  by_cases hg : g = 0
  · rw [hg, hrequests] at hx
    obtain rfl := List.mem_singleton.1 hx
    decide +kernel
  · rw [requests_fresh sampleRun_spares ht g (by omega)] at hx
    cases hx

/-- A call and its answer. -/
theorem received_answer_sample : ∃ t c, exec (step sampleLoop) {} sampleRun = some t ∧
    t.calls.calls.lookup 0 = some c ∧
    c.received = [mapped (serve sampleLoop Server.Connection.sampleRequest)] ∧
    c.received.length ≤ 1 := by
  obtain ⟨t, c, ht, hinv, hc, hreceived⟩ := exists_sampleRun
  exact ⟨t, c, ht, hc, hreceived,
    (received_answer sampleRun_spares ht (by decide +kernel) hinv hc).1⟩

end System
end EndToEnd
end MiniRpc
