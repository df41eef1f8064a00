/-
# The client's end of its connections

The client with its threads (`MiniRpc.Client.LockedClient`) and what a run of it
leaves on record: the request of every call that drew its id, and for each socket
whose requests were written there, in their order.  The frames on a socket carry
bodies and no calls; `Kept` ties them to the calls, whatever the threads do: each
frame is that of a heartbeat or of the one request of a call, and no call writes
twice.
-/

import MiniRpc.Client.CallEvents
import MiniRpc.Client.WrittenFrames
import MiniRpc.Protocol.Delivery

namespace MiniRpc
namespace EndToEnd

open Protocol Client Transition

/-- A client, which request each call asks, and who wrote what on each socket;
`none` is a heartbeat. -/
structure ClientEnd where
  client : LockedClient := {}
  asked : ℕ → Option RpcRequest := fun _ => none
  requests : ℕ → List (Option ℕ × RpcRequest) := fun _ => []

namespace ClientEnd

/-- The call that draws its id in a step, with the request it is going to send. -/
def begins (s t : LockedClient) (a : LockedClient.Act) : Option (ℕ × RpcRequest) :=
  match a.move, (s.stack a.thread).head? with
  | .client (.call (.begin k _)), some (.send (some _) request .connected) =>
    some (k, { request with requestId := toString t.client.calls.nextId })
  | _, _ => none

/-- The socket that a step writes on, and what. -/
def puts (s : LockedClient) (a : LockedClient.Act) : Option (ℕ × Option ℕ × RpcRequest) :=
  match a.move, (s.stack a.thread).head?, s.client.sock with
  | .write _, some (.send call request .writing), some g => some (g, call, request)
  | _, _, _ => none

/-- A step of a thread, and its record. -/
def step (M : Message RpcRequest) (s : ClientEnd) (a : LockedClient.Act) : Option ClientEnd :=
  (LockedClient.step M s.client a).map fun client =>
    { client
      asked := match begins s.client client a with
        | some (k, request) => Function.update s.asked k (some request)
        | none => s.asked
      requests := match puts s.client a with
        | some (g, x) => Function.update s.requests g (s.requests g ++ [x])
        | none => s.requests }

/-- The request is that of `SendHeartbeatRequest`. -/
def IsHeartbeat (request : RpcRequest) : Prop :=
  isHeartbeatId request.requestId = true ∧ request.serviceName = RpcClient.kHeartbeatServiceName

theorem isHeartbeat_heartbeatRequest (client : RpcClient) :
    IsHeartbeat (LockedClient.heartbeatRequest client) := by
  refine ⟨?_, rfl⟩
  rw [isHeartbeatId, LockedClient.heartbeatRequest, String.toList_append,
    List.isPrefixOf_iff_prefix]
  exact List.prefix_append _ _

/-- What a thread is going to send is what its call asks, or a heartbeat. -/
def Owned (asked : ℕ → Option RpcRequest) : Frame → Prop
  | .send (some _) _ .connecting => True
  | .send (some _) _ .connected => True
  | .send (some k) request _ => asked k = some request
  | .send none request _ => IsHeartbeat request
  | _ => True

/-- A call that has drawn its id goes on with the same request. -/
theorem Owned.goto {asked : ℕ → Option RpcRequest} {call : Option ℕ} {request : RpcRequest}
    {place : SendPlace} (h : Owned asked (.send call request place)) (h₁ : place ≠ .connecting)
    (h₂ : place ≠ .connected) (place' : SendPlace) : Owned asked (.send call request place') := by
  cases call with
  | none => exact h
  | some k => cases place <;> cases place' <;> trivial

theorem Owned.mono {asked asked' : ℕ → Option RpcRequest} {f : Frame} (h : Owned asked f)
    (hle : ∀ k request, asked k = some request → asked' k = some request) : Owned asked' f := by
  unfold Owned at h ⊢
  split at h
  · trivial
  · trivial
  · exact hle _ _ h
  · exact h
  · trivial

/-- **What the record says about the client.** -/
structure Kept (M : Message RpcRequest) (s : ClientEnd) : Prop where
  bodies : ∀ g, (s.client.sent g).map Sent.body = (s.requests g).map fun x => M.serialize x.2
  sized : ∀ g, ∀ x ∈ s.client.sent g, x.bytes ≠ [] → ValidLength x.body.length
  owned : ∀ T, ∀ f ∈ s.client.stack T, Owned s.asked f
  asked : ∀ k request, s.asked k = some request →
    ∃ c, s.client.client.calls.calls.lookup k = some c ∧ c.requestId = request.requestId
  written : ∀ g k request, (some k, request) ∈ s.requests g → s.asked k = some request ∧
    ∃ c, s.client.client.calls.calls.lookup k = some c ∧ c.pc.tried = true
  beats : ∀ g request, (none, request) ∈ s.requests g → IsHeartbeat request
  nodup : ∀ g, ((s.requests g).filterMap Prod.fst).Nodup
  apart : ∀ g g' k request request', (some k, request) ∈ s.requests g →
    (some k, request') ∈ s.requests g' → g = g'

namespace Kept

variable {M : Message RpcRequest} {s t : ClientEnd}

theorem init : Kept M {} where
  bodies := fun _ => rfl
  sized := by simp
  owned := by
    rintro (u | g) f hf
    · obtain rfl := List.mem_singleton.1 hf
      trivial
    · cases hf
  asked := by simp
  written := by simp
  beats := by simp
  nodup := by simp
  apart := by simp

/-- The calls of the client keep their ids. -/
theorem calls_kept {s t : LockedClient} {a : LockedClient.Act}
    (hs : LockedClient.step M s a = some t) {k : ℕ} {c : Call}
    (hc : s.client.calls.calls.lookup k = some c) :
    ∃ c', t.client.calls.calls.lookup k = some c' ∧ c'.requestId = c.requestId ∧
      (c.pc.tried = true → c'.pc.tried = true) := by
  have hexec := LockedClient.exec_event hs
  cases he : s.event M a with
  | none =>
    rw [he] at hexec
    rw [← Option.some.inj hexec]
    exact ⟨c, hc, rfl, id⟩
  | some e =>
    rw [he] at hexec
    exact call_kept (by simpa using hexec) hc

/-- A step that writes nothing. -/
theorem moved {T : Thread} {frames : List Frame} (h : s.Kept M)
    (hstack : t.client.stack = Function.update s.client.stack T
      (frames ++ (s.client.stack T).tail))
    (hsent : t.client.sent = s.client.sent) (hrequests : t.requests = s.requests)
    (hframes : ∀ f ∈ frames, Owned t.asked f)
    (hle : ∀ k request, s.asked k = some request → t.asked k = some request)
    (hasked : ∀ k request, t.asked k = some request → s.asked k = some request ∨
      ∃ c, t.client.client.calls.calls.lookup k = some c ∧ c.requestId = request.requestId)
    (hcalls : ∀ k c, s.client.client.calls.calls.lookup k = some c →
      ∃ c', t.client.client.calls.calls.lookup k = some c' ∧ c'.requestId = c.requestId ∧
        (c.pc.tried = true → c'.pc.tried = true)) : t.Kept M where
  bodies := by
    rw [hsent, hrequests]
    exact h.bodies
  sized := hsent ▸ h.sized
  owned := by
    intro T' f hf
    rw [hstack] at hf
    by_cases hT : T' = T
    · subst hT
      rw [Function.update_self] at hf
      rcases List.mem_append.1 hf with hf | hf
      · exact hframes f hf
      · exact (h.owned T' f (List.mem_of_mem_tail hf)).mono hle
    · rw [Function.update_of_ne hT] at hf
      exact (h.owned T' f hf).mono hle
  asked := by
    intro k request hk
    rcases hasked k request hk with hold | hnew
    · obtain ⟨c, hc, hid⟩ := h.asked k request hold
      obtain ⟨c', hc', hid', -⟩ := hcalls k c hc
      exact ⟨c', hc', hid'.trans hid⟩
    · exact hnew
  written := by
    intro g k request hmem
    rw [hrequests] at hmem
    obtain ⟨hk, c, hc, hpc⟩ := h.written g k request hmem
    obtain ⟨c', hc', -, htried⟩ := hcalls k c hc
    exact ⟨hle k request hk, c', hc', htried hpc⟩
  beats := hrequests ▸ h.beats
  nodup := hrequests ▸ h.nodup
  apart := hrequests ▸ h.apart

/-- The request is written, and the record goes on. -/
theorem put {T : Thread} {g : ℕ} {call : Option ℕ} {request : RpcRequest} {bytes : Bytes}
    {place : SendPlace} (h : s.Kept M)
    (htop : (s.client.stack T).head? = some (.send call request .writing))
    (hstack : t.client.stack = Function.update s.client.stack T
      ([.send call request place] ++ (s.client.stack T).tail))
    (hsent : t.client.sent = Function.update s.client.sent g
      (s.client.sent g ++ [⟨M.serialize request, bytes⟩]))
    (hsized : bytes ≠ [] → ValidLength (M.serialize request).length)
    (hrequests : t.requests = Function.update s.requests g (s.requests g ++ [(call, request)]))
    (hasked : t.asked = s.asked)
    (hcalls : ∀ k c, s.client.client.calls.calls.lookup k = some c →
      ∃ c', t.client.client.calls.calls.lookup k = some c' ∧ c'.requestId = c.requestId ∧
        (c.pc.tried = true → c'.pc.tried = true))
    (hnew : ∀ k ∈ call, (∃ c, s.client.client.calls.calls.lookup k = some c ∧
      c.pc.tried = false) ∧ ∃ c, t.client.client.calls.calls.lookup k = some c ∧
        c.pc.tried = true) : t.Kept M := by
  have howned : Owned s.asked (.send call request .writing) :=
    h.owned T _ (List.mem_of_mem_head? htop)
  have hmoved : Kept M { t with
      client := { t.client with sent := s.client.sent }, requests := s.requests } := by
    refine h.moved hstack rfl rfl ?_ ?_ ?_ hcalls
    · intro f hf
      obtain rfl := List.mem_singleton.1 hf
      exact hasked ▸ howned.goto (by simp) (by simp) place
    · exact fun k request hk => hasked ▸ hk
    · exact fun k request hk => Or.inl (hasked ▸ hk)
  -- a call that is at its `WriteMessage` has not written before
  have hfresh : ∀ k ∈ call, ∀ g' request', (some k, request') ∉ s.requests g' := by
    intro k hk g' request' hmem
    obtain ⟨⟨c, hc, hpc⟩, -⟩ := hnew k hk
    obtain ⟨-, c', hc', htried⟩ := h.written g' k request' hmem
    obtain rfl := Option.some.inj (hc.symm.trans hc')
    rw [hpc] at htried
    cases htried
  have hmem : ∀ g' x, x ∈ t.requests g' → x ∈ s.requests g' ∨ g' = g ∧ x = (call, request) := by
    intro g' x hx
    rw [hrequests] at hx
    by_cases hg : g' = g
    · subst hg
      rw [Function.update_self] at hx
      rcases List.mem_append.1 hx with hx | hx
      · exact Or.inl hx
      · exact Or.inr ⟨rfl, List.mem_singleton.1 hx⟩
    · rw [Function.update_of_ne hg] at hx
      exact Or.inl hx
  refine ⟨?_, ?_, hmoved.owned, hmoved.asked, ?_, ?_, ?_, ?_⟩
  · intro g'
    rw [hsent, hrequests]
    by_cases hg : g' = g
    · subst hg
      simp only [Function.update_self, List.map_append, h.bodies]
      rfl
    · simp only [Function.update_of_ne hg, h.bodies]
  · intro g' x hx
    rw [hsent] at hx
    by_cases hg : g' = g
    · subst hg
      rw [Function.update_self] at hx
      rcases List.mem_append.1 hx with hx | hx
      · exact h.sized g' x hx
      · obtain rfl := List.mem_singleton.1 hx
        exact hsized
    · rw [Function.update_of_ne hg] at hx
      exact h.sized g' x hx
  · intro g' k request' hx
    rcases hmem g' _ hx with hold | ⟨-, heq⟩
    · exact hmoved.written g' k request' hold
    · obtain ⟨hk, rfl⟩ := Prod.mk.inj heq
      subst hk
      exact ⟨hasked ▸ howned, (hnew k rfl).2⟩
  · intro g' request' hx
    rcases hmem g' _ hx with hold | ⟨-, heq⟩
    · exact h.beats g' request' hold
    · obtain ⟨hk, rfl⟩ := Prod.mk.inj heq
      subst hk
      exact howned
  · intro g'
    rw [hrequests]
    by_cases hg : g' = g
    · subst hg
      rw [Function.update_self, List.filterMap_append]
      cases call with
      | none => simpa using h.nodup g'
      | some k =>
        refine List.nodup_append.2 ⟨h.nodup g', by simp, ?_⟩
        rintro j hj i hi rfl
        obtain rfl : j = k := by simpa using hi
        obtain ⟨⟨o, request'⟩, hmem', ho⟩ := List.mem_filterMap.1 hj
        obtain rfl : o = some j := ho
        exact hfresh j rfl g' request' hmem'
    · rw [Function.update_of_ne hg]
      exact h.nodup g'
  · intro g₁ g₂ k r₁ r₂ h₁ h₂
    rcases hmem g₁ _ h₁ with h₁ | ⟨rfl, heq₁⟩ <;> rcases hmem g₂ _ h₂ with h₂ | ⟨rfl, heq₂⟩
    · exact h.apart g₁ g₂ k r₁ r₂ h₁ h₂
    · exact absurd h₁ (hfresh k (Prod.mk.inj heq₂).1.symm g₁ r₁)
    · exact absurd h₂ (hfresh k (Prod.mk.inj heq₁).1.symm g₂ r₂)
    · rfl

/-- A call that is sent had its slot and has tried now. -/
theorem tried_of_send {s t : State} {k : ℕ} {a : CallStep}
    (ha : a = .sendOk ∨ ∃ e, a = .sendError e) (h : Client.step s (.call k a) = some t) :
    (∃ c, s.calls.lookup k = some c ∧ c.pc.tried = false) ∧
      ∃ c, t.calls.lookup k = some c ∧ c.pc.tried = true := by
  simp only [Client.step] at h
  cases hc : s.calls.lookup k with
  | none => simp [hc] at h
  | some c =>
    rw [hc] at h
    dsimp only at h
    cases hstep : callStep s.pending k c a with
    | none => simp [hstep] at h
    | some r =>
      obtain ⟨p, ws, c'⟩ := r
      rw [hstep] at h
      obtain rfl := Option.some.inj h
      have hpc : c.pc = .registered := by
        rcases ha with rfl | ⟨e, rfl⟩ <;> cases hpc : c.pc <;>
          first | rfl | simp [callStep, hpc] at hstep
      obtain ⟨-, -, hcase⟩ := callStep_registered hpc hstep
      refine ⟨⟨c, rfl, by rw [hpc]; rfl⟩, c', AList.lookup_insert _, ?_⟩
      rcases hcase with ⟨-, rfl⟩ | ⟨e, -, rfl⟩ <;> rfl

/-- The id that a call draws is new, and the frame of the call goes on with it. -/
theorem begin_cases {s t : LockedClient} {T : Thread} {k : ℕ} {kind : Kind}
    {call : Option ℕ} {request : RpcRequest} {place : SendPlace}
    (hs : LockedClient.step M s ⟨T, .client (.call (.begin k kind))⟩ = some t)
    (htop : (s.stack T).head? = some (.send call request place)) :
    call = some k ∧ place = .connected ∧ s.client.calls.calls.lookup k = none ∧
      t.stack = Function.update s.stack T ([.send (some k)
        { request with requestId := toString t.client.calls.nextId } .drawn] ++ (s.stack T).tail) ∧
      t.sent = s.sent ∧ ∃ c, t.client.calls.calls.lookup k = some c ∧
        c.requestId = toString t.client.calls.nextId := by
  simp only [LockedClient.step] at hs
  obtain ⟨client, hclient, hs⟩ := Option.bind_eq_some_iff.1 hs
  obtain ⟨frames, hgoes, rfl⟩ := Option.map_eq_some_iff.1 hs
  rw [htop] at hgoes
  obtain ⟨-, calls, hcalls, rfl⟩ := RpcClient.call_cases hclient
  simp only [Client.step] at hcalls
  split_ifs at hcalls with hfresh
  obtain rfl := Option.some.inj hcalls
  cases call with
  | none => cases place <;> simp [LockedClient.goes] at hgoes
  | some j =>
    cases place <;> simp [LockedClient.goes] at hgoes
    obtain ⟨rfl, rfl⟩ := hgoes
    exact ⟨rfl, rfl, by simpa using hfresh, rfl, rfl, _, AList.lookup_insert _, rfl⟩

/-- `WriteMessage` was called, with a socket or without. -/
theorem wrote {T : Thread} {call : Option ℕ} {request : RpcRequest} {outbox : Outbox}
    {place : SendPlace} {c : RpcClient} (h : s.Kept M)
    (htop : (s.client.stack T).head? = some (.send call request .writing))
    (hcalls : ∀ k d, s.client.client.calls.calls.lookup k = some d →
      ∃ d', c.calls.calls.lookup k = some d' ∧ d'.requestId = d.requestId ∧
        (d.pc.tried = true → d'.pc.tried = true))
    (hnew : ∀ k ∈ call, (∃ d, s.client.client.calls.calls.lookup k = some d ∧
      d.pc.tried = false) ∧ ∃ d, c.calls.calls.lookup k = some d ∧ d.pc.tried = true) :
    Kept M {
      client := LockedClient.goto { (s.client.writeRequest M request outbox).1 with client := c } T
        [.send call request place]
      asked := s.asked
      requests := match puts s.client ⟨T, .write outbox⟩ with
        | some (g, x) => Function.update s.requests g (s.requests g ++ [x])
        | none => s.requests } := by
  have hstack := LockedClient.stack_of_write (M := M) (s := s.client) (T := T) request outbox c
    [.send call request place]
  cases hsock : s.client.client.sock with
  | none =>
    have hsent : (s.client.writeRequest M request outbox).1.sent = s.client.sent := by
      rw [LockedClient.writeRequest, hsock]
    refine h.moved hstack hsent (by simp [puts, htop, hsock]) ?_ (fun _ _ => id)
      (fun _ _ => Or.inl) hcalls
    intro f hf
    obtain rfl := List.mem_singleton.1 hf
    exact (h.owned T _ (List.mem_of_mem_head? htop)).goto (by simp) (by simp) place
  | some g =>
    have hsent : (s.client.writeRequest M request outbox).1.sent =
        Function.update s.client.sent g (s.client.sent g ++
          [⟨M.serialize request, (writeMessage M request outbox).1⟩]) := by
      rw [LockedClient.writeRequest, hsock]
    refine h.put htop hstack hsent ?_ (by simp [puts, htop, hsock]) rfl hcalls hnew
    intro hne
    by_contra hsize
    obtain ⟨e, he⟩ := writeMessage_refused (M := M) hsize outbox
    exact hne (congrArg Prod.fst he)

/-- What a thread is in after a step of the client that draws no id. -/
theorem owned_of_goes {T : Thread} {client client' : RpcClient} {top : Option Frame}
    {b : RpcClient.Act} {frames : List Frame} {asked : ℕ → Option RpcRequest}
    (hgoes : LockedClient.Goes T client client' top b frames)
    (hbegin : ∀ k kind, b ≠ .call (.begin k kind)) (htop : ∀ f ∈ top, Owned asked f) :
    ∀ f ∈ frames, Owned asked f := by
  have hwoken : ∀ w : Wake ℕ, ∀ f ∈ LockedClient.woken w, Owned asked f := by
    rintro (_ | _) f hf
    · cases hf
    · rcases List.mem_cons.1 hf with rfl | hf
      · trivial
      · obtain rfl := List.mem_singleton.1 hf
        trivial
  intro f hf
  cases hgoes with
  | dispatcher g a frames hT hframes =>
    rcases hframes with rfl | rfl
    · cases hf
    · obtain rfl := List.mem_singleton.1 hf
      exact isHeartbeat_heartbeatRequest client'
  | wake w => exact hwoken w f hf
  | waking w =>
    rcases List.mem_append.1 hf with hf | hf
    · exact hwoken w f hf
    · obtain rfl := List.mem_singleton.1 hf
      trivial
  | connecting k request established frames hframes =>
    rcases hframes with rfl | rfl
    · cases hf
    · obtain rfl := List.mem_singleton.1 hf
      trivial
  | begin k request kind id => exact absurd rfl (hbegin k kind)
  | add k request frames hframes =>
    rcases hframes with rfl | rfl
    · cases hf
    · obtain rfl := List.mem_singleton.1 hf
      exact (htop _ rfl).goto (by simp) (by simp) .composed
  | complete k request =>
    obtain rfl := List.mem_singleton.1 hf
    exact (htop _ rfl).goto (by simp) (by simp) .popping
  | tryPop k request =>
    obtain rfl := List.mem_singleton.1 hf
    exact (htop _ rfl).goto (by simp) (by simp) .closing
  | closing k request =>
    rcases List.mem_cons.1 hf with rfl | hf
    · trivial
    · obtain rfl := List.mem_singleton.1 hf
      exact (htop _ rfl).goto (by simp) (by simp) .closed
  | bind k a frames hframes =>
    rcases hframes with rfl | rfl
    · cases hf
    · obtain rfl := List.mem_singleton.1 hf
      trivial
  | close =>
    rcases List.mem_cons.1 hf with rfl | hf
    · trivial
    · obtain rfl := List.mem_singleton.1 hf
      trivial
  | connect | join | fail =>
    obtain rfl := List.mem_singleton.1 hf
    trivial

/-- A call draws its id. -/
theorem begin {T : Thread} {k : ℕ} {kind : Kind} {call : Option ℕ} {request : RpcRequest}
    {place : SendPlace} (h : s.Kept M)
    (htop : (s.client.stack T).head? = some (.send call request place))
    (hs : ClientEnd.step M s ⟨T, .client (.call (.begin k kind))⟩ = some t) : t.Kept M := by
  obtain ⟨client, hclient, rfl⟩ := Option.map_eq_some_iff.1 hs
  obtain ⟨rfl, rfl, hfresh, hstack, hsent, c, hc, hid⟩ := begin_cases hclient htop
  have hnone : s.asked k = none := by
    by_contra hne
    obtain ⟨request', hk⟩ := Option.ne_none_iff_exists'.1 hne
    obtain ⟨c, hc, -⟩ := h.asked k request' hk
    rw [hfresh] at hc
    cases hc
  have hbegins : begins s.client client ⟨T, .client (.call (.begin k kind))⟩ =
      some (k, { request with requestId := toString client.client.calls.nextId }) := by
    simp [begins, htop]
  rw [hbegins]
  refine h.moved hstack hsent (by simp [puts]) ?_ ?_ ?_ fun k c hc => calls_kept hclient hc
  · intro f hf
    obtain rfl := List.mem_singleton.1 hf
    exact Function.update_self ..
  · intro j request' hj
    have hne : j ≠ k := by
      rintro rfl
      rw [hnone] at hj
      cases hj
    exact (Function.update_of_ne hne ..).trans hj
  · intro j request' hj
    by_cases hjk : j = k
    · subst hjk
      refine Or.inr ⟨c, hc, ?_⟩
      have hreq := Option.some.inj ((Function.update_self j _ s.asked).symm.trans hj)
      exact hreq ▸ hid
    · exact Or.inl ((Function.update_of_ne hjk ..).symm.trans hj)

/-- **Every step keeps the record.** -/
theorem step {a : LockedClient.Act} (h : s.Kept M) (hs : ClientEnd.step M s a = some t) :
    t.Kept M := by
  have hs' := hs
  obtain ⟨client, hclient, rfl⟩ := Option.map_eq_some_iff.1 hs'
  have hcalls := fun k c (hc : s.client.client.calls.calls.lookup k = some c) =>
    calls_kept hclient hc
  obtain ⟨T, m⟩ := a
  have hsteps : LockedClient.Steps M s.client T m client := .of_step hclient
  have htop_owned : ∀ f, (s.client.stack T).head? = some f → Owned s.asked f :=
    fun f hf => h.owned T f (List.mem_of_mem_head? hf)
  have hquiet : ∀ frames : List Frame, (∀ f ∈ frames, Owned s.asked f) →
      client.stack = Function.update s.client.stack T (frames ++ (s.client.stack T).tail) →
      client.sent = s.client.sent → begins s.client client ⟨T, m⟩ = none →
      puts s.client ⟨T, m⟩ = none → Kept M {
        client
        asked := match begins s.client client ⟨T, m⟩ with
          | some (k, request) => Function.update s.asked k (some request)
          | none => s.asked
        requests := match puts s.client ⟨T, m⟩ with
          | some (g, x) => Function.update s.requests g (s.requests g ++ [x])
          | none => s.requests } := by
    intro frames hframes hstack hsent hbegins hputs
    rw [hbegins, hputs]
    exact h.moved hstack hsent rfl hframes (fun _ _ => id) (fun _ _ => Or.inl) hcalls
  cases hsteps with
  | call k request htop => exact hquiet _ (by simp [Owned]) rfl rfl rfl rfl
  | client b client' frames hb hgoes =>
    by_cases hbegin : ∃ k kind, b = .call (.begin k kind)
    · obtain ⟨k, kind, rfl⟩ := hbegin
      generalize htop : (s.client.stack T).head? = top at hgoes
      cases hgoes with
      | begin k request kind id => exact h.begin htop hs
    · have hnone : ∀ k kind, b ≠ .call (.begin k kind) :=
        fun k kind heq => hbegin ⟨k, kind, heq⟩
      refine hquiet frames (owned_of_goes hgoes hnone htop_owned) rfl rfl ?_ rfl
      unfold begins
      split
      · rename_i k kind _ _ hmove _
        exact absurd (LockedClient.Move.client.inj hmove) (hnone k kind)
      · rfl
  | await call request htop =>
    refine hquiet [.send call request .locking] ?_ rfl rfl rfl rfl
    intro f hf
    obtain rfl := List.mem_singleton.1 hf
    exact (htop_owned _ htop).goto (by simp) (by simp) .locking
  | lock call request htop hfree =>
    refine hquiet [.send call request .writing] ?_ rfl rfl rfl rfl
    intro f hf
    obtain rfl := List.mem_singleton.1 hf
    exact (htop_owned _ htop).goto (by simp) (by simp) .writing
  | heartbeat request outbox htop => exact h.wrote htop hcalls (by simp)
  | sent k request outbox client' htop hwrite hb =>
    obtain ⟨-, calls, hstep, rfl⟩ := RpcClient.call_cases hb
    refine h.wrote htop hcalls fun j hj => ?_
    obtain rfl := Option.some.inj hj
    exact tried_of_send (Or.inl rfl) hstep
  | failed k request outbox e client' htop hwrite hb =>
    obtain ⟨-, calls, hstep, rfl⟩ := RpcClient.call_cases hb
    refine h.wrote htop hcalls fun j hj => ?_
    obtain rfl := Option.some.inj hj
    exact tried_of_send (Or.inr ⟨e, rfl⟩) hstep
  | code htop => exact hquiet [] (by simp) rfl rfl rfl rfl
  | waking htop => exact hquiet [] (by simp) rfl rfl rfl rfl
  | unlock call request htop =>
    refine hquiet _ ?_ rfl rfl rfl rfl
    cases call <;> simp [Owned]
  | closed call request htop => exact hquiet [] (by simp) rfl rfl rfl rfl

/-! ### The requests on a socket -/

/-- The frames of a log of whole ones. -/
theorem sent_of_whole {log : List Sent} (h : ∀ x ∈ log, x.Whole)
    (hsized : ∀ x ∈ log, x.bytes ≠ [] → ValidLength x.body.length) :
    ∃ ys : List Sent, ys.Sublist log ∧ (∀ y ∈ ys, ValidLength y.body.length) ∧
      Client.written log = stream (ys.map Sent.body) := by
  induction log with
  | nil => exact ⟨[], List.Sublist.refl _, by simp, rfl⟩
  | cons x log ih =>
    obtain ⟨ys, hsub, hvalid, hbytes⟩ := ih (fun y hy => h y (List.mem_cons_of_mem x hy))
      fun y hy => hsized y (List.mem_cons_of_mem x hy)
    have happend : Client.written (x :: log) = x.bytes ++ Client.written log :=
      List.flatMap_cons ..
    by_cases hempty : x.bytes = []
    · exact ⟨ys, hsub.cons _, hvalid, by rw [happend, hempty, hbytes, List.nil_append]⟩
    · have hx : x.bytes = frame x.body := (h x (List.mem_cons_self ..)).resolve_left hempty
      refine ⟨x :: ys, hsub.cons_cons _, ?_, ?_⟩
      · intro y hy
        rcases List.mem_cons.1 hy with rfl | hy
        · exact hsized y (List.mem_cons_self ..) hempty
        · exact hvalid y hy
      · rw [happend, hx, hbytes, List.map_cons, stream_cons]

/-- The frames of a log, and maybe the beginning of one more. -/
theorem sent_onTheWay {log : List Sent} (h : Framed log)
    (hsized : ∀ x ∈ log, x.bytes ≠ [] → ValidLength x.body.length) :
    ∃ ys : List Sent, ys.Sublist log ∧ OnTheWay (ys.map Sent.body) (Client.written log) := by
  rcases List.eq_nil_or_concat log with rfl | ⟨init, x, rfl⟩
  · exact ⟨[], List.Sublist.refl _, .stream (by simp)⟩
  · rw [List.concat_eq_append] at h hsized ⊢
    obtain ⟨ys, hsub, hvalid, hbytes⟩ := sent_of_whole (by simpa using h.whole)
      fun y hy => hsized y (List.mem_append_left _ hy)
    have hwritten : Client.written (init ++ [x]) = stream (ys.map Sent.body) ++ x.bytes := by
      rw [← hbytes]
      simp [Client.written]
    have hmap : ∀ body ∈ ys.map Sent.body, ValidLength body.length := by
      intro body hbody
      obtain ⟨y, hy, rfl⟩ := List.mem_map.1 hbody
      exact hvalid y hy
    by_cases hempty : x.bytes = []
    · exact ⟨ys, hsub.trans (List.sublist_append_left _ _), hmap, [],
        by rw [hwritten, hempty], cut_nil⟩
    · have hx := hsized x (by simp) hempty
      obtain ⟨rest, hrest⟩ := h.last x (by simp)
      by_cases hall : rest = []
      · refine ⟨ys ++ [x], hsub.append_right [x], ?_, [], ?_, cut_nil⟩
        · intro body hbody
          rw [List.map_append] at hbody
          rcases List.mem_append.1 hbody with hbody | hbody
          · exact hmap body hbody
          · obtain rfl := List.mem_singleton.1 hbody
            exact hx
        · rw [hall, List.append_nil] at hrest
          rw [hwritten, hrest, List.append_nil, List.map_append, stream, stream,
            List.flatMap_append]
          simp
      · exact ⟨ys, hsub.trans (List.sublist_append_left _ _), hmap, x.bytes, hwritten,
          cut_of_prefix hx hrest.symm hall⟩

/-- **What is on a socket** are the frames of requests that were written there, in
their order, and maybe the beginning of one more. -/
theorem onTheWay (h : s.Kept M) {g : ℕ} (hf : Framed (s.client.sent g)) :
    ∃ xs : List (Option ℕ × RpcRequest), xs.Sublist (s.requests g) ∧
      OnTheWay (xs.map fun x => M.serialize x.2) (Client.written (s.client.sent g)) := by
  obtain ⟨ys, hsub, hway⟩ := sent_onTheWay hf (h.sized g)
  have hmap := hsub.map Sent.body
  rw [h.bodies g] at hmap
  obtain ⟨xs, hxs, heq⟩ := List.sublist_map_iff.1 hmap
  exact ⟨xs, hxs, heq ▸ hway⟩

end Kept
end ClientEnd
end EndToEnd
end MiniRpc
