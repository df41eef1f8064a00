/-
# What a client does to its calls

Of every step of a client with its threads (`MiniRpc.Client.LockedClient`) at most
one event is for the calls, so a run of the threads is for the calls a run of
`Client.step`, and what holds of the calls under any order of events
(`MiniRpc.Client.Results`) holds under the threads.  Here a failure of the calls
has a place of the client that made it: `origin_of_event`.
-/

import MiniRpc.Client.RefusedSends
import MiniRpc.Client.Results

namespace MiniRpc
namespace Client

open Transition

/-- The request of the call was sent, or `WriteMessage` failed. -/
def Pc.tried : Pc → Bool
  | .drawn => false
  | .registered => false
  | _ => true

theorem callStep_tried {p p' : PendingCalls ℕ} {k : ℕ} {c c' : Call} {a : CallStep}
    {ws : List (Wake ℕ)} (h : callStep p k c a = some (p', ws, c')) (hc : c.pc.tried = true) :
    c'.pc.tried = true := by
  unfold callStep at h
  repeat' split at h
  all_goals cases h
  all_goals simp_all [Pc.tried, Call.ret]

/-- **A call keeps its request id**, and sends its request once. -/
theorem call_kept {s t : State} {e : Event} (h : step s e = some t) {k : ℕ} {c : Call}
    (hc : s.calls.lookup k = some c) :
    ∃ c', t.calls.lookup k = some c' ∧ c'.requestId = c.requestId ∧
      (c.pc.tried = true → c'.pc.tried = true) := by
  cases e with
  | begin j kind =>
    simp only [step] at h
    split_ifs at h with hfresh
    obtain rfl := Option.some.inj h
    have hne : k ≠ j := by
      rintro rfl
      exact hfresh (by rw [hc]; rfl)
    exact ⟨c, (AList.lookup_insert_ne hne).trans hc, rfl, id⟩
  | call j a =>
    simp only [step] at h
    split at h
    · cases h
    rename_i d hd
    split at h
    · cases h
    rename_i p ws d' hstep
    obtain rfl := Option.some.inj h
    by_cases hk : k = j
    · subst hk
      obtain rfl := Option.some.inj (hd.symm.trans hc)
      exact ⟨d', AList.lookup_insert _, callStep_requestId hstep, callStep_tried hstep⟩
    · exact ⟨c, (AList.lookup_insert_ne hk).trans hc, rfl, id⟩
  | wake w =>
    simp only [step] at h
    split_ifs at h
    obtain rfl := Option.some.inj h
    by_cases hk : k = w.owner
    · subst hk
      refine ⟨c.woken w, by simp [hc], ?_, ?_⟩
      · cases w <;> rfl
      · cases w <;> simp [Call.woken, Pc.tried]
    · exact ⟨c, by simpa [Table.lookup_update, hk] using hc, rfl, id⟩
  | heartbeat | response message | failTimedOut now | failAll r =>
    obtain rfl := Option.some.inj h
    exact ⟨c, hc, rfl, id⟩

/-- No number is the id of a heartbeat. -/
theorem isHeartbeatId_toString (n : ℕ) : isHeartbeatId (toString n) = false := by
  by_contra h
  have hprefix : "hb_".toList <+: (toString n).toList :=
    List.isPrefixOf_iff_prefix.1 (by simpa [isHeartbeatId] using h)
  have hmem : 'h' ∈ Nat.toDigits 10 n := by
    rw [← Nat.toList_repr]
    exact hprefix.subset (by decide)
  cases Nat.isDigit_of_mem_toDigits (by decide) (by decide) hmem

/-- A call that failed to send says so. -/
def SendsFail (s : State) : Prop :=
  ∀ k c r, s.calls.lookup k = some c → c.pc = .sendFailed r → ∃ e, r = sendFailure e

theorem callStep_sendFailed_of {p p' : PendingCalls ℕ} {k : ℕ} {c c' : Call} {a : CallStep}
    {ws : List (Wake ℕ)} {r : RpcCallResult} (h : callStep p k c a = some (p', ws, c'))
    (hc : c'.pc = .sendFailed r) : ∃ e, r = sendFailure e := by
  unfold callStep at h
  repeat' split at h
  all_goals cases h
  all_goals simp_all [Call.ret]
  exact ⟨_, hc.symm⟩

theorem SendsFail.step {s t : State} {e : Event} (hS : SendsFail s)
    (h : Client.step s e = some t) : SendsFail t := by
  intro k c r hc hpc
  cases e with
  | begin j kind =>
    simp only [Client.step] at h
    split_ifs at h
    obtain rfl := Option.some.inj h
    by_cases hk : k = j
    · subst hk
      obtain rfl := Option.some.inj ((AList.lookup_insert _).symm.trans hc)
      cases hpc
    · exact hS k c r ((AList.lookup_insert_ne hk).symm.trans hc) hpc
  | call j a =>
    simp only [Client.step] at h
    split at h
    · cases h
    rename_i d hd
    split at h
    · cases h
    rename_i p ws d' hstep
    obtain rfl := Option.some.inj h
    by_cases hk : k = j
    · subst hk
      obtain rfl := Option.some.inj ((AList.lookup_insert _).symm.trans hc)
      exact callStep_sendFailed_of hstep hpc
    · exact hS k c r ((AList.lookup_insert_ne hk).symm.trans hc) hpc
  | wake w =>
    simp only [Client.step] at h
    split_ifs at h
    obtain rfl := Option.some.inj h
    simp only [Table.lookup_update] at hc
    split_ifs at hc with hk
    · obtain ⟨d, hd, rfl⟩ := Option.map_eq_some_iff.1 hc
      cases w with
      | setValue j v => exact hS _ d r hd hpc
      | resume j => cases hpc
    · exact hS k c r hc hpc
  | heartbeat | response message | failTimedOut now | failAll r =>
    obtain rfl := Option.some.inj h
    exact hS k c _ hc hpc

/-! ### The events of a client -/

namespace RpcClient

/-- What a step is for the calls. -/
def event (s : RpcClient) (a : Act) : Option Event := (s.control a).bind Prod.snd

/-- Around the calls nothing is done to them. -/
theorem control_calls {s s' : RpcClient} {a : Act} {e : Option Event}
    (h : s.control a = some (s', e)) : s'.calls = s.calls := by
  cases a with
  | connect k established =>
    simp only [control] at h
    split_ifs at h <;> cases h <;> rfl
  | closeBegin c =>
    simp only [control] at h
    split_ifs at h
    cases h
    rfl
  | closeJoin c =>
    simp only [control] at h
    split at h
    · cases h
      rfl
    · split_ifs at h
      cases h
      rfl
    · cases h
  | closeFail c =>
    simp only [control] at h
    split at h <;> cases h
    rfl
  | dispatcher g a =>
    simp only [control] at h
    split at h
    · cases h
    · obtain ⟨p, -, heq⟩ := Option.map_eq_some_iff.1 h
      cases heq
      rfl
  | call e =>
    simp only [control] at h
    split_ifs at h
    cases h
    rfl

theorem exec_event {s t : RpcClient} {a : Act} (h : step s a = some t) :
    exec Client.step s.calls (s.event a).toList = some t.calls := by
  unfold step at h
  unfold event
  cases hc : s.control a with
  | none => simp [hc] at h
  | some p =>
    obtain ⟨s', _ | e⟩ := p
    · rw [hc] at h
      obtain rfl := Option.some.inj h
      exact congrArg some (control_calls hc).symm
    · rw [hc] at h
      obtain ⟨calls, hcalls, rfl⟩ := Option.map_eq_some_iff.1 h
      simpa using hcalls

/-- The event of a step of a call is the step. -/
theorem event_call {s t : RpcClient} {e : Event} (h : step s (.call e) = some t) :
    s.event (.call e) = some e := by
  rw [event, control, if_pos (call_cases h).1]
  rfl

end RpcClient

/-- The result was made by the client itself. -/
def Origin.isLocal : Origin → Bool
  | .response _ => false
  | _ => true

namespace RpcClient

theorem isLocal_of_dispatcherOrigin {pc : DispatcherPc} {a : DispatcherStep} {o : Origin}
    (h : dispatcherOrigin pc a = some o) (ha : ∀ m, a ≠ .response m) : o.isLocal = true := by
  unfold dispatcherOrigin at h
  split at h
  case h_6 m => exact absurd rfl (ha m)
  case h_9 => split at h <;> cases h <;> rfl
  all_goals cases h
  all_goals rfl

/-- **What finishes calls** is a response that the dispatcher handles, or a failure
that the client made. -/
theorem origin_of_event {s t : RpcClient} {a : Act} {e : Event} {r : RpcCallResult}
    (hF : s.Failing) (h : step s a = some t) (he : s.event a = some e) (hr : e.settled = some r) :
    (∃ g m, a = .dispatcher g (.response m) ∧ e = .response m) ∨
      ∃ o : Origin, o.isLocal = true ∧ o.result = r := by
  cases a with
  | connect k established =>
    simp only [event, control] at he
    split_ifs at he <;> cases he
  | closeBegin c =>
    simp only [event, control] at he
    split_ifs at he <;> cases he
  | closeJoin c =>
    simp only [event, control] at he
    split at he
    · cases he
    · split_ifs at he <;> cases he
    · cases he
  | closeFail c =>
    simp only [event, control] at he
    split at he
    · obtain rfl := Option.some.inj he
      obtain rfl := Option.some.inj hr
      exact Or.inr ⟨.closed, rfl, rfl⟩
    · cases he
  | dispatcher g a =>
    obtain ⟨pc, pc', x, hg, hd, -⟩ := dispatcher_cases h
    have hx : x = some e := by
      simpa [event, control, hg, hd] using he
    subst hx
    obtain ⟨o, ho, hresult⟩ := dispatcherOrigin_of_settled hd hr
      fun f next hpc => hF g f next (hpc ▸ hg)
    by_cases hresponse : ∃ m, a = .response m
    · obtain ⟨m, rfl⟩ := hresponse
      refine Or.inl ⟨g, m, rfl, ?_⟩
      cases pc <;> simp [dispatcherStep] at hd
      exact hd.2.symm
    · exact Or.inr ⟨o, isLocal_of_dispatcherOrigin ho (not_exists.1 hresponse), hresult⟩
  | call x =>
    obtain ⟨hallows, -⟩ := call_cases h
    rw [event_call h] at he
    obtain rfl := Option.some.inj he
    cases x <;> cases hr <;> cases hallows

end RpcClient

namespace LockedClient

variable {M : Message RpcRequest} {s t : LockedClient}

/-- What a step of a thread is for the calls. -/
def event (M : Message RpcRequest) (s : LockedClient) (a : Act) : Option Event :=
  match a.move with
  | .client b => s.client.event b
  | .write outbox =>
    match (s.stack a.thread).head? with
    | some (.send (some k) request .writing) =>
      some (.call k (((s.writeRequest M request outbox).2.map .sendError).getD .sendOk))
    | _ => none
  | _ => none

theorem exec_event {a : Act} (h : step M s a = some t) :
    exec Client.step s.client.calls (s.event M a).toList = some t.client.calls := by
  obtain ⟨T, m⟩ := a
  have hsteps : Steps M s T m t := .of_step h
  cases hsteps with
  | client b client' frames hclient hgoes => exact RpcClient.exec_event hclient
  | heartbeat request outbox htop =>
    rw [event]
    dsimp only
    rw [htop]
    exact congrArg (fun c : RpcClient => some c.calls) (writeRequest_fields request outbox).1.symm
  | sent k request outbox client' htop hwrite hclient =>
    obtain ⟨-, calls, hcalls, rfl⟩ := RpcClient.call_cases hclient
    rw [event]
    dsimp only
    rw [htop]
    simpa [hwrite] using hcalls
  | failed k request outbox e client' htop hwrite hclient =>
    obtain ⟨-, calls, hcalls, rfl⟩ := RpcClient.call_cases hclient
    rw [event]
    dsimp only
    rw [htop]
    simpa [hwrite] using hcalls
  | _ => rfl

/-- What finishes calls, of the steps of a thread. -/
theorem origin_of_event {a : Act} {e : Event} {r : RpcCallResult} (hF : s.client.Failing)
    (h : step M s a = some t) (he : s.event M a = some e) (hr : e.settled = some r) :
    (∃ g m, a.move = .client (.dispatcher g (.response m)) ∧ e = .response m) ∨
      ∃ o : Origin, o.isLocal = true ∧ o.result = r := by
  obtain ⟨T, m⟩ := a
  have hsteps : Steps M s T m t := .of_step h
  cases hsteps with
  | client b client' frames hclient hgoes =>
    rcases RpcClient.origin_of_event hF hclient he hr with ⟨g, m, rfl, rfl⟩ | ho
    · exact Or.inl ⟨g, m, rfl, rfl⟩
    · exact Or.inr ho
  | heartbeat request outbox htop => simp [event, htop] at he
  | sent k request outbox client' htop hwrite hclient =>
    simp only [event, htop] at he
    obtain rfl := Option.some.inj he
    cases hr
  | failed k request outbox e client' htop hwrite hclient =>
    simp only [event, htop] at he
    obtain rfl := Option.some.inj he
    cases hr
  | _ => cases he

/-- **A run of the threads is a run of the calls.** -/
theorem exec_events {es : List Act} {s t : LockedClient}
    (h : exec (LockedClient.step M) s es = some t) :
    exec Client.step s.client.calls (observe (LockedClient.step M) (event M) s es) =
      some t.client.calls :=
  exec_part (fun s : LockedClient => s.client.calls) (fun _ _ _ => exec_event) h

end LockedClient
end Client
end MiniRpc
