/-
# What the callers of a client get

Two questions about the calls of `RpcClient` (`src/client/rpc_client.cpp`,
`src/client/pending_calls.cpp`), answered for every interleaving.  Which result
does a call get?  The one of the first event that hits its slot, once, and no
other call's (`received_first`).  And is the number of slots the number of calls
that still wait (`GetInflightCount`, which the load balancer compares)?  Not
after `FailAll` or `FailTimedOut` has fulfilled a promise: they leave the slot in
the table (`inflight_leak`), while `Complete` takes it out.  As long as they find
no promise to fulfil, it is (`inflight_exact`).
-/

import MiniRpc.Client.Invariant

namespace MiniRpc
namespace Client

open Transition

/-- How an event decides a result: the slot of the call is there and not done,
and the event is a response under the call's own id, the clock, `FailAll`, or
the call's own send failure. -/
theorem decides_cases {k : ℕ} {s : State} {e : Event} {r : RpcCallResult}
    (hdec : decides k s e = some r) :
    ∃ c slot, s.calls.lookup k = some c ∧ s.pending.slots.lookup c.requestId = some slot ∧
      slot.done = false ∧
      ((∃ m, e = .response m ∧ m.requestId = c.requestId ∧ r = mapped m) ∨
        (∃ now, e = .failTimedOut now ∧ slot.timedOut now ∧ r = callTimeout) ∨
        e = .failAll r ∨ (e = .call k .complete ∧ c.pc = .sendFailed r)) := by
  obtain ⟨c, hc, hdec⟩ := Option.bind_eq_some_iff.1 hdec
  obtain ⟨slot, hslot, h⟩ := Option.bind_eq_some_iff.1 hdec
  refine ⟨c, slot, hc, hslot, ?_⟩
  unfold Event.verdict at h
  split_ifs at h with hdone
  refine ⟨by simpa using hdone, ?_⟩
  split at h
  · split_ifs at h with hm
    simp only [Bool.and_eq_true, decide_eq_true_eq] at hm
    exact Or.inl ⟨_, rfl, hm.2, (Option.some.inj h).symm⟩
  · split_ifs at h with hnow
    exact Or.inr (Or.inl ⟨_, rfl, hnow, (Option.some.inj h).symm⟩)
  · exact Or.inr (Or.inr (Or.inl (by rw [Option.some.inj h])))
  · split at h
    · rename_i hpc
      split_ifs at h with hj
      exact Or.inr (Or.inr (Or.inr ⟨by rw [hj], by rw [hpc, Option.some.inj h]⟩))
    · cases h
  · cases h

/-- **A call gets at most one result, that of the first event to finish its
slot.**  The event finds the slot of the call unfinished and is a response under
the call's own request id, which no other call has, or a local failure; no other
event of the run finishes the slot. -/
theorem received_first {es : List Event} {s : State} (hs : exec step {} es = some s)
    (hdraws : es.countP Event.draws < 2 ^ 64) {k : ℕ} {c : Call}
    (hc : s.calls.lookup k = some c) :
    c.received.length ≤ 1 ∧
      (∀ j d, s.calls.lookup j = some d → d.requestId = c.requestId → j = k) ∧
      ∀ r ∈ c.received, ∃ pre e post u c' slot, es = pre ++ e :: post ∧
        exec step {} pre = some u ∧ u.calls.lookup k = some c' ∧ c'.requestId = c.requestId ∧
        u.pending.slots.lookup c.requestId = some slot ∧ slot.done = false ∧
        ((∃ m, e = .response m ∧ m.requestId = c.requestId ∧ r = mapped m) ∨
          (∃ now, e = .failTimedOut now ∧ slot.timedOut now ∧ r = callTimeout) ∨
          e = .failAll r ∨ (e = .call k .complete ∧ c'.pc = .sendFailed r)) ∧
        ∀ pre' e' post' u', es = pre' ++ e' :: post' → exec step {} pre' = some u' →
          (decides k u' e').isSome → pre' = pre := by
  obtain ⟨hN, L, hI, hdec⟩ := decided_exec hdraws hs
  obtain ⟨hv, hrefused⟩ := hdec k c hc
  have hrec : c.received = [] ∨ ∃ r, c.received = [r] ∧ (L k).verdict = some r := by
    rw [show c.received = ((L k).view k).received from congrArg View.received (hI.view k c hc)]
    rcases (L k).received_eq k with h | h | h
    · exact Or.inl h
    · exact Or.inr h
    · rw [hrefused] at h
      cases h
  refine ⟨?_, fun j d hd he => hN.inj j k d c hd hc he, fun r hr => ?_⟩
  · rcases hrec with h | ⟨r, h, -⟩ <;> rw [h] <;> simp
  have hobs : observe step (decides k) {} es = [r] := by
    rcases hrec with h | ⟨r', h, hver⟩
    · rw [h] at hr
      cases hr
    · rw [h, List.mem_singleton] at hr
      rw [hv, hver, hr]
      rfl
  have hmem : r ∈ observe step (decides k) {} es := hobs ▸ List.mem_singleton_self r
  obtain ⟨pre, e, post, u, rfl, hex, hdec⟩ := exists_of_mem_observe hmem
  obtain ⟨c', slot, hc', hslot, hdone, hcases⟩ := decides_cases hdec
  have hid : c'.requestId = c.requestId := by
    rw [exec_append, hex] at hs
    exact requestId_exec hc' hs hc
  rw [hid] at hslot
  simp only [hid] at hcases
  refine ⟨pre, e, post, u, c', slot, rfl, hex, hc', hid, hslot, hdone, hcases, ?_⟩
  intro pre' e' post' u' he' hex' hf'
  exact eq_of_observe_singleton hobs he' hex' hf' rfl hex (by rw [hdec]; rfl)

/-- A response that comes before the promise is bound, and a failure after it:
the call gets the response. -/
theorem received_first_response : ∃ s c,
    exec step {} [.begin 0 .callAsync, .call 0 .add, .call 0 .sendOk,
      .response ⟨"1", 0, "", [7]⟩, .call 0 (.bind 5),
      .failAll (.failure .internalError "connection closed")] = some s ∧
    s.calls.lookup 0 = some c ∧ c.received = [mapped ⟨"1", 0, "", [7]⟩] ∧
    c.received.length ≤ 1 :=
  ⟨_, _, rfl, rfl, rfl, (received_first (k := 0) (rfl : exec step {} [.begin 0 .callAsync,
      .call 0 .add, .call 0 .sendOk, .response ⟨"1", 0, "", [7]⟩, .call 0 (.bind 5),
      .failAll (.failure .internalError "connection closed")] = some _) (by decide) rfl).1⟩

/-! ### The number of calls in flight -/

/-- The call is registered and its result not delivered. -/
def Call.inflight (c : Call) : Bool := c.pc ≠ .drawn && c.received.isEmpty

/-- The event finishes no slot that has a promise in it together with others:
`FailAll` and `FailTimedOut` meet only slots they leave to be popped. -/
def SparesPromises (s : State) (e : Event) : Prop :=
  ∀ slot ∈ s.pending.slots.entries, e.sweeps slot.2 → slot.2.asyncPromise = none

instance (s : State) (e : Event) : Decidable (SparesPromises s e) :=
  inferInstanceAs (Decidable (∀ slot ∈ s.pending.slots.entries, _ → _))

/-- While no promise is stranded, no slot is left over. -/
theorem no_leftover {es : List Event} {s : State} (hs : exec step {} es = some s)
    (hcond : Along step SparesPromises {} es) :
    ∃ L, Inv L s ∧ ∀ k c, s.calls.lookup k = some c → (L k).hasLeftover = false := by
  refine exec_along (I := fun s => ∃ L, Inv L s ∧
    ∀ k c, s.calls.lookup k = some c → (L k).hasLeftover = false) ?_
    ⟨_, inv_init, by simp⟩ hcond hs
  rintro s e t ⟨L, hI, hleft⟩ hspare hst
  obtain ⟨L', hI', hadv⟩ := hI.step hst
  refine ⟨L', hI', fun k c' hc' => ?_⟩
  cases hk : s.calls.lookup k with
  | none => rw [hadv.begins k hk (by rw [hc']; rfl)]; rfl
  | some c =>
    by_contra h
    rcases (hadv.follows k c hk).leftover (by simpa using h) with h | ⟨x, hx, hhit, hp⟩
    · rw [hleft k c hk] at h
      cases h
    · exact hp (hspare _ (AList.mem_lookup_iff.1 (hI.slot k c x hk hx)) hhit)

/-- A call has a slot exactly while it is in flight, unless its result is just
being delivered or its slot is left over. -/
theorem Life.slot_isSome_iff (k : ℕ) (l : Life) (hw : (l.view k).wakes = [])
    (hl : l.hasLeftover = false) :
    (l.slot k).isSome ↔ (l.view k).pc ≠ .drawn ∧ (l.view k).received = [] := by
  cases l with
  | unbound stage | settled stage => cases stage <;> simp [slot, view, Stage.pc]
  | fulfilled r left => simp_all [slot, view, hasLeftover]
  | _ => simp_all [slot, view]

/-- **The number of slots is the number of calls in flight**, in every run in
which `FailAll` and `FailTimedOut` meet no promise: a call that got its result
has no slot (one under its id is a later call's, once the numbers come round),
and when no operation is at work `GetInflightCount` counts the calls that wait. -/
theorem inflight_exact {es : List Event} {s : State} (hs : exec step {} es = some s)
    (hcond : Along step SparesPromises {} es) :
    (∀ k c slot, s.calls.lookup k = some c → c.received ≠ [] →
      s.pending.slots.lookup c.requestId = some slot →
      ∃ j d, j ≠ k ∧ s.calls.lookup j = some d ∧ d.requestId = c.requestId ∧ d.received = []) ∧
    (s.wakes = [] → s.getInflightCount = s.calls.entries.countP fun e => e.2.inflight) ∧
    (s.wakes = [] → (∀ e ∈ s.calls.entries, e.2.inflight = false) →
      s.getInflightCount = 0) := by
  obtain ⟨L, hI, hleft⟩ := no_leftover hs hcond
  have hview := fun k c (hc : s.calls.lookup k = some c) => hI.view k c hc
  have hrec : ∀ k c, s.calls.lookup k = some c → ((L k).slot k).isSome → c.received = [] := by
    intro k c hc hsome
    have hl := hleft k c hc
    rw [show c.received = ((L k).view k).received from congrArg View.received (hview k c hc)]
    cases hk : L k <;> simp_all [Life.slot, Life.view, Life.hasLeftover]
  have hcount : s.wakes = [] →
      s.getInflightCount = s.calls.entries.countP fun e => e.2.inflight := by
    intro hw
    have hiff : ∀ k c, s.calls.lookup k = some c → (c.inflight ↔ ((L k).slot k).isSome) := by
      intro k c hc
      have hv := hview k c hc
      have hwk : ((L k).view k).wakes = [] := by
        rw [← congrArg View.wakes hv, hw]
        rfl
      rw [Life.slot_isSome_iff k (L k) hwk (hleft k c hc), ← congrArg View.pc hv,
        ← congrArg View.received hv]
      simp [Call.inflight]
    have hmem : ∀ e ∈ s.calls.entries.filter (fun e => e.2.inflight),
        s.calls.lookup e.1 = some e.2 ∧ ((L e.1).slot e.1).isSome := by
      intro e he
      obtain ⟨he, hin⟩ := List.mem_filter.1 he
      have hc : s.calls.lookup e.1 = some e.2 := AList.mem_lookup_iff.2 he
      exact ⟨hc, (hiff e.1 e.2 hc).1 hin⟩
    -- the ids of the calls in flight are the keys of the table, each once
    have hperm : ((s.calls.entries.filter fun e => e.2.inflight).map fun e => e.2.requestId).Perm
        s.pending.slots.keys := by
      refine (List.perm_ext_iff_of_nodup ?_ s.pending.slots.keys_nodup).2 fun id => ?_
      · refine List.Nodup.map_on ?_ (s.calls.nodupKeys.nodup.filter _)
        intro e he e' he' heq
        obtain ⟨hc, hs⟩ := hmem e he
        obtain ⟨hc', hs'⟩ := hmem e' he'
        have hkey := hI.unique e.1 e'.1 e.2 e'.2 hc hc' hs hs' heq
        exact s.calls.nodupKeys.eq_of_fst_eq (List.mem_filter.1 he).1 (List.mem_filter.1 he').1 hkey
      · rw [List.mem_map, Table.mem_keys_iff]
        constructor
        · rintro ⟨e, he, rfl⟩
          obtain ⟨hc, hsome⟩ := hmem e he
          obtain ⟨x, hx⟩ := Option.isSome_iff_exists.1 hsome
          exact ⟨x, hI.slot e.1 e.2 x hc hx⟩
        · rintro ⟨x, hx⟩
          obtain ⟨k, c, hc, rfl, hkx⟩ := hI.owned id x hx
          refine ⟨⟨k, c⟩, List.mem_filter.2 ⟨AList.mem_lookup_iff.1 hc, ?_⟩, rfl⟩
          exact (hiff k c hc).2 (by rw [hkx]; rfl)
    rw [State.getInflightCount, PendingCalls.size, Table.size_eq_length_keys, ← hperm.length_eq,
      List.length_map, List.countP_eq_length_filter]
  refine ⟨fun k c x hc hne hx => ?_, hcount, fun hw hall => ?_⟩
  · obtain ⟨j, d, hd, hid, hjx⟩ := hI.owned _ x hx
    have hdrec := hrec j d hd (by rw [hjx]; rfl)
    refine ⟨j, d, ?_, hd, hid, hdrec⟩
    rintro rfl
    exact hne (Option.some.inj (hc.symm.trans hd) ▸ hdrec)
  · rw [hcount hw, List.countP_eq_zero]
    intro e he
    simp [hall e he]

/-- A response and a coroutine that times out: both slots are popped. -/
theorem inflight_exact_popped : ∃ s,
    exec step {} [.begin 0 .callAsync, .call 0 .add, .call 0 .sendOk, .call 0 (.bind 5),
      .response ⟨"1", 0, "", [7]⟩, .wake (.setValue 0 (mapped ⟨"1", 0, "", [7]⟩)),
      .begin 1 .callCo, .call 1 .add, .call 1 .sendOk, .call 1 (.bind 5), .failTimedOut 9,
      .wake (.resume 1), .call 1 .awaitResume] = some s ∧ s.getInflightCount = 0 := by
  refine ⟨_, rfl, ?_⟩
  exact (inflight_exact (rfl : exec step {} [.begin 0 .callAsync, .call 0 .add,
      .call 0 .sendOk, .call 0 (.bind 5),
      .response ⟨"1", 0, "", [7]⟩, .wake (.setValue 0 (mapped ⟨"1", 0, "", [7]⟩)),
      .begin 1 .callCo, .call 1 .add, .call 1 .sendOk, .call 1 (.bind 5), .failTimedOut 9,
      .wake (.resume 1), .call 1 .awaitResume] = some _) (by decide)).2.2 rfl (by decide)

/-- **`FailTimedOut` leaks the slot of a `CallAsync`.**  The call has its timeout
and nothing is at work, but its slot is still counted. -/
theorem inflight_leak : ∃ s c,
    exec step {} [.begin 0 .callAsync, .call 0 .add, .call 0 .sendOk, .call 0 (.bind 5),
      .failTimedOut 5, .wake (.setValue 0 callTimeout)] = some s ∧
    s.calls.lookup 0 = some c ∧ c.received = [callTimeout] ∧ s.wakes = [] ∧
    (∀ e ∈ s.calls.entries, e.2.inflight = false) ∧ s.getInflightCount = 1 :=
  ⟨_, _, rfl, rfl, rfl, rfl, by decide, rfl⟩

end Client
end MiniRpc
