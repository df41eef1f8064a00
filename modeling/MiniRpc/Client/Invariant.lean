/-
# The invariant of a client

Every call of the client is at some point of its `Life`, whatever the other calls
and the dispatcher do (`Inv`, `inv_exec`): the lives of the calls refine into one
table of slots, because a slot belongs to one call at a time.  This holds for
every run, also one so long that the id counter comes round: then a call may find
its id taken and is turned away, but no slot changes hands.

As long as the counter has not come round, the ids differ and no call is turned
away, and the result that the life of a call carries is the one that the events
of the run decided for its slot (`decided_exec`).
-/

import MiniRpc.Client.CallLife

namespace MiniRpc
namespace Client

open Transition

/-- Call `k` is at point `L k` of its life, for all calls at once. -/
structure Inv (L : ℕ → Life) (s : State) : Prop where
  ids : ∀ k c, s.calls.lookup k = some c → c.requestId ≠ ""
  /-- What is to be seen of a call is the view of its life. -/
  view : ∀ k c, s.calls.lookup k = some c →
    ⟨c.pc, (L k).slot k, s.wakes.filter (·.owner = k), c.received⟩ = (L k).view k
  /-- The slot a call has is in the table, under its request id. -/
  slot : ∀ k c x, s.calls.lookup k = some c → (L k).slot k = some x →
    s.pending.slots.lookup c.requestId = some x
  /-- No two calls have the same slot. -/
  unique : ∀ j k c d, s.calls.lookup j = some c → s.calls.lookup k = some d →
    ((L j).slot j).isSome → ((L k).slot k).isSome → c.requestId = d.requestId → j = k
  /-- Every slot in the table is the slot of a call. -/
  owned : ∀ id x, s.pending.slots.lookup id = some x →
    ∃ k c, s.calls.lookup k = some c ∧ c.requestId = id ∧ (L k).slot k = some x
  /-- Every wake-up is for a call. -/
  wakers : ∀ w ∈ s.wakes, ∃ c, s.calls.lookup w.owner = some c

namespace Inv

variable {L L' : ℕ → Life} {s t : State} {e : Event}

/-- A promise or coroutine in a slot belongs to the call whose slot it is. -/
theorem waiter_iff (hI : Inv L s) {k : ℕ} {c : Call} (hc : s.calls.lookup k = some c)
    (hk : ((L k).slot k).isSome) {id : String} {x : Slot ℕ}
    (hs : s.pending.slots.lookup id = some x) :
    (∀ b ∈ x.asyncPromise, b = k ↔ id = c.requestId) ∧
      ∀ b ∈ x.coroutineHandle, b = k ↔ id = c.requestId := by
  obtain ⟨j, d, hd, rfl, hx⟩ := hI.owned id x hs
  have hiff : j = k ↔ d.requestId = c.requestId := by
    refine ⟨?_, hI.unique j k d c hd hc (by rw [hx]; rfl) hk⟩
    rintro rfl
    rw [Option.some.inj (hd.symm.trans hc)]
  obtain ⟨h₁, h₂⟩ := (L j).waiter_eq j x hx
  refine ⟨fun b hb => ?_, fun b hb => ?_⟩
  · rw [h₁ b hb, hiff]
  · rw [h₂ b hb, hiff]

/-- Nobody waits in the slots for a call that has none. -/
theorem not_waiting (hI : Inv L s) {k : ℕ} (hk : (L k).slot k = none) {id : String} {x : Slot ℕ}
    (hs : s.pending.slots.lookup id = some x) :
    (∀ b ∈ x.asyncPromise, b ≠ k) ∧ ∀ b ∈ x.coroutineHandle, b ≠ k := by
  obtain ⟨j, d, hd, rfl, hx⟩ := hI.owned id x hs
  have hne : j ≠ k := by
    rintro rfl
    rw [hk] at hx
    cases hx
  obtain ⟨h₁, h₂⟩ := (L j).waiter_eq j x hx
  exact ⟨fun b hb => h₁ b hb ▸ hne, fun b hb => h₂ b hb ▸ hne⟩

/-- A call that has sent its request has its slot, done or not. -/
theorem slot_of_sent (hI : Inv L s) {k : ℕ} {c : Call} (hc : s.calls.lookup k = some c)
    (hpc : c.pc = .sent) : ∃ x, s.pending.slots.lookup c.requestId = some x := by
  have hview : c.pc = ((L k).view k).pc := congrArg View.pc (hI.view k c hc)
  rw [hpc] at hview
  obtain ⟨x, hx⟩ : ∃ x, (L k).slot k = some x := by
    cases hl : L k with
    | unbound stage => exact ⟨_, rfl⟩
    | settled stage r => exact ⟨_, rfl⟩
    | _ =>
      rw [hl] at hview
      cases hview
  exact ⟨x, hI.slot k c x hc hx⟩

/-- A step keeps the invariant if it begins no call, changes no ids, makes slots
and wake-ups for calls only, and leads every call from one point of its life to
another. -/
theorem of_lives (hI : Inv L s)
    (hcalls : ∀ k, (t.calls.lookup k).map Call.requestId = (s.calls.lookup k).map Call.requestId)
    (hview : ∀ k c c', s.calls.lookup k = some c → t.calls.lookup k = some c' →
      c'.requestId = c.requestId →
      ⟨c'.pc, (L' k).slot k, t.wakes.filter (·.owner = k), c'.received⟩ = (L' k).view k)
    (hslot : ∀ k c x, s.calls.lookup k = some c → (L' k).slot k = some x →
      t.pending.slots.lookup c.requestId = some x)
    (hunique : ∀ j k c d, s.calls.lookup j = some c → s.calls.lookup k = some d →
      ((L' j).slot j).isSome → ((L' k).slot k).isSome → c.requestId = d.requestId → j = k)
    (howned : ∀ id x, t.pending.slots.lookup id = some x →
      ∃ k c, s.calls.lookup k = some c ∧ c.requestId = id ∧ (L' k).slot k = some x)
    (hwakers : ∀ w ∈ t.wakes, ∃ c, s.calls.lookup w.owner = some c) : Inv L' t := by
  have hback : ∀ {k c'}, t.calls.lookup k = some c' →
      ∃ c, s.calls.lookup k = some c ∧ c'.requestId = c.requestId := by
    intro k c' hc'
    have := hcalls k
    rw [hc', Option.map_some, eq_comm, Option.map_eq_some_iff] at this
    obtain ⟨c, hc, he⟩ := this
    exact ⟨c, hc, he.symm⟩
  have hforth : ∀ {k c}, s.calls.lookup k = some c →
      ∃ c', t.calls.lookup k = some c' ∧ c'.requestId = c.requestId := by
    intro k c hc
    have := hcalls k
    rwa [hc, Option.map_some, Option.map_eq_some_iff] at this
  refine ⟨?_, ?_, ?_, ?_, ?_, ?_⟩
  · intro k c' hc'
    obtain ⟨c, hc, he⟩ := hback hc'
    rw [he]
    exact hI.ids k c hc
  · intro k c' hc'
    obtain ⟨c, hc, he⟩ := hback hc'
    exact hview k c c' hc hc' he
  · intro k c' x hc' hx
    obtain ⟨c, hc, he⟩ := hback hc'
    rw [he]
    exact hslot k c x hc hx
  · intro j k c' d' hj hk hsj hsk heq
    obtain ⟨c, hc, hce⟩ := hback hj
    obtain ⟨d, hd, hde⟩ := hback hk
    exact hunique j k c d hc hd hsj hsk (by rw [← hce, ← hde, heq])
  · intro id x hx
    obtain ⟨k, c, hc, rfl, hkx⟩ := howned id x hx
    obtain ⟨c', hc', he⟩ := hforth hc
    exact ⟨k, c', hc', he, hkx⟩
  · intro w hw
    obtain ⟨c, hc⟩ := hwakers w hw
    obtain ⟨c', hc', -⟩ := hforth hc
    exact ⟨c', hc'⟩

/-- A step keeps the invariant if it leads one call on, and changes no wake-ups but those of
this call, and no slot but the one that the call has, or gets while nobody has it. -/
theorem of_life (hI : Inv L s) {j : ℕ} {c c' : Call} {l' : Life} (hc : s.calls.lookup j = some c)
    (hc' : t.calls.lookup j = some c') (hid : c'.requestId = c.requestId)
    (hcalls : ∀ k, k ≠ j → t.calls.lookup k = s.calls.lookup k)
    (hview : ⟨c'.pc, l'.slot j, t.wakes.filter (·.owner = j), c'.received⟩ = l'.view j)
    (hwakes : ∀ k, k ≠ j → t.wakes.filter (·.owner = k) = s.wakes.filter (·.owner = k))
    (hwakers : ∀ w ∈ t.wakes, ∃ d, s.calls.lookup w.owner = some d)
    (hframe : ∀ id, id ≠ c.requestId →
      t.pending.slots.lookup id = s.pending.slots.lookup id)
    (hmoves : ((L j).slot j = none ∧ l'.slot j = none ∧
        t.pending.slots.lookup c.requestId = s.pending.slots.lookup c.requestId) ∨
      (∀ k d, k ≠ j → s.calls.lookup k = some d → ((L k).slot k).isSome →
        d.requestId ≠ c.requestId) ∧ t.pending.slots.lookup c.requestId = l'.slot j) :
    Inv (Function.update L j l') t := by
  have hself : Function.update L j l' j = l' := Function.update_self ..
  have hother : ∀ k, k ≠ j → Function.update L j l' k = L k := fun k hk =>
    Function.update_of_ne hk ..
  refine hI.of_lives ?_ ?_ ?_ ?_ ?_ hwakers
  · intro k
    by_cases hk : k = j
    · rw [hk, hc', hc, Option.map_some, Option.map_some, hid]
    · rw [hcalls k hk]
  · intro k d d' hd hd' _
    by_cases hk : k = j
    · subst hk
      obtain rfl := Option.some.inj (hc'.symm.trans hd')
      rw [hself]
      exact hview
    · rw [hcalls k hk] at hd'
      rw [hother k hk, hwakes k hk]
      exact hI.view k d' hd'
  · intro k d x hd hx
    by_cases hk : k = j
    · subst hk
      obtain rfl := Option.some.inj (hc.symm.trans hd)
      rw [hself] at hx
      rcases hmoves with ⟨-, hnone, -⟩ | ⟨-, hslot⟩
      · rw [hnone] at hx
        cases hx
      · rw [hslot, hx]
    · rw [hother k hk] at hx
      rw [← hI.slot k d x hd hx]
      by_cases hdc : d.requestId = c.requestId
      · rcases hmoves with ⟨-, -, hsame⟩ | ⟨halone, -⟩
        · rw [hdc, hsame]
        · exact absurd hdc (halone k d hk hd (by rw [hx]; rfl))
      · exact hframe _ hdc
  · have halone : (l'.slot j).isSome → ∀ k d, k ≠ j → s.calls.lookup k = some d →
        ((L k).slot k).isSome → d.requestId ≠ c.requestId := by
      intro hsome
      rcases hmoves with ⟨-, hnone, -⟩ | ⟨halone, -⟩
      · rw [hnone] at hsome
        cases hsome
      · exact halone
    intro k k' d d' hd hd' hsk hsk' he
    by_cases hk : k = j <;> by_cases hk' : k' = j
    · rw [hk, hk']
    · subst hk
      rw [hself] at hsk
      rw [hother k' hk'] at hsk'
      obtain rfl := Option.some.inj (hc.symm.trans hd)
      exact absurd he.symm (halone hsk k' d' hk' hd' hsk')
    · subst hk'
      rw [hother k hk] at hsk
      rw [hself] at hsk'
      obtain rfl := Option.some.inj (hc.symm.trans hd')
      exact absurd he (halone hsk' k d hk hd hsk)
    · rw [hother k hk] at hsk
      rw [hother k' hk'] at hsk'
      exact hI.unique k k' d d' hd hd' hsk hsk' he
  · -- a slot of the new table is the one of the call, or was the slot of another call before
    have hkept : ∀ id x, s.pending.slots.lookup id = some x →
        (id = c.requestId → (L j).slot j = none) →
        ∃ k d, s.calls.lookup k = some d ∧ d.requestId = id ∧
          (Function.update L j l' k).slot k = some x := by
      intro id x hx hfree
      obtain ⟨k, d, hd, rfl, hkx⟩ := hI.owned id x hx
      have hk : k ≠ j := by
        rintro rfl
        obtain rfl := Option.some.inj (hc.symm.trans hd)
        rw [hfree rfl] at hkx
        cases hkx
      exact ⟨k, d, hd, rfl, by rw [hother k hk, hkx]⟩
    intro id x hx
    by_cases he : id = c.requestId
    · subst he
      rcases hmoves with ⟨hnone, -, hsame⟩ | ⟨-, hslot⟩
      · exact hkept _ x (hsame ▸ hx) fun _ => hnone
      · exact ⟨j, c, hc, rfl, by rw [hself, ← hslot, hx]⟩
    · exact hkept id x (hframe id he ▸ hx) fun h => absurd h he

/-- A call that has its slot is alone under its request id. -/
theorem alone (hI : Inv L s) {j : ℕ} {c : Call} (hc : s.calls.lookup j = some c)
    (hj : ((L j).slot j).isSome) (k : ℕ) (d : Call) (hk : k ≠ j)
    (hd : s.calls.lookup k = some d) (hsome : ((L k).slot k).isSome) :
    d.requestId ≠ c.requestId :=
  fun he => hk (hI.unique k j d c hd hc hsome hj he)

/-- The lives after a step follow those before it, and a new call is at the
beginning of its own. -/
structure Advances (L : ℕ → Life) (s : State) (e : Event) (t : State) (L' : ℕ → Life) : Prop where
  follows : ∀ k c, s.calls.lookup k = some c →
    (L k).Follows (verdictOn k c ((L k).slot k) e)
      ((L k).slot k = none ∧ (s.pending.slots.lookup c.requestId).isSome)
      (Strands e.sweeps ((L k).slot k)) (L' k)
  begins : ∀ k, s.calls.lookup k = none → (t.calls.lookup k).isSome → L' k = .drawn

/-- Where one call is led on, the others stay at their points if nothing is decided for them. -/
theorem Advances.of_life {j : ℕ} {c : Call} {l' : Life} (hc : s.calls.lookup j = some c)
    (hcalls : ∀ k, k ≠ j → t.calls.lookup k = s.calls.lookup k)
    (hself : (L j).Follows (verdictOn j c ((L j).slot j) e)
      ((L j).slot j = none ∧ (s.pending.slots.lookup c.requestId).isSome)
      (Strands e.sweeps ((L j).slot j)) l')
    (hothers : ∀ k d, k ≠ j → s.calls.lookup k = some d →
      verdictOn k d ((L k).slot k) e = none) :
    Advances L s e t (Function.update L j l') where
  follows k d hd := by
    by_cases hk : k = j
    · subst hk
      obtain rfl := Option.some.inj (hc.symm.trans hd)
      rw [Function.update_self]
      exact hself
    · rw [Function.update_of_ne hk, hothers k d hk hd]
      exact .rfl
  begins k hk hsome := by
    have hkj : k ≠ j := by
      rintro rfl
      rw [hc] at hk
      cases hk
    rw [hcalls k hkj, hk] at hsome
    cases hsome

/-- A call's own step keeps the invariant. -/
theorem call (hI : Inv L s) {j : ℕ} {a : CallStep} (h : step s (.call j a) = some t) :
    ∃ L', Inv L' t ∧ Advances L s (.call j a) t L' := by
  simp only [step] at h
  split at h
  · cases h
  rename_i c hc
  split at h
  · cases h
  rename_i p' ws c' hstep
  obtain rfl := Option.some.inj h
  have hreq := callStep_requestId hstep
  obtain ⟨rfl, hframe, l', x', hl', hmoves, hf⟩ :=
    Life.of_callStep (hI.ids j c hc) (hI.view j c hc) (fun x hx => hI.slot j c x hc hx) hstep
  have hx' : l'.slot j = x' := (congrArg View.slot hl').symm
  have hcalls : ∀ k, k ≠ j → (s.calls.insert j c').lookup k = s.calls.lookup k :=
    fun k hk => AList.lookup_insert_ne hk
  refine ⟨Function.update L j l',
    hI.of_life hc (AList.lookup_insert _) hreq hcalls ?_ ?_ ?_ hframe ?_,
    .of_life hc hcalls (hf.mono id False.elim) ?_⟩
  · rw [hx', List.append_nil]
    exact hl'
  · intro k _
    rw [List.append_nil]
  · simpa using hI.wakers
  · rw [hx']
    rcases hmoves with ⟨hnone, hx, rfl⟩ | ⟨-, hfree, hput⟩ | ⟨hhas, hput⟩
    · exact Or.inl ⟨hnone, hx, rfl⟩
    · refine Or.inr ⟨fun k d _ hd hsome hid => ?_, hput⟩
      -- the slot of another call would be under this id
      obtain ⟨x, hx⟩ := Option.isSome_iff_exists.1 hsome
      rw [← hid, hI.slot k d x hd hx] at hfree
      cases hfree
    · exact Or.inr ⟨hI.alone hc (Option.isSome_iff_ne_none.2 hhas), hput⟩
  · intro k d hk _
    exact verdictOn_eq_none (by simp [Ne.symm hk])

/-- A new call keeps the invariant. -/
theorem begin (hI : Inv L s) {j : ℕ} {kind : Kind} (h : step s (.begin j kind) = some t) :
    ∃ L', Inv L' t ∧ Advances L s (.begin j kind) t L' := by
  simp only [step] at h
  split_ifs at h with hj
  obtain rfl := Option.some.inj h
  have hnone : s.calls.lookup j = none := by simpa using hj
  have hself : Function.update L j .drawn j = .drawn := Function.update_self ..
  have hother : ∀ {k c}, s.calls.lookup k = some c →
      k ≠ j ∧ Function.update L j .drawn k = L k := by
    intro k c hc
    have hk : k ≠ j := by
      rintro rfl
      rw [hnone] at hc
      cases hc
    exact ⟨hk, Function.update_of_ne hk ..⟩
  have hcases : ∀ {k c}, (s.calls.insert j ⟨kind, toString ((s.nextId + 1) % 2 ^ 64), .drawn,
      []⟩).lookup k = some c → k = j ∧ c = ⟨kind, toString ((s.nextId + 1) % 2 ^ 64), .drawn, []⟩ ∨
        s.calls.lookup k = some c := by
    intro k c hc
    by_cases hk : k = j
    · subst hk
      exact Or.inl ⟨rfl, (Option.some.inj ((AList.lookup_insert _).symm.trans hc)).symm⟩
    · exact Or.inr ((AList.lookup_insert_ne hk).symm.trans hc)
  have hslot : Life.slot j .drawn = none := rfl
  refine ⟨Function.update L j .drawn, ⟨?_, ?_, ?_, ?_, ?_, ?_⟩, ?_, ?_⟩
  · intro k c hc
    obtain ⟨-, rfl⟩ | hc := hcases hc
    · exact Nat.repr_ne_empty
    · exact hI.ids k c hc
  · intro k c hc
    obtain ⟨rfl, rfl⟩ | hc := hcases hc
    · have hwakes : s.wakes.filter (·.owner = k) = [] := by
        rw [List.filter_eq_nil_iff]
        intro w hw hk
        obtain ⟨c, hc⟩ := hI.wakers w hw
        rw [of_decide_eq_true hk, hnone] at hc
        cases hc
      rw [hself, hwakes]
      rfl
    · rw [(hother hc).2]
      exact hI.view k c hc
  · intro k c x hc hx
    obtain ⟨rfl, rfl⟩ | hc := hcases hc
    · rw [hself, hslot] at hx
      cases hx
    · rw [(hother hc).2] at hx
      exact hI.slot k c x hc hx
  · intro k k' c d hc hd hsk hsk' hid
    obtain ⟨rfl, rfl⟩ | hc := hcases hc
    · rw [hself, hslot] at hsk
      cases hsk
    obtain ⟨rfl, rfl⟩ | hd := hcases hd
    · rw [hself, hslot] at hsk'
      cases hsk'
    rw [(hother hc).2] at hsk
    rw [(hother hd).2] at hsk'
    exact hI.unique k k' c d hc hd hsk hsk' hid
  · intro id x hx
    obtain ⟨k, c, hc, hid, hkx⟩ := hI.owned id x hx
    exact ⟨k, c, (AList.lookup_insert_ne (hother hc).1).trans hc, hid, by rw [(hother hc).2, hkx]⟩
  · intro w hw
    obtain ⟨c, hc⟩ := hI.wakers w hw
    exact ⟨c, (AList.lookup_insert_ne (hother hc).1).trans hc⟩
  · intro k c hc
    rw [(hother hc).2, verdictOn_eq_none (by simp)]
    exact .rfl
  · intro k hk hsome
    by_cases hkj : k = j
    · rw [hkj, hself]
    · rw [AList.lookup_insert_ne hkj, hk] at hsome
      cases hsome

theorem heartbeat (hI : Inv L s) (h : step s .heartbeat = some t) :
    ∃ L', Inv L' t ∧ Advances L s .heartbeat t L' := by
  obtain rfl := Option.some.inj h
  refine ⟨L, ⟨hI.ids, hI.view, hI.slot, hI.unique, hI.owned, hI.wakers⟩, ?_, ?_⟩
  · intro k c hc
    rw [verdictOn_eq_none (by simp)]
    exact .rfl
  · intro k hk hsome
    rw [hk] at hsome
    cases hsome

/-- The wake-ups of a sweep for a call come from its slot. -/
theorem filter_sweep (hI : Inv L s) {k : ℕ} {c : Call} (hc : s.calls.lookup k = some c)
    (hit : Slot ℕ → Bool) (r : RpcCallResult) :
    (s.pending.sweep hit r).2.filter (·.owner = k) =
      (((L k).slot k).bind (Slot.collect hit r Slot.asyncWaiter)).toList ++
        (((L k).slot k).bind (Slot.collect hit r Slot.coroutineWaiter)).toList := by
  cases hk : (L k).slot k with
  | some x =>
    rw [PendingCalls.filter_wakes_sweep fun id x' hs => hI.waiter_iff hc (by rw [hk]; rfl) hs,
      hI.slot k c x hc hk]
  | none =>
    simp only [Option.bind_none, Option.toList_none, List.append_nil, List.filter_eq_nil_iff]
    intro w hw hown
    obtain ⟨id, x, hx, hwait⟩ := PendingCalls.owner_of_mem_sweep hw
    obtain ⟨h₁, h₂⟩ := hI.not_waiting hk hx
    rcases hwait with h | h
    · exact h₁ _ h (of_decide_eq_true hown)
    · exact h₂ _ h (of_decide_eq_true hown)

/-- A sweep keeps the invariant, if it decides what the event is said to. -/
theorem sweep (hI : Inv L s) {hit : Slot ℕ → Bool} {r : RpcCallResult}
    (he : ∀ k c x, verdictOn k c x e = hitVerdict hit r x) (hhit : e.sweeps = hit) :
    ∃ L', Inv L' { s with
        pending := (s.pending.sweep hit r).1
        wakes := s.wakes ++ (s.pending.sweep hit r).2 } ∧
      Advances L s e { s with
        pending := (s.pending.sweep hit r).1
        wakes := s.wakes ++ (s.pending.sweep hit r).2 } L' := by
  choose f hf hfollows using Life.of_sweep hit r
  have hslot : ∀ k, (f k (L k)).slot k =
      ((L k).slot k).map fun x => if hit x then (x.settle r).release else x :=
    fun k => (congrArg View.slot (hf k (L k))).symm
  refine ⟨fun k => f k (L k), hI.of_lives (fun _ => rfl) ?_ ?_ ?_ ?_ ?_, ?_, ?_⟩
  · intro k c c' hc hc' _
    obtain rfl := Option.some.inj (hc.symm.trans hc')
    rw [hslot, ← hf k (L k), ← hI.view k c hc, sweptView, List.filter_append,
      hI.filter_sweep hc hit r]
  · intro k c x hc hx
    rw [hslot, Option.map_eq_some_iff] at hx
    obtain ⟨x₀, hx₀, rfl⟩ := hx
    rw [PendingCalls.lookup_sweep, hI.slot k c x₀ hc hx₀]
    rfl
  · intro j k c d hc hd hj hk hid
    rw [hslot, Option.isSome_map] at hj hk
    exact hI.unique j k c d hc hd hj hk hid
  · intro id x hx
    rw [PendingCalls.lookup_sweep, Option.map_eq_some_iff] at hx
    obtain ⟨x₀, hx₀, rfl⟩ := hx
    obtain ⟨k, c, hc, hid, hkx⟩ := hI.owned id x₀ hx₀
    exact ⟨k, c, hc, hid, by rw [hslot, hkx]; rfl⟩
  · intro w hw
    rcases List.mem_append.1 hw with hw | hw
    · exact hI.wakers w hw
    · obtain ⟨id, x, hx, hown⟩ := PendingCalls.owner_of_mem_sweep hw
      obtain ⟨j, d, hd, rfl, hjx⟩ := hI.owned id x hx
      obtain ⟨h₁, h₂⟩ := (L j).waiter_eq j x hjx
      have hj : w.owner = j := by
        rcases hown with h | h
        · exact h₁ _ h
        · exact h₂ _ h
      exact ⟨d, hj ▸ hd⟩
  · intro k c hc
    rw [he, hhit]
    exact (hfollows k (L k)).mono False.elim id
  · intro k hk hsome
    rw [hk] at hsome
    cases hsome

/-- A response keeps the invariant. -/
theorem response (hI : Inv L s) {m : RpcResponse} (h : step s (.response m) = some t) :
    ∃ L', Inv L' t ∧ Advances L s (.response m) t L' := by
  have hverdict : ∀ k c x, verdictOn k c x (.response m) =
      if !isHeartbeatId m.requestId && m.requestId = c.requestId then
        hitVerdict (fun _ => true) (mapped m) x else none := by
    intro k c x
    cases x with
    | none => simp [verdictOn, hitVerdict]
    | some x => cases hd : x.done <;> simp [verdictOn, hitVerdict, Event.verdict, hd]
  by_cases hidle : isHeartbeatId m.requestId ∨ s.pending.slots.lookup m.requestId = none
  · -- an acknowledged heartbeat, or a request id that is not in the table
    have hsame : handleResponse s.pending m = (s.pending, []) := by
      unfold handleResponse
      rcases hidle with hhb | hnone
      · rw [if_pos hhb]
      · rw [PendingCalls.complete_absent hnone]
        split_ifs <;> rfl
    simp only [step, hsame, List.append_nil] at h
    obtain rfl := Option.some.inj h
    refine ⟨L, hI, ?_, ?_⟩
    · intro k c hc
      rw [hverdict]
      split_ifs with hm
      · simp only [Bool.and_eq_true, Bool.not_eq_true', decide_eq_true_eq] at hm
        have hnone : (L k).slot k = none := by
          rcases hidle with hhb | hnone
          · simp [hhb] at hm
          · rw [Option.eq_none_iff_forall_ne_some]
            intro x hx
            rw [hm.2, hI.slot k c x hc hx] at hnone
            cases hnone
        rw [hnone]
        exact .rfl
      · exact .rfl
    · intro k hk hsome
      rw [hk] at hsome
      cases hsome
  -- the response completes the slot of call `j`
  push Not at hidle
  obtain ⟨x, hx⟩ := Option.ne_none_iff_exists'.1 hidle.2
  obtain ⟨j, c, hc, hid, hjx⟩ := hI.owned _ x hx
  have hhb : isHeartbeatId m.requestId = false := by simpa using hidle.1
  have hstep : handleResponse s.pending m =
      ((s.pending.complete c.requestId (mapped m)).1,
        (s.pending.complete c.requestId (mapped m)).2.1) := by
    simp [handleResponse, hhb, hid]
  simp only [step, hstep] at h
  obtain rfl := Option.some.inj h
  have hview : ⟨c.pc, s.pending.slots.lookup c.requestId, s.wakes.filter (·.owner = j),
      c.received⟩ = (L j).view j := by
    rw [hI.slot j c x hc hjx, ← hjx]
    exact hI.view j c hc
  obtain ⟨hown, l', hl', hf⟩ := Life.of_complete (mapped m) hview
  have hl'slot : l'.slot j = (s.pending.complete c.requestId (mapped m)).1.slots.lookup
      c.requestId := (congrArg View.slot hl').symm
  have hjsome : ((L j).slot j).isSome := by rw [hjx]; rfl
  refine ⟨Function.update L j l',
    hI.of_life hc hc rfl (fun _ _ => rfl) ?_ ?_ ?_ ?_ ?_,
    .of_life hc (fun _ _ => rfl) ?_ ?_⟩
  · rw [List.filter_append, ← hl', hl'slot,
      List.filter_eq_self.2 fun w hw => decide_eq_true (hown w hw)]
  · intro k hk
    have hnil : (s.pending.complete c.requestId (mapped m)).2.1.filter (·.owner = k) = [] := by
      rw [List.filter_eq_nil_iff]
      intro w hw hwk
      exact hk ((of_decide_eq_true hwk).symm.trans (hown w hw))
    rw [List.filter_append, hnil, List.append_nil]
  · intro w hw
    rcases List.mem_append.1 hw with hw | hw
    · exact hI.wakers w hw
    · exact ⟨c, by rw [hown w hw, hc]⟩
  · intro id hidc
    exact PendingCalls.lookup_complete_ne hidc
  · exact Or.inr ⟨hI.alone hc hjsome, hl'slot.symm⟩
  · rw [hverdict, hjx, ← hI.slot j c x hc hjx]
    simpa [hhb, hid] using hf.mono False.elim False.elim
  · intro k d hk hd
    rw [hverdict]
    split_ifs with hm
    · simp only [Bool.and_eq_true, Bool.not_eq_true', decide_eq_true_eq] at hm
      have hnone : (L k).slot k = none := by
        by_contra hne
        exact hI.alone hc hjsome k d hk hd (Option.isSome_iff_ne_none.2 hne)
          (hm.2.symm.trans hid.symm)
      rw [hnone]
      rfl
    · rfl

/-- Carrying out a wake-up keeps the invariant. -/
theorem wake (hI : Inv L s) {w : Wake ℕ} (h : step s (.wake w) = some t) :
    ∃ L', Inv L' t ∧ Advances L s (.wake w) t L' := by
  simp only [step] at h
  split_ifs at h with hw
  obtain rfl := Option.some.inj h
  obtain ⟨c, hc⟩ := hI.wakers w hw
  obtain ⟨l', hl', hf⟩ := Life.of_wake (hI.view _ c hc) (List.mem_filter.2 ⟨hw, by simp⟩)
  have hslot : l'.slot w.owner = (L w.owner).slot w.owner := (congrArg View.slot hl').symm
  refine ⟨Function.update L w.owner l',
    hI.of_life hc (by rw [Table.lookup_update_self, hc]; rfl) ?_ ?_ ?_ ?_ ?_ ?_ ?_,
    .of_life hc ?_ ?_ ?_⟩
  · cases w <;> rfl
  · exact fun k hk => Table.lookup_update_ne _ _ hk
  · rw [hslot, ← List.erase_filter]
    exact hl'
  · intro k hk
    rw [← List.erase_filter, List.erase_of_not_mem]
    simp [Ne.symm hk]
  · exact fun x hx => hI.wakers x (List.mem_of_mem_erase hx)
  · exact fun _ _ => rfl
  · rw [hslot]
    cases hj : (L w.owner).slot w.owner with
    | none => exact Or.inl ⟨rfl, rfl, rfl⟩
    | some x =>
      have hsome : ((L w.owner).slot w.owner).isSome := by rw [hj]; rfl
      exact Or.inr ⟨hI.alone hc hsome, hI.slot _ c x hc hj⟩
  · exact fun k hk => Table.lookup_update_ne _ _ hk
  · rw [verdictOn_eq_none (by simp)]
    exact hf.mono False.elim False.elim
  · exact fun k d _ _ => verdictOn_eq_none (by simp)

/-- **Every step keeps the invariant.** -/
theorem step (hI : Inv L s) (h : Client.step s e = some t) :
    ∃ L', Inv L' t ∧ Advances L s e t L' := by
  cases e with
  | begin j kind => exact hI.begin h
  | call j a => exact hI.call h
  | heartbeat => exact hI.heartbeat h
  | response m => exact hI.response h
  | failTimedOut now =>
    obtain rfl := Option.some.inj h
    refine hI.sweep (fun k c x => ?_) rfl
    cases x with
    | none => rfl
    | some x => cases hd : x.done <;> simp [verdictOn, hitVerdict, Event.verdict, hd]
  | failAll r =>
    obtain rfl := Option.some.inj h
    refine hI.sweep (fun k c x => ?_) rfl
    cases x with
    | none => rfl
    | some x => cases hd : x.done <;> simp [verdictOn, hitVerdict, Event.verdict, hd]
  | wake w => exact hI.wake h

end Inv

theorem inv_init : Inv (fun _ => .drawn) {} :=
  ⟨by simp, by simp, by simp, by simp, by simp, by simp⟩

/-- **Every reachable state of the client satisfies the invariant.** -/
theorem inv_exec {es : List Event} {s : State} (hs : exec step {} es = some s) : ∃ L, Inv L s :=
  exec_invariant (I := fun s => ∃ L, Inv L s) ⟨_, inv_init⟩
    (fun _ _ _ ⟨_, hI⟩ h => (hI.step h).imp fun _ h => h.1) hs

/-! ### While the id counter has not come round -/

/-- The request ids are different numbers that were drawn. -/
structure Numbered (s : State) : Prop where
  drawn : ∀ k c, s.calls.lookup k = some c →
    ∃ n, 0 < n ∧ n ≤ s.nextId ∧ c.requestId = toString n
  inj : ∀ j k c d, s.calls.lookup j = some c → s.calls.lookup k = some d →
    c.requestId = d.requestId → j = k

/-- A step keeps the ids apart, if the number it draws, if any, does not come
round. -/
theorem Numbered.step {s t : State} {e : Event} (hN : Numbered s)
    (hbound : e.draws → s.nextId + 1 < 2 ^ 64) (h : Client.step s e = some t) : Numbered t := by
  have hids := requestIds_step h
  have hnext := nextId_step h
  have hle : s.nextId ≤ t.nextId := by
    rw [hnext]
    split_ifs with hd
    · rw [Nat.mod_eq_of_lt (hbound hd)]
      exact Nat.le_succ _
    · exact Nat.le_refl _
  -- a call of `t` is the new one, with the largest number, or one of `s`
  have hcases : ∀ k c, t.calls.lookup k = some c →
      (e.begins k ∧ t.nextId = s.nextId + 1 ∧
        c.requestId = toString (s.nextId + 1)) ∨
      ∃ d, s.calls.lookup k = some d ∧ c.requestId = d.requestId := by
    intro k c hc
    have hid := hids k
    rw [hc] at hid
    split_ifs at hid with he
    · have hdraws : e.draws := by cases e <;> simp_all [Event.begins, Event.draws]
      have hlt := hbound hdraws
      refine Or.inl ⟨he, ?_, ?_⟩
      · rw [hnext, if_pos hdraws, Nat.mod_eq_of_lt hlt]
      · rw [Option.some.inj hid, Nat.mod_eq_of_lt hlt]
    · obtain ⟨d, hd, he⟩ := Option.map_eq_some_iff.1 hid.symm
      exact Or.inr ⟨d, hd, he.symm⟩
  have hfresh : ∀ k d, s.calls.lookup k = some d → d.requestId ≠ toString (s.nextId + 1) := by
    intro k d hd heq
    obtain ⟨n, -, hn, hid⟩ := hN.drawn k d hd
    have hdigits : Nat.toDigits 10 n = Nat.toDigits 10 (s.nextId + 1) := by
      rw [← Nat.toList_repr, ← Nat.toList_repr]
      exact congrArg String.toList (hid.symm.trans heq)
    have hvalue := congrArg (Nat.ofDigitChars 10 · 0) hdigits
    simp only [Nat.ofDigitChars_ten_toDigits] at hvalue
    omega
  refine ⟨?_, ?_⟩
  · intro k c hc
    rcases hcases k c hc with ⟨-, hn, hid⟩ | ⟨d, hd, hid⟩
    · exact ⟨s.nextId + 1, Nat.succ_pos _, by omega, hid⟩
    · obtain ⟨n, h0, hn, hnid⟩ := hN.drawn k d hd
      exact ⟨n, h0, by omega, hid.trans hnid⟩
  · intro j k c d hc hd heq
    rcases hcases j c hc with ⟨hj, -, hcid⟩ | ⟨c₀, hc₀, hcid⟩ <;>
      rcases hcases k d hd with ⟨hk, -, hdid⟩ | ⟨d₀, hd₀, hdid⟩
    · cases e <;> simp_all [Event.begins]
    · exact absurd (by rw [← hdid, ← heq, hcid]) (hfresh k d₀ hd₀)
    · exact absurd (by rw [← hcid, heq, hdid]) (hfresh j c₀ hc₀)
    · exact hN.inj j k c₀ d₀ hc₀ hd₀ (by rw [← hcid, heq, hdid])

/-- While the ids differ, the slot in the table under a call's id is its own. -/
theorem Inv.lookup_eq {L : ℕ → Life} {s : State} (hI : Inv L s) (hN : Numbered s) {k : ℕ}
    {c : Call} (hc : s.calls.lookup k = some c) :
    s.pending.slots.lookup c.requestId = (L k).slot k := by
  cases hx : s.pending.slots.lookup c.requestId with
  | none =>
    cases hk : (L k).slot k with
    | none => rfl
    | some x => rw [hI.slot k c x hc hk] at hx; cases hx
  | some x =>
    obtain ⟨j, d, hd, hid, hjx⟩ := hI.owned _ x hx
    rw [← hN.inj j k d c hd hc hid, hjx]

/-- **The result a life carries is the one the run decided.**  As long as the id
counter has not come round, no call is turned away, and what the events of the
run decided for a call is what its life says. -/
theorem decided_exec {es : List Event} {s : State} (hdraws : es.countP Event.draws < 2 ^ 64)
    (hs : exec step {} es = some s) :
    Numbered s ∧ ∃ L, Inv L s ∧ ∀ k c, s.calls.lookup k = some c →
      observe step (decides k) {} es = (L k).verdict.toList ∧ (L k).isRefused = false := by
  have key : ∀ es s, exec step {} es = some s → exec step {} es = some s ∧
      (es.countP Event.draws < 2 ^ 64 → s.nextId = es.countP Event.draws ∧ Numbered s ∧
        ∃ L, Inv L s ∧ (∀ k c, s.calls.lookup k = some c →
          observe step (decides k) {} es = (L k).verdict.toList ∧ (L k).isRefused = false) ∧
          ∀ k, s.calls.lookup k = none → observe step (decides k) {} es = []) := by
    refine exec_history ⟨rfl, fun _ => ⟨rfl, ⟨by simp, by simp⟩, _, inv_init, by simp, ?_⟩⟩ ?_
    · exact fun _ _ => rfl
    rintro es s e t ⟨hex, ih⟩ hst
    refine ⟨exec_concat.2 ⟨s, hex, hst⟩, fun hlt => ?_⟩
    rw [List.countP_append] at hlt ⊢
    obtain ⟨hnext, hN, L, hI, hdec, hnone⟩ := ih (by omega)
    have hbound : e.draws → s.nextId + 1 < 2 ^ 64 := by
      intro he
      simp only [List.countP_singleton, he, if_true] at hlt
      omega
    have hnext' : t.nextId = es.countP Event.draws + [e].countP Event.draws := by
      rw [nextId_step hst, List.countP_singleton]
      split_ifs with he
      · rw [Nat.mod_eq_of_lt (hbound he), hnext]
      · rw [hnext, Nat.add_zero]
    obtain ⟨L', hI', hadv⟩ := hI.step hst
    have hunbegun : ∀ k, s.calls.lookup k = none →
        observe step (decides k) {} (es ++ [e]) = [] := by
      intro k hk
      rw [observe_concat hex, hnone k hk, decides, hk]
      rfl
    refine ⟨hnext', hN.step hbound hst, L', hI', ?_, ?_⟩
    · intro k c' hc'
      cases hk : s.calls.lookup k with
      | none =>
        rw [hunbegun k hk, hadv.begins k hk (by rw [hc']; rfl)]
        exact ⟨rfl, rfl⟩
      | some c =>
        obtain ⟨hv, hr⟩ := hdec k c hk
        have hf := hadv.follows k c hk
        have hd : decides k s e = verdictOn k c ((L k).slot k) e := by
          rw [← hI.lookup_eq hN hk, decides, hk]
          rfl
        refine ⟨by rw [observe_concat hex, hv, hd, hf.verdict], ?_⟩
        by_contra hr'
        rcases hf.refused (by simpa using hr') with h | ⟨h₁, h₂⟩
        · rw [hr] at h
          cases h
        · rw [hI.lookup_eq hN hk, h₁] at h₂
          cases h₂
    · intro k hk
      refine hunbegun k ?_
      have hid := requestIds_step hst k
      rw [hk] at hid
      split_ifs at hid
      · cases hid
      · exact Option.map_eq_none_iff.1 hid.symm
  obtain ⟨-, hN, L, hI, hdec, -⟩ := (key es s hs).2 hdraws
  exact ⟨hN, L, hI, hdec⟩

end Client
end MiniRpc
