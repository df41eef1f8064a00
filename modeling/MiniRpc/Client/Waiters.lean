/-
# The waiters of the pending calls

`src/client/pending_calls.cpp` under any use: its operations in any order, on any
ids.  Each is atomic under `mutex_`, and what it does once it has released the
mutex, it does with the waiters it took out of the table while it held it.

A promise is given to one `BindAsync` only; a coroutine may be bound again for its
next call, so what is told apart is the binding.  Here the waiter of an operation
is the number of the operation.
-/

import MiniRpc.Client.PendingCalls
import MiniRpc.Library.Transition

namespace MiniRpc
namespace Client

open Transition

namespace Slot

variable {α : Type*}

/-- A slot has a promise or a coroutine, and neither once it is done. -/
structure Exclusive (slot : Slot α) : Prop where
  bound : ¬ (slot.asyncBound = true ∧ slot.coroutineBound = true)
  stored : slot.asyncPromise.isSome → slot.asyncBound = true
  handle : slot.coroutineHandle.isSome = slot.coroutineBound
  promise_open : slot.asyncPromise.isSome → slot.done = false
  handle_open : slot.coroutineBound = true → slot.done = false

/-- `a` waits in the slot. -/
def Waits (slot : Slot α) (a : α) : Prop :=
  slot.asyncPromise = some a ∨ slot.coroutineHandle = some a

variable {slot : Slot α} {a : α} {r : RpcCallResult}

theorem Exclusive.init : Exclusive (α := α) {} := by
  constructor <;> simp

theorem Exclusive.hasCoroutine (h : slot.Exclusive) : slot.hasCoroutine = slot.coroutineBound := by
  rw [Slot.hasCoroutine, h.handle, Bool.and_self]

theorem Exclusive.settle_release (h : slot.Exclusive) :
    (slot.settle r).release.Exclusive ∧ (slot.settle r).release.coroutineBound = false ∧
      ∀ a, ¬ (slot.settle r).release.Waits a := by
  have hc : (slot.settle r).hasCoroutine = slot.coroutineBound := by
    rw [← h.hasCoroutine]
    unfold settle Slot.hasCoroutine
    split_ifs <;> rfl
  have hhandle := h.handle
  unfold release
  rw [hc]
  cases hb : slot.coroutineBound with
  | true => exact ⟨by constructor <;> simp, rfl, by simp [Waits]⟩
  | false =>
    rw [hb] at hhandle
    have hnone : slot.coroutineHandle = none := by simpa using hhandle
    have hbound : (slot.settle r).coroutineBound = false := by
      unfold settle
      split_ifs <;> exact hb
    exact ⟨by constructor <;> simp [hnone, hbound], by simpa using hbound, by simp [Waits, hnone]⟩

theorem Exclusive.not_both (h : slot.Exclusive) {b : α} (ha : slot.asyncPromise = some a) :
    slot.coroutineHandle ≠ some b := by
  intro hb
  refine h.bound ⟨h.stored (by rw [ha]; rfl), ?_⟩
  rw [← h.handle, hb]
  rfl

/-- One waits in a slot at most. -/
theorem Exclusive.waits_unique (h : slot.Exclusive) {b : α} (ha : slot.Waits a)
    (hb : slot.Waits b) : a = b := by
  rcases ha with ha | ha <;> rcases hb with hb | hb
  · exact Option.some.inj (ha.symm.trans hb)
  · exact absurd hb (h.not_both ha)
  · exact absurd ha (h.not_both hb)
  · exact Option.some.inj (ha.symm.trans hb)

/-- A sweep takes one waiter out of a slot at most. -/
theorem Exclusive.length_collect_le (h : slot.Exclusive) (hit : Slot α → Bool) :
    ((slot.collect hit r asyncWaiter).toList ++
      (slot.collect hit r coroutineWaiter).toList).length ≤ 1 := by
  cases ha : slot.collect hit r asyncWaiter with
  | none => exact Option.length_toList_le
  | some w =>
    cases hc : slot.collect hit r coroutineWaiter with
    | none => simp
    | some w' =>
      exact absurd (coroutineHandle_of_collect hc) (h.not_both (asyncPromise_of_collect ha))

end Slot

/-- The table, the number of the next operation and what the waiters were woken
with. -/
structure Waiters where
  pending : PendingCalls ℕ := {}
  next : ℕ := 0
  fired : List (Wake ℕ) := []

namespace Waiters

/-- An operation of the table. -/
inductive Op where
  | add (id : String)
  | bindAsync (id : String) (deadline : Time)
  | bindCoroutine (id : String) (deadline : Time)
  | complete (id : String) (r : RpcCallResult)
  | waitAndPop (id : String)
  | tryPop (id : String)
  | remove (id : String)
  | failAll (r : RpcCallResult)
  | failTimedOut (now : Time) (r : RpcCallResult)
  deriving DecidableEq

/-- An operation leaves the table `p` and wakes the waiters `wakes`. -/
def after (s : Waiters) (p : PendingCalls ℕ) (wakes : List (Wake ℕ)) : Waiters :=
  { pending := p, next := s.next + 1, fired := s.fired ++ wakes }

/-- One operation; each of them can always be called. -/
def perform (s : Waiters) : Op → Waiters
  | .add id => s.after (s.pending.add id).1 []
  | .bindAsync id deadline =>
    let bound := s.pending.bindAsync id s.next deadline
    s.after bound.1 (bound.2.2.toList.map (.setValue s.next))
  | .bindCoroutine id deadline => s.after (s.pending.bindCoroutine id s.next deadline).1 []
  | .complete id r => s.after (s.pending.complete id r).1 (s.pending.complete id r).2.1
  | .waitAndPop id => s.after (s.pending.waitAndPop id).1 []
  | .tryPop id => s.after (s.pending.tryPop id).1 []
  | .remove id => s.after (s.pending.remove id) []
  | .failAll r => s.after (s.pending.failAll r).1 (s.pending.failAll r).2
  | .failTimedOut now r =>
    s.after (s.pending.failTimedOut now r).1 (s.pending.failTimedOut now r).2

/-- `perform` as a step. -/
def step (s : Waiters) (o : Op) : Option Waiters := some (s.perform o)

/-- The id whose slot an `Add` opens. -/
def added (s : Waiters) : Op → Option String
  | .add id => if (s.pending.add id).2 then some id else none
  | _ => none

/-- The id whose slot is popped: by the fast path of `BindAsync`, by `TryPop` or by
`WaitAndPop`. -/
def popped (s : Waiters) : Op → Option String
  | .bindAsync id deadline =>
    if (s.pending.bindAsync id s.next deadline).2.2.isSome then some id else none
  | .waitAndPop id => if (s.pending.waitAndPop id).2.isSome then some id else none
  | .tryPop id => if (s.pending.tryPop id).2.isSome then some id else none
  | _ => none

/-- `a` waits in the slot of `id`. -/
def WaitsAt (p : PendingCalls ℕ) (id : String) (a : ℕ) : Prop :=
  ∃ slot, p.slots.lookup id = some slot ∧ slot.Waits a

/-- Every waiter is in one slot of the table, is older than the next operation, and
was not woken. -/
structure Sound (s : Waiters) : Prop where
  slots : ∀ id slot, s.pending.slots.lookup id = some slot → slot.Exclusive
  one : ∀ id id' a, WaitsAt s.pending id a → WaitsAt s.pending id' a → id = id'
  older : ∀ id a, WaitsAt s.pending id a → a < s.next
  unwoken : ∀ id w, w ∈ s.fired → ¬ WaitsAt s.pending id w.owner
  fired : ∀ w ∈ s.fired, w.owner < s.next
  once : ∀ a, (s.fired.filter (·.owner = a)).length ≤ 1

namespace Sound

variable {s : Waiters} {p : PendingCalls ℕ} {wakes : List (Wake ℕ)}

theorem init : Sound {} where
  slots := by
    intro id slot h
    cases h
  one := by
    rintro id id' a ⟨slot, h, -⟩
    cases h
  older := by
    rintro id a ⟨slot, h, -⟩
    cases h
  unwoken := by simp
  fired := by simp
  once := by simp

/-- **What an operation has to keep.**  The waiters of the new table waited in the
same slots before, or are new; the woken ones waited in none of the new slots, and
each of them is woken once. -/
theorem after (h : s.Sound)
    (hslots : ∀ id slot, p.slots.lookup id = some slot → slot.Exclusive)
    (hwaits : ∀ id a, WaitsAt p id a → WaitsAt s.pending id a ∨ a = s.next)
    (hnew : ∀ id id', WaitsAt p id s.next → WaitsAt p id' s.next → id = id')
    (hwoken : ∀ w ∈ wakes, (∀ id, ¬ WaitsAt p id w.owner) ∧
      (w.owner = s.next ∨ ∃ id, WaitsAt s.pending id w.owner))
    (honce : ∀ a, (wakes.filter (·.owner = a)).length ≤ 1) : (s.after p wakes).Sound where
  slots := hslots
  one := by
    intro id id' a ha ha'
    rcases hwaits id a ha with hold | rfl
    · rcases hwaits id' a ha' with hold' | rfl
      · exact h.one id id' a hold hold'
      · exact hnew id id' ha ha'
    · exact hnew id id' ha ha'
  older := by
    intro id a ha
    rcases hwaits id a ha with hold | rfl
    · exact Nat.lt_succ_of_lt (h.older id a hold)
    · exact Nat.lt_succ_self _
  unwoken := by
    intro id w hw ha
    rcases List.mem_append.1 hw with hw | hw
    · rcases hwaits id w.owner ha with hold | hnext
      · exact h.unwoken id w hw hold
      · exact Nat.lt_irrefl _ (hnext ▸ h.fired w hw)
    · exact (hwoken w hw).1 id ha
  fired := by
    intro w hw
    rcases List.mem_append.1 hw with hw | hw
    · exact Nat.lt_succ_of_lt (h.fired w hw)
    · rcases (hwoken w hw).2 with hnext | ⟨id, hold⟩
      · exact hnext ▸ Nat.lt_succ_self _
      · exact Nat.lt_succ_of_lt (h.older id _ hold)
  once := by
    intro a
    have hdisjoint : s.fired.filter (·.owner = a) = [] ∨ wakes.filter (·.owner = a) = [] := by
      by_contra hboth
      obtain ⟨hl, hr⟩ := not_or.1 hboth
      obtain ⟨w, hw⟩ := List.exists_mem_of_ne_nil _ hl
      obtain ⟨w', hw'⟩ := List.exists_mem_of_ne_nil _ hr
      obtain ⟨hmem, ho⟩ := List.mem_filter.1 hw
      obtain ⟨hmem', ho'⟩ := List.mem_filter.1 hw'
      obtain rfl := of_decide_eq_true ho
      have ho' := of_decide_eq_true ho'
      rcases (hwoken w' hmem').2 with hnext | ⟨id, hold⟩
      · exact Nat.lt_irrefl _ ((ho'.symm.trans hnext) ▸ h.fired w hmem)
      · exact h.unwoken id w hmem (ho' ▸ hold)
    have hs := h.once a
    have hw := honce a
    rw [Waiters.after, List.filter_append, List.length_append]
    rcases hdisjoint with hnil | hnil
    · rw [hnil]
      simpa using hw
    · rw [hnil]
      simpa using hs

/-- An operation that wakes nobody and binds nobody. -/
theorem quiet (h : s.Sound)
    (hslots : ∀ id slot, p.slots.lookup id = some slot → slot.Exclusive)
    (hwaits : ∀ id a, WaitsAt p id a → WaitsAt s.pending id a) : (s.after p []).Sound :=
  h.after hslots (fun id a ha => Or.inl (hwaits id a ha))
    (fun id _ ha => absurd (h.older id _ (hwaits id _ ha)) (Nat.lt_irrefl _)) (by simp) (by simp)

/-- An operation after which the slots are among those before. -/
theorem fewer (h : s.Sound)
    (hfewer : ∀ id slot, p.slots.lookup id = some slot → s.pending.slots.lookup id = some slot) :
    (s.after p []).Sound :=
  h.quiet (fun id slot hl => h.slots id slot (hfewer id slot hl))
    fun id _ ⟨slot, hl, ha⟩ => ⟨slot, hfewer id slot hl, ha⟩

/-- The newest waiter waits nowhere yet. -/
theorem not_waitsAt_next (h : s.Sound) (id : String) : ¬ WaitsAt s.pending id s.next :=
  fun ha => Nat.lt_irrefl _ (h.older id _ ha)

/-- `BindAsync` and `BindCoroutine` put the newest waiter into a slot. -/
theorem bind (h : s.Sound) (id : String) (slot : Slot ℕ) (hslot : slot.Exclusive)
    (hwaits : ∀ a, slot.Waits a → a = s.next) :
    (s.after ⟨s.pending.slots.insert id slot⟩ []).Sound := by
  have key : ∀ id' a, WaitsAt ⟨s.pending.slots.insert id slot⟩ id' a →
      WaitsAt s.pending id' a ∨ a = s.next ∧ id' = id := by
    rintro id' a ⟨x, hl, ha⟩
    by_cases hid : id' = id
    · subst hid
      rw [AList.lookup_insert] at hl
      obtain rfl := Option.some.inj hl
      exact Or.inr ⟨hwaits a ha, rfl⟩
    · rw [AList.lookup_insert_ne hid] at hl
      exact Or.inl ⟨x, hl, ha⟩
  refine h.after ?_ (fun id' a ha => (key id' a ha).imp_right (·.1)) ?_ (by simp) (by simp)
  · intro id' x hl
    by_cases hid : id' = id
    · subst hid
      rw [AList.lookup_insert] at hl
      exact Option.some.inj hl ▸ hslot
    · rw [AList.lookup_insert_ne hid] at hl
      exact h.slots id' x hl
  · intro id₁ id₂ h₁ h₂
    have h₁ := (key id₁ _ h₁).resolve_left (h.not_waitsAt_next id₁)
    have h₂ := (key id₂ _ h₂).resolve_left (h.not_waitsAt_next id₂)
    exact h₁.2.trans h₂.2.symm

theorem add (h : s.Sound) (id : String) : (s.perform (.add id)).Sound := by
  refine h.quiet ?_ ?_
  · intro id' x hl
    rcases PendingCalls.open_of_add hl with hold | ⟨-, -, rfl⟩
    · exact h.slots id' x hold
    · exact Slot.Exclusive.init
  · rintro id' a ⟨x, hl, ha⟩
    rcases PendingCalls.open_of_add hl with hold | ⟨-, -, rfl⟩
    · exact ⟨x, hold, ha⟩
    · simp [Slot.Waits] at ha

theorem bindAsync (h : s.Sound) (id : String) (deadline : Time) :
    (s.perform (.bindAsync id deadline)).Sound := by
  simp only [perform, PendingCalls.bindAsync]
  split
  · exact h.fewer fun _ _ hl => hl
  rename_i slot hslot
  have hex := h.slots id slot hslot
  split_ifs with hasync hco hdone
  · exact h.fewer fun _ _ hl => hl
  · exact h.fewer fun _ _ hl => hl
  · -- the fast path: the newest waiter is woken at once
    have hfewer : ∀ id' x, (s.pending.slots.erase id).lookup id' = some x →
        s.pending.slots.lookup id' = some x := fun _ _ => Table.lookup_of_erase
    have hwaits : ∀ id' a, WaitsAt ⟨s.pending.slots.erase id⟩ id' a → WaitsAt s.pending id' a :=
      fun id' _ ⟨x, hl, ha⟩ => ⟨x, hfewer id' x hl, ha⟩
    refine h.after (fun id' x hl => h.slots id' x (hfewer id' x hl))
      (fun id' a ha => Or.inl (hwaits id' a ha))
      (fun id' _ ha => absurd (hwaits id' _ ha) (h.not_waitsAt_next id')) ?_ ?_
    · intro w hw
      obtain rfl : w = .setValue s.next slot.result := by simpa using hw
      exact ⟨fun id' ha => h.not_waitsAt_next id' (hwaits id' _ ha), Or.inl rfl⟩
    · exact fun a => List.length_filter_le _ _
  · have hnone : slot.coroutineHandle = none := by simpa [hco] using hex.handle
    refine h.bind id { slot with asyncPromise := some s.next, asyncBound := true, deadline } ?_ ?_
    · constructor <;> simp_all
    · simp [Slot.Waits, hnone]

theorem bindCoroutine (h : s.Sound) (id : String) (deadline : Time) :
    (s.perform (.bindCoroutine id deadline)).Sound := by
  simp only [perform, PendingCalls.bindCoroutine]
  split
  · exact h.fewer fun _ _ hl => hl
  rename_i slot hslot
  have hex := h.slots id slot hslot
  split_ifs with hco hasync hdone
  · exact h.fewer fun _ _ hl => hl
  · exact h.fewer fun _ _ hl => hl
  · exact h.fewer fun _ _ hl => hl
  · have hnone : slot.asyncPromise = none := by
      by_contra hne
      exact hasync (hex.stored (Option.isSome_iff_ne_none.2 hne))
    refine h.bind id
      { slot with coroutineHandle := some s.next, coroutineBound := true, deadline } ?_ ?_
    · constructor <;> simp_all
    · simp [Slot.Waits, hnone]

theorem tryPop (h : s.Sound) (id : String) : (s.perform (.tryPop id)).Sound :=
  h.fewer fun _ _ hl => PendingCalls.open_of_tryPop hl

theorem waitAndPop (h : s.Sound) (id : String) : (s.perform (.waitAndPop id)).Sound := by
  refine h.fewer fun _ _ hl => ?_
  rw [PendingCalls.waitAndPop_eq_tryPop] at hl
  exact PendingCalls.open_of_tryPop hl

theorem remove (h : s.Sound) (id : String) : (s.perform (.remove id)).Sound :=
  h.fewer fun _ _ hl => Table.lookup_of_erase hl

/-- The slot of `id` hands over its waiter, if it has one. -/
theorem handOver (h : s.Sound) {id : String} {slot : Slot ℕ}
    (hl : s.pending.slots.lookup id = some slot)
    (hslots : ∀ id' x, p.slots.lookup id' = some x → x.Exclusive)
    (hwaits : ∀ id' a, WaitsAt p id' a → id' ≠ id ∧ WaitsAt s.pending id' a)
    (hwho : ∀ w ∈ wakes, slot.Waits w.owner) (hlen : wakes.length ≤ 1) :
    (s.after p wakes).Sound := by
  refine h.after hslots (fun id' a ha => Or.inl (hwaits id' a ha).2)
    (fun id' _ ha => absurd (hwaits id' _ ha).2 (h.not_waitsAt_next id')) ?_
    fun a => (List.length_filter_le _ _).trans hlen
  intro w hw
  have hold : WaitsAt s.pending id w.owner := ⟨slot, hl, hwho w hw⟩
  refine ⟨fun id' ha => ?_, Or.inr ⟨id, hold⟩⟩
  obtain ⟨hne, ha⟩ := hwaits id' _ ha
  exact hne (h.one id' id _ ha hold)

theorem complete (h : s.Sound) (id : String) (r : RpcCallResult) :
    (s.perform (.complete id r)).Sound := by
  simp only [perform]
  cases hl : s.pending.slots.lookup id with
  | none =>
    rw [PendingCalls.complete_absent hl]
    exact h.fewer fun _ _ hl => hl
  | some slot =>
    have hex := h.slots id slot hl
    cases hd : slot.done with
    | true =>
      rw [PendingCalls.complete_done hl hd]
      exact h.fewer fun _ _ hl => hl
    | false =>
      cases ha : slot.asyncPromise with
      | some a =>
        rw [PendingCalls.complete_async hl hd ha]
        refine h.handOver hl (fun id' x hx => h.slots id' x (Table.lookup_of_erase hx)) ?_
          (by simp [Slot.Waits, ha, Wake.owner]) le_rfl
        rintro id' b ⟨x, hx, hb⟩
        refine ⟨?_, x, Table.lookup_of_erase hx, hb⟩
        rintro rfl
        rw [AList.lookup_erase] at hx
        cases hx
      | none =>
        rw [PendingCalls.complete_other hl hd ha]
        obtain ⟨hreleased, -, hnobody⟩ := hex.settle_release (r := r)
        refine h.handOver hl ?_ ?_ ?_ ?_
        · intro id' x hx
          by_cases hid : id' = id
          · subst hid
            rw [AList.lookup_insert] at hx
            exact Option.some.inj hx ▸ hreleased
          · rw [AList.lookup_insert_ne hid] at hx
            exact h.slots id' x hx
        · rintro id' b ⟨x, hx, hb⟩
          by_cases hid : id' = id
          · subst hid
            rw [AList.lookup_insert] at hx
            exact absurd (Option.some.inj hx ▸ hb) (hnobody b)
          · rw [AList.lookup_insert_ne hid] at hx
            exact ⟨hid, x, hx, hb⟩
        · intro w hw
          have hcollect : slot.collect (fun _ => true) r Slot.coroutineWaiter = some w := by
            simpa [Slot.collect] using hw
          exact Or.inr (Slot.coroutineHandle_of_collect hcollect)
        · exact Option.length_toList_le

/-- A slot that is `hit` hands over its waiter; the others keep theirs. -/
theorem sweep (h : s.Sound) (hit : Slot ℕ → Bool) (r : RpcCallResult) :
    (s.after (s.pending.sweep hit r).1 (s.pending.sweep hit r).2).Sound := by
  have hwaits : ∀ id a, WaitsAt (s.pending.sweep hit r).1 id a →
      ∃ slot, s.pending.slots.lookup id = some slot ∧ hit slot = false ∧ slot.Waits a := by
    rintro id a ⟨x, hx, ha⟩
    rw [PendingCalls.lookup_sweep] at hx
    obtain ⟨slot, hl, rfl⟩ := Option.map_eq_some_iff.1 hx
    cases hh : hit slot with
    | true =>
      rw [if_pos hh] at ha
      exact absurd ha ((h.slots id slot hl).settle_release.2.2 a)
    | false =>
      rw [hh, if_neg Bool.false_ne_true] at ha
      exact ⟨slot, hl, hh, ha⟩
  have hold : ∀ id a, WaitsAt (s.pending.sweep hit r).1 id a → WaitsAt s.pending id a := by
    intro id a ha
    obtain ⟨slot, hl, -, ha⟩ := hwaits id a ha
    exact ⟨slot, hl, ha⟩
  -- the wake-ups of `a` are those of the slot in which it waits
  have hfilter : ∀ id slot a, s.pending.slots.lookup id = some slot → slot.Waits a →
      (s.pending.sweep hit r).2.filter (·.owner = a) =
        (slot.collect hit r Slot.asyncWaiter).toList ++
          (slot.collect hit r Slot.coroutineWaiter).toList := by
    intro id slot a hl ha
    have hunique : ∀ id' x b, s.pending.slots.lookup id' = some x → x.Waits b →
        (b = a ↔ id' = id) := by
      intro id' x b hx hb
      constructor
      · rintro rfl
        exact h.one id' id b ⟨x, hx, hb⟩ ⟨slot, hl, ha⟩
      · rintro rfl
        obtain rfl := Option.some.inj (hx.symm.trans hl)
        exact (h.slots id' x hl).waits_unique hb ha
    have howner : ∀ id' x, s.pending.slots.lookup id' = some x →
        (∀ b ∈ x.asyncPromise, b = a ↔ id' = id) ∧ ∀ b ∈ x.coroutineHandle, b = a ↔ id' = id :=
      fun id' x hx =>
        ⟨fun b hb => hunique id' x b hx (Or.inl hb), fun b hb => hunique id' x b hx (Or.inr hb)⟩
    rw [PendingCalls.filter_wakes_sweep howner, hl]
    rfl
  refine h.after ?_ (fun id a ha => Or.inl (hold id a ha))
    (fun id _ ha => absurd (hold id _ ha) (h.not_waitsAt_next id)) ?_ ?_
  · intro id x hx
    rw [PendingCalls.lookup_sweep] at hx
    obtain ⟨slot, hl, rfl⟩ := Option.map_eq_some_iff.1 hx
    split_ifs
    · exact (h.slots id slot hl).settle_release.1
    · exact h.slots id slot hl
  · intro w hw
    obtain ⟨id, slot, hl, ha⟩ := PendingCalls.owner_of_mem_sweep hw
    refine ⟨?_, Or.inr ⟨id, slot, hl, ha⟩⟩
    intro id' ha'
    obtain ⟨slot', hl', hmiss, hw'⟩ := hwaits id' _ ha'
    have hmem : w ∈ (s.pending.sweep hit r).2.filter (·.owner = w.owner) :=
      List.mem_filter.2 ⟨hw, decide_eq_true rfl⟩
    rw [hfilter id' slot' w.owner hl' hw'] at hmem
    simp [Slot.collect, hmiss] at hmem
  · intro a
    by_cases hex : ∃ id slot, s.pending.slots.lookup id = some slot ∧ slot.Waits a
    · obtain ⟨id, slot, hl, ha⟩ := hex
      rw [hfilter id slot a hl ha]
      exact (h.slots id slot hl).length_collect_le hit
    · have hnil : (s.pending.sweep hit r).2.filter (·.owner = a) = [] := by
        rw [List.filter_eq_nil_iff]
        intro w hw hwa
        obtain ⟨id, slot, hl, ha⟩ := PendingCalls.owner_of_mem_sweep hw
        exact hex ⟨id, slot, hl, of_decide_eq_true hwa ▸ ha⟩
      rw [hnil]
      exact Nat.zero_le _

theorem perform (h : s.Sound) (o : Op) : (s.perform o).Sound := by
  cases o with
  | add id => exact h.add id
  | bindAsync id deadline => exact h.bindAsync id deadline
  | bindCoroutine id deadline => exact h.bindCoroutine id deadline
  | complete id r => exact h.complete id r
  | waitAndPop id => exact h.waitAndPop id
  | tryPop id => exact h.tryPop id
  | remove id => exact h.remove id
  | failAll r => exact h.sweep _ r
  | failTimedOut now r => exact h.sweep _ r

end Sound

/-! ### The life of a slot -/

/-- What an operation does to the slot of an id; `isAdd` says that it is a
successful `Add` of the id. -/
inductive Moved (isAdd : Prop) : Option (Slot ℕ) → Option (Slot ℕ) → Prop where
  | same (x : Option (Slot ℕ)) : Moved isAdd x x
  | erased (x : Option (Slot ℕ)) : Moved isAdd x none
  | opened (h : isAdd) : Moved isAdd none (some {})
  | bound {x x' : Slot ℕ} (h : x.done = false) : Moved isAdd (some x) (some x')
  | settled (x : Slot ℕ) (r : RpcCallResult) : Moved isAdd (some x) (some (x.settle r).release)

namespace Moved

variable {isAdd : Prop} {slots : Table String (Slot ℕ)}

theorem erase (id id' : String) : Moved isAdd (slots.lookup id) ((slots.erase id').lookup id) := by
  by_cases hid : id = id'
  · rw [hid, AList.lookup_erase]
    exact .erased _
  · rw [AList.lookup_erase_ne hid]
    exact .same _

theorem insert {id id' : String} {x : Slot ℕ}
    (h : id = id' → Moved isAdd (slots.lookup id') (some x)) :
    Moved isAdd (slots.lookup id) ((slots.insert id' x).lookup id) := by
  by_cases hid : id = id'
  · rw [hid, AList.lookup_insert]
    exact h hid
  · rw [AList.lookup_insert_ne hid]
    exact .same _

theorem sweep (p : PendingCalls ℕ) (hit : Slot ℕ → Bool) (r : RpcCallResult) (id : String) :
    Moved isAdd (p.slots.lookup id) ((p.sweep hit r).1.slots.lookup id) := by
  rw [PendingCalls.lookup_sweep]
  cases p.slots.lookup id with
  | none => exact .same _
  | some x =>
    rw [Option.map_some]
    split_ifs
    · exact .settled x r
    · exact .same _

end Moved

variable {s t : Waiters}

theorem moved (s : Waiters) (o : Op) (id : String) :
    Moved (s.added o = some id) (s.pending.slots.lookup id)
      ((s.perform o).pending.slots.lookup id) := by
  cases o with
  | add id' =>
    simp only [perform, added, after]
    rcases hadd : s.pending.add id' with ⟨p, b⟩
    unfold PendingCalls.add Table.tryEmplace at hadd
    split_ifs at hadd with hempty
    · obtain ⟨rfl, -⟩ := Prod.mk.inj hadd
      exact .same _
    · cases hl : s.pending.slots.lookup id' with
      | some x =>
        obtain ⟨rfl, -⟩ := Prod.mk.inj (by simpa only [hl] using hadd)
        exact .same _
      | none =>
        obtain ⟨rfl, rfl⟩ := Prod.mk.inj (by simpa only [hl] using hadd)
        exact .insert fun hid => hl ▸ .opened (by simp [hid])
  | bindAsync id' deadline =>
    simp only [perform, after, PendingCalls.bindAsync]
    split
    · exact .same _
    · rename_i x hl
      split_ifs with _ _ hd
      · exact .same _
      · exact .same _
      · exact .erase id id'
      · exact .insert fun _ => hl ▸ .bound (by simpa using hd)
  | bindCoroutine id' deadline =>
    simp only [perform, after, PendingCalls.bindCoroutine]
    split
    · exact .same _
    · rename_i x hl
      split_ifs with _ _ hd
      · exact .same _
      · exact .same _
      · exact .same _
      · exact .insert fun _ => hl ▸ .bound (by simpa using hd)
  | complete id' r =>
    simp only [perform, after, PendingCalls.complete]
    split
    · exact .same _
    · rename_i x hl
      split_ifs
      · exact .same _
      · split
        · exact .erase id id'
        · exact .insert fun _ => hl ▸ .settled x r
  | waitAndPop id' =>
    simp only [perform, after, PendingCalls.waitAndPop]
    split
    · exact .same _
    · split_ifs
      · exact .same _
      · exact .erase id id'
  | tryPop id' =>
    simp only [perform, after, PendingCalls.tryPop]
    split
    · exact .same _
    · split_ifs
      · exact .erase id id'
      · exact .same _
  | remove id' => exact .erase id id'
  | failAll r => exact .sweep s.pending _ r id
  | failTimedOut now r => exact .sweep s.pending _ r id

/-- The result of a slot that is done stays, as long as the slot does. -/
theorem done_kept {id : String} {slot slot' : Slot ℕ}
    (hl : s.pending.slots.lookup id = some slot) (hd : slot.done = true) {o : Op}
    (hl' : (s.perform o).pending.slots.lookup id = some slot') :
    slot'.done = true ∧ slot'.result = slot.result := by
  have hmoved := moved s o id
  rw [hl, hl'] at hmoved
  cases hmoved with
  | same => exact ⟨hd, rfl⟩
  | bound h => exact absurd (hd.symm.trans h) (by decide)
  | settled _ r =>
    obtain ⟨hdone, hresult⟩ := slot.done_release_settle r
    rw [if_pos hd] at hresult
    exact ⟨hdone, hresult⟩

theorem done_kept_exec {id : String} {slot : Slot ℕ} {es : List Op}
    (hl : s.pending.slots.lookup id = some slot) (hd : slot.done = true)
    (hstays : ∀ pre post u, es = pre ++ post → exec step s pre = some u →
      u.pending.slots.lookup id ≠ none) (ht : exec step s es = some t) :
    ∃ slot', t.pending.slots.lookup id = some slot' ∧ slot'.done = true ∧
      slot'.result = slot.result := by
  induction es generalizing s slot with
  | nil =>
    obtain rfl := Option.some.inj ht
    exact ⟨slot, hl, hd, rfl⟩
  | cons o es ih =>
    obtain ⟨slot', hl'⟩ := Option.ne_none_iff_exists'.1 (hstays [o] es (s.perform o) rfl rfl)
    obtain ⟨hd', hr'⟩ := done_kept hl hd hl'
    have := ih hl' hd' (fun pre post u hes hu => hstays (o :: pre) post u (by rw [hes]; rfl) hu) ht
    rwa [hr'] at this

/-- A pop takes the slot away. -/
theorem lookup_of_popped {o : Op} {id : String} (h : s.popped o = some id) :
    s.pending.slots.lookup id ≠ none ∧ (s.perform o).pending.slots.lookup id = none := by
  have hpop : ∀ {id'}, (s.pending.tryPop id').2.isSome → id' = id →
      s.pending.slots.lookup id ≠ none ∧ (s.pending.tryPop id').1.slots.lookup id = none := by
    rintro id' hsome rfl
    unfold PendingCalls.tryPop at hsome ⊢
    split at hsome
    · cases hsome
    · rename_i x hl
      split_ifs at hsome ⊢ with hd
      · simp [hl]
      · cases hsome
  cases o with
  | bindAsync id' deadline =>
    simp only [popped, Option.ite_none_right_eq_some, Option.some.injEq] at h
    obtain ⟨hsome, rfl⟩ := h
    simp only [perform, after]
    unfold PendingCalls.bindAsync at hsome ⊢
    split at hsome
    · cases hsome
    · rename_i x hl
      split_ifs at hsome with hasync hco hd
      · cases hsome
      · cases hsome
      · simp [hl, hasync, hco, hd]
      · cases hsome
  | waitAndPop id' =>
    simp only [popped, Option.ite_none_right_eq_some, Option.some.injEq] at h
    simp only [perform, after, PendingCalls.waitAndPop_eq_tryPop] at h ⊢
    exact hpop h.1 h.2
  | tryPop id' =>
    simp only [popped, Option.ite_none_right_eq_some, Option.some.injEq] at h
    exact hpop h.1 h.2
  | _ => simp [popped] at h

/-- Between two pops of an id there is an `Add` of it. -/
theorem popped_count {id : String} {es : List Op} (h : id ∉ observe step added s es) :
    (observe step popped s es).count id ≤ 1 := by
  refine (count_observe_le_one (A := fun u => u.pending.slots.lookup id ≠ none) ?_ ?_ ?_ h).1
  · rintro u o v hv hpop
    obtain rfl := Option.some.inj hv
    obtain ⟨hbefore, hafter⟩ := lookup_of_popped hpop
    exact ⟨hbefore, fun hne => hne hafter⟩
  · rintro u o v hv hA
    obtain rfl := Option.some.inj hv
    by_contra hnot
    obtain ⟨hnone, hadd⟩ := not_or.1 hnot
    have hmoved := moved u o id
    rw [not_not.1 hnone] at hmoved
    generalize (u.perform o).pending.slots.lookup id = x at hmoved hA
    cases hmoved with
    | same => exact hA rfl
    | erased => exact hA rfl
    | opened h => exact hadd h
  · exact fun _ _ _ => rfl

/-- **The waiters of the pending calls.**  After any operations no slot has two
waiters, and one that has a promise or a coroutine is not done; every promise was
fulfilled and every coroutine resumed once at most.  Whatever comes after that, the
result of a slot that is done stays while the slot does, and the slot is popped once
at most before its id is added again. -/
theorem waiters_safe {es : List Op} (h : exec step {} es = some s) :
    (∀ id slot, s.pending.slots.lookup id = some slot → slot.Exclusive) ∧
    (∀ a, (s.fired.filter (·.owner = a)).length ≤ 1) ∧
    (∀ fs t id slot, exec step s fs = some t → s.pending.slots.lookup id = some slot →
      slot.done = true →
      (∀ pre post u, fs = pre ++ post → exec step s pre = some u →
        u.pending.slots.lookup id ≠ none) →
      ∃ slot', t.pending.slots.lookup id = some slot' ∧ slot'.done = true ∧
        slot'.result = slot.result) ∧
    ∀ fs id, id ∉ observe step added s fs → (observe step popped s fs).count id ≤ 1 := by
  have hsound : s.Sound := exec_invariant Sound.init
    (fun u o v hu hv => Option.some.inj hv ▸ hu.perform o) h
  exact ⟨hsound.slots, hsound.once, fun _ _ _ _ ht hl hd hstays => done_kept_exec hl hd hstays ht,
    fun _ _ => popped_count⟩

/-- A coroutine and a promise wait; the clock fails the one and `Complete` fulfils the
other. -/
theorem waiters_safe_both :
    ∃ s, exec step {} [.add "1", .add "2", .bindCoroutine "1" 3, .bindAsync "2" 9,
      .failTimedOut 5 {}, .complete "2" {}, .failAll {}] = some s ∧
      s.fired = [.resume 2, .setValue 3 {}] ∧
      observe step popped s [.tryPop "1", .waitAndPop "1"] = ["1"] ∧
      ∀ a, (s.fired.filter (·.owner = a)).length ≤ 1 := by
  have h : exec step {} [.add "1", .add "2", .bindCoroutine "1" 3, .bindAsync "2" 9,
    .failTimedOut 5 {}, .complete "2" {}, .failAll {}] = some _ := rfl
  exact ⟨_, h, by decide, by decide, (waiters_safe h).2.1⟩

end Waiters
end Client
end MiniRpc
