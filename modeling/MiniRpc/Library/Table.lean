/-
# Tables: keyed maps that are scanned as a whole

A table is Mathlib's association list with distinct keys (`AList`), read by
`lookup` and changed by `insert` and `erase`.  What a scan over all the entries
needs is added here: `mapVals` rewrites every value in place, `update` the
value of one key, and neither changes which keys are present.  A hash map goes
through its entries in an order of its own, a `Listing`; `eraseFirst` erases the
first ones of it.
-/

import Mathlib.Data.Fintype.EquivFin
import Mathlib.Data.List.AList

namespace MiniRpc

/-- A map from keys `κ` to values `α`, keys distinct. -/
abbrev Table (κ : Type*) (α : Type*) := AList fun _ : κ => α

namespace Table

variable {κ α : Type*}

/-- The number of entries. -/
def size (t : Table κ α) : ℕ := t.entries.length

theorem size_eq_length_keys (t : Table κ α) : t.size = t.keys.length := by
  simp [size, AList.keys, List.keys]

/-- Rewrite every value. -/
def mapVals (f : α → α) (t : Table κ α) : Table κ α :=
  ⟨t.entries.map fun e => ⟨e.1, f e.2⟩, by
    have h : (t.entries.map fun e => (⟨e.1, f e.2⟩ : Sigma fun _ : κ => α)).keys =
        t.entries.keys := by
      simp [List.keys]
    rw [List.NodupKeys, h]
    exact t.nodupKeys⟩

/-- The number of entries whose value meets a test. -/
def countVals (p : α → Bool) (t : Table κ α) : ℕ := t.entries.countP fun e => p e.2

@[simp] theorem countVals_empty (p : α → Bool) : countVals p (∅ : Table κ α) = 0 := rfl

/-- An order to go through a table in, where the order is not the one of its entries. -/
structure Listing (κ α : Type*) where
  order : List (Sigma fun _ : κ => α) → List (Sigma fun _ : κ => α)
  perm : ∀ entries, (order entries).Perm entries

/-- The order of the entries. -/
def Listing.asStored : Listing κ α := ⟨id, fun _ => List.Perm.refl _⟩

/-- Erase the first `n` entries of a listing. -/
def eraseFirst (t : Table κ α) (listing : Listing κ α) (n : ℕ) : Table κ α :=
  ⟨(listing.order t.entries).drop n, by
    have hkeys : ((listing.order t.entries).map Sigma.fst).Nodup :=
      ((listing.perm t.entries).map Sigma.fst).nodup_iff.2 t.nodupKeys
    exact ((List.drop_sublist n _).map Sigma.fst).nodup hkeys⟩

@[simp] theorem size_eraseFirst (t : Table κ α) (listing : Listing κ α) (n : ℕ) :
    (t.eraseFirst listing n).size = t.size - n := by
  unfold size eraseFirst
  rw [List.length_drop, (listing.perm t.entries).length_eq]

variable [DecidableEq κ]

@[simp] theorem lookup_mapVals (f : α → α) (t : Table κ α) (k : κ) :
    (t.mapVals f).lookup k = (t.lookup k).map f :=
  List.dlookup_map₂ (γ := fun _ => α) (δ := fun _ => α) (f := fun _ => f) k

/-- Rewrite the value of one key, if the key is present. -/
def update (t : Table κ α) (k : κ) (f : α → α) : Table κ α :=
  match t.lookup k with
  | some v => t.insert k (f v)
  | none => t

@[simp] theorem lookup_update_self (t : Table κ α) (k : κ) (f : α → α) :
    (t.update k f).lookup k = (t.lookup k).map f := by
  unfold update
  cases h : t.lookup k <;> simp [h]

theorem lookup_update_ne (t : Table κ α) {k k' : κ} (f : α → α) (h : k' ≠ k) :
    (t.update k f).lookup k' = t.lookup k' := by
  unfold update
  cases t.lookup k <;> simp [AList.lookup_insert_ne h]

theorem lookup_update (t : Table κ α) (k k' : κ) (f : α → α) :
    (t.update k f).lookup k' = if k' = k then (t.lookup k).map f else t.lookup k' := by
  by_cases h : k' = k
  · rw [if_pos h, h, lookup_update_self]
  · rw [if_neg h, lookup_update_ne t f h]

theorem countVals_erase (p : α → Bool) (t : Table κ α) (k : κ) :
    countVals p (t.erase k) + (t.lookup k).toList.countP p = t.countVals p := by
  unfold countVals AList.lookup AList.erase
  dsimp only
  induction t.entries with
  | nil => rfl
  | cons e es ih =>
    by_cases hk : k = e.1
    · obtain ⟨a, v⟩ := e
      obtain rfl : k = a := hk
      have herase : List.kerase k (⟨k, v⟩ :: es) = es := by simp
      rw [herase, List.dlookup_cons_eq, List.countP_cons]
      simp [List.countP_cons]
    · rw [List.kerase_cons_ne hk, List.dlookup_cons_ne _ _ hk, List.countP_cons, List.countP_cons]
      omega

theorem countVals_insert (p : α → Bool) (t : Table κ α) (k : κ) (v : α) :
    countVals p (t.insert k v) + (t.lookup k).toList.countP p =
      t.countVals p + if p v then 1 else 0 := by
  have h := countVals_erase p t k
  have hinsert : countVals p (t.insert k v) = countVals p (t.erase k) + if p v then 1 else 0 := by
    unfold countVals
    rw [AList.entries_insert, List.countP_cons]
    rfl
  omega

theorem countVals_eq_zero {p : α → Bool} {t : Table κ α} :
    t.countVals p = 0 ↔ ∀ k v, t.lookup k = some v → p v = false := by
  unfold countVals
  simp only [List.countP_eq_zero, Bool.not_eq_true]
  exact ⟨fun h k v hl => h ⟨k, v⟩ (AList.mem_lookup_iff.1 hl),
    fun h e he => h e.1 e.2 (AList.mem_lookup_iff.2 he)⟩

theorem lookup_of_erase {t : Table κ α} {k k' : κ} {v : α}
    (h : (t.erase k').lookup k = some v) : t.lookup k = some v := by
  by_cases hk : k = k'
  · rw [hk, AList.lookup_erase] at h
    cases h
  · rwa [AList.lookup_erase_ne hk] at h

theorem lookup_of_insert {t : Table κ α} {k k' : κ} {v w : α}
    (h : (t.insert k' w).lookup k = some v) : k = k' ∧ v = w ∨ t.lookup k = some v := by
  by_cases hk : k = k'
  · rw [hk, AList.lookup_insert] at h
    exact Or.inl ⟨hk, (Option.some.inj h).symm⟩
  · rw [AList.lookup_insert_ne hk] at h
    exact Or.inr h

theorem size_erase_le (t : Table κ α) (k : κ) : size (t.erase k) ≤ t.size := by
  unfold size AList.erase
  exact (List.kerase_sublist k t.entries).length_le

theorem size_insert_le (t : Table κ α) (k : κ) (v : α) : size (t.insert k v) ≤ t.size + 1 := by
  have h := size_erase_le t k
  unfold size AList.erase at h
  unfold size
  rw [AList.entries_insert, List.length_cons]
  exact Nat.succ_le_succ h

theorem lookup_of_eraseFirst {t : Table κ α} {listing : Listing κ α} {n : ℕ} {k : κ} {v : α}
    (h : (t.eraseFirst listing n).lookup k = some v) : t.lookup k = some v := by
  rw [← Option.mem_def, AList.mem_lookup_iff] at h ⊢
  exact (listing.perm t.entries).mem_iff.1 (List.mem_of_mem_drop h)

/-- Insert a default for a key that is absent (`try_emplace`), with whether the
key was absent. -/
def tryEmplace (t : Table κ α) (k : κ) (v : α) : Table κ α × Bool :=
  match t.lookup k with
  | some _ => (t, false)
  | none => (t.insert k v, true)

theorem mem_keys_iff (t : Table κ α) (k : κ) : k ∈ t.keys ↔ ∃ v, t.lookup k = some v := by
  rw [← AList.mem_keys, ← AList.lookup_isSome, Option.isSome_iff_exists]

/-- Some key is free. -/
theorem exists_lookup_eq_none [Infinite κ] (t : Table κ α) : ∃ k, t.lookup k = none := by
  obtain ⟨k, hk⟩ := Infinite.exists_notMem_finset t.keys.toFinset
  exact ⟨k, AList.lookup_eq_none.2 fun hmem => hk (List.mem_toFinset.2 hmem)⟩

/-- A scan collects something from some of the entries; what it collects from the
entry of `k` is all that a test finds which singles out this entry. -/
theorem filter_filterMap_of_owner {β : Type*} (t : Table κ α) (f : α → Option β) (q : β → Bool)
    (k : κ)
    (h : ∀ k' v w, t.lookup k' = some v → f v = some w → (q w = true ↔ k' = k)) :
    (t.entries.filterMap fun e => f e.2).filter q = ((t.lookup k).bind f).toList := by
  have h' : ∀ e ∈ t.entries, ∀ w, f e.2 = some w → (q w = true ↔ e.1 = k) :=
    fun e he w hw => h e.1 e.2 w (AList.mem_lookup_iff.2 he) hw
  have hnodup := t.nodupKeys
  unfold AList.lookup
  generalize t.entries = es at h' hnodup
  induction es with
  | nil => rfl
  | cons e es ih =>
    replace ih := ih (fun e' he' => h' e' (List.mem_cons_of_mem _ he'))
      (List.nodupKeys_cons.1 hnodup).2
    have he := h' e List.mem_cons_self
    by_cases hk : e.1 = k
    · obtain ⟨a, b⟩ := e
      have hrest : es.dlookup k = none :=
        List.dlookup_eq_none.2 (hk ▸ (List.nodupKeys_cons.1 hnodup).1)
      rw [hrest] at ih
      subst hk
      rw [List.dlookup_cons_eq, List.filterMap_cons]
      cases hf : f b with
      | none => simpa [hf] using ih
      | some w => simp [hf, (he w hf).2 rfl, ih]
    · rw [List.dlookup_cons_ne _ _ (Ne.symm hk), List.filterMap_cons, ← ih]
      cases hf : f e.2 with
      | none => rfl
      | some w =>
        have : q w = false := by
          rw [← Bool.not_eq_true, he w hf]
          exact hk
        simp [this]

end Table
end MiniRpc
