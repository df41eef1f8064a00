/-
# Walks

`Walk R a n b` says that `n` steps of the relation `R` lead from `a` to `b`, and
`Within R n a b` that at most `n` do.  A property of `a` that
every step keeps holds of whatever a walk from `a` comes to (`Walk.of_closed`); a
search that goes a level at a time has all within so many steps (`Walk.of_level`), and
comes to each by as few steps as there are (`Walk.shortest`).

`IsTree` says that edges listed in some order form a tree: each leaves the root or
the end of an earlier one, and none ends where another does.
-/

import Mathlib.Data.Set.Card

namespace MiniRpc

variable {α : Type*} {R S : α → α → Prop} {a b c : α} {m n : ℕ}

/-- `n` steps lead from `a` to `b`. -/
inductive Walk (R : α → α → Prop) (a : α) : ℕ → α → Prop
  | refl : Walk R a 0 a
  | step {n : ℕ} {b c : α} (walk : Walk R a n b) (last : R b c) : Walk R a (n + 1) c

/-- At most `n` steps lead from `a` to `b`. -/
def Within (R : α → α → Prop) (n : ℕ) (a b : α) : Prop := ∃ m ≤ n, Walk R a m b

namespace Walk

theorem mono (hRS : ∀ a b, R a b → S a b) (h : Walk R a n b) : Walk S a n b := by
  induction h with
  | refl => exact .refl
  | step _ hlast ih => exact ih.step (hRS _ _ hlast)

theorem within (h : Walk R a m b) (hle : m ≤ n) : Within R n a b := ⟨m, hle, h⟩

/-- **The invariant rule for walks.** -/
theorem of_closed {P : α → Prop} (ha : P a) (hclosed : ∀ u, P u → ∀ v, R u v → P v)
    (h : Walk R a n b) : P b := by
  induction h with
  | refl => exact ha
  | step _ hlast ih => exact hclosed _ ih _ hlast

/-- **One level more.**  If all within `n` steps meet `P`, and all that one step leads to from
there meets `Q`, then all within `n + 1` steps meet `Q`. -/
theorem of_level {P Q : α → Prop} (hP : ∀ m ≤ n, ∀ b, Walk R a m b → P b)
    (hPQ : ∀ b, P b → Q b) (hnext : ∀ u, P u → ∀ v, R u v → Q v) :
    ∀ m ≤ n + 1, ∀ b, Walk R a m b → Q b := by
  intro m hm b h
  cases h with
  | refl => exact hPQ a (hP 0 (Nat.zero_le n) a .refl)
  | step hwalk hlast => exact hnext _ (hP _ (Nat.le_of_succ_le_succ hm) _ hwalk) _ hlast

end Walk

theorem Within.mono (hRS : ∀ a b, R a b → S a b) (h : Within R n a b) : Within S n a b := by
  obtain ⟨m, hm, hwalk⟩ := h
  exact ⟨m, hm, hwalk.mono hRS⟩

theorem Within.of_le (h : Within R m a b) (hle : m ≤ n) : Within R n a b := by
  obtain ⟨l, hl, hwalk⟩ := h
  exact ⟨l, hl.trans hle, hwalk⟩

/-- `n` steps lead from `a` to `b`, and no fewer do. -/
def Shortest (R : α → α → Prop) (a : α) (n : ℕ) (b : α) : Prop :=
  Walk R a n b ∧ ∀ m, Walk R a m b → n ≤ m

/-- **The first level that comes to it.**  If all within `n` steps meet `P`, what a walk of
`n + 1` steps comes to and does not meet `P` is no nearer. -/
theorem Walk.shortest {P : α → Prop} (h : Walk R a (n + 1) b)
    (hP : ∀ m ≤ n, ∀ c, Walk R a m c → P c) (hb : ¬ P b) : Shortest R a (n + 1) b := by
  refine ⟨h, fun m hm => ?_⟩
  by_contra hlt
  exact hb (hP m (by omega) b hm)

/-- As many members of a set as it has at most are all of it. -/
theorem mem_of_length_eq [DecidableEq α] {V : Set α} {l : List α} (hV : V.encard ≤ n)
    (hnodup : l.Nodup) (hl : ∀ b ∈ l, b ∈ V) (hlen : n ≤ l.length) (hb : b ∈ V) : b ∈ l := by
  have hsub : (l.toFinset : Set α) ⊆ V := fun v hv => hl v (by simpa using hv)
  have hcard : V.encard ≤ (l.toFinset : Set α).encard := by
    rw [Set.encard_coe_eq_coe_finsetCard, List.toFinset_card_of_nodup hnodup]
    exact hV.trans (by exact_mod_cast hlen)
  have heq := (l.toFinset.finite_toSet).eq_of_subset_of_encard_le hsub hcard
  rw [← heq] at hb
  simpa using hb

/-! ### Trees of edges -/

section Tree

variable {ε : Type*} {near far : ε → α} {root : α} {edges new : List ε}

/-- The steps that the edges make. -/
def stepsOf (near far : ε → α) (edges : List ε) (a b : α) : Prop :=
  ∃ e ∈ edges, near e = a ∧ far e = b

theorem stepsOf_mono (h : ∀ e ∈ edges, e ∈ new) (a b : α) :
    stepsOf near far edges a b → stepsOf near far new a b :=
  fun ⟨e, he, hab⟩ => ⟨e, h e he, hab⟩

/-- The edges form a tree with this root, and come in an order in which it grows. -/
structure IsTree (near far : ε → α) (root : α) (edges : List ε) : Prop where
  distinct : (root :: edges.map far).Nodup
  rooted : ∀ pre e post, edges = pre ++ e :: post → near e = root ∨ near e ∈ pre.map far

theorem IsTree.nil : IsTree near far root [] where
  distinct := by simp
  rooted := by
    intro pre e post h
    simp at h

/-- More edges that leave the tree. -/
theorem IsTree.append (h : IsTree near far root edges)
    (hdistinct : (root :: (edges ++ new).map far).Nodup)
    (hnear : ∀ e ∈ new, near e = root ∨ near e ∈ edges.map far) :
    IsTree near far root (edges ++ new) where
  distinct := hdistinct
  rooted := by
    intro pre e post heq
    rcases List.append_eq_append_iff.1 heq with ⟨as, rfl, hnew⟩ | ⟨bs, hedges, hrest⟩
    · have he : e ∈ new := by
        rw [hnew]
        simp
      refine (hnear e he).imp_right fun hmem => ?_
      rw [List.map_append]
      exact List.mem_append_left _ hmem
    · cases bs with
      | nil =>
        rw [List.append_nil] at hedges
        rw [List.nil_append] at hrest
        rw [← hedges]
        refine hnear e ?_
        rw [← hrest]
        exact List.mem_cons_self
      | cons b bs =>
        obtain ⟨rfl, -⟩ := List.cons.inj hrest
        exact h.rooted pre e bs hedges

/-- **The depth in a tree is one number.** -/
theorem IsTree.depth_unique (h : IsTree near far root edges)
    (hm : Walk (stepsOf near far edges) root m b) (hn : Walk (stepsOf near far edges) root n b) :
    m = n := by
  obtain ⟨hroot, hdistinct⟩ := List.nodup_cons.1 h.distinct
  have hends : ∀ {a}, ¬ stepsOf near far edges a root := by
    rintro a ⟨e, he, -, hfar⟩
    exact hroot (List.mem_map.2 ⟨e, he, hfar⟩)
  induction hm generalizing n with
  | refl =>
    cases hn with
    | refl => rfl
    | step _ hlast => exact absurd hlast hends
  | step _ hlast ih =>
    cases hn with
    | refl => exact absurd hlast hends
    | step hwalk hlast' =>
      obtain ⟨e, he, rfl, hfar⟩ := hlast
      obtain ⟨e', he', rfl, hfar'⟩ := hlast'
      obtain rfl := List.inj_on_of_nodup_map hdistinct he he' (hfar.trans hfar'.symm)
      rw [ih hwalk]

end Tree

end MiniRpc
