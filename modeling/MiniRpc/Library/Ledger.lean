/-
# Entries that are made later

Things are listed on pages, and whoever lists one enters it in the book of its page in
another step.  In between it is in one hand.  So the book is never ahead of the list
(`Ledger.length_le`), and where no hand holds anything it has caught up
(`Ledger.length_eq`).
-/

import Mathlib.Data.List.Perm.Subperm
import Mathlib.Logic.Function.Basic

namespace MiniRpc

variable {ι κ α : Type*}

/-- What was listed on each page, what each hand has listed and not yet entered, and what
was entered. -/
structure Ledger (listed : ι → List α) (hand : κ → Option (α × ι)) (entered : ι → List α) :
    Prop where
  nodup : ∀ i, (entered i).Nodup
  subset : ∀ i, entered i ⊆ listed i
  held : ∀ k a i, hand k = some (a, i) → a ∈ listed i ∧ a ∉ entered i
  unique : ∀ k l a i, hand k = some (a, i) → hand l = some (a, i) → k = l
  all : ∀ i, ∀ a ∈ listed i, a ∈ entered i ∨ ∃ k, hand k = some (a, i)

namespace Ledger

variable {listed entered : ι → List α} {hand : κ → Option (α × ι)} {a : α} {i : ι} {k : κ}

theorem empty : Ledger (fun _ : ι => ([] : List α)) (fun _ : κ => none) fun _ => [] :=
  ⟨fun _ => List.nodup_nil, fun _ => List.Subset.refl _, nofun, nofun, nofun⟩

/-- The book is never ahead. -/
theorem length_le (h : Ledger listed hand entered) (i : ι) :
    (entered i).length ≤ (listed i).length :=
  ((h.nodup i).subperm (h.subset i)).length_le

/-- Where no hand holds a thing of the page, the book has caught up. -/
theorem length_eq (h : Ledger listed hand entered) (hlisted : (listed i).Nodup)
    (hnone : ∀ k a, hand k ≠ some (a, i)) : (entered i).length = (listed i).length := by
  refine Nat.le_antisymm (h.length_le i) (hlisted.subperm fun a ha => ?_).length_le
  refine (h.all i a ha).resolve_right ?_
  rintro ⟨k, hk⟩
  exact hnone k a hk

/-- Somebody with an empty hand lists a thing that is new on its page. -/
theorem list [DecidableEq ι] [DecidableEq κ] (h : Ledger listed hand entered)
    (hk : hand k = none) (ha : a ∉ listed i) :
    Ledger (Function.update listed i (listed i ++ [a])) (Function.update hand k (some (a, i)))
      entered := by
  have hmem : ∀ j b, b ∈ Function.update listed i (listed i ++ [a]) j ↔
      b ∈ listed j ∨ j = i ∧ b = a := by
    intro j b
    rw [Function.update_apply]
    split_ifs with hj
    · simp [hj]
    · simp [hj]
  have hhand : ∀ l b j, Function.update hand k (some (a, i)) l = some (b, j) ↔
      hand l = some (b, j) ∨ l = k ∧ b = a ∧ j = i := by
    intro l b j
    rw [Function.update_apply]
    split_ifs with hl
    · rw [hl, hk]
      simp [eq_comm]
    · simp [hl]
  refine ⟨h.nodup, fun j b hb => ?_, fun l b j hl => ?_, fun l m b j hl hm => ?_, fun j b hb => ?_⟩
  · exact (hmem j b).2 (Or.inl (h.subset j hb))
  · rcases (hhand l b j).1 hl with hl | ⟨-, rfl, rfl⟩
    · obtain ⟨hb, hb'⟩ := h.held l b j hl
      exact ⟨(hmem j b).2 (Or.inl hb), hb'⟩
    · exact ⟨(hmem j b).2 (Or.inr ⟨rfl, rfl⟩), fun hb => ha (h.subset j hb)⟩
  · rcases (hhand l b j).1 hl with hl | ⟨hlk, rfl, rfl⟩ <;>
      rcases (hhand m b j).1 hm with hm | ⟨hmk, hb, hj⟩
    · exact h.unique l m b j hl hm
    · rw [hb, hj] at hl
      exact absurd (h.held l a i hl).1 ha
    · exact absurd (h.held m b j hm).1 ha
    · rw [hlk, hmk]
  · rcases (hmem j b).1 hb with hb | ⟨rfl, rfl⟩
    · refine (h.all j b hb).imp_right ?_
      rintro ⟨l, hl⟩
      exact ⟨l, (hhand l b j).2 (Or.inl hl)⟩
    · exact Or.inr ⟨k, (hhand k b j).2 (Or.inr ⟨rfl, rfl, rfl⟩)⟩

/-- Somebody enters what it holds. -/
theorem enter [DecidableEq ι] [DecidableEq κ] (h : Ledger listed hand entered)
    (hk : hand k = some (a, i)) :
    Ledger listed (Function.update hand k none)
      (Function.update entered i (entered i ++ [a])) := by
  obtain ⟨hlisted, hnew⟩ := h.held k a i hk
  have hmem : ∀ j b, b ∈ Function.update entered i (entered i ++ [a]) j ↔
      b ∈ entered j ∨ j = i ∧ b = a := by
    intro j b
    rw [Function.update_apply]
    split_ifs with hj
    · simp [hj]
    · simp [hj]
  have hhand : ∀ l b j, Function.update hand k none l = some (b, j) ↔
      l ≠ k ∧ hand l = some (b, j) := by
    intro l b j
    rw [Function.update_apply]
    split_ifs with hl
    · simp [hl]
    · simp [hl]
  refine ⟨fun j => ?_, fun j b hb => ?_, fun l b j hl => ?_, fun l m b j hl hm => ?_,
    fun j b hb => ?_⟩
  · rw [Function.update_apply]
    split_ifs
    · exact List.nodup_append.2 ⟨h.nodup i, by simp, fun b hb c hc => by
        rw [List.mem_singleton.1 hc]
        rintro rfl
        exact hnew hb⟩
    · exact h.nodup j
  · rcases (hmem j b).1 hb with hb | ⟨rfl, rfl⟩
    · exact h.subset j hb
    · exact hlisted
  · obtain ⟨hne, hl⟩ := (hhand l b j).1 hl
    obtain ⟨hb, hb'⟩ := h.held l b j hl
    refine ⟨hb, fun hmem' => ?_⟩
    rcases (hmem j b).1 hmem' with hmem' | ⟨rfl, rfl⟩
    · exact hb' hmem'
    · exact hne (h.unique l k b j hl hk)
  · exact h.unique l m b j ((hhand l b j).1 hl).2 ((hhand m b j).1 hm).2
  · rcases h.all j b hb with hb | ⟨l, hl⟩
    · exact Or.inl ((hmem j b).2 (Or.inl hb))
    · by_cases hlk : l = k
      · rw [hlk, hk] at hl
        obtain ⟨rfl, rfl⟩ := Prod.mk.inj (Option.some.inj hl)
        exact Or.inl ((hmem i a).2 (Or.inr ⟨rfl, rfl⟩))
      · exact Or.inr ⟨l, (hhand l b j).2 ⟨hlk, hl⟩⟩

end Ledger
end MiniRpc
