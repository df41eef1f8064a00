/-
# Copying cells of a memory

A memory is a list of cells.  `store` writes cells from a place on, which is what
`memcpy` does with a source outside the memory.  `copyUp` copies cells within the
memory one by one, the lowest first, which is how `memmove` moves them to a lower
place: the two ranges may overlap, and then cells are overwritten that were read
already, and no others (`copyUp_eq_store`).
-/

import Mathlib.Data.List.Basic

namespace MiniRpc
namespace Memory

variable {α : Type*}

/-- Write the items from place `i` on. -/
def store (memory : List α) (i : ℕ) : List α → List α
  | [] => memory
  | item :: items => store (memory.set i item) (i + 1) items

/-- Copy `n` cells from `src` to `dst`, the lowest first. -/
def copyUp (memory : List α) (dst src : ℕ) : ℕ → List α
  | 0 => memory
  | n + 1 =>
    match memory[src]? with
    | none => memory
    | some item => copyUp (memory.set dst item) (dst + 1) (src + 1) n

/-- **What `store` leaves**: the items in their place, the cells around them as they were. -/
theorem store_eq {memory items : List α} {i : ℕ} (h : i + items.length ≤ memory.length) :
    store memory i items = memory.take i ++ items ++ memory.drop (i + items.length) := by
  induction items generalizing memory i with
  | nil => simp [store]
  | cons item items ih =>
    rw [List.length_cons] at h
    have hcell : (memory.set i item).take (i + 1) = memory.take i ++ [item] := by
      rw [List.take_succ_eq_append_getElem (by rw [List.length_set]; omega),
        List.take_set_of_le (Nat.le_refl i), List.getElem_set_self]
    rw [store, ih (by rw [List.length_set]; omega), hcell, List.drop_set_of_lt (by omega),
      List.length_cons]
    simp [Nat.add_assoc, Nat.add_comm 1]

/-- **Moving down over an overlap.**  Copying cells to a lower place one by one leaves what
copying them out and then back in leaves: each cell is read before it is overwritten. -/
theorem copyUp_eq_store {memory : List α} {dst src n : ℕ} (hle : dst ≤ src)
    (h : src + n ≤ memory.length) :
    copyUp memory dst src n = store memory dst ((memory.drop src).take n) := by
  induction n generalizing memory dst src with
  | zero => simp [copyUp, store]
  | succ n ih =>
    have hsrc : src < memory.length := by omega
    rw [copyUp, List.getElem?_eq_getElem hsrc]
    show copyUp (memory.set dst memory[src]) (dst + 1) (src + 1) n = _
    rw [ih (by omega) (by rw [List.length_set]; omega)]
    -- the cells that are still to be read lie above the one that was written
    rw [List.drop_set_of_lt (by omega), List.drop_eq_getElem_cons hsrc, List.take_succ_cons, store]

end Memory
end MiniRpc
