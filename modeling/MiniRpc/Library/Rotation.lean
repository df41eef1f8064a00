/-
# Going around by a counter

A counter that goes up by one for each choice, taken modulo the number of things
to choose from, chooses them in turn.  Of any consecutive choices each thing gets
its share: their number divided by the number of things, rounded down or up.
-/

import Mathlib.Data.Int.CardIntervalMod
import Mathlib.Data.List.GetD

namespace MiniRpc

/-- `count` of `n` choices are the share of one of `k`: `n / k`, rounded down or up. -/
def IsShare (n k count : ℕ) : Prop := count = n / k ∨ count = (n + k - 1) / k

instance (n k count : ℕ) : Decidable (IsShare n k count) := inferInstanceAs (Decidable (_ ∨ _))

/-- The choices of a counter that begins at `start`. -/
def rotation (start n k : ℕ) : List ℕ := (List.range n).map fun j => (start + j) % k

theorem rotation_succ (start n k : ℕ) :
    rotation start (n + 1) k = (start % k) :: rotation (start + 1) n k := by
  simp only [rotation, List.range_succ_eq_map, List.map_cons, List.map_map, Nat.add_zero]
  refine congrArg _ (List.map_congr_left fun j _ => ?_)
  rw [Function.comp_apply, Nat.add_assoc, Nat.add_comm 1 j]

theorem lt_of_mem_rotation {start n k i : ℕ} (hk : 0 < k) (h : i ∈ rotation start n k) : i < k := by
  obtain ⟨j, -, rfl⟩ := List.mem_map.1 h
  exact Nat.mod_lt _ hk

/-- Only where in a lap the counter begins matters. -/
theorem rotation_mod_start (start n k : ℕ) : rotation (start % k) n k = rotation start n k :=
  List.map_congr_left fun j _ => Nat.mod_add_mod start k j

/-- How often a counter that begins at 0 is at `i`. -/
theorem count_mod (m : ℕ) {k i : ℕ} (hi : i < k) :
    Nat.count (fun j => j % k = i) m = m / k + if i < m % k then 1 else 0 := by
  have h := Nat.count_modEq_card m (by omega : 0 < k) i
  simp only [Nat.ModEq, Nat.mod_eq_of_lt hi] at h
  exact h

theorem count_rotation (start n : ℕ) {k i : ℕ} :
    (rotation start n k).count i = Nat.count (fun j => (start + j) % k = i) n := by
  rw [rotation, List.count_eq_countP, List.countP_map, Nat.count]
  exact List.countP_congr fun j _ => by simp

/-- A number below two laps: how many laps it is, and how far into the next one. -/
theorem div_mod_lap {m k : ℕ} (h : m < 2 * k) :
    m / k = (if m < k then 0 else 1) ∧ m % k = if m < k then m else m - k := by
  split_ifs with hlt
  · exact ⟨Nat.div_eq_of_lt hlt, Nat.mod_eq_of_lt hlt⟩
  · have hlast : m - k < k := by omega
    constructor
    · rw [Nat.div_eq_sub_div (by omega) (by omega), Nat.div_eq_of_lt hlast]
    · rw [Nat.mod_eq_sub_mod (by omega), Nat.mod_eq_of_lt hlast]

/-- **Everybody gets a share.** -/
theorem isShare_rotation (start n : ℕ) {k i : ℕ} (hi : i < k) :
    IsShare n k ((rotation start n k).count i) := by
  have hk : 0 < k := by omega
  have hadd := Nat.count_add (fun j => j % k = i) start n
  rw [← count_rotation, count_mod _ hi, count_mod _ hi] at hadd
  -- the counter begins `start % k` places into a lap, and the choices end `n % k` further on
  have hx := Nat.mod_lt start hk
  have hy := Nat.mod_lt n hk
  obtain ⟨hlaps, hrest⟩ := div_mod_lap (show start % k + n % k < 2 * k by omega)
  have hdiv : (start + n) / k = start / k + n / k + (start % k + n % k) / k := by
    rw [Nat.add_div hk, hlaps]
    split_ifs <;> omega
  have hceil : (n + k - 1) / k = n / k + (n % k + k - 1) / k := by
    have hn : n + k - 1 = n % k + k - 1 + k * (n / k) := by
      have := Nat.mod_add_div n k
      omega
    rw [hn, Nat.add_mul_div_left _ _ hk, Nat.add_comm]
  obtain ⟨hup, -⟩ := div_mod_lap (show n % k + k - 1 < 2 * k by omega)
  rw [hdiv, Nat.add_mod, hlaps, hrest] at hadd
  unfold IsShare
  rw [hceil, hup]
  split_ifs at hadd ⊢ <;> omega

/-- In the choices among the members of a list each member gets its share. -/
theorem isShare_map_rotation {α : Type*} [DecidableEq α] (start n : ℕ) {l : List α}
    (hnodup : l.Nodup) (d : α) {a : α} (ha : a ∈ l) :
    IsShare n l.length (((rotation start n l.length).map fun i => l.getD i d).count a) := by
  obtain ⟨i, hi, rfl⟩ := List.getElem_of_mem ha
  have hcount : ((rotation start n l.length).map fun i => l.getD i d).count l[i] =
      (rotation start n l.length).count i := by
    rw [List.count_eq_countP, List.countP_map, List.count_eq_countP]
    refine List.countP_congr fun j hj => ?_
    have hlt := lt_of_mem_rotation (by omega) hj
    simp [List.getElem?_eq_getElem hlt, hnodup.getElem_inj_iff]
  rw [hcount]
  exact isShare_rotation start n hi

end MiniRpc
