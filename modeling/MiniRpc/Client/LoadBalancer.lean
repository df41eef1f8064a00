/-
# The load balancers

`src/client/load_balancer.cpp`: a balancer is given the candidates and says
which one to use.  `RoundRobinBalancer` goes around by a counter;
`LeastInflightBalancer` goes around among the candidates with the fewest
requests in flight, `GetInflightCount`.  Both count with one 64-bit atomic.

The balancer reads the counts of the candidates twice and starts over if they
changed in between; here it reads them once.
-/

import Mathlib.Data.List.GetD
import Mathlib.Algebra.Group.Nat.Defs

namespace MiniRpc
namespace Client

/-- `LoadBalanceStrategy`. -/
inductive LoadBalanceStrategy where
  | kRoundRobin
  | kLeastInflight
  deriving DecidableEq, Repr

/-- `min_inflight`, the least of the counts. -/
def minInflight (counts : List ℕ) : ℕ := counts.min?.getD (2 ^ 64 - 1)

/-- `tie_indices`. -/
def tieIndices (counts : List ℕ) : List ℕ :=
  (List.range counts.length).filter fun i => counts[i]? = some (minInflight counts)

/-- `Select`, for the value of the counter and the counts of the candidates. -/
def LoadBalanceStrategy.select (strategy : LoadBalanceStrategy) (next : ℕ) (counts : List ℕ) : ℕ :=
  match strategy with
  | .kRoundRobin => next % counts.length
  | .kLeastInflight => (tieIndices counts).getD (next % (tieIndices counts).length) 0

theorem minInflight_spec {counts : List ℕ} (h : counts ≠ []) :
    minInflight counts ∈ counts ∧ ∀ count ∈ counts, minInflight counts ≤ count := by
  cases hmin : counts.min? with
  | none => exact absurd (List.min?_eq_none_iff.1 hmin) h
  | some least =>
    rw [minInflight, hmin]
    exact List.min?_eq_some_iff.1 hmin

/-- Some candidate has the least count. -/
theorem tieIndices_ne_nil {counts : List ℕ} (h : counts ≠ []) : tieIndices counts ≠ [] := by
  obtain ⟨i, hi⟩ := List.mem_iff_getElem?.1 (minInflight_spec h).1
  have hlt : i < counts.length := (List.getElem?_eq_some_iff.1 hi).1
  exact List.ne_nil_of_mem (List.mem_filter.2 ⟨List.mem_range.2 hlt, by simpa using hi⟩)

/-- **The least loaded candidate.**  `LeastInflightBalancer` selects a candidate,
and one whose count is not above any other. -/
theorem select_leastInflight (next : ℕ) {counts : List ℕ} (h : counts ≠ []) :
    ∃ count, counts[LoadBalanceStrategy.select .kLeastInflight next counts]? = some count ∧
      ∀ c ∈ counts, count ≤ c := by
  have hpos := List.length_pos_iff.2 (tieIndices_ne_nil h)
  have hlt := Nat.mod_lt next hpos
  have hmem : LoadBalanceStrategy.select .kLeastInflight next counts ∈ tieIndices counts := by
    show (tieIndices counts).getD _ 0 ∈ tieIndices counts
    rw [List.getD_eq_getElem _ _ hlt]
    exact List.getElem_mem hlt
  obtain ⟨-, hget⟩ := List.mem_filter.1 hmem
  exact ⟨minInflight counts, by simpa using hget, (minInflight_spec h).2⟩

/-- Every balancer selects one of the candidates. -/
theorem select_lt (strategy : LoadBalanceStrategy) (next : ℕ) {counts : List ℕ} (h : counts ≠ []) :
    strategy.select next counts < counts.length := by
  cases strategy with
  | kRoundRobin => exact Nat.mod_lt next (List.length_pos_iff.2 h)
  | kLeastInflight =>
    obtain ⟨count, hget, -⟩ := select_leastInflight next h
    exact (List.getElem?_eq_some_iff.1 hget).1

end Client
end MiniRpc
