/-
# The least loaded candidate, read while it changes

`LeastInflightBalancer::Select` of `src/client/load_balancer.cpp` calls
`GetInflightCount` for every candidate to find the least count, again to collect
the candidates that have it, and a third time if none has it any more.  Other
threads send and finish requests meanwhile, so each call may return anything.

Whatever the calls return there is a candidate to go around among
(`ties_ne_nil`).  If the counts stay as they are, the balancer selects as
`LoadBalanceStrategy.select` says, which reads them once (`select_steady`), and
goes around evenly among the candidates with the least count.
-/

import MiniRpc.Client.LoadBalancer
import MiniRpc.Library.Rotation

namespace MiniRpc
namespace Client

/-- `std::numeric_limits<std::size_t>::max()`. -/
def maxCount : ℕ := 2 ^ 64 - 1

/-- `LeastInflightBalancer`. -/
structure LeastInflightBalancer where
  tieBreaker : ℕ := 0

namespace LeastInflightBalancer

/-- The first scan: `min_inflight`. -/
def findMin (least : ℕ) : List ℕ → ℕ
  | [] => least
  | inflight :: rest => findMin (if inflight < least then inflight else least) rest

/-- The second scan: the candidates, from `i` on, that have the least count. -/
def collectTies (least : ℕ) (i : ℕ) : List ℕ → List ℕ
  | [] => []
  | inflight :: rest =>
    if inflight = least then i :: collectTies least (i + 1) rest
    else collectTies least (i + 1) rest

/-- The third scan: both at once. -/
def rescan (least : ℕ) (ties : List ℕ) (i : ℕ) : List ℕ → List ℕ
  | [] => ties
  | inflight :: rest =>
    if inflight < least then rescan inflight [i] (i + 1) rest
    else if inflight = least then rescan least (ties ++ [i]) (i + 1) rest
    else rescan least ties (i + 1) rest

/-- What one scan over `n` candidates reads, if `before` calls of `GetInflightCount` came
before it. -/
def scanned (reads : ℕ → ℕ) (before n : ℕ) : List ℕ :=
  (List.range n).map fun i => reads (before + i)

/-- `tie_indices` after the scans; `reads` is what the calls of `GetInflightCount` return, in
their order. -/
def ties (n : ℕ) (reads : ℕ → ℕ) : List ℕ :=
  let least := findMin maxCount (scanned reads 0 n)
  let ties := collectTies least 0 (scanned reads n n)
  if ties = [] then
    let ties := rescan maxCount [] 0 (scanned reads (2 * n) n)
    if ties = [] ∧ n ≠ 0 then [0] else ties
  else ties

/-- `Select`. -/
def select (b : LeastInflightBalancer) (n : ℕ) (reads : ℕ → ℕ) : ℕ × LeastInflightBalancer :=
  let ties := ties n reads
  (ties.getD (b.tieBreaker % ties.length) 0, ⟨(b.tieBreaker + 1) % 2 ^ 64⟩)

/-- What is read of counts that do not change. -/
def steady (counts : List ℕ) (k : ℕ) : ℕ := counts.getD (k % counts.length) 0

/-- What `m` calls one after the other select if the counts do not change. -/
def selects (b : LeastInflightBalancer) (counts : List ℕ) : ℕ → List ℕ
  | 0 => []
  | m + 1 =>
    let (selected, b) := b.select counts.length (steady counts)
    selected :: selects b counts m

variable {n : ℕ} {reads : ℕ → ℕ} {counts : List ℕ} {b : LeastInflightBalancer}

/-! ### Something to go around among -/

theorem mem_collectTies {least i j : ℕ} {l : List ℕ} :
    j ∈ collectTies least i l ↔ i ≤ j ∧ l[j - i]? = some least := by
  induction l generalizing i with
  | nil => simp [collectTies]
  | cons inflight rest ih =>
    have hshift : i + 1 ≤ j ∧ rest[j - (i + 1)]? = some least ↔
        i < j ∧ (inflight :: rest)[j - i]? = some least := by
      refine and_congr_right fun hlt => ?_
      rw [show j - i = (j - (i + 1)) + 1 by omega, List.getElem?_cons_succ]
    rw [collectTies]
    split_ifs with heq
    · rw [List.mem_cons, ih, hshift]
      constructor
      · rintro (rfl | ⟨hlt, hget⟩)
        · simp [heq]
        · exact ⟨hlt.le, hget⟩
      · rintro ⟨hle, hget⟩
        rcases Nat.eq_or_lt_of_le hle with rfl | hlt
        · exact Or.inl rfl
        · exact Or.inr ⟨hlt, hget⟩
    · rw [ih, hshift]
      refine ⟨fun h => ⟨h.1.le, h.2⟩, fun h => ⟨?_, h.2⟩⟩
      rcases Nat.eq_or_lt_of_le h.1 with rfl | hlt
      · simp [heq] at h
      · exact hlt

/-- The third scan finds only candidates. -/
theorem lt_of_mem_rescan {least i j : ℕ} {ties l : List ℕ} (hties : ∀ j ∈ ties, j < i)
    (h : j ∈ rescan least ties i l) : j < i + l.length := by
  induction l generalizing least ties i with
  | nil => exact hties j h
  | cons inflight rest ih =>
    have hnext : ∀ ties', (∀ j ∈ ties', j < i + 1) → ∀ least',
        j ∈ rescan least' ties' (i + 1) rest → j < i + (inflight :: rest).length := by
      intro ties' hties' least' hj
      have := ih hties' hj
      rw [List.length_cons]
      omega
    rw [rescan] at h
    split_ifs at h
    · exact hnext [i] (by simp) _ h
    · refine hnext (ties ++ [i]) (fun j hj => ?_) _ h
      rcases List.mem_append.1 hj with hj | hj
      · exact (hties j hj).trans (Nat.lt_succ_self i)
      · rw [List.mem_singleton.1 hj]
        exact Nat.lt_succ_self i
    · exact hnext ties (fun j hj => (hties j hj).trans (Nat.lt_succ_self i)) _ h

@[simp] theorem length_scanned (reads : ℕ → ℕ) (before n : ℕ) :
    (scanned reads before n).length = n := by
  simp [scanned]

theorem ties_ne_nil (hn : 0 < n) (reads : ℕ → ℕ) : ties n reads ≠ [] := by
  unfold ties
  dsimp only
  split_ifs with h h'
  · exact List.cons_ne_nil _ _
  · intro hnil
    exact h' ⟨hnil, hn.ne'⟩
  · exact h

theorem lt_of_mem_ties {j : ℕ} (h : j ∈ ties n reads) : j < n := by
  unfold ties at h
  dsimp only at h
  split_ifs at h with hnil hlast
  · rw [List.mem_singleton.1 h]
    exact Nat.pos_of_ne_zero hlast.2
  · have := lt_of_mem_rescan (fun j hj => (List.not_mem_nil hj).elim) h
    rw [length_scanned] at this
    omega
  · obtain ⟨-, hget⟩ := mem_collectTies.1 h
    have := (List.getElem?_eq_some_iff.1 hget).1
    rw [length_scanned] at this
    omega

/-- The index that `Select` returns. -/
theorem select_mem_ties (hn : 0 < n) (b : LeastInflightBalancer) (reads : ℕ → ℕ) :
    (b.select n reads).1 ∈ ties n reads := by
  have hpos := List.length_pos_iff.2 (ties_ne_nil hn reads)
  unfold select
  dsimp only
  rw [List.getD_eq_getElem _ _ (Nat.mod_lt _ hpos)]
  exact List.getElem_mem _

/-! ### Counts that do not change -/

theorem findMin_eq_foldl (least : ℕ) (l : List ℕ) : findMin least l = l.foldl min least := by
  induction l generalizing least with
  | nil => rfl
  | cons inflight rest ih =>
    rw [findMin, ih, List.foldl_cons]
    congr 1
    split_ifs <;> omega

theorem findMin_eq_minInflight (hne : counts ≠ []) (hsize : ∀ c ∈ counts, c < 2 ^ 64) :
    findMin maxCount counts = minInflight counts := by
  cases counts with
  | nil => exact absurd rfl hne
  | cons c rest =>
    have hc : min maxCount c = c := by
      have := hsize c List.mem_cons_self
      unfold maxCount
      omega
    rw [findMin_eq_foldl, List.foldl_cons, hc, minInflight, List.min?_cons']
    rfl

theorem collectTies_eq_map (least i : ℕ) (l : List ℕ) :
    collectTies least i l =
      ((List.range l.length).filter fun j => l[j]? = some least).map (i + ·) := by
  induction l generalizing i with
  | nil => rfl
  | cons inflight rest ih =>
    rw [collectTies, List.length_cons, List.range_succ_eq_map, List.filter_cons, List.filter_map,
      ih]
    have hrest : ((List.range rest.length).filter fun j => rest[j]? = some least).map (i + 1 + ·) =
        (((List.range rest.length).filter
          ((fun j => decide ((inflight :: rest)[j]? = some least)) ∘ Nat.succ)).map Nat.succ).map
            (i + ·) := by
      rw [List.map_map]
      refine List.map_congr_left fun j _ => ?_
      rw [Function.comp_apply]
      omega
    rw [hrest]
    by_cases heq : inflight = least <;> simp [heq]

theorem scanned_steady (counts : List ℕ) (laps : ℕ) :
    scanned (steady counts) (laps * counts.length) counts.length = counts := by
  refine List.ext_getElem (length_scanned _ _ _) fun i hi hi' => ?_
  have hmod : (laps * counts.length + i) % counts.length = i := by
    rw [Nat.mul_comm, Nat.mul_add_mod_self_left, Nat.mod_eq_of_lt hi']
  simp only [scanned, List.getElem_map, List.getElem_range, steady, hmod]
  exact List.getD_eq_getElem _ _ hi'

/-- The scans agree if the counts stay as they are. -/
theorem ties_steady (hne : counts ≠ []) (hsize : ∀ c ∈ counts, c < 2 ^ 64) :
    ties counts.length (steady counts) = tieIndices counts := by
  have hfirst := scanned_steady counts 0
  have hsecond := scanned_steady counts 1
  rw [Nat.zero_mul] at hfirst
  rw [Nat.one_mul] at hsecond
  have hcollect : collectTies (minInflight counts) 0 counts = tieIndices counts := by
    rw [collectTies_eq_map]
    simp [tieIndices]
  unfold ties
  dsimp only
  rw [hfirst, hsecond, findMin_eq_minInflight hne hsize, hcollect,
    if_neg (tieIndices_ne_nil hne)]

/-- **One `Select` of counts that do not change** is one that reads them once. -/
theorem select_steady (hne : counts ≠ []) (hsize : ∀ c ∈ counts, c < 2 ^ 64)
    (b : LeastInflightBalancer) :
    b.select counts.length (steady counts) =
      (LoadBalanceStrategy.select .kLeastInflight b.tieBreaker counts,
        ⟨(b.tieBreaker + 1) % 2 ^ 64⟩) := by
  unfold select
  rw [ties_steady hne hsize]
  rfl

theorem nodup_tieIndices (counts : List ℕ) : (tieIndices counts).Nodup :=
  List.nodup_range.filter _

/-- The calls go around among the candidates with the least count. -/
theorem selects_eq_map (hne : counts ≠ []) (hsize : ∀ c ∈ counts, c < 2 ^ 64) {m : ℕ}
    (hwrap : b.tieBreaker + m ≤ 2 ^ 64) :
    b.selects counts m =
      (rotation b.tieBreaker m (tieIndices counts).length).map fun i =>
        (tieIndices counts).getD i 0 := by
  induction m generalizing b with
  | zero => rfl
  | succ m ih =>
    have hselects : b.selects counts (m + 1) =
        LoadBalanceStrategy.select .kLeastInflight b.tieBreaker counts ::
          selects ⟨(b.tieBreaker + 1) % 2 ^ 64⟩ counts m := by
      rw [selects, select_steady hne hsize]
    rw [hselects, rotation_succ, List.map_cons]
    cases m with
    | zero => rfl
    | succ m =>
      have hnext : (b.tieBreaker + 1) % 2 ^ 64 = b.tieBreaker + 1 := Nat.mod_eq_of_lt (by omega)
      rw [hnext, ih (b := ⟨b.tieBreaker + 1⟩) (by dsimp only; omega)]
      rfl

/-- **The least loaded candidate in turn.**  Whatever the calls of `GetInflightCount` return,
there is a candidate to select and `Select` returns the index of one.  If the counts do not
change while it runs, it is one with the least count; and of consecutive calls with the same
counts, without a wrap of the counter, every such candidate gets its share. -/
theorem selects_fairly :
    (∀ n, 0 < n → ∀ (reads : ℕ → ℕ) (b : LeastInflightBalancer),
      0 < (ties n reads).length ∧ (b.select n reads).1 < n) ∧
    ∀ counts : List ℕ, counts ≠ [] → (∀ c ∈ counts, c < 2 ^ 64) → ∀ b : LeastInflightBalancer,
      (∃ count, counts[(b.select counts.length (steady counts)).1]? = some count ∧
        ∀ c ∈ counts, count ≤ c) ∧
      ∀ m, b.tieBreaker + m ≤ 2 ^ 64 → ∀ i ∈ tieIndices counts,
        IsShare m (tieIndices counts).length ((b.selects counts m).count i) := by
  constructor
  · intro n hn reads b
    exact ⟨List.length_pos_iff.2 (ties_ne_nil hn reads),
      lt_of_mem_ties (select_mem_ties hn b reads)⟩
  · intro counts hne hsize b
    constructor
    · rw [select_steady hne hsize]
      exact select_leastInflight b.tieBreaker hne
    · intro m hwrap i hi
      rw [selects_eq_map hne hsize hwrap]
      exact isShare_map_rotation b.tieBreaker m (nodup_tieIndices counts) 0 hi

/-- Three candidates, two of which are idle. -/
theorem selects_fairly_idle :
    (((⟨5⟩ : LeastInflightBalancer).select 3 fun k => k).1 < 3) ∧
      IsShare 5 2 (((⟨5⟩ : LeastInflightBalancer).selects [0, 4, 0] 5).count 2) :=
  ⟨(selects_fairly.1 3 (by decide) (fun k => k) ⟨5⟩).2,
    (selects_fairly.2 [0, 4, 0] (by decide) (by decide) ⟨5⟩).2 5 (by decide) 2 (by decide)⟩

end LeastInflightBalancer
end Client
end MiniRpc
