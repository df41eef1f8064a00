/-
# The retries of a pool

`RpcClientPool::Call` of `src/client/rpc_client_pool.cpp`, among all the other
operations of the pool (`MiniRpc.Client.RpcClientPool`).  After a connection error
the call excludes the channels it has tried and selects another one, as many
times as there are channels, and then reports that all of them failed.

`SelectChannel` falls back to the first channel if no healthy one is left, and
does not look whether that one is excluded.  `triesEach_iff` says when a call
tries each channel once.
-/

import MiniRpc.Client.RpcClientPool
import Mathlib.Data.List.Nodup

namespace MiniRpc
namespace Client

open Transition

namespace RpcClientPool

/-- A healthy channel is left that the call `k` has not tried, or it has not tried
the first one. -/
def untried (setup : PoolSetup) (s : RpcClientPool) (k : ℕ) : Act → Bool
  | .select k' =>
    match s.operations.lookup k' with
    | some ⟨.call, .selecting, attempted, _⟩ =>
      k' ≠ k || s.candidates setup attempted ≠ [] || 0 ∉ attempted
    | _ => true
  | _ => true

/-- The attempt of the call `k` was the last, and the call is going to return the
error `all channels failed`. -/
def exhausts (setup : PoolSetup) (s : RpcClientPool) (k : ℕ) : Act → Bool
  | .finish k' result _ =>
    match s.operations.lookup k' with
    | some ⟨.call, .waiting _, attempted, _⟩ =>
      k' = k && isConnectionError result && decide (setup.channels ≤ attempted.length)
    | _ => false
  | _ => false

/-- In the run of `es` from `s₀` the call `k` tries no channel twice, and each of
them before it reports that all have failed. -/
structure TriesEach (setup : PoolSetup) (k : ℕ) (s₀ : RpcClientPool) (es : List Act) : Prop where
  once : ∀ pre post s op, es = pre ++ post → exec (step setup) s₀ pre = some s →
    s.operations.lookup k = some op → op.kind = .call → op.attempted.Nodup
  all : ∀ pre a post s op, es = pre ++ a :: post → exec (step setup) s₀ pre = some s →
    s.exhausts setup k a = true → s.operations.lookup k = some op →
      ∀ i < setup.channels, op.attempted.count i = 1

section Attempted

variable {setup : PoolSetup} {s t : RpcClientPool} {k : ℕ} {a : Act} {op : Operation}

/-- An operation goes on with the channels it has tried. -/
theorem attempted_goto (s' : RpcClientPool) {j : ℕ} {new old : Operation}
    (hops : s'.operations = s.operations) (hj : s.operations.lookup j = some old)
    (hl : (s'.goto j new).operations.lookup k = some op) (hkind : old.kind = new.kind)
    (hsame : old.attempted = new.attempted) :
    ∃ op', s.operations.lookup k = some op' ∧ op'.kind = op.kind ∧
      op'.attempted = op.attempted := by
  unfold goto at hl
  dsimp only at hl
  rw [hops] at hl
  by_cases hk : k = j
  · rw [hk, AList.lookup_insert] at hl
    obtain rfl := Option.some.inj hl
    exact ⟨old, hk ▸ hj, hkind, hsame⟩
  · rw [AList.lookup_insert_ne hk] at hl
    exact ⟨op, hl, rfl, rfl⟩

theorem attempted_leave (s' : RpcClientPool) {j : ℕ} (hops : s'.operations = s.operations)
    (hl : (s'.leave j).operations.lookup k = some op) :
    ∃ op', s.operations.lookup k = some op' ∧ op'.kind = op.kind ∧
      op'.attempted = op.attempted := by
  unfold leave at hl
  dsimp only at hl
  rw [hops] at hl
  by_cases hk : k = j
  · rw [hk, AList.lookup_erase] at hl
    cases hl
  · rw [AList.lookup_erase_ne hk] at hl
    exact ⟨op, hl, rfl, rfl⟩

/-- **A channel is tried when it is selected**, and by nothing else. -/
theorem attempted_of_step (h : step setup s a = some t)
    (hl : t.operations.lookup k = some op) :
    (∃ op', s.operations.lookup k = some op' ∧ op'.kind = op.kind ∧
      op'.attempted = op.attempted) ∨
    op.attempted = [] ∨
    ∃ attempted failed i nextIndex, a = .select k ∧
      s.operations.lookup k = some ⟨op.kind, .selecting, attempted, failed⟩ ∧
      s.selectChannel setup attempted = some (i, nextIndex) ∧
      op.attempted = attempted ++ [i] := by
  cases a with
  | start j kind =>
    have hnew : ∀ place, (s.goto j ⟨kind, place, [], false⟩).operations.lookup k = some op →
        (∃ op', s.operations.lookup k = some op' ∧ op'.kind = op.kind ∧
          op'.attempted = op.attempted) ∨ op.attempted = [] := by
      intro place hl
      unfold goto at hl
      dsimp only at hl
      by_cases hk : k = j
      · rw [hk, AList.lookup_insert] at hl
        obtain rfl := Option.some.inj hl
        exact Or.inr rfl
      · rw [AList.lookup_insert_ne hk] at hl
        exact Or.inl ⟨op, hl, rfl, rfl⟩
    obtain ⟨-, rfl | ⟨rfl, -⟩ | rfl⟩ := start_cases h
    · exact Or.inl ⟨op, hl, rfl, rfl⟩
    · exact (hnew _ hl).imp_right Or.inl
    · exact (hnew _ hl).imp_right Or.inl
  | select j =>
    obtain ⟨kind, attempted, failed, hj, ⟨-, rfl⟩ | ⟨i, nextIndex, hselect, rfl⟩⟩ :=
      select_cases h
    · exact Or.inl (attempted_leave _ rfl hl)
    · unfold goto at hl
      dsimp only at hl
      by_cases hk : k = j
      · rw [hk, AList.lookup_insert] at hl
        obtain rfl := Option.some.inj hl
        exact Or.inr (Or.inr ⟨attempted, failed, i, nextIndex, by rw [hk], hk ▸ hj, hselect, rfl⟩)
      · rw [AList.lookup_insert_ne hk] at hl
        exact Or.inl ⟨op, hl, rfl, rfl⟩
  | finish j result left =>
    obtain ⟨kind, i, attempted, failed, r, again, inflight, hj, rfl, -⟩ := finish_cases h
    exact Or.inl (attempted_goto { s with inflight } rfl hj hl rfl rfl)
  | connect j connected =>
    obtain ⟨kind, i, attempted, failed, r, again, hj, rfl⟩ := connect_cases h
    exact Or.inl (attempted_goto s rfl hj hl rfl rfl)
  | record j =>
    obtain ⟨kind, i, r, again, attempted, failed, hj, s', rfl,
      ⟨next, -, rfl⟩ | ⟨-, ⟨-, rfl⟩ | ⟨-, place, rfl⟩⟩⟩ := record_cases h
    · exact Or.inl (attempted_goto (s.setHealth i _) rfl hj hl rfl rfl)
    · exact Or.inl (attempted_leave (s.setHealth i _) rfl hl)
    · exact Or.inl (attempted_goto (s.setHealth i _) rfl hj hl rfl rfl)

/-- Every channel that an operation has tried is one of the pool. -/
def Within (setup : PoolSetup) (s : RpcClientPool) : Prop :=
  ∀ k op, s.operations.lookup k = some op → ∀ i ∈ op.attempted, i < setup.channels

/-- The call `k` has tried no channel twice. -/
def Once (s : RpcClientPool) (k : ℕ) : Prop :=
  ∀ op, s.operations.lookup k = some op → op.kind = .call → op.attempted.Nodup

theorem Within.step (hn : 0 < setup.channels) (h : s.Within setup)
    (hs : step setup s a = some t) : t.Within setup := by
  intro k op hl i hi
  rcases attempted_of_step hs hl with ⟨op', hl', -, hsame⟩ | hnil |
    ⟨attempted, failed, j, nextIndex, -, hl', hselect, happend⟩
  · exact h k op' hl' i (hsame ▸ hi)
  · rw [hnil] at hi
    cases hi
  · rw [happend] at hi
    rcases List.mem_append.1 hi with hold | hnew
    · exact h k _ hl' i hold
    · obtain rfl := List.mem_singleton.1 hnew
      rcases selectChannel_spec hselect with hmem | ⟨rfl, -⟩
      · exact (mem_candidates.1 hmem).1
      · exact hn

/-- **A selection that finds an untried channel keeps the call from trying one
twice.** -/
theorem Once.step (h : s.Once k) (hfresh : s.untried setup k a = true)
    (hs : step setup s a = some t) : t.Once k := by
  intro op hl hkind
  rcases attempted_of_step hs hl with ⟨op', hl', hkind', hsame⟩ | hnil |
    ⟨attempted, failed, i, nextIndex, rfl, hl', hselect, happend⟩
  · exact hsame ▸ h op' hl' (hkind'.trans hkind)
  · rw [hnil]
    exact List.nodup_nil
  · rw [hkind] at hl'
    have hnodup : attempted.Nodup := h _ hl' rfl
    have hnew : i ∉ attempted := by
      rcases selectChannel_spec hselect with hmem | ⟨rfl, hnone⟩
      · exact (mem_candidates.1 hmem).2.2
      · simpa [untried, hl', hnone] using hfresh
    rw [happend]
    exact hnodup.append (List.nodup_singleton i) (by simpa using hnew)

/-- The fallback selects a channel that was tried. -/
theorem not_once_of_not_untried (hn : 0 < setup.channels) (htried : ¬ s.untried setup k a = true)
    (hs : step setup s a = some t) : ¬ t.Once k := by
  cases a with
  | select j =>
    obtain ⟨kind, attempted, failed, hj, hcases⟩ := select_cases hs
    simp only [untried, hj] at htried
    cases kind with
    | call =>
      simp only [Bool.or_eq_true, decide_eq_true_eq, not_or, not_not, ne_eq] at htried
      obtain ⟨⟨rfl, hnone⟩, hzero⟩ := htried
      rcases hcases with ⟨hselect, -⟩ | ⟨i, nextIndex, hselect, rfl⟩
      · rw [selectChannel, if_pos hnone, if_neg hn.ne'] at hselect
        cases hselect
      · have hi : i = 0 := by
          rcases selectChannel_spec hselect with hmem | ⟨hi, -⟩
          · rw [hnone] at hmem
            cases hmem
          · exact hi
        intro honce
        have hnodup : (attempted ++ [i]).Nodup := honce _ (AList.lookup_insert ..) rfl
        rw [hi] at hnodup
        exact (List.nodup_append.1 hnodup).2.2 0 hzero 0 (List.mem_singleton_self 0) rfl
    | callAsync => exact absurd rfl htried
    | callCo => exact absurd rfl htried
    | warmup => exact absurd rfl htried
  | start j kind => exact absurd rfl htried
  | finish j result left => exact absurd rfl htried
  | connect j connected => exact absurd rfl htried
  | record j => exact absurd rfl htried

/-- Distinct channels of a pool, as many as it has, are each of its channels once. -/
theorem count_eq_one {attempted : List ℕ} {n : ℕ} (hnodup : attempted.Nodup)
    (hwithin : ∀ i ∈ attempted, i < n) (hlength : n ≤ attempted.length) {i : ℕ} (hi : i < n) :
    attempted.count i = 1 := by
  have hperm : attempted.Subperm (List.range n) :=
    hnodup.subperm fun i hi => List.mem_range.2 (hwithin i hi)
  have hall : attempted.Perm (List.range n) :=
    hperm.perm_of_length_le (by rwa [List.length_range])
  rw [hall.count_eq]
  exact List.count_eq_one_of_mem List.nodup_range (List.mem_range.2 hi)

/-- The last attempt of a call that has tried no channel twice. -/
theorem all_of_once (hwithin : s.Within setup) (honce : s.Once k)
    (hlast : s.exhausts setup k a = true) (hl : s.operations.lookup k = some op) :
    ∀ i < setup.channels, op.attempted.count i = 1 := by
  obtain ⟨kind, place, attempted, failed⟩ := op
  cases a with
  | finish j result left =>
    simp only [exhausts] at hlast
    split at hlast
    · rename_i i attempted' failed' hj
      simp only [Bool.and_eq_true, decide_eq_true_eq] at hlast
      obtain ⟨⟨rfl, -⟩, hlength⟩ := hlast
      obtain ⟨rfl, -, rfl, -⟩ := Operation.mk.inj (Option.some.inj (hl.symm.trans hj))
      exact fun i hi => count_eq_one (honce _ hl rfl) (hwithin j _ hl) hlength hi
    · cases hlast
  | start j kind' => cases hlast
  | select j => cases hlast
  | connect j connected => cases hlast
  | record j => cases hlast

end Attempted

/-- **When a call tries each channel once.**  A pool of at least one channel, with
any health of them and either strategy, runs any operations in any interleaving,
with any results of their attempts.  A call tries no channel twice and reports
that all have failed only after each was tried, if and only if each time it
selects one, a healthy channel is left that it has not tried, or it has not tried
the first. -/
theorem triesEach_iff {setup : PoolSetup} (hn : 0 < setup.channels) (k : ℕ)
    (health : ℕ → Health) (inflight : ℕ → ℕ) (nextIndex : ℕ) {es : List Act} {t : RpcClientPool}
    (ht : exec (step setup) { health, inflight, nextIndex } es = some t) :
    TriesEach setup k { health, inflight, nextIndex } es ↔
      Along (step setup) (fun s a => s.untried setup k a = true)
        { health, inflight, nextIndex } es := by
  have hI : Within setup { health, inflight, nextIndex } ∧
      Once { health, inflight, nextIndex } k := by
    constructor
    · intro j op hl
      cases hl
    · intro op hl
      cases hl
  have hstep : ∀ s a u, s.Within setup ∧ s.Once k → s.untried setup k a = true →
      step setup s a = some u → u.Within setup ∧ u.Once k :=
    fun s a u h hfresh hs => ⟨h.1.step hn hs, h.2.step hfresh hs⟩
  have honce := exec_safe_iff_along hstep (fun s h => h.2)
    (fun s a u _ hnot hs => not_once_of_not_untried hn hnot hs) hI ht
  constructor
  · intro h
    exact honce.1 fun pre post s heq hs op hl hkind => h.once pre post s op heq hs hl hkind
  · intro h
    refine ⟨fun pre post s op heq hs hl hkind => honce.2 h pre post s heq hs op hl hkind, ?_⟩
    rintro pre a post s op rfl hs hlast hl
    have hsafe := exec_along hstep hI h.of_append hs
    exact all_of_once hsafe.1 hsafe.2 hlast hl

/-- The health of two channels, of which the second is marked unhealthy. -/
def secondUnhealthy : ℕ → Health := fun i => { healthy := i = 0 }

/-- A call that succeeds at the first channel. -/
theorem triesEach_succeeds :
    ∃ t, exec (step { channels := 2 }) { health := secondUnhealthy }
        [.start 0 .call, .select 0, .finish 0 ⟨{}, []⟩ false] = some t ∧
      (TriesEach { channels := 2 } 0 { health := secondUnhealthy }
          [.start 0 .call, .select 0, .finish 0 ⟨{}, []⟩ false] ↔
        Along (step { channels := 2 }) (fun s a => s.untried { channels := 2 } 0 a = true)
          { health := secondUnhealthy } [.start 0 .call, .select 0, .finish 0 ⟨{}, []⟩ false]) :=
  ⟨_, rfl, triesEach_iff (by decide) 0 _ _ _ rfl⟩

/-- The error of an attempt whose connection was closed. -/
def closedResult : RpcCallResult := .failure .internalError "connection closed"

/-- A call fails at the first channel, falls back to it, and fails again. -/
def firstTwice : List Act :=
  [.start 0 .call, .select 0, .finish 0 closedResult false, .record 0, .select 0,
    .finish 0 closedResult false]

/-- The call has tried the first channel twice when the attempts are over. -/
theorem firstTwice_attempted :
    ∃ t op, exec (step { channels := 2 }) { health := secondUnhealthy } firstTwice = some t ∧
      t.operations.lookup 0 = some op ∧ op.kind = .call ∧ op.attempted = [0, 0] := by
  have hrun : ((exec (step { channels := 2 }) { health := secondUnhealthy } firstTwice).bind
      fun t => t.operations.lookup 0) =
        some ⟨.call, .recording 0 Ending.unreachable.recording false, [0, 0], true⟩ := by
    decide
  obtain ⟨t, ht, hl⟩ := Option.bind_eq_some_iff.1 hrun
  exact ⟨t, _, ht, hl, rfl, rfl⟩

/-- **The first channel is tried twice and the second not at all**, and then all of
them are reported to have failed. -/
theorem firstTwice_not_triesEach :
    ¬ ∀ (setup : PoolSetup) (k : ℕ) (s₀ : RpcClientPool) (es : List Act) (t : RpcClientPool),
      0 < setup.channels → s₀.operations = ∅ → exec (step setup) s₀ es = some t →
        TriesEach setup k s₀ es := by
  intro h
  obtain ⟨t, op, ht, hl, hkind, hattempted⟩ := firstTwice_attempted
  have hnodup := (h { channels := 2 } 0 _ firstTwice t (by decide) rfl ht).once firstTwice [] t op
    (List.append_nil _).symm ht hl hkind
  rw [hattempted] at hnodup
  exact absurd hnodup (by decide)

end RpcClientPool
end Client
end MiniRpc
