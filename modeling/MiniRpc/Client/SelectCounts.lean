/-
# Selections and results

A channel of `src/client/rpc_client_pool.cpp` counts how often it was selected,
in `SelectChannel`, and how its attempts ended, in the calls
(`MiniRpc.Client.Bookkeeping`).  Here the pool of `MiniRpc.Client.RpcClientPool`
runs with these counters.

`SelectChannel` has two returns, and the one that falls back to the first channel
counts nothing.  `balanced_iff` says that the counters agree, whenever no call is
in progress, if and only if that return was not taken, or a multiple of `2 ^ 64`
times.
-/

import MiniRpc.Client.Bookkeeping

namespace MiniRpc
namespace Client

open Transition RpcClientPool

/-- `selected->select_count.fetch_add(1)`. -/
def ChannelCounts.select (counts : ChannelCounts) : ChannelCounts :=
  { counts with selectCount := (counts.selectCount + 1) % 2 ^ 64 }

/-- The pool with the counters of its channels. -/
structure CountedPool where
  pool : RpcClientPool := {}
  counts : ℕ → ChannelCounts := fun _ => {}

namespace CountedPool

/-- The counters after a step. -/
def count (setup : PoolSetup) (s : CountedPool) : Act → ℕ → ChannelCounts
  | .select k =>
    match s.pool.operations.lookup k with
    | some ⟨_, .selecting, attempted, _⟩ =>
      if s.pool.candidates setup attempted = [] then s.counts
      else
        match s.pool.selectChannel setup attempted with
        | some (i, _) => Function.update s.counts i (s.counts i).select
        | none => s.counts
    | _ => s.counts
  | .finish k result _ =>
    match s.pool.operations.lookup k with
    | some ⟨_, .waiting i, _, _⟩ =>
      Function.update s.counts i ((s.counts i).recordCallResult result)
    | _ => s.counts
  | _ => s.counts

/-- One step of the pool, with its counting. -/
def step (setup : PoolSetup) (s : CountedPool) (a : Act) : Option CountedPool :=
  (RpcClientPool.step setup s.pool a).map fun pool => { pool, counts := s.count setup a }

/-- The operation for which `SelectChannel` finds no healthy channel and returns the
first one. -/
def fallback (setup : PoolSetup) (s : CountedPool) : Act → Option ℕ
  | .select k =>
    match s.pool.operations.lookup k with
    | some ⟨_, .selecting, attempted, _⟩ =>
      if s.pool.candidates setup attempted = [] ∧ setup.channels ≠ 0 then some k else none
    | _ => none
  | _ => none

/-- The attempts on the channel `i` that have no result yet. -/
def waiting (operations : Table ℕ Operation) (i : ℕ) : ℕ :=
  operations.countVals fun op => op.place = .waiting i

/-- The attempts on `i` are the selections, those of the fallback included, which
are `n`; they have a result or wait for one. -/
def Accounts (s : CountedPool) (n : ℕ) : Prop :=
  ∀ i, ((s.counts i).selectCount + if i = 0 then n else 0) % 2 ^ 64 =
    ((s.counts i).successCount + (s.counts i).failCount + waiting s.pool.operations i) % 2 ^ 64

/-- `Warmup` selects no channel and waits for no result. -/
def Apart (op : Operation) : Prop :=
  op.kind = .warmup → op.place ≠ .selecting ∧ ∀ i, op.place ≠ .waiting i

/-- The selections are 64-bit numbers. -/
def Bounded (counts : ℕ → ChannelCounts) : Prop := ∀ i, (counts i).selectCount < 2 ^ 64

/-- What holds in every state. -/
structure Sound (s : CountedPool) : Prop where
  bounded : Bounded s.counts
  warmup : ∀ k op, s.pool.operations.lookup k = some op → Apart op

variable {setup : PoolSetup} {s t : CountedPool} {k : ℕ} {a : Act}

/-! ### The attempts that wait -/

theorem waiting_insert {ops : Table ℕ Operation} {old : Operation} (hl : ops.lookup k = some old)
    (new : Operation) (i : ℕ) :
    (waiting (ops.insert k new) i + if old.place = .waiting i then 1 else 0) =
      waiting ops i + if new.place = .waiting i then 1 else 0 := by
  have h := Table.countVals_insert (fun op => decide (op.place = .waiting i)) ops k new
  rw [hl] at h
  simpa [waiting, List.countP_cons] using h

theorem waiting_erase {ops : Table ℕ Operation} {old : Operation} (hl : ops.lookup k = some old)
    (i : ℕ) :
    (waiting (ops.erase k) i + if old.place = .waiting i then 1 else 0) = waiting ops i := by
  have h := Table.countVals_erase (fun op => decide (op.place = .waiting i)) ops k
  rw [hl] at h
  simpa [waiting, List.countP_cons] using h

theorem waiting_new {ops : Table ℕ Operation} (new : Operation) (hl : ops.lookup k = none)
    (hnew : ∀ i, new.place ≠ .waiting i) (i : ℕ) :
    waiting (ops.insert k new) i = waiting ops i := by
  have h := Table.countVals_insert (fun op => decide (op.place = .waiting i)) ops k new
  rw [hl] at h
  simpa [waiting, hnew i] using h

/-- What becomes of an operation that records its ending. -/
theorem record_operations {p q : RpcClientPool}
    (h : RpcClientPool.step setup p (.record k) = some q) :
    ∃ old, p.operations.lookup k = some old ∧ (∀ i, old.place ≠ .waiting i) ∧
      (q.operations = p.operations.erase k ∨ ∃ new, q.operations = p.operations.insert k new ∧
        (∀ i, new.place ≠ .waiting i) ∧ Apart new) := by
  simp only [RpcClientPool.step] at h
  split at h
  · rename_i kind i r again attempted failed hl
    refine ⟨_, hl, by simp, ?_⟩
    split at h
    · obtain rfl := Option.some.inj h
      exact Or.inr ⟨_, rfl, by simp, fun _ => by simp⟩
    · obtain rfl := Option.some.inj h
      cases again with
      | false => exact Or.inl rfl
      | true =>
        refine Or.inr ⟨_, rfl, ?_, ?_⟩
        · intro j
          dsimp only
          split_ifs <;> simp
        · intro hwarmup
          simp [show kind = .warmup from hwarmup]
  · cases h

/-! ### What a step counts -/

/-- `SelectChannel` returns no channel only if there is none. -/
theorem selectChannel_eq_none {p : RpcClientPool} {excluded : List ℕ}
    (h : p.selectChannel setup excluded = none) :
    p.candidates setup excluded = [] ∧ setup.channels = 0 := by
  unfold selectChannel at h
  dsimp only at h
  split_ifs at h with hnil hzero
  exact ⟨hnil, hzero⟩

/-- If no candidate is left, it returns the first channel. -/
theorem selectChannel_fallback {p : RpcClientPool} {excluded : List ℕ} {i nextIndex : ℕ}
    (h : p.selectChannel setup excluded = some (i, nextIndex))
    (hnil : p.candidates setup excluded = []) : i = 0 ∧ setup.channels ≠ 0 := by
  unfold selectChannel at h
  dsimp only at h
  rw [if_pos hnil] at h
  split_ifs at h with hzero
  obtain ⟨rfl, -⟩ := Prod.mk.inj (Option.some.inj h)
  exact ⟨rfl, hzero⟩

theorem accounts_select {n : ℕ} (hs : s.Accounts n) (h : step setup s (.select k) = some t) :
    t.Accounts (n + (fallback setup s (.select k)).toList.length) := by
  obtain ⟨p, hp, rfl⟩ := Option.map_eq_some_iff.1 h
  obtain ⟨kind, attempted, failed, hl, ⟨hselect, rfl⟩ | ⟨i, nextIndex, hselect, rfl⟩⟩ :=
    select_cases hp
  · obtain ⟨hnil, hzero⟩ := selectChannel_eq_none hselect
    intro j
    have hj := hs j
    have hwaiting := waiting_erase hl j
    simp only [reduceCtorEq, if_false, Nat.add_zero] at hwaiting
    simpa [fallback, count, hl, hnil, hzero, leave, hwaiting] using hj
  · intro j
    have hj := hs j
    have hwaiting := waiting_insert hl ⟨kind, .waiting i, attempted ++ [i], failed⟩ j
    simp only [reduceCtorEq, if_false, Nat.add_zero, OperationPlace.waiting.injEq] at hwaiting
    by_cases hnil : s.pool.candidates setup attempted = []
    · obtain ⟨rfl, hchannels⟩ := selectChannel_fallback hselect hnil
      simp only [fallback, count, goto, hl, hnil, hchannels, ne_eq, not_false_eq_true,
        and_self, if_true, Option.toList_some, List.length_singleton]
      rw [hwaiting]
      by_cases hzero : j = 0
      · subst hzero
        simp only [if_true] at hj ⊢
        omega
      · simpa only [if_neg hzero, if_neg (Ne.symm hzero), Nat.add_zero] using hj
    · simp only [fallback, count, goto, hl, hnil, hselect, false_and, if_false,
        Option.toList_none, List.length_nil, Nat.add_zero]
      rw [hwaiting]
      by_cases hij : j = i
      · subst hij
        simp only [Function.update_self, ChannelCounts.select, if_true]
        omega
      · simpa only [Function.update_of_ne hij, if_neg (Ne.symm hij), Nat.add_zero] using hj

theorem accounts_finish {n : ℕ} {result : RpcCallResult} {left : Bool} (hs : s.Accounts n)
    (h : step setup s (.finish k result left) = some t) : t.Accounts n := by
  obtain ⟨p, hp, rfl⟩ := Option.map_eq_some_iff.1 h
  obtain ⟨kind, i, attempted, failed, r, again, inflight, hl, rfl, -⟩ := finish_cases hp
  intro j
  have hj := hs j
  have hwaiting := waiting_insert hl
    ⟨kind, .recording i r again, attempted, failed || !result.status.ok⟩ j
  simp only [reduceCtorEq, if_false, Nat.add_zero, OperationPlace.waiting.injEq] at hwaiting
  simp only [count, goto, hl]
  by_cases hij : j = i
  · subst hij
    rw [if_pos rfl] at hwaiting
    rw [Function.update_self]
    unfold ChannelCounts.recordCallResult
    by_cases hok : result.status.ok = true
    · rw [if_pos hok]
      dsimp only
      omega
    · rw [if_neg hok]
      dsimp only
      omega
  · rw [if_neg (Ne.symm hij), Nat.add_zero] at hwaiting
    simpa only [Function.update_of_ne hij, hwaiting] using hj

/-- **What a step counts is what happens in it.** -/
theorem accounts_step {n : ℕ} (hs : s.Accounts n) (h : step setup s a = some t) :
    t.Accounts (n + (fallback setup s a).toList.length) := by
  cases a with
  | select k => exact accounts_select hs h
  | finish k result left => exact accounts_finish hs h
  | start k kind =>
    obtain ⟨p, hp, rfl⟩ := Option.map_eq_some_iff.1 h
    obtain ⟨hnew, rfl | ⟨rfl, -⟩ | rfl⟩ := start_cases hp
    · exact hs
    · intro i
      have := waiting_new ⟨kind, .connecting 0, [], false⟩ hnew (by simp) i
      simpa [count, fallback, goto, this] using hs i
    · intro i
      have := waiting_new ⟨kind, .selecting, [], false⟩ hnew (by simp) i
      simpa [count, fallback, goto, this] using hs i
  | connect k connected =>
    obtain ⟨p, hp, rfl⟩ := Option.map_eq_some_iff.1 h
    obtain ⟨kind, i, attempted, failed, r, again, hl, rfl⟩ := connect_cases hp
    intro j
    have := waiting_insert hl ⟨kind, .recording i r again, attempted, failed⟩ j
    simp only [reduceCtorEq, if_false, Nat.add_zero] at this
    simpa [count, fallback, goto, this] using hs j
  | record k =>
    obtain ⟨p, hp, rfl⟩ := Option.map_eq_some_iff.1 h
    obtain ⟨old, hl, hold, hnext⟩ := record_operations hp
    intro j
    have hj := hs j
    rcases hnext with herase | ⟨new, hinsert, hnew, -⟩
    · have := waiting_erase hl j
      rw [if_neg (hold j), Nat.add_zero] at this
      simpa [count, fallback, herase, this] using hj
    · have := waiting_insert hl new j
      rw [if_neg (hold j), if_neg (hnew j), Nat.add_zero, Nat.add_zero] at this
      simpa [count, fallback, hinsert, this] using hj

/-! ### What holds in every state -/

namespace Sound

theorem init : Sound {} where
  bounded := fun _ => by simp
  warmup := by simp

/-- An operation goes on or returns. -/
theorem apart_insert (hs : s.Sound) {new : Operation} (hnew : Apart new) {k' : ℕ}
    {op : Operation} (hl : (s.pool.operations.insert k new).lookup k' = some op) : Apart op := by
  by_cases hk : k' = k
  · rw [hk, AList.lookup_insert] at hl
    exact Option.some.inj hl ▸ hnew
  · rw [AList.lookup_insert_ne hk] at hl
    exact hs.warmup k' op hl

theorem apart_erase (hs : s.Sound) {k' : ℕ} {op : Operation}
    (hl : (s.pool.operations.erase k).lookup k' = some op) : Apart op := by
  by_cases hk : k' = k
  · rw [hk, AList.lookup_erase] at hl
    cases hl
  · rw [AList.lookup_erase_ne hk] at hl
    exact hs.warmup k' op hl

theorem warmup_step (hs : s.Sound) {q : RpcClientPool}
    (h : RpcClientPool.step setup s.pool a = some q) {k' : ℕ} {op : Operation}
    (hl : q.operations.lookup k' = some op) : Apart op := by
  cases a with
  | start k kind =>
    simp only [RpcClientPool.step] at h
    split_ifs at h with hnew hkind hzero
    · obtain rfl := Option.some.inj h
      exact hs.warmup k' op hl
    · obtain rfl := Option.some.inj h
      exact hs.apart_insert (fun _ => by simp) hl
    · obtain rfl := Option.some.inj h
      exact hs.apart_insert (fun hwarmup => absurd hwarmup hkind) hl
  | select k =>
    obtain ⟨kind, attempted, failed, hold, ⟨-, rfl⟩ | ⟨i, nextIndex, -, rfl⟩⟩ := select_cases h
    · exact hs.apart_erase hl
    · refine hs.apart_insert (fun hwarmup => ?_) hl
      exact absurd rfl (hs.warmup k _ hold hwarmup).1
  | finish k result left =>
    obtain ⟨kind, i, attempted, failed, r, again, inflight, -, rfl, -⟩ := finish_cases h
    exact hs.apart_insert (fun _ => by simp) hl
  | connect k connected =>
    obtain ⟨kind, i, attempted, failed, r, again, -, rfl⟩ := connect_cases h
    exact hs.apart_insert (fun _ => by simp) hl
  | record k =>
    obtain ⟨old, -, -, herase | ⟨new, hinsert, -, hnew⟩⟩ := record_operations h
    · rw [herase] at hl
      exact hs.apart_erase hl
    · rw [hinsert] at hl
      exact hs.apart_insert hnew hl

theorem bounded_update (hs : s.Sound) {counts : ChannelCounts}
    (hlt : counts.selectCount < 2 ^ 64) (i : ℕ) : Bounded (Function.update s.counts i counts) := by
  intro j
  by_cases hij : j = i
  · rw [hij, Function.update_self]
    exact hlt
  · rw [Function.update_of_ne hij]
    exact hs.bounded j

theorem bounded_count (hs : s.Sound) (a : Act) : Bounded (s.count setup a) := by
  cases a with
  | select k =>
    simp only [count]
    split
    · split_ifs
      · exact hs.bounded
      · split
        · exact hs.bounded_update (Nat.mod_lt _ (by decide)) _
        · exact hs.bounded
    · exact hs.bounded
  | finish k result left =>
    simp only [count]
    split
    · rename_i i _ _ _
      refine hs.bounded_update ?_ _
      unfold ChannelCounts.recordCallResult
      split_ifs <;> exact hs.bounded i
    · exact hs.bounded
  | start k kind => exact hs.bounded
  | connect k connected => exact hs.bounded
  | record k => exact hs.bounded

/-- **Every step keeps the state sound.** -/
theorem step (hs : s.Sound) (h : CountedPool.step setup s a = some t) : t.Sound := by
  obtain ⟨q, hq, rfl⟩ := Option.map_eq_some_iff.1 h
  exact ⟨hs.bounded_count a, fun k' op hl => hs.warmup_step hq hl⟩

end Sound

/-- **The books of a run.**  The attempts on a channel are the selections that it counted and
those of the fallback, and each has a result or waits for one. -/
theorem accounts_exec {es : List Act} (hs : exec (step setup) {} es = some s) :
    s.Accounts (observe (step setup) (fallback setup) {} es).length := by
  suffices h : exec (step setup) {} es = some s ∧
      s.Accounts (observe (step setup) (fallback setup) {} es).length from h.2
  refine exec_history (I := fun es s => exec (step setup) {} es = some s ∧
    s.Accounts (observe (step setup) (fallback setup) {} es).length) ?_ ?_ es s hs
  · exact ⟨rfl, fun i => by simp [observe, waiting]⟩
  · rintro es s a t ⟨hes, hs⟩ ht
    refine ⟨exec_concat.2 ⟨s, hes, ht⟩, ?_⟩
    rw [observe_concat hes, List.length_append]
    exact accounts_step hs ht

/-- **When the counters agree.**  With no call in progress each channel counts as many
selections as results if and only if `SelectChannel` did not fall back, or a multiple of
`2 ^ 64` times. -/
theorem balanced_iff {es : List Act} (hs : exec (step setup) {} es = some s)
    (hidle : ∀ k op, s.pool.operations.lookup k = some op → op.kind = .warmup) :
    (∀ i, (s.counts i).selectCount =
        ((s.counts i).successCount + (s.counts i).failCount) % 2 ^ 64) ↔
      (observe (step setup) (fallback setup) {} es).length % 2 ^ 64 = 0 := by
  have hsound : s.Sound := exec_invariant Sound.init (fun _ _ _ h ht => h.step ht) hs
  have hwaiting : ∀ i, waiting s.pool.operations i = 0 := by
    intro i
    rw [waiting, Table.countVals_eq_zero]
    intro k op hl
    simpa using (hsound.warmup k op hl (hidle k op hl)).2 i
  have haccounts := accounts_exec hs
  constructor
  · intro h
    have h₀ := haccounts 0
    rw [if_pos rfl, hwaiting 0, h 0] at h₀
    omega
  · intro hzero i
    have hi := haccounts i
    have hlt := hsound.bounded i
    rw [hwaiting i] at hi
    split_ifs at hi <;> omega

/-- A result with this text, an error. -/
def failure (text : String) : RpcCallResult := .failure .internalError text

/-- A call cannot connect to the only channel, which becomes unhealthy. -/
def refusedCall : List Act :=
  [.start 0 .call, .select 0, .finish 0 (failure "connect failed") false, .record 0, .record 0]

theorem balanced_iff_refusedCall :
    ∃ s, exec (step { channels := 1, maxConsecutiveFailures := 1 }) {} refusedCall = some s ∧
      ∀ i, (s.counts i).selectCount =
        ((s.counts i).successCount + (s.counts i).failCount) % 2 ^ 64 :=
  ⟨_, rfl, (balanced_iff (rfl : exec (step { channels := 1, maxConsecutiveFailures := 1 }) {}
    refusedCall = some _) (by rintro k op ⟨⟩)).2 (by decide)⟩

/-- **A call that falls back is counted as a result and not as a selection.** -/
theorem fallback_unbalanced :
    ¬ ∀ (setup : PoolSetup) (es : List Act) (s : CountedPool), exec (step setup) {} es = some s →
      (∀ k op, s.pool.operations.lookup k = some op → op.kind = .warmup) →
      ∀ i, (s.counts i).selectCount =
        ((s.counts i).successCount + (s.counts i).failCount) % 2 ^ 64 := by
  intro h
  have hcounts := h { channels := 1, maxConsecutiveFailures := 1 }
    (refusedCall ++ [.start 1 .callCo, .select 1, .finish 1 (failure "connect failed") false,
      .record 1, .record 1]) _ rfl (by rintro k op ⟨⟩) 0
  exact absurd hcounts (by decide)

end CountedPool
end Client
end MiniRpc
