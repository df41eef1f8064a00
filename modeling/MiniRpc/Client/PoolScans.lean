/-
# The scan of the client pool, a load at a time

`SelectChannel` of `src/client/rpc_client_pool.cpp` loads the flag of one channel after
the other, and `LeastInflightBalancer` then reads the requests in flight of one candidate
after the other; other operations go on in between.  So a channel that is marked unhealthy
may still be selected by a call that has looked at its flag before.  `ScanningPool` is the
pool of `MiniRpc.Client.RpcClientPool` with `SelectChannel` taken apart into these steps.

While no call is inside `SelectChannel` nothing of that is left, and the channels that
calls can come back to are the ones of `Eligible` (`selectable_iff`): a scan that begins
in a barred state misses the channel, however it is interleaved (`Barred.step`), and a call
that runs alone selects as the pool does (`exists_comes_select`).
-/

import MiniRpc.Client.RpcClientPool

namespace MiniRpc
namespace Client

open Transition

/-- Where a call is in `SelectChannel`. -/
inductive ScanPlace where
  /-- In the loop over the channels: those still to look at, and `healthy_candidates`. -/
  | scanning (rest candidates : List ℕ)
  /-- In `balancer_->Select`, with what `GetInflightCount` returned so far. -/
  | balancing (candidates counts : List ℕ)
  deriving DecidableEq, Repr

/-- What a call in `SelectChannel` comes to. -/
inductive Advance where
  | go (place : ScanPlace)
  /-- The channel, if any, and the counter of the balancer after it. -/
  | select (selected : Option (ℕ × ℕ))

/-- The pool, and where the calls that select a channel are in `SelectChannel`. -/
structure ScanningPool where
  pool : RpcClientPool := {}
  scans : Table ℕ ScanPlace := ∅

namespace ScanningPool

/-- `SelectChannel` goes on by one atomic operation. -/
def advance (setup : PoolSetup) (p : RpcClientPool) (excluded : List ℕ) :
    Option ScanPlace → Advance
  | none => .go (.scanning (List.range setup.channels) [])
  | some (.scanning (i :: rest) candidates) =>
    .go (.scanning rest
      (if (p.health i).healthy && i ∉ excluded then candidates ++ [i] else candidates))
  -- all unhealthy: the first channel, or none
  | some (.scanning [] []) =>
    .select (if setup.channels = 0 then none else some (0, p.nextIndex))
  | some (.scanning [] candidates) => .go (.balancing candidates [])
  | some (.balancing candidates counts) =>
    match setup.strategy with
    | .kRoundRobin =>
      .select (some (candidates.getD (p.nextIndex % candidates.length) 0,
        (p.nextIndex + 1) % 2 ^ 64))
    | .kLeastInflight =>
      if counts.length < candidates.length then
        .go (.balancing candidates (counts ++ [p.inflight (candidates.getD counts.length 0)]))
      else
        .select (some
          (candidates.getD (LoadBalanceStrategy.select .kLeastInflight p.nextIndex counts) 0,
            (p.nextIndex + 1) % 2 ^ 64))

/-- One atomic step. -/
inductive Act where
  /-- A step of the pool other than `SelectChannel`. -/
  | act (a : RpcClientPool.Act)
  /-- The call goes on in `SelectChannel`. -/
  | scan (k : ℕ)

/-- `SelectChannel` as one step, which is not one here. -/
def isSelect : RpcClientPool.Act → Bool
  | .select _ => true
  | _ => false

/-- One step, `none` if it cannot happen in the state. -/
def step (setup : PoolSetup) (s : ScanningPool) : Act → Option ScanningPool
  | .act a => if isSelect a then none else (s.pool.step setup a).map fun pool => { s with pool }
  | .scan k =>
    match s.pool.operations.lookup k with
    | some ⟨kind, .selecting, attempted, failed⟩ =>
      match advance setup s.pool attempted (s.scans.lookup k) with
      | .go place => some { s with scans := s.scans.insert k place }
      | .select none => some { pool := s.pool.leave k, scans := s.scans.erase k }
      | .select (some (i, nextIndex)) =>
        some {
          pool := RpcClientPool.goto { s.pool with
            nextIndex
            inflight := Function.update s.pool.inflight i (s.pool.inflight i + 1) } k
              ⟨kind, .waiting i, attempted ++ [i], failed⟩
          scans := s.scans.erase k }
    | _ => none

/-- A step of a `Call`, `CallAsync` or `CallCo` whose attempts all succeed. -/
def succeeds (s : ScanningPool) : Act → Bool
  | .act a => s.pool.succeeds a
  | .scan k => (s.pool.operations.lookup k).any Operation.succeeding

/-- The channel that `SelectChannel` returns in a step. -/
def picked (setup : PoolSetup) (s : ScanningPool) : Act → Option ℕ
  | .act _ => none
  | .scan k =>
    match s.pool.operations.lookup k with
    | some ⟨_, .selecting, attempted, _⟩ =>
      match advance setup s.pool attempted (s.scans.lookup k) with
      | .go _ => none
      | .select selected => selected.map Prod.fst
    | _ => none

/-- Calls whose attempts all succeed can go on in such a way that the channel is
selected. -/
def Selectable (setup : PoolSetup) (s : ScanningPool) (channel : ℕ) : Prop :=
  ∃ es t, Along (step setup) (fun s a => s.succeeds a = true) s es ∧
    exec (step setup) s es = some t ∧ channel ∈ observe (step setup) (picked setup) s es

/-- No call that has had no failure is inside `SelectChannel`. -/
def Quiet (s : ScanningPool) : Prop :=
  ∀ k op, s.pool.operations.lookup k = some op → op.succeeding = true → s.scans.lookup k = none

variable {setup : PoolSetup} {s t : ScanningPool} {k c : ℕ}

/-! ### What a step does -/

theorem act_cases {a : RpcClientPool.Act} (h : step setup s (.act a) = some t) :
    isSelect a = false ∧ ∃ pool, s.pool.step setup a = some pool ∧ t = { s with pool } := by
  simp only [step] at h
  split_ifs at h with hselect
  obtain ⟨pool, hpool, rfl⟩ := Option.map_eq_some_iff.1 h
  exact ⟨by simpa using hselect, pool, hpool, rfl⟩

theorem scan_cases (h : step setup s (.scan k) = some t) :
    ∃ kind attempted failed,
      s.pool.operations.lookup k = some ⟨kind, .selecting, attempted, failed⟩ ∧
      ((∃ place, advance setup s.pool attempted (s.scans.lookup k) = .go place ∧
          t = { s with scans := s.scans.insert k place }) ∨
        advance setup s.pool attempted (s.scans.lookup k) = .select none ∧
          t = { pool := s.pool.leave k, scans := s.scans.erase k } ∨
        ∃ i nextIndex,
          advance setup s.pool attempted (s.scans.lookup k) = .select (some (i, nextIndex)) ∧
          t = {
            pool := RpcClientPool.goto { s.pool with
              nextIndex
              inflight := Function.update s.pool.inflight i (s.pool.inflight i + 1) } k
                ⟨kind, .waiting i, attempted ++ [i], failed⟩
            scans := s.scans.erase k }) := by
  simp only [step] at h
  split at h
  · rename_i kind attempted failed hl
    refine ⟨kind, attempted, failed, hl, ?_⟩
    split at h
    · rename_i place hadvance
      exact Or.inl ⟨place, hadvance, (Option.some.inj h).symm⟩
    · rename_i hadvance
      exact Or.inr (Or.inl ⟨hadvance, (Option.some.inj h).symm⟩)
    · rename_i i nextIndex hadvance
      exact Or.inr (Or.inr ⟨i, nextIndex, hadvance, (Option.some.inj h).symm⟩)
  · cases h

/-- The operation that a step of the pool is one of. -/
def actor : RpcClientPool.Act → ℕ
  | .start k _ => k
  | .select k => k
  | .finish k _ _ => k
  | .connect k _ => k
  | .record k => k

/-- The other operations are where they were. -/
theorem lookup_step {p p' : RpcClientPool} {a : RpcClientPool.Act}
    (h : p.step setup a = some p') (hk : k ≠ actor a) :
    p'.operations.lookup k = p.operations.lookup k := by
  cases a with
  | start j kind =>
    obtain ⟨-, rfl | ⟨rfl, -⟩ | rfl⟩ := RpcClientPool.start_cases h
    · rfl
    · exact AList.lookup_insert_ne hk
    · exact AList.lookup_insert_ne hk
  | select j =>
    obtain ⟨-, -, -, -, ⟨-, rfl⟩ | ⟨-, -, -, rfl⟩⟩ := RpcClientPool.select_cases h
    · exact AList.lookup_erase_ne hk
    · exact AList.lookup_insert_ne hk
  | finish j result left =>
    obtain ⟨-, -, -, -, -, -, -, -, rfl, -⟩ := RpcClientPool.finish_cases h
    exact AList.lookup_insert_ne hk
  | connect j connected =>
    obtain ⟨-, -, -, -, -, -, -, rfl⟩ := RpcClientPool.connect_cases h
    exact AList.lookup_insert_ne hk
  | record j =>
    obtain ⟨-, -, -, -, -, -, -, s', rfl, ⟨-, -, rfl⟩ | ⟨-, ⟨-, rfl⟩ | ⟨-, -, rfl⟩⟩⟩ :=
      RpcClientPool.record_cases h
    · exact AList.lookup_insert_ne hk
    · exact AList.lookup_erase_ne hk
    · exact AList.lookup_insert_ne hk

/-- A call inside `SelectChannel` takes no other step. -/
theorem ne_actor {p p' : RpcClientPool} {a : RpcClientPool.Act} (h : p.step setup a = some p')
    (hselect : isSelect a = false) {kind : OperationKind} {attempted : List ℕ} {failed : Bool}
    (hl : p.operations.lookup k = some ⟨kind, .selecting, attempted, failed⟩) : k ≠ actor a := by
  rintro rfl
  cases a with
  | start j kind =>
    have hnone := (RpcClientPool.start_cases h).1
    rw [show p.operations.lookup j = _ from hl] at hnone
    cases hnone
  | select j => cases hselect
  | finish j result left =>
    obtain ⟨_, _, _, _, _, _, _, hl', -⟩ := RpcClientPool.finish_cases h
    cases hl.symm.trans hl'
  | connect j connected =>
    obtain ⟨_, _, _, _, _, _, hl', -⟩ := RpcClientPool.connect_cases h
    cases hl.symm.trans hl'
  | record j =>
    obtain ⟨_, _, _, _, _, _, hl', -⟩ := RpcClientPool.record_cases h
    cases hl.symm.trans hl'

/-! ### What holds in every state -/

/-- The pool is sound, and whoever is inside `SelectChannel` selects a channel. -/
structure Sound (s : ScanningPool) : Prop where
  pool : s.pool.Sound
  selecting : ∀ k place, s.scans.lookup k = some place → ∃ kind attempted failed,
    s.pool.operations.lookup k = some ⟨kind, .selecting, attempted, failed⟩

theorem Sound.init : Sound {} where
  pool := RpcClientPool.Sound.init
  selecting := by simp

/-- The counter stays a 64-bit number. -/
theorem advance_lt {p : RpcClientPool} (hp : p.Sound) {excluded : List ℕ}
    {place : Option ScanPlace} {i nextIndex : ℕ}
    (h : advance setup p excluded place = .select (some (i, nextIndex))) : nextIndex < 2 ^ 64 := by
  unfold advance at h
  split at h
  · cases h
  · cases h
  · split_ifs at h
    · cases h
    · obtain ⟨-, rfl⟩ := Prod.mk.inj (Option.some.inj (Advance.select.inj h))
      exact hp.nextIndex
  · cases h
  · split at h
    · obtain ⟨-, rfl⟩ := Prod.mk.inj (Option.some.inj (Advance.select.inj h))
      exact Nat.mod_lt _ (by decide)
    · split_ifs at h
      obtain ⟨-, rfl⟩ := Prod.mk.inj (Option.some.inj (Advance.select.inj h))
      exact Nat.mod_lt _ (by decide)

/-- **Every step keeps the state sound.** -/
theorem Sound.step {a : Act} (h : s.Sound) (hs : ScanningPool.step setup s a = some t) :
    t.Sound := by
  cases a with
  | act a =>
    obtain ⟨hselect, pool, hpool, rfl⟩ := act_cases hs
    refine ⟨h.pool.step hpool, fun k place hk => ?_⟩
    obtain ⟨kind, attempted, failed, hl⟩ := h.selecting k place hk
    exact ⟨kind, attempted, failed, (lookup_step hpool (ne_actor hpool hselect hl)).trans hl⟩
  | scan k =>
    obtain ⟨kind, attempted, failed, hl, ⟨place, hadvance, rfl⟩ | ⟨-, rfl⟩ |
      ⟨i, nextIndex, hadvance, rfl⟩⟩ := scan_cases hs
    · refine ⟨h.pool, fun k' place' hk' => ?_⟩
      by_cases hk : k' = k
      · exact ⟨kind, attempted, failed, hk ▸ hl⟩
      · exact h.selecting k' place' ((AList.lookup_insert_ne hk).symm.trans hk')
    · refine ⟨h.pool.leave _ rfl h.pool.nextIndex, fun k' place' hk' => ?_⟩
      have hk : k' ≠ k := by
        rintro rfl
        simp at hk'
      obtain ⟨kind', attempted', failed', hl'⟩ :=
        h.selecting k' place' ((AList.lookup_erase_ne hk).symm.trans hk')
      exact ⟨kind', attempted', failed', (AList.lookup_erase_ne hk).trans hl'⟩
    · refine ⟨h.pool.goto { s.pool with
        nextIndex, inflight := Function.update s.pool.inflight i (s.pool.inflight i + 1) }
        rfl (advance_lt h.pool hadvance) fun _ => trivial, fun k' place' hk' => ?_⟩
      have hk : k' ≠ k := by
        rintro rfl
        simp at hk'
      obtain ⟨kind', attempted', failed', hl'⟩ :=
        h.selecting k' place' ((AList.lookup_erase_ne hk).symm.trans hk')
      exact ⟨kind', attempted', failed', (AList.lookup_insert_ne hk).trans hl'⟩

/-! ### Channels that calls do not come back to -/

/-- A scan that does not come to the channel: it has passed it by, and does not end with
the first channel if that is the one. -/
def Misses (p : RpcClientPool) (c : ℕ) : ScanPlace → Prop
  | .scanning rest candidates =>
    c ∉ candidates ∧ (c = 0 → candidates ≠ [] ∨ ∃ i ∈ rest, (p.health i).healthy = true)
  | .balancing candidates counts =>
    c ∉ candidates ∧ candidates ≠ [] ∧ counts.length ≤ candidates.length

/-- The channel is barred in the pool, and the scans under way of calls without a failure
miss it. -/
structure Barred (setup : PoolSetup) (s : ScanningPool) (c : ℕ) : Prop where
  pool : s.pool.Barred setup c
  misses : ∀ k op place, s.pool.operations.lookup k = some op → op.succeeding = true →
    s.scans.lookup k = some place → Misses s.pool c place

theorem Misses.mono {p p' : RpcClientPool} {place : ScanPlace}
    (hhealth : ∀ i, (p.health i).healthy = true → (p'.health i).healthy = true)
    (h : Misses p c place) : Misses p' c place := by
  cases place with
  | scanning rest candidates =>
    refine ⟨h.1, fun hzero => (h.2 hzero).imp id ?_⟩
    exact fun ⟨i, hi, hhealthy⟩ => ⟨i, hi, hhealth i hhealthy⟩
  | balancing candidates counts => exact h

/-- A scan that misses the channel goes on to miss it. -/
theorem misses_advance {p : RpcClientPool} (hp : p.Barred setup c) {place : Option ScanPlace}
    {place' : ScanPlace} (hplace : ∀ q, place = some q → Misses p c q)
    (h : advance setup p [] place = .go place') : Misses p c place' := by
  unfold advance at h
  split at h
  · obtain rfl := Advance.go.inj h
    refine ⟨by simp, fun hzero => Or.inr ?_⟩
    obtain ⟨i, hi, hhealthy⟩ := hp.spared hzero
    exact ⟨i, List.mem_range.2 hi, hhealthy⟩
  · rename_i i rest candidates
    obtain rfl := Advance.go.inj h
    obtain ⟨hnot, hzero⟩ := hplace _ rfl
    by_cases hi : (p.health i).healthy = true
    · have hne : c ≠ i := by
        rintro rfl
        exact absurd (hp.unhealthy.symm.trans hi) (by decide)
      simp only [hi, List.not_mem_nil, not_false_eq_true, decide_true, Bool.and_self, if_true]
      refine ⟨by simp [hnot, hne], fun _ => Or.inl (by simp)⟩
    · simp only [hi, Bool.false_and, Bool.false_eq_true, if_false]
      refine ⟨hnot, fun hc => (hzero hc).imp id ?_⟩
      rintro ⟨j, hj, hhealthy⟩
      rcases List.mem_cons.1 hj with rfl | hj
      · exact absurd hhealthy hi
      · exact ⟨j, hj, hhealthy⟩
  · cases h
  · rename_i candidates hne
    obtain rfl := Advance.go.inj h
    exact ⟨(hplace _ rfl).1, hne, Nat.zero_le _⟩
  · rename_i candidates counts
    obtain ⟨hnot, hne, -⟩ := hplace _ rfl
    split at h
    · cases h
    · split_ifs at h with hlt
      obtain rfl := Advance.go.inj h
      refine ⟨hnot, hne, ?_⟩
      rw [List.length_append]
      exact hlt

/-- A scan that misses the channel does not select it. -/
theorem ne_of_misses {p : RpcClientPool} {place : Option ScanPlace} {i nextIndex : ℕ}
    (hplace : ∀ q, place = some q → Misses p c q)
    (h : advance setup p [] place = .select (some (i, nextIndex))) : i ≠ c := by
  -- the balancer returns a candidate
  have hget : ∀ {candidates : List ℕ} {j : ℕ}, c ∉ candidates → j < candidates.length →
      candidates.getD j 0 ≠ c := by
    intro candidates j hnot hlt
    rw [List.getD_eq_getElem _ _ hlt]
    exact fun heq => hnot (heq ▸ List.getElem_mem hlt)
  unfold advance at h
  split at h
  · cases h
  · cases h
  · split_ifs at h
    · cases h
    · obtain ⟨rfl, -⟩ := Prod.mk.inj (Option.some.inj (Advance.select.inj h))
      rintro rfl
      rcases (hplace _ rfl).2 rfl with hne | ⟨j, hj, -⟩
      · exact hne rfl
      · cases hj
  · cases h
  · rename_i candidates counts
    obtain ⟨hnot, hne, hle⟩ := hplace _ rfl
    have hpos := List.length_pos_iff.2 hne
    split at h
    · obtain ⟨rfl, -⟩ := Prod.mk.inj (Option.some.inj (Advance.select.inj h))
      exact hget hnot (Nat.mod_lt _ hpos)
    · split_ifs at h with hlt
      obtain ⟨rfl, -⟩ := Prod.mk.inj (Option.some.inj (Advance.select.inj h))
      have hcounts : counts ≠ [] := List.length_pos_iff.1 (by omega)
      have := select_lt .kLeastInflight p.nextIndex hcounts
      exact hget hnot (by omega)

/-- **Calls that succeed leave the channel barred**, scans included. -/
theorem Barred.step {a : Act} (h : s.Barred setup c) (hS : s.Sound) (ha : s.succeeds a = true)
    (hs : ScanningPool.step setup s a = some t) : t.Barred setup c := by
  cases a with
  | act a =>
    obtain ⟨hselect, pool, hpool, rfl⟩ := act_cases hs
    refine ⟨h.pool.step hS.pool ha hpool, fun k op place hl hsucc hk => ?_⟩
    obtain ⟨kind, attempted, failed, hl'⟩ := hS.selecting k place hk
    have hsame := lookup_step hpool (ne_actor hpool hselect hl')
    exact (h.misses k op place (hsame.symm.trans hl) hsucc hk).mono
      (RpcClientPool.healthy_step hS.pool ha hpool)
  | scan k =>
    obtain ⟨kind, attempted, failed, hl, hcases⟩ := scan_cases hs
    have hsucc : Operation.succeeding ⟨kind, .selecting, attempted, failed⟩ = true := by
      simpa only [succeeds, hl, Option.any_some] using ha
    obtain rfl : attempted = [] := hS.pool.fresh k _ hl hsucc
    have hmiss : ∀ q, s.scans.lookup k = some q → Misses s.pool c q :=
      fun q => h.misses k _ q hl hsucc
    rcases hcases with ⟨place, hadvance, rfl⟩ | ⟨-, rfl⟩ | ⟨i, nextIndex, hadvance, rfl⟩
    · refine ⟨h.pool, fun k' op place' hl' hsucc' hk' => ?_⟩
      rcases Table.lookup_of_insert hk' with ⟨-, rfl⟩ | hk'
      · exact misses_advance h.pool hmiss hadvance
      · exact h.misses k' op place' hl' hsucc' hk'
    · refine ⟨h.pool.leave _ rfl (fun _ => id) rfl, fun k' op place' hl' hsucc' hk' => ?_⟩
      exact h.misses k' op place' (Table.lookup_of_erase hl') hsucc' (Table.lookup_of_erase hk')
    · have hne := ne_of_misses hmiss hadvance
      refine ⟨h.pool.goto { s.pool with
        nextIndex, inflight := Function.update s.pool.inflight i (s.pool.inflight i + 1) }
        rfl (fun _ => id) rfl fun _ hi => hne (Option.some.inj hi),
        fun k' op place' hl' hsucc' hk' => ?_⟩
      have hk : k' ≠ k := by
        rintro rfl
        simp at hk'
      exact h.misses k' op place' ((AList.lookup_insert_ne hk).symm.trans hl') hsucc'
        (Table.lookup_of_erase hk')

theorem Barred.not_picked (h : s.Barred setup c) (hS : s.Sound) {a : Act}
    (ha : s.succeeds a = true) : picked setup s a ≠ some c := by
  cases a with
  | act a =>
    intro hpick
    cases hpick
  | scan k =>
    intro hpick
    unfold picked at hpick
    dsimp only at hpick
    split at hpick
    · rename_i kind attempted failed hl
      have hsucc : Operation.succeeding ⟨kind, .selecting, attempted, failed⟩ = true := by
        simpa only [succeeds, hl, Option.any_some] using ha
      obtain rfl : attempted = [] := hS.pool.fresh k _ hl hsucc
      split at hpick
      · cases hpick
      · rename_i selected hadvance
        obtain ⟨⟨i, nextIndex⟩, rfl, hi⟩ := Option.map_eq_some_iff.1 hpick
        exact ne_of_misses (fun q => h.misses k _ q hl hsucc) hadvance hi
    · cases hpick

/-- **A barred channel is not selected**, as long as calls succeed. -/
theorem Barred.not_selectable (h : s.Barred setup c) (hS : s.Sound) : ¬ s.Selectable setup c := by
  rintro ⟨es, t, halong, -, hmem⟩
  obtain ⟨pre, a, post, u, rfl, hpre, hpick⟩ := exists_of_mem_observe hmem
  have hinv : u.Barred setup c ∧ u.Sound :=
    exec_along (I := fun u => u.Barred setup c ∧ u.Sound)
      (fun _ _ _ hI ha hs => ⟨hI.1.step hI.2 ha hs, hI.2.step hs⟩) ⟨h, hS⟩ halong.of_append hpre
  exact hinv.1.not_picked hinv.2 (along_iff.1 halong pre a post u rfl hpre) hpick

/-! ### A call that selects alone -/

/-- Calls whose attempts all succeed lead from one state to the other, and these are the
channels that they select. -/
def Comes (setup : PoolSetup) (s t : ScanningPool) (channels : List ℕ) : Prop :=
  ∃ es, Along (step setup) (fun s a => s.succeeds a = true) s es ∧
    exec (step setup) s es = some t ∧ observe (step setup) (picked setup) s es = channels

theorem Comes.refl (s : ScanningPool) : Comes setup s s [] := ⟨[], trivial, rfl, rfl⟩

theorem Comes.head {a : Act} {u : ScanningPool} {channels : List ℕ} (ha : s.succeeds a = true)
    (hs : step setup s a = some u) (h : Comes setup u t channels) :
    Comes setup s t ((picked setup s a).toList ++ channels) := by
  obtain ⟨es, halong, hex, hobserve⟩ := h
  refine ⟨a :: es, Along.cons ha hs halong, ?_, ?_⟩
  · rw [exec_cons, hs]
    exact hex
  · simp only [observe, hs, Option.elim_some, hobserve]

theorem Comes.trans {u : ScanningPool} {channels channels' : List ℕ}
    (h : Comes setup s t channels) (h' : Comes setup t u channels') :
    Comes setup s u (channels ++ channels') := by
  obtain ⟨es, halong, hex, hobserve⟩ := h
  obtain ⟨fs, halong', hex', hobserve'⟩ := h'
  refine ⟨es ++ fs, halong.append hex halong', ?_, ?_⟩
  · rw [exec_append, hex]
    exact hex'
  · rw [observe_append hex, hobserve, hobserve']

theorem Comes.sound {channels : List ℕ} (h : Comes setup s t channels) (hS : s.Sound) :
    t.Sound := by
  obtain ⟨es, -, hex, -⟩ := h
  exact exec_invariant hS (fun _ _ _ h hs => h.step hs) hex

/-- The call `k` is at this place in `SelectChannel`. -/
def placed (s : ScanningPool) (k : ℕ) (place : ScanPlace) : ScanningPool :=
  { s with scans := s.scans.insert k place }

section Alone

variable {kind : OperationKind} {attempted : List ℕ} {failed : Bool}
  (hl : s.pool.operations.lookup k = some ⟨kind, .selecting, attempted, failed⟩)
  (hsucc : Operation.succeeding ⟨kind, .selecting, attempted, failed⟩ = true)

include hl hsucc

/-- The call goes on by a step that does not select yet. -/
theorem comes_go {place place' : ScanPlace}
    (h : advance setup s.pool attempted (some place) = .go place') {channels : List ℕ}
    (hrest : Comes setup (s.placed k place') t channels) :
    Comes setup (s.placed k place) t channels := by
  have hl' : (s.placed k place).pool.operations.lookup k =
      some ⟨kind, .selecting, attempted, failed⟩ := hl
  have hplace : (s.placed k place).scans.lookup k = some place := AList.lookup_insert _
  have hadvance : advance setup (s.placed k place).pool attempted
      ((s.placed k place).scans.lookup k) = .go place' := hplace ▸ h
  have hstep : step setup (s.placed k place) (.scan k) = some (s.placed k place') := by
    simp only [step, hl', hadvance]
    simp [placed]
  have hpick : picked setup (s.placed k place) (.scan k) = none := by
    simp only [picked, hl', hadvance]
  have := Comes.head (by simpa only [succeeds, hl', Option.any_some] using hsucc) hstep hrest
  rwa [hpick] at this

variable (setup) in
/-- The loop over the channels collects the healthy ones. -/
theorem comes_scanning (rest candidates : List ℕ) :
    Comes setup (s.placed k (.scanning rest candidates))
      (s.placed k (.scanning []
        (candidates ++ rest.filter fun i => (s.pool.health i).healthy && i ∉ attempted))) [] := by
  induction rest generalizing candidates with
  | nil =>
    rw [List.filter_nil, List.append_nil]
    exact Comes.refl _
  | cons i rest ih =>
    refine comes_go hl hsucc rfl ?_
    have := ih (if (s.pool.health i).healthy && i ∉ attempted then candidates ++ [i]
      else candidates)
    rw [List.filter_cons]
    split_ifs at this ⊢ with hi
    · rwa [List.append_assoc] at this
    · exact this

/-- `LeastInflightBalancer` reads the requests in flight of all candidates. -/
theorem comes_balancing (hstrategy : setup.strategy = .kLeastInflight) (candidates : List ℕ)
    (n : ℕ) (hn : n ≤ candidates.length) :
    Comes setup (s.placed k (.balancing candidates ((candidates.take (candidates.length - n)).map
      s.pool.inflight)))
      (s.placed k (.balancing candidates (candidates.map s.pool.inflight))) [] := by
  induction n with
  | zero =>
    rw [Nat.sub_zero, List.take_length]
    exact Comes.refl _
  | succ n ih =>
    refine comes_go hl hsucc ?_ (ih (by omega))
    have hlen : ((candidates.take (candidates.length - (n + 1))).map s.pool.inflight).length =
        candidates.length - (n + 1) := by
      rw [List.length_map, List.length_take]
      omega
    have hlt : candidates.length - (n + 1) < candidates.length := by omega
    have hnext : candidates.length - n = candidates.length - (n + 1) + 1 := by omega
    simp only [advance, hstrategy, hlen, hlt, if_true]
    rw [hnext, List.take_add_one, List.getElem?_eq_getElem hlt, List.map_append,
      List.getD_eq_getElem _ _ hlt]
    rfl

variable (setup) in
/-- **A call that runs alone selects as the pool does.**  It comes to a place from which
its next step is the one that `selectChannel` says. -/
theorem exists_comes_select : ∃ place,
    Comes setup (s.placed k (.scanning (List.range setup.channels) [])) (s.placed k place) [] ∧
      advance setup s.pool attempted (some place) =
        .select (s.pool.selectChannel setup attempted) := by
  have hscan := comes_scanning setup hl hsucc (List.range setup.channels) []
  rw [List.nil_append] at hscan
  change Comes setup _ (s.placed k (.scanning [] (s.pool.candidates setup attempted))) [] at hscan
  cases hcand : s.pool.candidates setup attempted with
  | nil =>
    refine ⟨_, hscan, ?_⟩
    simp [hcand, advance, RpcClientPool.selectChannel]
  | cons i rest =>
    have hne : s.pool.candidates setup attempted ≠ [] := by simp [hcand]
    have hgo : Comes setup (s.placed k (.scanning [] (s.pool.candidates setup attempted)))
        (s.placed k (.balancing (s.pool.candidates setup attempted) [])) [] := by
      refine comes_go hl hsucc ?_ (Comes.refl _)
      simp [hcand, advance]
    cases hstrategy : setup.strategy with
    | kRoundRobin =>
      refine ⟨_, hscan.trans hgo, ?_⟩
      simp only [advance, hstrategy, RpcClientPool.selectChannel, if_neg hne,
        LoadBalanceStrategy.select, List.length_map]
    | kLeastInflight =>
      have hread := comes_balancing hl hsucc hstrategy (s.pool.candidates setup attempted)
        (s.pool.candidates setup attempted).length le_rfl
      rw [Nat.sub_self, List.take_zero, List.map_nil] at hread
      refine ⟨_, (hscan.trans hgo).trans hread, ?_⟩
      simp only [advance, hstrategy, RpcClientPool.selectChannel, if_neg hne, List.length_map,
        lt_irrefl, if_false]

end Alone

/-! ### Channels that calls come back to -/

/-- If the other scans are where they were and the operation of the step has none, then
still no call without a failure is inside `SelectChannel`. -/
theorem Quiet.of_step (hq : s.Quiet) {a : RpcClientPool.Act}
    (h : s.pool.step setup a = some t.pool)
    (hother : ∀ k, k ≠ actor a → s.scans.lookup k = none → t.scans.lookup k = none)
    (hactor : t.scans.lookup (actor a) = none) : t.Quiet := by
  intro k op hl hsucc
  by_cases hk : k = actor a
  · exact hk ▸ hactor
  · exact hother k hk (hq k op ((lookup_step h hk).symm.trans hl) hsucc)

/-- No scan is under way of the operation that takes a step of the pool. -/
theorem lookup_actor (hS : s.Sound) {a : RpcClientPool.Act} {p' : RpcClientPool}
    (hselect : isSelect a = false) (h : s.pool.step setup a = some p') :
    s.scans.lookup (actor a) = none := by
  cases hscan : s.scans.lookup (actor a) with
  | none => rfl
  | some place =>
    obtain ⟨kind, attempted, failed, hl⟩ := hS.selecting _ place hscan
    exact absurd rfl (ne_actor h hselect hl)

/-- The step in which `SelectChannel` returns what the pool selects. -/
theorem exists_step_placed {kind : OperationKind} {attempted : List ℕ} {failed : Bool}
    {place : ScanPlace} {p' : RpcClientPool}
    (hl : s.pool.operations.lookup k = some ⟨kind, .selecting, attempted, failed⟩)
    (hadvance : advance setup s.pool attempted (some place) =
      .select (s.pool.selectChannel setup attempted))
    (h : s.pool.step setup (.select k) = some p') :
    ∃ t, step setup (s.placed k place) (.scan k) = some t ∧ t.pool = p' ∧
      t.scans = (s.scans.insert k place).erase k ∧
      picked setup (s.placed k place) (.scan k) =
        RpcClientPool.picked setup s.pool (.select k) := by
  have hplace : (s.placed k place).scans.lookup k = some place := AList.lookup_insert _
  have hsame : (s.placed k place).pool = s.pool := rfl
  simp only [RpcClientPool.step, hl] at h
  simp only [step, picked, RpcClientPool.picked, hl, hplace, hsame, hadvance, and_true]
  cases hselected : s.pool.selectChannel setup attempted with
  | none =>
    rw [hselected] at h
    exact ⟨_, rfl, Option.some.inj h, rfl⟩
  | some selected =>
    rw [hselected] at h
    exact ⟨_, rfl, Option.some.inj h, rfl⟩

/-- `SelectChannel` from its first load to its return, alone. -/
theorem exists_comes_scan (hq : s.Quiet) (ha : s.pool.succeeds (.select k) = true)
    {p' : RpcClientPool} (h : s.pool.step setup (.select k) = some p') :
    ∃ t, Comes setup s t (RpcClientPool.picked setup s.pool (.select k)).toList ∧
      t.pool = p' ∧ t.Quiet := by
  obtain ⟨kind, attempted, failed, hl, -⟩ := RpcClientPool.select_cases h
  have hsucc : Operation.succeeding ⟨kind, .selecting, attempted, failed⟩ = true := by
    simpa only [RpcClientPool.succeeds, hl, Option.any_some] using ha
  have hsucceeds : ∀ u : ScanningPool, u.pool = s.pool → u.succeeds (.scan k) = true := by
    intro u hu
    simpa only [succeeds, hu, hl, Option.any_some] using hsucc
  have hnone : s.scans.lookup k = none := hq k _ hl hsucc
  have hfirst : step setup s (.scan k) =
      some (s.placed k (.scanning (List.range setup.channels) [])) := by
    simp only [step, hl, hnone, advance]
    rfl
  have hpick : picked setup s (.scan k) = none := by
    simp only [picked, hl, hnone, advance]
  obtain ⟨place, hcomes, hadvance⟩ := exists_comes_select setup hl hsucc
  obtain ⟨t, hlast, hpool, hscans, hpicked⟩ := exists_step_placed hl hadvance h
  have hall := Comes.head (hsucceeds s rfl) hfirst
    (hcomes.trans (Comes.head (hsucceeds _ rfl) hlast (Comes.refl t)))
  rw [hpick, hpicked, Option.toList_none, List.nil_append, List.nil_append,
    List.append_nil] at hall
  refine ⟨t, hall, hpool, hq.of_step (hpool ▸ h) (fun k' hk hlookup => ?_) ?_⟩
  · have hk : k' ≠ k := hk
    rw [hscans, AList.lookup_erase_ne hk, AList.lookup_insert_ne hk]
    exact hlookup
  · rw [hscans]
    exact AList.lookup_erase _ _

/-- A step of the pool, for a call that succeeds. -/
theorem exists_comes_step (hS : s.Sound) (hq : s.Quiet) {a : RpcClientPool.Act}
    (ha : s.pool.succeeds a = true) {p' : RpcClientPool} (h : s.pool.step setup a = some p') :
    ∃ t, Comes setup s t (RpcClientPool.picked setup s.pool a).toList ∧ t.pool = p' ∧
      t.Quiet := by
  cases hselect : isSelect a with
  | true =>
    cases a with
    | select k => exact exists_comes_scan hq ha h
    | _ => cases hselect
  | false =>
    have hstep : step setup s (.act a) = some { s with pool := p' } := by
      simp [step, hselect, h]
    have hpicked : RpcClientPool.picked setup s.pool a = none := by
      cases a with
      | select k => cases hselect
      | _ => rfl
    refine ⟨{ s with pool := p' }, ?_, rfl, hq.of_step (t := { s with pool := p' }) h
      (fun _ _ => id) (lookup_actor hS hselect h)⟩
    have := Comes.head (a := .act a) ha hstep (Comes.refl _)
    rwa [hpicked]

/-- **What the pool can do the pool with scans can do.**  By induction on the run, in which
each `SelectChannel` goes from its first load to its return. -/
theorem exists_comes {es : List RpcClientPool.Act} {p' : RpcClientPool} (hS : s.Sound)
    (hq : s.Quiet) (halong : Along (RpcClientPool.step setup)
      (fun p a => p.succeeds a = true) s.pool es)
    (hex : exec (RpcClientPool.step setup) s.pool es = some p') :
    ∃ t, Comes setup s t
      (observe (RpcClientPool.step setup) (RpcClientPool.picked setup) s.pool es) := by
  induction es generalizing s with
  | nil => exact ⟨s, Comes.refl s⟩
  | cons a es ih =>
    obtain ⟨p, hp, hex⟩ := Option.bind_eq_some_iff.1 hex
    obtain ⟨t, hcomes, rfl, hq'⟩ := exists_comes_step hS hq halong.1 hp
    obtain ⟨u, hrest⟩ := ih (hcomes.sound hS) hq' (halong.2 _ hp) hex
    refine ⟨u, ?_⟩
    simp only [observe, hp, Option.elim_some]
    exact hcomes.trans hrest

theorem Quiet.selectable (hS : s.Sound) (hq : s.Quiet) (h : s.pool.Selectable setup c) :
    s.Selectable setup c := by
  obtain ⟨es, p', halong, hex, hmem⟩ := h
  obtain ⟨t, fs, halong', hex', hobserve⟩ := exists_comes hS hq halong hex
  exact ⟨fs, t, halong', hex', hobserve ▸ hmem⟩

/-- A channel that is not eligible is barred, while no scan of such a call is under way. -/
theorem Quiet.barred (hq : s.Quiet) (h : ¬ s.pool.Eligible setup c) : s.Barred setup c where
  pool := RpcClientPool.barred_of_not_eligible h
  misses := by
    intro k op place hl hsucc hk
    rw [hq k op hl hsucc] at hk
    cases hk

theorem Sound.exec {es : List Act} (hs : Transition.exec (ScanningPool.step setup) {} es = some s) :
    s.Sound :=
  exec_invariant Sound.init (fun _ _ _ h hs => h.step hs) hs

/-- **The channels that calls can come back to.**  In every state that a pool reaches, by
any interleaving of the loads and stores of its operations, in which no call without a
failure is inside `SelectChannel`, calls whose attempts all succeed can go on to select a
channel if and only if it is eligible. -/
theorem selectable_iff {es : List Act} (hs : exec (step setup) {} es = some s) (hq : s.Quiet)
    (hlt : c < setup.channels) : s.Selectable setup c ↔ s.pool.Eligible setup c := by
  have hS := Sound.exec hs
  constructor
  · intro h
    by_contra hnot
    exact (hq.barred hnot).not_selectable hS h
  · intro h
    exact hq.selectable hS (RpcClientPool.selectable_of_eligible hS.pool hlt h)

/-- A pool of two channels; `Warmup` connects the first and not the second. -/
def coldChannel : List Act :=
  [.act (.start 0 .warmup), .act (.connect 0 true), .act (.record 0), .act (.record 0),
    .act (.connect 0 false), .act (.record 0), .act (.record 0)]

/-- After `Warmup` the second channel is unhealthy and no operation is under way. -/
theorem coldChannel_quiet :
    ∃ s, exec (step { channels := 2 }) {} coldChannel = some s ∧ s.Quiet ∧
      ¬ s.pool.Eligible { channels := 2 } 1 := by
  refine ⟨_, rfl, fun k op hl => ?_, ?_⟩
  · cases hl
  · rintro (hhealthy | ⟨hzero, -⟩ | ⟨k, op, hl, -⟩)
    · cases hhealthy
    · cases hzero
    · cases hl

theorem selectable_iff_coldChannel :
    ∃ s, exec (step { channels := 2 }) {} coldChannel = some s ∧
      (s.Selectable { channels := 2 } 0 ↔ s.pool.Eligible { channels := 2 } 0) := by
  obtain ⟨s, hs, hq, -⟩ := coldChannel_quiet
  exact ⟨s, hs, selectable_iff hs hq (by decide)⟩

/-- The second channel is never selected again, as long as calls succeed. -/
theorem coldChannel_not_selectable :
    ¬ ∀ (setup : PoolSetup) (es : List Act) (s : ScanningPool) (c : ℕ),
      exec (step setup) {} es = some s → c < setup.channels → s.Selectable setup c := by
  intro h
  obtain ⟨s, hs, hq, hnot⟩ := coldChannel_quiet
  exact (hq.barred hnot).not_selectable (Sound.exec hs) (h _ coldChannel s 1 hs (by decide))

end ScanningPool
end Client
end MiniRpc
