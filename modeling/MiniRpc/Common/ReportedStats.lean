/-
# What the thread pool reports

`GetStatsSnapshot` of `src/common/thread_pool.cpp` reads the counters one by one.  A
push can be seen before it is counted: a worker that is faster subtracts what nobody has
added, and `pending` is then just below `2 ^ 64` (`subtracted_before_counted`); or it
completes a task that is not among the submitted ones.  In a run in which no worker
overtakes the calls of `Submit` all numbers are right, and they are right in every pool
at rest (`counters_consistent`).
-/

import MiniRpc.Common.PoolStats
import Mathlib.Algebra.Order.BigOperators.Group.Finset

namespace MiniRpc
namespace Common
namespace MeteredPool

open Transition

variable {cfg : PoolConfig} {s s' : MeteredPool} {t i : ℕ}

/-! ### The numbers that are reported -/

/-- How many calls have pushed a task and not yet added it to `submitted_tasks_`. -/
def unsubmittedCount (cfg : PoolConfig) (s : MeteredPool) : ℕ :=
  ∑ i ∈ Finset.range cfg.threads, ((s.pool.data i).won.length - (s.counters i).submitted.length)

/-- How many tasks have a place and are not yet in `completed_tasks_`. -/
def unfinished (cfg : PoolConfig) (s : MeteredPool) : ℕ :=
  ∑ i ∈ Finset.range cfg.threads, ((s.pool.data i).won.length - (s.counters i).completed)

/-- No worker overtakes the calls of `Submit`: when it subtracts its batch from `pending`, no
more calls have pushed to it without counting than its queue has tasks, and when it adds it to
`completed_tasks_`, no more calls have pushed without counting than there are other tasks to
finish; and `submitted_tasks_` does not wrap around. -/
def CountsFirst (cfg : PoolConfig) (s : MeteredPool) : Event → Prop
  | .tally i =>
    (∀ count, (s.counters i).tally = .subtract count →
      (s.pool.data i).won.length - (s.counters i).counted.length ≤
        (s.pool.data i).queue.line.length) ∧
    ∀ count, (s.counters i).tally = .complete count →
      s.unsubmittedCount cfg + count ≤ s.unfinished cfg
  | .count t => ∀ task idx, s.owes t = .submitted task idx →
      ∑ i ∈ Finset.range cfg.threads, (s.counters i).submitted.length + 1 < 2 ^ 64
  | _ => True

instance CountsFirst.decidable (cfg : PoolConfig) (s : MeteredPool) :
    ∀ e, Decidable (s.CountsFirst cfg e)
  | .tally i =>
    match h : (s.counters i).tally with
    | .subtract _ => decidable_of_iff ((s.pool.data i).won.length -
        (s.counters i).counted.length ≤ (s.pool.data i).queue.line.length)
        (by simp [CountsFirst, h])
    | .complete count => decidable_of_iff (s.unsubmittedCount cfg + count ≤ s.unfinished cfg)
        (by simp [CountsFirst, h])
    | .outside | .activate _ | .inside _ | .deactivate _ => isTrue (by simp [CountsFirst, h])
  | .count t =>
    match h : s.owes t with
    | .submitted _ _ => decidable_of_iff (∑ i ∈ Finset.range cfg.threads,
        (s.counters i).submitted.length + 1 < 2 ^ 64) (by simp [CountsFirst, h])
    | .nothing | .pending _ _ => isTrue (by simp [CountsFirst, h])
  | .pool _ | .getStatsSnapshot _ | .load _ => isTrue trivial

/-- What `GetStatsSnapshot` read of `completed_tasks_` was submitted, and what it read of the
first `n` workers was pushed. -/
def Backed (n : ℕ) (s : MeteredPool) (r : StatsSnapshot) : Prop :=
  r.completedTasks.toNat ≤ s.submittedTasks.toNat ∧
    r.queueSize.toNat ≤ ∑ i ∈ Finset.range n, (s.pool.data i).won.length

/-- The counters, and what was reported of them, agree with the tasks. -/
structure Consistent (cfg : PoolConfig) (s : MeteredPool) : Prop where
  pending : ∀ i, (s.counters i).pending.toNat ≤ (s.pool.data i).won.length
  completed : s.completedTasks.toNat ≤ s.submittedTasks.toNat
  snapshots : ∀ r ∈ s.snapshots, s.Backed cfg.threads r

/-- What holds in every state of a run whose steps all count first. -/
structure Settled (cfg : PoolConfig) (s : MeteredPool) : Prop where
  accounted : s.Accounted cfg
  subtracted : ∀ i, (s.counters i).subtracted ≤ (s.counters i).counted.length
  completed : ∑ i ∈ Finset.range cfg.threads, (s.counters i).completed ≤
    ∑ i ∈ Finset.range cfg.threads, (s.counters i).submitted.length
  bounded : ∑ i ∈ Finset.range cfg.threads, (s.counters i).submitted.length < 2 ^ 64
  readers : ∀ u place r, s.readers u = some (place, r) →
    place.upto ≤ cfg.threads ∧ s.Backed place.upto r
  snapshots : ∀ r ∈ s.snapshots, s.Backed cfg.threads r

/-- `pending` is what was added less what was subtracted, so it does not exceed what was
pushed. -/
theorem Settled.pending_le (h : s.Settled cfg) (i : ℕ) :
    (s.counters i).pending.toNat ≤ (s.pool.data i).won.length := by
  have hle : (s.counters i).counted.length ≤ (s.pool.data i).won.length :=
    h.accounted.counted.length_le i
  have hsub := h.subtracted i
  rw [h.accounted.pending i, BitVec.toNat_sub, BitVec.toNat_ofNat, BitVec.toNat_ofNat]
  omega

theorem Settled.submitted_toNat (h : s.Settled cfg) : s.submittedTasks.toNat =
    ∑ i ∈ Finset.range cfg.threads, (s.counters i).submitted.length := by
  rw [h.accounted.submittedTasks, BitVec.toNat_ofNat, Nat.mod_eq_of_lt h.bounded]

theorem Settled.completed_le (h : s.Settled cfg) :
    s.completedTasks.toNat ≤ s.submittedTasks.toNat := by
  rw [h.submitted_toNat, h.accounted.completedTasks, BitVec.toNat_ofNat]
  exact (Nat.mod_le _ _).trans h.completed

theorem Settled.consistent (h : s.Settled cfg) : s.Consistent cfg :=
  ⟨h.pending_le, h.completed_le, h.snapshots⟩

theorem Backed.mono {n : ℕ} {r : StatsSnapshot} (h : s.Backed n r)
    (hsubmitted : s.submittedTasks.toNat ≤ s'.submittedTasks.toNat)
    (hwon : ∀ i, (s.pool.data i).won.length ≤ (s'.pool.data i).won.length) : s'.Backed n r :=
  ⟨h.1.trans hsubmitted, h.2.trans (Finset.sum_le_sum fun i _ => hwon i)⟩

/-- Steps of the threads that do not read. -/
theorem Settled.of_grows (h : s.Settled cfg) (haccounted : s'.Accounted cfg)
    (hsubtracted : ∀ i, (s'.counters i).subtracted ≤ (s'.counters i).counted.length)
    (hcompleted : ∑ i ∈ Finset.range cfg.threads, (s'.counters i).completed ≤
      ∑ i ∈ Finset.range cfg.threads, (s'.counters i).submitted.length)
    (hbounded : ∑ i ∈ Finset.range cfg.threads, (s'.counters i).submitted.length < 2 ^ 64)
    (hgrows : s.submittedTasks.toNat ≤ s'.submittedTasks.toNat)
    (hwon : ∀ i, (s.pool.data i).won.length ≤ (s'.pool.data i).won.length)
    (hreaders : s'.readers = s.readers) (hsnapshots : s'.snapshots = s.snapshots) :
    s'.Settled cfg := by
  refine ⟨haccounted, hsubtracted, hcompleted, hbounded, fun u place r hu => ?_, fun r hr => ?_⟩
  · rw [hreaders] at hu
    obtain ⟨hupto, hbacked⟩ := h.readers u place r hu
    exact ⟨hupto, hbacked.mono hgrows hwon⟩
  · rw [hsnapshots] at hr
    exact (h.snapshots r hr).mono hgrows hwon

/-- A step of the pool does not touch the numbers, and no task loses its place. -/
theorem work_frame {e : ThreadPool.Event} (hstep : s.work cfg e = some s') :
    (∀ i, ∃ tally, s'.counters i = { s.counters i with tally }) ∧
    s'.submittedTasks = s.submittedTasks ∧ s'.readers = s.readers ∧
    s'.snapshots = s.snapshots ∧
    ∀ i, (s.pool.data i).won.length ≤ (s'.pool.data i).won.length := by
  have hmoves : ∀ {pool : ThreadPool} {t : ℕ}, ThreadPool.Moves s.pool pool t →
      ∀ i, (s.pool.data i).won.length ≤ (pool.data i).won.length := by
    intro pool t h i
    rcases h.won with ⟨-, hwon⟩ | ⟨task, j, -, -, -, hwon⟩
    · rw [hwon]
    · rw [congrFun hwon i, Function.update_apply]
      split_ifs with hi
      · rw [hi, List.length_append]
        exact Nat.le_add_right _ _
      · exact le_rfl
  have hsame : ∀ i, ∃ tally, s.counters i = { s.counters i with tally } := fun i => ⟨_, rfl⟩
  cases e with
  | client t k =>
    simp only [MeteredPool.work] at hstep
    split_ifs at hstep
    obtain ⟨pool, hpool, rfl⟩ := Option.map_eq_some_iff.1 hstep
    exact ⟨hsame, rfl, rfl, rfl, hmoves (ThreadPool.client_moves hpool)⟩
  | worker i =>
    obtain ⟨tally, htally, hstep⟩ := Option.bind_eq_some_iff.1 hstep
    obtain ⟨pool, hpool, hstep⟩ := Option.bind_eq_some_iff.1 hstep
    obtain rfl := Option.some.inj hstep
    refine ⟨fun j => ?_, rfl, rfl, rfl, fun j => ?_⟩
    · change ∃ tally', Function.update s.counters i _ j = _
      rw [Function.update_apply]
      split_ifs with hj
      · exact ⟨tally, by rw [hj]⟩
      · exact hsame j
    · simp only [ThreadPool.step] at hpool
      split_ifs at hpool
      obtain ⟨d, hd, rfl⟩ := Option.map_eq_some_iff.1 hpool
      change _ ≤ (Function.update s.pool.data i d j).won.length
      rw [Function.update_apply]
      split_ifs with hj
      · rw [hj, (ThreadPool.work_cases hd).1]
      · exact le_rfl
  | submit t valid idx =>
    obtain ⟨pool, hpool, rfl⟩ := Option.map_eq_some_iff.1 hstep
    exact ⟨hsame, rfl, rfl, rfl, hmoves (ThreadPool.step_moves hpool (Or.inl ⟨valid, idx, rfl⟩)).1⟩
  | stop t =>
    obtain ⟨pool, hpool, rfl⟩ := Option.map_eq_some_iff.1 hstep
    exact ⟨hsame, rfl, rfl, rfl, hmoves (ThreadPool.step_moves hpool (Or.inr (Or.inl rfl))).1⟩
  | join t =>
    obtain ⟨pool, hpool, rfl⟩ := Option.map_eq_some_iff.1 hstep
    exact ⟨hsame, rfl, rfl, rfl, hmoves (ThreadPool.step_moves hpool (Or.inr (Or.inr rfl))).1⟩
  | spurious i waiter =>
    obtain ⟨pool, hpool, rfl⟩ := Option.map_eq_some_iff.1 hstep
    refine ⟨hsame, rfl, rfl, rfl, fun j => ?_⟩
    simp only [ThreadPool.step] at hpool
    split_ifs at hpool
    obtain rfl := Option.some.inj hpool
    change _ ≤ (Function.update s.pool.data i _ j).won.length
    rw [Function.update_apply]
    split_ifs with hj
    · rw [hj]
    · exact le_rfl

theorem Settled.work (h : s.Settled cfg) {e : ThreadPool.Event}
    (hstep : s.work cfg e = some s') : s'.Settled cfg := by
  obtain ⟨hcounters, hsubmitted, hreaders, hsnapshots, hwon⟩ := work_frame hstep
  have hfield : ∀ {β : Type} (f : WorkerCounters → β), (∀ c tally, f { c with tally } = f c) →
      (fun i => f (s'.counters i)) = fun i => f (s.counters i) := by
    intro β f hf
    funext i
    obtain ⟨tally, hi⟩ := hcounters i
    rw [hi, hf]
  have hlists := hfield (fun c => c.submitted.length) fun _ _ => rfl
  have hsums := hfield WorkerCounters.completed fun _ _ => rfl
  refine h.of_grows (h.accounted.work hstep) (fun i => ?_) ?_ ?_ ?_ hwon hreaders hsnapshots
  · obtain ⟨tally, hi⟩ := hcounters i
    rw [hi]
    exact h.subtracted i
  · rw [hlists, hsums]
    exact h.completed
  · rw [hlists]
    exact h.bounded
  · rw [hsubmitted]

/-- What the two conditions on a worker say of the numbers. -/
theorem Accounted.subtracted_le_iff (h : s.Accounted cfg) {count : ℕ}
    (htally : (s.counters i).tally = .subtract count) :
    (s.pool.data i).won.length - (s.counters i).counted.length ≤
        (s.pool.data i).queue.line.length ↔
      (s.counters i).subtracted + count ≤ (s.counters i).counted.length := by
  have htallied := h.tallied i
  rw [Tallied, htally] at htallied
  obtain ⟨batch, hplace, hcount, hsub, -⟩ := htallied
  have hwon := congrArg List.length (h.traced.history i)
  rw [hplace] at hwon
  simp only [WorkerPlace.batch, List.length_append, TicketQueue.values_length] at hwon
  have hle : (s.counters i).counted.length ≤ (s.pool.data i).won.length := h.counted.length_le i
  omega

theorem Accounted.completed_le_won (h : s.Accounted cfg) (i : ℕ) :
    (s.counters i).completed ≤ (s.pool.data i).won.length := by
  have hwon := congrArg List.length (h.traced.history i)
  simp only [List.length_append] at hwon
  have htallied := h.tallied i
  unfold Tallied at htallied
  split at htallied
  · omega
  · obtain ⟨batch, hplace, hcount, hsub, hcomp⟩ := htallied
    omega
  · obtain ⟨batch, hplace, hcount, hsub, hcomp⟩ := htallied
    omega
  · obtain ⟨batch, hplace, hsub, hcomp⟩ := htallied
    rw [hplace] at hwon
    simp only [WorkerPlace.batch] at hwon
    omega
  · omega
  · omega

theorem Accounted.completed_le_iff (h : s.Accounted cfg) (count : ℕ) :
    s.unsubmittedCount cfg + count ≤ s.unfinished cfg ↔
      ∑ i ∈ Finset.range cfg.threads, (s.counters i).completed + count ≤
        ∑ i ∈ Finset.range cfg.threads, (s.counters i).submitted.length := by
  unfold unsubmittedCount unfinished
  have hle : ∀ i ∈ Finset.range cfg.threads,
      (s.counters i).submitted.length ≤ (s.pool.data i).won.length :=
    fun i _ => h.submitted.length_le i
  have hle' : ∀ i ∈ Finset.range cfg.threads,
      (s.counters i).completed ≤ (s.pool.data i).won.length := fun i _ => h.completed_le_won i
  rw [Finset.sum_tsub_distrib _ hle, Finset.sum_tsub_distrib _ hle']
  have := Finset.sum_le_sum hle
  have := Finset.sum_le_sum hle'
  omega

/-- The counters of one worker are now `c`. -/
theorem Settled.update (h : s.Settled cfg) (haccounted : s'.Accounted cfg) {c : WorkerCounters}
    (hcounters : s'.counters = (s.setCounters i c).counters) (hpool : s'.pool = s.pool)
    (hsubtracted : c.subtracted ≤ c.counted.length)
    (hcompleted : ∑ j ∈ Finset.range cfg.threads,
        Function.update (fun j => (s.counters j).completed) i c.completed j ≤
      ∑ j ∈ Finset.range cfg.threads,
        Function.update (fun j => (s.counters j).submitted.length) i c.submitted.length j)
    (hbounded : ∑ j ∈ Finset.range cfg.threads,
      Function.update (fun j => (s.counters j).submitted.length) i c.submitted.length j < 2 ^ 64)
    (hgrows : s.submittedTasks.toNat ≤ s'.submittedTasks.toNat)
    (hreaders : s'.readers = s.readers) (hsnapshots : s'.snapshots = s.snapshots) :
    s'.Settled cfg := by
  refine h.of_grows haccounted (fun j => ?_) ?_ ?_ hgrows (fun j => by rw [hpool]) hreaders
    hsnapshots
  · rw [hcounters]
    change (Function.update s.counters i c j).subtracted ≤
      (Function.update s.counters i c j).counted.length
    rw [Function.update_apply]
    split_ifs
    · exact hsubtracted
    · exact h.subtracted j
  · rw [hcounters, field_setCounters WorkerCounters.completed,
      field_setCounters fun c => c.submitted.length]
    exact hcompleted
  · rw [hcounters, field_setCounters fun c => c.submitted.length]
    exact hbounded

theorem Settled.count (h : s.Settled cfg) (hfirst : s.CountsFirst cfg (.count t))
    (hstep : s.count t = some s') : s'.Settled cfg := by
  have haccounted := h.accounted.count hstep
  unfold MeteredPool.count at hstep
  split at hstep
  · cases hstep
  · rename_i task idx howes
    split_ifs at hstep
    obtain rfl := Option.some.inj hstep
    refine h.update haccounted rfl rfl ?_ ?_ ?_ le_rfl rfl rfl
    · have := h.subtracted idx
      rw [List.length_append]
      exact this.trans (Nat.le_add_right _ _)
    · rw [Function.update_eq_self, Function.update_eq_self]
      exact h.completed
    · rw [Function.update_eq_self]
      exact h.bounded
  · rename_i task idx howes
    obtain rfl := Option.some.inj hstep
    obtain ⟨-, -, hi⟩ := h.accounted.owes t task idx (by rw [howes]; rfl)
    have hroom := hfirst task idx howes
    have hsum := sum_update_add hi (fun j => (s.counters j).submitted.length) 1
    refine h.update haccounted rfl rfl (h.subtracted idx) ?_ ?_ ?_ rfl rfl
    · rw [Function.update_eq_self, List.length_append, List.length_singleton, hsum]
      exact h.completed.trans (Nat.le_add_right _ _)
    · rw [List.length_append, List.length_singleton, hsum]
      exact hroom
    · change s.submittedTasks.toNat ≤ (s.submittedTasks + 1).toNat
      rw [BitVec.toNat_add, h.submitted_toNat]
      change _ ≤ (_ + 1) % 2 ^ 64
      rw [Nat.mod_eq_of_lt hroom]
      exact Nat.le_add_right _ _

theorem Settled.tally (h : s.Settled cfg) (hfirst : s.CountsFirst cfg (.tally i))
    (hstep : s.tally i = some s') : s'.Settled cfg := by
  have haccounted := h.accounted.tally hstep
  have hi := h.accounted.lt_of_tally hstep
  cases htally : (s.counters i).tally with
  | outside => simp [MeteredPool.tally, htally] at hstep
  | inside count => simp [MeteredPool.tally, htally] at hstep
  | subtract count =>
    simp only [MeteredPool.tally, htally] at hstep
    obtain rfl := Option.some.inj hstep
    refine h.update haccounted rfl rfl ?_ ?_ ?_ le_rfl rfl rfl
    · exact (h.accounted.subtracted_le_iff htally).1 (hfirst.1 count htally)
    · rw [Function.update_eq_self, Function.update_eq_self]
      exact h.completed
    · rw [Function.update_eq_self]
      exact h.bounded
  | activate count | deactivate count =>
    simp only [MeteredPool.tally, htally] at hstep
    obtain rfl := Option.some.inj hstep
    refine h.update haccounted rfl rfl (h.subtracted i) ?_ ?_ le_rfl rfl rfl
    · rw [Function.update_eq_self, Function.update_eq_self]
      exact h.completed
    · rw [Function.update_eq_self]
      exact h.bounded
  | complete count =>
    simp only [MeteredPool.tally, htally] at hstep
    obtain rfl := Option.some.inj hstep
    refine h.update haccounted rfl rfl (h.subtracted i) ?_ ?_ le_rfl rfl rfl
    · rw [Function.update_eq_self, sum_update_add hi fun j => (s.counters j).completed]
      exact (h.accounted.completed_le_iff count).1 (hfirst.2 count htally)
    · rw [Function.update_eq_self]
      exact h.bounded

/-- `GetStatsSnapshot` has read some more. -/
theorem Settled.setReader (h : s.Settled cfg) (u : ℕ) {place : Reading} {r : StatsSnapshot}
    (hupto : place.upto ≤ cfg.threads) (hbacked : s.Backed place.upto r) :
    (s.setReader u (some (place, r))).Settled cfg := by
  refine { h with accounted := { h.accounted with }, readers := fun v place' r' hv => ?_ }
  replace hv : Function.update s.readers u (some (place, r)) v = some (place', r') := hv
  rw [Function.update_apply] at hv
  split_ifs at hv
  · obtain ⟨rfl, rfl⟩ := Prod.mk.inj (Option.some.inj hv)
    exact ⟨hupto, hbacked⟩
  · exact h.readers v place' r' hv

theorem Settled.load (h : s.Settled cfg) {u : ℕ} (hstep : s.load cfg u = some s') :
    s'.Settled cfg := by
  unfold MeteredPool.load at hstep
  split at hstep
  · cases hstep
  · rename_i r hr
    obtain rfl := Option.some.inj hstep
    exact h.setReader u (Nat.zero_le _) (h.readers u _ r hr).2
  · rename_i r hr
    obtain rfl := Option.some.inj hstep
    exact h.setReader u (Nat.zero_le _) (h.readers u _ r hr).2
  · rename_i r hr
    obtain rfl := Option.some.inj hstep
    exact h.setReader u (Nat.zero_le _) ⟨h.completed_le, (h.readers u _ r hr).2.2⟩
  · rename_i r hr
    obtain rfl := Option.some.inj hstep
    exact h.setReader u (Nat.zero_le _) (h.readers u _ r hr).2
  · rename_i i r hr
    obtain ⟨hupto, hcompleted, hqueue⟩ := h.readers u _ r hr
    split_ifs at hstep with hend
    · obtain rfl := Option.some.inj hstep
      refine { h with accounted := { h.accounted with }, readers := ?_, snapshots := ?_ }
      · intro v place' r' hv
        replace hv : Function.update s.readers u none v = some (place', r') := hv
        rw [Function.update_apply] at hv
        split_ifs at hv
        exact h.readers v place' r' hv
      · intro r' hr'
        rcases List.mem_append.1 hr' with hr' | hr'
        · exact h.snapshots r' hr'
        · rw [List.mem_singleton.1 hr']
          exact ⟨hcompleted, hqueue.trans
            (Finset.sum_le_sum_of_subset (Finset.range_mono hupto))⟩
    · obtain rfl := Option.some.inj hstep
      rw [not_or, not_le] at hend
      refine h.setReader u hend.2 ⟨hcompleted, ?_⟩
      change (r.queueSize + (s.counters i).pending).toNat ≤
        ∑ j ∈ Finset.range (i + 1), (s.pool.data j).won.length
      rw [Finset.sum_range_succ, BitVec.toNat_add]
      exact (Nat.mod_le _ _).trans (Nat.add_le_add hqueue (h.pending_le i))

theorem Settled.step (h : s.Settled cfg) {e : Event} (hfirst : s.CountsFirst cfg e)
    (hstep : s.step cfg e = some s') : s'.Settled cfg := by
  cases e with
  | pool e => exact h.work hstep
  | count t => exact h.count hfirst hstep
  | tally i => exact h.tally hfirst hstep
  | getStatsSnapshot u =>
    simp only [MeteredPool.step] at hstep
    split at hstep
    · obtain rfl := Option.some.inj hstep
      exact h.setReader u (Nat.zero_le _) ⟨Nat.zero_le _, Nat.zero_le _⟩
    · cases hstep
  | load u => exact h.load hstep

theorem settled_init (cfg : PoolConfig) : ({} : MeteredPool).Settled cfg where
  accounted := accounted_init cfg
  subtracted := fun _ => le_rfl
  completed := by simp
  bounded := by simp
  readers := nofun
  snapshots := nofun

/-! ### A pool at rest -/

/-- The sum of the first `n` workers' `pending`. -/
def queueSize (s : MeteredPool) : ℕ → BitVec 64
  | 0 => 0
  | n + 1 => s.queueSize n + (s.counters n).pending

/-- No call of `Submit` is in progress, and no worker has a task to run. -/
structure Quiet (cfg : PoolConfig) (s : MeteredPool) : Prop where
  calls : ∀ t, (s.pool.clients t).unplaced = none ∧ (s.pool.clients t).placed = none ∧
    s.owes t = .nothing
  workers : ∀ i < cfg.threads, (s.pool.data i).place.batch = [] ∧
    (s.pool.data i).queue.line = [] ∧ (s.counters i).tally = .outside

theorem toFill_of_placed {c : Client} (h : c.placed = none) : c.toFill = none := by
  cases c with
  | filling task idx ticket slow => cases h
  | _ => rfl

/-- Then every task that has a place was counted in all four places. -/
theorem Accounted.of_quiet (h : s.Accounted cfg) (hquiet : s.Quiet cfg) (hi : i < cfg.threads) :
    (s.counters i).pending = 0 ∧
      (s.counters i).completed = (s.counters i).submitted.length := by
  obtain ⟨hbatch, hline, htally⟩ := hquiet.workers i hi
  have hnone : ∀ t, (s.pool.clients t).toFill = none ∧ s.owes t = .nothing :=
    fun t => ⟨toFill_of_placed (hquiet.calls t).2.1, (hquiet.calls t).2.2⟩
  have hcounted := h.counted.length_eq (h.traced.nodup i) (i := i) (by
    intro t task
    rw [uncounted, (hnone t).1, (hnone t).2]
    rintro ⟨⟩)
  have hsubmitted := h.submitted.length_eq (h.traced.nodup i) (i := i) (by
    intro t task
    rw [unsubmitted, (hnone t).1, (hnone t).2]
    rintro ⟨⟩)
  have hran : (s.pool.data i).ran = (s.pool.data i).won := by
    rw [← h.traced.history i, hbatch]
    simp [TicketQueue.values, hline]
  have htallied := h.tallied i
  rw [Tallied, htally] at htallied
  obtain ⟨-, hsub, hcomp⟩ := htallied
  constructor
  · rw [h.pending i, hcounted, hsub, hran, BitVec.sub_self]
    rfl
  · rw [hcomp, hran, hsubmitted]

/-! ### Workers that overtake -/

/-- The tasks with places are among those that were submitted. -/
theorem sum_won_le {pool : ThreadPool} (h : pool.Traced cfg) (n : ℕ) :
    ∑ i ∈ Finset.range n, (pool.data i).won.length ≤ pool.tasks := by
  have hdisjoint : ∀ i ∈ Finset.range n, ∀ j ∈ Finset.range n, i ≠ j →
      Disjoint (pool.data i).won.toFinset (pool.data j).won.toFinset := by
    intro i _ j _ hij
    refine Finset.disjoint_left.2 fun task hi hj => hij ?_
    exact h.apart i j task (List.mem_toFinset.1 hi) (List.mem_toFinset.1 hj)
  have hsub : (Finset.range n).biUnion (fun i => (pool.data i).won.toFinset) ⊆
      Finset.range pool.tasks := by
    intro task htask
    obtain ⟨i, -, hi⟩ := Finset.mem_biUnion.1 htask
    exact Finset.mem_range.2 (h.fresh i task (List.mem_toFinset.1 hi))
  calc ∑ i ∈ Finset.range n, (pool.data i).won.length
      = ∑ i ∈ Finset.range n, (pool.data i).won.toFinset.card :=
        Finset.sum_congr rfl fun i _ => (List.toFinset_card_of_nodup (h.nodup i)).symm
    _ = ((Finset.range n).biUnion fun i => (pool.data i).won.toFinset).card :=
        (Finset.card_biUnion hdisjoint).symm
    _ ≤ (Finset.range pool.tasks).card := Finset.card_le_card hsub
    _ = pool.tasks := Finset.card_range _

theorem won_le {pool : ThreadPool} (h : pool.Traced cfg) (i : ℕ) :
    (pool.data i).won.length ≤ pool.tasks :=
  (Finset.single_le_sum (f := fun j => (pool.data j).won.length) (fun _ _ => Nat.zero_le _)
    (Finset.mem_range.2 (Nat.lt_succ_self i))).trans (sum_won_le h (i + 1))

/-- A worker subtracts more than was added: `pending` wraps around. -/
theorem Settled.pending_wraps (h : s.Settled cfg) (htasks : s.pool.tasks < 2 ^ 63) {count : ℕ}
    (htally : (s.counters i).tally = .subtract count) (hstep : s.tally i = some s')
    (hlt : (s.counters i).counted.length < (s.counters i).subtracted + count) :
    s'.pool = s.pool ∧ ¬ s'.Consistent cfg := by
  have haccounted := h.accounted.tally hstep
  have htallied := h.accounted.tallied i
  rw [Tallied, htally] at htallied
  obtain ⟨batch, hplace, hbatch, hsub, -⟩ := htallied
  have hwon := congrArg List.length (h.accounted.traced.history i)
  rw [hplace] at hwon
  simp only [WorkerPlace.batch, List.length_append] at hwon
  have hle := won_le h.accounted.traced i
  simp only [MeteredPool.tally, htally] at hstep
  obtain rfl := Option.some.inj hstep
  refine ⟨rfl, fun hconsistent => ?_⟩
  have hpending := hconsistent.pending i
  rw [haccounted.pending i] at hpending
  change (BitVec.ofNat 64 (Function.update s.counters i _ i).counted.length -
    BitVec.ofNat 64 (Function.update s.counters i _ i).subtracted).toNat ≤
      (s.pool.data i).won.length at hpending
  rw [Function.update_self, BitVec.toNat_sub, BitVec.toNat_ofNat, BitVec.toNat_ofNat] at hpending
  dsimp only at hpending
  omega

/-- A worker completes more than was submitted. -/
theorem Settled.completed_exceeds (h : s.Settled cfg) (htasks : s.pool.tasks < 2 ^ 63)
    {count : ℕ} (htally : (s.counters i).tally = .complete count)
    (hstep : s.tally i = some s')
    (hlt : ∑ j ∈ Finset.range cfg.threads, (s.counters j).submitted.length <
      ∑ j ∈ Finset.range cfg.threads, (s.counters j).completed + count) :
    s'.pool = s.pool ∧ ¬ s'.Consistent cfg := by
  have haccounted := h.accounted.tally hstep
  have hi : i < cfg.threads := by
    by_contra hi
    cases htally.symm.trans (h.accounted.outside i (Nat.le_of_not_lt hi))
  have hle : ∑ j ∈ Finset.range cfg.threads, (s'.counters j).completed ≤ s'.pool.tasks :=
    (Finset.sum_le_sum fun j _ => haccounted.completed_le_won j).trans
      (sum_won_le haccounted.traced _)
  have hcompleted := haccounted.completedTasks
  simp only [MeteredPool.tally, htally] at hstep
  obtain rfl := Option.some.inj hstep
  refine ⟨rfl, fun hconsistent => ?_⟩
  have hexceeds := hconsistent.completed
  have hsum := sum_update_add hi (fun j => (s.counters j).completed) count
  rw [field_setCounters WorkerCounters.completed, hsum] at hle hcompleted
  rw [hcompleted, BitVec.toNat_ofNat] at hexceeds
  change _ ≤ s.submittedTasks.toNat at hexceeds
  rw [h.submitted_toNat] at hexceeds
  change _ ≤ s.pool.tasks at hle
  omega

/-- **A step that does not count first** leads to numbers that are wrong. -/
theorem Settled.inconsistent (h : s.Settled cfg) (htasks : s.pool.tasks < 2 ^ 63) {e : Event}
    (hfirst : ¬ s.CountsFirst cfg e) (hstep : s.step cfg e = some s') :
    s'.pool = s.pool ∧ ¬ s'.Consistent cfg := by
  cases e with
  | pool e => exact absurd trivial hfirst
  | getStatsSnapshot u => exact absurd trivial hfirst
  | load u => exact absurd trivial hfirst
  | count t =>
    have hsubmitted := (Finset.sum_le_sum fun j (_ : j ∈ Finset.range cfg.threads) =>
      h.accounted.submitted.length_le j).trans (sum_won_le h.accounted.traced _)
    exact absurd (fun task idx _ => by omega) hfirst
  | tally i =>
    by_contra hgood
    refine hfirst ⟨fun count htally => ?_, fun count htally => ?_⟩
    · rw [h.accounted.subtracted_le_iff htally]
      by_contra hlt
      exact hgood (h.pending_wraps htasks htally hstep (Nat.lt_of_not_le hlt))
    · rw [h.accounted.completed_le_iff]
      by_contra hlt
      exact hgood (h.completed_exceeds htasks htally hstep (Nat.lt_of_not_le hlt))

/-! ### Whole runs -/

theorem pool_tasks_le {pool pool' : ThreadPool} {e : ThreadPool.Event}
    (hstep : pool.step cfg e = some pool') : pool.tasks ≤ pool'.tasks := by
  cases e with
  | submit t valid idx =>
    simp only [ThreadPool.step] at hstep
    split at hstep
    · obtain rfl := Option.some.inj hstep
      exact Nat.le_succ _
    · cases hstep
  | stop t | join t | spurious i waiter =>
    simp only [ThreadPool.step] at hstep
    split_ifs at hstep
    obtain rfl := Option.some.inj hstep
    exact le_rfl
  | client t k =>
    rcases ThreadPool.client_cases hstep with ⟨i, d, c, -, -, -, rfl⟩ | ⟨task, idx, -, rfl⟩ |
      ⟨task, ok, -, rfl⟩ | ⟨i, -, ⟨-, rfl⟩ | ⟨-, rfl⟩⟩ | ⟨i, d, c, -, -, -, hbeside⟩
    · exact le_rfl
    · exact le_rfl
    · exact le_rfl
    · exact le_rfl
    · exact le_rfl
    · exact hbeside.tasks.ge
  | worker i =>
    simp only [ThreadPool.step] at hstep
    split_ifs at hstep
    obtain ⟨d, -, rfl⟩ := Option.map_eq_some_iff.1 hstep
    exact le_rfl

theorem tasks_le {e : Event} (hstep : s.step cfg e = some s') : s.pool.tasks ≤ s'.pool.tasks := by
  cases e with
  | pool e =>
    cases e with
    | client t k =>
      simp only [MeteredPool.step, MeteredPool.work] at hstep
      split_ifs at hstep
      obtain ⟨pool, hpool, rfl⟩ := Option.map_eq_some_iff.1 hstep
      exact pool_tasks_le hpool
    | worker i =>
      obtain ⟨tally, -, hstep⟩ := Option.bind_eq_some_iff.1 hstep
      obtain ⟨pool, hpool, hstep⟩ := Option.bind_eq_some_iff.1 hstep
      obtain rfl := Option.some.inj hstep
      exact pool_tasks_le hpool
    | _ =>
      obtain ⟨pool, hpool, rfl⟩ := Option.map_eq_some_iff.1 hstep
      exact pool_tasks_le hpool
  | count t =>
    simp only [MeteredPool.step, MeteredPool.count] at hstep
    split at hstep
    · cases hstep
    · split_ifs at hstep
      obtain rfl := Option.some.inj hstep
      exact le_rfl
    · obtain rfl := Option.some.inj hstep
      exact le_rfl
  | tally i =>
    simp only [MeteredPool.step, MeteredPool.tally] at hstep
    split at hstep
    · cases hstep
    · cases hstep
    all_goals
      obtain rfl := Option.some.inj hstep
      exact le_rfl
  | getStatsSnapshot u =>
    simp only [MeteredPool.step] at hstep
    split at hstep
    · obtain rfl := Option.some.inj hstep
      exact le_rfl
    · cases hstep
  | load u =>
    obtain ⟨readers, snapshots, rfl⟩ := load_cases hstep
    exact le_rfl

theorem tasks_le_of_exec {es : List Event} (hrun : exec (step cfg) s es = some s') :
    s.pool.tasks ≤ s'.pool.tasks :=
  exec_invariant (I := fun u : MeteredPool => s.pool.tasks ≤ u.pool.tasks) le_rfl
    (fun _ _ _ h hstep => h.trans (tasks_le hstep)) hrun

/-- While fewer than `2 ^ 63` tasks were submitted, the numbers are right in every state
exactly if every step counts first. -/
theorem consistent_iff_along {es : List Event} (hrun : exec (step cfg) {} es = some s)
    (htasks : s.pool.tasks < 2 ^ 63) :
    (∀ pre post u, es = pre ++ post → exec (step cfg) {} pre = some u → u.Consistent cfg) ↔
      Along (step cfg) (CountsFirst cfg) {} es := by
  have hbefore : ∀ {pre post u}, es = pre ++ post → exec (step cfg) {} pre = some u →
      u.pool.tasks < 2 ^ 63 := by
    rintro pre post u rfl hu
    rw [exec_append, hu] at hrun
    exact (tasks_le_of_exec hrun).trans_lt htasks
  have hiff := exec_safe_iff_along
    (P := fun u e => u.pool.tasks < 2 ^ 63 → u.CountsFirst cfg e)
    (I := fun u => u.pool.tasks < 2 ^ 63 → u.Settled cfg)
    (S := fun u => u.pool.tasks < 2 ^ 63 → u.Consistent cfg)
    (fun u e v h hfirst hstep hv => (h ((tasks_le hstep).trans_lt hv)).step
      (hfirst ((tasks_le hstep).trans_lt hv)) hstep)
    (fun u h hu => (h hu).consistent)
    (by
      intro u e v h hfirst hstep hconsistent
      rw [Classical.not_imp] at hfirst
      obtain ⟨hpool, hnot⟩ := (h hfirst.1).inconsistent hfirst.1 hfirst.2 hstep
      exact hnot (hconsistent (by rw [hpool]; exact hfirst.1)))
    (fun _ => settled_init cfg) hrun
  rw [along_iff] at hiff ⊢
  constructor
  · intro hconsistent pre e post u hes hu
    exact hiff.1 (fun pre post u hes hu _ => hconsistent pre post u hes hu) pre e post u hes hu
      (hbefore hes hu)
  · intro hfirst pre post u hes hu
    exact hiff.2 (fun pre e post u hes hu _ => hfirst pre e post u hes hu) pre post u hes hu
      (hbefore hes hu)

theorem queueSize_eq_zero {n : ℕ} (h : ∀ i < n, (s.counters i).pending = 0) :
    s.queueSize n = 0 := by
  induction n with
  | zero => rfl
  | succ n ih =>
    rw [queueSize, h n (Nat.lt_succ_self n), ih fun i hi => h i (Nat.lt_succ_of_lt hi)]
    rfl

/-- **The counters of the pool.**  In every run of any number of calls: if no worker overtakes
the calls of `Submit`, no counter and no report exceeds the tasks that were pushed or
submitted, and while fewer than `2 ^ 63` tasks were submitted this is so only then; and in a
pool at rest, in every run, `queue_size` is 0 and all submitted tasks are completed. -/
theorem counters_consistent (cfg : PoolConfig) {es : List Event}
    (hrun : exec (step cfg) {} es = some s) :
    (Along (step cfg) (CountsFirst cfg) {} es → s.Consistent cfg) ∧
    (s.pool.tasks < 2 ^ 63 →
      (∀ pre post u, es = pre ++ post → exec (step cfg) {} pre = some u → u.Consistent cfg) →
      Along (step cfg) (CountsFirst cfg) {} es) ∧
    (s.Quiet cfg → s.queueSize cfg.threads = 0 ∧ s.completedTasks = s.submittedTasks) := by
  refine ⟨fun hfirst => ?_, fun htasks => (consistent_iff_along hrun htasks).1, fun hquiet => ?_⟩
  · have hsettled : s.Settled cfg :=
      exec_along (I := fun s : MeteredPool => s.Settled cfg)
        (fun _ _ _ h hfirst hstep => h.step hfirst hstep) (settled_init cfg) hfirst hrun
    exact hsettled.consistent
  · have haccounted : s.Accounted cfg :=
      exec_invariant (accounted_init cfg) (fun _ _ _ h hstep => h.step hstep) hrun
    refine ⟨queueSize_eq_zero fun i hi => (haccounted.of_quiet hquiet hi).1, ?_⟩
    rw [haccounted.completedTasks, haccounted.submittedTasks]
    refine congrArg _ (Finset.sum_congr rfl fun i hi => ?_)
    exact (haccounted.of_quiet hquiet (Finset.mem_range.1 hi)).2

/-- One worker: a task is submitted, counted and run, and then the statistics are read. -/
def countedRun : List Event :=
  [.pool (.submit 0 true 0), .pool (.client 0 0), .pool (.client 0 0), .pool (.client 0 0),
    .count 0, .count 0, .pool (.client 0 0), .pool (.client 0 0), .pool (.worker 0),
    .pool (.worker 0), .pool (.worker 0), .tally 0, .tally 0, .pool (.worker 0),
    .pool (.worker 0), .tally 0, .tally 0, .getStatsSnapshot 0, .load 0, .load 0, .load 0, .load 0,
    .load 0, .load 0]

theorem counters_consistent_counted :
    ∃ s, exec (step { threadCount := 1 }) {} countedRun = some s ∧
      s.Consistent { threadCount := 1 } ∧ s.snapshots.length = 1 ∧
      s.completedTasks = 1 ∧ s.submittedTasks = 1 := by
  have hrun : (exec (step { threadCount := 1 }) {} countedRun).map (fun s =>
      (s.snapshots.length, s.completedTasks, s.submittedTasks)) = some (1, 1, 1) := by
    decide +kernel
  obtain ⟨s, hs, heq⟩ := Option.map_eq_some_iff.1 hrun
  obtain ⟨hlength, hnumbers⟩ := Prod.mk.inj heq
  obtain ⟨hcompleted, hsubmitted⟩ := Prod.mk.inj hnumbers
  obtain ⟨hconsistent, -, -⟩ := counters_consistent { threadCount := 1 } hs
  exact ⟨s, hs, hconsistent (by decide +kernel), hlength, hcompleted, hsubmitted⟩

/-- One worker: it takes the task, and subtracts it from `pending`, before the call that pushed
it has counted it.  The statistics that are read then report `2 ^ 64 - 1` tasks. -/
theorem subtracted_before_counted :
    ∃ s, exec (step { threadCount := 1 }) {}
      [.pool (.submit 0 true 0), .pool (.client 0 0), .pool (.client 0 0), .pool (.client 0 0),
        .pool (.worker 0), .pool (.worker 0), .pool (.worker 0), .tally 0, .getStatsSnapshot 0,
        .load 0, .load 0, .load 0, .load 0, .load 0, .load 0] = some s ∧
      s.pool.tasks = 1 ∧ s.snapshots.map (fun r => r.queueSize.toNat) = [2 ^ 64 - 1] ∧
      ¬ s.Consistent { threadCount := 1 } := by
  have hrun : (exec (step { threadCount := 1 }) {}
      [.pool (.submit 0 true 0), .pool (.client 0 0), .pool (.client 0 0), .pool (.client 0 0),
        .pool (.worker 0), .pool (.worker 0), .pool (.worker 0), .tally 0, .getStatsSnapshot 0,
        .load 0, .load 0, .load 0, .load 0, .load 0, .load 0]).map (fun s => (s.pool.tasks,
          s.snapshots.map (fun r => r.queueSize.toNat), (s.counters 0).pending.toNat,
          (s.pool.data 0).won.length)) = some (1, [2 ^ 64 - 1], 2 ^ 64 - 1, 1) := by
    decide +kernel
  obtain ⟨s, hs, heq⟩ := Option.map_eq_some_iff.1 hrun
  obtain ⟨htasks, heq⟩ := Prod.mk.inj heq
  obtain ⟨hqueue, heq⟩ := Prod.mk.inj heq
  obtain ⟨hpending, hwon⟩ := Prod.mk.inj heq
  refine ⟨s, hs, htasks, hqueue, fun hconsistent => ?_⟩
  have hle := hconsistent.pending 0
  rw [hpending, hwon] at hle
  exact absurd hle (by decide)

end MeteredPool
end Common
end MiniRpc
