/-
# A stopped pool comes to rest

Once `Stop` has set its flags (`src/common/thread_pool.cpp`), every step of a worker or of
a call brings the pool closer to its end: a task that leaves a queue, a place further on
towards the exit or the return, one waiter less (`rank_step`).  So only so many steps are
left, with a few more for each further call, and as the pool is never stuck on the way
(`Halting.atRest`), `Stop` and `Join` return and so do the calls of `Submit` that were
asleep (`stopped_pool_comes_to_rest`).
-/

import MiniRpc.Common.Stopping
import Mathlib.Data.Finset.Option

namespace MiniRpc
namespace Common

open Transition

/-- The steps a worker takes at most on its way out, but for those for the tasks in its
queue. -/
def WorkerPlace.rank : WorkerPlace → ℕ
  | .exited => 0
  | .checkStop | .clearExit => 1
  | .popping [] | .recheckStop => 2
  | .clearWaiting | .unlocking => 3
  | .checkEmpty | .leaving => 4
  | .setWaiting | .testStop => 5
  | .locking | .waiting => 6
  | .sleeping => 8
  | .testEmpty => 9
  | .popping (_ :: batch) => 6 + batch.length
  | .notifying batch => 4 + batch.length
  | .running batch => 3 + batch.length

/-- The steps that the worker and the wakeups at it come to. -/
def WorkerData.rank (d : WorkerData) : ℕ :=
  5 * d.queue.line.length + d.place.rank + d.waiters.length

/-- The steps a call takes at most to its return, with those that the task it has yet to
push brings to the worker; `n` is the number of workers. -/
def Client.rank (n : ℕ) : Client → ℕ
  | .outside => 0
  | .returning _ _ => 1
  | .checkAccepting _ _ | .unlocking _ _ _ => 2
  | .notifyOne _ _ | .slowAccepting _ _ => 3
  | .lockNotify _ _ => 4
  | .checkWaiting _ _ => 5
  | .filling _ _ _ _ => 6
  | .slowPush _ _ => 12
  | .lockSlow _ _ | .slowWaiting _ _ => 13
  | .tryPush _ _ left => 14 + left
  | .slowSleep _ _ => 15
  | .stopLock i => 3 * (n - i) + 1
  | .stopNotify i => 3 * (n - (i + 1)) + 2
  | .stopUnlock i => 3 * (n - (i + 1)) + 3
  | .stopRequest _ => 3 * n + 2
  | .stopAccepting => 3 * n + 3
  | .joining i => n - i + 1

/-- What a new call brings in. -/
def ThreadPool.Event.cost (cfg : PoolConfig) : ThreadPool.Event → ℕ
  | .submit _ _ _ => 3
  | .stop _ => 3 * cfg.threads + 4
  | .join _ => cfg.threads + 2
  | _ => 0

/-- The thread that begins a call. -/
def ThreadPool.Event.caller : ThreadPool.Event → Option ℕ
  | .submit t _ _ | .stop t | .join t => some t
  | _ => none

namespace ThreadPool

variable {cfg : PoolConfig} {s s' : ThreadPool} {t k : ℕ}

/-- **A step of `Submit` after `Stop`** brings the call closer to its return, and a place
that it takes in a queue is paid for. -/
theorem submitStep_rank {d d' : WorkerData} {c c' : Client} {n : ℕ}
    (h : submitStep cfg false t k d c = some (d', c')) :
    c'.rank n + 1 ≤ c.rank n ∧ d'.rank + c'.rank n + 1 ≤ d.rank + c.rank n := by
  cases c with
  | tryPush task idx left =>
    simp only [submitStep] at h
    split_ifs at h
    · obtain ⟨rfl, rfl⟩ := Prod.mk.inj (Option.some.inj h)
      simp only [Client.rank, WorkerData.rank, TicketQueue.reserve, List.length_append,
        List.length_singleton]
      omega
    all_goals
      obtain ⟨rfl, rfl⟩ := Prod.mk.inj (Option.some.inj h)
      simp only [Client.rank]
      omega
  | filling task idx ticket slow =>
    obtain ⟨rfl, rfl⟩ := Prod.mk.inj (Option.some.inj h)
    cases slow <;>
      simp only [Client.rank, WorkerData.rank, TicketQueue.fill, List.length_modify, if_true,
        Bool.false_eq_true, if_false] <;> omega
  | checkWaiting task idx =>
    obtain ⟨rfl, rfl⟩ := Prod.mk.inj (Option.some.inj h)
    split_ifs <;> (simp only [Client.rank]; omega)
  | notifyOne task idx =>
    simp only [submitStep] at h
    split_ifs at h
    obtain ⟨rfl, rfl⟩ := Prod.mk.inj (Option.some.inj h)
    have := List.length_eraseIdx_le d.waiters k
    simp only [Client.rank, WorkerData.rank]
    omega
  | slowPush task idx =>
    simp only [submitStep] at h
    split_ifs at h
    · obtain ⟨rfl, rfl⟩ := Prod.mk.inj (Option.some.inj h)
      simp only [Client.rank, WorkerData.rank, TicketQueue.reserve, List.length_append,
        List.length_singleton]
      omega
    · obtain ⟨rfl, rfl⟩ := Prod.mk.inj (Option.some.inj h)
      simp only [Client.rank]
      omega
  | slowSleep task idx =>
    obtain ⟨rfl, rfl⟩ := Prod.mk.inj (Option.some.inj h)
    simp only [Client.rank, WorkerData.rank, List.length_append, List.length_singleton]
    omega
  | lockNotify task idx | lockSlow task idx | slowWaiting task idx =>
    simp only [submitStep] at h
    split_ifs at h
    obtain ⟨rfl, rfl⟩ := Prod.mk.inj (Option.some.inj h)
    simp only [Client.rank, WorkerData.rank]
    omega
  | unlocking task idx ok | slowAccepting task idx =>
    obtain ⟨rfl, rfl⟩ := Prod.mk.inj (Option.some.inj h)
    simp only [Client.rank, WorkerData.rank, Bool.false_eq_true, if_false]
    omega
  | _ => cases h

/-- **A step of a worker after `Stop`** brings it closer to its exit. -/
theorem work_rank {d d' : WorkerData} (h : d.work cfg true = some d') : d'.rank + 1 ≤ d.rank := by
  unfold WorkerData.work at h
  cases hplace : d.place <;> rw [hplace] at h
  case popping batch =>
    dsimp only at h
    split at h
    · rename_i task queue hpop
      split_ifs at hpop
      obtain rfl := Option.some.inj h
      have hline := (TicketQueue.served_of_pop hpop).2
      cases batch <;>
        simp only [WorkerData.rank, hplace, List.nil_append, List.cons_append, WorkerPlace.rank,
          List.length_append, List.length_nil, List.length_singleton] <;> omega
    · obtain rfl := Option.some.inj h
      cases batch <;>
        simp only [WorkerData.rank, hplace, if_true, reduceCtorEq, if_false, WorkerPlace.rank,
          List.length_cons] <;> omega
  case running batch =>
    cases batch with
    | nil =>
      obtain rfl := Option.some.inj h
      simp only [WorkerData.rank, hplace, WorkerPlace.rank, List.length_nil]
      omega
    | cons task batch =>
      obtain rfl := Option.some.inj h
      simp only [WorkerData.rank, hplace, WorkerPlace.rank, List.length_cons]
      omega
  case locking | waiting =>
    dsimp only at h
    split_ifs at h
    obtain rfl := Option.some.inj h
    simp only [WorkerData.rank, hplace, WorkerPlace.rank]
    omega
  case exited => cases h
  case checkEmpty | testEmpty =>
    obtain rfl := Option.some.inj h
    split_ifs <;> (simp only [WorkerData.rank, hplace, WorkerPlace.rank]; omega)
  case notifying batch =>
    obtain rfl := Option.some.inj h
    simp only [WorkerData.rank, hplace, WorkerPlace.rank, List.length_nil]
    omega
  case sleeping =>
    obtain rfl := Option.some.inj h
    simp only [WorkerData.rank, hplace, WorkerPlace.rank, List.length_append,
      List.length_singleton]
    omega
  all_goals
    obtain rfl := Option.some.inj h
    simp only [WorkerData.rank, hplace, WorkerPlace.rank, if_true]
    omega

/-! ### What one step costs -/

/-- The steps that are left in a stopped pool; `F` are the threads that may be in a call. -/
def rank (cfg : PoolConfig) (F : Finset ℕ) (s : ThreadPool) : ℕ :=
  ∑ t ∈ F, (s.clients t).rank cfg.threads + ∑ i ∈ Finset.range cfg.threads, (s.data i).rank

variable {α : Type*} {F : Finset ℕ} {i : ℕ}

/-- One member of a sum changes. -/
theorem sum_update_add_eq (hi : i ∈ F) (g : α → ℕ) (f : ℕ → α) (a : α) :
    ∑ j ∈ F, g (Function.update f i a j) + g (f i) = ∑ j ∈ F, g (f j) + g a := by
  have herase : ∑ j ∈ F.erase i, g (Function.update f i a j) = ∑ j ∈ F.erase i, g (f j) :=
    Finset.sum_congr rfl fun j hj => by rw [Function.update_of_ne (Finset.ne_of_mem_erase hj)]
  rw [← Finset.add_sum_erase F _ hi, herase, Function.update_self,
    ← Finset.add_sum_erase F (fun j => g (f j)) hi]
  omega

theorem sum_update_le {g : α → ℕ} {f : ℕ → α} {a : α} {k : ℕ} (h : g a ≤ g (f i) + k) :
    ∑ j ∈ F, g (Function.update f i a j) ≤ ∑ j ∈ F, g (f j) + k := by
  by_cases hi : i ∈ F
  · have := sum_update_add_eq hi g f a
    omega
  · have hsame : ∑ j ∈ F, g (Function.update f i a j) = ∑ j ∈ F, g (f j) :=
      Finset.sum_congr rfl fun j hj => by
        rw [Function.update_of_ne (ne_of_mem_of_not_mem hj hi)]
    omega

/-- A thread takes a step in its call, at one worker or at none. -/
theorem rank_update (ht : t ∈ F) {j : ℕ} {d : WorkerData} {c : Client} {m : ℕ}
    (hdata : s'.data = Function.update s.data j d)
    (hclients : s'.clients = Function.update s.clients t c)
    (hc : c.rank cfg.threads + 1 ≤ (s.clients t).rank cfg.threads + m)
    (hd : d.rank + c.rank cfg.threads + 1 ≤
      (s.data j).rank + (s.clients t).rank cfg.threads + m) :
    s'.rank cfg F + 1 ≤ s.rank cfg F + m := by
  have hcallers := sum_update_add_eq ht (Client.rank cfg.threads) s.clients c
  have hworkers := sum_update_le (F := Finset.range cfg.threads) (g := WorkerData.rank)
    (i := j) (f := s.data) (a := d)
    (k := (s.clients t).rank cfg.threads + m - (c.rank cfg.threads + 1)) (by omega)
  unfold rank
  rw [hdata, hclients]
  omega

theorem rank_goto (ht : t ∈ F) {c : Client} {m : ℕ} (hdata : s'.data = s.data)
    (hclients : s'.clients = Function.update s.clients t c)
    (hc : c.rank cfg.threads + 1 ≤ (s.clients t).rank cfg.threads + m) :
    s'.rank cfg F + 1 ≤ s.rank cfg F + m := by
  refine rank_update ht (j := 0) (d := s.data 0) ?_ hclients hc (by omega)
  rw [hdata, Function.update_eq_self]

/-- The worker takes a step, or one who waits there wakes up. -/
theorem rank_worker (hi : i < cfg.threads) {d : WorkerData}
    (hdata : s'.data = Function.update s.data i d) (hclients : s'.clients = s.clients)
    (hd : d.rank + 1 ≤ (s.data i).rank) : s'.rank cfg F + 1 ≤ s.rank cfg F := by
  have := sum_update_add_eq (Finset.mem_range.2 hi) WorkerData.rank s.data d
  unfold rank
  rw [hdata, hclients]
  omega

theorem rank_client (ht : t ∈ F) (hrefused : s.acceptingTasks = false)
    (hstep : Steps cfg s t k s') : s'.rank cfg F + 1 ≤ s.rank cfg F := by
  cases hstep with
  | submit hworker hjoined hstep =>
    rw [hrefused] at hstep
    obtain ⟨hc, hd⟩ := submitStep_rank (n := cfg.threads) hstep
    exact rank_update ht (m := 0) rfl rfl hc hd
  | checkAccepting hc =>
    refine rank_goto ht (m := 0) rfl rfl ?_
    rw [hc, hrefused]
    simp [Client.rank]
  | stopRequest hc =>
    refine rank_goto ht (m := 0) rfl rfl ?_
    rw [hc]
    split_ifs <;> (simp only [Client.rank]; omega)
  | returning hc | stopAccepting hc | stopDone hc hdone | joinDone hc hdone
  | joinNext hc hexited hi hjoined =>
    refine rank_goto ht (m := 0) rfl rfl ?_
    rw [hc]
    simp only [Client.rank]
    omega
  | stopLock hc hi hjoined hfree | stopUnlock hc hjoined =>
    refine rank_update ht (m := 0) rfl rfl ?_ ?_ <;>
      (rw [hc]; simp only [Client.rank, WorkerData.rank]; omega)
  | stopNotify hc hjoined =>
    refine rank_update ht (m := 0) rfl rfl ?_ ?_ <;>
      (rw [hc]; simp only [Client.rank, WorkerData.rank, List.length_nil]; omega)

/-- A thread that goes on in a call is in one. -/
theorem mem_of_client (hF : ∀ u ∉ F, s.clients u = .outside) (hstep : s.client cfg t k = some s') :
    t ∈ F := by
  by_contra ht
  rw [client, hF t ht] at hstep
  cases hstep

/-- **Every step of a stopped pool** brings it closer to its end, but for what a new call
brings in. -/
theorem rank_step {e : Event} (hhalting : s.Halting cfg)
    (hstop : s.stopRequested = true) (hF : ∀ u ∉ F, s.clients u = .outside)
    (he : ∀ u ∈ e.caller, u ∈ F) (hstep : s.step cfg e = some s') :
    s'.rank cfg F + 1 ≤ s.rank cfg F + e.cost cfg := by
  cases e with
  | submit t valid idx =>
    simp only [ThreadPool.step] at hstep
    split_ifs at hstep with hout
    all_goals
      obtain rfl := Option.some.inj hstep
      refine rank_goto (he t rfl) rfl rfl ?_
      simp only [Client.rank, Event.cost]
      omega
  | stop t | join t =>
    simp only [ThreadPool.step] at hstep
    split_ifs at hstep with hout
    obtain rfl := Option.some.inj hstep
    refine rank_goto (he t rfl) rfl rfl ?_
    simp only [Client.rank, Event.cost]
    omega
  | client t k =>
    exact rank_client (mem_of_client hF hstep) (hhalting.refusing.stopped hstop)
      (.of_client hstep)
  | worker i =>
    simp only [ThreadPool.step] at hstep
    split_ifs at hstep with hi
    obtain ⟨d, hd, rfl⟩ := Option.map_eq_some_iff.1 hstep
    rw [hstop] at hd
    exact rank_worker hi rfl rfl (work_rank hd)
  | spurious i waiter =>
    simp only [ThreadPool.step] at hstep
    split_ifs at hstep with hmem
    obtain rfl := Option.some.inj hstep
    have hi : i < cfg.threads := by
      by_contra hi
      rw [hhalting.within i (by omega)] at hmem
      cases hmem
    refine rank_worker hi rfl rfl ?_
    have hlen := List.length_erase_of_mem hmem
    have hpos := List.length_pos_of_mem hmem
    simp only [WorkerData.rank]
    omega

/-! ### Whole runs -/

/-- Only a new call brings a thread in. -/
theorem outside_step {e : Event} (hF : ∀ u ∉ F, s.clients u = .outside)
    (he : ∀ u ∈ e.caller, u ∈ F) (hstep : s.step cfg e = some s') :
    ∀ u ∉ F, s'.clients u = .outside := by
  have hmoved : ∀ {t c}, t ∈ F → s'.clients = Function.update s.clients t c →
      ∀ u ∉ F, s'.clients u = .outside := by
    intro t c ht hclients u hu
    rw [hclients, Function.update_of_ne (ne_of_mem_of_not_mem ht hu).symm]
    exact hF u hu
  cases e with
  | submit t valid idx =>
    simp only [ThreadPool.step] at hstep
    split_ifs at hstep <;> (obtain rfl := Option.some.inj hstep; exact hmoved (he t rfl) rfl)
  | stop t | join t =>
    simp only [ThreadPool.step] at hstep
    split_ifs at hstep
    obtain rfl := Option.some.inj hstep
    exact hmoved (he t rfl) rfl
  | client t k => cases Steps.of_client hstep <;> exact hmoved (mem_of_client hF hstep) rfl
  | worker i =>
    simp only [ThreadPool.step] at hstep
    split_ifs at hstep
    obtain ⟨d, -, rfl⟩ := Option.map_eq_some_iff.1 hstep
    exact hF
  | spurious i waiter =>
    simp only [ThreadPool.step] at hstep
    split_ifs at hstep
    obtain rfl := Option.some.inj hstep
    exact hF

/-- Finitely many threads are in a call. -/
theorem exists_callers {es : List Event} (hrun : exec (step cfg) {} es = some s) :
    ∃ F : Finset ℕ, ∀ t ∉ F, s.clients t = .outside := by
  refine exec_invariant (I := fun s => ∃ F : Finset ℕ, ∀ t ∉ F, s.clients t = .outside)
    ⟨∅, fun _ _ => rfl⟩ ?_ hrun
  rintro s e s' ⟨F, hF⟩ hstep
  refine ⟨F ∪ e.caller.toFinset, outside_step (fun u hu => ?_) (fun u hu => ?_) hstep⟩
  · exact hF u fun hmem => hu (Finset.mem_union_left _ hmem)
  · exact Finset.mem_union_right _ (Option.mem_toFinset.2 hu)

/-- `stop_requested_` stays set. -/
theorem stopRequested_step {e : Event} (hstop : s.stopRequested = true)
    (hstep : s.step cfg e = some s') : s'.stopRequested = true := by
  cases e with
  | submit t valid idx =>
    simp only [ThreadPool.step] at hstep
    split_ifs at hstep <;> (obtain rfl := Option.some.inj hstep; exact hstop)
  | stop t | join t =>
    simp only [ThreadPool.step] at hstep
    split_ifs at hstep
    obtain rfl := Option.some.inj hstep
    exact hstop
  | client t k => cases Steps.of_client hstep <;> first | exact hstop | rfl
  | worker i =>
    simp only [ThreadPool.step] at hstep
    split_ifs at hstep
    obtain ⟨d, -, rfl⟩ := Option.map_eq_some_iff.1 hstep
    exact hstop
  | spurious i waiter =>
    simp only [ThreadPool.step] at hstep
    split_ifs at hstep
    obtain rfl := Option.some.inj hstep
    exact hstop

/-- **A run of a stopped pool** is no longer than the steps that were left, and those of the
calls that were begun in it. -/
theorem length_le_rank {fs : List Event} (hhalting : s.Halting cfg)
    (hstop : s.stopRequested = true) (hF : ∀ u ∉ F, s.clients u = .outside)
    (hrun : exec (step cfg) s fs = some s') :
    fs.length ≤ s.rank cfg F + (fs.map (Event.cost cfg)).sum := by
  -- the threads that begin a call in the run have no step left at its start
  have hsame : s.rank cfg (F ∪ (fs.filterMap Event.caller).toFinset) = s.rank cfg F := by
    unfold rank
    congr 1
    refine (Finset.sum_subset Finset.subset_union_left fun u _ hu => ?_).symm
    rw [hF u hu]
    rfl
  have hlen := exec_length_le
    (I := fun s => s.Halting cfg ∧ s.stopRequested = true ∧
      ∀ u ∉ F ∪ (fs.filterMap Event.caller).toFinset, s.clients u = .outside)
    (Q := fun e => ∀ u ∈ e.caller, u ∈ F ∪ (fs.filterMap Event.caller).toFinset)
    (μ := rank cfg (F ∪ (fs.filterMap Event.caller).toFinset)) (c := Event.cost cfg)
    ?_ ⟨hhalting, hstop, fun u hu => ?_⟩ (fun e he u hu => ?_) hrun
  · omega
  · rintro s e s' ⟨hhalting, hstop, hF⟩ he hstep
    exact ⟨⟨hhalting.step hstep, stopRequested_step hstop hstep, outside_step hF he hstep⟩,
      rank_step hhalting hstop hF he hstep⟩
  · exact hF u fun hmem => hu (Finset.mem_union_left _ hmem)
  · exact Finset.mem_union_right _ (List.mem_toFinset.2 (List.mem_filterMap.2 ⟨e, he, hu⟩))

/-- **A stopped pool comes to rest.**  From every state of the pool in which
`stop_requested_` is set, the steps that are left have a bound, to which a further call
adds no more than its cost; and wherever a run of these steps has come to, some worker or
some call can take a step, or all workers have left `WorkerMain` and all calls have
returned, but for those from which `Join` has taken the data of the workers. -/
theorem stopped_pool_comes_to_rest (cfg : PoolConfig) {es : List Event}
    (hrun : exec (step cfg) {} es = some s) (hstop : s.stopRequested = true) :
    ∃ bound, ∀ fs s', exec (step cfg) s fs = some s' →
      fs.length ≤ bound + (fs.map (Event.cost cfg)).sum ∧
        ((∃ i, (s'.step cfg (.worker i)).isSome) ∨ (∃ t, (s'.step cfg (.client t 0)).isSome) ∨
          s'.AtRest cfg) := by
  obtain ⟨F, hF⟩ := exists_callers hrun
  have hhalting := halting hrun
  refine ⟨s.rank cfg F, fun fs s' hrest => ⟨length_le_rank hhalting hstop hF hrest, ?_⟩⟩
  obtain ⟨hhalting', hstop'⟩ : s'.Halting cfg ∧ s'.stopRequested = true :=
    exec_invariant (I := fun s => s.Halting cfg ∧ s.stopRequested = true) ⟨hhalting, hstop⟩
      (fun _ _ _ h hstep => ⟨h.1.step hstep, stopRequested_step h.2 hstep⟩) hrest
  by_cases hworker : ∃ i, (s'.step cfg (.worker i)).isSome
  · exact Or.inl hworker
  · by_cases hclient : ∃ t, (s'.step cfg (.client t 0)).isSome
    · exact Or.inr (Or.inl hclient)
    · refine Or.inr (Or.inr (hhalting'.atRest hstop' (fun i => ?_) fun t => ?_))
      · exact Option.not_isSome_iff_eq_none.1 fun hi => hworker ⟨i, hi⟩
      · exact Option.not_isSome_iff_eq_none.1 fun ht => hclient ⟨t, ht⟩

/-- One worker: it is asleep when the pool is stopped. -/
def stoppedAsleep : List Event :=
  List.replicate 9 (.worker 0) ++ [.stop 0, .client 0 0, .client 0 0]

theorem stopped_pool_comes_to_rest_asleep :
    ∃ s, exec (step { threadCount := 1 }) {} stoppedAsleep = some s ∧
      (s.data 0).waiters = [none] ∧
      ∃ bound, ∀ fs s', exec (step { threadCount := 1 }) s fs = some s' →
        fs.length ≤ bound + (fs.map (Event.cost { threadCount := 1 })).sum ∧
          ((∃ i, (s'.step { threadCount := 1 } (.worker i)).isSome) ∨
            (∃ t, (s'.step { threadCount := 1 } (.client t 0)).isSome) ∨
              s'.AtRest { threadCount := 1 }) := by
  have hrun : (exec (step { threadCount := 1 }) {} stoppedAsleep).map
      (fun s => (s.stopRequested, (s.data 0).waiters)) = some (true, [none]) := by decide +kernel
  obtain ⟨s, hs, heq⟩ := Option.map_eq_some_iff.1 hrun
  obtain ⟨hstop, hwaiters⟩ := Prod.mk.inj heq
  exact ⟨s, hs, hwaiters, stopped_pool_comes_to_rest { threadCount := 1 } hs hstop⟩

end ThreadPool
end Common
end MiniRpc
