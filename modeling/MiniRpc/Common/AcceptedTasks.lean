/-
# The tasks of the thread pool

What becomes of a task between `Submit` and `Join` (`src/common/thread_pool.cpp`):
it is in the hands of its call, has a place at one worker, or was refused
(`Traced`), so no task is run twice and a refused one never.

`Submit` tests `accepting_tasks_` before it pushes, and a worker leaves when it
finds its queue empty and then `stop_requested_` true.  A push that comes in
between is accepted and never run (`accepted_task_lost`); without one, every
accepted task was run once `Join` has returned (`accepted_tasks_run`).
-/

import MiniRpc.Common.ThreadPool
import Mathlib.Algebra.BigOperators.Group.Finset.Basic

namespace MiniRpc
namespace Common
namespace ThreadPool

open Transition

variable {cfg : PoolConfig} {s s' : ThreadPool} {t k : ℕ}

/-! ### Where a task is -/

/-- What holds of the tasks in every state: a task is in the hands of its call, has a
place at one worker, or was refused. -/
structure Traced (cfg : PoolConfig) (s : ThreadPool) : Prop where
  /-- The tasks of a worker were run, are in its batch, or are in its queue, in the order
  in which they got their places. -/
  history : ∀ i, (s.data i).ran ++ (s.data i).place.batch ++ (s.data i).queue.values =
    (s.data i).won
  nodup : ∀ i, (s.data i).won.Nodup
  apart : ∀ i j task, task ∈ (s.data i).won → task ∈ (s.data j).won → i = j
  fresh : ∀ i, ∀ task ∈ (s.data i).won, task < s.tasks
  unplaced : ∀ t task, (s.clients t).unplaced = some task →
    task < s.tasks ∧ (∀ i, task ∉ (s.data i).won) ∧ task ∉ s.rejected
  unique : ∀ t u task, (s.clients t).unplaced = some task → (s.clients u).unplaced = some task →
    t = u
  placed : ∀ t task, (s.clients t).placed = some task →
    ∃ i < cfg.threads, task ∈ (s.data i).won
  worker : ∀ t i, (s.clients t).worker = some i → i < cfg.threads
  accepted : ∀ task ∈ s.accepted, ∃ i < cfg.threads, task ∈ (s.data i).won
  rejected : ∀ task ∈ s.rejected, task < s.tasks ∧ ∀ i, task ∉ (s.data i).won

/-- Steps that do not concern tasks. -/
theorem Traced.of_same (h : s.Traced cfg)
    (hdata : ∀ i, (s'.data i).won = (s.data i).won ∧
      (s'.data i).ran ++ (s'.data i).place.batch ++ (s'.data i).queue.values =
        (s.data i).ran ++ (s.data i).place.batch ++ (s.data i).queue.values)
    (hunplaced : ∀ t, (s'.clients t).unplaced = (s.clients t).unplaced)
    (hplaced : ∀ t, (s'.clients t).placed = (s.clients t).placed)
    (hworker : ∀ t i, (s'.clients t).worker = some i → i < cfg.threads)
    (htasks : s'.tasks = s.tasks) (haccepted : s'.accepted = s.accepted)
    (hrejected : s'.rejected = s.rejected) : s'.Traced cfg := by
  have hwon : ∀ i, (s'.data i).won = (s.data i).won := fun i => (hdata i).1
  refine ⟨fun i => ?_, fun i => ?_, fun i j task hi hj => ?_, fun i task hi => ?_,
    fun t task ht => ?_, fun t u task ht hu => ?_, fun t task ht => ?_, hworker,
    fun task htask => ?_, fun task htask => ?_⟩
  · rw [(hdata i).2, hwon, h.history]
  · rw [hwon]
    exact h.nodup i
  · exact h.apart i j task (hwon i ▸ hi) (hwon j ▸ hj)
  · rw [htasks]
    exact h.fresh i task (hwon i ▸ hi)
  · obtain ⟨h₁, h₂, h₃⟩ := h.unplaced t task (hunplaced t ▸ ht)
    exact ⟨htasks ▸ h₁, fun i => hwon i ▸ h₂ i, hrejected ▸ h₃⟩
  · exact h.unique t u task (hunplaced t ▸ ht) (hunplaced u ▸ hu)
  · obtain ⟨i, hi, hmem⟩ := h.placed t task (hplaced t ▸ ht)
    exact ⟨i, hi, hwon i ▸ hmem⟩
  · obtain ⟨i, hi, hmem⟩ := h.accepted task (haccepted ▸ htask)
    exact ⟨i, hi, hwon i ▸ hmem⟩
  · obtain ⟨h₁, h₂⟩ := h.rejected task (hrejected ▸ htask)
    exact ⟨htasks ▸ h₁, fun i => hwon i ▸ h₂ i⟩

/-- The data of one worker changes, and the order of its tasks does not. -/
theorem tasks_update {i : ℕ} {d : WorkerData} (hwon : d.won = (s.data i).won)
    (hhist : d.ran ++ d.place.batch ++ d.queue.values =
      (s.data i).ran ++ (s.data i).place.batch ++ (s.data i).queue.values) (j : ℕ) :
    (Function.update s.data i d j).won = (s.data j).won ∧
      (Function.update s.data i d j).ran ++ (Function.update s.data i d j).place.batch ++
        (Function.update s.data i d j).queue.values =
          (s.data j).ran ++ (s.data j).place.batch ++ (s.data j).queue.values := by
  rw [Function.update_apply]
  split_ifs with hj
  · rw [hj]
    exact ⟨hwon, hhist⟩
  · exact ⟨rfl, rfl⟩

theorem Traced.beside (h : s.Traced cfg) {i : ℕ} {d : WorkerData} {c : Client}
    (hbeside : Beside s s' t i d c) (hunplaced : c.unplaced = (s.clients t).unplaced)
    (hplaced : c.placed = (s.clients t).placed)
    (hworker : ∀ j, c.worker = some j → j < cfg.threads) : s'.Traced cfg := by
  refine h.of_same (fun j => ?_) (fun u => ?_) (fun u => ?_) (fun u j hj => ?_) hbeside.tasks
    hbeside.accepted hbeside.rejected
  · obtain ⟨hvalues, hwon, hran, hplace⟩ := hbeside.same
    rw [hbeside.data]
    exact tasks_update hwon (by rw [hran, hplace, hvalues]) j
  · rw [hbeside.clients, Function.update_apply]
    split_ifs with hu
    · rw [hunplaced, hu]
    · rfl
  · rw [hbeside.clients, Function.update_apply]
    split_ifs with hu
    · rw [hplaced, hu]
    · rfl
  · rw [hbeside.clients, Function.update_apply] at hj
    split_ifs at hj
    · exact hworker j hj
    · exact h.worker u j hj

/-- **A task gets its place.** -/
theorem Traced.reserve (h : s.Traced cfg) {task i : ℕ} {c : Client}
    (htask : (s.clients t).unplaced = some task) (hi : i < cfg.threads)
    (hunplaced : c.unplaced = none) (hplaced : c.placed = some task)
    (hworker : c.worker = some i) :
    ((s.setData i { s.data i with
      queue := (s.data i).queue.reserve task
      won := (s.data i).won ++ [task] }).goto t c).Traced cfg := by
  obtain ⟨hlt, hnew, hrej⟩ := h.unplaced t task htask
  -- what became of the lists of the tasks with places
  have hwon : ∀ j, (((s.setData i { s.data i with
      queue := (s.data i).queue.reserve task
      won := (s.data i).won ++ [task] }).goto t c).data j).won =
        if j = i then (s.data i).won ++ [task] else (s.data j).won := by
    intro j
    change (Function.update s.data i _ j).won = _
    rw [Function.update_apply]
    split_ifs <;> rfl
  have hmem : ∀ j k, k ∈ (((s.setData i { s.data i with
      queue := (s.data i).queue.reserve task
      won := (s.data i).won ++ [task] }).goto t c).data j).won ↔
        k ∈ (s.data j).won ∨ j = i ∧ k = task := by
    intro j k
    rw [hwon]
    split_ifs with hj
    · simp [hj]
    · simp [hj]
  have hother : ∀ u k, (Function.update s.clients t c u).unplaced = some k →
      (s.clients u).unplaced = some k ∧ k ≠ task := by
    intro u k hu
    rw [Function.update_apply] at hu
    split_ifs at hu with hut
    · cases hunplaced.symm.trans hu
    · refine ⟨hu, ?_⟩
      rintro rfl
      exact hut (h.unique u t k hu htask)
  refine ⟨fun j => ?_, fun j => ?_, fun j l k hj hl => ?_, fun j k hj => ?_, fun u k hu => ?_,
    fun u v k hu hv => ?_, fun u k hu => ?_, fun u j hu => ?_, fun k hk => ?_, fun k hk => ?_⟩
  · rw [hwon]
    change (Function.update s.data i _ j).ran ++ (Function.update s.data i _ j).place.batch ++
      (Function.update s.data i _ j).queue.values = _
    rw [Function.update_apply]
    split_ifs with hj
    · rw [TicketQueue.values_reserve, ← List.append_assoc, h.history i]
    · exact h.history j
  · rw [hwon]
    split_ifs
    · refine List.nodup_append.2 ⟨h.nodup i, by simp, fun k hk l hl => ?_⟩
      rw [List.mem_singleton.1 hl]
      rintro rfl
      exact hnew i hk
    · exact h.nodup j
  · rcases (hmem j k).1 hj with hj' | ⟨hji, hk⟩ <;> rcases (hmem l k).1 hl with hl' | ⟨hli, hk'⟩
    · exact h.apart j l k hj' hl'
    · exact absurd (hk' ▸ hj') (hnew j)
    · exact absurd (hk ▸ hl') (hnew l)
    · rw [hji, hli]
  · rcases (hmem j k).1 hj with hj | ⟨-, rfl⟩
    · exact h.fresh j k hj
    · exact hlt
  · obtain ⟨hu, hne⟩ := hother u k hu
    obtain ⟨h₁, h₂, h₃⟩ := h.unplaced u k hu
    refine ⟨h₁, fun j hj => ?_, h₃⟩
    rcases (hmem j k).1 hj with hj | ⟨-, hk⟩
    · exact h₂ j hj
    · exact hne hk
  · exact h.unique u v k (hother u k hu).1 (hother v k hv).1
  · replace hu : (Function.update s.clients t c u).placed = some k := hu
    rw [Function.update_apply] at hu
    split_ifs at hu
    · obtain rfl := Option.some.inj (hplaced.symm.trans hu)
      exact ⟨i, hi, (hmem i task).2 (Or.inr ⟨rfl, rfl⟩)⟩
    · obtain ⟨j, hj, hk⟩ := h.placed u k hu
      exact ⟨j, hj, (hmem j k).2 (Or.inl hk)⟩
  · replace hu : (Function.update s.clients t c u).worker = some j := hu
    rw [Function.update_apply] at hu
    split_ifs at hu
    · obtain rfl := Option.some.inj (hworker.symm.trans hu)
      exact hi
    · exact h.worker u j hu
  · obtain ⟨j, hj, hmem'⟩ := h.accepted k hk
    exact ⟨j, hj, (hmem j k).2 (Or.inl hmem')⟩
  · obtain ⟨h₁, h₂⟩ := h.rejected k hk
    refine ⟨h₁, fun j hj => ?_⟩
    rcases (hmem j k).1 hj with hj | ⟨-, rfl⟩
    · exact h₂ j hj
    · exact hrej hk

theorem aside_none {c : Client} (h : c.isAside = true) :
    c.unplaced = none ∧ c.placed = none ∧ c.worker = none := by
  cases c <;> first | exact ⟨rfl, rfl, rfl⟩ | cases h

/-- `Submit` returns. -/
theorem Traced.returning (h : s.Traced cfg) {task : ℕ} {ok : Bool}
    (hc : s.clients t = .returning task ok) :
    (goto { s with
      accepted := if ok then s.accepted ++ [task] else s.accepted
      rejected := if ok then s.rejected else s.rejected ++ [task] } t .outside).Traced cfg := by
  have hother : ∀ u k, (Function.update s.clients t .outside u).unplaced = some k →
      u ≠ t ∧ (s.clients u).unplaced = some k := by
    intro u k hu
    rw [Function.update_apply] at hu
    split_ifs at hu with hut
    · cases hu
    · exact ⟨hut, hu⟩
  refine { h with
    unplaced := fun u k hu => ?_, unique := fun u v k hu hv => ?_, placed := fun u k hu => ?_
    worker := fun u i hu => ?_, accepted := fun k hk => ?_, rejected := fun k hk => ?_ }
  · obtain ⟨hut, hu'⟩ := hother u k hu
    obtain ⟨h₁, h₂, h₃⟩ := h.unplaced u k hu'
    refine ⟨h₁, h₂, ?_⟩
    cases ok with
    | true => exact h₃
    | false =>
      intro hk
      rcases List.mem_append.1 hk with hk | hk
      · exact h₃ hk
      · rw [List.mem_singleton.1 hk] at hu'
        exact hut (h.unique u t task hu' (by rw [hc]; rfl))
  · exact h.unique u v k (hother u k hu).2 (hother v k hv).2
  · replace hu : (Function.update s.clients t .outside u).placed = some k := hu
    rw [Function.update_apply] at hu
    split_ifs at hu
    · cases hu
    · exact h.placed u k hu
  · replace hu : (Function.update s.clients t .outside u).worker = some i := hu
    rw [Function.update_apply] at hu
    split_ifs at hu
    · cases hu
    · exact h.worker u i hu
  · cases ok with
    | true =>
      rcases List.mem_append.1 hk with hk | hk
      · exact h.accepted k hk
      · rw [List.mem_singleton.1 hk]
        exact h.placed t task (by rw [hc]; rfl)
    | false => exact h.accepted k hk
  · cases ok with
    | true => exact h.rejected k hk
    | false =>
      rcases List.mem_append.1 hk with hk | hk
      · exact h.rejected k hk
      · rw [List.mem_singleton.1 hk]
        obtain ⟨h₁, h₂, -⟩ := h.unplaced t task (by rw [hc]; rfl)
        exact ⟨h₁, h₂⟩

theorem Traced.client (h : s.Traced cfg) (hstep : s.client cfg t k = some s') : s'.Traced cfg := by
  rcases client_cases hstep with ⟨i, d, c, hworker, -, hsub, rfl⟩ | ⟨task, idx, hc, rfl⟩ |
    ⟨task, ok, hc, rfl⟩ | ⟨i, hc, ⟨-, rfl⟩ | ⟨-, rfl⟩⟩ | ⟨i, d, c, hc, hc', -, hbeside⟩
  · rcases submitStep_cases hsub with ⟨hsame, hun, hpl, hw⟩ |
      ⟨task, j, hun, hj, hun', hpl, hw, -, -, rfl⟩
    · refine h.beside ⟨rfl, rfl, rfl, rfl, rfl, rfl, hsame⟩ hun hpl fun j hj => ?_
      exact (hw j hj).elim (h.worker t j) id
    · obtain rfl := Option.some.inj (hj.symm.trans hworker)
      exact h.reserve hun (h.worker t j hworker) hun' hpl hw
  · refine h.beside (beside_goto s t _) ?_ ?_ fun j hj => ?_
    · rw [hc]
      split_ifs <;> rfl
    · rw [hc]
      split_ifs <;> rfl
    · split_ifs at hj
      · exact h.worker t j (by rw [hc]; exact hj)
      · cases hj
  · exact h.returning hc
  · have h' : ({ s with joined := true } : ThreadPool).Traced cfg := { h with }
    exact h'.beside (beside_goto _ t _) (by rw [hc]; rfl) (by rw [hc]; rfl) nofun
  · exact h.beside (beside_goto s t _) (by rw [hc]; rfl) (by rw [hc]; rfl) nofun
  · obtain ⟨h₁, h₂, -⟩ := aside_none hc
    obtain ⟨h₁', h₂', h₃'⟩ := aside_none hc'
    refine h.beside hbeside (h₁'.trans h₁.symm) (h₂'.trans h₂.symm) ?_
    rw [h₃']
    nofun

/-- A call of `Submit` gets a number that nobody has. -/
theorem Traced.submit (h : s.Traced cfg) {c : Client} (hunplaced : c.unplaced = some s.tasks)
    (hplaced : c.placed = none) (hworker : ∀ i, c.worker = some i → i < cfg.threads) :
    (goto { s with tasks := s.tasks + 1 } t c).Traced cfg := by
  refine { h with
    fresh := fun i k hk => Nat.lt_succ_of_lt (h.fresh i k hk)
    unplaced := fun u k hu => ?_, unique := fun u v k hu hv => ?_, placed := fun u k hu => ?_
    worker := fun u i hu => ?_
    rejected := fun k hk => ⟨Nat.lt_succ_of_lt (h.rejected k hk).1, (h.rejected k hk).2⟩ }
  · replace hu : (Function.update s.clients t c u).unplaced = some k := hu
    rw [Function.update_apply] at hu
    split_ifs at hu
    · obtain rfl := Option.some.inj (hunplaced.symm.trans hu)
      exact ⟨Nat.lt_succ_self _, fun i hi => absurd (h.fresh i _ hi) (Nat.lt_irrefl _),
        fun hr => absurd (h.rejected _ hr).1 (Nat.lt_irrefl _)⟩
    · obtain ⟨h₁, h₂, h₃⟩ := h.unplaced u k hu
      exact ⟨Nat.lt_succ_of_lt h₁, h₂, h₃⟩
  · replace hu : (Function.update s.clients t c u).unplaced = some k := hu
    replace hv : (Function.update s.clients t c v).unplaced = some k := hv
    rw [Function.update_apply] at hu hv
    split_ifs at hu hv with hut hvt hvt
    · rw [hut, hvt]
    · obtain rfl := Option.some.inj (hunplaced.symm.trans hu)
      exact absurd (h.unplaced v _ hv).1 (Nat.lt_irrefl _)
    · obtain rfl := Option.some.inj (hunplaced.symm.trans hv)
      exact absurd (h.unplaced u _ hu).1 (Nat.lt_irrefl _)
    · exact h.unique u v k hu hv
  · replace hu : (Function.update s.clients t c u).placed = some k := hu
    rw [Function.update_apply] at hu
    split_ifs at hu
    · cases hplaced.symm.trans hu
    · exact h.placed u k hu
  · replace hu : (Function.update s.clients t c u).worker = some i := hu
    rw [Function.update_apply] at hu
    split_ifs at hu
    · exact hworker i hu
    · exact h.worker u i hu

theorem Traced.step {e : Event} (h : s.Traced cfg) (hstep : s.step cfg e = some s') :
    s'.Traced cfg := by
  cases e with
  | submit t valid idx =>
    simp only [ThreadPool.step] at hstep
    split_ifs at hstep with hguard
    · obtain rfl := Option.some.inj hstep
      refine h.submit rfl rfl fun i hi => ?_
      rw [← Option.some.inj hi]
      exact hguard.2
    · obtain rfl := Option.some.inj hstep
      exact h.submit rfl rfl nofun
  | stop t =>
    simp only [ThreadPool.step] at hstep
    split_ifs at hstep with hc
    obtain rfl := Option.some.inj hstep
    exact h.beside (beside_goto s t _) (by rw [hc]; rfl) (by rw [hc]; rfl) nofun
  | join t =>
    simp only [ThreadPool.step] at hstep
    split_ifs at hstep with hc
    obtain rfl := Option.some.inj hstep
    exact h.beside (beside_goto s t _) (by rw [hc]; rfl) (by rw [hc]; rfl) nofun
  | client t k => exact h.client hstep
  | worker i =>
    simp only [ThreadPool.step] at hstep
    split_ifs at hstep
    obtain ⟨d, hd, rfl⟩ := Option.map_eq_some_iff.1 hstep
    obtain ⟨hwon, hhist, -⟩ := work_cases hd
    exact h.of_same (tasks_update hwon hhist) (fun _ => rfl) (fun _ => rfl) h.worker rfl rfl rfl
  | spurious i waiter =>
    simp only [ThreadPool.step] at hstep
    split_ifs at hstep
    obtain rfl := Option.some.inj hstep
    exact h.of_same (tasks_update rfl rfl) (fun _ => rfl) (fun _ => rfl) h.worker rfl rfl rfl

theorem traced_init (cfg : PoolConfig) : ({} : ThreadPool).Traced cfg :=
  ⟨fun _ => rfl, fun _ => List.nodup_nil, nofun, nofun, nofun, nofun, nofun, nofun, nofun, nofun⟩

/-! ### Accepted tasks are run -/

/-- How often the workers have run a task. -/
def executions (cfg : PoolConfig) (s : ThreadPool) (task : ℕ) : ℕ :=
  ∑ i ∈ Finset.range cfg.threads, (s.data i).ran.count task

theorem Traced.ran_subset (h : s.Traced cfg) {i task : ℕ} (hmem : task ∈ (s.data i).ran) :
    task ∈ (s.data i).won := by
  rw [← h.history i]
  simp [hmem]

theorem Traced.ran_nodup (h : s.Traced cfg) (i : ℕ) : (s.data i).ran.Nodup := by
  have hnodup := h.nodup i
  rw [← h.history i, List.append_assoc] at hnodup
  exact (List.nodup_append.1 hnodup).1

/-- A task that has its place at worker `i` is run nowhere else. -/
theorem Traced.executions_eq (h : s.Traced cfg) {i task : ℕ} (hi : i < cfg.threads)
    (hmem : task ∈ (s.data i).won) : s.executions cfg task = (s.data i).ran.count task := by
  refine Finset.sum_eq_single_of_mem i (Finset.mem_range.2 hi) fun j _ hj => ?_
  rw [List.count_eq_zero]
  intro hran
  exact hj (h.apart j i task (h.ran_subset hran) hmem)

theorem Traced.executions_eq_zero (h : s.Traced cfg) {task : ℕ}
    (hnot : ∀ i, task ∉ (s.data i).won) : s.executions cfg task = 0 := by
  refine Finset.sum_eq_zero fun i _ => ?_
  rw [List.count_eq_zero]
  exact fun hran => hnot i (h.ran_subset hran)

theorem Traced.executions_le_one (h : s.Traced cfg) (task : ℕ) : s.executions cfg task ≤ 1 := by
  by_cases hran : ∃ i < cfg.threads, task ∈ (s.data i).won
  · obtain ⟨i, hi, hmem⟩ := hran
    rw [h.executions_eq hi hmem]
    exact List.nodup_iff_count_le_one.1 (h.ran_nodup i) task
  · have hzero : s.executions cfg task = 0 := by
      refine Finset.sum_eq_zero fun i hi => ?_
      rw [List.count_eq_zero]
      exact fun hmem => hran ⟨i, Finset.mem_range.1 hi, h.ran_subset hmem⟩
    omega

/-- A worker that sees the stop flag leaves nothing behind in its queue, and no push
comes to the queue of a worker that has decided to leave. -/
def KeepsTasks (s : ThreadPool) : Event → Prop
  | .worker i => s.stopRequested = true →
      (s.data i).place = .checkStop ∨ (s.data i).place = .recheckStop →
      (s.data i).queue.line = []
  | .client t _ => ∀ i ∈ (s.clients t).pushing, (s.data i).place.isGone = false
  | _ => True

instance KeepsTasks.decidable (s : ThreadPool) : ∀ e, Decidable (s.KeepsTasks e)
  | .worker _ => inferInstanceAs (Decidable (_ → _ → _))
  | .client _ _ => inferInstanceAs (Decidable (∀ i ∈ Client.pushing _, _))
  | .submit _ _ _ | .stop _ | .join _ | .spurious _ _ => isTrue trivial

/-- What holds in every state of a run whose steps all keep the tasks. -/
structure Drained (cfg : PoolConfig) (s : ThreadPool) : Prop where
  traced : s.Traced cfg
  gone : ∀ i, (s.data i).place.isGone = true → (s.data i).queue.line = []
  joining : ∀ t n, s.clients t = .joining n → ∀ i < n, (s.data i).place = .exited
  joined : s.joined = true → ∀ i < cfg.threads, (s.data i).place = .exited

/-- Steps that leave the queues and the places of the workers as they are. -/
theorem Drained.of_same (h : s.Drained cfg) (htraced : s'.Traced cfg)
    (hdata : ∀ i, (s'.data i).place = (s.data i).place ∧
      ((s.data i).queue.line = [] → (s'.data i).queue.line = []))
    (hjoining : ∀ t n, s'.clients t = .joining n → ∀ i < n, (s.data i).place = .exited)
    (hjoined : s'.joined = true → ∀ i < cfg.threads, (s.data i).place = .exited) :
    s'.Drained cfg := by
  refine ⟨htraced, fun i hi => ?_, fun t n ht i hi => ?_, fun hj i hi => ?_⟩
  · exact (hdata i).2 (h.gone i ((hdata i).1 ▸ hi))
  · rw [(hdata i).1]
    exact hjoining t n ht i hi
  · rw [(hdata i).1]
    exact hjoined hj i hi

theorem line_of_values {d d' : WorkerData} (h : d'.queue.values = d.queue.values)
    (hd : d.queue.line = []) : d'.queue.line = [] := by
  rw [← List.length_eq_zero_iff, ← TicketQueue.values_length, h, TicketQueue.values_length, hd]
  rfl

theorem Drained.beside (h : s.Drained cfg) (htraced : s'.Traced cfg) {i : ℕ} {d : WorkerData}
    {c : Client} (hbeside : Beside s s' t i d c)
    (hc : ∀ n, c = .joining n → ∀ j < n, (s.data j).place = .exited) : s'.Drained cfg := by
  refine h.of_same htraced (fun j => ?_) (fun u n hu => ?_) fun hj => ?_
  · rw [hbeside.data, Function.update_apply]
    split_ifs with hji
    · rw [hji]
      exact ⟨hbeside.same.place, line_of_values hbeside.same.values⟩
    · exact ⟨rfl, id⟩
  · rw [hbeside.clients, Function.update_apply] at hu
    split_ifs at hu
    · exact hc n hu
    · exact h.joining u n hu
  · exact h.joined (hbeside.joined ▸ hj)

theorem submitStep_ne_joining {accepting : Bool} {i : ℕ} {d d' : WorkerData} {c c' : Client}
    (hworker : c.worker = some i) (h : submitStep cfg accepting t k d c = some (d', c')) (n : ℕ) :
    c' ≠ .joining n := by
  have hcall : c.unplaced ≠ none ∨ c.placed ≠ none := by
    cases c with
    | unlocking task idx ok => cases ok <;> simp [Client.unplaced, Client.placed]
    | _ => simp_all [Client.unplaced, Client.placed, Client.worker]
  rintro rfl
  rcases submitStep_cases h with ⟨-, hun, hpl, -⟩ | ⟨task, j, -, -, -, hpl, -⟩
  · exact hcall.elim (fun hne => hne hun.symm) fun hne => hne hpl.symm
  · cases hpl

theorem place_setData_goto {i j : ℕ} {d : WorkerData} {c : Client}
    (h : d.place = (s.data i).place) : (((s.setData i d).goto t c).data j).place =
      (s.data j).place := by
  change (Function.update s.data i d j).place = _
  rw [Function.update_apply]
  split_ifs with hj
  · rw [h, hj]
  · rfl

theorem Drained.client (h : s.Drained cfg) (hkeeps : s.KeepsTasks (.client t k))
    (hstep : s.client cfg t k = some s') : s'.Drained cfg := by
  have htraced := h.traced.client hstep
  rcases client_cases hstep with ⟨i, d, c, hworker, -, hsub, rfl⟩ | ⟨task, idx, hc, rfl⟩ |
    ⟨task, ok, hc, rfl⟩ | ⟨i, hc, ⟨hdone, rfl⟩ | ⟨hexited, rfl⟩⟩ | ⟨i, d, c, hc, hc', -, hbeside⟩
  · have hnot := submitStep_ne_joining hworker hsub
    rcases submitStep_cases hsub with ⟨hsame, -⟩ | ⟨task, j, -, hj, -, -, -, -, hpush, rfl⟩
    · exact h.beside htraced ⟨rfl, rfl, rfl, rfl, rfl, rfl, hsame⟩ fun n hn => absurd hn (hnot n)
    · -- a task gets its place at a worker that stays
      obtain rfl := Option.some.inj (hj.symm.trans hworker)
      have hstays : (s.data j).place.isGone = false := by
        refine hkeeps j ?_
        rcases hpush with ⟨left, hc⟩ | hc <;> rw [hc] <;> rfl
      refine ⟨htraced, fun l hl => ?_, fun u n hu l hl => ?_, fun hjoined l hl => ?_⟩
      · replace hl : (Function.update s.data j _ l).place.isGone = true := hl
        change (Function.update s.data j _ l).queue.line = []
        rw [Function.update_apply] at hl ⊢
        split_ifs at hl ⊢
        · cases hstays.symm.trans hl
        · exact h.gone l hl
      · replace hu : Function.update s.clients t c u = .joining n := hu
        rw [Function.update_apply] at hu
        split_ifs at hu
        · exact absurd hu (hnot n)
        · refine (place_setData_goto ?_).trans (h.joining u n hu l hl)
          rfl
      · refine (place_setData_goto ?_).trans (h.joined hjoined l hl)
        rfl
  · refine h.beside htraced (beside_goto s t _) fun n hn => ?_
    split_ifs at hn
  · refine h.of_same htraced (fun _ => ⟨rfl, id⟩) (fun u n hu => ?_) h.joined
    replace hu : Function.update s.clients t .outside u = .joining n := hu
    rw [Function.update_apply] at hu
    split_ifs at hu
    exact h.joining u n hu
  · refine h.of_same htraced (fun _ => ⟨rfl, id⟩) (fun u n hu => ?_) fun _ => ?_
    · replace hu : Function.update s.clients t .outside u = .joining n := hu
      rw [Function.update_apply] at hu
      split_ifs at hu
      exact h.joining u n hu
    · rcases hdone with hjoined | hle
      · exact h.joined hjoined
      · exact fun j hj => h.joining t i hc j (by omega)
  · refine h.beside htraced (beside_goto s t _) fun n hn j hj => ?_
    obtain rfl := Client.joining.inj hn
    rcases Nat.lt_succ_iff_lt_or_eq.1 hj with hj | rfl
    · exact h.joining t i hc j hj
    · exact hexited
  · refine h.beside htraced hbeside fun n hn => ?_
    rw [hn] at hc'
    cases hc'

theorem Drained.step {e : Event} (h : s.Drained cfg) (hkeeps : s.KeepsTasks e)
    (hstep : s.step cfg e = some s') : s'.Drained cfg := by
  have htraced := h.traced.step hstep
  cases e with
  | submit t valid idx =>
    simp only [ThreadPool.step] at hstep
    split_ifs at hstep
    all_goals
      obtain rfl := Option.some.inj hstep
      refine h.of_same htraced (fun _ => ⟨rfl, id⟩) (fun u n hu => ?_) h.joined
      replace hu : Function.update s.clients t _ u = .joining n := hu
      rw [Function.update_apply] at hu
      split_ifs at hu
      exact h.joining u n hu
  | stop t =>
    simp only [ThreadPool.step] at hstep
    split_ifs at hstep
    obtain rfl := Option.some.inj hstep
    exact h.beside htraced (beside_goto s t _) nofun
  | join t =>
    simp only [ThreadPool.step] at hstep
    split_ifs at hstep
    obtain rfl := Option.some.inj hstep
    refine h.beside htraced (beside_goto s t _) fun n hn => ?_
    obtain rfl := Client.joining.inj hn
    nofun
  | client t k => exact h.client hkeeps hstep
  | worker i =>
    simp only [ThreadPool.step] at hstep
    split_ifs at hstep
    obtain ⟨d, hd, rfl⟩ := Option.map_eq_some_iff.1 hstep
    obtain ⟨-, -, hnot, -, hgone⟩ := work_cases hd
    -- a worker that has left makes no more steps
    have hexited : ∀ j, (s.data j).place = .exited →
        (Function.update s.data i d j).place = .exited := by
      intro j hj
      rw [Function.update_of_ne]
      · exact hj
      · rintro rfl
        exact hnot hj
    refine ⟨htraced, fun j hj => ?_, fun u n hu j hj => hexited j (h.joining u n hu j hj),
      fun hjoined j hj => hexited j (h.joined hjoined j hj)⟩
    replace hj : (Function.update s.data i d j).place.isGone = true := hj
    change (Function.update s.data i d j).queue.line = []
    rw [Function.update_apply] at hj ⊢
    split_ifs at hj ⊢
    · obtain ⟨hqueue, hold | ⟨hstop, hplace⟩⟩ := hgone hj
      · rw [hqueue]
        exact h.gone i hold
      · rw [hqueue]
        exact hkeeps hstop hplace
    · exact h.gone j hj
  | spurious i waiter =>
    simp only [ThreadPool.step] at hstep
    split_ifs at hstep
    obtain rfl := Option.some.inj hstep
    refine h.of_same htraced (fun j => ?_) h.joining h.joined
    change (Function.update s.data i _ j).place = _ ∧
      (_ → (Function.update s.data i _ j).queue.line = [])
    rw [Function.update_apply]
    split_ifs with hj
    · rw [hj]
      exact ⟨rfl, id⟩
    · exact ⟨rfl, id⟩

/-- **Accepted tasks are run, refused ones are not.**  In every run of any number of
calls of `Submit`, `Stop` and `Join`: a task for which `Submit` returned false is never
run, no task is run twice, and once `Join` has returned every task for which `Submit`
returned true was run exactly once, if every worker that saw the stop flag left an
empty queue behind and no push came to it afterwards. -/
theorem accepted_tasks_run (cfg : PoolConfig) {es : List Event}
    (hrun : exec (step cfg) {} es = some s) :
    (∀ task ∈ s.rejected, s.executions cfg task = 0) ∧ (∀ task, s.executions cfg task ≤ 1) ∧
    (Along (step cfg) KeepsTasks {} es → s.joined = true →
      ∀ task ∈ s.accepted, s.executions cfg task = 1) := by
  have htraced : s.Traced cfg :=
    exec_invariant (traced_init cfg) (fun _ _ _ h hstep => h.step hstep) hrun
  refine ⟨fun task htask => ?_, htraced.executions_le_one, fun halong hjoined task htask => ?_⟩
  · exact htraced.executions_eq_zero (htraced.rejected task htask).2
  · have hdrained : s.Drained cfg :=
      exec_along (I := fun s : ThreadPool => s.Drained cfg)
        (fun _ _ _ h hkeeps hstep => h.step hkeeps hstep)
        ⟨traced_init cfg, nofun, nofun, nofun⟩ halong hrun
    obtain ⟨i, hi, hmem⟩ := htraced.accepted task htask
    have hplace := hdrained.joined hjoined i hi
    have hline := hdrained.gone i (by rw [hplace]; rfl)
    -- all tasks of the worker were run
    have hran : (s.data i).ran = (s.data i).won := by
      rw [← htraced.history i, hplace]
      simp [WorkerPlace.batch, TicketQueue.values, hline]
    rw [htraced.executions_eq hi hmem, hran]
    exact List.count_eq_one_of_mem (htraced.nodup i) hmem

/-- One worker: a task is submitted and run, and then the pool is stopped and joined. -/
def orderly : List Event :=
  [.submit 0 true 0, .client 0 0, .client 0 0, .client 0 0, .client 0 0, .client 0 0, .worker 0,
    .worker 0, .worker 0, .worker 0, .worker 0, .stop 0, .client 0 0, .client 0 0, .client 0 0,
    .client 0 0, .client 0 0, .client 0 0, .worker 0, .worker 0, .join 0, .client 0 0, .client 0 0]

theorem accepted_tasks_run_orderly :
    ∃ s, exec (step { threadCount := 1 }) {} orderly = some s ∧ s.joined = true ∧
      s.accepted = [0] ∧ s.executions { threadCount := 1 } 0 = 1 := by
  have hrun : (exec (step { threadCount := 1 }) {} orderly).map
      (fun s => (s.joined, s.accepted)) = some (true, [0]) := by decide +kernel
  obtain ⟨s, hs, heq⟩ := Option.map_eq_some_iff.1 hrun
  obtain ⟨hjoined, haccepted⟩ := Prod.mk.inj heq
  obtain ⟨-, -, honce⟩ := accepted_tasks_run { threadCount := 1 } hs
  refine ⟨s, hs, hjoined, haccepted, honce (by decide +kernel) hjoined 0 ?_⟩
  rw [haccepted]
  exact List.mem_singleton.2 rfl

/-- One worker: it finds its queue empty and the stop flag set while a call of `Submit` is
between its test of `accepting_tasks_` and its push.  The push succeeds, `Submit` returns
true, and nobody runs the task. -/
theorem accepted_task_lost :
    ∃ s, exec (step { threadCount := 1 }) {}
      [.submit 0 true 0, .client 0 0, .stop 1, .client 1 0, .client 1 0, .worker 0, .worker 0,
        .client 0 0, .client 0 0, .client 0 0, .client 0 0, .client 1 0, .client 1 0, .client 1 0,
        .client 1 0, .join 1, .client 1 0, .client 1 0] = some s ∧
      s.joined = true ∧ s.accepted = [0] ∧ s.executions { threadCount := 1 } 0 = 0 :=
  ⟨_, rfl, rfl, rfl, rfl⟩

end ThreadPool
end Common
end MiniRpc
