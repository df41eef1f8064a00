/-
# Sleeping in the thread pool

The worker that waits for work and the callers of `Submit` that wait for room
share one condition variable (`src/common/thread_pool.cpp`).  The worker
announces room without the mutex: `notify_all` after `PopBatch`.  A caller in the
slow path holds the mutex from its failed push to `cv.wait`, but that does not
keep the worker from popping and notifying in between, and then nobody tells the
caller again (`submit_sleeps_on`).

The announcement is all that is missing: a caller that sleeps, or is about to,
found the queue full, so if there is room now the worker has popped since, and
unless the worker notified in that gap it still has to (`Announced`).
-/

import MiniRpc.Common.ThreadPool

namespace MiniRpc
namespace Common

open Transition

/-- The worker has taken tasks and not yet told the callers that there is room. -/
def WorkerPlace.owesNotify : WorkerPlace → Bool
  | .popping batch => batch ≠ []
  | .notifying _ => true
  | _ => false

/-- The worker at which a call of `Submit` is between its failed push and `cv.wait`. -/
def Client.fallingAsleep : Client → Option ℕ
  | .slowAccepting _ idx | .slowSleep _ idx => some idx
  | _ => none

/-- The worker at which a call of `Submit` sleeps in `cv.wait`, or is about to. -/
def Client.resting : Client → Option ℕ
  | .slowAccepting _ idx | .slowSleep _ idx | .slowWaiting _ idx => some idx
  | _ => none

/-- A call that will notify worker `w` of its own accord: it has pushed a task there, or
it is in `Stop`. -/
def Client.willNotify (w : ℕ) : Client → Bool
  | .filling _ idx _ _ | .checkWaiting _ idx | .lockNotify _ idx | .notifyOne _ idx => idx = w
  | .stopLock i | .stopUnlock i | .stopNotify i => i ≤ w
  | _ => false

namespace ThreadPool

variable {cfg : PoolConfig} {s s' : ThreadPool} {t k : ℕ}

/-- The call of `Submit` by `t` sleeps in `cv.wait` of worker `w`. -/
def Asleep (s : ThreadPool) (t w : ℕ) : Prop :=
  (∃ task, s.clients t = .slowWaiting task w) ∧ some t ∈ (s.data w).waiters

/-- A call sleeps for room at worker `w` although there is room, the worker sleeps too,
and nobody is about to notify. -/
def Stuck (cfg : PoolConfig) (s : ThreadPool) (w : ℕ) : Prop :=
  s.acceptingTasks = true ∧ (∃ t, s.Asleep t w) ∧
    (s.data w).queue.line.length < cfg.queueCapacity ∧
    (s.data w).place = .waiting ∧ none ∈ (s.data w).waiters ∧
    ∀ t, (s.clients t).willNotify w = false

/-- No worker announces room, where there is room, while a call of `Submit` is between its
failed push and its `cv.wait`. -/
def HearsNotify (cfg : PoolConfig) (s : ThreadPool) : Event → Prop
  | .worker i => ∀ batch, (s.data i).place = .notifying batch →
      (s.data i).queue.line.length < cfg.queueCapacity →
      ∀ t, (s.clients t).fallingAsleep ≠ some i
  | _ => True

/-- Where a call sleeps, or is about to, the queue is full or the worker has yet to
announce room. -/
def Announced (cfg : PoolConfig) (s : ThreadPool) : Prop :=
  ∀ t w, (s.clients t).fallingAsleep = some w ∨ s.Asleep t w →
    cfg.queueCapacity ≤ (s.data w).queue.line.length ∨ (s.data w).place.owesNotify = true

/-- **A step of `Submit`** wakes others or nobody, leaves the worker where it is and takes
nothing out of its queue; the call comes to sleep only after it found the queue full. -/
theorem submitStep_sleep {accepting : Bool} {d d' : WorkerData} {c c' : Client}
    (h : submitStep cfg accepting t k d c = some (d', c')) :
    d'.place = d.place ∧ d.queue.line.length ≤ d'.queue.line.length ∧
    (∀ u, u ≠ t → some u ∈ d'.waiters → some u ∈ d.waiters) ∧
    (c'.resting = none ∨ c'.resting = c.fallingAsleep ∨
      c'.resting = c.worker ∧ c'.fallingAsleep = c.worker ∧
        cfg.queueCapacity ≤ d.queue.line.length) := by
  have hsame : ∀ {p q : List (Option ℕ)}, p = q → ∀ u, u ≠ t → some u ∈ p → some u ∈ q :=
    fun hpq u _ hu => hpq ▸ hu
  cases c with
  | tryPush task idx left =>
    simp only [submitStep] at h
    split_ifs at h
    · obtain ⟨rfl, rfl⟩ := Prod.mk.inj (Option.some.inj h)
      exact ⟨rfl, by simp [TicketQueue.reserve], hsame rfl, Or.inl rfl⟩
    · obtain ⟨rfl, rfl⟩ := Prod.mk.inj (Option.some.inj h)
      exact ⟨rfl, le_rfl, hsame rfl, Or.inl rfl⟩
    · obtain ⟨rfl, rfl⟩ := Prod.mk.inj (Option.some.inj h)
      exact ⟨rfl, le_rfl, hsame rfl, Or.inl rfl⟩
  | slowPush task idx =>
    simp only [submitStep] at h
    split_ifs at h with hroom
    · obtain ⟨rfl, rfl⟩ := Prod.mk.inj (Option.some.inj h)
      exact ⟨rfl, by simp [TicketQueue.reserve], hsame rfl, Or.inl rfl⟩
    · obtain ⟨rfl, rfl⟩ := Prod.mk.inj (Option.some.inj h)
      exact ⟨rfl, le_rfl, hsame rfl, Or.inr (Or.inr ⟨rfl, rfl, Nat.le_of_not_lt hroom⟩)⟩
  | filling task idx ticket slow =>
    obtain ⟨rfl, rfl⟩ := Prod.mk.inj (Option.some.inj h)
    refine ⟨rfl, by simp [TicketQueue.fill], hsame rfl, Or.inl ?_⟩
    cases slow <;> rfl
  | checkWaiting task idx =>
    obtain ⟨rfl, rfl⟩ := Prod.mk.inj (Option.some.inj h)
    refine ⟨rfl, le_rfl, hsame rfl, Or.inl ?_⟩
    split_ifs <;> rfl
  | lockNotify task idx =>
    simp only [submitStep] at h
    split_ifs at h
    obtain ⟨rfl, rfl⟩ := Prod.mk.inj (Option.some.inj h)
    exact ⟨rfl, le_rfl, hsame rfl, Or.inl rfl⟩
  | notifyOne task idx =>
    simp only [submitStep] at h
    split_ifs at h
    obtain ⟨rfl, rfl⟩ := Prod.mk.inj (Option.some.inj h)
    exact ⟨rfl, le_rfl, fun u _ hu => List.mem_of_mem_eraseIdx hu, Or.inl rfl⟩
  | unlocking task idx ok =>
    obtain ⟨rfl, rfl⟩ := Prod.mk.inj (Option.some.inj h)
    exact ⟨rfl, le_rfl, hsame rfl, Or.inl rfl⟩
  | lockSlow task idx =>
    simp only [submitStep] at h
    split_ifs at h
    obtain ⟨rfl, rfl⟩ := Prod.mk.inj (Option.some.inj h)
    exact ⟨rfl, le_rfl, hsame rfl, Or.inl rfl⟩
  | slowAccepting task idx =>
    obtain ⟨rfl, rfl⟩ := Prod.mk.inj (Option.some.inj h)
    refine ⟨rfl, le_rfl, hsame rfl, ?_⟩
    split_ifs
    · exact Or.inr (Or.inl rfl)
    · exact Or.inl rfl
  | slowSleep task idx =>
    obtain ⟨rfl, rfl⟩ := Prod.mk.inj (Option.some.inj h)
    refine ⟨rfl, le_rfl, fun u hu hmem => ?_, Or.inr (Or.inl rfl)⟩
    rcases List.mem_append.1 hmem with hmem | hmem
    · exact hmem
    · exact absurd (Option.some.inj (List.mem_singleton.1 hmem)) hu
  | slowWaiting task idx =>
    simp only [submitStep] at h
    split_ifs at h
    obtain ⟨rfl, rfl⟩ := Prod.mk.inj (Option.some.inj h)
    exact ⟨rfl, le_rfl, hsame rfl, Or.inl rfl⟩
  | _ => cases h

/-- **A step of a worker**: it owes the callers a notification afterwards, or it has just
notified them all, or it has taken nothing. -/
theorem work_notify {stop : Bool} {d d' : WorkerData} (h : d.work cfg stop = some d') :
    (∀ u, some u ∈ d'.waiters → some u ∈ d.waiters) ∧
    (d'.place.owesNotify = true ∨
      (∃ batch, d.place = .notifying batch) ∧ d'.waiters = [] ∧ d'.queue = d.queue ∨
      d.place.owesNotify = false ∧ d'.queue = d.queue) := by
  unfold WorkerData.work at h
  cases hplace : d.place <;> rw [hplace] at h
  case popping batch =>
    dsimp only at h
    split at h
    · obtain rfl := Option.some.inj h
      exact ⟨fun _ => id, Or.inl (by simp [WorkerPlace.owesNotify])⟩
    · obtain rfl := Option.some.inj h
      refine ⟨fun _ => id, ?_⟩
      split_ifs with hnil
      · exact Or.inr (Or.inr ⟨by simp [WorkerPlace.owesNotify, hnil], rfl⟩)
      · exact Or.inl rfl
  case notifying batch =>
    obtain rfl := Option.some.inj h
    exact ⟨nofun, Or.inr (Or.inl ⟨⟨batch, rfl⟩, rfl, rfl⟩)⟩
  case running batch =>
    cases batch with
    | nil =>
      obtain rfl := Option.some.inj h
      exact ⟨fun _ => id, Or.inr (Or.inr ⟨rfl, rfl⟩)⟩
    | cons task batch =>
      obtain rfl := Option.some.inj h
      exact ⟨fun _ => id, Or.inr (Or.inr ⟨rfl, rfl⟩)⟩
  case locking =>
    dsimp only at h
    split_ifs at h
    obtain rfl := Option.some.inj h
    exact ⟨fun _ => id, Or.inr (Or.inr ⟨rfl, rfl⟩)⟩
  case waiting =>
    dsimp only at h
    split_ifs at h
    obtain rfl := Option.some.inj h
    exact ⟨fun _ => id, Or.inr (Or.inr ⟨rfl, rfl⟩)⟩
  case sleeping =>
    obtain rfl := Option.some.inj h
    exact ⟨fun u hu => by simpa using hu, Or.inr (Or.inr ⟨rfl, rfl⟩)⟩
  case exited => cases h
  all_goals
    obtain rfl := Option.some.inj h
    exact ⟨fun _ => id, Or.inr (Or.inr ⟨rfl, rfl⟩)⟩

/-- Steps after which nobody sleeps, or is about to, who did not before, except one who
found the queue full, and which leave the debts of the workers and take nothing out of
their queues. -/
theorem Announced.of_fewer (h : s.Announced cfg)
    (hfalling : ∀ t w, (s'.clients t).fallingAsleep = some w →
      (s.clients t).fallingAsleep = some w ∨ cfg.queueCapacity ≤ (s'.data w).queue.line.length)
    (hasleep : ∀ t w, s'.Asleep t w → (s.clients t).fallingAsleep = some w ∨ s.Asleep t w)
    (hdata : ∀ w, (s'.data w).place = (s.data w).place ∧
      (s.data w).queue.line.length ≤ (s'.data w).queue.line.length) : s'.Announced cfg := by
  intro t w htw
  obtain ⟨hplace, hline⟩ := hdata w
  have hold : ((s.clients t).fallingAsleep = some w ∨ s.Asleep t w) ∨
      cfg.queueCapacity ≤ (s'.data w).queue.line.length :=
    htw.elim (fun hf => (hfalling t w hf).imp_left Or.inl) fun ha => Or.inl (hasleep t w ha)
  rcases hold with hold | hfull
  · rw [hplace]
    exact (h t w hold).imp_left fun hfull => hfull.trans hline
  · exact Or.inl hfull

theorem resting_of_fallingAsleep {c : Client} {w : ℕ} (h : c.fallingAsleep = some w) :
    c.resting = some w := by
  cases c <;> first | exact h | cases h

/-- A call moves, and the data of a worker changes little. -/
theorem Announced.update (h : s.Announced cfg) {i : ℕ} {d : WorkerData} {c : Client}
    (hclients : s'.clients = Function.update s.clients t c)
    (hdata : s'.data = Function.update s.data i d) (hplace : d.place = (s.data i).place)
    (hline : (s.data i).queue.line.length ≤ d.queue.line.length)
    (hwaiters : ∀ u, u ≠ t → some u ∈ d.waiters → some u ∈ (s.data i).waiters)
    (hresting : c.resting = none ∨ c.resting = (s.clients t).fallingAsleep ∨
      c.resting = some i ∧ c.fallingAsleep = some i ∧
        cfg.queueCapacity ≤ d.queue.line.length) : s'.Announced cfg := by
  refine h.of_fewer (fun u w hu => ?_) (fun u w hu => ?_) fun w => ?_
  · rw [hclients, Function.update_apply] at hu
    split_ifs at hu with hut
    · rw [hut, hdata]
      have hw := resting_of_fallingAsleep hu
      rcases hresting with hnone | hsame | ⟨hi, -, hfull⟩
      · cases hnone.symm.trans hw
      · exact Or.inl (hsame.symm.trans hw)
      · obtain rfl := Option.some.inj (hi.symm.trans hw)
        right
        rw [Function.update_self]
        exact hfull
    · exact Or.inl hu
  · obtain ⟨⟨task, hu⟩, hmem⟩ := hu
    rw [hclients, Function.update_apply] at hu
    split_ifs at hu with hut
    · left
      rw [hu] at hresting
      rcases hresting with hnone | hsame | ⟨-, hfalling, -⟩
      · cases hnone
      · rw [hut, ← hsame]
        rfl
      · cases hfalling
    · refine Or.inr ⟨⟨task, hu⟩, ?_⟩
      rw [hdata, Function.update_apply] at hmem
      split_ifs at hmem with hwi
      · rw [hwi]
        exact hwaiters u hut hmem
      · exact hmem
  · rw [hdata, Function.update_apply]
    split_ifs with hwi
    · rw [hwi]
      exact ⟨hplace, hline⟩
    · exact ⟨rfl, le_rfl⟩

/-- A call moves and is awake. -/
theorem Announced.goto (h : s.Announced cfg) (c : Client) (hresting : c.resting = none) :
    (s.goto t c).Announced cfg :=
  h.update (i := 0) (d := s.data 0) rfl (Function.update_eq_self 0 s.data).symm rfl le_rfl
    (fun _ _ => id) (Or.inl hresting)

theorem Announced.client (h : s.Announced cfg) (hstep : s.client cfg t k = some s') :
    s'.Announced cfg := by
  rcases client_cases hstep with ⟨i, d, c, hworker, -, hsub, rfl⟩ | ⟨task, idx, hc, rfl⟩ |
    ⟨task, ok, hc, rfl⟩ | ⟨i, hc, ⟨hdone, rfl⟩ | ⟨hexited, rfl⟩⟩ |
    ⟨i, d, c, hc, hc', hwaiters, hbeside⟩
  · obtain ⟨hplace, hline, hwaiters, hresting⟩ := submitStep_sleep hsub
    rw [hworker] at hresting
    refine h.update rfl rfl hplace hline hwaiters (hresting.imp_right (Or.imp_right ?_))
    rintro ⟨hi, hfalling, hfull⟩
    exact ⟨hi, hfalling, hfull.trans hline⟩
  · refine h.goto _ ?_
    split_ifs <;> rfl
  · exact Announced.goto (s := { s with
      accepted := if ok then s.accepted ++ [task] else s.accepted
      rejected := if ok then s.rejected else s.rejected ++ [task] }) h .outside rfl
  · exact Announced.goto (s := { s with joined := true }) h .outside rfl
  · exact h.goto (.joining (i + 1)) rfl
  · have hawake : c.resting = none := by
      cases c with
      | slowAccepting task idx | slowSleep task idx | slowWaiting task idx => cases hc'
      | _ => rfl
    refine h.update hbeside.clients hbeside.data hbeside.same.place (Nat.le_of_eq ?_)
      (fun u _ => hwaiters (some u)) (Or.inl hawake)
    rw [← TicketQueue.values_length, ← hbeside.same.values, TicketQueue.values_length]

/-- A worker moves: where it notifies, nobody is about to sleep, unless the queue is full. -/
theorem Announced.work (h : s.Announced cfg) {i : ℕ} {stop : Bool} {d : WorkerData}
    (hhears : s.HearsNotify cfg (.worker i)) (hwork : (s.data i).work cfg stop = some d) :
    (s.setData i d).Announced cfg := by
  obtain ⟨hwaiters, hcases⟩ := work_notify hwork
  intro t w htw
  by_cases hwi : w = i
  · subst hwi
    have hdata : (s.setData w d).data w = d := Function.update_self _ _ _
    rw [hdata]
    have hold : (s.clients t).fallingAsleep = some w ∨ (s.Asleep t w ∧ some t ∈ d.waiters) := by
      rcases htw with hfalling | ⟨hc, hmem⟩
      · exact Or.inl hfalling
      · rw [hdata] at hmem
        exact Or.inr ⟨⟨hc, hwaiters t hmem⟩, hmem⟩
    rcases hcases with howes | ⟨⟨batch, hplace⟩, hnone, hqueue⟩ | ⟨howed, hqueue⟩
    · exact Or.inr howes
    · rcases hold with hfalling | ⟨-, hmem⟩
      · left
        rw [hqueue]
        by_contra hroom
        exact hhears batch hplace (by omega) t hfalling
      · -- everybody was woken
        rw [hnone] at hmem
        cases hmem
    · left
      rw [hqueue]
      rcases h t w (hold.imp_right And.left) with hfull | howes
      · exact hfull
      · cases howed.symm.trans howes
  · have hdata : (s.setData i d).data w = s.data w := Function.update_of_ne hwi _ _
    rw [hdata]
    rcases htw with hfalling | ⟨hc, hmem⟩
    · exact h t w (Or.inl hfalling)
    · rw [hdata] at hmem
      exact h t w (Or.inr ⟨hc, hmem⟩)

/-- A waiter wakes up without a notification. -/
theorem Announced.spurious (h : s.Announced cfg) (i : ℕ) (waiter : Option ℕ) :
    (s.setData i { s.data i with
      waiters := (s.data i).waiters.erase waiter }).Announced cfg := by
  have hdata : ∀ w, ((s.setData i { s.data i with
      waiters := (s.data i).waiters.erase waiter }).data w).place = (s.data w).place ∧
        ((s.setData i { s.data i with
          waiters := (s.data i).waiters.erase waiter }).data w).queue = (s.data w).queue ∧
        ∀ u ∈ ((s.setData i { s.data i with
          waiters := (s.data i).waiters.erase waiter }).data w).waiters,
            u ∈ (s.data w).waiters := by
    intro w
    unfold setData
    dsimp only
    rw [Function.update_apply]
    split_ifs with hw
    · rw [hw]
      exact ⟨rfl, rfl, fun u => List.mem_of_mem_erase⟩
    · exact ⟨rfl, rfl, fun _ => id⟩
  refine h.of_fewer (fun _ _ => Or.inl) ?_ fun w => ?_
  · rintro u w ⟨hc, hmem⟩
    exact Or.inr ⟨hc, (hdata w).2.2 _ hmem⟩
  · obtain ⟨hplace, hqueue, -⟩ := hdata w
    refine ⟨hplace, ?_⟩
    rw [hqueue]

theorem Announced.step {e : Event} (h : s.Announced cfg) (hhears : s.HearsNotify cfg e)
    (hstep : s.step cfg e = some s') : s'.Announced cfg := by
  cases e with
  | submit t valid idx =>
    simp only [ThreadPool.step] at hstep
    split_ifs at hstep
    all_goals
      obtain rfl := Option.some.inj hstep
      exact Announced.goto (s := { s with tasks := s.tasks + 1 }) h _ rfl
  | stop t =>
    simp only [ThreadPool.step] at hstep
    split_ifs at hstep
    obtain rfl := Option.some.inj hstep
    exact h.goto .stopAccepting rfl
  | join t =>
    simp only [ThreadPool.step] at hstep
    split_ifs at hstep
    obtain rfl := Option.some.inj hstep
    exact h.goto (.joining 0) rfl
  | client t k => exact h.client hstep
  | worker i =>
    simp only [ThreadPool.step] at hstep
    split_ifs at hstep
    obtain ⟨d, hd, rfl⟩ := Option.map_eq_some_iff.1 hstep
    exact h.work hhears hd
  | spurious i waiter =>
    simp only [ThreadPool.step] at hstep
    split_ifs at hstep
    obtain rfl := Option.some.inj hstep
    exact h.spurious i waiter

theorem announced_init (cfg : PoolConfig) : ({} : ThreadPool).Announced cfg := by
  rintro t w (hf | ⟨⟨task, hc⟩, -⟩)
  · cases hf
  · cases hc

/-- **Nobody oversleeps.**  In every run of any number of calls in which no worker
announces room while a call of `Submit` is between its failed push and its `cv.wait`: no
call sleeps for room at a worker that has room and sleeps too. -/
theorem never_stuck (cfg : PoolConfig) {es : List Event} (hrun : exec (step cfg) {} es = some s)
    (hhears : Along (step cfg) (HearsNotify cfg) {} es) (w : ℕ) : ¬ s.Stuck cfg w := by
  have hannounced : s.Announced cfg :=
    exec_along (I := fun s : ThreadPool => s.Announced cfg)
      (fun _ _ _ h hhears hstep => h.step hhears hstep) (announced_init cfg) hhears hrun
  rintro ⟨-, ⟨t, hasleep⟩, hroom, hplace, -, -⟩
  rcases hannounced t w (Or.inr hasleep) with hfull | howes
  · omega
  · rw [hplace] at howes
    cases howes

/-- One worker with two slots. -/
def twoRooms : PoolConfig := ⟨1, 2, 1⟩

/-- Two tasks fill the queue and a third call sleeps; then the worker takes a task and
notifies. -/
def roomAnnounced : List Event :=
  [.submit 0 true 0, .client 0 0, .client 0 0, .client 0 0, .client 0 0, .client 0 0,
    .submit 0 true 0, .client 0 0, .client 0 0, .client 0 0, .client 0 0, .client 0 0,
    .submit 1 true 0, .client 1 0, .client 1 0, .client 1 0, .client 1 0, .client 1 0, .client 1 0,
    .worker 0, .worker 0, .worker 0]

theorem never_stuck_announced :
    ∃ s, exec (step twoRooms) {} roomAnnounced = some s ∧ s.clients 1 = .slowWaiting 2 0 ∧
      ¬ s.Stuck twoRooms 0 := by
  have hhears : Along (step twoRooms) (HearsNotify twoRooms) {} roomAnnounced := by
    iterate 19 refine .cons trivial rfl ?_
    refine .cons nofun rfl <| .cons nofun rfl <| .cons ?_ rfl trivial
    -- at the notification both threads are awake or asleep, not in between
    rintro batch - - (_ | _ | t) <;> nofun
  have hrun : (exec (step twoRooms) {} roomAnnounced).map (fun s => s.clients 1) =
      some (.slowWaiting 2 0) := by decide +kernel
  obtain ⟨s, hs, heq⟩ := Option.map_eq_some_iff.1 hrun
  exact ⟨s, hs, heq, never_stuck _ hs hhears 0⟩

/-! ### A call that sleeps on -/

theorem client_of_submitStep {i : ℕ} {d : WorkerData} {c : Client}
    (h : submitStep cfg s.acceptingTasks t k (s.data i) (s.clients t) = some (d, c))
    (hworker : (s.clients t).worker = some i) (hjoined : s.joined = false) :
    s.client cfg t k = some ((s.setData i d).goto t c) := by
  unfold client
  cases hc : s.clients t <;> rw [hc] at h hworker
  all_goals first
    | (obtain rfl := Option.some.inj hworker
       simp only [Client.worker, Option.bind_eq_bind, Option.bind_some, hjoined, h]
       rfl)
    | cases h

/-- A pool with one worker and two threads that call it. -/
def pool (c₀ c₁ : Client) (d : WorkerData) (tasks : ℕ) (accepted : List ℕ) : ThreadPool where
  data i := if i = 0 then d else {}
  clients t := if t = 0 then c₀ else if t = 1 then c₁ else .outside
  tasks := tasks
  accepted := accepted

theorem pool_goto_zero (c₀ c₁ c : Client) (d : WorkerData) (n : ℕ) (accepted : List ℕ) :
    (pool c₀ c₁ d n accepted).goto 0 c = pool c c₁ d n accepted := by
  unfold pool ThreadPool.goto
  congr 1
  funext t
  by_cases ht : t = 0 <;> simp [ht]

theorem pool_goto_one (c₀ c₁ c : Client) (d : WorkerData) (n : ℕ) (accepted : List ℕ) :
    (pool c₀ c₁ d n accepted).goto 1 c = pool c₀ c d n accepted := by
  unfold pool ThreadPool.goto
  congr 1
  funext t
  by_cases ht : t = 1 <;> simp [ht]

theorem pool_setData (c₀ c₁ : Client) (d d' : WorkerData) (n : ℕ) (accepted : List ℕ) :
    (pool c₀ c₁ d n accepted).setData 0 d' = pool c₀ c₁ d' n accepted := by
  unfold pool setData
  congr 1
  funext i
  by_cases hi : i = 0 <;> simp [hi]

/-- One worker, with the capacity and the batch size of the source. -/
def single : PoolConfig := { threadCount := 1 }

/-- A step of the first thread in `Submit`. -/
theorem step_zero {c₀ c : Client} {d d' : WorkerData} {n : ℕ} {accepted : List ℕ}
    (h : submitStep single true 0 0 d c₀ = some (d', c)) (hworker : c₀.worker = some 0)
    (c₁ : Client) :
    step single (pool c₀ c₁ d n accepted) (.client 0 0) = some (pool c c₁ d' n accepted) := by
  have hstep := client_of_submitStep (s := pool c₀ c₁ d n accepted) (i := 0) (t := 0) h hworker rfl
  rw [pool_setData, pool_goto_zero] at hstep
  exact hstep

/-- A step of the second thread in `Submit`. -/
theorem step_one {c₁ c : Client} {d d' : WorkerData} {n : ℕ} {accepted : List ℕ}
    (h : submitStep single true 1 0 d c₁ = some (d', c)) (hworker : c₁.worker = some 0)
    (c₀ : Client) :
    step single (pool c₀ c₁ d n accepted) (.client 1 0) = some (pool c₀ c d' n accepted) := by
  have hstep := client_of_submitStep (s := pool c₀ c₁ d n accepted) (i := 0) (t := 1) h hworker rfl
  rw [pool_setData, pool_goto_one] at hstep
  exact hstep

/-- A step of the worker. -/
theorem step_worker {d d' : WorkerData} (h : d.work single false = some d') (c₀ c₁ : Client)
    (n : ℕ) (accepted : List ℕ) :
    step single (pool c₀ c₁ d n accepted) (.worker 0) = some (pool c₀ c₁ d' n accepted) := by
  have hstep : step single (pool c₀ c₁ d n accepted) (.worker 0) =
      (d.work single false).map ((pool c₀ c₁ d n accepted).setData 0) := rfl
  rw [hstep, h, Option.map_some, pool_setData]

/-- The tasks of `line` are in the queue, and the worker has not run yet. -/
def stock (line : List ℕ) : WorkerData where
  queue := ⟨0, line.map fun task => (task, true)⟩
  won := line

/-- The mutex is held; the tasks of `line` are in the queue, and the worker has run those
of `ran`. -/
def held (won : List ℕ) (served : ℕ) (line : List ℕ) (place : WorkerPlace) (ran : List ℕ) :
    WorkerData where
  queue := ⟨served, line.map fun task => (task, true)⟩
  cvMutex := true
  place := place
  won := won
  ran := ran

variable {c₀ c₁ : Client} {n served : ℕ} {accepted won ran : List ℕ}

/-- A call of `Submit` that pushes at once. -/
theorem reaches_push {line : List ℕ} (hline : line.length < 1024) :
    Reaches (step single) (pool .outside c₁ (stock line) n accepted)
      (pool .outside c₁ (stock (line ++ [n])) (n + 1) (accepted ++ [n])) := by
  have hroom : (stock line).queue.line.length < single.queueCapacity := by
    simpa [stock, single] using hline
  let d : WorkerData := { stock line with
    queue := (stock line).queue.reserve n, won := line ++ [n] }
  have hsubmit : step single (pool .outside c₁ (stock line) n accepted) (.submit 0 true 0) =
      some (pool (.checkAccepting n 0) c₁ (stock line) (n + 1) accepted) :=
    congrArg some (pool_goto_zero .outside c₁ _ _ _ _)
  have haccepting : step single (pool (.checkAccepting n 0) c₁ (stock line) (n + 1) accepted)
      (.client 0 0) = some (pool (.tryPush n 0 1) c₁ (stock line) (n + 1) accepted) :=
    congrArg some (pool_goto_zero (.checkAccepting n 0) c₁ _ _ _ _)
  have hpush : submitStep single true 0 0 (stock line) (.tryPush n 0 1) =
      some (d, .filling n 0 (stock line).queue.ticket false) := if_pos hroom
  have hfilled : ({ d with queue := d.queue.fill (stock line).queue.ticket } : WorkerData) =
      stock (line ++ [n]) := by
    simp only [d, TicketQueue.fill_reserve]
    simp [stock]
  have hfill : submitStep single true 0 0 d (.filling n 0 (stock line).queue.ticket false) =
      some (stock (line ++ [n]), .checkWaiting n 0) := by
    rw [← hfilled]
    rfl
  have hwaiting : submitStep single true 0 0 (stock (line ++ [n])) (.checkWaiting n 0) =
      some (stock (line ++ [n]), .returning n true) := rfl
  have hreturn : step single
      (pool (.returning n true) c₁ (stock (line ++ [n])) (n + 1) accepted) (.client 0 0) =
        some (pool .outside c₁ (stock (line ++ [n])) (n + 1) (accepted ++ [n])) :=
    congrArg some (pool_goto_zero (.returning n true) c₁ _ _ _ _)
  exact .head hsubmit <| .head haccepting <| .head (step_zero hpush rfl _) <|
    .head (step_zero hfill rfl _) <| .head (step_zero hwaiting rfl _) <| .head hreturn <| .refl _

/-- Calls of `Submit` fill the queue before the worker runs. -/
theorem reaches_stock {n : ℕ} (hn : n ≤ 1024) :
    Reaches (step single) {}
      (pool .outside .outside (stock (List.range n)) n (List.range n)) := by
  induction n with
  | zero =>
    have hempty : ({} : ThreadPool) = pool .outside .outside (stock (List.range 0)) 0
        (List.range 0) := by
      unfold pool
      congr 1
      · funext i
        split_ifs <;> rfl
      · funext t
        split_ifs <;> rfl
    rw [hempty]
    exact .refl _
  | succ n ih =>
    rw [List.range_succ]
    exact (ih (by omega)).trans (reaches_push (by rw [List.length_range]; omega))

/-- The worker takes tasks, as many as the batch has room for. -/
theorem reaches_popped (line rest : List ℕ) {batch : List ℕ}
    (hbatch : batch.length + line.length ≤ 32) :
    Reaches (step single)
      (pool c₀ c₁ (held won served (line ++ rest) (.popping batch) ran) n accepted)
      (pool c₀ c₁ (held won (served + line.length) rest (.popping (batch ++ line)) ran) n
        accepted) := by
  induction line generalizing served batch with
  | nil =>
    rw [List.append_nil]
    exact .refl _
  | cons task line ih =>
    rw [List.length_cons] at hbatch
    have hlt : batch.length < single.batchSize := Nat.lt_of_lt_of_le (by omega) hbatch
    have hpop : (held won served (task :: line ++ rest) (.popping batch) ran).work single false =
        some (held won (served + 1) (line ++ rest) (.popping (batch ++ [task])) ran) := by
      simp only [WorkerData.work, held, if_pos hlt]
      rfl
    have hserved : served + (line.length + 1) = served + 1 + line.length := by omega
    refine .head (step_worker hpop _ _ _ _) ?_
    rw [List.length_cons, hserved, List.append_cons batch task line]
    refine ih ?_
    rw [List.length_append, List.length_singleton]
    omega

/-- The worker runs its batch. -/
theorem reaches_ran (line batch : List ℕ) :
    Reaches (step single) (pool c₀ c₁ (held won served line (.running batch) ran) n accepted)
      (pool c₀ c₁ (held won served line (.popping []) (ran ++ batch)) n accepted) := by
  induction batch generalizing ran with
  | nil =>
    rw [List.append_nil]
    exact .head (step_worker rfl _ _ _ _) (.refl _)
  | cons task batch ih =>
    have hrun : (held won served line (.running (task :: batch)) ran).work single false =
        some (held won served line (.running batch) (ran ++ [task])) := rfl
    refine .head (step_worker hrun _ _ _ _) ?_
    rw [List.append_cons ran task batch]
    exact ih

/-- A round of the worker: it takes a full batch, notifies everybody and runs it. -/
theorem reaches_round (line rest : List ℕ) (hline : line.length = 32) :
    Reaches (step single) (pool c₀ c₁ (held won served (line ++ rest) (.popping []) ran) n accepted)
      (pool c₀ c₁ (held won (served + 32) rest (.popping []) (ran ++ line)) n accepted) := by
  have hfull : (held won (served + 32) rest (.popping line) ran).work single false =
      some (held won (served + 32) rest (.notifying line) ran) := by
    have hne : line ≠ [] := List.ne_nil_of_length_pos (by omega)
    simp [WorkerData.work, held, single, hline, hne]
  have hnotify : (held won (served + 32) rest (.notifying line) ran).work single false =
      some (held won (served + 32) rest (.running line) ran) := rfl
  refine (reaches_popped line rest (by simp [hline])).trans ?_
  rw [hline, List.nil_append]
  exact .head (step_worker hfull _ _ _ _) <| .head (step_worker hnotify _ _ _ _) <|
    reaches_ran rest line

/-- The worker drains its queue. -/
theorem reaches_drained (m : ℕ) {line : List ℕ} (hline : line.length = 32 * m) :
    Reaches (step single) (pool c₀ c₁ (held won served line (.popping []) ran) n accepted)
      (pool c₀ c₁ (held won (served + 32 * m) [] (.popping []) (ran ++ line)) n accepted) := by
  induction m generalizing served line ran with
  | zero =>
    obtain rfl := List.eq_nil_of_length_eq_zero hline
    rw [List.append_nil]
    exact .refl _
  | succ m ih =>
    obtain ⟨batch, rest, rfl, hbatch⟩ : ∃ batch rest, line = batch ++ rest ∧ batch.length = 32 :=
      ⟨line.take 32, line.drop 32, (List.take_append_drop 32 line).symm,
        List.length_take_of_le (by omega)⟩
    have hrest : rest.length = 32 * m := by
      rw [List.length_append] at hline
      omega
    have hserved : served + 32 * (m + 1) = served + 32 + 32 * m := by omega
    refine (reaches_round batch rest hbatch).trans ?_
    rw [hserved, ← List.append_assoc]
    exact ih hrest

/-- A second call finds the queue full and holds the mutex after its failed push. -/
theorem reaches_full {line : List ℕ} (hline : line.length = 1024) :
    Reaches (step single) (pool c₀ .outside (stock line) n accepted)
      (pool c₀ (.slowAccepting n 0) (held line 0 line (.popping []) []) (n + 1) accepted) := by
  have hfull : ¬ (stock line).queue.line.length < single.queueCapacity := by
    simp [stock, single, hline]
  have hsubmit : step single (pool c₀ .outside (stock line) n accepted) (.submit 1 true 0) =
      some (pool c₀ (.checkAccepting n 0) (stock line) (n + 1) accepted) :=
    congrArg some (pool_goto_one c₀ .outside _ _ _ _)
  have haccepting : step single (pool c₀ (.checkAccepting n 0) (stock line) (n + 1) accepted)
      (.client 1 0) = some (pool c₀ (.tryPush n 0 1) (stock line) (n + 1) accepted) :=
    congrArg some (pool_goto_one c₀ (.checkAccepting n 0) _ _ _ _)
  have hpush : submitStep single true 1 0 (stock line) (.tryPush n 0 1) =
      some (stock line, .lockSlow n 0) := if_neg hfull
  have hlock : submitStep single true 1 0 (stock line) (.lockSlow n 0) =
      some (held line 0 line (.popping []) [], .slowPush n 0) := rfl
  have hslow : submitStep single true 1 0 (held line 0 line (.popping []) []) (.slowPush n 0) =
      some (held line 0 line (.popping []) [], .slowAccepting n 0) := if_neg hfull
  exact .head hsubmit <| .head haccepting <| .head (step_one hpush rfl _) <|
    .head (step_one hlock rfl _) <| .head (step_one hslow rfl _) <| .refl _

/-- The queue is empty: the worker comes as far as the mutex, the call goes to sleep, and
then the worker does. -/
theorem reaches_asleep {task : ℕ} :
    Reaches (step single)
      (pool .outside (.slowAccepting task 0) (held won served [] (.popping []) ran) n accepted)
      (pool .outside (.slowWaiting task 0) { held won served [] .waiting ran with
        cvMutex := false, isWaiting := true, waiters := [some 1, none] } n accepted) := by
  let d : WorkerData := { held won served [] .locking ran with isWaiting := true }
  let d' : WorkerData := { d with cvMutex := false, waiters := [some 1] }
  have hempty : (held won served [] (.popping []) ran).work single false =
      some (held won served [] .checkStop ran) := rfl
  have hstop : (held won served [] .checkStop ran).work single false =
      some (held won served [] .setWaiting ran) := rfl
  have hset : (held won served [] .setWaiting ran).work single false =
      some { d with place := .checkEmpty } := rfl
  have hcheck : WorkerData.work single false { d with place := .checkEmpty } =
      some { d with place := .recheckStop } := rfl
  have hrecheck : WorkerData.work single false { d with place := .recheckStop } = some d := rfl
  have haccepting : submitStep single true 1 0 d (.slowAccepting task 0) =
      some (d, .slowSleep task 0) := rfl
  have hsleep : submitStep single true 1 0 d (.slowSleep task 0) =
      some (d', .slowWaiting task 0) := rfl
  have hlock : d'.work single false =
      some { d' with cvMutex := true, place := .testStop } := rfl
  have hteststop : WorkerData.work single false { d' with cvMutex := true, place := .testStop } =
      some { d' with cvMutex := true, place := .testEmpty } := rfl
  have htestempty : WorkerData.work single false { d' with cvMutex := true, place := .testEmpty } =
      some { d' with cvMutex := true, place := .sleeping } := rfl
  exact .head (step_worker hempty _ _ _ _) <| .head (step_worker hstop _ _ _ _) <|
    .head (step_worker hset _ _ _ _) <| .head (step_worker hcheck _ _ _ _) <|
    .head (step_worker hrecheck _ _ _ _) <| .head (step_one haccepting rfl _) <|
    .head (step_one hsleep rfl _) <| .head (step_worker hlock _ _ _ _) <|
    .head (step_worker hteststop _ _ _ _) <| .head (step_worker htestempty _ _ _ _) <|
    .head (step_worker rfl _ _ _ _) (.refl _)

/-- One worker, with the capacity and the batch size of the source.  A call of `Submit`
finds the queue full; before it comes to `cv.wait`, the worker takes all the tasks, batch
by batch, and notifies nobody each time.  Then the call and the worker sleep, with an empty
queue and nobody in any other call. -/
theorem submit_sleeps_on :
    ∃ es s, exec (step { threadCount := 1 }) {} es = some s ∧ s.Stuck { threadCount := 1 } 0 ∧
      ∀ t, t ≠ 1 → s.clients t = .outside := by
  have hlength : (List.range 1024).length = 1024 := List.length_range
  obtain ⟨es, hes⟩ := (reaches_stock le_rfl).trans <| (reaches_full hlength).trans <|
    (reaches_drained 32 hlength).trans reaches_asleep
  have houtside : ∀ t, t ≠ 1 → (if t = 0 then Client.outside else
      if t = 1 then .slowWaiting 1024 0 else .outside) = .outside := by
    intro t ht
    split_ifs <;> rfl
  refine ⟨es, _, hes, ⟨rfl, ⟨1, ⟨1024, rfl⟩, ?_⟩, ?_, rfl, ?_, fun t => ?_⟩, houtside⟩
  · exact List.mem_cons_self
  · exact Nat.zero_lt_of_lt (Nat.lt_succ_self 1023)
  · exact List.mem_cons_of_mem _ List.mem_cons_self
  · by_cases ht : t = 1
    · rw [ht]
      rfl
    · exact congrArg (Client.willNotify 0) (houtside t ht)

end ThreadPool
end Common
end MiniRpc
