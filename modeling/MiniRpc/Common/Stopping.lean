/-
# What a stopped pool waits for

`Stop` of `src/common/thread_pool.cpp` sets two flags and then takes and gives back
the `cv_mutex` of each worker in turn before it notifies all who wait there.  A thread
that has read the old flags holds that mutex until it is among the waiters, so nobody
goes to sleep behind the notification (`Told`).

So a stopped pool is never stuck: where no thread can take a step, all workers have
left `WorkerMain` and nobody is in a call (`Halting.atRest`), but for calls that have
yet to use the data of the workers when `Join` has already thrown it away.
-/

import MiniRpc.Common.AcceptedTasks
import MiniRpc.Common.PoolMutexes

namespace MiniRpc
namespace Common

open Transition

/-- A call of `Stop` that has yet to take the mutex of worker `i`. -/
def Client.willLock (i : ℕ) : Client → Bool
  | .stopLock j => j ≤ i
  | .stopUnlock j | .stopNotify j => j < i
  | _ => false

/-- A call of `Stop` that has taken the mutex of worker `i` and has yet to notify. -/
def Client.willWake (i : ℕ) : Client → Bool
  | .stopUnlock j | .stopNotify j => j = i
  | _ => false

/-- The worker at which a call of `Submit` is about to sleep. -/
def Client.nodding : Client → Option ℕ
  | .slowSleep _ idx => some idx
  | _ => none

/-- The worker has found the stop flag false, and is about to sleep. -/
def WorkerPlace.nods : WorkerPlace → Bool
  | .testEmpty | .sleeping => true
  | _ => false

/-- Who is about to sleep holds the mutex. -/
theorem WorkerPlace.holds_of_nods {p : WorkerPlace} (h : p.nods = true) : p.holds = true := by
  cases p <;> first | rfl | cases h

theorem Client.holding_of_nodding {c : Client} {i : ℕ} (h : c.nodding = some i) :
    c.holding = some i := by
  cases c <;> first | exact h | cases h

namespace ThreadPool

variable {cfg : PoolConfig} {s s' : ThreadPool} {t k : ℕ}

/-! ### Nobody sleeps through `Stop` -/

/-- Nobody is about to sleep at worker `i` on old flags. -/
structure Awake (s : ThreadPool) (i : ℕ) : Prop where
  worker : (s.data i).place.nods = false
  caller : ∀ t, (s.clients t).nodding ≠ some i

/-- `Stop` has yet to take the mutex of worker `i`, or nobody is about to sleep there and
those who do will be notified. -/
def Told (s : ThreadPool) (i : ℕ) : Prop :=
  (∃ t, (s.clients t).willLock i = true) ∨
    s.Awake i ∧ ((s.data i).waiters = [] ∨ ∃ t, (s.clients t).willWake i = true)

/-- **A step of `Submit` after `Stop`** sends nobody to sleep: only one who was about to
becomes a waiter, and nobody comes to be about to. -/
theorem submitStep_refused {d d' : WorkerData} {c c' : Client}
    (h : submitStep cfg false t k d c = some (d', c')) :
    c'.nodding = none ∧ (d.waiters = [] → c.nodding = none → d'.waiters = []) := by
  cases c with
  | tryPush task idx left =>
    simp only [submitStep] at h
    split_ifs at h
    all_goals
      obtain ⟨rfl, rfl⟩ := Prod.mk.inj (Option.some.inj h)
      exact ⟨rfl, fun hnil _ => hnil⟩
  | filling task idx ticket slow =>
    obtain ⟨rfl, rfl⟩ := Prod.mk.inj (Option.some.inj h)
    cases slow <;> exact ⟨rfl, fun hnil _ => hnil⟩
  | checkWaiting task idx =>
    obtain ⟨rfl, rfl⟩ := Prod.mk.inj (Option.some.inj h)
    split_ifs <;> exact ⟨rfl, fun hnil _ => hnil⟩
  | notifyOne task idx =>
    simp only [submitStep] at h
    split_ifs at h
    obtain ⟨rfl, rfl⟩ := Prod.mk.inj (Option.some.inj h)
    exact ⟨rfl, fun hnil _ => by simp only [hnil, List.eraseIdx_nil]⟩
  | slowPush task idx =>
    simp only [submitStep] at h
    split_ifs at h
    all_goals
      obtain ⟨rfl, rfl⟩ := Prod.mk.inj (Option.some.inj h)
      exact ⟨rfl, fun hnil _ => hnil⟩
  | slowSleep task idx =>
    obtain ⟨rfl, rfl⟩ := Prod.mk.inj (Option.some.inj h)
    exact ⟨rfl, fun _ hnone => absurd hnone (Option.some_ne_none _)⟩
  | lockNotify task idx | lockSlow task idx | slowWaiting task idx =>
    simp only [submitStep] at h
    split_ifs at h
    obtain ⟨rfl, rfl⟩ := Prod.mk.inj (Option.some.inj h)
    exact ⟨rfl, fun hnil _ => hnil⟩
  | unlocking task idx ok | slowAccepting task idx =>
    obtain ⟨rfl, rfl⟩ := Prod.mk.inj (Option.some.inj h)
    exact ⟨rfl, fun hnil _ => hnil⟩
  | _ => cases h

/-- **A step of a worker after `Stop`**, likewise. -/
theorem work_stopped {d d' : WorkerData} (h : d.work cfg true = some d')
    (hawake : d.place.nods = false) :
    d'.place.nods = false ∧ (d.waiters = [] → d'.waiters = []) := by
  unfold WorkerData.work at h
  cases hplace : d.place <;> rw [hplace] at h
  case popping batch =>
    dsimp only at h
    split at h
    · obtain rfl := Option.some.inj h
      exact ⟨rfl, id⟩
    · obtain rfl := Option.some.inj h
      split_ifs <;> exact ⟨rfl, id⟩
  case running batch =>
    cases batch <;> (obtain rfl := Option.some.inj h; exact ⟨rfl, id⟩)
  case locking | waiting =>
    dsimp only at h
    split_ifs at h
    obtain rfl := Option.some.inj h
    exact ⟨rfl, id⟩
  case testEmpty | sleeping =>
    rw [hplace] at hawake
    cases hawake
  case exited => cases h
  case checkEmpty =>
    obtain rfl := Option.some.inj h
    split_ifs <;> exact ⟨rfl, id⟩
  case notifying batch =>
    obtain rfl := Option.some.inj h
    exact ⟨rfl, fun _ => rfl⟩
  all_goals
    obtain rfl := Option.some.inj h
    exact ⟨rfl, id⟩

/-- A thread takes a step that sends nobody to sleep at worker `i`; if it is in `Stop`, it
still has to do there what it had to do, or has done it. -/
theorem Told.caller {i j : ℕ} {d : WorkerData} {c : Client} (h : s.Told i)
    (hdata : s'.data = Function.update s.data j d)
    (hclients : s'.clients = Function.update s.clients t c)
    (hlock : (s.clients t).willLock i = true → c.willLock i = true)
    (hwake : (s.clients t).willWake i = true → c.willWake i = true ∨ (s'.data i).waiters = [])
    (hplace : d.place = (s.data j).place) (hnodding : c.nodding = none)
    (hwaiters : s.Awake j → (s.data j).waiters = [] → d.waiters = []) : s'.Told i := by
  have hother : ∀ p : Client → Bool, ∀ u, u ≠ t → p (s.clients u) = true →
      ∃ u, p (s'.clients u) = true :=
    fun p u hu hp => ⟨u, by rw [hclients, Function.update_of_ne hu]; exact hp⟩
  have hself : s'.clients t = c := by rw [hclients, Function.update_self]
  rcases h with ⟨u, hu⟩ | ⟨hawake, hwaits⟩
  · left
    by_cases hut : u = t
    · subst hut
      exact ⟨u, by rw [hself]; exact hlock hu⟩
    · exact hother _ u hut hu
  · refine Or.inr ⟨⟨?_, fun u => ?_⟩, ?_⟩
    · rw [hdata]
      by_cases hj : i = j
      · subst hj
        rw [Function.update_self, hplace]
        exact hawake.worker
      · rw [Function.update_of_ne hj]
        exact hawake.worker
    · by_cases hu : u = t
      · rw [hu, hself, hnodding]
        nofun
      · rw [hclients, Function.update_of_ne hu]
        exact hawake.caller u
    · rcases hwaits with hnil | ⟨u, hu⟩
      · left
        rw [hdata]
        by_cases hj : i = j
        · subst hj
          rw [Function.update_self]
          exact hwaiters hawake hnil
        · rw [Function.update_of_ne hj]
          exact hnil
      · by_cases hut : u = t
        · subst hut
          exact (hwake hu).symm.imp_right fun hc => ⟨u, by rw [hself]; exact hc⟩
        · exact Or.inr (hother _ u hut hu)

/-- The same, where the thread touches no worker and was not in the loop of `Stop`. -/
theorem Told.goto {i : ℕ} {c : Client} (h : s.Told i) (hdata : s'.data = s.data)
    (hclients : s'.clients = Function.update s.clients t c)
    (hlock : (s.clients t).willLock i = false) (hwake : (s.clients t).willWake i = false)
    (hnodding : c.nodding = none) : s'.Told i := by
  refine h.caller (j := 0) (d := s.data 0) ?_ hclients ?_ ?_ rfl hnodding fun _ => id
  · rw [hdata, Function.update_eq_self]
  · rw [hlock]
    nofun
  · rw [hwake]
    nofun

/-- A call of `Submit` is not in `Stop`, and only one that is about to sleep at its worker
is about to sleep. -/
theorem aside_of_worker {c : Client} {i j : ℕ} (h : c.worker = some j) :
    c.willLock i = false ∧ c.willWake i = false ∧ (c.nodding ≠ some j → c.nodding = none) := by
  cases c
  case slowSleep task idx =>
    obtain rfl := Option.some.inj h
    exact ⟨rfl, rfl, fun hne => absurd rfl hne⟩
  all_goals first
    | exact ⟨rfl, rfl, fun _ => rfl⟩
    | cases h

theorem Told.client {i : ℕ} (h : s.Told i) (hi : i < cfg.threads) (hguarded : s.Guarded)
    (hrefused : s.acceptingTasks = false) (hstep : Steps cfg s t k s')
    (hjoined : s'.joined = false) : s'.Told i := by
  cases hstep with
  | @submit j d c hworker hjoined' hstep =>
    rw [hrefused] at hstep
    obtain ⟨hnodding, hwaiters⟩ := submitStep_refused hstep
    obtain ⟨hlock, hwake, hnods⟩ := aside_of_worker (i := i) hworker
    refine h.caller rfl rfl (fun hc => ?_) (fun hc => ?_) (submitStep_turns hstep hworker).2.1
      hnodding fun hawake hnil => hwaiters hnil (hnods (hawake.caller t))
    · rw [hlock] at hc
      cases hc
    · rw [hwake] at hc
      cases hc
  | checkAccepting hc =>
    refine h.goto rfl rfl (by rw [hc]; rfl) (by rw [hc]; rfl) ?_
    split_ifs <;> rfl
  | returning hc | stopAccepting hc | joinDone hc hdone | joinNext hc hexited hj hjoined' =>
    exact h.goto rfl rfl (by rw [hc]; rfl) (by rw [hc]; rfl) rfl
  | stopRequest hc =>
    refine h.goto rfl rfl (by rw [hc]; rfl) (by rw [hc]; rfl) ?_
    split_ifs <;> rfl
  | @stopDone j hc hdone =>
    have hj : cfg.threads ≤ j := hdone.resolve_left fun hj => by
      rw [show s.joined = false from hjoined] at hj
      cases hj
    refine h.goto rfl rfl ?_ (by rw [hc]; rfl) rfl
    rw [hc]
    exact decide_eq_false (by omega)
  | @stopLock j hc hj hjoined' hfree =>
    by_cases hij : i = j
    · subst hij
      -- the mutex is free, so nobody is between the test of a flag and `cv.wait`
      refine Or.inr ⟨⟨?_, fun u hu => ?_⟩, Or.inr ⟨t, ?_⟩⟩
      · simp only [ThreadPool.goto, setData, Function.update_self]
        exact Bool.eq_false_iff.2 fun hnods =>
          hguarded.of_free hfree none (WorkerPlace.holds_of_nods hnods)
      · by_cases hut : u = t
        · subst hut
          simp only [ThreadPool.goto, Function.update_self] at hu
          cases hu
        · simp only [ThreadPool.goto, setData, Function.update_of_ne hut] at hu
          exact hguarded.of_free hfree (some u) (Client.holding_of_nodding hu)
      · simp only [ThreadPool.goto, Function.update_self, Client.willWake, decide_true]
    · refine h.caller rfl rfl ?_ ?_ rfl rfl fun _ => id
      · rw [hc]
        simp only [Client.willLock, decide_eq_true_eq]
        omega
      · rw [hc]
        nofun
  | @stopUnlock j hc hjoined' =>
    refine h.caller rfl rfl ?_ (fun hw => Or.inl ?_) rfl rfl fun _ => id
    · rw [hc]
      exact id
    · rw [hc] at hw
      exact hw
  | @stopNotify j hc hjoined' =>
    refine h.caller rfl rfl ?_ (fun hw => Or.inr ?_) rfl rfl fun _ _ => rfl
    · rw [hc]
      simp only [Client.willLock, decide_eq_true_eq]
      omega
    · rw [hc] at hw
      obtain rfl : j = i := of_decide_eq_true hw
      simp only [ThreadPool.goto, setData, Function.update_self]

theorem Told.worker {i j : ℕ} {d : WorkerData} (h : s.Told i)
    (hwork : (s.data j).work cfg true = some d) : (s.setData j d).Told i := by
  refine h.imp_right ?_
  rintro ⟨hawake, hwaits⟩
  by_cases hj : i = j
  · subst hj
    obtain ⟨hnods, hwaiters⟩ := work_stopped hwork hawake.worker
    refine ⟨⟨?_, hawake.caller⟩, hwaits.imp_left fun hnil => ?_⟩
    · show (Function.update s.data i d i).place.nods = false
      rw [Function.update_self]
      exact hnods
    · show (Function.update s.data i d i).waiters = []
      rw [Function.update_self]
      exact hwaiters hnil
  · have hdata : (s.setData j d).data i = s.data i := Function.update_of_ne hj _ _
    exact ⟨⟨by rw [hdata]; exact hawake.worker, hawake.caller⟩, by rw [hdata]; exact hwaits⟩

theorem Told.spurious {i j : ℕ} {waiter : Option ℕ} (h : s.Told i) :
    (s.setData j { s.data j with waiters := (s.data j).waiters.erase waiter }).Told i := by
  refine h.imp_right ?_
  rintro ⟨hawake, hwaits⟩
  by_cases hj : i = j
  · subst hj
    refine ⟨⟨?_, hawake.caller⟩, hwaits.imp_left fun hnil => ?_⟩
    · show (Function.update s.data i _ i).place.nods = false
      rw [Function.update_self]
      exact hawake.worker
    · show (Function.update s.data i _ i).waiters = []
      rw [Function.update_self, hnil]
      rfl
  · have hdata : ∀ d, (s.setData j d).data i = s.data i := fun d => Function.update_of_ne hj _ _
    exact ⟨⟨by rw [hdata]; exact hawake.worker, hawake.caller⟩, by rw [hdata]; exact hwaits⟩

/-! ### The flags, and what `Join` has seen -/

/-- `Stop` clears `accepting_tasks_` before it sets `stop_requested_`, and neither goes
back. -/
structure Refusing (s : ThreadPool) : Prop where
  stopped : s.stopRequested = true → s.acceptingTasks = false
  stopping : ∀ t was, s.clients t = .stopRequest was → s.acceptingTasks = false

/-- The workers that a call of `Join` has passed have left `WorkerMain`. -/
structure Joining (cfg : PoolConfig) (s : ThreadPool) : Prop where
  passed : ∀ t n, s.clients t = .joining n → ∀ i < n, (s.data i).place = .exited
  joined : s.joined = true → ∀ i < cfg.threads, (s.data i).place = .exited

/-- A call of `Submit` goes on in `Submit`. -/
theorem submitStep_inside {accepting : Bool} {d d' : WorkerData} {c c' : Client}
    (h : submitStep cfg accepting t k d c = some (d', c')) :
    c'.worker.isSome = true ∨ ∃ task ok, c' = .returning task ok := by
  cases c
  case tryPush | slowPush =>
    simp only [submitStep] at h
    split_ifs at h <;> (obtain ⟨-, rfl⟩ := Prod.mk.inj (Option.some.inj h); exact Or.inl rfl)
  case lockNotify | notifyOne | lockSlow | slowWaiting =>
    simp only [submitStep] at h
    split_ifs at h
    obtain ⟨-, rfl⟩ := Prod.mk.inj (Option.some.inj h)
    exact Or.inl rfl
  case filling | slowAccepting =>
    obtain ⟨-, rfl⟩ := Prod.mk.inj (Option.some.inj h)
    split_ifs <;> exact Or.inl rfl
  case checkWaiting =>
    obtain ⟨-, rfl⟩ := Prod.mk.inj (Option.some.inj h)
    split_ifs
    · exact Or.inl rfl
    · exact Or.inr ⟨_, _, rfl⟩
  case unlocking =>
    obtain ⟨-, rfl⟩ := Prod.mk.inj (Option.some.inj h)
    exact Or.inr ⟨_, _, rfl⟩
  case slowSleep =>
    obtain ⟨-, rfl⟩ := Prod.mk.inj (Option.some.inj h)
    exact Or.inl rfl
  all_goals cases h

theorem Refusing.goto {c : Client} (h : s.Refusing)
    (hclients : s'.clients = Function.update s.clients t c)
    (haccepting : s'.acceptingTasks = s.acceptingTasks)
    (hstopped : s'.stopRequested = true → s.acceptingTasks = false)
    (hc : ∀ was, c ≠ .stopRequest was) : s'.Refusing := by
  refine ⟨fun hs => haccepting ▸ hstopped hs, fun u was hu => ?_⟩
  rw [hclients] at hu
  rw [haccepting]
  by_cases hut : u = t
  · subst hut
    rw [Function.update_self] at hu
    exact absurd hu (hc was)
  · rw [Function.update_of_ne hut] at hu
    exact h.stopping u was hu

theorem Refusing.client (h : s.Refusing) (hstep : Steps cfg s t k s') : s'.Refusing := by
  cases hstep with
  | submit hworker hjoined hstep =>
    refine h.goto rfl rfl h.stopped fun was hc => ?_
    subst hc
    obtain hnone | ⟨task, ok, hc⟩ := submitStep_inside hstep
    · cases hnone
    · cases hc
  | checkAccepting hc =>
    refine h.goto rfl rfl h.stopped fun was => ?_
    split_ifs <;> nofun
  | stopAccepting hc => exact ⟨fun _ => rfl, fun _ _ _ => rfl⟩
  | @stopRequest was hc =>
    refine h.goto rfl rfl (fun _ => h.stopping t was hc) fun was => ?_
    split_ifs <;> nofun
  | returning hc | stopDone hc hdone | stopLock hc hi hjoined hfree | stopUnlock hc hjoined
  | stopNotify hc hjoined | joinDone hc hdone | joinNext hc hexited hi hjoined =>
    exact h.goto rfl rfl h.stopped nofun

theorem Refusing.step {e : Event} (h : s.Refusing) (hstep : s.step cfg e = some s') :
    s'.Refusing := by
  cases e with
  | submit t valid idx =>
    simp only [ThreadPool.step] at hstep
    split_ifs at hstep
    all_goals
      obtain rfl := Option.some.inj hstep
      exact h.goto rfl rfl h.stopped fun _ hc => by cases hc
  | stop t =>
    simp only [ThreadPool.step] at hstep
    split_ifs at hstep
    obtain rfl := Option.some.inj hstep
    exact h.goto rfl rfl h.stopped fun _ hc => by cases hc
  | join t =>
    simp only [ThreadPool.step] at hstep
    split_ifs at hstep
    obtain rfl := Option.some.inj hstep
    exact h.goto rfl rfl h.stopped fun _ hc => by cases hc
  | client t k => exact h.client (.of_client hstep)
  | worker i =>
    simp only [ThreadPool.step] at hstep
    split_ifs at hstep
    obtain ⟨d, -, rfl⟩ := Option.map_eq_some_iff.1 hstep
    exact ⟨h.stopped, h.stopping⟩
  | spurious i waiter =>
    simp only [ThreadPool.step] at hstep
    split_ifs at hstep
    obtain rfl := Option.some.inj hstep
    exact ⟨h.stopped, h.stopping⟩

theorem Joining.update {j : ℕ} {d : WorkerData} {c : Client} (h : s.Joining cfg)
    (hdata : s'.data = Function.update s.data j d)
    (hclients : s'.clients = Function.update s.clients t c)
    (hplace : (s.data j).place = .exited → d.place = .exited)
    (hc : ∀ n, c = .joining n → ∀ i < n, (s.data i).place = .exited)
    (hjoined : s'.joined = true → ∀ i < cfg.threads, (s.data i).place = .exited) :
    s'.Joining cfg := by
  have hexited : ∀ i, (s.data i).place = .exited → (s'.data i).place = .exited := by
    intro i hi
    rw [hdata]
    by_cases hj : i = j
    · subst hj
      rw [Function.update_self]
      exact hplace hi
    · rw [Function.update_of_ne hj]
      exact hi
  refine ⟨fun u n hu i hi => hexited i ?_, fun hs i hi => hexited i (hjoined hs i hi)⟩
  rw [hclients] at hu
  by_cases hut : u = t
  · subst hut
    rw [Function.update_self] at hu
    exact hc n hu i hi
  · rw [Function.update_of_ne hut] at hu
    exact h.passed u n hu i hi

theorem Joining.goto {c : Client} (h : s.Joining cfg) (hdata : s'.data = s.data)
    (hclients : s'.clients = Function.update s.clients t c) (hjoined : s'.joined = s.joined)
    (hc : ∀ n, c = .joining n → ∀ i < n, (s.data i).place = .exited) : s'.Joining cfg :=
  h.update (j := 0) (d := s.data 0) (by rw [hdata, Function.update_eq_self]) hclients id hc
    (hjoined ▸ h.joined)

theorem Joining.client (h : s.Joining cfg) (hstep : Steps cfg s t k s') : s'.Joining cfg := by
  cases hstep with
  | submit hworker hjoined hstep =>
    refine h.update rfl rfl (fun hi => ?_) (fun n hc => ?_) h.joined
    · rw [(submitStep_turns hstep hworker).2.1, hi]
    · subst hc
      obtain hnone | ⟨task, ok, hc⟩ := submitStep_inside hstep
      · cases hnone
      · cases hc
  | checkAccepting hc =>
    refine h.goto rfl rfl rfl fun n => ?_
    split_ifs <;> nofun
  | stopRequest hc =>
    refine h.goto rfl rfl rfl fun n => ?_
    split_ifs <;> nofun
  | returning hc | stopAccepting hc | stopDone hc hdone => exact h.goto rfl rfl rfl nofun
  | stopLock hc hi hjoined hfree | stopUnlock hc hjoined | stopNotify hc hjoined =>
    exact h.update rfl rfl id nofun h.joined
  | @joinDone n hc hdone =>
    refine h.update (j := 0) (d := s.data 0) (Function.update_eq_self _ _).symm rfl id nofun ?_
    intro _ i hi
    rcases hdone with hjoined | hn
    · exact h.joined hjoined i hi
    · exact h.passed t n hc i (by omega)
  | @joinNext n hc hexited hn hjoined =>
    refine h.goto rfl rfl rfl fun m hm i hi => ?_
    obtain rfl := Client.joining.inj hm
    rcases Nat.lt_succ_iff_lt_or_eq.1 hi with hi | rfl
    · exact h.passed t n hc i hi
    · exact hexited

theorem Joining.step {e : Event} (h : s.Joining cfg) (hstep : s.step cfg e = some s') :
    s'.Joining cfg := by
  cases e with
  | submit t valid idx =>
    simp only [ThreadPool.step] at hstep
    split_ifs at hstep
    all_goals
      obtain rfl := Option.some.inj hstep
      exact h.goto rfl rfl rfl fun _ hn => by cases hn
  | stop t =>
    simp only [ThreadPool.step] at hstep
    split_ifs at hstep
    obtain rfl := Option.some.inj hstep
    exact h.goto rfl rfl rfl fun _ hn => by cases hn
  | join t =>
    simp only [ThreadPool.step] at hstep
    split_ifs at hstep
    obtain rfl := Option.some.inj hstep
    refine h.goto rfl rfl rfl fun n hn i hi => ?_
    obtain rfl := Client.joining.inj hn
    omega
  | client t k => exact h.client (.of_client hstep)
  | worker i =>
    simp only [ThreadPool.step] at hstep
    split_ifs at hstep
    obtain ⟨d, hd, rfl⟩ := Option.map_eq_some_iff.1 hstep
    refine h.update (t := 0) (c := s.clients 0) rfl (Function.update_eq_self _ _).symm ?_
      (h.passed 0) h.joined
    exact fun hi => absurd hi (work_cases hd).2.2.1
  | spurious i waiter =>
    simp only [ThreadPool.step] at hstep
    split_ifs at hstep
    obtain rfl := Option.some.inj hstep
    exact h.update (t := 0) (c := s.clients 0) rfl (Function.update_eq_self _ _).symm id
      (h.passed 0) h.joined

/-! ### A stopped pool -/

/-- Nobody waits at a worker that the pool does not have. -/
def Within (cfg : PoolConfig) (s : ThreadPool) : Prop :=
  ∀ i, cfg.threads ≤ i → (s.data i).waiters = []

theorem Within.update {j : ℕ} {d : WorkerData} (h : s.Within cfg)
    (hdata : s'.data = Function.update s.data j d) (hd : cfg.threads ≤ j → d.waiters = []) :
    s'.Within cfg := by
  intro i hi
  rw [hdata]
  by_cases hj : i = j
  · subst hj
    rw [Function.update_self]
    exact hd hi
  · rw [Function.update_of_ne hj]
    exact h i hi

theorem Within.client (h : s.Within cfg) (htraced : s.Traced cfg) (hstep : Steps cfg s t k s') :
    s'.Within cfg := by
  cases hstep with
  | submit hworker hjoined hstep =>
    exact h.update rfl fun hj => absurd (htraced.worker t _ hworker) (by omega)
  | stopLock hc hi hjoined hfree => exact h.update rfl (h _)
  | stopUnlock hc hjoined => exact h.update rfl (h _)
  | stopNotify hc hjoined => exact h.update rfl fun _ => rfl
  | _ => exact h

theorem Within.step {e : Event} (h : s.Within cfg) (htraced : s.Traced cfg)
    (hstep : s.step cfg e = some s') : s'.Within cfg := by
  cases e with
  | submit t valid idx =>
    simp only [ThreadPool.step] at hstep
    split_ifs at hstep <;> (obtain rfl := Option.some.inj hstep; exact h)
  | stop t | join t =>
    simp only [ThreadPool.step] at hstep
    split_ifs at hstep
    obtain rfl := Option.some.inj hstep
    exact h
  | client t k => exact h.client htraced (.of_client hstep)
  | worker i =>
    simp only [ThreadPool.step] at hstep
    split_ifs at hstep with hi
    obtain ⟨d, -, rfl⟩ := Option.map_eq_some_iff.1 hstep
    exact h.update rfl fun hge => absurd hi (by omega)
  | spurious i waiter =>
    simp only [ThreadPool.step] at hstep
    split_ifs at hstep
    obtain rfl := Option.some.inj hstep
    refine h.update rfl fun hge => ?_
    rw [h i hge]
    rfl

/-- What holds in every state of the pool about how it comes to a stop. -/
structure Halting (cfg : PoolConfig) (s : ThreadPool) : Prop where
  traced : s.Traced cfg
  guarded : s.Guarded
  refusing : s.Refusing
  joining : s.Joining cfg
  within : s.Within cfg
  told : s.stopRequested = true → s.joined = false → ∀ i < cfg.threads, s.Told i

/-- **A step keeps who is told**: once the flag is set, `Stop` has each worker before it or
has dealt with it. -/
theorem Halting.told_step {e : Event} (h : s.Halting cfg) (hstep : s.step cfg e = some s')
    (hstop : s'.stopRequested = true) (hjoined : s'.joined = false) {i : ℕ}
    (hi : i < cfg.threads) : s'.Told i := by
  cases e with
  | submit t valid idx =>
    simp only [ThreadPool.step] at hstep
    split_ifs at hstep with hout
    all_goals
      obtain rfl := Option.some.inj hstep
      exact (h.told hstop hjoined i hi).goto rfl rfl (by rw [hout.1]; rfl) (by rw [hout.1]; rfl) rfl
  | stop t | join t =>
    simp only [ThreadPool.step] at hstep
    split_ifs at hstep with hout
    obtain rfl := Option.some.inj hstep
    exact (h.told hstop hjoined i hi).goto rfl rfl (by rw [hout]; rfl) (by rw [hout]; rfl) rfl
  | client t k =>
    have hsteps := Steps.of_client hstep
    cases hflag : s.stopRequested with
    | true =>
      have hbefore : s.joined = false := by
        cases hsteps <;> first | exact hjoined | cases hjoined
      exact (h.told hflag hbefore i hi).client hi h.guarded (h.refusing.stopped hflag) hsteps
        hjoined
    | false =>
      -- only the exchange in `Stop` sets the flag
      cases hsteps with
      | stopRequest hc =>
        refine Or.inl ⟨t, ?_⟩
        simp only [ThreadPool.goto, Function.update_self, hflag, Bool.not_false, Bool.or_true,
          if_true, Client.willLock, Nat.zero_le, decide_true]
      | _ =>
        rw [show s.stopRequested = true from hstop] at hflag
        cases hflag
  | worker j =>
    simp only [ThreadPool.step] at hstep
    split_ifs at hstep
    obtain ⟨d, hd, rfl⟩ := Option.map_eq_some_iff.1 hstep
    rw [show s.stopRequested = true from hstop] at hd
    exact (h.told hstop hjoined i hi).worker hd
  | spurious j waiter =>
    simp only [ThreadPool.step] at hstep
    split_ifs at hstep
    obtain rfl := Option.some.inj hstep
    exact (h.told hstop hjoined i hi).spurious

theorem Halting.step {e : Event} (h : s.Halting cfg) (hstep : s.step cfg e = some s') :
    s'.Halting cfg where
  traced := h.traced.step hstep
  guarded := h.guarded.step hstep
  refusing := h.refusing.step hstep
  joining := h.joining.step hstep
  within := h.within.step h.traced hstep
  told hstop hjoined _ hi := h.told_step hstep hstop hjoined hi

theorem halting_init (cfg : PoolConfig) : ({} : ThreadPool).Halting cfg where
  traced := traced_init cfg
  guarded := guarded_init
  refusing := ⟨nofun, nofun⟩
  joining := ⟨nofun, nofun⟩
  within _ _ := rfl
  told := nofun

theorem halting {es : List Event} (hrun : exec (ThreadPool.step cfg) {} es = some s) :
    s.Halting cfg :=
  exec_invariant (halting_init cfg) (fun _ _ _ h hstep => h.step hstep) hrun

/-! ### It is never stuck -/

/-- A call that uses the data of the workers next. -/
def usesData (c : Client) : Bool :=
  match c with
  | .outside | .checkAccepting _ _ | .returning _ _ | .stopAccepting | .stopRequest _
  | .stopLock _ | .joining _ => false
  | _ => true

/-- All workers have left `WorkerMain` and all calls have returned, but for those that
`Join` has taken the data away from. -/
structure AtRest (cfg : PoolConfig) (s : ThreadPool) : Prop where
  worker : ∀ i < cfg.threads, (s.data i).place = .exited
  caller : ∀ t, s.clients t = .outside ∨ s.joined = true ∧ usesData (s.clients t) = true

/-- What a worker that cannot go on waits for. -/
theorem work_eq_none {stop : Bool} {d : WorkerData} (h : d.work cfg stop = none) :
    d.place = .exited ∨ d.place.holds = false ∧
      (d.cvMutex = true ∨ none ∈ d.waiters) := by
  unfold WorkerData.work at h
  cases hplace : d.place <;> rw [hplace] at h
  case exited => exact Or.inl rfl
  case locking =>
    refine Or.inr ⟨rfl, Or.inl ?_⟩
    by_contra hfree
    simp [hfree] at h
  case waiting =>
    refine Or.inr ⟨rfl, ?_⟩
    by_contra hfree
    obtain ⟨hmutex, hwaits⟩ := not_or.1 hfree
    simp [hmutex, hwaits] at h
  case popping batch =>
    dsimp only at h
    split at h <;> cases h
  case running batch => cases batch <;> cases h
  all_goals cases h

/-- What a call that cannot go on waits for, before `Join` has returned. -/
theorem client_eq_none (h : s.client cfg t 0 = none) (hjoined : s.joined = false) :
    s.clients t = .outside ∨
    (∃ i, ((s.clients t).worker = some i ∨ i < cfg.threads) ∧ (s.clients t).holding = none ∧
      (s.data i).cvMutex = true) ∨
    (∃ i, (s.clients t).worker = some i ∧ (s.clients t).holding = none ∧
      some t ∈ (s.data i).waiters) ∨
    ∃ i, s.clients t = .joining i ∧ i < cfg.threads ∧ (s.data i).place ≠ .exited := by
  unfold client at h
  cases hc : s.clients t <;> rw [hc] at h
  case outside => exact Or.inl rfl
  case stopLock i =>
    dsimp only at h
    split_ifs at h with hdone hmutex
    obtain ⟨-, hi⟩ := not_or.1 hdone
    exact Or.inr (Or.inl ⟨i, Or.inr (by omega), rfl, hmutex⟩)
  case joining i =>
    dsimp only at h
    split_ifs at h with hdone hexited
    obtain ⟨-, hi⟩ := not_or.1 hdone
    exact Or.inr (Or.inr (Or.inr ⟨i, rfl, by omega, hexited⟩))
  case checkAccepting | returning | stopAccepting | stopRequest => cases h
  case stopUnlock | stopNotify =>
    dsimp only at h
    rw [hjoined, if_neg Bool.false_ne_true] at h
    cases h
  all_goals
    dsimp only [Client.worker, Option.bind_eq_bind, Option.bind_some] at h
    rw [hjoined, if_neg Bool.false_ne_true] at h
    replace h := Option.eq_none_iff_forall_ne_some.2 fun next hnext =>
      nomatch Option.bind_eq_none_iff.1 h next hnext
    simp only [submitStep] at h
  case lockNotify task i | lockSlow task i =>
    refine Or.inr (Or.inl ⟨i, Or.inl rfl, rfl, ?_⟩)
    by_contra hfree
    simp [hfree] at h
  case slowWaiting task i =>
    by_cases hwaits : some t ∈ (s.data i).waiters
    · exact Or.inr (Or.inr (Or.inl ⟨i, rfl, rfl, hwaits⟩))
    · refine Or.inr (Or.inl ⟨i, Or.inl rfl, rfl, ?_⟩)
      by_contra hfree
      simp [hfree, hwaits] at h
  case notifyOne task i =>
    -- the first of the waiters can be woken
    cases hwaiters : (s.data i).waiters <;> simp [hwaiters] at h
  case tryPush | slowPush => split_ifs at h
  case filling | checkWaiting | unlocking | slowAccepting | slowSleep => cases h

/-- **A stopped pool is never stuck**: where no worker and no call can take a step, all is
at rest. -/
theorem Halting.atRest (h : s.Halting cfg) (hstop : s.stopRequested = true)
    (hworker : ∀ i, s.step cfg (.worker i) = none)
    (hclient : ∀ t, s.step cfg (.client t 0) = none) : s.AtRest cfg := by
  have hwork : ∀ i < cfg.threads, (s.data i).work cfg s.stopRequested = none := by
    intro i hi
    have hnone := hworker i
    simp only [ThreadPool.step, if_pos hi] at hnone
    exact Option.map_eq_none_iff.1 hnone
  cases hjoined : s.joined with
  | true =>
    refine ⟨h.joining.joined hjoined, fun t => ?_⟩
    have hnone : s.client cfg t 0 = none := hclient t
    unfold client at hnone
    cases hc : s.clients t <;> rw [hc] at hnone
    case outside => exact Or.inl rfl
    case checkAccepting | returning | stopAccepting | stopRequest => cases hnone
    case stopLock | joining =>
      dsimp only at hnone
      rw [if_pos (Or.inl hjoined)] at hnone
      cases hnone
    all_goals exact Or.inr ⟨hjoined, rfl⟩
  | false =>
    have hblocked := fun t => client_eq_none (hclient t) hjoined
    -- who holds a mutex can go on, so none is held
    have hfree : ∀ i < cfg.threads, (s.data i).cvMutex = false := by
      intro i hi
      by_contra htaken
      obtain ⟨w, hw⟩ := h.guarded.of_taken (by simpa using htaken)
      cases w with
      | none =>
        rw [holds_worker] at hw
        rcases work_eq_none (hwork i hi) with hplace | ⟨hplace, -⟩
        · rw [hplace] at hw
          cases hw
        · rw [hplace] at hw
          cases hw
      | some t =>
        rw [holds_caller] at hw
        rcases hblocked t with hc | ⟨j, -, hholding, -⟩ | ⟨j, -, hholding, -⟩ | ⟨j, hc, -⟩
        · rw [hc] at hw
          cases hw
        · rw [hholding] at hw
          cases hw
        · rw [hholding] at hw
          cases hw
        · rw [hc] at hw
          cases hw
    -- so nobody is in the loop of `Stop`, and nobody waits
    have hwaiters : ∀ i < cfg.threads, (s.data i).waiters = [] := by
      intro i hi
      have hloop : ∀ t, (s.clients t).willLock i = false ∧ (s.clients t).willWake i = false := by
        intro t
        rcases hblocked t with hc | ⟨j, hj | hj, -, hmutex⟩ | ⟨j, hj, -⟩ | ⟨j, hc, -⟩
        · rw [hc]
          exact ⟨rfl, rfl⟩
        · exact ⟨(aside_of_worker hj).1, (aside_of_worker hj).2.1⟩
        · rw [hfree j hj] at hmutex
          cases hmutex
        · exact ⟨(aside_of_worker hj).1, (aside_of_worker hj).2.1⟩
        · rw [hc]
          exact ⟨rfl, rfl⟩
      rcases h.told hstop hjoined i hi with ⟨t, ht⟩ | ⟨-, hnil | ⟨t, ht⟩⟩
      · rw [(hloop t).1] at ht
        cases ht
      · exact hnil
      · rw [(hloop t).2] at ht
        cases ht
    have hexited : ∀ i < cfg.threads, (s.data i).place = .exited := by
      intro i hi
      rcases work_eq_none (hwork i hi) with hplace | ⟨-, hmutex | hwaits⟩
      · exact hplace
      · rw [hfree i hi] at hmutex
        cases hmutex
      · rw [hwaiters i hi] at hwaits
        cases hwaits
    refine ⟨hexited, fun t => Or.inl ?_⟩
    rcases hblocked t with hc | ⟨i, hi, -, hmutex⟩ | ⟨i, hi, -, hwaits⟩ | ⟨i, hc, hi, hplace⟩
    · exact hc
    · rw [hfree i (hi.elim (h.traced.worker t i) id)] at hmutex
      cases hmutex
    · rw [hwaiters i (h.traced.worker t i hi)] at hwaits
      cases hwaits
    · exact absurd (hexited i hi) hplace

end ThreadPool
end Common
end MiniRpc
