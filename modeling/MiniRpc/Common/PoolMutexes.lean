/-
# The mutexes of the thread pool

`cv_mutex` of each worker (`src/common/thread_pool.cpp`) is taken by the worker
before it sleeps, by a call of `Submit` that notifies or waits for room, and by
`Stop`.  In every state of the pool it has one holder, or it is free and nobody is
at a place where it would be held (`guarded`).
-/

import MiniRpc.Common.ThreadPool

namespace MiniRpc
namespace Common

open Transition

/-- The worker is in the scope of its lock. -/
def WorkerPlace.holds : WorkerPlace → Bool
  | .testStop | .testEmpty | .sleeping | .leaving | .unlocking => true
  | _ => false

/-- The worker whose mutex a call holds. -/
def Client.holding : Client → Option ℕ
  | .filling _ idx _ true => some idx
  | .notifyOne _ idx | .unlocking _ idx _ | .slowPush _ idx | .slowAccepting _ idx
  | .slowSleep _ idx => some idx
  | .stopUnlock i => some i
  | _ => none

/-- What a step does to a mutex: nothing, or its thread takes it or gives it back. -/
inductive Turns (mutex mutex' : Bool) (held held' : Prop) : Prop where
  | same (hmutex : mutex' = mutex) (hheld : held' ↔ held)
  | acquired (hfree : mutex = false) (hmutex : mutex' = true) (hheld : held')
  | released (hheld : held) (hmutex : mutex' = false) (hheld' : ¬ held')

/-- **A step of `Submit`** touches the mutex of its worker, and no other. -/
theorem submitStep_turns {cfg : PoolConfig} {accepting : Bool} {t k : ℕ} {d d' : WorkerData}
    {c c' : Client} (h : submitStep cfg accepting t k d c = some (d', c')) {i : ℕ}
    (hi : c.worker = some i) :
    Turns d.cvMutex d'.cvMutex (c.holding = some i) (c'.holding = some i) ∧ d'.place = d.place ∧
      ∀ j, j ≠ i → c.holding ≠ some j ∧ c'.holding ≠ some j := by
  have hnone : ∀ j : ℕ, none ≠ some j := fun j => (Option.some_ne_none j).symm
  cases c with
  | tryPush task idx left =>
    obtain rfl := Option.some.inj hi
    simp only [submitStep] at h
    split_ifs at h
    all_goals
      obtain ⟨rfl, rfl⟩ := Prod.mk.inj (Option.some.inj h)
      exact ⟨.same rfl Iff.rfl, rfl, fun j _ => ⟨hnone j, hnone j⟩⟩
  | filling task idx ticket slow =>
    obtain rfl := Option.some.inj hi
    obtain ⟨rfl, rfl⟩ := Prod.mk.inj (Option.some.inj h)
    cases slow with
    | true =>
      exact ⟨.same rfl Iff.rfl, rfl, fun j hj =>
        ⟨fun he => hj (Option.some.inj he).symm, fun he => hj (Option.some.inj he).symm⟩⟩
    | false => exact ⟨.same rfl Iff.rfl, rfl, fun j _ => ⟨hnone j, hnone j⟩⟩
  | checkWaiting task idx =>
    obtain rfl := Option.some.inj hi
    obtain ⟨rfl, rfl⟩ := Prod.mk.inj (Option.some.inj h)
    split_ifs <;> exact ⟨.same rfl Iff.rfl, rfl, fun j _ => ⟨hnone j, hnone j⟩⟩
  | lockNotify task idx =>
    obtain rfl := Option.some.inj hi
    simp only [submitStep] at h
    split_ifs at h with hfree
    obtain ⟨rfl, rfl⟩ := Prod.mk.inj (Option.some.inj h)
    exact ⟨.acquired (by simpa using hfree) rfl rfl, rfl, fun j hj =>
      ⟨hnone j, fun he => hj (Option.some.inj he).symm⟩⟩
  | notifyOne task idx =>
    obtain rfl := Option.some.inj hi
    simp only [submitStep] at h
    split_ifs at h
    obtain ⟨rfl, rfl⟩ := Prod.mk.inj (Option.some.inj h)
    exact ⟨.same rfl Iff.rfl, rfl, fun j hj =>
      ⟨fun he => hj (Option.some.inj he).symm, fun he => hj (Option.some.inj he).symm⟩⟩
  | unlocking task idx ok =>
    obtain rfl := Option.some.inj hi
    obtain ⟨rfl, rfl⟩ := Prod.mk.inj (Option.some.inj h)
    exact ⟨.released rfl rfl (hnone _), rfl, fun j hj =>
      ⟨fun he => hj (Option.some.inj he).symm, hnone j⟩⟩
  | lockSlow task idx =>
    obtain rfl := Option.some.inj hi
    simp only [submitStep] at h
    split_ifs at h with hfree
    obtain ⟨rfl, rfl⟩ := Prod.mk.inj (Option.some.inj h)
    exact ⟨.acquired (by simpa using hfree) rfl rfl, rfl, fun j hj =>
      ⟨hnone j, fun he => hj (Option.some.inj he).symm⟩⟩
  | slowPush task idx =>
    obtain rfl := Option.some.inj hi
    simp only [submitStep] at h
    split_ifs at h
    all_goals
      obtain ⟨rfl, rfl⟩ := Prod.mk.inj (Option.some.inj h)
      exact ⟨.same rfl Iff.rfl, rfl, fun j hj =>
        ⟨fun he => hj (Option.some.inj he).symm, fun he => hj (Option.some.inj he).symm⟩⟩
  | slowAccepting task idx =>
    obtain rfl := Option.some.inj hi
    obtain ⟨rfl, rfl⟩ := Prod.mk.inj (Option.some.inj h)
    split_ifs
    all_goals
      exact ⟨.same rfl Iff.rfl, rfl, fun j hj =>
        ⟨fun he => hj (Option.some.inj he).symm, fun he => hj (Option.some.inj he).symm⟩⟩
  | slowSleep task idx =>
    obtain rfl := Option.some.inj hi
    obtain ⟨rfl, rfl⟩ := Prod.mk.inj (Option.some.inj h)
    exact ⟨.released rfl rfl (hnone _), rfl, fun j hj =>
      ⟨fun he => hj (Option.some.inj he).symm, hnone j⟩⟩
  | slowWaiting task idx =>
    obtain rfl := Option.some.inj hi
    simp only [submitStep] at h
    split_ifs at h with hfree
    obtain ⟨rfl, rfl⟩ := Prod.mk.inj (Option.some.inj h)
    obtain ⟨-, hfree⟩ := not_or.1 hfree
    exact ⟨.acquired (by simpa using hfree) rfl rfl, rfl, fun j hj =>
      ⟨hnone j, fun he => hj (Option.some.inj he).symm⟩⟩
  | _ => cases h

/-- **A step of a worker** touches its own mutex. -/
theorem work_turns {cfg : PoolConfig} {stop : Bool} {d d' : WorkerData}
    (h : d.work cfg stop = some d') :
    Turns d.cvMutex d'.cvMutex (d.place.holds = true) (d'.place.holds = true) := by
  unfold WorkerData.work at h
  cases hplace : d.place <;> rw [hplace] at h
  case popping batch =>
    dsimp only at h
    split at h
    · obtain rfl := Option.some.inj h
      exact .same rfl Iff.rfl
    · obtain rfl := Option.some.inj h
      refine .same rfl ?_
      split_ifs <;> exact Iff.rfl
  case running batch =>
    cases batch with
    | nil =>
      obtain rfl := Option.some.inj h
      exact .same rfl Iff.rfl
    | cons task batch =>
      obtain rfl := Option.some.inj h
      exact .same rfl Iff.rfl
  case locking =>
    dsimp only at h
    split_ifs at h with hfree
    obtain rfl := Option.some.inj h
    exact .acquired (by simpa using hfree) rfl rfl
  case waiting =>
    dsimp only at h
    split_ifs at h with hfree
    obtain rfl := Option.some.inj h
    exact .acquired (by simpa using (not_or.1 hfree).2) rfl rfl
  case sleeping =>
    obtain rfl := Option.some.inj h
    exact .released rfl rfl nofun
  case unlocking =>
    obtain rfl := Option.some.inj h
    exact .released rfl rfl nofun
  case exited => cases h
  case checkStop | checkEmpty | recheckStop | testStop | testEmpty =>
    obtain rfl := Option.some.inj h
    refine .same rfl ?_
    split_ifs <;> exact Iff.rfl
  all_goals
    obtain rfl := Option.some.inj h
    exact .same rfl Iff.rfl

namespace ThreadPool

variable {cfg : PoolConfig} {s s' : ThreadPool} {t k : ℕ}

/-- **A step of a call**, one case for each of its places. -/
inductive Steps (cfg : PoolConfig) (s : ThreadPool) (t k : ℕ) : ThreadPool → Prop where
  | submit {i : ℕ} {d : WorkerData} {c : Client} (hworker : (s.clients t).worker = some i)
      (hjoined : s.joined = false)
      (hstep : submitStep cfg s.acceptingTasks t k (s.data i) (s.clients t) = some (d, c)) :
      Steps cfg s t k ((s.setData i d).goto t c)
  | checkAccepting {task idx : ℕ} (hc : s.clients t = .checkAccepting task idx) :
      Steps cfg s t k (s.goto t (if s.acceptingTasks then .tryPush task idx cfg.threads
        else .returning task false))
  | returning {task : ℕ} {ok : Bool} (hc : s.clients t = .returning task ok) :
      Steps cfg s t k (goto { s with
        accepted := if ok then s.accepted ++ [task] else s.accepted
        rejected := if ok then s.rejected else s.rejected ++ [task] } t .outside)
  | stopAccepting (hc : s.clients t = .stopAccepting) :
      Steps cfg s t k (goto { s with acceptingTasks := false } t (.stopRequest s.acceptingTasks))
  | stopRequest {was : Bool} (hc : s.clients t = .stopRequest was) :
      Steps cfg s t k (goto { s with stopRequested := true } t
        (if was || !s.stopRequested then .stopLock 0 else .outside))
  | stopDone {i : ℕ} (hc : s.clients t = .stopLock i) (hdone : s.joined = true ∨ cfg.threads ≤ i) :
      Steps cfg s t k (s.goto t .outside)
  | stopLock {i : ℕ} (hc : s.clients t = .stopLock i) (hi : i < cfg.threads)
      (hjoined : s.joined = false) (hfree : (s.data i).cvMutex = false) :
      Steps cfg s t k ((s.setData i { s.data i with cvMutex := true }).goto t (.stopUnlock i))
  | stopUnlock {i : ℕ} (hc : s.clients t = .stopUnlock i) (hjoined : s.joined = false) :
      Steps cfg s t k ((s.setData i { s.data i with cvMutex := false }).goto t (.stopNotify i))
  | stopNotify {i : ℕ} (hc : s.clients t = .stopNotify i) (hjoined : s.joined = false) :
      Steps cfg s t k ((s.setData i { s.data i with waiters := [] }).goto t (.stopLock (i + 1)))
  | joinDone {i : ℕ} (hc : s.clients t = .joining i) (hdone : s.joined = true ∨ cfg.threads ≤ i) :
      Steps cfg s t k (goto { s with joined := true } t .outside)
  | joinNext {i : ℕ} (hc : s.clients t = .joining i) (hexited : (s.data i).place = .exited)
      (hi : i < cfg.threads) (hjoined : s.joined = false) :
      Steps cfg s t k (s.goto t (.joining (i + 1)))

theorem Steps.of_client (h : s.client cfg t k = some s') : Steps cfg s t k s' := by
  unfold client at h
  cases hc : s.clients t <;> rw [hc] at h
  case outside => cases h
  case checkAccepting task idx =>
    obtain rfl := Option.some.inj h
    exact .checkAccepting hc
  case returning task ok =>
    obtain rfl := Option.some.inj h
    exact .returning hc
  case stopAccepting =>
    obtain rfl := Option.some.inj h
    exact .stopAccepting hc
  case stopRequest was =>
    obtain rfl := Option.some.inj h
    exact .stopRequest hc
  case stopLock i =>
    dsimp only at h
    split_ifs at h with hdone hfree
    · obtain rfl := Option.some.inj h
      exact .stopDone hc hdone
    · obtain rfl := Option.some.inj h
      obtain ⟨hjoined, hi⟩ := not_or.1 hdone
      exact .stopLock hc (by omega) (by simpa using hjoined) (by simpa using hfree)
  case stopUnlock i =>
    dsimp only at h
    split_ifs at h with hjoined
    obtain rfl := Option.some.inj h
    exact .stopUnlock hc (by simpa using hjoined)
  case stopNotify i =>
    dsimp only at h
    split_ifs at h with hjoined
    obtain rfl := Option.some.inj h
    exact .stopNotify hc (by simpa using hjoined)
  case joining i =>
    dsimp only at h
    split_ifs at h with hdone hexited
    · obtain rfl := Option.some.inj h
      exact .joinDone hc hdone
    · obtain rfl := Option.some.inj h
      obtain ⟨hjoined, hi⟩ := not_or.1 hdone
      exact .joinNext hc hexited (by omega) (by simpa using hjoined)
  all_goals
    dsimp only [Client.worker, Option.bind_eq_bind, Option.bind_some] at h
    split_ifs at h with hjoined
    obtain ⟨⟨d, c⟩, hstep, hs'⟩ := Option.bind_eq_some_iff.1 h
    obtain rfl := Option.some.inj hs'
    exact .submit (by rw [hc]; rfl) (by simpa using hjoined) (hc ▸ hstep)

/-- A thread holds the mutex of worker `i`: the worker (`none`) or a caller. -/
def Holds (s : ThreadPool) (i : ℕ) : Option ℕ → Prop
  | none => (s.data i).place.holds = true
  | some t => (s.clients t).holding = some i

@[simp] theorem holds_worker (s : ThreadPool) (i : ℕ) :
    s.Holds i none ↔ (s.data i).place.holds = true := Iff.rfl

@[simp] theorem holds_caller (s : ThreadPool) (i t : ℕ) :
    s.Holds i (some t) ↔ (s.clients t).holding = some i := Iff.rfl

/-- Each mutex has one holder, or it is free. -/
def Guarded (s : ThreadPool) : Prop :=
  ∀ i, ∃ o : Option (Option ℕ), (s.data i).cvMutex = o.isSome ∧ ∀ w, s.Holds i w ↔ o = some w

/-- One thread does something to one mutex. -/
theorem Guarded.turns (h : s.Guarded) (i : ℕ) (w : Option ℕ)
    (hothers : ∀ j u, j ≠ i ∨ u ≠ w → (s'.Holds j u ↔ s.Holds j u))
    (hmutex : ∀ j, j ≠ i → (s'.data j).cvMutex = (s.data j).cvMutex)
    (hturns : Turns (s.data i).cvMutex (s'.data i).cvMutex (s.Holds i w) (s'.Holds i w)) :
    s'.Guarded := by
  intro j
  obtain ⟨o, ho, hholds⟩ := h j
  by_cases hj : j = i
  · subst hj
    cases hturns with
    | same hmutex hheld =>
      refine ⟨o, hmutex.trans ho, fun u => ?_⟩
      by_cases hu : u = w
      · rw [hu, hheld, hholds]
      · rw [hothers j u (Or.inr hu), hholds]
    | acquired hfree hmutex hheld =>
      have hnone : o = none := by
        rw [hfree] at ho
        exact Option.isSome_eq_false_iff.1 ho.symm |> Option.isNone_iff_eq_none.1
      refine ⟨some w, hmutex, fun u => ?_⟩
      by_cases hu : u = w
      · rw [hu]
        exact iff_of_true hheld rfl
      · rw [hothers j u (Or.inr hu), hholds, hnone]
        exact iff_of_false nofun fun he => hu (Option.some.inj he).symm
    | released hheld hmutex hheld' =>
      obtain rfl := (hholds w).1 hheld
      refine ⟨none, hmutex, fun u => ?_⟩
      by_cases hu : u = w
      · rw [hu]
        exact iff_of_false hheld' nofun
      · rw [hothers j u (Or.inr hu), hholds]
        exact iff_of_false (fun he => hu (Option.some.inj he).symm) nofun
  · refine ⟨o, (hmutex j hj).trans ho, fun u => ?_⟩
    rw [hothers j u (Or.inl hj), hholds]

/-- A thread goes from `s.clients t` to `c`, and does with the mutex of worker `i` what
its two places say. -/
theorem Guarded.caller (h : s.Guarded) {i : ℕ} {d : WorkerData} {c : Client}
    (hdata : s'.data = Function.update s.data i d)
    (hclients : s'.clients = Function.update s.clients t c) (hplace : d.place = (s.data i).place)
    (hturns : Turns (s.data i).cvMutex d.cvMutex ((s.clients t).holding = some i)
      (c.holding = some i))
    (hothers : ∀ j, j ≠ i → (s.clients t).holding ≠ some j ∧ c.holding ≠ some j) :
    s'.Guarded := by
  refine h.turns i (some t) (fun j u hu => ?_) (fun j hj => ?_) ?_
  · cases u with
    | none =>
      rw [holds_worker, holds_worker, hdata]
      by_cases hj : j = i
      · subst hj
        rw [Function.update_self, hplace]
      · rw [Function.update_of_ne hj]
    | some u =>
      rw [holds_caller, holds_caller, hclients]
      by_cases hut : u = t
      · subst hut
        have hj : j ≠ i := hu.resolve_right fun hne => hne rfl
        rw [Function.update_self]
        exact iff_of_false (hothers j hj).2 (hothers j hj).1
      · rw [Function.update_of_ne hut]
  · rw [hdata, Function.update_of_ne hj]
  · rw [holds_caller, holds_caller, hdata, hclients, Function.update_self, Function.update_self]
    exact hturns

/-- A thread that holds no mutex goes to a place where it holds none. -/
theorem Guarded.goto (h : s.Guarded) {c : Client} (hdata : s'.data = s.data)
    (hclients : s'.clients = Function.update s.clients t c)
    (hholding : (s.clients t).holding = none)
    (hc : c.holding = none) : s'.Guarded := by
  refine h.caller (i := 0) (d := s.data 0) ?_ hclients rfl ?_ fun j _ => ?_
  · rw [hdata, Function.update_eq_self]
  · exact .same rfl (by rw [hc, hholding])
  · rw [hholding, hc]
    exact ⟨nofun, nofun⟩

theorem Guarded.client (h : s.Guarded) (hstep : Steps cfg s t k s') : s'.Guarded := by
  cases hstep with
  | submit hworker hjoined hstep =>
    obtain ⟨hturns, hplace, hothers⟩ := submitStep_turns hstep hworker
    exact h.caller rfl rfl hplace hturns hothers
  | checkAccepting hc =>
    refine h.goto rfl rfl (by rw [hc]; rfl) ?_
    split_ifs <;> rfl
  | returning hc => exact h.goto rfl rfl (by rw [hc]; rfl) rfl
  | stopAccepting hc => exact h.goto rfl rfl (by rw [hc]; rfl) rfl
  | stopRequest hc =>
    refine h.goto rfl rfl (by rw [hc]; rfl) ?_
    split_ifs <;> rfl
  | stopDone hc hdone => exact h.goto rfl rfl (by rw [hc]; rfl) rfl
  | stopLock hc hi hjoined hfree =>
    refine h.caller rfl rfl rfl (.acquired hfree rfl rfl) fun j hj => ?_
    rw [hc]
    exact ⟨nofun, fun he => hj (Option.some.inj he).symm⟩
  | stopUnlock hc hjoined =>
    refine h.caller rfl rfl rfl (.released (by rw [hc]; rfl) rfl nofun) fun j hj => ?_
    rw [hc]
    exact ⟨fun he => hj (Option.some.inj he).symm, nofun⟩
  | stopNotify hc hjoined =>
    refine h.caller rfl rfl rfl (.same rfl (by rw [hc]; rfl)) fun j hj => ?_
    rw [hc]
    exact ⟨nofun, nofun⟩
  | joinDone hc hdone => exact h.goto rfl rfl (by rw [hc]; rfl) rfl
  | joinNext hc hexited hi hjoined => exact h.goto rfl rfl (by rw [hc]; rfl) rfl

/-- A worker does with its mutex what its two places say. -/
theorem Guarded.worker (h : s.Guarded) {i : ℕ} {d : WorkerData}
    (hturns : Turns (s.data i).cvMutex d.cvMutex ((s.data i).place.holds = true)
      (d.place.holds = true)) : (s.setData i d).Guarded := by
  refine h.turns i none (fun j u hu => ?_) (fun j hj => ?_) ?_
  · cases u with
    | none =>
      have hj : j ≠ i := hu.resolve_right fun hne => hne rfl
      show (Function.update s.data i d j).place.holds = true ↔ _
      rw [Function.update_of_ne hj, holds_worker]
    | some u => exact Iff.rfl
  · show (Function.update s.data i d j).cvMutex = _
    rw [Function.update_of_ne hj]
  · show Turns _ (Function.update s.data i d i).cvMutex _
      ((Function.update s.data i d i).place.holds = true)
    rw [Function.update_self]
    exact hturns

theorem Guarded.step {e : Event} (h : s.Guarded) (hstep : s.step cfg e = some s') :
    s'.Guarded := by
  cases e with
  | submit t valid idx =>
    simp only [ThreadPool.step] at hstep
    split_ifs at hstep with hout
    all_goals
      obtain rfl := Option.some.inj hstep
      exact h.goto rfl rfl (by rw [hout.1]; rfl) rfl
  | stop t =>
    simp only [ThreadPool.step] at hstep
    split_ifs at hstep with hout
    obtain rfl := Option.some.inj hstep
    exact h.goto rfl rfl (by rw [hout]; rfl) rfl
  | join t =>
    simp only [ThreadPool.step] at hstep
    split_ifs at hstep with hout
    obtain rfl := Option.some.inj hstep
    exact h.goto rfl rfl (by rw [hout]; rfl) rfl
  | client t k => exact h.client (.of_client hstep)
  | worker i =>
    simp only [ThreadPool.step] at hstep
    split_ifs at hstep
    obtain ⟨d, hd, rfl⟩ := Option.map_eq_some_iff.1 hstep
    exact h.worker (work_turns hd)
  | spurious i waiter =>
    simp only [ThreadPool.step] at hstep
    split_ifs at hstep
    obtain rfl := Option.some.inj hstep
    exact h.worker (.same rfl Iff.rfl)

/-- No mutex is held at the start, and none is taken. -/
theorem guarded_init : ({} : ThreadPool).Guarded := by
  refine fun i => ⟨none, rfl, fun w => ?_⟩
  cases w <;> exact iff_of_false nofun nofun

/-- **Mutual exclusion.**  In every state of the pool each `cv_mutex` has one holder, or
it is free and nobody is at a place where it would be held. -/
theorem guarded {es : List Event} (hrun : exec (step cfg) {} es = some s) : s.Guarded :=
  exec_invariant guarded_init (fun _ _ _ h hstep => h.step hstep) hrun

/-- Where a mutex is free, nobody is in the scope of its lock. -/
theorem Guarded.of_free (h : s.Guarded) {i : ℕ} (hfree : (s.data i).cvMutex = false)
    (w : Option ℕ) : ¬ s.Holds i w := by
  obtain ⟨o, ho, hholds⟩ := h i
  have hnone : o = none := Option.isNone_iff_eq_none.1 (Option.isSome_eq_false_iff.1 (ho ▸ hfree))
  rw [hholds, hnone]
  nofun

/-- Where a mutex is taken, somebody is. -/
theorem Guarded.of_taken (h : s.Guarded) {i : ℕ} (htaken : (s.data i).cvMutex = true) :
    ∃ w, s.Holds i w := by
  obtain ⟨o, ho, hholds⟩ := h i
  rw [htaken] at ho
  obtain ⟨w, rfl⟩ := Option.isSome_iff_exists.1 ho.symm
  exact ⟨w, (hholds w).2 rfl⟩

end ThreadPool
end Common
end MiniRpc
