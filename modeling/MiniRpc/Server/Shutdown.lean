/-
# The pool and the workers

`Start` gives every worker a pointer to the pool, and its tail stops, joins and
destroys the pool before it stops the workers.  A worker that is still in
`PollOnce`, or in the drains after its loop, then dispatches a request to a pool
that is joined or gone (`pool_destroyed_first`).

At most one call of `Start` has the pool and the workers in its hands
(`Exclusive`), and what it knows of them at each place of its code (`Holds`) is
kept by every step of everybody else.  So the pool outlives the workers if and
only if it is joined only after they have ended (`pool_outlives_workers_iff`).
-/

import MiniRpc.Server.RpcServer

namespace MiniRpc
namespace Server
namespace RpcServer

open Transition

variable {cfg : ServerConfig} {s s' : RpcServer} {t : ℕ} {c : Caller} {e : Event}

/-! ### The pool and the workers are in the hands of one call -/

/-- The call of `Start` that set `running_` is the only one that has the pool and
the workers in its hands, or a call of `Stop` is that holds the lock. -/
structure Exclusive (s : RpcServer) : Prop where
  running : ∀ t, (s.callers t).role = .owner → s.running = true
  unique : ∀ t u, (s.callers t).role = .owner → (s.callers u).role = .owner → t = u
  lock : ∀ t, (s.callers t).role = .fallback → s.lifecycleMu = some t
  stopped : ∀ t, s.lifecycleMu = some t → s.running = false
  owned : s.running = true → ∃ t, (s.callers t).role = .owner

theorem Exclusive.alone (h : s.Exclusive) {u : ℕ} (ht : (s.callers t).role ≠ .bystander)
    (hu : (s.callers u).role ≠ .bystander) : t = u := by
  cases hct : (s.callers t).role with
  | bystander => exact absurd hct ht
  | owner =>
    cases hcu : (s.callers u).role with
    | bystander => exact absurd hcu hu
    | owner => exact h.unique t u hct hcu
    | fallback =>
      have hrun := h.running t hct
      rw [h.stopped u (h.lock u hcu)] at hrun
      cases hrun
  | fallback =>
    cases hcu : (s.callers u).role with
    | bystander => exact absurd hcu hu
    | owner =>
      have hrun := h.running u hcu
      rw [h.stopped t (h.lock t hct)] at hrun
      cases hrun
    | fallback => exact Option.some.inj ((h.lock t hct).symm.trans (h.lock u hcu))

/-- Steps that leave the roles, `running_` and the lock as they are. -/
theorem Exclusive.of_roles (h : s.Exclusive)
    (hroles : ∀ u, (s'.callers u).role = (s.callers u).role) (hrunning : s'.running = s.running)
    (hlock : s'.lifecycleMu = s.lifecycleMu) : s'.Exclusive where
  running t ht := by
    rw [hrunning]
    exact h.running t (hroles t ▸ ht)
  unique t u ht hu := h.unique t u (hroles t ▸ ht) (hroles u ▸ hu)
  lock t ht := by
    rw [hlock]
    exact h.lock t (hroles t ▸ ht)
  stopped t ht := by
    rw [hrunning]
    exact h.stopped t (hlock ▸ ht)
  owned hrun := by
    obtain ⟨t, ht⟩ := h.owned (hrunning ▸ hrun)
    exact ⟨t, (hroles t).trans ht⟩

theorem role_update {f : ℕ → Caller} (hc : c.role = (f t).role) (u : ℕ) :
    (Function.update f t c u).role = (f u).role := by
  rw [Function.update_apply]
  split_ifs with hu
  · rw [hc, hu]
  · rfl

theorem role_notifyAll (s : RpcServer) (u : ℕ) :
    (s.notifyAll.callers u).role = (s.callers u).role := by
  unfold notifyAll
  dsimp only
  split_ifs with hw
  · rw [hw]
    rfl
  · rfl

/-- The call that has all in its hands gives it back. -/
theorem Exclusive.release (h : s.Exclusive) (ht : (s.callers t).role ≠ .bystander)
    (hother : ∀ u, u ≠ t → (s'.callers u).role = (s.callers u).role)
    (hself : (s'.callers t).role = .bystander) (hrunning : s'.running = false)
    (hlock : s'.lifecycleMu = none) : s'.Exclusive := by
  have hnone : ∀ u, (s'.callers u).role = .bystander := by
    intro u
    by_cases hut : u = t
    · rw [hut, hself]
    · rw [hother u hut]
      by_contra hu
      exact hut (h.alone hu ht)
  refine ⟨fun u hu => ?_, fun u v hu => ?_, fun u hu => ?_, fun u hu => ?_, fun hrun => ?_⟩
  · cases (hnone u).symm.trans hu
  · cases (hnone u).symm.trans hu
  · cases (hnone u).symm.trans hu
  · cases hlock.symm.trans hu
  · cases hrunning.symm.trans hrun

/-- Nobody has the pool and the workers in his hands. -/
theorem Exclusive.free (h : s.Exclusive) (hrunning : s.running = false)
    (hlock : s.lifecycleMu = none) (u : ℕ) : (s.callers u).role = .bystander := by
  cases hu : (s.callers u).role with
  | bystander => rfl
  | owner => cases hrunning.symm.trans (h.running u hu)
  | fallback => cases hlock.symm.trans (h.lock u hu)

theorem Exclusive.advance {ok : Bool} (h : s.Exclusive) (hstep : s.advance cfg t ok = some s') :
    s'.Exclusive := by
  rcases advance_cases hstep with ⟨next, hframe, -, hnext⟩ | ⟨hclear, rfl⟩ | ⟨next, rfl, hnext⟩ |
    ⟨next, hs', hlock, hcaller, hnext, -⟩ | ⟨hcaller, rfl⟩ |
    ⟨next, hframe, -, hcaller, hnext, -⟩
  · refine h.of_roles (fun u => ?_) hframe.running hframe.lifecycleMu
    rw [hframe.callers, role_update hnext]
  · refine h.of_roles (role_update ?_) rfl rfl
    rw [hclear]
    rfl
  · exact h.of_roles (role_update hnext) rfl rfl
  · have hrole : (s.callers t).role ≠ .bystander := by
      rcases hcaller with hcaller | hcaller <;> rw [hcaller] <;> simp [Caller.role]
    rcases hs' with rfl | rfl
    · refine h.release hrole (fun u hu => ?_) ?_ rfl hlock
      · rw [goto_callers, Function.update_of_ne hu]
        exact role_notifyAll s u
      · rw [goto_callers, Function.update_self, hnext]
    · refine h.release hrole (fun u hu => ?_) ?_ rfl hlock
      · rw [goto_callers, Function.update_of_ne hu]
      · rw [goto_callers, Function.update_self, hnext]
  · have hrole : (s.callers t).role = .fallback := by rw [hcaller]; rfl
    have hne : (s.callers t).role ≠ .bystander := by simp [hrole]
    refine h.release hne (fun u hu => ?_) ?_ (h.stopped t (h.lock t hrole)) rfl
    · rw [goto_callers, Function.update_of_ne hu]
    · rw [goto_callers, Function.update_self]
      rfl
  · rcases hframe with hframe | hframe
    · refine h.of_roles (fun u => ?_) hframe.running hframe.lifecycleMu
      rw [hframe.callers, role_update (hnext.trans hcaller.symm)]
    · refine h.of_roles (fun u => ?_) hframe.running hframe.lifecycleMu
      rw [hframe.callers, role_update, role_notifyAll]
      rw [hnext, role_notifyAll, hcaller]

theorem Exclusive.step (h : s.Exclusive) (hstep : s.step cfg e = some s') : s'.Exclusive := by
  cases e with
  | start t =>
    simp only [RpcServer.step] at hstep
    split_ifs at hstep with hguard hrun
    · obtain rfl := Option.some.inj hstep
      exact h
    · obtain rfl := Option.some.inj hstep
      -- the caller is the only one that is not a bystander now
      have hfree := h.free (by simpa using hrun) hguard.2
      have hrole : ∀ u, (Function.update s.callers t .clearStop u).role =
          if u = t then .owner else .bystander := by
        intro u
        rw [Function.update_apply]
        split_ifs
        · rfl
        · exact hfree u
      refine ⟨fun _ _ => rfl, fun u v hu hv => ?_, fun u hu => ?_, fun u hu => ?_,
        fun _ => ⟨t, by rw [goto_callers, hrole, if_pos rfl]⟩⟩
      · rw [goto_callers, hrole] at hu hv
        split_ifs at hu hv with hut hvt
        rw [hut, hvt]
      · rw [goto_callers, hrole] at hu
        split_ifs at hu
      · cases hguard.2.symm.trans hu
  | stop t =>
    simp only [RpcServer.step] at hstep
    split_ifs at hstep with hguard hrun
    · obtain rfl := Option.some.inj hstep
      refine h.of_roles (role_update ?_) rfl rfl
      rw [hguard.1]
      rfl
    · obtain rfl := Option.some.inj hstep
      have hrun : s.running = false := by simpa using hrun
      have hfree := h.free hrun hguard.2
      have hrole : ∀ u, (Function.update s.callers t .fallbackRaise u).role =
          if u = t then .fallback else .bystander := by
        intro u
        rw [Function.update_apply]
        split_ifs
        · rfl
        · exact hfree u
      refine ⟨fun u hu => ?_, fun u v hu => ?_, fun u hu => ?_, fun _ _ => hrun, fun hrun' => ?_⟩
      · rw [goto_callers, hrole] at hu
        split_ifs at hu
      · rw [goto_callers, hrole] at hu
        split_ifs at hu
      · rw [goto_callers, hrole] at hu
        split_ifs at hu with hut
        rw [hut]
        rfl
      · cases hrun.symm.trans hrun'
  | advance t ok => exact h.advance hstep
  | work i ok =>
    obtain ⟨w, -, hstep⟩ := Option.bind_eq_some_iff.1 hstep
    obtain ⟨w', -, hstep⟩ := Option.bind_eq_some_iff.1 hstep
    obtain rfl := Option.some.inj hstep
    exact h.of_roles (fun _ => rfl) rfl rfl
  | dispatch i =>
    obtain ⟨w, -, hstep⟩ := Option.bind_eq_some_iff.1 hstep
    split_ifs at hstep
    obtain rfl := Option.some.inj hstep
    exact h.of_roles (fun _ => rfl) rfl rfl

/-! ### The pool outlives the workers -/

/-- There is no worker and no pool. -/
def Bare (s : RpcServer) : Prop := s.workers = [] ∧ s.businessThreadPool = none

/-- The pool, if there is one, runs, and the workers point to it. -/
def Staffed (s : RpcServer) : Prop :=
  (∀ p, s.businessThreadPool = some p → s.pools[p]? = some .started) ∧
    ∀ w ∈ s.workers, w.threadPool = s.businessThreadPool

/-- The pool is gone, and no worker that points to one can dispatch. -/
def Quiet (s : RpcServer) : Prop :=
  s.businessThreadPool = none ∧ ∀ w ∈ s.workers, w.threadPool = none ∨ w.canDispatch = false

/-- What `Start` knows of the pool and the workers in the course of the shutdown. -/
def HoldsAt (s : RpcServer) : Shutdown → Prop
  | .stopPool => s.Staffed
  | .joinPool => ∃ p, s.businessThreadPool = some p ∧ s.pools[p]? = some .stopping ∧
      ∀ w ∈ s.workers, w.threadPool = some p
  | .resetPool => ∀ w ∈ s.workers, w.canDispatch = false
  | .requestStop _ | .joinWorker _ | .clear => s.Quiet

/-- What a call knows of the pool and the workers at each place. -/
def Holds (s : RpcServer) : Caller → Prop
  | .clearStop | .openAccept | .initAcceptor | .startPool | .failing | .publishing => s.Bare
  | .clearWorkers => s.workers = [] ∧ s.Staffed
  | .startWorkers _ | .checkStop | .accepting | .closeAccept | .raiseStop => s.Staffed
  | .shutdown .failed place | .shutdown .tail place => s.HoldsAt place
  | .fallbackRaise | .fallbackClose | .shutdown .fallback _ | .returning => s.Bare
  | .outside | .notifying | .stopClose | .stopRaise | .relocking | .waiting | .woken => True

/-- The workers of `s'` are workers of `s`, later in their runs. -/
structure Fewer (s s' : RpcServer) : Prop where
  pools : s'.pools = s.pools
  businessThreadPool : s'.businessThreadPool = s.businessThreadPool
  workers : ∀ w' ∈ s'.workers, ∃ w ∈ s.workers, w'.threadPool = w.threadPool ∧
    (w.canDispatch = false → w'.canDispatch = false)

theorem Aside.fewer (h : Aside s s') : Fewer s s' :=
  ⟨h.pools, h.businessThreadPool, fun w hw => ⟨w, h.workers ▸ hw, rfl, id⟩⟩

theorem Fewer.nil (h : Fewer s s') (hs : s.workers = []) : s'.workers = [] := by
  refine List.eq_nil_iff_forall_not_mem.2 fun w' hw' => ?_
  obtain ⟨w, hw, -⟩ := h.workers w' hw'
  rw [hs] at hw
  cases hw

theorem Fewer.bare (h : Fewer s s') (hs : s.Bare) : s'.Bare :=
  ⟨h.nil hs.1, h.businessThreadPool.trans hs.2⟩

theorem Fewer.staffed (h : Fewer s s') (hs : s.Staffed) : s'.Staffed := by
  refine ⟨fun p hp => ?_, fun w' hw' => ?_⟩
  · rw [h.pools]
    exact hs.1 p (h.businessThreadPool ▸ hp)
  · obtain ⟨w, hw, heq, -⟩ := h.workers w' hw'
    rw [heq, hs.2 w hw, h.businessThreadPool]

theorem Fewer.quiet (h : Fewer s s') (hs : s.Quiet) : s'.Quiet := by
  refine ⟨h.businessThreadPool.trans hs.1, fun w' hw' => ?_⟩
  obtain ⟨w, hw, heq, hdisp⟩ := h.workers w' hw'
  rw [heq]
  exact (hs.2 w hw).imp_right hdisp

theorem Fewer.holdsAt (h : Fewer s s') {place : Shutdown} (hs : s.HoldsAt place) :
    s'.HoldsAt place := by
  cases place with
  | stopPool => exact h.staffed hs
  | joinPool =>
    obtain ⟨p, hp, hstop, hall⟩ := hs
    refine ⟨p, h.businessThreadPool.trans hp, by rw [h.pools, hstop], fun w' hw' => ?_⟩
    obtain ⟨w, hw, heq, -⟩ := h.workers w' hw'
    rw [heq, hall w hw]
  | resetPool =>
    intro w' hw'
    obtain ⟨w, hw, -, hdisp⟩ := h.workers w' hw'
    exact hdisp (hs w hw)
  | requestStop i => exact h.quiet hs
  | joinWorker i => exact h.quiet hs
  | clear => exact h.quiet hs

/-- What a call knows stays true while workers go on. -/
theorem Fewer.holds (h : Fewer s s') (hs : s.Holds c) : s'.Holds c := by
  unfold Holds at hs ⊢
  split at hs
  all_goals first
    | exact h.bare hs
    | exact ⟨h.nil hs.1, h.staffed hs.2⟩
    | exact h.staffed hs
    | exact h.holdsAt hs
    | exact trivial

/-- No worker can dispatch when the pool is joined. -/
def SparesPool (s : RpcServer) : Event → Prop
  | .advance t _ => ∀ path, s.callers t = .shutdown path .joinPool →
      ∀ w ∈ s.workers, w.canDispatch = false
  | _ => True

theorem fewer_clearStep {next : Caller} (h : s.clearStep t next = some s') : Fewer s s' := by
  unfold clearStep at h
  split at h
  · obtain rfl := Option.some.inj h
    exact Aside.fewer ⟨rfl, rfl, rfl⟩
  · rename_i w ws hws
    split_ifs at h
    · obtain rfl := Option.some.inj h
      exact ⟨rfl, rfl, fun w' hw' => ⟨w', by simp_all, rfl, id⟩⟩
    · obtain rfl := Option.some.inj h
      refine ⟨rfl, rfl, fun w' hw' => ?_⟩
      rcases List.mem_cons.1 hw' with rfl | hw'
      · exact ⟨w, by simp [hws], rfl, id⟩
      · exact ⟨w', by simp [hws, hw'], rfl, id⟩

theorem fewer_requestStop (s : RpcServer) (i t : ℕ) (c : Caller) :
    Fewer s (goto { s with
      workers := s.workers.modify i fun w => { w with stopRequested := true } } t c) := by
  refine ⟨rfl, rfl, fun w' hw' => ?_⟩
  obtain ⟨j, hj⟩ := List.mem_iff_getElem?.1 hw'
  rw [goto, List.getElem?_modify] at hj
  obtain ⟨w, hw, rfl⟩ := Option.map_eq_some_iff.1 hj
  refine ⟨w, List.mem_of_getElem? hw, ?_, ?_⟩
  · split_ifs <;> rfl
  · split_ifs <;> exact id

/-- **A step of the shutdown** leads to what is known at the next place; at the end
nothing is left. -/
theorem HoldsAt.shutdownStep {path : Path} {place : Shutdown} (h : s.HoldsAt place)
    (hcaller : s.callers t = .shutdown path place)
    (hspares : place = .joinPool → ∀ w ∈ s.workers, w.canDispatch = false)
    (hstep : s.shutdownStep t path place = some s') :
    (∃ next, s'.callers t = .shutdown path next ∧ s'.HoldsAt next) ∨
      (s'.callers t = path.next ∧ s'.Bare) := by
  have hat : ∀ (v : RpcServer) (c : Caller), (v.goto t c).callers t = c := fun v c => by
    rw [goto_callers, Function.update_self]
  cases place with
  | stopPool =>
    simp only [RpcServer.shutdownStep] at hstep
    split at hstep
    · rename_i hnone
      obtain rfl := Option.some.inj hstep
      exact Or.inl ⟨_, hat _ _, hnone, fun w hw => Or.inl ((h.2 w hw).trans hnone)⟩
    · rename_i p hp
      obtain rfl := Option.some.inj hstep
      refine Or.inl ⟨_, hat _ _, p, hp, ?_, fun w hw => (h.2 w hw).trans hp⟩
      obtain ⟨hlt, -⟩ := List.getElem?_eq_some_iff.1 (h.1 p hp)
      exact List.getElem?_set_self hlt
  | joinPool =>
    obtain ⟨p, -, rfl⟩ := Option.map_eq_some_iff.1 hstep
    exact Or.inl ⟨_, hat _ _, hspares rfl⟩
  | resetPool =>
    obtain rfl := Option.some.inj hstep
    refine Or.inl ⟨_, hat _ _, ?_⟩
    unfold RpcServer.resetPool
    split
    · rename_i hnone
      exact ⟨hnone, fun w hw => Or.inr (h w hw)⟩
    · exact ⟨rfl, fun w hw => Or.inr (h w hw)⟩
  | requestStop i =>
    simp only [RpcServer.shutdownStep] at hstep
    split_ifs at hstep
    · obtain rfl := Option.some.inj hstep
      exact Or.inl ⟨_, hat _ _, (fewer_requestStop s i t _).quiet h⟩
    · obtain rfl := Option.some.inj hstep
      exact Or.inl ⟨_, hat _ _, h⟩
  | joinWorker i =>
    simp only [RpcServer.shutdownStep] at hstep
    split at hstep
    · split_ifs at hstep
      obtain rfl := Option.some.inj hstep
      exact Or.inl ⟨_, hat _ _, h⟩
    · obtain rfl := Option.some.inj hstep
      exact Or.inl ⟨_, hat _ _, h⟩
  | clear =>
    have hquiet := (fewer_clearStep hstep).quiet h
    simp only [RpcServer.shutdownStep, RpcServer.clearStep] at hstep
    split at hstep
    · rename_i hnil
      obtain rfl := Option.some.inj hstep
      exact Or.inr ⟨hat _ _, hnil, h.1⟩
    · split_ifs at hstep
      · obtain rfl := Option.some.inj hstep
        exact Or.inl ⟨_, hcaller, hquiet⟩
      · obtain rfl := Option.some.inj hstep
        exact Or.inl ⟨_, hcaller, hquiet⟩

/-- Without workers and a pool the shutdown has nothing to do. -/
theorem Bare.shutdownStep {path : Path} {place : Shutdown} (h : s.Bare)
    (hstep : s.shutdownStep t path place = some s') : s'.Bare := by
  obtain ⟨hnil, hnone⟩ := h
  cases place with
  | stopPool =>
    simp only [RpcServer.shutdownStep, hnone] at hstep
    obtain rfl := Option.some.inj hstep
    exact ⟨hnil, hnone⟩
  | joinPool =>
    simp only [RpcServer.shutdownStep, hnone] at hstep
    cases hstep
  | resetPool =>
    simp only [RpcServer.shutdownStep, RpcServer.resetPool, hnone] at hstep
    obtain rfl := Option.some.inj hstep
    exact ⟨hnil, hnone⟩
  | requestStop i =>
    simp only [RpcServer.shutdownStep, hnil] at hstep
    obtain rfl := Option.some.inj hstep
    exact ⟨hnil, hnone⟩
  | joinWorker i =>
    simp only [RpcServer.shutdownStep, hnil] at hstep
    obtain rfl := Option.some.inj hstep
    exact ⟨hnil, hnone⟩
  | clear => exact (fewer_clearStep hstep).bare ⟨hnil, hnone⟩

theorem Bare.staffed (h : s.Bare) : s.Staffed := by
  refine ⟨fun p hp => ?_, fun w hw => ?_⟩
  · cases h.2.symm.trans hp
  · rw [h.1] at hw
    cases hw

theorem Bare.startPool (h : s.Bare) (cfg : ServerConfig) (t : ℕ) (ok : Bool) :
    (s.startPool cfg t ok).Holds ((s.startPool cfg t ok).callers t) := by
  have hreset : s.resetPool = s := by
    unfold RpcServer.resetPool
    rw [h.2]
  unfold RpcServer.startPool
  simp only [hreset]
  split_ifs
  · rw [goto_callers, Function.update_self]
    exact ⟨h.1, Bare.staffed h⟩
  · rw [goto_callers, Function.update_self]
    refine ⟨h.1, fun p hp => ?_, fun w hw => ?_⟩
    · obtain rfl : s.pools.length = p := Option.some.inj hp
      simp [goto]
    · replace hw : w ∈ s.workers := hw
      rw [h.1] at hw
      cases hw
  · rw [goto_callers, Function.update_self]
    exact h

theorem Staffed.startWorker (h : s.Staffed) (cfg : ServerConfig) (t i : ℕ) (ok : Bool) :
    (s.startWorker cfg t i ok).Holds ((s.startWorker cfg t i ok).callers t) := by
  unfold RpcServer.startWorker
  split_ifs
  · rw [goto_callers, Function.update_self]
    refine ⟨h.1, fun w hw => ?_⟩
    rcases List.mem_append.1 hw with hw | hw
    · exact h.2 w hw
    · rw [List.mem_singleton.1 hw]
      rfl
  · rw [goto_callers, Function.update_self]
    exact h
  · rw [goto_callers, Function.update_self]
    exact h

/-- **What a call knows at the place it comes to.** -/
theorem Holds.advance {ok : Bool} (h : s.Holds (s.callers t))
    (hspares : s.SparesPool (.advance t ok)) (hstep : s.advance cfg t ok = some s') :
    s'.Holds (s'.callers t) := by
  have hat : ∀ (v : RpcServer) (c : Caller), v.Holds c →
      (v.goto t c).Holds ((v.goto t c).callers t) := by
    intro v c hv
    rw [goto_callers, Function.update_self]
    exact (Aside.fewer (s := v) ⟨rfl, rfl, rfl⟩).holds hv
  unfold RpcServer.advance at hstep
  cases hc : s.callers t <;> rw [hc] at h hstep
  case outside => cases hstep
  case initAcceptor =>
    obtain rfl := Option.some.inj hstep
    refine hat s _ ?_
    split_ifs <;> exact h
  case startPool =>
    obtain rfl := Option.some.inj hstep
    exact Bare.startPool h cfg t ok
  case clearWorkers =>
    simp only [RpcServer.clearStep, h.1] at hstep
    obtain rfl := Option.some.inj hstep
    exact hat s _ h.2
  case startWorkers i =>
    obtain rfl := Option.some.inj hstep
    exact Staffed.startWorker h cfg t i ok
  case checkStop =>
    obtain rfl := Option.some.inj hstep
    refine hat s _ ?_
    split_ifs <;> exact h
  case accepting =>
    obtain rfl := Option.some.inj hstep
    refine hat s _ ?_
    split_ifs <;> exact h
  case shutdown path place =>
    have hnext : path ≠ .fallback → s.HoldsAt place → s'.Holds (s'.callers t) := by
      intro hpath h
      rcases h.shutdownStep hc (fun hjoin => hspares path (hjoin ▸ hc)) hstep with
        ⟨next, hs', hnext⟩ | ⟨hs', hbare⟩
      · rw [hs']
        cases path <;> first | exact hnext | exact absurd rfl hpath
      · rw [hs']
        cases path <;> exact hbare
    cases path with
    | failed => exact hnext (by decide) h
    | tail => exact hnext (by decide) h
    | fallback =>
      have hbare := Bare.shutdownStep h hstep
      rcases shutdownStep_frame hc hstep with ⟨next, hframe⟩ | hframe
      · rw [hframe.callers, Function.update_self]
        exact hbare
      · rw [hframe.callers, Function.update_self]
        exact hbare
  case failing =>
    dsimp only at hstep
    split_ifs at hstep
    obtain rfl := Option.some.inj hstep
    exact hat _ _ trivial
  case publishing =>
    dsimp only at hstep
    split_ifs at hstep
    obtain rfl := Option.some.inj hstep
    exact hat _ _ trivial
  case relocking =>
    simp only [RpcServer.awaitStopped] at hstep
    split_ifs at hstep
    · obtain rfl := Option.some.inj hstep
      exact hat _ _ trivial
    · obtain rfl := Option.some.inj hstep
      exact hat _ _ trivial
  case woken =>
    simp only [RpcServer.awaitStopped] at hstep
    split_ifs at hstep
    · obtain rfl := Option.some.inj hstep
      exact hat _ _ trivial
    · obtain rfl := Option.some.inj hstep
      exact hat _ _ trivial
  case returning =>
    obtain rfl := Option.some.inj hstep
    exact hat _ _ trivial
  -- the steps that only store a flag or wake somebody
  all_goals
    obtain rfl := Option.some.inj hstep
    exact hat _ _ h

/-- A worker that can dispatch finds its pool neither joined nor destroyed. -/
def PoolsAlive (s : RpcServer) : Prop :=
  ∀ w ∈ s.workers, w.canDispatch = true → ∀ p, w.threadPool = some p →
    ∃ status, s.pools[p]? = some status ∧ status.isAlive = true

/-- What holds in every state of a run whose steps spare the pool. -/
structure Managed (s : RpcServer) : Prop where
  exclusive : s.Exclusive
  holds : ∀ t, s.Holds (s.callers t)
  bare : s.running = false → s.Bare
  submits : ∀ status ∈ s.submits, status.isAlive = true

theorem Staffed.poolsAlive (h : s.Staffed) : s.PoolsAlive := by
  intro w hw _ p hp
  exact ⟨.started, h.1 p (h.2 w hw ▸ hp), rfl⟩

theorem poolsAlive_of_nil (h : s.workers = []) : s.PoolsAlive := by
  intro w hw
  rw [h] at hw
  cases hw

theorem HoldsAt.poolsAlive {place : Shutdown} (h : s.HoldsAt place) : s.PoolsAlive := by
  have hquiet : s.Quiet → s.PoolsAlive := by
    intro hq w hw hdisp p hp
    rcases hq.2 w hw with hnone | hfalse
    · cases hnone.symm.trans hp
    · cases hfalse.symm.trans hdisp
  cases place with
  | stopPool => exact Staffed.poolsAlive h
  | joinPool =>
    intro w hw _ p hp
    obtain ⟨q, -, hstop, hall⟩ := h
    obtain rfl := Option.some.inj ((hall w hw).symm.trans hp)
    exact ⟨.stopping, hstop, rfl⟩
  | resetPool =>
    intro w hw hdisp
    cases (h w hw).symm.trans hdisp
  | requestStop i => exact hquiet h
  | joinWorker i => exact hquiet h
  | clear => exact hquiet h

/-- **The call that has all in its hands keeps the pool alive for the workers.** -/
theorem Managed.poolsAlive (h : s.Managed) : s.PoolsAlive := by
  cases hrun : s.running with
  | false => exact poolsAlive_of_nil (h.bare hrun).1
  | true =>
    obtain ⟨t, ht⟩ := h.exclusive.owned hrun
    have hholds := h.holds t
    cases hc : s.callers t <;> rw [hc] at ht hholds
    case clearWorkers => exact Staffed.poolsAlive hholds.2
    case shutdown path place =>
      cases path with
      | failed => exact HoldsAt.poolsAlive hholds
      | tail => exact HoldsAt.poolsAlive hholds
      | fallback => cases ht
    all_goals first
      | exact Staffed.poolsAlive hholds
      | exact poolsAlive_of_nil hholds.1
      | cases ht

theorem holds_of_bystander (hc : c.role = .bystander) : s.Holds c := by
  cases c with
  | shutdown path place => cases path <;> cases hc
  | _ => first | exact trivial | cases hc

/-- A step of one call leaves the others where they are, but it may wake some. -/
theorem advance_other {ok : Bool} (h : s.advance cfg t ok = some s') {u : ℕ} (hu : u ≠ t) :
    s'.callers u = s.callers u ∨ (s'.callers u).role = .bystander := by
  have hnotify : ∀ v : RpcServer, v.notifyAll.callers u = v.callers u ∨
      (v.notifyAll.callers u).role = .bystander := by
    intro v
    unfold notifyAll
    dsimp only
    split_ifs
    · exact Or.inr rfl
    · exact Or.inl rfl
  rcases advance_cases h with ⟨next, hframe, -⟩ | ⟨-, rfl⟩ | ⟨next, rfl, -⟩ |
    ⟨next, rfl | rfl, -⟩ | ⟨-, rfl⟩ | ⟨next, hframe | hframe, -⟩
  · exact Or.inl (by rw [hframe.callers, Function.update_of_ne hu])
  · exact Or.inl (Function.update_of_ne hu _ _)
  · exact Or.inl (Function.update_of_ne hu _ _)
  · rw [goto_callers, Function.update_of_ne hu]
    exact hnotify { s with running := false }
  · exact Or.inl (Function.update_of_ne hu _ _)
  · exact Or.inl (Function.update_of_ne hu _ _)
  · exact Or.inl (by rw [hframe.callers, Function.update_of_ne hu])
  · rw [hframe.callers, Function.update_of_ne hu]
    exact hnotify s

/-- A bystander leaves the pools and the workers alone. -/
theorem advance_aside {ok : Bool} (h : s.advance cfg t ok = some s')
    (ht : (s.callers t).role = .bystander) : Aside s s' := by
  rcases advance_cases h with ⟨next, -, hrole, -⟩ | ⟨-, rfl⟩ | ⟨next, rfl, -⟩ |
    ⟨next, rfl | rfl, -⟩ | ⟨-, rfl⟩ | ⟨next, -, haside, -⟩
  · exact absurd ht hrole
  · exact ⟨rfl, rfl, rfl⟩
  · exact ⟨rfl, rfl, rfl⟩
  · exact ⟨rfl, rfl, rfl⟩
  · exact ⟨rfl, rfl, rfl⟩
  · exact ⟨rfl, rfl, rfl⟩
  · exact haside

theorem Managed.advance {ok : Bool} (h : s.Managed) (hspares : s.SparesPool (.advance t ok))
    (hstep : s.advance cfg t ok = some s') : s'.Managed := by
  have hself := (h.holds t).advance hspares hstep
  refine ⟨h.exclusive.advance hstep, fun u => ?_, fun hrun => ?_, ?_⟩
  · by_cases hut : u = t
    · rw [hut]
      exact hself
    · by_cases hrole : (s'.callers u).role = .bystander
      · exact holds_of_bystander hrole
      · -- somebody else has all in his hands, so `t` does not touch it
        have hu : s'.callers u = s.callers u :=
          (advance_other hstep hut).resolve_right hrole
        have ht : (s.callers t).role = .bystander := by
          by_contra ht
          exact hut (h.exclusive.alone (hu ▸ hrole) ht)
        rw [hu]
        exact (advance_aside hstep ht).fewer.holds (h.holds u)
  · rcases advance_cases hstep with ⟨next, hframe, hrole, hnext⟩ | ⟨-, rfl⟩ | ⟨next, rfl, -⟩ |
      ⟨next, hs', -, hcaller, -⟩ | ⟨-, rfl⟩ | ⟨next, hframe, haside, -⟩
    · have hrun := hframe.running.symm.trans hrun
      have hfall : next.role = .fallback := by
        cases hr : (s.callers t).role with
        | bystander => exact absurd hr hrole
        | owner => cases hrun.symm.trans (h.exclusive.running t hr)
        | fallback => exact hnext.trans hr
      rw [hframe.callers, Function.update_self] at hself
      cases next with
      | shutdown path place => cases path <;> first | exact hself | cases hfall
      | _ => first | exact hself | cases hfall
    · exact h.bare hrun
    · exact h.bare hrun
    · have hbare : s.Bare := by
        have := h.holds t
        rcases hcaller with hcaller | hcaller <;> rw [hcaller] at this <;> exact this
      rcases hs' with rfl | rfl <;> exact hbare
    · exact h.bare hrun
    · refine haside.fewer.bare (h.bare ?_)
      rcases hframe with hframe | hframe <;> exact hframe.running.symm.trans hrun
  · have hsubmits : s'.submits = s.submits := by
      rcases advance_cases hstep with ⟨next, hframe, -⟩ | ⟨-, rfl⟩ | ⟨next, rfl, -⟩ |
        ⟨next, rfl | rfl, -⟩ | ⟨-, rfl⟩ | ⟨next, hframe | hframe, -⟩
      all_goals first | exact hframe.submits | rfl
    rw [hsubmits]
    exact h.submits

theorem run_threadPool {w w' : LoopThread} {ok : Bool} (h : w.run ok = some w') :
    w'.threadPool = w.threadPool ∧ (w.canDispatch = false → w'.canDispatch = false) := by
  unfold LoopThread.run at h
  unfold LoopThread.canDispatch
  split at h
  · obtain rfl := Option.some.inj h
    simp
  · obtain rfl := Option.some.inj h
    simp
  · obtain rfl := Option.some.inj h
    simp
  · obtain rfl := Option.some.inj h
    simp
  · cases h

theorem fewer_work {w w' : LoopThread} {i : ℕ} {ok : Bool} (hw : s.workers[i]? = some w)
    (hrun : w.run ok = some w') : Fewer s { s with workers := s.workers.set i w' } := by
  refine ⟨rfl, rfl, fun v hv => ?_⟩
  rcases List.mem_or_eq_of_mem_set hv with hv | rfl
  · exact ⟨v, hv, rfl, id⟩
  · exact ⟨w, List.mem_of_getElem? hw, (run_threadPool hrun).1, (run_threadPool hrun).2⟩

theorem Managed.step (h : s.Managed) (hspares : s.SparesPool e) (hstep : s.step cfg e = some s') :
    s'.Managed := by
  have hexcl := h.exclusive.step hstep
  cases e with
  | start t =>
    simp only [RpcServer.step] at hstep
    split_ifs at hstep with hguard hrun
    · obtain rfl := Option.some.inj hstep
      exact h
    · obtain rfl := Option.some.inj hstep
      have hrun : s.running = false := by simpa using hrun
      refine ⟨hexcl, fun u => ?_, fun hr => ?_, h.submits⟩
      · rw [goto_callers, Function.update_apply]
        split_ifs
        · exact h.bare hrun
        · exact holds_of_bystander (h.exclusive.free hrun hguard.2 u)
      · cases hr
  | stop t =>
    simp only [RpcServer.step] at hstep
    split_ifs at hstep with hguard hrun
    · obtain rfl := Option.some.inj hstep
      refine ⟨hexcl, fun u => ?_, h.bare, h.submits⟩
      rw [goto_callers, Function.update_apply]
      split_ifs
      · exact trivial
      · exact (Aside.fewer (s := s) ⟨rfl, rfl, rfl⟩).holds (h.holds u)
    · obtain rfl := Option.some.inj hstep
      have hrun : s.running = false := by simpa using hrun
      refine ⟨hexcl, fun u => ?_, fun _ => h.bare hrun, h.submits⟩
      rw [goto_callers, Function.update_apply]
      split_ifs
      · exact h.bare hrun
      · exact holds_of_bystander (h.exclusive.free hrun hguard.2 u)
  | advance t ok => exact h.advance hspares hstep
  | work i ok =>
    obtain ⟨w, hw, hstep⟩ := Option.bind_eq_some_iff.1 hstep
    obtain ⟨w', hrun, hstep⟩ := Option.bind_eq_some_iff.1 hstep
    obtain rfl := Option.some.inj hstep
    have hfewer := fewer_work hw hrun
    exact ⟨hexcl, fun u => hfewer.holds (h.holds u), fun hr => hfewer.bare (h.bare hr), h.submits⟩
  | dispatch i =>
    obtain ⟨w, hw, hstep⟩ := Option.bind_eq_some_iff.1 hstep
    split_ifs at hstep with hphase
    obtain rfl := Option.some.inj hstep
    have hfewer : Fewer s { s with
        submits := s.submits ++ (w.threadPool.bind (s.pools[·]?)).toList } :=
      Aside.fewer ⟨rfl, rfl, rfl⟩
    refine ⟨hexcl, fun u => hfewer.holds (h.holds u), fun hr => hfewer.bare (h.bare hr), ?_⟩
    intro status hmem
    rcases List.mem_append.1 hmem with hmem | hmem
    · exact h.submits status hmem
    · obtain ⟨p, hp, hstatus⟩ := Option.bind_eq_some_iff.1 (Option.mem_toList.1 hmem)
      have hdisp : w.canDispatch = true := by
        unfold LoopThread.canDispatch
        rcases hphase with hphase | hphase <;> rw [hphase]
      obtain ⟨status', hstatus', halive⟩ :=
        h.poolsAlive w (List.mem_of_getElem? hw) hdisp p hp
      obtain rfl := Option.some.inj (hstatus'.symm.trans hstatus)
      exact halive

theorem managed_init : ({} : RpcServer).Managed := by
  refine ⟨⟨?_, ?_, ?_, ?_, ?_⟩, fun _ => trivial, fun _ => ⟨rfl, rfl⟩, nofun⟩
  all_goals nofun

/-- **The pool outlives the workers exactly if it is not joined before them.**  In
every run of any number of calls of `Start` and `Stop`: each worker that can still
come to `DispatchRequestToThreadPool` finds its pool neither joined nor destroyed,
and so did every call of `Submit`, if and only if, whenever a shutdown joins the
pool, no worker can dispatch any more. -/
theorem pool_outlives_workers_iff (cfg : ServerConfig) (es : List Event) :
    (∀ pre post s, es = pre ++ post → exec (step cfg) {} pre = some s →
      s.PoolsAlive ∧ ∀ status ∈ s.submits, status.isAlive = true) ↔
    Along (step cfg) SparesPool {} es := by
  refine safe_iff_along (I := Managed)
    (S := fun s => s.PoolsAlive ∧ ∀ status ∈ s.submits, status.isAlive = true) ?_ ?_ ?_ ?_
  · exact fun s e s' h hspares hstep => h.step hspares hstep
  · exact fun s h => ⟨h.poolsAlive, h.submits⟩
  · intro s e h hbreak
    cases e with
    | advance t ok =>
      obtain ⟨path, hbreak⟩ := not_forall.1 hbreak
      obtain ⟨hcaller, hbreak⟩ := Classical.not_imp.1 hbreak
      obtain ⟨w, hbreak⟩ := not_forall.1 hbreak
      obtain ⟨hw, hdisp⟩ := Classical.not_imp.1 hbreak
      have hholds := h.holds t
      rw [hcaller] at hholds
      -- `Stop` on a server that does not run has no worker to spare
      have hat : s.HoldsAt .joinPool := by
        cases path with
        | failed => exact hholds
        | tail => exact hholds
        | fallback =>
          rw [hholds.1] at hw
          cases hw
      obtain ⟨p, hp, hstop, hall⟩ := hat
      refine ⟨(s.setPool p .joined).goto t (.shutdown path .resetPool), ?_, fun hsafe => ?_⟩
      · change s.advance cfg t ok = _
        rw [RpcServer.advance, hcaller]
        simp only [RpcServer.shutdownStep, hp, Option.map_some]
      · obtain ⟨hlt, -⟩ := List.getElem?_eq_some_iff.1 hstop
        obtain ⟨status, hstatus, halive⟩ := hsafe.1 w hw (by simpa using hdisp) p (hall w hw)
        have hjoined : (s.pools.set p .joined)[p]? = some .joined := List.getElem?_set_self hlt
        obtain rfl := Option.some.inj (hjoined.symm.trans hstatus)
        cases halive
    | _ => exact absurd trivial hbreak
  · exact managed_init

/-- A server with two workers is stopped while one of them is in `PollOnce`: the pool
is destroyed, and then the worker submits a request to it. -/
theorem pool_destroyed_first :
    ∃ s, exec (step {}) {} [.start 0, .advance 0 true, .advance 0 true, .advance 0 true,
      .advance 0 true, .advance 0 true, .advance 0 true, .advance 0 true, .advance 0 true,
      .work 0 true, .stop 1, .advance 1 true, .advance 1 true, .advance 0 true, .advance 0 true,
      .advance 0 true, .advance 0 true, .advance 0 true, .advance 0 true, .dispatch 0] = some s ∧
      s.submits = [.destroyed] ∧ ¬ s.PoolsAlive := by
  refine ⟨_, rfl, rfl, fun halive => ?_⟩
  obtain ⟨status, hstatus, hs⟩ := halive ⟨some 0, false, .polling⟩
    (List.mem_of_getElem? (i := 0) rfl) rfl 0 rfl
  obtain rfl : PoolStatus.destroyed = status := Option.some.inj hstatus
  cases hs

end RpcServer
end Server
end MiniRpc
