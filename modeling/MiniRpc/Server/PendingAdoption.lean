/-
# A connection that cannot be taken over

`DrainPendingConnections` of `src/server/worker_loop.cpp` swaps the queue of
connections that the acceptor handed over into a local one and takes them over in
turn; `epoll_ctl` may refuse to register one.  The function then returns false,
with the rest of its queue, `PollOnce` returns false, and `Run` leaves its loop and
closes every connection of the worker.  Where `epoll_ctl` refuses to change a
registration, in `UpdateEpollInterest`, that connection is closed and the poll goes
on.

`Tolerates` is a poll that goes on after it dropped the refused connections;
`tolerates_iff` says that this is a poll in which none is refused, and
`runRound_refused` what becomes of the worker in the others.  `runRound` and
`stopPhase` are `Run`, without `stop_requested_` and the flags that only other
threads read.
-/

import MiniRpc.Server.OwnedLoop
import MiniRpc.Server.TaskFrames

namespace MiniRpc
namespace Server

open Transition

/-- Go on whatever a function returned. -/
def Ended.regardless (r : Ended) (f : WorkerLoop → Ended) : Ended :=
  match r with
  | .ok w => f w
  | .failed w _ => f w
  | .blocked => .blocked

theorem Ended.regardless_ok {P Q : WorkerLoop → Prop} {r : Ended} {f : WorkerLoop → Ended}
    (hr : r.returns = true) (hk : r.Keeps P) (hf : ∀ w, P w → ∃ u, f w = .ok u ∧ Q u) :
    ∃ u, r.regardless f = .ok u ∧ Q u := by
  cases r with
  | ok w => exact hf w hk
  | failed w e => exact hf w hk
  | blocked => cases hr

namespace WorkerLoop

/-- Close the connections in turn. -/
def closeEach (env : LoopEnv) : WorkerLoop → List ℤ → Ended
  | w, [] => .ok w
  | w, fd :: fds => (w.closeConnection env fd).andThen fun w => closeEach env w fds

/-- `CloseAllConnections`. -/
def closeAllConnections (env : LoopEnv) (w : WorkerLoop) : Ended :=
  closeEach env w w.connections.keys

/-- The end of `Run`, after its loop. -/
def stopPhase (env : LoopEnv) (w : WorkerLoop) : Ended :=
  match w.drainWakeFd with
  | .ok w =>
    ((w.drainPendingConnections env).regardless fun w => w.drainCompletedResponses env).regardless
      fun w => w.closeAllConnections env
  | .failed w _ => w.closeAllConnections env
  | .blocked => .blocked

/-- How a round of the loop of `Run` ends. -/
inductive Round where
  /-- `Run` polls again. -/
  | again (w : WorkerLoop)
  /-- `Run` left the loop. -/
  | stopped (r : Ended)

/-- A round of the loop of `Run`, on the owner thread and with no stop requested. -/
def runRound (env : LoopEnv) (w : WorkerLoop) (wait : Wait) (now : Time) : Round :=
  match w.pollOnce env true wait now with
  | .ok w => .again w
  | .failed w _ => .stopped (w.stopPhase env)
  | .blocked => .stopped .blocked

/-- Every connection of the queue can be taken over: `epoll_ctl` refuses none, and
no descriptor is there twice. -/
def Admits (w : WorkerLoop) (ps : List PendingConnection) : Prop :=
  (∀ answer ∈ w.epollCtl.take ps.length, answer = none) ∧ (ps.map (·.fd)).Nodup ∧
    ∀ p ∈ ps, w.connections.lookup p.fd = none

instance (w : WorkerLoop) (ps : List PendingConnection) : Decidable (w.Admits ps) :=
  inferInstanceAs (Decidable (_ ∧ _ ∧ _))

/-- Take the connections over in turn and drop those that are refused. -/
def adoptOthers (env : LoopEnv) : WorkerLoop → List PendingConnection → WorkerLoop
  | w, [] => w
  | w, p :: ps =>
    match w.addConnectionOnOwnerThread env p with
    | .ok w => adoptOthers env w ps
    | .failed w _ => adoptOthers env w ps
    | .blocked => w

/-- A poll that comes to the queue with `v` drops the refused connections only, and
`Run` polls again; the connections that it had before and that have neither an event
nor a response are only ticked. -/
structure Tolerates (env : LoopEnv) (w v : WorkerLoop) (events : List ReadyEvent) (now : Time) :
    Prop where
  drained : v.drainPendingConnections env =
    .ok (adoptOthers env { v with pendingConnections := [] } v.pendingConnections)
  again : ∃ w', w.runRound env (.ready events) now = .again w' ∧
    ∀ fd state, w.connections.lookup fd = some state → (∀ e ∈ events, e.fd ≠ fd) →
      (∀ rs ∈ w.completed, ∀ r ∈ rs, r.fd ≠ fd) →
      w'.connections.lookup fd =
        some { state with connection := state.connection.tick now }

variable {w v : WorkerLoop} {env : LoopEnv}

/-! ### When the queue is taken over -/

theorem admits_cons (w' : WorkerLoop) {p : PendingConnection} {ps : List PendingConnection}
    {state : ConnectionState} (hw' : w'.epollCtl = w.epollCtl.tail)
    (hconn : w'.connections = w.connections.insert p.fd state) :
    w.Admits (p :: ps) ↔
      w.epollCtl.headD none = none ∧ w.connections.lookup p.fd = none ∧ w'.Admits ps := by
  have hctl : (∀ answer ∈ w.epollCtl.take (p :: ps).length, answer = none) ↔
      w.epollCtl.headD none = none ∧ ∀ answer ∈ w.epollCtl.tail.take ps.length, answer = none := by
    cases w.epollCtl <;> simp
  have hinsert : (∀ q ∈ ps, (w.connections.insert p.fd state).lookup q.fd = none) ↔
      p.fd ∉ ps.map (·.fd) ∧ ∀ q ∈ ps, w.connections.lookup q.fd = none := by
    constructor
    · intro h
      have hne : ∀ q ∈ ps, q.fd ≠ p.fd := by
        intro q hq heq
        have := h q hq
        rw [heq, AList.lookup_insert] at this
        cases this
      refine ⟨?_, fun q hq => ?_⟩
      · rw [List.mem_map]
        rintro ⟨q, hq, heq⟩
        exact hne q hq heq
      · rw [← AList.lookup_insert_ne (hne q hq)]
        exact h q hq
    · rintro ⟨hnot, hall⟩ q hq
      have hne : q.fd ≠ p.fd := fun heq => hnot (List.mem_map.2 ⟨q, hq, heq⟩)
      rw [AList.lookup_insert_ne hne]
      exact hall q hq
  unfold Admits
  rw [hw', hconn, hctl, hinsert, List.map_cons, List.nodup_cons, List.forall_mem_cons]
  tauto

theorem succeeds_add_iff (env : LoopEnv) (hinit : w.initialized = true) (p : PendingConnection) :
    (w.addConnectionOnOwnerThread env p).succeeds = true ↔
      w.epollCtl.headD none = none ∧ w.connections.lookup p.fd = none := by
  unfold addConnectionOnOwnerThread control
  rw [if_neg (by simp [hinit])]
  cases w.epollCtl.headD none with
  | some what => simp [Ended.succeeds]
  | none =>
    dsimp only
    split_ifs with hdup
    · simp [Ended.succeeds, Option.isSome_iff_ne_none.1 hdup]
    · simp [Ended.succeeds, Option.not_isSome_iff_eq_none.1 hdup]

/-- **The queue is taken over if none is refused**, and only then. -/
theorem succeeds_adopt_iff (hinit : w.initialized = true) (ps : List PendingConnection) :
    (adopt env w ps).succeeds = true ↔ w.Admits ps := by
  induction ps generalizing w with
  | nil => simp [adopt, Ended.succeeds, Admits]
  | cons p ps ih =>
    rw [adopt]
    rcases addConnectionOnOwnerThread_cases env w p with
      ⟨w', c, heq, -, hctl, hl, hw'⟩ | ⟨w', e, heq, -⟩
    · have hinit' : w'.initialized = true := by rw [hw', hinit]
      rw [heq, admits_cons w' (by rw [hw']) (by rw [hw'])]
      refine (ih hinit').trans ?_
      exact ⟨fun h => ⟨hctl, hl, h⟩, fun h => h.2.2⟩
    · have hadd := succeeds_add_iff env hinit p
      rw [heq] at hadd ⊢
      constructor
      · intro h
        cases h
      · intro h
        obtain ⟨hctl, hl, -⟩ := (admits_cons { w with
          epollCtl := w.epollCtl.tail
          connections := w.connections.insert p.fd ⟨{}, 0, false⟩ } rfl rfl).1 h
        cases hadd.2 ⟨hctl, hl⟩

theorem adoptOthers_of_ok {ps : List PendingConnection} (h : adopt env w ps = .ok v) :
    adoptOthers env w ps = v := by
  induction ps generalizing w with
  | nil => exact Ended.ok.inj h
  | cons p ps ih =>
    obtain ⟨w', hadd, hrest⟩ := Ended.andThen_eq_ok.1 h
    rw [adoptOthers, hadd]
    exact ih hrest

/-! ### The other connections of a poll that goes on -/

/-- What a run of adoptions leaves. -/
theorem adopt_ok {ps : List PendingConnection} (h : adopt env w ps = .ok v) :
    v.completed = w.completed ∧
      ∀ fd state, w.connections.lookup fd = some state → v.connections.lookup fd = some state := by
  induction ps generalizing w with
  | nil =>
    obtain rfl := Ended.ok.inj h
    exact ⟨rfl, fun _ _ hl => hl⟩
  | cons p ps ih =>
    obtain ⟨w', hadd, hrest⟩ := Ended.andThen_eq_ok.1 h
    obtain ⟨hcompleted, hkeeps⟩ := ih hrest
    rcases addConnectionOnOwnerThread_cases env w p with
      ⟨w'', c, heq, -, -, hfree, hw'⟩ | ⟨w'', e, heq, -⟩
    · obtain rfl := Ended.ok.inj (heq.symm.trans hadd)
      rw [hw'] at hcompleted
      refine ⟨hcompleted, fun fd state hl => hkeeps fd state ?_⟩
      have hne : fd ≠ p.fd := by
        rintro rfl
        rw [hfree] at hl
        cases hl
      rw [hw', AList.lookup_insert_ne hne]
      exact hl
    · rw [heq] at hadd
      cases hadd

theorem deliver_ok {r : CompletedResponse} (h : w.deliver env r = .ok v) : OnlyAt r.fd w v := by
  rcases deliver_cases env w r with ⟨state, c, -, hl, -, heq⟩ | ⟨-, heq, -⟩ | ⟨-, heq, -⟩
  · exact (onlyAt_insert w r.fd _).trans (updateEpollInterest_ok (heq.symm.trans h)).1
  · exact (closeConnection_ok (heq.symm.trans h)).1
  · obtain rfl := Ended.ok.inj (heq.symm.trans h)
    exact .refl _ _

theorem deliverAll_ok {rs : List CompletedResponse} (h : deliverAll env w rs = .ok v) {fd : ℤ}
    (hfd : ∀ r ∈ rs, r.fd ≠ fd) : v.connections.lookup fd = w.connections.lookup fd := by
  induction rs generalizing w with
  | nil =>
    obtain rfl := Ended.ok.inj h
    rfl
  | cons r rs ih =>
    obtain ⟨w', hdeliver, hrest⟩ := Ended.andThen_eq_ok.1 h
    rw [ih hrest fun r hr => hfd r (List.mem_cons_of_mem _ hr)]
    exact (deliver_ok hdeliver).others fd (hfd r List.mem_cons_self).symm

theorem drainCompletedResponses_ok (h : w.drainCompletedResponses env = .ok v) {fd : ℤ}
    (hfd : ∀ rs ∈ w.completed, ∀ r ∈ rs, r.fd ≠ fd) :
    v.connections.lookup fd = w.connections.lookup fd := by
  unfold drainCompletedResponses at h
  split at h
  · obtain rfl := Ended.ok.inj h
    rfl
  · rename_i rs hrs
    exact deliverAll_ok h (hfd rs hrs)

/-- The rest of a poll that took its queue over. -/
theorem again_of_admits (env : LoopEnv) (hw : v.Holds) (hcompleted : v.completed = w.completed)
    (hkept : ∀ fd state, w.connections.lookup fd = some state →
      v.connections.lookup fd = some state) (events : List ReadyEvent) (now : Time) :
    ∃ w', ((v.drainCompletedResponses env).andThen fun u =>
        (u.tickAll now).handleEvents env events) = .ok w' ∧
      ∀ fd state, w.connections.lookup fd = some state → (∀ e ∈ events, e.fd ≠ fd) →
        (∀ rs ∈ w.completed, ∀ r ∈ rs, r.fd ≠ fd) →
        w'.connections.lookup fd =
          some { state with connection := state.connection.tick now } := by
  obtain ⟨u, hu⟩ := Ended.succeeds_iff.1 (succeeds_drainCompletedResponses env hw)
  have huHolds := held_invariant.keeps_drainCompletedResponses env hw
  rw [hu] at huHolds
  obtain ⟨w', hw'⟩ := Ended.succeeds_iff.1
    (succeeds_handleEvents env events (held_invariant.everywhere_tickAll huHolds now))
  refine ⟨w', by rw [hu]; exact hw', fun fd state hl hevents hresponses => ?_⟩
  have hnot : ¬ (u.tickAll now).Handled events fd := by
    rintro ⟨-, e, he, hfd⟩
    exact hevents e he hfd
  rw [(handleEvents_ok hw').1 fd hnot, tickAll, Table.lookup_mapVals,
    drainCompletedResponses_ok hu (hcompleted ▸ hresponses), hkept fd state hl]
  rfl

/-! ### The end of the worker -/

/-- `CloseConnection` one after the other. -/
theorem closeEach_ok (env : LoopEnv) (fds : List ℤ) (hw : w.Holds) :
    ∃ u, closeEach env w fds = .ok u ∧
      ∀ fd, fd ∈ fds ∨ w.connections.lookup fd = none → u.connections.lookup fd = none := by
  induction fds generalizing w with
  | nil => exact ⟨w, rfl, fun fd hfd => hfd.resolve_left List.not_mem_nil⟩
  | cons fd fds ih =>
    obtain ⟨w', hclose⟩ := Ended.succeeds_iff.1 (succeeds_closeConnection env (hw fd))
    have hw' := keeps_closeConnection (J := fun state => state.connection.Held) env
      ⟨fun fd' state _ hl => hw fd' state hl, hw fd⟩
    rw [hclose] at hw'
    obtain ⟨honly, hnone⟩ := closeConnection_ok hclose
    obtain ⟨u, hu, hgone⟩ := ih hw'
    refine ⟨u, by rw [closeEach, hclose]; exact hu, fun fd' hfd' => hgone fd' ?_⟩
    by_cases heq : fd' = fd
    · exact Or.inr (heq ▸ hnone)
    · rw [List.mem_cons] at hfd'
      rw [honly.others fd' heq]
      exact hfd'.imp_left fun hmem => hmem.resolve_left heq

/-- **`CloseAllConnections` leaves no connection.** -/
theorem closeAllConnections_ok (env : LoopEnv) (hw : w.Holds) :
    ∃ u, w.closeAllConnections env = .ok u ∧ ∀ fd, u.connections.lookup fd = none := by
  obtain ⟨u, hu, hgone⟩ := closeEach_ok env w.connections.keys hw
  refine ⟨u, hu, fun fd => hgone fd ?_⟩
  cases hl : w.connections.lookup fd with
  | none => exact Or.inr rfl
  | some state => exact Or.inl ((Table.mem_keys_iff _ _).2 ⟨state, hl⟩)

/-- **The end of `Run` leaves no connection.** -/
theorem stopPhase_ok (env : LoopEnv) (hw : w.Holds) :
    ∃ u, w.stopPhase env = .ok u ∧ ∀ fd, u.connections.lookup fd = none := by
  have hreturns := returns_drainWakeFd (w := w)
  have hkeeps := keeps_drainWakeFd hw
  unfold stopPhase
  cases hv : w.drainWakeFd with
  | blocked =>
    rw [hv] at hreturns
    cases hreturns
  | failed v e =>
    rw [hv] at hkeeps
    exact closeAllConnections_ok env hkeeps
  | ok v =>
    rw [hv] at hkeeps
    obtain ⟨u, hu, huHolds⟩ := Ended.regardless_ok (Q := Holds)
      (returns_drainPendingConnections env hkeeps)
      (held_invariant.keeps_drainPendingConnections env hkeeps) fun v' hv' => by
        obtain ⟨u, hu⟩ := Ended.succeeds_iff.1 (succeeds_drainCompletedResponses env hv')
        have hkept := held_invariant.keeps_drainCompletedResponses env hv'
        rw [hu] at hkept
        exact ⟨u, hu, hkept⟩
    dsimp only
    rw [hu]
    exact closeAllConnections_ok env huHolds

/-! ### A poll that comes to the queue -/

/-- What a poll does with an event of the wake-up descriptor. -/
theorem pollOnce_woken (env : LoopEnv) (hinit : w.initialized = true) {events : List ReadyEvent}
    (hwake : ∃ e ∈ events, e.fd = w.wakeFd) (hv : w.drainWakeFd = .ok v) (now : Time) :
    w.pollOnce env true (.ready events) now =
      (v.drainPendingConnections env).andThen fun u =>
        (u.drainCompletedResponses env).andThen fun u =>
          (u.tickAll now).handleEvents env events := by
  have hany : (events.any fun e => e.fd = w.wakeFd) = true := by
    obtain ⟨e, he, hfd⟩ := hwake
    exact List.any_eq_true.2 ⟨e, he, decide_eq_true hfd⟩
  have hpoll : w.pollOnce env true (.ready events) now =
      (w.drains env events).andThen fun u => (u.tickAll now).handleEvents env events := by
    unfold pollOnce
    rw [if_neg (by simp), if_neg (by simp [hinit])]
  rw [hpoll, drains, if_pos hany, hv]
  dsimp only [Ended.andThen]
  cases v.drainPendingConnections env <;> rfl

/-- The queue that a woken poll takes over is the one of the worker. -/
theorem drained_iff (env : LoopEnv) (hinit : w.initialized = true) (hv : w.drainWakeFd = .ok v) :
    v.completed = w.completed ∧ v.connections = w.connections ∧
      ((v.drainPendingConnections env).succeeds = true ↔ w.Admits w.pendingConnections) := by
  have hkeeps := drainWakeFd_keeps w
  rw [hv] at hkeeps
  obtain ⟨rest, rfl⟩ := hkeeps
  refine ⟨rfl, rfl, ?_⟩
  exact succeeds_adopt_iff (w := { w with wakeReads := rest, pendingConnections := [] }) hinit
    w.pendingConnections

/-- **One refused connection ends the worker.**  `Run` leaves its loop, and every
connection is closed. -/
theorem runRound_refused (env : LoopEnv) (hw : w.Holds) (hinit : w.initialized = true)
    {events : List ReadyEvent} (hwake : ∃ e ∈ events, e.fd = w.wakeFd)
    (hv : w.drainWakeFd = .ok v) (hrefused : ¬ w.Admits w.pendingConnections) (now : Time) :
    ∃ u, w.runRound env (.ready events) now = .stopped (.ok u) ∧
      ∀ fd, u.connections.lookup fd = none := by
  obtain ⟨-, -, hdrained⟩ := drained_iff env hinit hv
  have hvHolds := keeps_drainWakeFd hw
  rw [hv] at hvHolds
  have hreturns := returns_drainPendingConnections env hvHolds
  have hkeeps := held_invariant.keeps_drainPendingConnections env hvHolds
  cases hd : v.drainPendingConnections env with
  | ok u => exact absurd (hdrained.1 (by rw [hd]; rfl)) hrefused
  | blocked =>
    rw [hd] at hreturns
    cases hreturns
  | failed u e =>
    rw [hd] at hkeeps
    have hpoll := pollOnce_woken env hinit hwake hv now
    rw [hd] at hpoll
    obtain ⟨u', hu', hgone⟩ := stopPhase_ok env hkeeps
    refine ⟨u', ?_, hgone⟩
    rw [runRound, hpoll]
    exact congrArg Round.stopped hu'

/-- **When a worker survives its queue.**  A poll that comes to the queue drops the
connections that are refused, takes over the others and leaves the rest of the worker
alone, if and only if none is refused. -/
theorem tolerates_iff {w₀ : WorkerLoop} (h₀ : w₀.connections = ∅) {es : List Event}
    (hrun : exec loopStep w₀ es = some w) (hinit : w.initialized = true)
    {events : List ReadyEvent} (hwake : ∃ e ∈ events, e.fd = w.wakeFd)
    (hv : w.drainWakeFd = .ok v) (now : Time) :
    Tolerates env w v events now ↔ w.Admits w.pendingConnections := by
  obtain ⟨hcompleted, hconnections, hdrained⟩ := drained_iff env hinit hv
  constructor
  · intro h
    exact hdrained.1 (by rw [h.drained]; rfl)
  · intro hadmits
    obtain ⟨u, hu⟩ := Ended.succeeds_iff.1 (hdrained.2 hadmits)
    obtain ⟨hucompleted, hkept⟩ := adopt_ok hu
    have huHolds := (keeps_drainWakeFd (holds_of_exec h₀ hrun))
    rw [hv] at huHolds
    have huHolds := held_invariant.keeps_drainPendingConnections env huHolds
    rw [hu] at huHolds
    obtain ⟨w', hw', hrest⟩ := again_of_admits env (w := w) huHolds
      (hucompleted.trans hcompleted)
      (fun fd state hl => hkept fd state (by rw [← hl]; exact congrArg _ hconnections)) events now
    refine ⟨?_, w', ?_, hrest⟩
    · rw [hu, adoptOthers_of_ok hu]
    · have hpoll := pollOnce_woken env hinit hwake hv now
      rw [hu] at hpoll
      rw [runRound, hpoll.trans hw']

/-- The event of the wake-up descriptor. -/
def woken : ReadyEvent := { fd := 3, readable := true }

/-- A worker with one connection to take over; the second registration will be
refused. -/
def crowded : WorkerLoop where
  wakeFd := 3
  pendingConnections := [{ fd := 7 }]
  epollCtl := [none, some "No space left on device"]

/-- The first registration is not refused. -/
theorem tolerates_iff_crowded : Tolerates idleEnv crowded crowded [woken] 0 :=
  (tolerates_iff (rfl : crowded.connections = ∅) (rfl : exec loopStep crowded [] = some crowded) rfl
    ⟨woken, List.mem_singleton_self _, rfl⟩ (drainWakeFd_of_nil rfl) 0).2 (by decide)

/-- **The second one ends the worker**: the connection behind it in the queue is
dropped with it, and the one that was served before is closed. -/
theorem crowded_ends :
    ∃ w v u, exec loopStep crowded
        [.poll idleEnv true (.ready [woken]) 0, .enqueue { fd := 8 }, .enqueue { fd := 9 }] =
          some w ∧
      (w.connections.lookup 7).isSome = true ∧ w.drainWakeFd = .ok v ∧
      ¬ Tolerates idleEnv w v [woken] 5 ∧
      w.runRound idleEnv (.ready [woken]) 5 = .stopped (.ok u) ∧
      ∀ fd, u.connections.lookup fd = none := by
  have hpoll := pollOnce_woken idleEnv (w := crowded) rfl
    ⟨woken, List.mem_singleton_self _, rfl⟩ (drainWakeFd_of_nil rfl) 0
  obtain ⟨w, hexec, hinit, hwake, hreads, hpending, hctl, hserved⟩ : ∃ w, exec loopStep crowded
      [.poll idleEnv true (.ready [woken]) 0, .enqueue { fd := 8 }, .enqueue { fd := 9 }] =
        some w ∧ w.initialized = true ∧ w.wakeFd = 3 ∧ w.wakeReads = [] ∧
      w.pendingConnections = [{ fd := 8 }, { fd := 9 }] ∧
      w.epollCtl = [some "No space left on device"] ∧
      (w.connections.lookup 7).isSome = true := by
    rw [exec_cons, loopStep, hpoll]
    exact ⟨_, rfl, rfl, rfl, rfl, rfl, rfl, rfl⟩
  have hv := drainWakeFd_of_nil hreads
  have hrefused : ¬ w.Admits w.pendingConnections := by
    rintro ⟨hanswers, -⟩
    rw [hctl, hpending] at hanswers
    simp at hanswers
  obtain ⟨u, hround, hgone⟩ := runRound_refused idleEnv (holds_of_exec rfl hexec) hinit
    ⟨woken, List.mem_singleton_self _, hwake.symm⟩ hv hrefused 5
  refine ⟨w, w, u, hexec, hserved, hv, fun h => hrefused ?_, hround, hgone⟩
  exact (drained_iff idleEnv hinit hv).2.2.1 (by rw [h.drained]; rfl)

end WorkerLoop
end Server
end MiniRpc
