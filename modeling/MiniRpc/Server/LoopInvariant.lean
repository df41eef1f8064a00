/-
# Invariants of the connections of a worker

The functions of the event loop (`MiniRpc.Server.WorkerLoop`) change a connection
by a few calls: it is notified, marked, ticked, given a response, and at last its
registration is updated or it is closed.  A property of connections that these
calls keep holds of every connection in the table, however the polls of the
worker end: `LoopInvariant` lists the calls, and `LoopInvariant.keeps_pollOnce`
and `LoopInvariant.loopStep` are the rules.

While an event is handled its connection may be off the invariant `I` in what the
registration will settle; `J` is what holds of it then.
-/

import MiniRpc.Server.Requests
import MiniRpc.Server.WorkerLoop

namespace MiniRpc
namespace Server

/-- `P` holds of the loop a function leaves, whether it succeeded or not. -/
def Ended.Keeps (P : WorkerLoop → Prop) : Ended → Prop
  | .ok w => P w
  | .failed w _ => P w
  | .blocked => True

theorem Ended.Keeps.andThen {P : WorkerLoop → Prop} {r : Ended} {f : WorkerLoop → Ended}
    (h : r.Keeps P) (hf : ∀ w, P w → (f w).Keeps P) : (r.andThen f).Keeps P := by
  cases r with
  | ok w => exact hf w h
  | failed w e => exact h
  | blocked => trivial

/-- What happens to a worker: the acceptor hands it a connection, a task of the
pool hands it a response, or it polls. -/
inductive WorkerLoop.Event where
  | enqueue (p : PendingConnection)
  | complete (r : CompletedResponse)
  | poll (env : LoopEnv) (onOwnerThread : Bool) (wait : Wait) (now : Time)

/-- The loop after an event; a poll that does not return has none. -/
def WorkerLoop.loopStep (w : WorkerLoop) : WorkerLoop.Event → Option WorkerLoop
  | .enqueue p => some { w with pendingConnections := w.pendingConnections ++ [p] }
  | .complete r => some { w with completed := w.completed.map (· ++ [r]) }
  | .poll env onOwnerThread wait now =>
    match w.pollOnce env onOwnerThread wait now with
    | .ok w' => some w'
    | .failed w' _ => some w'
    | .blocked => none

/-- The calls of the loop keep `I` between events and `J` in the middle of one. -/
structure LoopInvariant (I J : ConnectionState → Prop) : Prop where
  start : ∀ env rc wc inbox outbox token,
    I ⟨Connection.startConnectionCoroutine env { Connection.new rc wc outbox with inbox },
      token, false⟩
  between : ∀ state, I state → J state
  tick : ∀ state now, I state → I { state with connection := state.connection.tick now }
  respond : ∀ env state response out, I state →
    enqueueResponse env state.connection.out response = (out, none) →
    J { state with connection := ({ state.connection with out }).notifyReadable env }
  notifyReadable : ∀ env state, J state →
    J { state with connection := state.connection.notifyReadable env }
  notifyWritable : ∀ env state, J state →
    J { state with connection := state.connection.notifyWritable env }
  markClosing : ∀ state, J state → J { state with connection := state.connection.markClosing }
  settle : ∀ state, J state →
    I { state with writeInterest := state.connection.out.hasPendingWrite }

namespace WorkerLoop

/-- Every connection of the table meets `I`. -/
def Everywhere (I : ConnectionState → Prop) (w : WorkerLoop) : Prop :=
  ∀ fd state, w.connections.lookup fd = some state → I state

/-- Every connection of the table meets `I` but for the one at `fd`, which meets
`J`. -/
structure EverywhereBut (I J : ConnectionState → Prop) (fd : ℤ) (w : WorkerLoop) : Prop where
  others : ∀ fd' state, fd' ≠ fd → w.connections.lookup fd' = some state → I state
  self : ∀ state, w.connections.lookup fd = some state → J state

variable {I J : ConnectionState → Prop} {w : WorkerLoop}

theorem Everywhere.insert (h : w.Everywhere I) (fd : ℤ) {state : ConnectionState} (hs : J state) :
    EverywhereBut I J fd { w with connections := w.connections.insert fd state } := by
  constructor
  · intro fd' state' hfd hl
    rw [AList.lookup_insert_ne hfd] at hl
    exact h fd' state' hl
  · intro state' hl
    rw [AList.lookup_insert] at hl
    exact Option.some.inj hl ▸ hs

/-- `CloseConnection` leaves the others. -/
theorem keeps_closeConnection (env : LoopEnv) {fd : ℤ} (h : EverywhereBut I J fd w) :
    (w.closeConnection env fd).Keeps (Everywhere I) := by
  cases hr : w.closeConnection env fd with
  | blocked => trivial
  | failed w' e =>
    unfold closeConnection at hr
    split at hr
    · cases hr
    · dsimp only at hr
      split_ifs at hr
  | ok w' =>
    obtain ⟨honly, hnone⟩ := closeConnection_ok hr
    intro fd' state hl
    by_cases hfd : fd' = fd
    · rw [hfd, hnone] at hl
      cases hl
    · rw [honly.others fd' hfd] at hl
      exact h.others fd' state hfd hl

theorem keeps_drainWakeFd (h : w.Everywhere I) : w.drainWakeFd.Keeps (Everywhere I) := by
  fun_induction drainWakeFd w with
  | case1 w rest hr ih => exact ih h
  | case2 w rest hr ih => exact ih h
  | case3 => exact h
  | case4 => exact h
  | case5 => exact h

end WorkerLoop

namespace LoopInvariant

open WorkerLoop

variable {I J : ConnectionState → Prop} {w : WorkerLoop}

/-- **`UpdateEpollInterest` settles the connection.** -/
theorem keeps_updateEpollInterest (L : LoopInvariant I J) (env : LoopEnv) {fd : ℤ}
    (h : EverywhereBut I J fd w) : (w.updateEpollInterest env fd).Keeps (Everywhere I) := by
  unfold updateEpollInterest WorkerLoop.control
  split
  · rename_i v heq
    obtain ⟨-, rfl⟩ := Prod.mk.inj heq
    exact keeps_closeConnection env ⟨h.others, h.self⟩
  · rename_i v heq
    obtain ⟨-, rfl⟩ := Prod.mk.inj heq
    intro fd' state hl
    dsimp only at hl
    rw [Table.lookup_update] at hl
    split_ifs at hl with hfd
    · obtain ⟨old, hold, rfl⟩ := Option.map_eq_some_iff.1 hl
      exact L.settle old (h.self old hold)
    · exact h.others fd' state hfd hl

theorem keeps_addConnectionOnOwnerThread (L : LoopInvariant I J) (env : LoopEnv)
    (h : w.Everywhere I) (p : PendingConnection) :
    (w.addConnectionOnOwnerThread env p).Keeps (Everywhere I) := by
  unfold addConnectionOnOwnerThread WorkerLoop.control
  split_ifs
  · exact h
  · split
    · rename_i v heq
      obtain ⟨-, rfl⟩ := Prod.mk.inj heq
      exact h
    · rename_i v heq
      obtain ⟨-, rfl⟩ := Prod.mk.inj heq
      dsimp only
      split_ifs
      · exact h
      · intro fd state hl
        dsimp only at hl
        by_cases hfd : fd = p.fd
        · rw [hfd, AList.lookup_insert] at hl
          obtain rfl := Option.some.inj hl
          exact L.start _ _ _ _ _ _
        · rw [AList.lookup_insert_ne hfd] at hl
          exact h fd state hl

theorem keeps_adopt (L : LoopInvariant I J) (env : LoopEnv) (ps : List PendingConnection)
    (h : w.Everywhere I) : (adopt env w ps).Keeps (Everywhere I) := by
  induction ps generalizing w with
  | nil => exact h
  | cons p ps ih =>
    exact (L.keeps_addConnectionOnOwnerThread env h p).andThen fun v hv => ih hv

theorem keeps_deliver (L : LoopInvariant I J) (env : LoopEnv) (h : w.Everywhere I)
    (r : CompletedResponse) : (w.deliver env r).Keeps (Everywhere I) := by
  unfold deliver
  cases hl : w.connections.lookup r.fd with
  | none => exact h
  | some state =>
    dsimp only
    split_ifs with htoken
    · exact h
    · have hstate := h r.fd state hl
      split
      · exact keeps_closeConnection (J := I) env ⟨fun fd' s _ hs => h fd' s hs, h r.fd⟩
      · rename_i out hq
        exact L.keeps_updateEpollInterest env (h.insert r.fd (L.respond _ state _ out hstate hq))

theorem keeps_deliverAll (L : LoopInvariant I J) (env : LoopEnv) (rs : List CompletedResponse)
    (h : w.Everywhere I) : (deliverAll env w rs).Keeps (Everywhere I) := by
  induction rs generalizing w with
  | nil => exact h
  | cons r rs ih => exact (L.keeps_deliver env h r).andThen fun v hv => ih hv

theorem keeps_drainPendingConnections (L : LoopInvariant I J) (env : LoopEnv)
    (h : w.Everywhere I) : (w.drainPendingConnections env).Keeps (Everywhere I) :=
  L.keeps_adopt env w.pendingConnections h

theorem keeps_drainCompletedResponses (L : LoopInvariant I J) (env : LoopEnv)
    (h : w.Everywhere I) : (w.drainCompletedResponses env).Keeps (Everywhere I) := by
  unfold drainCompletedResponses
  split
  · exact h
  · exact L.keeps_deliverAll env _ h

theorem keeps_drains (L : LoopInvariant I J) (env : LoopEnv) (events : List ReadyEvent)
    (h : w.Everywhere I) : (w.drains env events).Keeps (Everywhere I) := by
  unfold drains
  split_ifs
  · exact ((keeps_drainWakeFd h).andThen fun v hv => L.keeps_drainPendingConnections env hv).andThen
      fun v hv => L.keeps_drainCompletedResponses env hv
  · exact h

theorem everywhere_tickAll (L : LoopInvariant I J) (h : w.Everywhere I) (now : Time) :
    (w.tickAll now).Everywhere I := by
  intro fd state hl
  rw [tickAll, Table.lookup_mapVals] at hl
  obtain ⟨old, hold, rfl⟩ := Option.map_eq_some_iff.1 hl
  exact L.tick old now (h fd old hold)

/-- What `handleEvent` calls for an event. -/
theorem keeps_notifications (L : LoopInvariant I J) (cenv : Env) (e : ReadyEvent)
    {state : ConnectionState} (h : J state) :
    J { state with
      connection :=
        let c := state.connection
        let c := if e.readable then c.notifyReadable cenv else c
        let c := if e.writable then c.notifyWritable cenv else c
        if e.hangup then (c.markClosing.notifyReadable cenv).notifyWritable cenv else c } := by
  dsimp only
  have hread : J { state with connection :=
      (if e.readable then state.connection.notifyReadable cenv else state.connection) } := by
    split_ifs
    · exact L.notifyReadable cenv state h
    · exact h
  generalize (if e.readable then state.connection.notifyReadable cenv
    else state.connection) = c₁ at hread ⊢
  have hwrite : J { state with connection :=
      (if e.writable then c₁.notifyWritable cenv else c₁) } := by
    split_ifs
    · exact L.notifyWritable cenv _ hread
    · exact hread
  generalize (if e.writable then c₁.notifyWritable cenv else c₁) = c₂ at hwrite ⊢
  split_ifs
  · exact L.notifyWritable cenv _ (L.notifyReadable cenv _ (L.markClosing _ hwrite))
  · exact hwrite

/-- **One event** settles its connection or closes it. -/
theorem keeps_handleEvent (L : LoopInvariant I J) (env : LoopEnv) (h : w.Everywhere I)
    (e : ReadyEvent) : (w.handleEvent env e).Keeps (Everywhere I) := by
  unfold handleEvent
  by_cases hwake : e.fd = w.wakeFd
  · rw [if_pos hwake]
    exact h
  rw [if_neg hwake]
  cases hl : w.connections.lookup e.fd with
  | none => exact h
  | some state =>
    dsimp only
    generalize connectionEnv env w e.fd state.connectionToken = cenv
    have hnotified := L.keeps_notifications cenv e (L.between state (h e.fd state hl))
    generalize (if e.hangup then _ else _ : Connection) = c at hnotified ⊢
    have hinsert := h.insert e.fd hnotified
    split_ifs
    · exact keeps_closeConnection env hinsert
    · exact keeps_closeConnection env hinsert
    · exact L.keeps_updateEpollInterest env hinsert

theorem keeps_handleEvents (L : LoopInvariant I J) (env : LoopEnv) (events : List ReadyEvent)
    (h : w.Everywhere I) : (handleEvents env w events).Keeps (Everywhere I) := by
  induction events generalizing w with
  | nil => exact h
  | cons e es ih => exact (L.keeps_handleEvent env h e).andThen fun v hv => ih hv

/-- **A poll keeps an invariant of the connections**, whether it succeeds or
fails. -/
theorem keeps_pollOnce (L : LoopInvariant I J) (env : LoopEnv) (h : w.Everywhere I)
    (onOwnerThread : Bool) (wait : Wait) (now : Time) :
    (w.pollOnce env onOwnerThread wait now).Keeps (Everywhere I) := by
  unfold pollOnce
  split_ifs
  · exact h
  · exact h
  · cases wait with
    | interrupted => exact h
    | error what => exact h
    | ready events =>
      exact (L.keeps_drains env events h).andThen fun v hv =>
        L.keeps_handleEvents env events (L.everywhere_tickAll hv now)

/-- An event keeps it. -/
theorem loopStep (L : LoopInvariant I J) {w' : WorkerLoop} {e : WorkerLoop.Event}
    (h : w.Everywhere I) (hstep : WorkerLoop.loopStep w e = some w') : w'.Everywhere I := by
  cases e with
  | enqueue p =>
    obtain rfl := Option.some.inj hstep
    exact h
  | complete r =>
    obtain rfl := Option.some.inj hstep
    exact h
  | poll env onOwnerThread wait now =>
    have hpoll := L.keeps_pollOnce env h onOwnerThread wait now
    simp only [WorkerLoop.loopStep] at hstep
    cases hv : w.pollOnce env onOwnerThread wait now with
    | ok v =>
      rw [hv] at hpoll hstep
      obtain rfl := Option.some.inj hstep
      exact hpoll
    | failed v e =>
      rw [hv] at hpoll hstep
      obtain rfl := Option.some.inj hstep
      exact hpoll
    | blocked =>
      rw [hv] at hstep
      cases hstep

end LoopInvariant
end Server
end MiniRpc
