/-
# Closing connections that a poll leaves behind

A connection of a worker is marked for closing by `Tick`, by its events, and by its
coroutine when something resumes it; `PollOnce` closes it where it handles an event of
the connection, or where a response cannot be queued.  So it stays in the table, for
nobody to look at, if it has no event of its own in the batch and

* a deadline has passed, and `Tick` marks it, or
* one of its completed responses, which `DrainCompletedResponses` queued, resumes the
  coroutine that waits to read, and the coroutine closes (`MiniRpc.Server.Resumption`).

`Spares` says of the state before the poll that neither happens to a connection, and
`pollOnce_clean_iff` that these are the connections that are not left closing.
`drained` says what the drains of the poll make of one connection.
-/

import MiniRpc.Server.PendingAdoption
import MiniRpc.Server.Resumption

namespace MiniRpc
namespace Server

open Protocol Splitter Transition

namespace WorkerLoop

open Connection (respond Endures overdue)

/-- No connection of the table is marked for closing. -/
def Clean (w : WorkerLoop) : Prop :=
  ∀ fd state, w.connections.lookup fd = some state → state.connection.shouldClose = false

/-- What a connection that is taken over starts with. -/
def firstState (env : LoopEnv) (w : WorkerLoop) (token : ℕ) (p : PendingConnection) :
    ConnectionState where
  connection := ({ Connection.new p.readClock p.writeClock p.outbox with
    inbox := p.inbox }).startConnectionCoroutine (connectionEnv env w p.fd token)
  connectionToken := token

/-- The connections that are taken over, the first of them with this token. -/
def adoptions (env : LoopEnv) (w : WorkerLoop) :
    ℕ → List PendingConnection → List (ℤ × ConnectionState)
  | _, [] => []
  | token, p :: ps =>
    (p.fd, firstState env w token p) :: adoptions env w ((token + 1) % 2 ^ 64) ps

/-- The wake-up descriptor is ready. -/
def wakes (w : WorkerLoop) (events : List ReadyEvent) : Bool :=
  events.any fun e => e.fd = w.wakeFd

/-- A connection of the poll: one of the table, or one that the poll takes over. -/
def Entry (env : LoopEnv) (w : WorkerLoop) (events : List ReadyEvent) (fd : ℤ)
    (state : ConnectionState) : Prop :=
  w.connections.lookup fd = some state ∨ w.wakes events = true ∧
    (fd, state) ∈ adoptions env w w.nextConnectionToken w.pendingConnections

/-- The responses with this descriptor and token. -/
def ownOf (fd : ℤ) (token : ℕ) (rs : List CompletedResponse) : List CompletedResponse :=
  rs.filter fun r => r.fd = fd ∧ r.connectionToken = token

/-- The completed responses that the poll delivers to a connection. -/
def own (w : WorkerLoop) (events : List ReadyEvent) (fd : ℤ) (token : ℕ) :
    List CompletedResponse :=
  if w.wakes events then ownOf fd token (w.completed.getD []) else []

/-- Before the poll, nothing leaves the connection at `fd` closing: it has an event of
its own, or neither its completed responses nor its deadlines disturb it; if `epoll_wait`
was interrupted, it is not closing. -/
def Spares (env : LoopEnv) (w : WorkerLoop) (now : Time) : Wait → ℤ → Prop
  | .ready events, fd => w.Handled events fd ∨ ∀ state, w.Entry env events fd state →
      state.connection.undisturbed (connectionEnv env w fd state.connectionToken) now
        (w.own events fd state.connectionToken) = true
  | _, fd => ∀ state, w.connections.lookup fd = some state → state.connection.shouldClose = false

variable {env : LoopEnv} {w v : WorkerLoop}

/-! ### The connections that are taken over -/

/-- What a connection is built with depends on the loop only in whether there is a
queue. -/
theorem connectionEnv_congr (h : v.completed.isNone = w.completed.isNone) (fd : ℤ) (token : ℕ) :
    connectionEnv env v fd token = connectionEnv env w fd token := by
  have hdispatch : ∀ submit, v.dispatchRequestToThreadPool submit fd token =
      w.dispatchRequestToThreadPool submit fd token := by
    intro submit
    funext request
    simp only [dispatchRequestToThreadPool, h]
  simp only [connectionEnv, hdispatch]

theorem adoptions_congr (h : v.completed.isNone = w.completed.isNone) (token : ℕ)
    (ps : List PendingConnection) : adoptions env v token ps = adoptions env w token ps := by
  induction ps generalizing token with
  | nil => rfl
  | cons p ps ih => simp only [adoptions, firstState, ih, connectionEnv_congr h]

/-- What a loop has that `epoll_ctl` refuses nothing. -/
def Accepting (w : WorkerLoop) : Prop := ∀ answer ∈ w.epollCtl, answer = none

theorem Accepting.tail (h : w.Accepting) : ∀ answer ∈ w.epollCtl.tail, answer = none :=
  fun answer ha => h answer (List.mem_of_mem_tail ha)

theorem Accepting.headD (h : w.Accepting) : w.epollCtl.headD none = none := by
  cases hctl : w.epollCtl with
  | nil => rfl
  | cons answer answers => exact h answer (by rw [hctl]; exact List.mem_cons_self)

theorem addConnectionOnOwnerThread_ok {p : PendingConnection}
    (h : w.addConnectionOnOwnerThread env p = .ok v) :
    w.connections.lookup p.fd = none ∧ v = { w with
      epollCtl := w.epollCtl.tail
      nextConnectionToken := (w.nextConnectionToken + 1) % 2 ^ 64
      connections := w.connections.insert p.fd (firstState env w w.nextConnectionToken p) } := by
  unfold addConnectionOnOwnerThread control at h
  split_ifs at h
  cases hctl : w.epollCtl.headD none with
  | some what =>
    rw [hctl] at h
    cases h
  | none =>
    rw [hctl] at h
    dsimp only at h
    split_ifs at h with hdup
    obtain rfl := Ended.ok.inj h
    exact ⟨by simpa using hdup, rfl⟩

/-- **The table after the adoptions.** -/
theorem lookup_adopt {ps : List PendingConnection} (h : adopt env w ps = .ok v) :
    (v.completed = w.completed ∧ v.wakeFd = w.wakeFd ∧ (w.Accepting → v.Accepting)) ∧
      ∀ fd state, v.connections.lookup fd = some state ↔ w.connections.lookup fd = some state ∨
        (fd, state) ∈ adoptions env w w.nextConnectionToken ps := by
  induction ps generalizing w with
  | nil =>
    obtain rfl := Ended.ok.inj h
    exact ⟨⟨rfl, rfl, id⟩, fun _ _ => by simp [adoptions]⟩
  | cons p ps ih =>
    obtain ⟨u, hadd, hrest⟩ := Ended.andThen_eq_ok.1 h
    obtain ⟨hfree, hu⟩ := addConnectionOnOwnerThread_ok hadd
    obtain ⟨⟨hcompleted, hwake, haccepting⟩, hlookup⟩ := ih hrest
    have hcongr : adoptions env u u.nextConnectionToken ps =
        adoptions env w ((w.nextConnectionToken + 1) % 2 ^ 64) ps := by
      rw [adoptions_congr (w := w) (by rw [hu]), hu]
    subst hu
    refine ⟨⟨hcompleted, hwake, fun hw => haccepting hw.tail⟩, fun fd state => ?_⟩
    rw [hlookup, hcongr, adoptions, List.mem_cons, ← or_assoc]
    refine or_congr_left ?_
    dsimp only
    by_cases hfd : fd = p.fd
    · subst hfd
      simp [AList.lookup_insert, hfree, eq_comm]
    · simp [AList.lookup_insert_ne hfd, hfd]

/-! ### The completed responses -/

theorem respond_append (cenv : Env) (c : Connection) (rs rs' : List CompletedResponse) :
    respond cenv c (rs ++ rs') = (respond cenv c rs).bind fun c => respond cenv c rs' := by
  induction rs generalizing c with
  | nil => rfl
  | cons r rs ih =>
    rw [List.cons_append, respond, respond]
    split
    · rfl
    · exact ih _

/-- What a delivery does to a connection at `fd`: its own responses are queued, and it
is gone where one cannot be, or where its registration cannot be changed. -/
structure Responds (env : LoopEnv) (w v : WorkerLoop) (fd : ℤ) (rs : List CompletedResponse) :
    Prop where
  remains : ∀ state', v.connections.lookup fd = some state' →
    ∃ state, w.connections.lookup fd = some state ∧
      state'.connectionToken = state.connectionToken ∧
      respond (connectionEnv env w fd state.connectionToken) state.connection
        (ownOf fd state.connectionToken rs) = some state'.connection
  stays : w.Accepting → ∀ state c', w.connections.lookup fd = some state →
    respond (connectionEnv env w fd state.connectionToken) state.connection
      (ownOf fd state.connectionToken rs) = some c' →
    ∃ state', v.connections.lookup fd = some state' ∧ state'.connection = c'
  completed : v.completed = w.completed
  wakeFd : v.wakeFd = w.wakeFd
  accepting : w.Accepting → v.Accepting

theorem Responds.unchanged {fd : ℤ} {rs : List CompletedResponse} (hshrinks : Shrinks w v)
    (haccepting : w.Accepting → v.Accepting)
    (hlookup : v.connections.lookup fd = w.connections.lookup fd)
    (hown : ∀ state, w.connections.lookup fd = some state →
      ownOf fd state.connectionToken rs = []) : Responds env w v fd rs where
  remains := fun state' hl => by
    rw [hlookup] at hl
    exact ⟨state', hl, rfl, by rw [hown state' hl]; rfl⟩
  stays := fun _ state c' hl hc => by
    rw [hown state hl] at hc
    exact ⟨state, hlookup.trans hl, Option.some.inj hc⟩
  completed := hshrinks.completed
  wakeFd := hshrinks.wakeFd
  accepting := haccepting

/-- The own responses of a connection, first this one. -/
theorem ownOf_cons (fd : ℤ) (token : ℕ) (r : CompletedResponse) (rs : List CompletedResponse) :
    ownOf fd token (r :: rs) = ownOf fd token [r] ++ ownOf fd token rs := by
  rw [ownOf, ownOf, ownOf, ← List.filter_append, List.singleton_append]

theorem closeConnection_epollCtl {fd : ℤ} (h : w.closeConnection env fd = .ok v) :
    v.epollCtl = w.epollCtl := by
  unfold closeConnection at h
  split at h
  · obtain rfl := Ended.ok.inj h
    rfl
  · dsimp only at h
    split_ifs at h
    obtain rfl := Ended.ok.inj h
    rfl

/-- `UpdateEpollInterest` keeps the connection, or `epoll_ctl` refused and it is gone. -/
theorem updateEpollInterest_lookup {fd : ℤ} (h : w.updateEpollInterest env fd = .ok v) :
    v.epollCtl = w.epollCtl.tail ∧
      (w.epollCtl.headD none ≠ none ∧ v.connections.lookup fd = none ∨
        v.connections.lookup fd = (w.connections.lookup fd).map fun state =>
          { state with writeInterest := state.connection.out.hasPendingWrite }) := by
  unfold updateEpollInterest control at h
  split at h
  · rename_i u heq
    obtain ⟨hctl, rfl⟩ := Prod.mk.inj heq
    exact ⟨closeConnection_epollCtl h, Or.inl ⟨by rw [hctl]; exact Option.some_ne_none _,
      (closeConnection_ok h).2⟩⟩
  · rename_i u heq
    obtain ⟨-, rfl⟩ := Prod.mk.inj heq
    obtain rfl := Ended.ok.inj h
    exact ⟨rfl, Or.inr (Table.lookup_update_self ..)⟩

/-- What becomes of a connection with one response of its own. -/
theorem respond_singleton {r : CompletedResponse} {state : ConnectionState}
    (hl : w.connections.lookup r.fd = some state)
    (htoken : state.connectionToken = r.connectionToken) :
    respond (connectionEnv env w r.fd state.connectionToken) state.connection [r] =
      (w.delivery env r).map Prod.snd := by
  unfold delivery
  rw [hl]
  simp only [htoken, ne_eq, not_true_eq_false, if_false, respond]
  rcases enqueueResponse (connectionEnv env w r.fd r.connectionToken) state.connection.out
    r.response with ⟨out, _ | e⟩ <;> rfl

/-- **One response** is queued, and its connection notified. -/
theorem responds_deliver {r : CompletedResponse} (h : w.deliver env r = .ok v) (fd : ℤ) :
    Responds env w v fd [r] := by
  have hshrinks := shrinks_deliver env w r
  have hother := deliver_ok h
  rw [h] at hshrinks
  rcases deliver_cases env w r with
    ⟨state, c, hdelivery, hl, htoken, heq⟩ | ⟨hdelivery, heq, state, hl, htoken⟩ | ⟨-, heq, hnone⟩
  · have hupdate := updateEpollInterest_lookup (heq.symm.trans h)
    have haccepting : w.Accepting → v.Accepting := fun hw => by
      rw [Accepting, hupdate.1]
      exact hw.tail
    by_cases hfd : fd = r.fd
    · subst hfd
      have hown : ownOf r.fd state.connectionToken [r] = [r] := by simp [ownOf, htoken]
      have hrespond := @respond_singleton env w r state hl htoken
      rw [hdelivery, Option.map_some] at hrespond
      have hafter := hupdate.2
      dsimp only at hafter
      rw [AList.lookup_insert, Option.map_some] at hafter
      refine ⟨fun state' hl' => ?_, fun hw state' c' hl' hc => ?_, hshrinks.completed,
        hshrinks.wakeFd, haccepting⟩
      · rcases hafter with ⟨-, hgone⟩ | hkept
        · rw [hgone] at hl'
          cases hl'
        · obtain rfl := Option.some.inj (hkept.symm.trans hl')
          exact ⟨state, hl, rfl, by rw [hown]; exact hrespond⟩
      · obtain rfl := Option.some.inj (hl.symm.trans hl')
        rw [hown, hrespond] at hc
        obtain rfl := Option.some.inj hc
        rcases hafter with ⟨hrefused, -⟩ | hkept
        · exact absurd hw.headD hrefused
        · exact ⟨_, hkept, rfl⟩
    · refine .unchanged hshrinks haccepting (hother.others fd hfd) fun state' _ => ?_
      simp [ownOf, Ne.symm hfd]
  · have hclosed := closeConnection_ok (heq.symm.trans h)
    have haccepting : w.Accepting → v.Accepting := fun hw => by
      rwa [Accepting, closeConnection_epollCtl (heq.symm.trans h)]
    by_cases hfd : fd = r.fd
    · subst hfd
      have hown : ownOf r.fd state.connectionToken [r] = [r] := by simp [ownOf, htoken]
      refine ⟨fun state' hl' => ?_, fun _ state' c' hl' hc => ?_, hshrinks.completed,
        hshrinks.wakeFd, haccepting⟩
      · rw [hclosed.2] at hl'
        cases hl'
      · obtain rfl := Option.some.inj (hl.symm.trans hl')
        rw [hown, respond_singleton hl htoken, hdelivery] at hc
        cases hc
    · refine .unchanged hshrinks haccepting (hother.others fd hfd) fun state' _ => ?_
      simp [ownOf, Ne.symm hfd]
  · obtain rfl := Ended.ok.inj (heq.symm.trans h)
    refine .unchanged hshrinks id rfl fun state hl => ?_
    by_cases hfd : r.fd = fd
    · subst hfd
      simp [ownOf, Ne.symm (hnone state hl)]
    · simp [ownOf, hfd]

/-- **All responses** are queued in turn. -/
theorem responds_deliverAll {rs : List CompletedResponse} (h : deliverAll env w rs = .ok v)
    (fd : ℤ) : Responds env w v fd rs := by
  induction rs generalizing w with
  | nil =>
    obtain rfl := Ended.ok.inj h
    exact .unchanged (.refl _) id rfl fun _ _ => rfl
  | cons r rs ih =>
    obtain ⟨u, hu, hrest⟩ := Ended.andThen_eq_ok.1 h
    have hone := responds_deliver hu fd
    have hall := ih hrest
    have hcenv : ∀ token, connectionEnv env u fd token = connectionEnv env w fd token :=
      connectionEnv_congr (by rw [hone.completed]) fd
    refine ⟨fun state' hl' => ?_, fun hw state c' hl hc => ?_,
      hall.completed.trans hone.completed, hall.wakeFd.trans hone.wakeFd,
      fun hw => hall.accepting (hone.accepting hw)⟩
    · obtain ⟨state₁, hl₁, htoken₁, hrespond₁⟩ := hall.remains state' hl'
      obtain ⟨state, hl, htoken, hrespond⟩ := hone.remains state₁ hl₁
      refine ⟨state, hl, htoken₁.trans htoken, ?_⟩
      rw [ownOf_cons, respond_append, hrespond, Option.bind_some, ← hcenv, ← htoken]
      exact hrespond₁
    · rw [ownOf_cons, respond_append] at hc
      obtain ⟨c₁, hc₁, hc₂⟩ := Option.bind_eq_some_iff.1 hc
      obtain ⟨state₁, hl₁, rfl⟩ := hone.stays hw state c₁ hl hc₁
      obtain ⟨state₀, hl₀, htoken, -⟩ := hone.remains state₁ hl₁
      obtain rfl := Option.some.inj (hl.symm.trans hl₀)
      rw [← hcenv, ← htoken] at hc₂
      exact hall.stays (hone.accepting hw) state₁ c' hl₁ hc₂

/-- What the drains of a poll do to the connection at `fd`. -/
structure Drained (env : LoopEnv) (w v : WorkerLoop) (events : List ReadyEvent) (fd : ℤ) :
    Prop where
  wakeFd : v.wakeFd = w.wakeFd
  unique : ∀ state state', w.Entry env events fd state → w.Entry env events fd state' →
    state = state'
  remains : ∀ state', v.connections.lookup fd = some state' →
    ∃ state, w.Entry env events fd state ∧
      respond (connectionEnv env w fd state.connectionToken) state.connection
        (w.own events fd state.connectionToken) = some state'.connection
  stays : w.Accepting → ∀ state c', w.Entry env events fd state →
    respond (connectionEnv env w fd state.connectionToken) state.connection
      (w.own events fd state.connectionToken) = some c' →
    ∃ state', v.connections.lookup fd = some state' ∧ state'.connection = c'

/-- Without a wake-up nothing is drained. -/
theorem drained_of_not_wakes {events : List ReadyEvent} (hwakes : ¬ w.wakes events = true)
    (fd : ℤ) : Drained env w w events fd := by
  have hentry : ∀ state, w.Entry env events fd state ↔ w.connections.lookup fd = some state := by
    intro state
    simp [Entry, hwakes]
  have hown : ∀ token, w.own events fd token = [] := fun token => if_neg hwakes
  constructor
  · rfl
  · intro state state' hl hl'
    rw [hentry] at hl hl'
    exact Option.some.inj (hl.symm.trans hl')
  · intro state' hl
    exact ⟨state', (hentry state').2 hl, by rw [hown]; rfl⟩
  · intro _ state c' hl hc
    rw [hown] at hc
    exact ⟨state, (hentry state).1 hl, Option.some.inj hc⟩

/-- With one the connections are taken over, and then the responses delivered. -/
theorem drained_of_wakes {u : WorkerLoop} {events : List ReadyEvent}
    (hwakes : w.wakes events = true) {rest : List WakeRead}
    (hu : ({ w with wakeReads := rest } : WorkerLoop).drainPendingConnections env = .ok u)
    (hv : u.drainCompletedResponses env = .ok v) (fd : ℤ) : Drained env w v events fd := by
  obtain ⟨⟨hcompleted, hwake, haccepting⟩, hlookup⟩ := lookup_adopt hu
  have hcongr := @adoptions_congr env w { w with wakeReads := rest, pendingConnections := [] } rfl
    w.nextConnectionToken w.pendingConnections
  have hentry : ∀ state, w.Entry env events fd state ↔ u.connections.lookup fd = some state := by
    intro state
    rw [hlookup]
    simp only [Entry, hwakes, true_and, hcongr]
  have hown : ∀ token, w.own events fd token = ownOf fd token (w.completed.getD []) :=
    fun token => if_pos hwakes
  have hunique : ∀ state state', w.Entry env events fd state → w.Entry env events fd state' →
      state = state' := by
    intro state state' hl hl'
    rw [hentry] at hl hl'
    exact Option.some.inj (hl.symm.trans hl')
  unfold drainCompletedResponses at hv
  rw [hcompleted] at hv
  split at hv
  · rename_i hqueue
    obtain rfl := Ended.ok.inj hv
    have hnil : ∀ token, w.own events fd token = [] := fun token => by
      rw [hown, show w.completed = none from hqueue]
      rfl
    refine ⟨hwake, hunique, fun state' hl => ?_, fun _ state c' hl hc => ?_⟩
    · exact ⟨state', (hentry state').2 hl, by rw [hnil]; rfl⟩
    · rw [hnil] at hc
      exact ⟨state, (hentry state).1 hl, Option.some.inj hc⟩
  · rename_i rs hqueue
    have hresponds := responds_deliverAll hv fd
    have hcenv : ∀ token, connectionEnv env { u with completed := some [] } fd token =
        connectionEnv env w fd token :=
      connectionEnv_congr (by rw [show w.completed = some rs from hqueue]; rfl) fd
    have hrs : ∀ token, w.own events fd token = ownOf fd token rs := fun token => by
      rw [hown, show w.completed = some rs from hqueue]
      rfl
    refine ⟨hresponds.wakeFd.trans hwake, hunique, fun state' hl => ?_,
      fun hw state c' hl hc => ?_⟩
    · obtain ⟨state, hstate, -, hrespond⟩ := hresponds.remains state' hl
      exact ⟨state, (hentry state).2 hstate, by rw [hrs, ← hcenv]; exact hrespond⟩
    · rw [hrs, ← hcenv] at hc
      exact hresponds.stays (haccepting hw) state c' ((hentry state).1 hl) hc

/-- **The drains of a poll**, seen by one connection. -/
theorem drained {events : List ReadyEvent} (h : w.drains env events = .ok v) (fd : ℤ) :
    Drained env w v events fd := by
  unfold drains at h
  by_cases hwakes : w.wakes events = true
  · rw [if_pos (show (events.any fun e => e.fd = w.wakeFd) = true from hwakes)] at h
    obtain ⟨u, hu, hdeliver⟩ := Ended.andThen_eq_ok.1 h
    obtain ⟨w₀, hw₀, hadopt⟩ := Ended.andThen_eq_ok.1 hu
    have hread := w.drainWakeFd_keeps
    rw [hw₀] at hread
    obtain ⟨rest, rfl⟩ := hread
    exact drained_of_wakes hwakes hadopt hdeliver fd
  · rw [if_neg (show ¬ (events.any fun e => e.fd = w.wakeFd) = true from hwakes)] at h
    obtain rfl := Ended.ok.inj h
    exact drained_of_not_wakes hwakes fd

/-! ### What is left closing -/

theorem tick_shouldClose (now : Time) (c : Connection) :
    (c.tick now).shouldClose = (c.shouldClose || overdue now c) := by
  unfold Connection.tick overdue
  split_ifs with hclosed hread hwrite
  · rcases hclosed with h | h | h <;> simp [h]
  · rw [(c.enterError_fields _).1]
    simp_all
  · rw [(c.enterError_fields _).1]
    simp_all
  · simp [hread, hwrite]

/-- **What a poll leaves.**  In the table after it the connections with an event are not
closing, and of the others those are not that endured their responses and their deadlines. -/
theorem pollOnce_endures_iff {w' : WorkerLoop} {onOwnerThread : Bool} {events : List ReadyEvent}
    {now : Time} (h : w.pollOnce env onOwnerThread (.ready events) now = .ok w') (fd : ℤ) :
    (∀ state', w'.connections.lookup fd = some state' → w.Handled events fd →
      state'.connection.shouldClose = false) ∧
    (¬ w.Handled events fd →
      (∀ state', w'.connections.lookup fd = some state' →
        (state'.connection.shouldClose = false ↔ ∀ state, w.Entry env events fd state →
          Endures (connectionEnv env w fd state.connectionToken) now state.connection
            (w.own events fd state.connectionToken))) ∧
      (w.Accepting → (∀ state', w'.connections.lookup fd = some state' →
          state'.connection.shouldClose = false) → ∀ state, w.Entry env events fd state →
        Endures (connectionEnv env w fd state.connectionToken) now state.connection
          (w.own events fd state.connectionToken))) := by
  unfold pollOnce at h
  split_ifs at h
  obtain ⟨v, hv, hevents⟩ := Ended.andThen_eq_ok.1 h
  obtain ⟨hsame, hdone⟩ := handleEvents_ok hevents
  have hHandled : (v.tickAll now).Handled events fd ↔ w.Handled events fd := by
    rw [Handled, Handled, show (v.tickAll now).wakeFd = v.wakeFd from rfl, (drained hv fd).wakeFd]
  have hticked : (v.tickAll now).connections.lookup fd = (v.connections.lookup fd).map fun state =>
      { state with connection := state.connection.tick now } := Table.lookup_mapVals _ _ _
  refine ⟨fun state' hl hfd => hdone fd (hHandled.2 hfd) state' hl, fun hfd => ?_⟩
  have hleft := (hsame fd (hHandled.not.2 hfd)).trans hticked
  refine ⟨fun state' hl => ?_, fun haccepting hall state hentry c' hc => ?_⟩
  · rw [hleft] at hl
    obtain ⟨state₁, hl₁, rfl⟩ := Option.map_eq_some_iff.1 hl
    obtain ⟨state, hentry, hrespond⟩ := (drained hv fd).remains state₁ hl₁
    rw [tick_shouldClose, Bool.or_eq_false_iff]
    constructor
    · intro hopen state₂ hentry₂ c' hc
      obtain rfl := (drained hv fd).unique _ _ hentry hentry₂
      obtain rfl := Option.some.inj (hrespond.symm.trans hc)
      exact hopen
    · intro hendures
      exact hendures state hentry _ hrespond
  · obtain ⟨state₁, hl₁, rfl⟩ := (drained hv fd).stays haccepting state c' hentry hc
    rw [hl₁, Option.map_some] at hleft
    have hopen := hall _ hleft
    rwa [tick_shouldClose, Bool.or_eq_false_iff] at hopen

/-- A connection that is taken over waits for its first request. -/
theorem waits_adoptions {token : ℕ} {ps : List PendingConnection} {fd : ℤ}
    {state : ConnectionState} (h : (fd, state) ∈ adoptions env w token ps) :
    state.connection.Waits := by
  induction ps generalizing token with
  | nil => cases h
  | cons p ps ih =>
    rcases List.mem_cons.1 h with heq | hrest
    · obtain ⟨-, rfl⟩ := Prod.mk.inj heq
      exact Or.inr (Or.inl (Connection.atRead_start ..))
    · exact ih hrest

/-- So does every connection of a poll, if the table is settled. -/
theorem Settled.entry (hw : w.Settled) {events : List ReadyEvent} {fd : ℤ}
    {state : ConnectionState} (h : w.Entry env events fd state) : state.connection.Waits := by
  rcases h with hl | ⟨-, hadopted⟩
  · exact (hw fd state hl).waits
  · exact waits_adoptions hadopted

/-- **Which connections a poll leaves closing.**  After any run of a worker that starts
without connections and a poll that returned true, a connection of the table is not marked
for closing exactly if, before the poll, `Spares` held of it.  If `epoll_ctl` refuses
nothing, no connection is left closing exactly if it held of every one. -/
theorem pollOnce_clean_iff {w₀ w w' : WorkerLoop} (h₀ : w₀.connections = ∅) {es : List Event}
    (hrun : exec loopStep w₀ es = some w) {env : LoopEnv} {onOwnerThread : Bool} {wait : Wait}
    {now : Time} (h : w.pollOnce env onOwnerThread wait now = .ok w') :
    (∀ fd state', w'.connections.lookup fd = some state' →
      (state'.connection.shouldClose = false ↔ w.Spares env now wait fd)) ∧
    (w.Accepting → (w'.Clean ↔ ∀ fd, w.Spares env now wait fd)) := by
  cases wait with
  | interrupted =>
    unfold pollOnce at h
    split_ifs at h
    obtain rfl := Ended.ok.inj h
    refine ⟨fun fd state' hl => ⟨fun hopen state hl' => ?_, fun hall => hall state' hl⟩,
      fun _ => Iff.rfl⟩
    exact Option.some.inj (hl.symm.trans hl') ▸ hopen
  | error what =>
    unfold pollOnce at h
    split_ifs at h
  | ready events =>
    have hendures : ∀ fd state, w.Entry env events fd state →
        (Endures (connectionEnv env w fd state.connectionToken) now state.connection
            (w.own events fd state.connectionToken) ↔
          state.connection.undisturbed (connectionEnv env w fd state.connectionToken) now
            (w.own events fd state.connectionToken) = true) := fun fd state hentry =>
      Connection.endures_iff ((settled_of_exec h₀ hrun).entry hentry)
    have hpoint : ∀ fd state', w'.connections.lookup fd = some state' →
        (state'.connection.shouldClose = false ↔ w.Spares env now (.ready events) fd) := by
      intro fd state' hl
      obtain ⟨hdone, hleft⟩ := pollOnce_endures_iff h fd
      by_cases hfd : w.Handled events fd
      · exact iff_of_true (hdone state' hl hfd) (Or.inl hfd)
      · rw [(hleft hfd).1 state' hl, Spares, or_iff_right hfd]
        exact forall₂_congr (hendures fd)
    refine ⟨hpoint, fun haccepting => ⟨fun hclean fd => ?_, fun hall fd state' hl =>
      (hpoint fd state' hl).2 (hall fd)⟩⟩
    by_cases hfd : w.Handled events fd
    · exact Or.inl hfd
    · refine Or.inr fun state hentry => (hendures fd state hentry).1 ?_
      exact ((pollOnce_endures_iff h fd).2 hfd).2 haccepting (hclean fd) state hentry

end WorkerLoop

/-- The function succeeds and leaves a connection at `fd` that meets a test. -/
def Ended.leaves (fd : ℤ) (p : Connection → Bool) : Ended → Bool
  | .ok w => (w.connections.lookup fd).any fun state => p state.connection
  | _ => false

theorem Ended.leaves_iff {fd : ℤ} {p : Connection → Bool} {r : Ended} :
    r.leaves fd p = true ↔ ∃ w state, r = .ok w ∧ w.connections.lookup fd = some state ∧
      p state.connection = true := by
  cases r <;> simp [Ended.leaves, Option.any_eq_true]

namespace WorkerLoop

/-- A connection that waits for a request until time 10, whose response comes back. -/
def answered (inbox : Inbox) : WorkerLoop where
  wakeFd := 3
  connections := (∅ : Table ℤ ConnectionState).insert 7
    { connection :=
        { state := .kReading, readWaiter := true, readDeadline := some 10
          coroutine := .waitReadable, inbox }
      connectionToken := 1 }
  completed := some [⟨7, 1, "1", 0, "", []⟩]

/-- The response is a body of three bytes. -/
def answeredEnv : LoopEnv where
  request := .only ⟨"", "", "", []⟩ []
  response := .only ⟨"1", 0, "", []⟩ [0x0A, 1, 0x31]

/-- A worker takes a connection over, and a response of its comes back. -/
def answering : List Event :=
  [.enqueue { fd := 7 }, .poll answeredEnv true (.ready [woken]) 0,
    .complete ⟨7, 1, "1", 0, "", []⟩]

/-- The next poll queues the response, before the deadline and with nothing to read. -/
theorem pollOnce_clean_iff_answered :
    ∃ w w', exec loopStep { wakeFd := 3, completed := some [] } answering = some w ∧
      w.pollOnce answeredEnv true (.ready [woken]) 5 = .ok w' ∧ w'.Clean := by
  have hfacts : (exec loopStep { wakeFd := 3, completed := some [] } answering).any (fun w =>
      decide (w.connections.keys = [7]) && w.epollCtl.isEmpty && w.pendingConnections.isEmpty &&
        (w.pollOnce answeredEnv true (.ready [woken]) 5).succeeds &&
        (w.connections.lookup 7).all fun state =>
          state.connection.undisturbed (connectionEnv answeredEnv w 7 state.connectionToken) 5
            (w.own [woken] 7 state.connectionToken)) = true := by decide +kernel
  rw [Option.any_eq_true] at hfacts
  obtain ⟨w, hrun, hw⟩ := hfacts
  simp only [Bool.and_eq_true, decide_eq_true_eq, List.isEmpty_iff, Option.all_eq_true] at hw
  obtain ⟨⟨⟨⟨hkeys, hctl⟩, hpending⟩, hpoll⟩, hundisturbed⟩ := hw
  obtain ⟨w', hw'⟩ := Ended.succeeds_iff.1 hpoll
  have haccepting : w.Accepting := by
    rw [Accepting, hctl]
    intro answer ha
    cases ha
  refine ⟨w, w', hrun, hw', ((pollOnce_clean_iff rfl hrun hw').2 haccepting).2 fun fd => ?_⟩
  refine Or.inr fun state hentry => ?_
  rcases hentry with hl | ⟨-, hadopted⟩
  · have hfd : fd ∈ w.connections.keys := AList.mem_keys.1 (AList.lookup_isSome.1 (by simp [hl]))
    rw [hkeys, List.mem_singleton] at hfd
    subst hfd
    exact hundisturbed state hl
  · rw [hpending] at hadopted
    cases hadopted

/-- **Two connections that stay**: one that `Tick` finds to be overdue at time 20, and
one whose client has closed, which its response makes read the end of the stream.  The
polls have no event for them, and return true. -/
theorem closing_stays :
    (∃ w' state, idle.pollOnce idleEnv true (.ready []) 20 = .ok w' ∧
      w'.connections.lookup 7 = some state ∧ state.connection.shouldClose = true ∧
      state.connection.lastError = "read timeout") ∧
    ∃ w' state, (answered [.eof]).pollOnce answeredEnv true
        (.ready [{ fd := 3, readable := true }]) 5 = .ok w' ∧
      w'.connections.lookup 7 = some state ∧ state.connection.shouldClose = true ∧
      state.connection.state = .kClosing := by
  refine ⟨⟨_, _, rfl, rfl, rfl, rfl⟩, ?_⟩
  have hstays : (((answered [.eof]).pollOnce answeredEnv true
      (.ready [{ fd := 3, readable := true }]) 5).leaves 7 fun c =>
        c.shouldClose && decide (c.state = .kClosing)) = true := by decide +kernel
  obtain ⟨w', state, hw', hl, hclosing⟩ := Ended.leaves_iff.1 hstays
  obtain ⟨hclose, hstate⟩ := Bool.and_eq_true_iff.1 hclosing
  exact ⟨w', state, hw', hl, hclose, of_decide_eq_true hstate⟩

end WorkerLoop
end Server
end MiniRpc
