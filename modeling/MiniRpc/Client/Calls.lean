/-
# The calls of a client

`CallAsync` and `CallCo` of `src/client/rpc_client.cpp` with the awaiter
`DirectCallCoAwaiter`, and the operations of the dispatcher on the table of
pending calls, as one step function: a `State` is the table, the id counter, the
calls and the wake-ups that some thread has still to carry out, and an `Event`
is one atomic step of one thread.  The order of the events is free, so a list of
them is any interleaving of any number of callers with the dispatcher.

Three things are coarser than the code, each in the direction of more
behaviours.  `FailAll` happens at any time with any result, whoever calls it
(the dispatcher for six reasons, `Close` for any caller).  `FailTimedOut` is
called with any clock value.  And a wake-up may be carried out at any time after
the operation that made it, in any order, while in the code the thread of that
operation carries out all of them before it does anything else.

A call whose `Connect` fails returns at once and has no slot, so a call begins
here when it draws its request id.  `received` records every value its future
was set to or its coroutine returned.
-/

import MiniRpc.Client.PendingCalls
import MiniRpc.Library.Transition
import Mathlib.Algebra.Group.Nat.Defs

namespace MiniRpc
namespace Client

open Common

/-- `CallAsync` or `CallCo`. -/
inductive Kind where
  | callAsync
  | callCo
  deriving DecidableEq, Repr

/-- Where a call stands. -/
inductive Pc where
  /-- `NextRequestId` has returned; `Add` comes next. -/
  | drawn
  /-- The slot is there; `WriteMessage` comes next. -/
  | registered
  /-- `WriteMessage` failed; `Complete` with this result comes next. -/
  | sendFailed (result : RpcCallResult)
  /-- `TryPop` comes next, with this result if it finds none. -/
  | popping (result : RpcCallResult)
  /-- The request is sent; `BindAsync` or `BindCoroutine` comes next. -/
  | sent
  /-- `CallAsync` has returned the future of its promise. -/
  | waiting
  /-- `BindAsync` failed; `Remove` comes next. -/
  | bindFailed
  /-- `CallCo` is suspended in `co_await`. -/
  | suspended
  /-- `await_resume` comes next, with `fallback_result_`. -/
  | resumed (fallback : Option RpcCallResult)
  /-- A ready future or the coroutine's value was returned. -/
  | returned
  deriving DecidableEq, Repr

/-- One call. -/
structure Call where
  kind : Kind
  requestId : String
  pc : Pc := .drawn
  received : List RpcCallResult := []
  deriving DecidableEq, Repr

/-- The call returns a result. -/
def Call.ret (c : Call) (r : RpcCallResult) : Call :=
  { c with pc := .returned, received := c.received ++ [r] }

/-- A step of a caller's thread. -/
inductive CallStep where
  | add
  | sendOk
  /-- `WriteMessage` failed with this text, or the socket was gone (empty text). -/
  | sendError (writeError : String)
  | complete
  | tryPop
  | bind (deadline : Time)
  | remove
  | awaitResume
  deriving DecidableEq, Repr

/-- The client as far as its calls are concerned; waiters are known by the call
they belong to. -/
structure State where
  nextId : ℕ := 0
  pending : PendingCalls ℕ := {}
  calls : Table ℕ Call := ∅
  wakes : List (Wake ℕ) := []

/-- One atomic step of one thread. -/
inductive Event where
  /-- A new call `k` draws its request id. -/
  | begin (k : ℕ) (kind : Kind)
  /-- A step of call `k`. -/
  | call (k : ℕ) (step : CallStep)
  /-- `SendHeartbeatRequest` draws an id from the same counter. -/
  | heartbeat
  /-- The dispatcher handles one response. -/
  | response (message : RpcResponse)
  | failTimedOut (now : Time)
  | failAll (result : RpcCallResult)
  /-- A thread fulfils a promise or resumes a coroutine. -/
  | wake (w : Wake ℕ)

/-- The result the send failure is turned into. -/
def sendFailure (writeError : String) : RpcCallResult :=
  .failure .internalError
    ("send request failed: " ++ if writeError = "" then "connection closed" else writeError)

/-- The result `DispatcherLoop` gives `FailTimedOut`. -/
def callTimeout : RpcCallResult := .failure .internalError "call timeout"

/-- The result a response is mapped to. -/
def mapped (response : RpcResponse) : RpcCallResult :=
  ⟨⟨fromProtoErrorCode response.errorCode, response.errorMsg⟩, response.payload⟩

/-- `request_id.rfind("hb_", 0) == 0`: the answer to a heartbeat. -/
def isHeartbeatId (id : String) : Bool := "hb_".toList.isPrefixOf id.toList

/-- The part of `HandleReadableFrames` after a response was parsed. -/
def handleResponse {α : Type*} (p : PendingCalls α) (response : RpcResponse) :
    PendingCalls α × List (Wake α) :=
  if isHeartbeatId response.requestId then (p, [])
  else
    let (p, wakes, _) := p.complete response.requestId (mapped response)
    (p, wakes)

/-- A step of call `k`: the table, what is to be woken, and the call after it. -/
def callStep (p : PendingCalls ℕ) (k : ℕ) (c : Call) (step : CallStep) :
    Option (PendingCalls ℕ × List (Wake ℕ) × Call) :=
  match c.pc, step with
  | .drawn, .add =>
    match p.add c.requestId with
    | (p, true) => some (p, [], { c with pc := .registered })
    | (p, false) =>
      some (p, [], c.ret (.failure .internalError "duplicate request_id in pending table"))
  | .registered, .sendOk => some (p, [], { c with pc := .sent })
  | .registered, .sendError writeError =>
    some (p, [], { c with pc := .sendFailed (sendFailure writeError) })
  | .sendFailed result, .complete =>
    let (p, wakes, _) := p.complete c.requestId result
    some (p, wakes, { c with pc := .popping result })
  | .popping result, .tryPop =>
    let (p, popped) := p.tryPop c.requestId
    some (p, [], c.ret (popped.getD result))
  | .sent, .bind deadline =>
    match c.kind with
    | .callAsync =>
      match p.bindAsync c.requestId k deadline with
      | (p, true, none) => some (p, [], { c with pc := .waiting })
      | (p, true, some r) => some (p, [], { c with pc := .waiting, received := c.received ++ [r] })
      | (p, false, _) => some (p, [], { c with pc := .bindFailed })
    | .callCo =>
      match p.bindCoroutine c.requestId k deadline with
      | (p, .kBound) => some (p, [], { c with pc := .suspended })
      | (p, .kAlreadyDone) => some (p, [], { c with pc := .resumed none })
      | (p, .kNotFound) =>
        some (p, [], { c with pc := .resumed (some
          (.failure .internalError "bind coroutine waiter failed: request not found")) })
      | (p, .kAlreadyBound) =>
        some (p, [], { c with pc := .resumed (some
          (.failure .internalError "bind coroutine waiter failed: already bound")) })
  | .bindFailed, .remove =>
    some (p.remove c.requestId, [], c.ret (.failure .internalError "bind async waiter failed"))
  | .resumed (some fallback), .awaitResume => some (p, [], c.ret fallback)
  | .resumed none, .awaitResume =>
    match p.tryPop c.requestId with
    | (p, some r) => some (p, [], c.ret r)
    | (p, none) =>
      some (p, [], c.ret (.failure .internalError "coroutine waiter resumed without result"))
  | _, _ => none

/-- What a wake-up does to the call it belongs to. -/
def Call.woken (c : Call) : Wake ℕ → Call
  | .setValue _ r => { c with received := c.received ++ [r] }
  | .resume _ => { c with pc := .resumed none }

/-- One step of the client, `none` if the step cannot happen in the state. -/
def step (s : State) : Event → Option State
  | .begin k kind =>
    if (s.calls.lookup k).isSome then none
    else
      let id := (s.nextId + 1) % 2 ^ 64
      some { s with nextId := id, calls := s.calls.insert k { kind, requestId := toString id } }
  | .call k a =>
    match s.calls.lookup k with
    | none => none
    | some c =>
      match callStep s.pending k c a with
      | none => none
      | some (pending, wakes, c) =>
        some { s with pending, wakes := s.wakes ++ wakes, calls := s.calls.insert k c }
  | .heartbeat => some { s with nextId := (s.nextId + 1) % 2 ^ 64 }
  | .response message =>
    let (pending, wakes) := handleResponse s.pending message
    some { s with pending, wakes := s.wakes ++ wakes }
  | .failTimedOut now =>
    let (pending, wakes) := s.pending.failTimedOut now callTimeout
    some { s with pending, wakes := s.wakes ++ wakes }
  | .failAll result =>
    let (pending, wakes) := s.pending.failAll result
    some { s with pending, wakes := s.wakes ++ wakes }
  | .wake w =>
    if w ∈ s.wakes then
      some { s with
        wakes := s.wakes.erase w
        calls := s.calls.update w.owner fun c => c.woken w }
    else none

/-- `GetInflightCount`. -/
def State.getInflightCount (s : State) : ℕ := s.pending.size

/-- The event draws a number from `next_id_`. -/
def Event.draws : Event → Bool
  | .begin _ _ => true
  | .heartbeat => true
  | _ => false

/-- The event begins call `k`. -/
def Event.begins (k : ℕ) : Event → Bool
  | .begin j _ => j = k
  | _ => false

/-- The slots an event goes over and finishes with one result for all. -/
def Event.sweeps : Event → Slot ℕ → Bool
  | .failAll _ => fun _ => true
  | .failTimedOut now => Slot.timedOut now
  | _ => fun _ => false

/-- What an event makes the result of the slot of call `k`, if it hits the slot
while the slot is not done: a response under the slot's own id its mapped
content, a failure of the connection or of the send its own text, and the clock
a timeout if the slot has a waiter and is due. -/
def Event.verdict (k : ℕ) (c : Call) (slot : Slot ℕ) (e : Event) : Option RpcCallResult :=
  if slot.done then none
  else
    match e with
    | .response message =>
      if !isHeartbeatId message.requestId && message.requestId = c.requestId then
        some (mapped message)
      else none
    | .failTimedOut now => if slot.timedOut now then some callTimeout else none
    | .failAll result => some result
    | .call j .complete =>
      match c.pc with
      | .sendFailed result => if j = k then some result else none
      | _ => none
    | _ => none

/-- **The result that an event decides for call `k`.** -/
def decides (k : ℕ) (s : State) (e : Event) : Option RpcCallResult :=
  (s.calls.lookup k).bind fun c =>
    (s.pending.slots.lookup c.requestId).bind fun slot => e.verdict k c slot

/-! ### What the steps of a call can do -/

variable {p p' : PendingCalls ℕ} {k : ℕ} {c c' : Call} {a : CallStep} {ws : List (Wake ℕ)}

section Inversion

attribute [local simp] callStep

theorem callStep_drawn (hpc : c.pc = .drawn) (hid : c.requestId ≠ "")
    (hslot : p.slots.lookup c.requestId = none) (h : callStep p k c a = some (p', ws, c')) :
    a = .add ∧ p' = ⟨p.slots.insert c.requestId {}⟩ ∧ ws = [] ∧
      c' = { c with pc := .registered } := by
  cases a <;> simp_all [PendingCalls.add, Table.tryEmplace]

theorem callStep_drawn_taken {slot : Slot ℕ} (hpc : c.pc = .drawn)
    (hslot : p.slots.lookup c.requestId = some slot) (h : callStep p k c a = some (p', ws, c')) :
    a = .add ∧ p' = p ∧ ws = [] ∧ ∃ r, c' = c.ret r := by
  cases a <;> simp_all [PendingCalls.add, Table.tryEmplace]
  exact ⟨_, h.2.2.symm⟩

theorem callStep_registered (hpc : c.pc = .registered)
    (h : callStep p k c a = some (p', ws, c')) :
    p' = p ∧ ws = [] ∧ (a = .sendOk ∧ c' = { c with pc := .sent } ∨
      ∃ e, a = .sendError e ∧ c' = { c with pc := .sendFailed (sendFailure e) }) := by
  cases a <;> simp_all

theorem callStep_sendFailed {f : RpcCallResult} (hpc : c.pc = .sendFailed f)
    (h : callStep p k c a = some (p', ws, c')) :
    a = .complete ∧ p' = (p.complete c.requestId f).1 ∧ ws = (p.complete c.requestId f).2.1 ∧
      c' = { c with pc := .popping f } := by
  cases a <;> simp_all

theorem callStep_popping {f r : RpcCallResult} {slot : Slot ℕ} (hpc : c.pc = .popping f)
    (hslot : p.slots.lookup c.requestId = some slot) (hdone : slot.done) (hr : slot.result = r)
    (h : callStep p k c a = some (p', ws, c')) :
    a = .tryPop ∧ p' = ⟨p.slots.erase c.requestId⟩ ∧ ws = [] ∧ c' = c.ret r := by
  cases a <;> simp_all [PendingCalls.tryPop]

theorem callStep_sent_open (hpc : c.pc = .sent) (hslot : p.slots.lookup c.requestId = some {})
    (h : callStep p k c a = some (p', ws, c')) :
    ∃ d, a = .bind d ∧ ws = [] ∧
      (p' = ⟨p.slots.insert c.requestId
          { asyncPromise := some k, asyncBound := true, deadline := d }⟩ ∧
        c' = { c with pc := .waiting } ∨
      p' = ⟨p.slots.insert c.requestId
          { coroutineHandle := some k, coroutineBound := true, deadline := d }⟩ ∧
        c' = { c with pc := .suspended }) := by
  cases a <;> cases hk : c.kind <;>
    simp_all [PendingCalls.bindAsync, PendingCalls.bindCoroutine]

theorem callStep_sent_done {slot : Slot ℕ} (hpc : c.pc = .sent)
    (hslot : p.slots.lookup c.requestId = some slot) (hdone : slot.done)
    (hasync : slot.asyncBound = false) (hco : slot.coroutineBound = false)
    (h : callStep p k c a = some (p', ws, c')) :
    ∃ d, a = .bind d ∧ ws = [] ∧
      (p' = ⟨p.slots.erase c.requestId⟩ ∧
        c' = { c with pc := .waiting, received := c.received ++ [slot.result] } ∨
      p' = p ∧ c' = { c with pc := .resumed none }) := by
  cases a <;> cases hk : c.kind <;>
    simp_all [PendingCalls.bindAsync, PendingCalls.bindCoroutine]

theorem callStep_resumed {slot : Slot ℕ} (hpc : c.pc = .resumed none)
    (hslot : p.slots.lookup c.requestId = some slot) (hdone : slot.done)
    (h : callStep p k c a = some (p', ws, c')) :
    a = .awaitResume ∧ p' = ⟨p.slots.erase c.requestId⟩ ∧ ws = [] ∧ c' = c.ret slot.result := by
  cases a <;> simp_all [PendingCalls.tryPop]

/-- A call that waits or has returned takes no step of its own. -/
theorem callStep_idle (hpc : c.pc = .waiting ∨ c.pc = .suspended ∨ c.pc = .returned) :
    callStep p k c a = none := by
  rcases hpc with hpc | hpc | hpc <;> cases a <;> simp [hpc]

end Inversion

/-- A step does not change the request id. -/
theorem callStep_requestId (h : callStep p k c a = some (p', ws, c')) :
    c'.requestId = c.requestId := by
  unfold callStep at h
  repeat' split at h
  all_goals first
    | cases h; rfl
    | cases h

/-- **A step changes no request id**, and gives a new call the next number. -/
theorem requestIds_step {s t : State} {e : Event} (h : step s e = some t) (j : ℕ) :
    (t.calls.lookup j).map Call.requestId =
      if e.begins j then some (toString ((s.nextId + 1) % 2 ^ 64))
      else (s.calls.lookup j).map Call.requestId := by
  cases e with
  | begin k kind =>
    simp only [step] at h
    split_ifs at h
    obtain rfl := Option.some.inj h
    by_cases hk : j = k
    · subst hk
      simp [Event.begins]
    · simp [AList.lookup_insert_ne hk, Ne.symm hk, Event.begins]
  | call k a =>
    simp only [step] at h
    split at h
    · cases h
    rename_i b hb
    split at h
    · cases h
    rename_i p ws b' hstep
    obtain rfl := Option.some.inj h
    by_cases hk : j = k
    · subst hk
      simp [hb, callStep_requestId hstep, Event.begins]
    · simp [AList.lookup_insert_ne hk, Event.begins]
  | wake w =>
    simp only [step] at h
    split_ifs at h
    obtain rfl := Option.some.inj h
    simp only [Table.lookup_update, Event.begins, Bool.false_eq_true, if_false]
    split_ifs with hk
    · rw [hk]
      cases s.calls.lookup w.owner with
      | none => rfl
      | some c => cases w <;> rfl
    · rfl
  | _ =>
    obtain rfl := Option.some.inj h
    simp [Event.begins]

/-- **A call keeps its request id** over a whole run. -/
theorem requestId_exec {s t : State} {es : List Event} (hc : s.calls.lookup k = some c)
    (h : Transition.exec step s es = some t) (hc' : t.calls.lookup k = some c') :
    c.requestId = c'.requestId := by
  have key : (t.calls.lookup k).map Call.requestId = some c.requestId := by
    refine Transition.exec_invariant
      (I := fun t => (t.calls.lookup k).map Call.requestId = some c.requestId)
      (by rw [hc]; rfl) ?_ h
    intro s e t hs hst
    obtain ⟨d, hd, -⟩ := Option.map_eq_some_iff.1 hs
    have hb : ¬ e.begins k := by
      intro he
      cases e with
      | begin j kind =>
        obtain rfl : j = k := by simpa [Event.begins] using he
        simp [step, hd] at hst
      | _ => cases he
    rw [requestIds_step hst, if_neg hb, hs]
  rw [hc'] at key
  exact (Option.some.inj key).symm

/-- The counter moves exactly when an event draws from it. -/
theorem nextId_step {s t : State} {e : Event} (h : step s e = some t) :
    t.nextId = if e.draws then (s.nextId + 1) % 2 ^ 64 else s.nextId := by
  cases e with
  | begin k kind =>
    simp only [step] at h
    split_ifs at h
    obtain rfl := Option.some.inj h
    rfl
  | call k a =>
    simp only [step] at h
    split at h
    · cases h
    split at h
    · cases h
    obtain rfl := Option.some.inj h
    rfl
  | wake w =>
    simp only [step] at h
    split_ifs at h
    obtain rfl := Option.some.inj h
    rfl
  | _ =>
    obtain rfl := Option.some.inj h
    rfl

/-! ### Where an unfinished slot comes from -/

/-- A call's step leaves an unfinished slot as it was, or opens one (`Add`), or
binds a waiter to one. -/
theorem open_of_callStep (h : callStep p k c a = some (p', ws, c')) {id : String} {x : Slot ℕ}
    (hl : p'.slots.lookup id = some x) (hx : x.done = false) :
    p.slots.lookup id = some x ∨
      (a = .add ∧ c.requestId = id ∧ p.slots.lookup id = none ∧ x = {}) ∨
      ∃ d slot, a = .bind d ∧ c.pc = .sent ∧ c.requestId = id ∧
        p.slots.lookup id = some slot ∧ slot.done = false := by
  unfold callStep at h
  split at h
  · -- `Add`
    have hadd : p' = (p.add c.requestId).1 := by
      split at h <;> rename_i heq <;> cases h <;> rw [heq]
    rw [hadd] at hl
    rcases PendingCalls.open_of_add hl with h | h
    · exact Or.inl h
    · exact Or.inr (Or.inl ⟨rfl, h⟩)
  · cases h
    exact Or.inl hl
  · cases h
    exact Or.inl hl
  · cases h
    exact Or.inl (PendingCalls.open_of_complete hl hx)
  · cases h
    exact Or.inl (PendingCalls.open_of_tryPop hl)
  · -- `BindAsync` or `BindCoroutine`
    rename_i deadline hpc
    have hbind : p.slots.lookup id = some x ∨
        c.requestId = id ∧ ∃ slot, p.slots.lookup id = some slot ∧ slot.done = false := by
      split at h
      · have hp : p' = (p.bindAsync c.requestId k deadline).1 := by
          split at h <;> rename_i heq <;> cases h <;> rw [heq]
        rw [hp] at hl
        exact PendingCalls.open_of_bindAsync hl
      · have hp : p' = (p.bindCoroutine c.requestId k deadline).1 := by
          split at h <;> rename_i heq <;> cases h <;> rw [heq]
        rw [hp] at hl
        exact PendingCalls.open_of_bindCoroutine hl
    rcases hbind with h | ⟨hid, slot, hslot, hopen⟩
    · exact Or.inl h
    · exact Or.inr (Or.inr ⟨deadline, slot, rfl, hpc, hid, hslot, hopen⟩)
  · cases h
    exact Or.inl (Table.lookup_of_erase hl)
  · cases h
    exact Or.inl hl
  · have hpop : p' = (p.tryPop c.requestId).1 := by
      split at h <;> rename_i heq <;> cases h <;> rw [heq]
    rw [hpop] at hl
    exact Or.inl (PendingCalls.open_of_tryPop hl)
  · cases h

/-- **Where an unfinished slot comes from**: it was there, or a call has just
registered it or bound its waiter to it. -/
theorem open_of_step {s t : State} {e : Event} (h : step s e = some t) {id : String} {x : Slot ℕ}
    (hl : t.pending.slots.lookup id = some x) (hx : x.done = false) :
    s.pending.slots.lookup id = some x ∨
      (∃ k, e = .call k .add ∧ s.pending.slots.lookup id = none ∧ x = {}) ∨
      ∃ k c d slot, e = .call k (.bind d) ∧ s.calls.lookup k = some c ∧ c.pc = .sent ∧
        c.requestId = id ∧ s.pending.slots.lookup id = some slot ∧ slot.done = false := by
  cases e with
  | begin k kind =>
    simp only [step] at h
    split_ifs at h
    obtain rfl := Option.some.inj h
    exact Or.inl hl
  | call k a =>
    simp only [step] at h
    split at h
    · cases h
    rename_i c hc
    split at h
    · cases h
    rename_i p' ws c' hstep
    obtain rfl := Option.some.inj h
    rcases open_of_callStep hstep hl hx with
      h | ⟨rfl, -, hnone⟩ | ⟨d, slot, rfl, hpc, hid, hslot, ho⟩
    · exact Or.inl h
    · exact Or.inr (Or.inl ⟨k, rfl, hnone⟩)
    · exact Or.inr (Or.inr ⟨k, c, d, slot, rfl, hc, hpc, hid, hslot, ho⟩)
  | heartbeat =>
    obtain rfl := Option.some.inj h
    exact Or.inl hl
  | response message =>
    have hp : t.pending = (handleResponse s.pending message).1 :=
      congrArg State.pending (Option.some.inj h).symm
    rw [hp, handleResponse] at hl
    split_ifs at hl
    · exact Or.inl hl
    · exact Or.inl (PendingCalls.open_of_complete hl hx)
  | failTimedOut now =>
    obtain rfl := Option.some.inj h
    exact Or.inl (PendingCalls.open_of_sweep hl hx).1
  | failAll result =>
    obtain rfl := Option.some.inj h
    cases (PendingCalls.open_of_sweep hl hx).2
  | wake w =>
    simp only [step] at h
    split_ifs at h
    obtain rfl := Option.some.inj h
    exact Or.inl hl

/-- Only a successful send leads to the point after it. -/
theorem sendOk_of_callStep (h : callStep p k c a = some (p', ws, c')) (hpc : c'.pc = .sent) :
    a = .sendOk := by
  unfold callStep at h
  repeat' split at h
  all_goals first
    | rfl
    | cases h
  all_goals cases hpc

/-- Where a call that has sent its request comes from. -/
theorem sent_of_step {s t : State} {e : Event} (h : step s e = some t)
    (hc : t.calls.lookup k = some c') (hpc : c'.pc = .sent) :
    (∃ c, s.calls.lookup k = some c ∧ c.pc = .sent ∧ c.requestId = c'.requestId) ∨
      e = .call k .sendOk := by
  cases e with
  | begin j kind =>
    simp only [step] at h
    split_ifs at h
    obtain rfl := Option.some.inj h
    by_cases hk : k = j
    · subst hk
      obtain rfl := Option.some.inj ((AList.lookup_insert _).symm.trans hc)
      cases hpc
    · exact Or.inl ⟨c', (AList.lookup_insert_ne hk).symm.trans hc, hpc, rfl⟩
  | call j a =>
    simp only [step] at h
    split at h
    · cases h
    rename_i c hcj
    split at h
    · cases h
    rename_i p' ws c'' hstep
    obtain rfl := Option.some.inj h
    by_cases hk : k = j
    · subst hk
      obtain rfl := Option.some.inj ((AList.lookup_insert _).symm.trans hc)
      rw [sendOk_of_callStep hstep hpc]
      exact Or.inr rfl
    · exact Or.inl ⟨c', (AList.lookup_insert_ne hk).symm.trans hc, hpc, rfl⟩
  | wake w =>
    simp only [step] at h
    split_ifs at h
    obtain rfl := Option.some.inj h
    simp only [Table.lookup_update] at hc
    split_ifs at hc with hk
    · obtain ⟨c, hcw, rfl⟩ := Option.map_eq_some_iff.1 hc
      cases w with
      | setValue p r => exact Or.inl ⟨c, hk ▸ hcw, hpc, rfl⟩
      | resume p => cases hpc
    · exact Or.inl ⟨c', hc, hpc, rfl⟩
  | _ =>
    obtain rfl := Option.some.inj h
    exact Or.inl ⟨c', hc, hpc, rfl⟩

end Client
end MiniRpc
