/-
# Where a result comes from

Every `RpcCallResult` that a call of `src/client/rpc_client.cpp` returns was made
by `Connect`, by a send, by the dispatcher that gives up or sees a deadline pass,
by `Close`, by a check of the table of pending calls, or by the server.  `made`
says which of these a step of a client is, and `exists_made` that the calls return
no other results.

`IsConnectionError` of `src/client/rpc_client_pool.cpp`, and its copy in
`RpcClientPool::CallAsync`, goes by the text of the result.  `classified_iff` says
for which results that tells the failures of the transport from all others: not
for four failures of the transport whose text is not looked for, and not for an
error of the server with one of the texts in its message.
-/

import MiniRpc.Client.Lifecycle
import MiniRpc.Client.RpcClientPool

namespace MiniRpc
namespace Client

open Common Transition

/-- The places where `RpcClient` makes a result. -/
inductive Origin where
  | connect
  | send (writeError : String)
  | timeout
  | inactive
  | initFailed
  | addFailed
  | waitError
  | readError (what : String)
  | badLength
  | badBody
  | peerClosed
  | closed
  | duplicateId
  | bindAsync
  | bindNotFound
  | bindAlreadyBound
  | withoutResult
  /-- A response of the server was decoded. -/
  | response (message : RpcResponse)
  deriving DecidableEq, Repr

namespace Origin

/-- The result that is made there. -/
def result : Origin → RpcCallResult
  | .connect => .failure .internalError "connect failed"
  | .send writeError => sendFailure writeError
  | .timeout => callTimeout
  | .inactive => .failure .internalError "connection inactive (heartbeat timeout)"
  | .initFailed => .failure .internalError "event loop init failed"
  | .addFailed => .failure .internalError "event loop add fd failed"
  | .waitError => .failure .internalError "dispatcher stopped: event loop error"
  | .readError what => Dispatcher.readFailure what
  | .badLength => Dispatcher.lengthFailure
  | .badBody => Dispatcher.parseFailure
  | .peerClosed => Dispatcher.closedFailure
  | .closed => .failure .internalError "connection closed"
  | .duplicateId => .failure .internalError "duplicate request_id in pending table"
  | .bindAsync => .failure .internalError "bind async waiter failed"
  | .bindNotFound => .failure .internalError "bind coroutine waiter failed: request not found"
  | .bindAlreadyBound => .failure .internalError "bind coroutine waiter failed: already bound"
  | .withoutResult => .failure .internalError "coroutine waiter resumed without result"
  | .response message => mapped message

/-- The transport of the client failed: the connection could not be made or was
lost, nothing came in time, or what came could not be decoded. -/
def isTransport : Origin → Bool
  | .duplicateId => false
  | .bindAsync => false
  | .bindNotFound => false
  | .bindAlreadyBound => false
  | .withoutResult => false
  | .response _ => false
  | _ => true

/-- The texts that `IsConnectionError` looks for. -/
def connectionTexts : List String :=
  ["connect failed", "send request failed", "connection closed", "connection inactive",
    "dispatcher stopped", "call timeout"]

/-- The text tells what failed: it is not that of an event loop that could not be
set up or of a response stream that could not be decoded, and a server that
reports an error uses none of the texts that are looked for. -/
def told : Origin → Bool
  | .initFailed => false
  | .addFailed => false
  | .badLength => false
  | .badBody => false
  | .response message =>
    decide (message.errorCode = 0) ||
      connectionTexts.all fun text => !decide (text.toList <:+: message.errorMsg.toList)
  | _ => true

end Origin

/-! ### What the steps of a client make -/

/-- The result that a step of call `k` makes. -/
def callOrigin (p : PendingCalls ℕ) (k : ℕ) (c : Call) : CallStep → Option Origin
  | .add => if (p.add c.requestId).2 then none else some .duplicateId
  | .sendError writeError => some (.send writeError)
  | .bind deadline =>
    match c.kind with
    | .callAsync => none
    | .callCo =>
      match (p.bindCoroutine c.requestId k deadline).2 with
      | .kNotFound => some .bindNotFound
      | .kAlreadyBound => some .bindAlreadyBound
      | _ => none
  | .remove => some .bindAsync
  | .awaitResume => if (p.tryPop c.requestId).2.isSome then none else some .withoutResult
  | _ => none

/-- The result that a step of a dispatcher at `pc` makes. -/
def dispatcherOrigin (pc : DispatcherPc) : DispatcherStep → Option Origin
  | .initFailed => some .initFailed
  | .timeout _ => some .timeout
  | .inactive => some .inactive
  | .waitError => some .waitError
  | .readError what => some (.readError what)
  | .response message => some (.response message)
  | .badLength => some .badLength
  | .badBody => some .badBody
  | .fail =>
    match pc with
    | .failing _ .exit => some .addFailed
    | _ => some .peerClosed
  | _ => none

/-- The event finishes a slot of the table. -/
def settles (p : PendingCalls ℕ) : Event → Bool
  | .response message =>
    !isHeartbeatId message.requestId &&
      (p.slots.lookup message.requestId).any fun slot => !slot.done
  | .failTimedOut now => p.slots.entries.any fun e => e.2.timedOut now
  | .failAll _ => p.slots.entries.any fun e => !e.2.done
  | _ => false

namespace RpcClient

/-- **Where the result comes from that a step makes**, if it makes one and a call
gets it. -/
def made (s : RpcClient) : Act → Option Origin
  | .connect _ established => if s.sock.isNone && !established then some .connect else none
  | .closeFail _ =>
    if settles s.calls.pending (.failAll Origin.closed.result) then some .closed else none
  | .dispatcher g a =>
    (s.dispatchers.lookup g).bind fun pc =>
      (dispatcherStep s.sock.isSome s.running s.calls.pending.size pc a).bind fun (_, e) =>
        if e.any (settles s.calls.pending) then dispatcherOrigin pc a else none
  | .call (.call k a) =>
    (s.calls.calls.lookup k).bind fun c => callOrigin s.calls.pending k c a
  | _ => none

end RpcClient

/-! ### A result stays what it was made -/

/-- The result is in a slot that is done. -/
def PendingCalls.Holds (p : PendingCalls ℕ) (r : RpcCallResult) : Prop :=
  ∃ id slot, p.slots.lookup id = some slot ∧ slot.done = true ∧ slot.result = r

/-- The call has received the result, or is about to return it. -/
def Call.Holds (c : Call) (r : RpcCallResult) : Prop :=
  r ∈ c.received ∨ c.pc = .sendFailed r ∨ c.pc = .popping r ∨ c.pc = .resumed (some r)

/-- The result is somewhere in the client: in the table, on its way to a promise,
or at a call. -/
def State.Holds (s : State) (r : RpcCallResult) : Prop :=
  s.pending.Holds r ∨ (∃ k, Wake.setValue k r ∈ s.wakes) ∨
    ∃ k c, s.calls.lookup k = some c ∧ c.Holds r

/-- The result with which an event finishes slots. -/
def Event.settled : Event → Option RpcCallResult
  | .response message => some (mapped message)
  | .failTimedOut _ => some callTimeout
  | .failAll r => some r
  | _ => none

section Holds

variable {p p' : PendingCalls ℕ} {r f : RpcCallResult}

theorem PendingCalls.holds_of_erase {id : String}
    (h : (⟨p.slots.erase id⟩ : PendingCalls ℕ).Holds r) : p.Holds r := by
  obtain ⟨id', slot, hl, h⟩ := h
  exact ⟨id', slot, Table.lookup_of_erase hl, h⟩

/-- A slot that is not done holds nothing. -/
theorem PendingCalls.holds_of_insert {id : String} {x : Slot ℕ} (hx : x.done = false)
    (h : (⟨p.slots.insert id x⟩ : PendingCalls ℕ).Holds r) : p.Holds r := by
  obtain ⟨id', slot, hl, hdone, hresult⟩ := h
  by_cases hid : id' = id
  · dsimp only at hl
    rw [hid, AList.lookup_insert] at hl
    obtain rfl := Option.some.inj hl
    rw [hx] at hdone
    cases hdone
  · exact ⟨id', slot, (AList.lookup_insert_ne hid).symm.trans hl, hdone, hresult⟩

theorem PendingCalls.holds_of_add {id : String} (h : (p.add id).1.Holds r) : p.Holds r := by
  unfold PendingCalls.add Table.tryEmplace at h
  split_ifs at h
  · exact h
  · cases hl : p.slots.lookup id with
    | some slot => simpa only [hl] using h
    | none =>
      simp only [hl] at h
      exact holds_of_insert rfl h

/-- What `TryPop` returns was in the table, and it adds nothing. -/
theorem PendingCalls.holds_of_tryPop {id : String}
    (h : (p.tryPop id).1.Holds r ∨ (p.tryPop id).2 = some r) : p.Holds r := by
  unfold PendingCalls.tryPop at h
  split at h
  · rcases h with h | h
    · exact h
    · cases h
  · rename_i slot hl
    split_ifs at h with hdone
    · rcases h with h | h
      · exact holds_of_erase h
      · exact ⟨id, slot, hl, hdone, Option.some.inj h⟩
    · rcases h with h | h
      · exact h
      · cases h

theorem PendingCalls.holds_of_bindAsync {id : String} {k : ℕ} {d : Time}
    (h : (p.bindAsync id k d).1.Holds r ∨ (p.bindAsync id k d).2.2 = some r) : p.Holds r := by
  unfold PendingCalls.bindAsync at h
  split at h
  · rcases h with h | h
    · exact h
    · cases h
  · rename_i slot hl
    split_ifs at h with _ _ hdone
    · rcases h with h | h
      · exact h
      · cases h
    · rcases h with h | h
      · exact h
      · cases h
    · rcases h with h | h
      · exact holds_of_erase h
      · exact ⟨id, slot, hl, hdone, Option.some.inj h⟩
    · rcases h with h | h
      · exact holds_of_insert (by simpa using hdone) h
      · cases h

theorem PendingCalls.holds_of_bindCoroutine {id : String} {k : ℕ} {d : Time}
    (h : (p.bindCoroutine id k d).1.Holds r) : p.Holds r := by
  unfold PendingCalls.bindCoroutine at h
  split at h
  · exact h
  · split_ifs at h with _ _ hdone
    · exact h
    · exact h
    · exact h
    · exact holds_of_insert (by simpa using hdone) h

/-- What `Complete` stores and what it wakes with is the first result of a slot. -/
theorem PendingCalls.holds_of_complete {id : String}
    (h : (p.complete id f).1.Holds r ∨ ∃ k, Wake.setValue k r ∈ (p.complete id f).2.1) :
    p.Holds r ∨ r = f ∧ (p.slots.lookup id).any (fun slot => !slot.done) = true := by
  cases hl : p.slots.lookup id with
  | none =>
    rw [PendingCalls.complete_absent hl] at h
    rcases h with h | ⟨k, hk⟩
    · exact Or.inl h
    · cases hk
  | some x =>
    cases hd : x.done with
    | true =>
      rw [PendingCalls.complete_done hl hd] at h
      rcases h with h | ⟨k, hk⟩
      · exact Or.inl h
      · cases hk
    | false =>
      cases ha : x.asyncPromise with
      | some a =>
        rw [PendingCalls.complete_async hl hd ha] at h
        rcases h with h | ⟨k, hk⟩
        · exact Or.inl (holds_of_erase h)
        · obtain ⟨-, rfl⟩ := Wake.setValue.inj (List.mem_singleton.1 hk)
          exact Or.inr ⟨rfl, by simp [hd]⟩
      | none =>
        rw [PendingCalls.complete_other hl hd ha] at h
        rcases h with ⟨id', slot, h, hdone, hresult⟩ | ⟨k, hk⟩
        · by_cases hid : id' = id
          · rw [hid, AList.lookup_insert] at h
            obtain rfl := Option.some.inj h
            rw [(x.done_release_settle f).2, hd] at hresult
            exact Or.inr ⟨hresult.symm, by simp [hd]⟩
          · rw [AList.lookup_insert_ne hid] at h
            exact Or.inl ⟨id', slot, h, hdone, hresult⟩
        · simp only [Slot.coroutineWaiter] at hk
          split_ifs at hk
          · simp at hk
          · simp at hk

/-- The same of a pass over the table. -/
theorem PendingCalls.holds_of_sweep {hit : Slot ℕ → Bool}
    (h : (p.sweep hit f).1.Holds r ∨ ∃ k, Wake.setValue k r ∈ (p.sweep hit f).2) :
    p.Holds r ∨ r = f ∧ ∃ e ∈ p.slots.entries, hit e.2 = true ∧ e.2.done = false := by
  rcases h with ⟨id, slot, h, hdone, hresult⟩ | ⟨k, hk⟩
  · rw [PendingCalls.lookup_sweep] at h
    obtain ⟨x, hl, rfl⟩ := Option.map_eq_some_iff.1 h
    cases hx : x.done with
    | true =>
      refine Or.inl ⟨id, x, hl, hx, ?_⟩
      split_ifs at hresult
      · rwa [(x.done_release_settle f).2, if_pos hx] at hresult
      · exact hresult
    | false =>
      cases hh : hit x with
      | false => simp [hh, hx] at hdone
      | true =>
        rw [if_pos hh, (x.done_release_settle f).2, hx] at hresult
        exact Or.inr ⟨hresult.symm, ⟨id, x⟩, AList.mem_lookup_iff.1 hl, hh, hx⟩
  · rcases List.mem_append.1 hk with hk | hk
    · obtain ⟨e, he, hc⟩ := List.mem_filterMap.1 hk
      unfold Slot.collect at hc
      split_ifs at hc with hh
      obtain ⟨b, -, hb⟩ := Option.map_eq_some_iff.1 hc
      obtain ⟨-, rfl⟩ := Wake.setValue.inj hb
      cases hx : e.2.done with
      | true =>
        refine Or.inl ⟨e.1, e.2, AList.mem_lookup_iff.2 he, hx, ?_⟩
        simp [Slot.settle, hx]
      | false => exact Or.inr ⟨by simp [Slot.settle, hx], e, he, hh, hx⟩
    · obtain ⟨e, he, hc⟩ := List.mem_filterMap.1 hk
      unfold Slot.collect Slot.coroutineWaiter at hc
      split_ifs at hc
      obtain ⟨b, -, hb⟩ := Option.map_eq_some_iff.1 hc
      cases hb

/-- A call that returns a result has it from before, or returns just that one. -/
theorem Call.holds_of_ret {c : Call} (h : (c.ret f).Holds r) : c.Holds r ∨ r = f := by
  rcases h with h | h | h | h
  · rcases List.mem_append.1 h with h | h
    · exact Or.inl (Or.inl h)
    · exact Or.inr (List.mem_singleton.1 h)
  · cases h
  · cases h
  · cases h

/-- A call that goes on holds what it has received, and what it is about to
return. -/
theorem Call.holds_of_goto {c : Call} {pc : Pc} (h : Call.Holds { c with pc } r) :
    c.Holds r ∨ pc = .sendFailed r ∨ pc = .popping r ∨ pc = .resumed (some r) :=
  h.imp_left Or.inl

/-- `BindAsync` makes no result: the fast path hands on the one of the slot. -/
theorem holds_of_callAsync {k : ℕ} {c c' : Call} {d : Time} {ws : List (Wake ℕ)}
    (hkind : c.kind = .callAsync) (hpc : c.pc = .sent)
    (h : callStep p k c (.bind d) = some (p', ws, c'))
    (hr : p'.Holds r ∨ (∃ k, Wake.setValue k r ∈ ws) ∨ c'.Holds r) : p.Holds r ∨ c.Holds r := by
  simp only [callStep, hpc, hkind] at h
  split at h
  all_goals
    rename_i q hbind
    cases h
    have hq : p'.Holds r → p.Holds r := fun hr =>
      PendingCalls.holds_of_bindAsync (Or.inl (by rw [hbind]; exact hr))
    rcases hr with hr | ⟨j, hj⟩ | hr
    · exact Or.inl (hq hr)
    · cases hj
  · exact Or.inr ((Call.holds_of_goto hr).resolve_right (by simp))
  · rcases hr with hr | hr | hr | hr
    · rcases List.mem_append.1 hr with hr | hr
      · exact Or.inr (Or.inl hr)
      · rw [List.mem_singleton.1 hr]
        exact Or.inl (PendingCalls.holds_of_bindAsync (Or.inr (by rw [hbind])))
    all_goals cases hr
  · exact Or.inr ((Call.holds_of_goto hr).resolve_right (by simp))

/-- `BindCoroutine` makes a result only if it does not bind. -/
theorem holds_of_callCo {k : ℕ} {c c' : Call} {d : Time} {ws : List (Wake ℕ)}
    (hkind : c.kind = .callCo) (hpc : c.pc = .sent)
    (h : callStep p k c (.bind d) = some (p', ws, c'))
    (hr : p'.Holds r ∨ (∃ k, Wake.setValue k r ∈ ws) ∨ c'.Holds r) :
    p.Holds r ∨ c.Holds r ∨ ∃ o, callOrigin p k c (.bind d) = some o ∧ o.result = r := by
  simp only [callStep, hpc, hkind] at h
  split at h
  all_goals
    rename_i q hbind
    cases h
    rcases hr with hr | ⟨j, hj⟩ | hr
    · exact Or.inl (PendingCalls.holds_of_bindCoroutine (by rw [hbind]; exact hr))
    · cases hj
  · exact Or.inr (Or.inl ((Call.holds_of_goto hr).resolve_right (by simp)))
  · exact Or.inr (Or.inl ((Call.holds_of_goto hr).resolve_right (by simp)))
  · rcases Call.holds_of_goto hr with hr | hr | hr | hr
    · exact Or.inr (Or.inl hr)
    · cases hr
    · cases hr
    · obtain rfl := Option.some.inj (Pc.resumed.inj hr)
      exact Or.inr (Or.inr ⟨.bindNotFound, by simp [callOrigin, hkind, hbind], rfl⟩)
  · rcases Call.holds_of_goto hr with hr | hr | hr | hr
    · exact Or.inr (Or.inl hr)
    · cases hr
    · cases hr
    · obtain rfl := Option.some.inj (Pc.resumed.inj hr)
      exact Or.inr (Or.inr ⟨.bindAlreadyBound, by simp [callOrigin, hkind, hbind], rfl⟩)

/-- **A step of a call makes the result of its origin**, and otherwise hands on
what is there. -/
theorem holds_of_callStep {k : ℕ} {c c' : Call} {a : CallStep} {ws : List (Wake ℕ)}
    (h : callStep p k c a = some (p', ws, c'))
    (hr : p'.Holds r ∨ (∃ k, Wake.setValue k r ∈ ws) ∨ c'.Holds r) :
    p.Holds r ∨ c.Holds r ∨ ∃ o, callOrigin p k c a = some o ∧ o.result = r := by
  unfold callStep at h
  split at h
  · -- `Add`
    rename_i hpc
    split at h
    · rename_i q hadd
      cases h
      rcases hr with hr | ⟨j, hj⟩ | hr
      · exact Or.inl (PendingCalls.holds_of_add (by rw [hadd]; exact hr))
      · cases hj
      · rcases Call.holds_of_goto hr with hr | hr | hr | hr
        · exact Or.inr (Or.inl hr)
        all_goals cases hr
    · rename_i q hadd
      cases h
      rcases hr with hr | ⟨j, hj⟩ | hr
      · exact Or.inl (PendingCalls.holds_of_add (by rw [hadd]; exact hr))
      · cases hj
      · rcases Call.holds_of_ret hr with hr | rfl
        · exact Or.inr (Or.inl hr)
        · exact Or.inr (Or.inr ⟨.duplicateId, by simp [callOrigin, hadd], rfl⟩)
  · -- `WriteMessage` succeeds
    cases h
    rcases hr with hr | ⟨j, hj⟩ | hr
    · exact Or.inl hr
    · cases hj
    · rcases Call.holds_of_goto hr with hr | hr | hr | hr
      · exact Or.inr (Or.inl hr)
      all_goals cases hr
  · -- `WriteMessage` fails
    rename_i writeError hpc
    cases h
    rcases hr with hr | ⟨j, hj⟩ | hr
    · exact Or.inl hr
    · cases hj
    · rcases Call.holds_of_goto hr with hr | hr | hr | hr
      · exact Or.inr (Or.inl hr)
      · obtain rfl := Pc.sendFailed.inj hr
        exact Or.inr (Or.inr ⟨.send writeError, rfl, rfl⟩)
      all_goals cases hr
  · -- `Complete` with the failure of the send
    rename_i f hpc
    cases h
    have hf : c.Holds f := Or.inr (Or.inl hpc)
    rcases hr with hr | hr | hr
    · rcases PendingCalls.holds_of_complete (Or.inl hr) with hr | ⟨rfl, -⟩
      · exact Or.inl hr
      · exact Or.inr (Or.inl hf)
    · rcases PendingCalls.holds_of_complete (Or.inr hr) with hr | ⟨rfl, -⟩
      · exact Or.inl hr
      · exact Or.inr (Or.inl hf)
    · rcases Call.holds_of_goto hr with hr | hr | hr | hr
      · exact Or.inr (Or.inl hr)
      · cases hr
      · obtain rfl := Pc.popping.inj hr
        exact Or.inr (Or.inl hf)
      · cases hr
  · -- `TryPop`
    rename_i f hpc
    cases h
    rcases hr with hr | ⟨j, hj⟩ | hr
    · exact Or.inl (PendingCalls.holds_of_tryPop (Or.inl hr))
    · cases hj
    · rcases Call.holds_of_ret hr with hr | hr
      · exact Or.inr (Or.inl hr)
      · change r = (p.tryPop c.requestId).2.getD f at hr
        cases hpop : (p.tryPop c.requestId).2 with
        | some popped =>
          rw [hpop, Option.getD_some] at hr
          exact Or.inl (PendingCalls.holds_of_tryPop (Or.inr (hr ▸ hpop)))
        | none =>
          rw [hpop, Option.getD_none] at hr
          exact Or.inr (Or.inl (Or.inr (Or.inr (Or.inl (hr ▸ hpc)))))
  · -- `BindAsync` or `BindCoroutine`
    rename_i deadline hpc
    cases hkind : c.kind with
    | callAsync =>
      have hstep : callStep p k c (.bind deadline) = some (p', ws, c') := by
        simpa only [callStep, hpc] using h
      exact (holds_of_callAsync hkind hpc hstep hr).imp_right Or.inl
    | callCo =>
      have hstep : callStep p k c (.bind deadline) = some (p', ws, c') := by
        simpa only [callStep, hpc] using h
      exact holds_of_callCo hkind hpc hstep hr
  · -- `Remove`
    cases h
    rcases hr with hr | ⟨j, hj⟩ | hr
    · exact Or.inl (PendingCalls.holds_of_erase hr)
    · cases hj
    · rcases Call.holds_of_ret hr with hr | rfl
      · exact Or.inr (Or.inl hr)
      · exact Or.inr (Or.inr ⟨.bindAsync, rfl, rfl⟩)
  · -- `await_resume` with the fallback
    rename_i fallback hpc
    cases h
    rcases hr with hr | ⟨j, hj⟩ | hr
    · exact Or.inl hr
    · cases hj
    · rcases Call.holds_of_ret hr with hr | rfl
      · exact Or.inr (Or.inl hr)
      · exact Or.inr (Or.inl (Or.inr (Or.inr (Or.inr hpc))))
  · -- `await_resume`
    rename_i hpc
    split at h
    · rename_i q popped hpop
      cases h
      rcases hr with hr | ⟨j, hj⟩ | hr
      · exact Or.inl (PendingCalls.holds_of_tryPop (Or.inl (by rw [hpop]; exact hr)))
      · cases hj
      · rcases Call.holds_of_ret hr with hr | rfl
        · exact Or.inr (Or.inl hr)
        · exact Or.inl (PendingCalls.holds_of_tryPop (Or.inr (by rw [hpop])))
    · rename_i q hpop
      cases h
      rcases hr with hr | ⟨j, hj⟩ | hr
      · exact Or.inl (PendingCalls.holds_of_tryPop (Or.inl (by rw [hpop]; exact hr)))
      · cases hj
      · rcases Call.holds_of_ret hr with hr | rfl
        · exact Or.inr (Or.inl hr)
        · exact Or.inr (Or.inr ⟨.withoutResult, by simp [callOrigin, hpop], rfl⟩)
  · cases h

/-- An operation of the dispatcher on the table adds what it stores and what it
wakes with. -/
theorem State.holds_of_settle {s : State} {ws : List (Wake ℕ)}
    (h : State.Holds { s with pending := p', wakes := s.wakes ++ ws } r) :
    s.Holds r ∨ p'.Holds r ∨ ∃ k, Wake.setValue k r ∈ ws := by
  rcases h with h | ⟨k, hk⟩ | h
  · exact Or.inr (Or.inl h)
  · rcases List.mem_append.1 hk with hk | hk
    · exact Or.inl (Or.inr (Or.inl ⟨k, hk⟩))
    · exact Or.inr (Or.inr ⟨k, hk⟩)
  · exact Or.inl (Or.inr (Or.inr h))

/-- A wake-up hands on its value. -/
theorem Call.holds_of_woken {c : Call} {w : Wake ℕ} (h : (c.woken w).Holds r) :
    c.Holds r ∨ ∃ k, w = .setValue k r := by
  cases w with
  | setValue k v =>
    rcases h with h | h | h | h
    · rcases List.mem_append.1 h with h | h
      · exact Or.inl (Or.inl h)
      · exact Or.inr ⟨k, by rw [List.mem_singleton.1 h]⟩
    · exact Or.inl (Or.inr (Or.inl h))
    · exact Or.inl (Or.inr (Or.inr (Or.inl h)))
    · exact Or.inl (Or.inr (Or.inr (Or.inr h)))
  | resume k => exact Or.inl ((Call.holds_of_goto h).resolve_right (by simp))

/-- **What a step of the calls makes**: the result of a call's own step, or the one
with which it finishes a slot. -/
theorem holds_of_step {s t : State} {e : Event} (h : step s e = some t) (hr : t.Holds r) :
    s.Holds r ∨
      (∃ k c a o, e = .call k a ∧ s.calls.lookup k = some c ∧
        callOrigin s.pending k c a = some o ∧ o.result = r) ∨
      settles s.pending e = true ∧ e.settled = some r := by
  have hsame : t.pending = s.pending → t.wakes = s.wakes →
      (∀ k c, t.calls.lookup k = some c → c.Holds r →
        ∃ k c, s.calls.lookup k = some c ∧ c.Holds r) → s.Holds r := by
    intro hp hw hc
    rcases hr with hr | hr | ⟨k, c, hl, hr⟩
    · exact Or.inl (hp ▸ hr)
    · exact Or.inr (Or.inl (hw ▸ hr))
    · exact Or.inr (Or.inr (hc k c hl hr))
  cases e with
  | begin k kind =>
    simp only [step] at h
    split_ifs at h
    obtain rfl := Option.some.inj h
    refine Or.inl (hsame rfl rfl fun j c hl hr => ?_)
    by_cases hk : j = k
    · rw [hk, AList.lookup_insert] at hl
      obtain rfl := Option.some.inj hl
      rcases hr with hr | hr | hr | hr <;> cases hr
    · exact ⟨j, c, (AList.lookup_insert_ne hk).symm.trans hl, hr⟩
  | call k a =>
    simp only [step] at h
    split at h
    · cases h
    rename_i c hc
    split at h
    · cases h
    rename_i p' ws c' hstep
    obtain rfl := Option.some.inj h
    have hmade : p'.Holds r ∨ (∃ k, Wake.setValue k r ∈ ws) ∨ c'.Holds r →
        s.Holds r ∨ ∃ o, callOrigin s.pending k c a = some o ∧ o.result = r := by
      intro hr
      rcases holds_of_callStep hstep hr with hr | hr | hr
      · exact Or.inl (Or.inl hr)
      · exact Or.inl (Or.inr (Or.inr ⟨k, c, hc, hr⟩))
      · exact Or.inr hr
    have hcases : s.Holds r ∨ ∃ o, callOrigin s.pending k c a = some o ∧ o.result = r := by
      rcases hr with hr | ⟨j, hj⟩ | ⟨j, d, hl, hr⟩
      · exact hmade (Or.inl hr)
      · rcases List.mem_append.1 hj with hj | hj
        · exact Or.inl (Or.inr (Or.inl ⟨j, hj⟩))
        · exact hmade (Or.inr (Or.inl ⟨j, hj⟩))
      · by_cases hk : j = k
        · rw [hk, AList.lookup_insert] at hl
          obtain rfl := Option.some.inj hl
          exact hmade (Or.inr (Or.inr hr))
        · exact Or.inl (Or.inr (Or.inr ⟨j, d, (AList.lookup_insert_ne hk).symm.trans hl, hr⟩))
    rcases hcases with hr | ⟨o, ho⟩
    · exact Or.inl hr
    · exact Or.inr (Or.inl ⟨k, c, a, o, rfl, hc, ho⟩)
  | heartbeat =>
    obtain rfl := Option.some.inj h
    exact Or.inl (hsame rfl rfl fun k c hl hr => ⟨k, c, hl, hr⟩)
  | response message =>
    obtain rfl := Option.some.inj h
    have hhanded : s.Holds r ∨ (handleResponse s.pending message).1.Holds r ∨
        ∃ k, Wake.setValue k r ∈ (handleResponse s.pending message).2 :=
      State.holds_of_settle hr
    rcases hhanded with hr | hr
    · exact Or.inl hr
    · unfold handleResponse at hr
      split_ifs at hr with hbeat
      · exact Or.inl (Or.inl (hr.resolve_right (by simp)))
      · rcases PendingCalls.holds_of_complete hr with hr | ⟨rfl, hopen⟩
        · exact Or.inl (Or.inl hr)
        · exact Or.inr (Or.inr ⟨by simp [settles, hbeat, hopen], rfl⟩)
  | failTimedOut now =>
    obtain rfl := Option.some.inj h
    rcases State.holds_of_settle hr with hr | hr
    · exact Or.inl hr
    · rcases PendingCalls.holds_of_sweep hr with hr | ⟨rfl, e, he, hhit, -⟩
      · exact Or.inl (Or.inl hr)
      · exact Or.inr (Or.inr ⟨List.any_eq_true.2 ⟨e, he, hhit⟩, rfl⟩)
  | failAll f =>
    obtain rfl := Option.some.inj h
    rcases State.holds_of_settle hr with hr | hr
    · exact Or.inl hr
    · rcases PendingCalls.holds_of_sweep hr with hr | ⟨rfl, e, he, -, hopen⟩
      · exact Or.inl (Or.inl hr)
      · exact Or.inr (Or.inr ⟨List.any_eq_true.2 ⟨e, he, by rw [hopen]; rfl⟩, rfl⟩)
  | wake w =>
    simp only [step] at h
    split_ifs at h with hw
    obtain rfl := Option.some.inj h
    refine Or.inl ?_
    rcases hr with hr | ⟨k, hk⟩ | ⟨k, c, hl, hr⟩
    · exact Or.inl hr
    · exact Or.inr (Or.inl ⟨k, List.mem_of_mem_erase hk⟩)
    · simp only [Table.lookup_update] at hl
      split_ifs at hl with howner
      · obtain ⟨d, hd, rfl⟩ := Option.map_eq_some_iff.1 hl
        rcases Call.holds_of_woken hr with hr | ⟨j, rfl⟩
        · exact Or.inr (Or.inr ⟨w.owner, d, hd, hr⟩)
        · exact Or.inr (Or.inl ⟨j, hw⟩)
      · exact Or.inr (Or.inr ⟨k, c, hl, hr⟩)

end Holds

/-! ### Which results a client returns -/

namespace RpcClient

/-- A dispatcher that is going to fail all calls has one of two reasons. -/
def Failing (s : RpcClient) : Prop :=
  ∀ g f next, s.dispatchers.lookup g = some (.failing f next) →
    f = (if next = .exit then Origin.addFailed else .peerClosed).result

theorem failing_of_dispatcherStep {sock running : Bool} {size : ℕ} {pc : DispatcherPc}
    {a : DispatcherStep} {e : Option Event} {f : RpcCallResult} {next : AfterStop}
    (h : dispatcherStep sock running size pc a = some (.failing f next, e)) :
    f = (if next = .exit then Origin.addFailed else .peerClosed).result := by
  unfold dispatcherStep at h
  split at h <;> (try split_ifs at h) <;> cases h <;> rfl

theorem Failing.step {s t : RpcClient} {a : Act} (hF : s.Failing) (h : step s a = some t) :
    t.Failing := by
  intro g f next hl
  cases a with
  | connect k established =>
    rcases connect_cases h with ⟨-, rfl⟩ | ⟨-, -, rfl⟩ | rfl
    · exact hF g f next hl
    · by_cases hg : g = s.generations
      · rw [hg, AList.lookup_insert] at hl
        cases hl
      · exact hF g f next ((AList.lookup_insert_ne hg).symm.trans hl)
    · exact hF g f next hl
  | closeBegin c =>
    obtain rfl := closeBegin_cases h
    exact hF g f next hl
  | closeJoin c =>
    obtain rfl := closeJoin_cases h
    exact hF g f next hl
  | closeFail c =>
    obtain ⟨calls, -, rfl⟩ := closeFail_cases h
    exact hF g f next hl
  | dispatcher g' a =>
    obtain ⟨pc, pc', e, -, hd, hmove, -⟩ := dispatcher_cases h
    rw [hmove] at hl
    by_cases hg : g = g'
    · rw [hg, AList.lookup_insert] at hl
      obtain rfl := Option.some.inj hl
      exact failing_of_dispatcherStep hd
    · exact hF g f next ((AList.lookup_insert_ne hg).symm.trans hl)
  | call e =>
    obtain ⟨-, calls, -, rfl⟩ := call_cases h
    exact hF g f next hl

/-- The event with which a dispatcher finishes slots has the result of its origin. -/
theorem dispatcherOrigin_of_settled {sock running : Bool} {size : ℕ} {pc pc' : DispatcherPc}
    {a : DispatcherStep} {e : Event} {r : RpcCallResult}
    (h : dispatcherStep sock running size pc a = some (pc', some e)) (hr : e.settled = some r)
    (hF : ∀ f next, pc = .failing f next →
      f = (if next = .exit then Origin.addFailed else .peerClosed).result) :
    ∃ o, dispatcherOrigin pc a = some o ∧ o.result = r := by
  unfold dispatcherStep at h
  split at h <;> (try split_ifs at h) <;> cases h <;> cases hr
  all_goals try exact ⟨_, rfl, rfl⟩
  -- `FailAll` after the decision to call it
  rename_i next
  have hf := hF r next rfl
  cases next with
  | exit => exact ⟨.addFailed, rfl, hf.symm⟩
  | loop => exact ⟨.peerClosed, rfl, hf.symm⟩
  | load => exact ⟨.peerClosed, rfl, hf.symm⟩

/-- **A result that is new after a step was made by it.** -/
theorem holds_of_step {s t : RpcClient} {a : Act} {r : RpcCallResult} (hF : s.Failing)
    (h : step s a = some t) (hr : t.calls.Holds r) :
    s.calls.Holds r ∨ ∃ o, s.made a = some o ∧ o.result = r := by
  cases a with
  | connect k established =>
    rcases connect_cases h with ⟨-, rfl⟩ | ⟨-, -, rfl⟩ | rfl
    · exact Or.inl hr
    · exact Or.inl hr
    · exact Or.inl hr
  | closeBegin c =>
    obtain rfl := closeBegin_cases h
    exact Or.inl hr
  | closeJoin c =>
    obtain rfl := closeJoin_cases h
    exact Or.inl hr
  | closeFail c =>
    obtain ⟨calls, hcalls, rfl⟩ := closeFail_cases h
    rcases Client.holds_of_step hcalls hr with hr | ⟨k, c, a, o, he, -⟩ | ⟨hsettles, hr⟩
    · exact Or.inl hr
    · cases he
    · exact Or.inr ⟨.closed, if_pos hsettles, Option.some.inj hr⟩
  | dispatcher g a =>
    obtain ⟨pc, pc', e, hg, hd, -, -, -, -, ⟨-, hcalls⟩ | ⟨x, rfl, hx⟩⟩ := dispatcher_cases h
    · exact Or.inl (hcalls ▸ hr)
    · rcases Client.holds_of_step hx hr with hr | ⟨k, c, a', o, rfl, -⟩ | ⟨hsettles, hr⟩
      · exact Or.inl hr
      · cases ofDispatcher_of_dispatcherStep hd _ rfl
      · obtain ⟨o, ho, hor⟩ := dispatcherOrigin_of_settled hd hr fun f next heq =>
          hF g f next (heq ▸ hg)
        refine Or.inr ⟨o, ?_, hor⟩
        simp only [made, hg, hd, Option.bind_some, Option.any_some, hsettles, if_true, ho]
  | call e =>
    obtain ⟨hallows, calls, hcalls, rfl⟩ := call_cases h
    rcases Client.holds_of_step hcalls hr with hr | ⟨k, c, a, o, rfl, hc, ho, hor⟩ | ⟨-, hr⟩
    · exact Or.inl hr
    · refine Or.inr ⟨o, ?_, hor⟩
      simp only [made, hc, Option.bind_some, ho]
    · cases e with
      | begin k kind => cases hr
      | call k a => cases hr
      | heartbeat => cases hr
      | response message => cases hallows
      | failTimedOut now => cases hallows
      | failAll f => cases hallows
      | wake w => cases hr

/-- **Every result that is in a client was made by a step of its run.** -/
theorem exists_made {es : List Act} {t : RpcClient} (h : exec step {} es = some t)
    {r : RpcCallResult} (hr : t.calls.Holds r) :
    ∃ o ∈ observe step made {} es, o.result = r := by
  have hinv := @exec_history _ _ step {}
    (fun es t => exec step {} es = some t ∧ t.Failing ∧
      ∀ r, t.calls.Holds r → ∃ o ∈ observe step made {} es, o.result = r) ?_ ?_ es t h
  · exact hinv.2.2 r hr
  · refine ⟨rfl, ?_, ?_⟩
    · intro g f next hl
      cases hl
    · rintro r (⟨id, slot, hl, -⟩ | ⟨k, hk⟩ | ⟨k, c, hl, -⟩)
      · cases hl
      · cases hk
      · cases hl
  · rintro es s a t ⟨hs, hF, hmade⟩ hstep
    refine ⟨exec_concat.2 ⟨s, hs, hstep⟩, hF.step hstep, fun r hr => ?_⟩
    rw [observe_concat hs]
    rcases holds_of_step hF hstep hr with hr | ⟨o, ho, hor⟩
    · obtain ⟨o, ho, hor⟩ := hmade r hr
      exact ⟨o, List.mem_append_left _ ho, hor⟩
    · exact ⟨o, List.mem_append_right _ (by rw [ho]; exact List.mem_singleton_self o), hor⟩

end RpcClient

/-! ### Which results are told apart -/

namespace Origin

/-- `IsConnectionError` tells the result by its origin.  The pool goes by that: only
a failure of the transport is tried again or recorded as unreachable, and none of
them as reachable. -/
structure Classified (o : Origin) : Prop where
  text : isConnectionError o.result = o.isTransport
  pool : ∀ setup s k left t, RpcClientPool.step setup s (.finish k o.result left) = some t →
    ∃ op i again, t.operations.lookup k = some op ∧
      op.place = .recording i
        (if o.isTransport then Ending.unreachable else .reachable).recording again ∧
      (again = true → o.isTransport = true)

/-- A failure with a text that begins with one of those that are looked for. -/
theorem isConnectionError_failure (text : String) {start rest : String}
    (htext : text ∈ connectionTexts) (hstart : text.toList <+: start.toList) :
    isConnectionError (.failure .internalError (start ++ rest)) = true := by
  refine Bool.and_eq_true_iff.2 ⟨rfl, List.any_eq_true.2 ⟨text, htext, decide_eq_true ?_⟩⟩
  have happend : (start ++ rest).toList = start.toList ++ rest.toList := String.toList_append
  show text.toList <:+: (start ++ rest).toList
  rw [happend]
  exact (hstart.trans (List.prefix_append ..)).isInfix

/-- The code of a response is an error unless the number on the wire is `0`. -/
theorem isError_fromProtoErrorCode (code : ℤ) :
    (fromProtoErrorCode code).isError = false ↔ code = 0 := by
  unfold fromProtoErrorCode
  split_ifs with h₀ h₁ h₂ h₃
  · exact iff_of_true rfl h₀
  all_goals exact iff_of_false (by decide) h₀

/-- An error of the server is taken for one of the connection if one of the texts is
in its message. -/
theorem isConnectionError_mapped (message : RpcResponse) :
    isConnectionError (mapped message) = false ↔ (Origin.response message).told = true := by
  have hok : (mapped message).status.ok = true ↔ message.errorCode = 0 := by
    rw [← isError_fromProtoErrorCode, ← Bool.not_eq_true']
    rfl
  have htexts : (connectionTexts.any fun text => decide
        (text.toList <:+: (mapped message).status.message.toList)) = false ↔
      (connectionTexts.all fun text =>
        !decide (text.toList <:+: message.errorMsg.toList)) = true := by
    rw [List.any_eq_false, List.all_eq_true]
    refine forall₂_congr fun text _ => ?_
    rw [Bool.not_eq_true, Bool.not_eq_true']
    exact Iff.rfl
  show (!(mapped message).status.ok && connectionTexts.any fun text =>
    decide (text.toList <:+: (mapped message).status.message.toList)) = false ↔ _
  rw [Bool.and_eq_false_iff, htexts, told, Bool.or_eq_true, decide_eq_true_iff, ← hok]
  simp

/-- **The text tells the origin**, if it is one of those for which it does. -/
theorem isConnectionError_iff (o : Origin) :
    isConnectionError o.result = o.isTransport ↔ o.told = true := by
  cases o with
  | send writeError =>
    exact iff_of_true (isConnectionError_failure "send request failed" (by decide)
      (by decide)) rfl
  | readError what =>
    exact iff_of_true (isConnectionError_failure "dispatcher stopped" (by decide)
      (by decide)) rfl
  | response message => exact isConnectionError_mapped message
  | _ => decide +kernel

/-- What the pool does with a result depends on `IsConnectionError` alone. -/
theorem classified_iff_told (o : Origin) : o.Classified ↔ o.told = true := by
  rw [← isConnectionError_iff]
  refine ⟨fun h => h.text, fun htext => ⟨htext, ?_⟩⟩
  intro setup s k left t h
  simp only [RpcClientPool.step] at h
  split at h
  · rename_i kind i attempted failed hl
    obtain rfl := Option.some.inj h
    refine ⟨_, i, _, AList.lookup_insert _, by rw [htext], ?_⟩
    intro hagain
    exact (Bool.and_eq_true_iff.1 (Bool.and_eq_true_iff.1 hagain).1).2
  · cases h

end Origin

namespace RpcClient

/-- **Which results the pool tells apart.**  In every run of a client, each result
that a call receives was made by a step of the run.  All results of a run are told
apart, those of the transport from all others, if and only if none of them is that
of an event loop that could not be set up or of a stream that could not be decoded,
and no server puts one of the texts into the message of an error. -/
theorem classified_iff {es : List Act} {t : RpcClient} (h : exec step {} es = some t) :
    (∀ k c, t.calls.calls.lookup k = some c → ∀ r ∈ c.received,
      ∃ o ∈ observe step made {} es, o.result = r) ∧
    ((∀ o ∈ observe step made {} es, o.Classified) ↔
      ∀ o ∈ observe step made {} es, o.told = true) := by
  constructor
  · intro k c hl r hr
    exact exists_made h (Or.inr (Or.inr ⟨k, c, hl, Or.inl hr⟩))
  · exact forall₂_congr fun o _ => o.classified_iff_told

/-- An error of the server: a call it made itself timed out. -/
def upstreamTimeout : RpcResponse := ⟨"1", 3, "upstream call timeout", []⟩

/-- A call is answered by that error. -/
def timeoutAnswered : List Act :=
  [.connect 0 true, .dispatcher 0 .start, .dispatcher 0 .ready, .dispatcher 0 .check,
    .call (.begin 0 .callAsync), .call (.call 0 .add), .call (.call 0 .sendOk),
    .call (.call 0 (.bind 5)), .dispatcher 0 (.drain false), .dispatcher 0 .load,
    .dispatcher 0 (.response upstreamTimeout)]

theorem classified_iff_timeoutAnswered :
    ∃ t, exec step {} timeoutAnswered = some t ∧
      ((∀ k c, t.calls.calls.lookup k = some c → ∀ r ∈ c.received,
          ∃ o ∈ observe step made {} timeoutAnswered, o.result = r) ∧
        ((∀ o ∈ observe step made {} timeoutAnswered, o.Classified) ↔
          ∀ o ∈ observe step made {} timeoutAnswered, o.told = true)) :=
  ⟨_, rfl, classified_iff rfl⟩

/-- **An error of the server is taken for one of the connection.** -/
theorem timeoutAnswered_not_classified :
    ¬ ∀ (es : List Act) (t : RpcClient), exec step {} es = some t →
      ∀ o ∈ observe step made {} es, isConnectionError o.result = o.isTransport := by
  intro h
  have hmade : observe step made {} timeoutAnswered = [.response upstreamTimeout] := by decide
  have htext := h timeoutAnswered _ rfl _ (hmade ▸ List.mem_singleton_self _)
  exact absurd htext (by decide)

end RpcClient
end Client
end MiniRpc
