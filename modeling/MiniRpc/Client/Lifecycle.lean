/-
# The connection of a client

`Connect`, `Close` and the control flow of `DispatcherLoop` in
`src/client/rpc_client.cpp`, around the calls of `MiniRpc.Client.Calls`.  A
socket and the dispatcher thread that is started for it have the same number;
`sock_`, `dispatcher_running_` and the joinable thread are set and reset under
`connect_mu_`, so `Connect` and the first part of `Close` are one step each.
Every other access to them by the dispatchers is a step of its own.  Any number
of threads may be inside `Close` at once, and a dispatcher may outlive the socket
it was started for.

What the dispatcher sees of the event loop, the socket and the clock is free:
the steps say which way it goes, so the captured descriptor and `event_loop_` do
not appear.  On the table of pending calls it acts by the events `response`,
`failTimedOut` and `failAll` of the calls, which happen here only where the
dispatcher or `Close` is at that point.

A dispatcher that gives up fails all pending calls, or finds that there are
none, and then clears `dispatcher_running_`; it leaves `sock_` as it is, and
`Connect` goes by `sock_` alone.  `served` says when a call that waits still has
somebody to answer it.
-/

import MiniRpc.Client.Dispatcher
import MiniRpc.Client.Invariant

namespace MiniRpc
namespace Client

open Transition

/-- Where a dispatcher goes after `dispatcher_running_.store(false)`: to the test
of its loop, to the test after the drain, or out of the function. -/
inductive AfterStop where
  | loop
  | load
  | exit
  deriving DecidableEq, Repr

/-- Where a dispatcher thread stands. -/
inductive DispatcherPc where
  | starting
  | setup
  /-- `while (dispatcher_running_.load())`. -/
  | looping
  /-- `WaitOnce`. -/
  | waiting
  /-- `FailTimedOut` is done, the heartbeat is checked. -/
  | ticked
  /-- The socket was read, `dispatcher_running_` is tested. -/
  | drained (peerClosed : Bool)
  /-- `HandleReadableFrames`. -/
  | handling (peerClosed : Bool)
  /-- The peer closed, `Size` is asked. -/
  | sizing
  /-- `FailAll` with this result, some time after the decision to call it. -/
  | failing (result : RpcCallResult) (next : AfterStop)
  /-- `dispatcher_running_.store(false)`. -/
  | stopping (next : AfterStop)
  /-- `event_loop_.reset()`. -/
  | leaving
  | exited
  deriving DecidableEq, Repr

/-- Before `dispatcher_running_.store(false)`. -/
def DispatcherPc.isStopping : DispatcherPc → Bool
  | .stopping _ => true
  | _ => false

/-- Out of the loop. -/
def DispatcherPc.isGone : DispatcherPc → Bool
  | .leaving => true
  | .exited => true
  | _ => false

/-- A step of a dispatcher thread. -/
inductive DispatcherStep where
  | start
  | initFailed
  | addFailed
  | ready
  | check
  | timeout (now : Time)
  /-- Nothing was received for the heartbeat timeout. -/
  | inactive
  | tick (heartbeat : Bool)
  | wakeup
  | waitError
  | readError (what : String)
  | drain (peerClosed : Bool)
  | load
  | response (message : RpcResponse)
  | badLength
  | badBody
  | framesDone
  | size
  | fail
  | stop
  | leave

/-- A thread inside `Close`. -/
inductive Closing where
  | joining (thread : Option ℕ)
  | failing
  deriving DecidableEq, Repr

/-- `RpcClient`, with its threads; `admitted` are the callers whose `Connect`
returned true. -/
structure RpcClient where
  calls : State := {}
  sock : Option ℕ := none
  thread : Option ℕ := none
  running : Bool := false
  generations : ℕ := 0
  dispatchers : Table ℕ DispatcherPc := ∅
  closers : Table ℕ Closing := ∅
  admitted : List ℕ := []

namespace RpcClient

/-- One step of one thread. -/
inductive Act where
  /-- `Connect`, called for caller `k`; whether a new connection was established. -/
  | connect (k : ℕ) (established : Bool)
  /-- The part of `Close` under the lock. -/
  | closeBegin (t : ℕ)
  | closeJoin (t : ℕ)
  | closeFail (t : ℕ)
  | dispatcher (g : ℕ) (step : DispatcherStep)
  /-- A step of a caller, or a wake-up. -/
  | call (e : Event)

/-- The part of `DispatcherLoop` one step is: where it leads, and what it does to
the calls. -/
def dispatcherStep (sock running : Bool) (size : ℕ) :
    DispatcherPc → DispatcherStep → Option (DispatcherPc × Option Event)
  | .starting, .start => some (if sock then .setup else .exited, none)
  | .setup, .initFailed =>
    some (.stopping .exit, some (.failAll (.failure .internalError "event loop init failed")))
  | .setup, .addFailed =>
    some (if running then .failing (.failure .internalError "event loop add fd failed") .exit
      else .exited, none)
  | .setup, .ready => some (.looping, none)
  | .looping, .check => some (if running then .waiting else .leaving, none)
  | .waiting, .timeout now => some (.ticked, some (.failTimedOut now))
  | .ticked, .inactive =>
    some (.stopping .loop,
      some (.failAll (.failure .internalError "connection inactive (heartbeat timeout)")))
  | .ticked, .tick heartbeat => some (.looping, if heartbeat then some .heartbeat else none)
  | .waiting, .wakeup => some (.looping, none)
  | .waiting, .waitError =>
    some (.stopping .loop,
      some (.failAll (.failure .internalError "dispatcher stopped: event loop error")))
  | .waiting, .readError what =>
    some (.stopping .load, some (.failAll (Dispatcher.readFailure what)))
  | .waiting, .drain peerClosed => some (.drained peerClosed, none)
  | .drained peerClosed, .load => some (if running then .handling peerClosed else .looping, none)
  | .handling peerClosed, .response message => some (.handling peerClosed, some (.response message))
  | .handling _, .badLength => some (.stopping .loop, some (.failAll Dispatcher.lengthFailure))
  | .handling _, .badBody => some (.stopping .loop, some (.failAll Dispatcher.parseFailure))
  | .handling peerClosed, .framesDone => some (if peerClosed then .sizing else .looping, none)
  | .sizing, .size =>
    some (if 0 < size then .failing Dispatcher.closedFailure .loop else .stopping .loop, none)
  | .failing result next, .fail => some (.stopping next, some (.failAll result))
  | .stopping .loop, .stop => some (.looping, none)
  | .stopping .load, .stop => some (.drained false, none)
  | .stopping .exit, .stop => some (.exited, none)
  | .leaving, .leave => some (.exited, none)
  | _, _ => none

/-- A step of a caller that can happen here: a call begins once its `Connect`
returned true, and a request is sent on the socket that is there. -/
def allows (s : RpcClient) : Event → Bool
  | .begin k _ => k ∈ s.admitted
  | .call _ .sendOk => s.sock.isSome
  | .call _ (.sendError writeError) => if s.sock.isSome then writeError ≠ "" else writeError = ""
  | .call _ _ => true
  | .wake _ => true
  | _ => false

/-- What a step does to everything but the calls, and the event it is for them. -/
def control (s : RpcClient) : Act → Option (RpcClient × Option Event)
  | .connect k established =>
    if s.sock.isSome then some ({ s with admitted := k :: s.admitted }, none)
    else if established then
      some ({ s with
        admitted := k :: s.admitted
        sock := some s.generations
        thread := some s.generations
        running := true
        generations := s.generations + 1
        dispatchers := s.dispatchers.insert s.generations .starting }, none)
    else some (s, none)
  | .closeBegin t =>
    if (s.closers.lookup t).isSome then none
    else
      some ({ s with
        running := false
        sock := none
        thread := none
        closers := s.closers.insert t (.joining s.thread) }, none)
  | .closeJoin t =>
    match s.closers.lookup t with
    | some (.joining none) => some ({ s with closers := s.closers.insert t .failing }, none)
    | some (.joining (some g)) =>
      if s.dispatchers.lookup g = some .exited then
        some ({ s with closers := s.closers.insert t .failing }, none)
      else none
    | _ => none
  | .closeFail t =>
    match s.closers.lookup t with
    | some .failing =>
      some ({ s with closers := s.closers.erase t },
        some (.failAll (.failure .internalError "connection closed")))
    | _ => none
  | .dispatcher g a =>
    match s.dispatchers.lookup g with
    | none => none
    | some pc =>
      (dispatcherStep s.sock.isSome s.running s.calls.pending.size pc a).map fun (pc', e) =>
        ({ s with
          dispatchers := s.dispatchers.insert g pc'
          running := match a with
            | .stop => false
            | _ => s.running }, e)
  | .call e => if s.allows e then some (s, some e) else none

/-- One step, `none` if it cannot happen in the state. -/
def step (s : RpcClient) (a : Act) : Option RpcClient :=
  match s.control a with
  | none => none
  | some (s', none) => some s'
  | some (s', some e) => (Client.step s.calls e).map fun calls => { s' with calls }

/-! ### When a call that waits is served -/

/-- A waiter is bound to a slot that is not done. -/
def Awaited (s : RpcClient) : Prop :=
  ∃ id slot, s.calls.pending.slots.lookup id = some slot ∧ slot.done = false ∧
    (slot.asyncBound = true ∨ slot.coroutineBound = true)

/-- The dispatcher of the socket has not exited and is to go on. -/
def Served (s : RpcClient) : Prop :=
  s.running = true ∧ ∃ g pc, s.sock = some g ∧ s.dispatchers.lookup g = some pc ∧ pc ≠ .exited

/-- A dispatcher has failed the pending calls, or found none, and is about to
clear `dispatcher_running_`. -/
def stopping (s : RpcClient) : Bool :=
  s.dispatchers.entries.any fun e => e.2.isStopping

/-- There is a socket, but `dispatcher_running_` is false. -/
def orphaned (s : RpcClient) : Bool := s.sock.isSome && !s.running

/-- No `Connect` takes an orphaned socket for a connection, and no `Add` comes
after the last `FailAll` of a dispatcher that stops. -/
def spares (s : RpcClient) : Act → Bool
  | .connect _ _ => !s.orphaned
  | .call (.call _ .add) => !s.orphaned && !s.stopping
  | _ => true

/-! ### The calls under the steps -/

/-- Every slot is done. -/
def Idle (calls : State) : Prop :=
  ∀ id slot, calls.pending.slots.lookup id = some slot → slot.done = true

/-- A slot is not done although its request was sent: its waiter is bound, or is
about to be. -/
def Expecting (calls : State) : Prop :=
  ∃ id slot, calls.pending.slots.lookup id = some slot ∧ slot.done = false ∧
    (slot.asyncBound = true ∨ slot.coroutineBound = true ∨
      ∃ k c, calls.calls.lookup k = some c ∧ c.pc = .sent ∧ c.requestId = id)

theorem Idle.not_expecting {calls : State} (h : Idle calls) : ¬ Expecting calls := by
  rintro ⟨id, slot, hl, hopen, -⟩
  rw [h id slot hl] at hopen
  cases hopen

/-- Only `Add` ends the rest. -/
theorem Idle.step {c c' : State} {e : Event} (hI : Idle c) (h : Client.step c e = some c')
    (hadd : ∀ k, e ≠ .call k .add) : Idle c' := by
  intro id slot hl
  by_contra hd
  rcases open_of_step h hl (by simpa using hd) with
    h | ⟨k, rfl, -⟩ | ⟨-, -, -, x, -, -, -, -, hx, hxd⟩
  · exact hd (hI id slot h)
  · exact hadd k rfl
  · rw [hI id x hx] at hxd
    cases hxd

theorem idle_of_failAll {c c' : State} {r : RpcCallResult}
    (h : Client.step c (.failAll r) = some c') : Idle c' := by
  intro id slot hl
  by_contra hd
  obtain rfl := Option.some.inj h
  cases (PendingCalls.open_of_sweep hl (by simpa using hd)).2

theorem idle_of_size {c : State} (h : c.pending.size = 0) : Idle c := by
  intro id slot hl
  have hmem := AList.mem_lookup_iff.1 hl
  rw [List.eq_nil_of_length_eq_zero h] at hmem
  cases hmem

/-- **A slot comes to expect a response when its request is sent**, and by
nothing else. -/
theorem expecting_of_step {L : ℕ → Life} {c c' : State} {e : Event} (hI : Inv L c)
    (h : Client.step c e = some c') (hx : Expecting c') :
    Expecting c ∨ (∃ k, e = .call k .sendOk) ∧ ¬ Idle c := by
  obtain ⟨id, slot, hl, hopen, hwhy⟩ := hx
  rcases open_of_step h hl hopen with
    hold | ⟨j, rfl, hnone, rfl⟩ | ⟨j, d, -, x, -, hd, hpc, hid, hx, hxd⟩
  · rcases hwhy with hb | hb | ⟨k, d', hd', hpc', hid⟩
    · exact Or.inl ⟨id, slot, hold, hopen, Or.inl hb⟩
    · exact Or.inl ⟨id, slot, hold, hopen, Or.inr (Or.inl hb)⟩
    · rcases sent_of_step h hd' hpc' with ⟨d, hd, hpc, hid'⟩ | rfl
      · exact Or.inl ⟨id, slot, hold, hopen, Or.inr (Or.inr ⟨k, d, hd, hpc, hid'.trans hid⟩)⟩
      · refine Or.inr ⟨⟨k, rfl⟩, fun hidle => ?_⟩
        rw [hidle id slot hold] at hopen
        cases hopen
  · -- the slot is new and unbound, and a call that has sent has its slot already
    rcases hwhy with hb | hb | ⟨k, d', hd', hpc', hid⟩
    · cases hb
    · cases hb
    · rcases sent_of_step h hd' hpc' with ⟨d, hd, hpc, hid'⟩ | he
      · obtain ⟨y, hy⟩ := hI.slot_of_sent hd hpc
        rw [hid', hid, hnone] at hy
        cases hy
      · cases he
  · exact Or.inl ⟨id, x, hx, hxd, Or.inr (Or.inr ⟨j, d, hd, hpc, hid⟩)⟩

/-! ### What a step of a dispatcher can do -/

/-- The event is one of a dispatcher, which begins no call and takes no step of
one. -/
def ofDispatcher : Event → Bool
  | .begin _ _ => false
  | .call _ _ => false
  | _ => true

section DispatcherStep

variable {sock running : Bool} {size : ℕ} {pc pc' : DispatcherPc} {a : DispatcherStep}
  {e : Option Event}

theorem ofDispatcher_of_dispatcherStep
    (h : dispatcherStep sock running size pc a = some (pc', e)) : ∀ x ∈ e, ofDispatcher x := by
  unfold dispatcherStep at h
  split at h <;> cases h <;> simp [ofDispatcher]

/-- A dispatcher that is about to stop has just failed all calls, or found the
table empty. -/
theorem stopping_of_dispatcherStep (h : dispatcherStep sock running size pc a = some (pc', e))
    (hpc : pc'.isStopping) : (∃ r, e = some (.failAll r)) ∨ e = none ∧ size = 0 := by
  unfold dispatcherStep at h
  split at h <;> cases h <;> try split_ifs at hpc
  all_goals simp_all [DispatcherPc.isStopping]

/-- A dispatcher leaves its loop, or does not enter it, when it finds
`dispatcher_running_` cleared, has cleared it, or finds no socket. -/
theorem gone_of_dispatcherStep (h : dispatcherStep sock running size pc a = some (pc', e))
    (hpc : pc'.isGone) : running = false ∨ sock = false ∨ a = .stop ∨ pc.isGone := by
  unfold dispatcherStep at h
  split at h <;> cases h <;> try split_ifs at hpc
  all_goals simp_all [DispatcherPc.isGone]

/-- `dispatcher_running_.store(false)` is a step of a dispatcher that is about to
stop, and does nothing to the calls. -/
theorem stop_of_dispatcherStep
    (h : dispatcherStep sock running size pc .stop = some (pc', e)) :
    pc.isStopping ∧ e = none := by
  unfold dispatcherStep at h
  split at h <;> cases h <;> simp_all [DispatcherPc.isStopping]

end DispatcherStep

/-! ### The invariant -/

theorem stopping_iff {s : RpcClient} :
    s.stopping = true ↔ ∃ g pc, s.dispatchers.lookup g = some pc ∧ pc.isStopping = true := by
  rw [stopping, List.any_eq_true]
  constructor
  · rintro ⟨e, he, hpc⟩
    exact ⟨e.1, e.2, AList.mem_lookup_iff.2 he, hpc⟩
  · rintro ⟨g, pc, hg, hpc⟩
    exact ⟨⟨g, pc⟩, AList.mem_lookup_iff.1 hg, hpc⟩

/-- Who stops after a dispatcher moved is that dispatcher, or stopped before. -/
theorem stopping_of_insert {s t : RpcClient} {g : ℕ} {pc : DispatcherPc}
    (hd : t.dispatchers = s.dispatchers.insert g pc) (h : t.stopping = true) :
    pc.isStopping = true ∨ s.stopping = true := by
  obtain ⟨g', pc', hl, hpc⟩ := stopping_iff.1 h
  rw [hd] at hl
  by_cases hg : g' = g
  · rw [hg, AList.lookup_insert] at hl
    obtain rfl := Option.some.inj hl
    exact Or.inl hpc
  · rw [AList.lookup_insert_ne hg] at hl
    exact Or.inr (stopping_iff.2 ⟨g', pc', hl, hpc⟩)

/-- Somebody will see to the calls that wait: a thread inside `Close`, or the
dispatcher of the socket. -/
def Guarded (s : RpcClient) : Prop :=
  (∃ t, (s.closers.lookup t).isSome) ∨ s.sock.isSome = true ∧ s.running = true

/-- What holds of a client in every run that spares it. -/
structure Sound (s : RpcClient) : Prop where
  lives : ∃ L, Inv L s.calls
  /-- The dispatcher of the socket leaves its loop only if
  `dispatcher_running_` is false. -/
  current : ∀ g, s.sock = some g →
    ∃ pc, s.dispatchers.lookup g = some pc ∧ (pc.isGone = true → s.running = false)
  /-- Nothing is pending once a dispatcher gives up. -/
  idle : s.stopping = true ∨ s.orphaned = true → Idle s.calls
  guarded : Expecting s.calls → s.Guarded

/-- A step of a dispatcher moves the dispatcher, and the calls by at most one
event; only `dispatcher_running_.store(false)` changes anything else. -/
theorem dispatcher_cases {s t : RpcClient} {g : ℕ} {a : DispatcherStep}
    (h : step s (.dispatcher g a) = some t) :
    ∃ pc pc' e, s.dispatchers.lookup g = some pc ∧
      dispatcherStep s.sock.isSome s.running s.calls.pending.size pc a = some (pc', e) ∧
      t.dispatchers = s.dispatchers.insert g pc' ∧ t.sock = s.sock ∧ t.closers = s.closers ∧
      (a = .stop ∧ t.running = false ∨ a ≠ .stop ∧ t.running = s.running) ∧
      (e = none ∧ t.calls = s.calls ∨ ∃ x, e = some x ∧ Client.step s.calls x = some t.calls) := by
  simp only [step, control] at h
  cases hg : s.dispatchers.lookup g with
  | none => simp [hg] at h
  | some pc =>
    cases hd : dispatcherStep s.sock.isSome s.running s.calls.pending.size pc a with
    | none => simp [hg, hd] at h
    | some r =>
      obtain ⟨pc', e⟩ := r
      simp only [hg, hd, Option.map_some] at h
      cases e with
      | none =>
        obtain rfl := Option.some.inj h
        exact ⟨pc, pc', none, rfl, hd, rfl, rfl, rfl, by cases a <;> simp, Or.inl ⟨rfl, rfl⟩⟩
      | some x =>
        obtain ⟨calls, hx, rfl⟩ := Option.map_eq_some_iff.1 h
        exact ⟨pc, pc', some x, rfl, hd, rfl, rfl, rfl, by cases a <;> simp,
          Or.inr ⟨x, rfl, hx⟩⟩

/-- Only `Connect` and `Close` start a thread or give one away. -/
theorem dispatcher_frame {s t : RpcClient} {g : ℕ} {a : DispatcherStep}
    (hs : step s (.dispatcher g a) = some t) :
    t.thread = s.thread ∧ t.generations = s.generations := by
  simp only [step, control] at hs
  cases hg : s.dispatchers.lookup g with
  | none => simp [hg] at hs
  | some pc =>
    cases hd : dispatcherStep s.sock.isSome s.running s.calls.pending.size pc a with
    | none => simp [hg, hd] at hs
    | some r =>
      obtain ⟨pc', e⟩ := r
      simp only [hg, hd, Option.map_some] at hs
      cases e with
      | none =>
        obtain rfl := Option.some.inj hs
        exact ⟨rfl, rfl⟩
      | some x =>
        obtain ⟨calls, -, rfl⟩ := Option.map_eq_some_iff.1 hs
        exact ⟨rfl, rfl⟩

/-- `Connect` finds a socket, makes a connection, or fails. -/
theorem connect_cases {s t : RpcClient} {k : ℕ} {established : Bool}
    (h : step s (.connect k established) = some t) :
    s.sock.isSome = true ∧ t = { s with admitted := k :: s.admitted } ∨
      s.sock.isSome = false ∧ established = true ∧ t = { s with
        admitted := k :: s.admitted
        sock := some s.generations
        thread := some s.generations
        running := true
        generations := s.generations + 1
        dispatchers := s.dispatchers.insert s.generations .starting } ∨
      t = s := by
  simp only [step, control] at h
  split_ifs at h with hsock hnew
  · exact Or.inl ⟨hsock, (Option.some.inj h).symm⟩
  · exact Or.inr (Or.inl ⟨by simpa using hsock, hnew, (Option.some.inj h).symm⟩)
  · exact Or.inr (Or.inr (Option.some.inj h).symm)

/-- A step of a call, or a wake-up, changes the calls only. -/
theorem call_cases {s t : RpcClient} {e : Event} (h : step s (.call e) = some t) :
    s.allows e = true ∧ ∃ calls, Client.step s.calls e = some calls ∧ t = { s with calls } := by
  simp only [step, control] at h
  split_ifs at h with hallows
  obtain ⟨calls, hcalls, rfl⟩ := Option.map_eq_some_iff.1 h
  exact ⟨hallows, calls, hcalls, rfl⟩

/-- A thread enters `Close`. -/
theorem closeBegin_cases {s t : RpcClient} {c : ℕ} (h : step s (.closeBegin c) = some t) :
    t = { s with
      running := false
      sock := none
      thread := none
      closers := s.closers.insert c (.joining s.thread) } := by
  simp only [step, control] at h
  split_ifs at h
  exact (Option.some.inj h).symm

/-- A thread inside `Close` has joined its dispatcher. -/
theorem closeJoin_cases {s t : RpcClient} {c : ℕ} (h : step s (.closeJoin c) = some t) :
    t = { s with closers := s.closers.insert c .failing } := by
  simp only [step, control] at h
  split at h
  · cases h
  · rename_i heq
    split at heq
    · cases heq
      exact (Option.some.inj h).symm
    · split_ifs at heq
      cases heq
      exact (Option.some.inj h).symm
    · cases heq
  · rename_i heq
    split at heq
    · cases heq
    · split_ifs at heq
      cases heq
    · cases heq

/-- A thread leaves `Close`. -/
theorem closeFail_cases {s t : RpcClient} {c : ℕ} (h : step s (.closeFail c) = some t) :
    ∃ calls,
      Client.step s.calls (.failAll (.failure .internalError "connection closed")) = some calls ∧
        t = { s with closers := s.closers.erase c, calls } := by
  simp only [step, control] at h
  split at h
  · cases h
  · rename_i heq
    split at heq <;> cases heq
  · rename_i heq
    split at heq <;> cases heq
    obtain ⟨calls, hcalls, rfl⟩ := Option.map_eq_some_iff.1 h
    exact ⟨calls, hcalls, rfl⟩

/-- A step keeps the socket, resets it, or makes a new one. -/
theorem sock_of_step {s t : RpcClient} {a : Act} (h : step s a = some t) :
    s.generations ≤ t.generations ∧ (t.sock = s.sock ∨ t.sock = none ∨
      t.sock = some s.generations ∧ t.generations = s.generations + 1) := by
  cases a with
  | connect k established =>
    rcases connect_cases h with ⟨-, rfl⟩ | ⟨-, -, rfl⟩ | rfl
    · exact ⟨le_rfl, Or.inl rfl⟩
    · exact ⟨Nat.le_succ _, Or.inr (Or.inr ⟨rfl, rfl⟩)⟩
    · exact ⟨le_rfl, Or.inl rfl⟩
  | closeBegin c =>
    obtain rfl := closeBegin_cases h
    exact ⟨le_rfl, Or.inr (Or.inl rfl)⟩
  | closeJoin c =>
    obtain rfl := closeJoin_cases h
    exact ⟨le_rfl, Or.inl rfl⟩
  | closeFail c =>
    obtain ⟨calls, -, rfl⟩ := closeFail_cases h
    exact ⟨le_rfl, Or.inl rfl⟩
  | dispatcher g a =>
    obtain ⟨-, -, -, -, -, -, hsock, -⟩ := dispatcher_cases h
    exact ⟨(dispatcher_frame h).2.ge, Or.inl hsock⟩
  | call e =>
    obtain ⟨-, calls, -, rfl⟩ := call_cases h
    exact ⟨le_rfl, Or.inl rfl⟩

namespace Sound

variable {s t : RpcClient}

theorem init : Sound {} where
  lives := ⟨_, inv_init⟩
  current := by simp
  idle := by simp [stopping, orphaned]
  guarded := by
    rintro ⟨id, slot, hl, -⟩
    cases hl

/-- A step of a caller. -/
theorem call {e : Event} (hS : Sound s) (hspares : s.spares (.call e) = true)
    (h : step s (.call e) = some t) : Sound t := by
  obtain ⟨hallows, calls, hcalls, rfl⟩ := call_cases h
  obtain ⟨L, hL⟩ := hS.lives
  refine ⟨(hL.step hcalls).imp fun _ h => h.1, hS.current, ?_, ?_⟩
  · intro hstop
    refine (hS.idle hstop).step hcalls ?_
    rintro k rfl
    simp only [spares, Bool.and_eq_true, Bool.not_eq_true'] at hspares
    rcases hstop with h | h
    · exact Bool.false_ne_true (hspares.2.symm.trans h)
    · exact Bool.false_ne_true (hspares.1.symm.trans h)
  · intro hx
    rcases expecting_of_step hL hcalls hx with hx | ⟨⟨k, rfl⟩, hbusy⟩
    · exact hS.guarded hx
    · -- a request can be sent, so there is a socket; it is not orphaned, since a slot is open
      have hsock : s.sock.isSome = true := hallows
      refine Or.inr ⟨hsock, ?_⟩
      cases hrun : s.running with
      | true => rfl
      | false => exact absurd (hS.idle (Or.inr (by simp [orphaned, hsock, hrun]))) hbusy

theorem connect {k : ℕ} {established : Bool} (hS : Sound s)
    (h : step s (.connect k established) = some t) : Sound t := by
  rcases connect_cases h with ⟨-, rfl⟩ | ⟨-, -, rfl⟩ | rfl
  · exact ⟨hS.lives, hS.current, hS.idle, hS.guarded⟩
  · refine ⟨hS.lives, ?_, ?_, fun _ => Or.inr ⟨rfl, rfl⟩⟩
    · rintro g ⟨⟩
      exact ⟨.starting, AList.lookup_insert _, fun h => by cases h⟩
    · rintro (hstop | horph)
      · rcases stopping_of_insert (s := s) rfl hstop with h | h
        · cases h
        · exact hS.idle (Or.inl h)
      · simp [orphaned] at horph
  · exact hS

theorem closeBegin {c : ℕ} (hS : Sound s) (h : step s (.closeBegin c) = some t) : Sound t := by
  obtain rfl := closeBegin_cases h
  refine ⟨hS.lives, (fun g hg => by cases hg), ?_, fun _ => Or.inl ⟨c, by simp⟩⟩
  rintro (hstop | horph)
  · exact hS.idle (Or.inl hstop)
  · simp [orphaned] at horph

theorem closeJoin {c : ℕ} (hS : Sound s) (h : step s (.closeJoin c) = some t) : Sound t := by
  obtain rfl := closeJoin_cases h
  exact ⟨hS.lives, hS.current, hS.idle, fun _ => Or.inl ⟨c, by simp⟩⟩

/-- Once every slot is done, only the socket and its dispatcher matter. -/
theorem of_idle (hlives : ∃ L, Inv L t.calls)
    (hcurrent : ∀ g, t.sock = some g →
      ∃ pc, t.dispatchers.lookup g = some pc ∧ (pc.isGone = true → t.running = false))
    (hidle : Idle t.calls) : Sound t :=
  ⟨hlives, hcurrent, fun _ => hidle, fun hx => absurd hx hidle.not_expecting⟩

theorem closeFail {c : ℕ} (hS : Sound s) (h : step s (.closeFail c) = some t) : Sound t := by
  obtain ⟨calls, hcalls, rfl⟩ := closeFail_cases h
  obtain ⟨L, hL⟩ := hS.lives
  exact of_idle ((hL.step hcalls).imp fun _ h => h.1) hS.current (idle_of_failAll hcalls)

/-- A step of a dispatcher.  The socket keeps a dispatcher that has left its loop
only with `dispatcher_running_` false, since a dispatcher leaves for no other
reason while there is a socket. -/
theorem dispatcher {g : ℕ} {a : DispatcherStep} (hS : Sound s)
    (h : step s (.dispatcher g a) = some t) : Sound t := by
  obtain ⟨pc, pc', e, hg, hd, hmove, hsock, hclosers, hrunning, hcalls⟩ := dispatcher_cases h
  have hlives : ∃ L, Inv L t.calls := by
    rcases hcalls with ⟨-, heq⟩ | ⟨x, -, hx⟩
    · exact heq ▸ hS.lives
    · obtain ⟨L, hL⟩ := hS.lives
      exact (hL.step hx).imp fun _ h => h.1
  have hcurrent : ∀ g', t.sock = some g' →
      ∃ pc, t.dispatchers.lookup g' = some pc ∧ (pc.isGone = true → t.running = false) := by
    intro g' hg'
    rw [hsock] at hg'
    rw [hmove]
    obtain ⟨pc₀, hl, hgone⟩ := hS.current g' hg'
    have hkeep : s.running = false → t.running = false := by
      rcases hrunning with ⟨-, h⟩ | ⟨-, h⟩
      · exact fun _ => h
      · exact fun hs => h.trans hs
    by_cases heq : g' = g
    · subst heq
      obtain rfl := Option.some.inj (hg.symm.trans hl)
      refine ⟨pc', AList.lookup_insert _, fun hpc' => ?_⟩
      rcases gone_of_dispatcherStep hd hpc' with h | h | rfl | h
      · exact hkeep h
      · rw [hg'] at h
        cases h
      · rcases hrunning with ⟨-, h⟩ | ⟨hne, -⟩
        · exact h
        · exact absurd rfl hne
      · exact hkeep (hgone h)
    · exact ⟨pc₀, (AList.lookup_insert_ne heq).trans hl, fun h => hkeep (hgone h)⟩
  rcases hrunning with ⟨rfl, -⟩ | ⟨-, hrunning⟩
  · -- nothing is pending when `dispatcher_running_` is cleared
    obtain ⟨hpc, rfl⟩ := stop_of_dispatcherStep hd
    rcases hcalls with ⟨-, heq⟩ | ⟨x, hx, -⟩
    · have hidle := hS.idle (Or.inl (stopping_iff.2 ⟨g, pc, hg, hpc⟩))
      exact of_idle hlives hcurrent (heq ▸ hidle)
    · cases hx
  · have hstep : Idle s.calls → Idle t.calls := by
      intro hidle
      rcases hcalls with ⟨-, heq⟩ | ⟨x, rfl, hx⟩
      · exact heq ▸ hidle
      · refine hidle.step hx ?_
        rintro k rfl
        cases ofDispatcher_of_dispatcherStep hd _ rfl
    refine ⟨hlives, hcurrent, ?_, ?_⟩
    · rintro (hstop | horph)
      · rcases stopping_of_insert hmove hstop with hpc' | hstop
        · rcases stopping_of_dispatcherStep hd hpc' with ⟨r, rfl⟩ | ⟨rfl, hsize⟩
          · rcases hcalls with ⟨hx, -⟩ | ⟨x, hx, hfail⟩
            · cases hx
            · obtain rfl := Option.some.inj hx
              exact idle_of_failAll hfail
          · exact hstep (idle_of_size hsize)
        · exact hstep (hS.idle (Or.inl hstop))
      · refine hstep (hS.idle (Or.inr ?_))
        rwa [orphaned, ← hsock, ← hrunning]
    · intro hx
      have hbefore : Expecting s.calls := by
        rcases hcalls with ⟨-, heq⟩ | ⟨x, rfl, hstep⟩
        · exact heq ▸ hx
        · obtain ⟨L, hL⟩ := hS.lives
          rcases expecting_of_step hL hstep hx with h | ⟨⟨k, rfl⟩, -⟩
          · exact h
          · cases ofDispatcher_of_dispatcherStep hd _ rfl
      rw [Guarded, hclosers, hsock, hrunning]
      exact hS.guarded hbefore

/-- **Every step that spares the client keeps it sound.** -/
theorem step {a : Act} (hS : Sound s) (hspares : s.spares a = true)
    (h : RpcClient.step s a = some t) : Sound t := by
  cases a with
  | connect k established => exact hS.connect h
  | closeBegin c => exact hS.closeBegin h
  | closeJoin c => exact hS.closeJoin h
  | closeFail c => exact hS.closeFail h
  | dispatcher g a => exact hS.dispatcher h
  | call e => exact hS.call hspares h

/-- The dispatcher of a socket has not exited while `dispatcher_running_` is
true. -/
theorem not_exited (hS : Sound s) (hrunning : s.running = true) {g : ℕ} (hg : s.sock = some g) :
    ∃ pc, s.dispatchers.lookup g = some pc ∧ pc ≠ .exited := by
  obtain ⟨pc, hl, hgone⟩ := hS.current g hg
  refine ⟨pc, hl, ?_⟩
  rintro rfl
  rw [hgone rfl] at hrunning
  cases hrunning

end Sound

/-- **A call that waits is served, as long as no `Connect` settles for an
orphaned socket and no `Add` comes too late.**  In every run of this kind, while
nobody is inside `Close`, a bound waiter whose slot is not done has the
dispatcher of the socket still at work; and the dispatcher of a socket that
`Connect` finds has not exited. -/
theorem served {es : List Act} {s : RpcClient}
    (hspares : Along step (fun s a => s.spares a = true) {} es)
    (hrun : exec step {} es = some s) :
    (s.Awaited → (∀ t, s.closers.lookup t = none) → s.Served) ∧
      ∀ pre k established post u g, es = pre ++ .connect k established :: post →
        exec step {} pre = some u → u.sock = some g →
        ∃ pc, u.dispatchers.lookup g = some pc ∧ pc ≠ .exited := by
  have hsound : ∀ {es : List Act} {s : RpcClient},
      Along step (fun s a => s.spares a = true) {} es → exec step {} es = some s → Sound s :=
    exec_along (fun _ _ _ hS hspares h => hS.step hspares h) Sound.init
  refine ⟨?_, ?_⟩
  · rintro ⟨id, slot, hl, hopen, hbound⟩ hclosers
    have hS := hsound hspares hrun
    have hx : Expecting s.calls := ⟨id, slot, hl, hopen, hbound.imp_right Or.inl⟩
    rcases hS.guarded hx with ⟨t, ht⟩ | ⟨hsock, hrunning⟩
    · rw [hclosers t] at ht
      cases ht
    · obtain ⟨g, hg⟩ := Option.isSome_iff_exists.1 hsock
      obtain ⟨pc, hpc, hne⟩ := hS.not_exited hrunning hg
      exact ⟨hrunning, g, pc, hg, hpc, hne⟩
  · rintro pre k established post u g rfl hu hg
    have hS := hsound hspares.of_append hu
    have hconnect : u.spares (.connect k established) = true :=
      along_iff.1 hspares pre _ post u rfl hu
    refine hS.not_exited ?_ hg
    simpa [spares, orphaned, hg] using hconnect

/-- A call that waits for its response on a new connection, and a second caller
who finds the connection. -/
theorem served_new_connection : ∃ s,
    exec step {} [.connect 0 true, .dispatcher 0 .start, .dispatcher 0 .ready,
      .call (.begin 0 .callAsync), .call (.call 0 .add), .call (.call 0 .sendOk),
      .call (.call 0 (.bind 5)), .connect 1 true, .dispatcher 0 .check] = some s ∧
    s.Awaited ∧ s.Served := by
  have hawaited : ∀ s, exec step {} [.connect 0 true, .dispatcher 0 .start, .dispatcher 0 .ready,
      .call (.begin 0 .callAsync), .call (.call 0 .add), .call (.call 0 .sendOk),
      .call (.call 0 (.bind 5)), .connect 1 true, .dispatcher 0 .check] = some s → s.Awaited := by
    rintro s ⟨⟩
    exact ⟨"1", _, rfl, rfl, Or.inl rfl⟩
  refine ⟨_, rfl, hawaited _ rfl, ?_⟩
  exact (served (by decide) (rfl : exec step {} [.connect 0 true, .dispatcher 0 .start,
      .dispatcher 0 .ready, .call (.begin 0 .callAsync), .call (.call 0 .add),
      .call (.call 0 .sendOk), .call (.call 0 (.bind 5)), .connect 1 true,
      .dispatcher 0 .check] = some _)).1 (hawaited _ rfl) fun _ => rfl

/-- **A call on a stale socket waits for ever.**  The peer closes, the dispatcher
exits and leaves the socket; the next `Connect` returns true, the send succeeds,
and nobody is left to complete the call or to time it out. -/
theorem stale_socket : ∃ u t s,
    exec step {} [.connect 0 true, .dispatcher 0 .start, .dispatcher 0 .ready,
      .dispatcher 0 .check, .dispatcher 0 (.drain true), .dispatcher 0 .load,
      .dispatcher 0 .framesDone, .dispatcher 0 .size, .dispatcher 0 .stop,
      .dispatcher 0 .check, .dispatcher 0 .leave] = some u ∧
    u.sock = some 0 ∧ u.dispatchers.lookup 0 = some .exited ∧
    step u (.connect 1 true) = some t ∧ 1 ∈ t.admitted ∧ t.sock = some 0 ∧
    exec step t [.call (.begin 1 .callAsync), .call (.call 1 .add), .call (.call 1 .sendOk),
      .call (.call 1 (.bind 5))] = some s ∧
    s.Awaited ∧ (∀ c, s.closers.lookup c = none) ∧ ¬ s.Served := by
  refine ⟨_, _, _, rfl, rfl, rfl, rfl, by decide, rfl, rfl, ?_, fun _ => rfl, ?_⟩
  · exact ⟨"1", _, rfl, rfl, Or.inl rfl⟩
  · rintro ⟨hrunning, -⟩
    cases hrunning

end RpcClient
end Client
end MiniRpc
