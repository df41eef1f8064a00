/-
# The iterations of a dispatcher

`DispatcherLoop` of `src/client/rpc_client.cpp` with a clock: a client
(`MiniRpc.Client.Lifecycle`) whose time passes between any two steps, with the
point at which each dispatcher began the iteration of its loop that it is in.
`FailTimedOut` is called with the time of the clock.

`FailTimedOut` has its place in the branch for a wait that timed out, and an
iteration whose wait returned anything else leaves the deadlines alone.  `timely`
says under which condition no waiter that was due when an iteration began is left
when it ends.
-/

import MiniRpc.Client.Lifecycle

namespace MiniRpc
namespace Client

open Transition

/-- A waiter is bound to a slot that is not done, and its deadline is not after
`t`. -/
def PendingCalls.due (p : PendingCalls ℕ) (t : Time) : Bool :=
  p.slots.entries.any fun e => e.2.timedOut t

/-- In an iteration, `WaitOnce` has returned; the test of the loop is to come. -/
def DispatcherPc.hasReturned : DispatcherPc → Bool
  | .ticked => true
  | .drained _ => true
  | .handling _ => true
  | .sizing => true
  | .failing _ next => next ≠ .exit
  | .stopping next => next ≠ .exit
  | _ => false

/-- A client and the clock; `started` is when the dispatcher tested
`dispatcher_running_` last, which is where an iteration begins. -/
structure TimedClient where
  client : RpcClient := {}
  clock : Time := 0
  started : Table ℕ Time := ∅

namespace TimedClient

/-- One step of one thread, or of the clock. -/
inductive Act where
  | pass (time : Time)
  | act (a : RpcClient.Act)

/-- One step, `none` if it cannot happen in the state. -/
def step (s : TimedClient) : Act → Option TimedClient
  | .pass time => some { s with clock := s.clock + time }
  | .act (.dispatcher g .check) =>
    (s.client.step (.dispatcher g .check)).map fun client =>
      { s with client, started := s.started.insert g s.clock }
  | .act (.dispatcher g (.timeout now)) =>
    if now = s.clock then
      (s.client.step (.dispatcher g (.timeout now))).map fun client => { s with client }
    else none
  | .act a => (s.client.step a).map fun client => { s with client }

/-- When the iteration began in which the dispatcher `g` has come back from
`WaitOnce`. -/
def returned (s : TimedClient) (g : ℕ) : Option Time :=
  (s.client.dispatchers.lookup g).bind fun pc =>
    if pc.hasReturned then s.started.lookup g else none

/-- When the iteration began that the dispatcher `g` is in. -/
def iteration (s : TimedClient) (g : ℕ) : Option Time :=
  (s.client.dispatchers.lookup g).bind fun pc =>
    if pc = .waiting ∨ pc.hasReturned = true then s.started.lookup g else none

/-- `WaitOnce` returns something else than a timeout only while nobody is past a
deadline, as of the beginning of the iteration, or to a dispatcher that is not to go
on; and nobody binds a waiter with a deadline that an iteration is past. -/
def attends (s : TimedClient) : Act → Bool
  | .act (.dispatcher g .wakeup) =>
    !s.client.running || (s.started.lookup g).all fun t => !s.client.calls.pending.due t
  | .act (.dispatcher g (.drain _)) =>
    (s.started.lookup g).all fun t => !s.client.calls.pending.due t
  | .act (.call (.call _ (.bind deadline))) =>
    s.client.dispatchers.entries.all fun e => (s.returned e.1).all fun t => t < deadline
  | _ => true

/-- Whenever an iteration that began at `t` ends and the dispatcher is to go on, no
bound waiter whose slot is not done has a deadline up to `t`. -/
def Timely (s₀ : TimedClient) (es : List Act) : Prop :=
  ∀ pre g a post u v t, es = pre ++ .act (.dispatcher g a) :: post →
    exec step s₀ pre = some u → step u (.act (.dispatcher g a)) = some v →
    u.iteration g = some t → v.client.dispatchers.lookup g = some .looping →
    v.client.running = true → v.client.calls.pending.due t = false

/-! ### What comes to be due -/

section Due

variable {p : PendingCalls ℕ} {t t' : Time}

theorem due_iff : p.due t = true ↔
    ∃ id slot, p.slots.lookup id = some slot ∧ slot.timedOut t = true := by
  rw [PendingCalls.due, List.any_eq_true]
  constructor
  · rintro ⟨e, he, h⟩
    exact ⟨e.1, e.2, AList.mem_lookup_iff.2 he, h⟩
  · rintro ⟨id, slot, hl, h⟩
    exact ⟨⟨id, slot⟩, AList.mem_lookup_iff.1 hl, h⟩

theorem open_of_timedOut {slot : Slot ℕ} (h : slot.timedOut t = true) :
    slot.done = false ∧ slot.deadline ≤ t ∧
      (slot.asyncBound = true ∨ slot.coroutineBound = true) := by
  simp only [Slot.timedOut, Bool.not_eq_true', Bool.or_eq_false_iff, Bool.and_eq_false_iff,
    decide_eq_false_iff_not] at h
  refine ⟨h.1.1, Nat.le_of_not_lt h.1.2, ?_⟩
  simpa using h.2

/-- What is due stays so while time passes. -/
theorem timedOut_mono {slot : Slot ℕ} (hle : t ≤ t') (h : slot.timedOut t = true) :
    slot.timedOut t' = true := by
  obtain ⟨hopen, hdeadline, hbound⟩ := open_of_timedOut h
  have hpast : ¬ t' < slot.deadline := not_lt.2 (hdeadline.trans hle)
  rcases hbound with hb | hb <;> simp [Slot.timedOut, hopen, hpast, hb]

/-- **After `FailTimedOut` nobody is due**, nor was at any time before. -/
theorem not_due_of_failTimedOut {c c' : State} {now : Time}
    (h : Client.step c (.failTimedOut now) = some c') (hle : t ≤ now) :
    c'.pending.due t = false := by
  rw [Bool.eq_false_iff]
  intro hdue
  obtain ⟨id, slot, hl, hslot⟩ := due_iff.1 hdue
  obtain rfl := Option.some.inj h
  have hnow := timedOut_mono hle hslot
  rw [(PendingCalls.open_of_sweep hl (open_of_timedOut hslot).1).2] at hnow
  cases hnow

theorem not_due_of_failAll {c c' : State} {r : RpcCallResult}
    (h : Client.step c (.failAll r) = some c') : c'.pending.due t = false := by
  rw [Bool.eq_false_iff]
  intro hdue
  obtain ⟨id, slot, hl, hslot⟩ := due_iff.1 hdue
  have hdone := RpcClient.idle_of_failAll h id slot hl
  rw [(open_of_timedOut hslot).1] at hdone
  cases hdone

theorem deadline_of_bindAsync {id id' : String} {k : ℕ} {d : Time} {slot : Slot ℕ}
    (h : (p.bindAsync id' k d).1.slots.lookup id = some slot) :
    p.slots.lookup id = some slot ∨ slot.deadline = d := by
  unfold PendingCalls.bindAsync at h
  split at h
  · exact Or.inl h
  split_ifs at h
  · exact Or.inl h
  · exact Or.inl h
  · exact Or.inl (Table.lookup_of_erase h)
  · by_cases hid : id = id'
    · rw [hid, AList.lookup_insert] at h
      obtain rfl := Option.some.inj h
      exact Or.inr rfl
    · rw [AList.lookup_insert_ne hid] at h
      exact Or.inl h

theorem deadline_of_bindCoroutine {id id' : String} {k : ℕ} {d : Time} {slot : Slot ℕ}
    (h : (p.bindCoroutine id' k d).1.slots.lookup id = some slot) :
    p.slots.lookup id = some slot ∨ slot.deadline = d := by
  unfold PendingCalls.bindCoroutine at h
  split at h
  · exact Or.inl h
  split_ifs at h
  · exact Or.inl h
  · exact Or.inl h
  · exact Or.inl h
  · by_cases hid : id = id'
    · rw [hid, AList.lookup_insert] at h
      obtain rfl := Option.some.inj h
      exact Or.inr rfl
    · rw [AList.lookup_insert_ne hid] at h
      exact Or.inl h

/-- A waiter that is bound has the deadline it is bound with. -/
theorem deadline_of_callStep {p' : PendingCalls ℕ} {k : ℕ} {c c' : Call} {d : Time}
    {ws : List (Wake ℕ)} (h : callStep p k c (.bind d) = some (p', ws, c')) {id : String}
    {slot : Slot ℕ} (hl : p'.slots.lookup id = some slot) :
    p.slots.lookup id = some slot ∨ slot.deadline = d := by
  unfold callStep at h
  split at h <;> rename_i hstep <;> try cases hstep
  · split at h
    · have hp : p' = (p.bindAsync c.requestId k d).1 := by
        split at h <;> rename_i heq <;> cases h <;> rw [heq]
      rw [hp] at hl
      exact deadline_of_bindAsync hl
    · have hp : p' = (p.bindCoroutine c.requestId k d).1 := by
        split at h <;> rename_i heq <;> cases h <;> rw [heq]
      rw [hp] at hl
      exact deadline_of_bindCoroutine hl
  · cases h

/-- **Only binding a waiter makes one due**, at a given time. -/
theorem due_of_step {c c' : State} {e : Event} (h : Client.step c e = some c')
    (hdue : c'.pending.due t = true) :
    c.pending.due t = true ∨ ∃ k d, e = .call k (.bind d) ∧ d ≤ t := by
  obtain ⟨id, slot, hl, hslot⟩ := due_iff.1 hdue
  obtain ⟨hopen, hdeadline, hbound⟩ := open_of_timedOut hslot
  rcases open_of_step h hl hopen with
    hl' | ⟨k, rfl, -, rfl⟩ | ⟨k, b, d, x, rfl, hb, -, -, -, -⟩
  · exact Or.inl (due_iff.2 ⟨id, slot, hl', hslot⟩)
  · rcases hbound with hbound | hbound <;> cases hbound
  · simp only [Client.step, hb] at h
    split at h
    · cases h
    rename_i p' ws b' hstep
    obtain rfl := Option.some.inj h
    rcases deadline_of_callStep hstep hl with hl' | rfl
    · exact Or.inl (due_iff.2 ⟨id, slot, hl', hslot⟩)
    · exact Or.inr ⟨k, _, rfl, hdeadline⟩

end Due

/-! ### What a step of a dispatcher does -/

section DispatcherStep

variable {sock running : Bool} {size : ℕ} {pc pc' : DispatcherPc} {a : DispatcherStep}
  {e : Option Event}

/-- How a dispatcher comes back from `WaitOnce` without leaving the function. -/
theorem hasReturned_of_dispatcherStep
    (h : RpcClient.dispatcherStep sock running size pc a = some (pc', e))
    (hpc : pc'.hasReturned = true) :
    pc.hasReturned = true ∨ (∃ now, a = .timeout now ∧ e = some (.failTimedOut now)) ∨
      (∃ peerClosed, a = .drain peerClosed) ∨ ∃ r, e = some (.failAll r) := by
  unfold RpcClient.dispatcherStep at h
  split at h <;> (try split_ifs at h) <;> cases h <;> simp_all [DispatcherPc.hasReturned]

/-- The test of the loop begins an iteration or leaves the loop. -/
theorem hasReturned_of_check
    (h : RpcClient.dispatcherStep sock running size pc .check = some (pc', e)) :
    pc'.hasReturned = false := by
  unfold RpcClient.dispatcherStep at h
  split at h <;> (try split_ifs at h) <;> cases h <;> simp_all [DispatcherPc.hasReturned]

/-- Where a dispatcher comes to the test of its loop from. -/
theorem looping_of_dispatcherStep
    (h : RpcClient.dispatcherStep sock running size pc a = some (.looping, e)) :
    pc.hasReturned = true ∨ a = .wakeup ∧ e = none ∨ pc = .setup := by
  unfold RpcClient.dispatcherStep at h
  split at h <;> (try split_ifs at h) <;> cases h <;> simp_all [DispatcherPc.hasReturned]

end DispatcherStep

/-- What a step of a thread does to the clock and to the iterations. -/
theorem act_cases {s t : TimedClient} {a : RpcClient.Act} (h : step s (.act a) = some t) :
    s.client.step a = some t.client ∧ t.clock = s.clock ∧
      ((∃ g, a = .dispatcher g .check ∧ t.started = s.started.insert g s.clock) ∨
        (∀ g, a ≠ .dispatcher g .check) ∧ t.started = s.started) ∧
      ∀ g now, a = .dispatcher g (.timeout now) → now = s.clock := by
  unfold step at h
  split at h
  · rename_i heq
    cases heq
  · rename_i g heq
    cases heq
    obtain ⟨client, hclient, rfl⟩ := Option.map_eq_some_iff.1 h
    exact ⟨hclient, rfl, Or.inl ⟨g, rfl, rfl⟩, by rintro _ _ ⟨⟩⟩
  · rename_i g now heq
    cases heq
    split_ifs at h with hnow
    obtain ⟨client, hclient, rfl⟩ := Option.map_eq_some_iff.1 h
    refine ⟨hclient, rfl, Or.inr ⟨by rintro _ ⟨⟩, rfl⟩, ?_⟩
    rintro _ _ ⟨⟩
    exact hnow
  · rename_i hcheck htimeout heq
    cases heq
    obtain ⟨client, hclient, rfl⟩ := Option.map_eq_some_iff.1 h
    refine ⟨hclient, rfl, Or.inr ⟨?_, rfl⟩, ?_⟩
    · rintro g rfl
      exact hcheck g rfl
    · rintro g now rfl
      exact absurd rfl (htimeout g now)

/-- A step of a dispatcher makes nobody due, since it binds no waiter. -/
theorem not_due_of_dispatcher {c c' : RpcClient} {g : ℕ} {a : DispatcherStep} {b : Time}
    (h : c.step (.dispatcher g a) = some c') (hb : c.calls.pending.due b = false) :
    c'.calls.pending.due b = false := by
  obtain ⟨pc, pc', e, -, hd, -, -, -, -, hcalls⟩ := RpcClient.dispatcher_cases h
  rw [Bool.eq_false_iff]
  intro hdue
  rcases hcalls with ⟨-, heq⟩ | ⟨x, rfl, hx⟩
  · rw [heq, hb] at hdue
    cases hdue
  · rcases due_of_step hx hdue with hdue | ⟨k, d, rfl, -⟩
    · rw [hb] at hdue
      cases hdue
    · cases RpcClient.ofDispatcher_of_dispatcherStep hd _ rfl

/-- What holds in every run that attends to the deadlines: an iteration began in
the past, and once `WaitOnce` has returned in it nobody is due as of its
beginning. -/
structure Prompt (s : TimedClient) : Prop where
  past : ∀ g t, s.started.lookup g = some t → t ≤ s.clock
  notDue : ∀ g pc t, s.client.dispatchers.lookup g = some pc → pc.hasReturned = true →
    s.started.lookup g = some t → s.client.calls.pending.due t = false

namespace Prompt

variable {s t : TimedClient}

theorem init : Prompt {} where
  past := by
    intro g t hl
    cases hl
  notDue := by
    intro g pc t hl
    cases hl

/-- A step that begins no iteration keeps the beginnings in the past. -/
theorem past_of_started (h : s.Prompt) (hstarted : t.started = s.started)
    (hclock : s.clock ≤ t.clock) : ∀ g b, t.started.lookup g = some b → b ≤ t.clock := by
  intro g b hl
  rw [hstarted] at hl
  exact (h.past g b hl).trans hclock

/-- A step of a dispatcher. -/
theorem dispatcher {g₀ : ℕ} {a : DispatcherStep} (h : s.Prompt)
    (hattends : s.attends (.act (.dispatcher g₀ a)) = true)
    (hs : step s (.act (.dispatcher g₀ a)) = some t) : t.Prompt := by
  obtain ⟨hclient, hclock, hstarted, htimeout⟩ := act_cases hs
  obtain ⟨pc₀, pc₀', e, hg₀, hd, hmove, -, -, -, hcalls⟩ := RpcClient.dispatcher_cases hclient
  constructor
  · intro g b hl
    rw [hclock]
    rcases hstarted with ⟨g', -, hstarted⟩ | ⟨-, hstarted⟩
    · rw [hstarted] at hl
      by_cases hg : g = g'
      · rw [hg, AList.lookup_insert] at hl
        exact (Option.some.inj hl).ge
      · exact h.past g b ((AList.lookup_insert_ne hg).symm.trans hl)
    · exact h.past g b (hstarted ▸ hl)
  · intro g pc b hl hpc hb
    rw [hmove] at hl
    by_cases hg : g = g₀
    · rw [hg, AList.lookup_insert] at hl
      obtain rfl := Option.some.inj hl
      have hb' : s.started.lookup g₀ = some b := by
        rcases hstarted with ⟨g', heq, -⟩ | ⟨-, hstarted⟩
        · cases heq
          rw [hasReturned_of_check hd] at hpc
          cases hpc
        · exact hg ▸ hstarted ▸ hb
      rcases hasReturned_of_dispatcherStep hd hpc with
        hpc₀ | ⟨now, rfl, rfl⟩ | ⟨peerClosed, rfl⟩ | ⟨r, rfl⟩
      · exact not_due_of_dispatcher hclient (h.notDue g₀ pc₀ b hg₀ hpc₀ hb')
      · obtain ⟨⟨⟩, -⟩ | ⟨x, hx, hsweep⟩ := hcalls
        obtain rfl := Option.some.inj hx
        rw [htimeout g₀ now rfl] at hsweep
        exact not_due_of_failTimedOut hsweep (h.past g₀ b hb')
      · simp only [attends, hb', Option.all_some, Bool.not_eq_true'] at hattends
        exact not_due_of_dispatcher hclient hattends
      · obtain ⟨⟨⟩, -⟩ | ⟨x, hx, hfail⟩ := hcalls
        obtain rfl := Option.some.inj hx
        exact not_due_of_failAll hfail
    · rw [AList.lookup_insert_ne hg] at hl
      have hb' : s.started.lookup g = some b := by
        rcases hstarted with ⟨g', heq, hstarted⟩ | ⟨-, hstarted⟩
        · cases heq
          rw [hstarted, AList.lookup_insert_ne hg] at hb
          exact hb
        · exact hstarted ▸ hb
      exact not_due_of_dispatcher hclient (h.notDue g pc b hl hpc hb')

/-- A step of a caller, or a wake-up. -/
theorem call {e : Event} (h : s.Prompt) (hattends : s.attends (.act (.call e)) = true)
    (hs : step s (.act (.call e)) = some t) : t.Prompt := by
  obtain ⟨hclient, hclock, ⟨g, ⟨⟩, -⟩ | ⟨-, hstarted⟩, -⟩ := act_cases hs
  refine ⟨h.past_of_started hstarted hclock.ge, ?_⟩
  obtain ⟨-, calls, hcalls, heq⟩ := RpcClient.call_cases hclient
  intro g pc b hl hpc hb
  rw [heq] at hl ⊢
  rw [hstarted] at hb
  rw [Bool.eq_false_iff]
  intro hdue
  rcases due_of_step hcalls hdue with hdue | ⟨k, d, rfl, hle⟩
  · rw [h.notDue g pc b hl hpc hb] at hdue
    cases hdue
  · -- the waiter is bound while the dispatcher is past its deadline
    have hlt := List.all_eq_true.1 hattends ⟨g, pc⟩ (AList.mem_lookup_iff.1 hl)
    simp only [returned, hl, Option.bind_some, hpc, if_true, hb, Option.all_some,
      decide_eq_true_eq] at hlt
    exact absurd hle (not_le.2 hlt)

/-- **Every step that attends to the deadlines leaves nobody behind who was due.** -/
theorem step {a : Act} (h : s.Prompt) (hattends : s.attends a = true)
    (hs : TimedClient.step s a = some t) : t.Prompt := by
  cases a with
  | pass time =>
    obtain rfl := Option.some.inj hs
    exact ⟨h.past_of_started rfl (Nat.le_add_right ..), h.notDue⟩
  | act a =>
    cases a with
    | connect k established =>
      obtain ⟨hclient, hclock, ⟨g, ⟨⟩, -⟩ | ⟨-, hstarted⟩, -⟩ := act_cases hs
      refine ⟨h.past_of_started hstarted hclock.ge, ?_⟩
      intro g pc b hl hpc hb
      rw [hstarted] at hb
      rcases RpcClient.connect_cases hclient with ⟨-, heq⟩ | ⟨-, -, heq⟩ | heq
      · rw [heq] at hl ⊢
        exact h.notDue g pc b hl hpc hb
      · rw [heq] at hl ⊢
        by_cases hg : g = s.client.generations
        · rw [hg, AList.lookup_insert] at hl
          obtain rfl := Option.some.inj hl
          cases hpc
        · exact h.notDue g pc b ((AList.lookup_insert_ne hg).symm.trans hl) hpc hb
      · rw [heq] at hl ⊢
        exact h.notDue g pc b hl hpc hb
    | closeBegin c =>
      obtain ⟨hclient, hclock, ⟨g, ⟨⟩, -⟩ | ⟨-, hstarted⟩, -⟩ := act_cases hs
      refine ⟨h.past_of_started hstarted hclock.ge, ?_⟩
      rw [RpcClient.closeBegin_cases hclient, hstarted]
      exact h.notDue
    | closeJoin c =>
      obtain ⟨hclient, hclock, ⟨g, ⟨⟩, -⟩ | ⟨-, hstarted⟩, -⟩ := act_cases hs
      refine ⟨h.past_of_started hstarted hclock.ge, ?_⟩
      rw [RpcClient.closeJoin_cases hclient, hstarted]
      exact h.notDue
    | closeFail c =>
      obtain ⟨hclient, hclock, ⟨g, ⟨⟩, -⟩ | ⟨-, hstarted⟩, -⟩ := act_cases hs
      refine ⟨h.past_of_started hstarted hclock.ge, ?_⟩
      obtain ⟨calls, hfail, heq⟩ := RpcClient.closeFail_cases hclient
      intro g pc b hl hpc hb
      rw [heq]
      exact not_due_of_failAll hfail
    | dispatcher g a => exact h.dispatcher hattends hs
    | call e => exact h.call hattends hs

end Prompt

/-- **When calls past their deadline are failed within an iteration.**  In every
run of a client in which `WaitOnce` returns something else than a timeout only
while nobody is past a deadline (or the dispatcher is to stop), and nobody binds a
waiter with a deadline that an iteration is past, every iteration that began at `t`
and after which the dispatcher goes on leaves no bound waiter with a deadline up to
`t`. -/
theorem timely {es : List Act} (hattends : Along step (fun s a => s.attends a = true) {} es) :
    Timely {} es := by
  rintro pre g a post u v t rfl hu hv ht hlooping hrunning
  have hP : u.Prompt :=
    exec_along (fun _ _ _ h hattends hs => h.step hattends hs) Prompt.init hattends.of_append hu
  have hattends' := along_iff.1 hattends pre _ post u rfl hu
  obtain ⟨hclient, -, -, -⟩ := act_cases hv
  obtain ⟨pc, pc', e, hg, hd, hmove, -, -, hgoes, -⟩ := RpcClient.dispatcher_cases hclient
  rw [hmove, AList.lookup_insert] at hlooping
  obtain rfl := Option.some.inj hlooping
  simp only [iteration, hg, Option.bind_some] at ht
  split_ifs at ht with hpc
  refine not_due_of_dispatcher hclient ?_
  rcases looping_of_dispatcherStep hd with hreturned | ⟨rfl, -⟩ | rfl
  · exact hP.notDue g pc t hg hreturned ht
  · have hgoing : u.client.running = true := by
      rcases hgoes with ⟨⟨⟩, -⟩ | ⟨-, hsame⟩
      exact hsame ▸ hrunning
    simpa [attends, ht, hgoing] using hattends'
  · rcases hpc with hpc | hpc <;> cases hpc

/-- A call waits until its deadline at `5`; the dispatcher begins an iteration at
`7`. -/
def overdue : List Act :=
  [.act (.connect 0 true), .act (.dispatcher 0 .start), .act (.dispatcher 0 .ready),
    .act (.call (.begin 0 .callAsync)), .act (.call (.call 0 .add)),
    .act (.call (.call 0 .sendOk)), .act (.call (.call 0 (.bind 5))), .pass 7,
    .act (.dispatcher 0 .check)]

/-- The wait times out. -/
theorem timely_overdue :
    Timely {}
      (overdue ++ [.act (.dispatcher 0 (.timeout 7)), .act (.dispatcher 0 (.tick false))]) :=
  timely (by decide)

/-- The answer to a heartbeat arrives during the wait. -/
def overdueReadable : List Act :=
  overdue ++ [.act (.dispatcher 0 (.drain false)), .act (.dispatcher 0 .load),
    .act (.dispatcher 0 (.response ⟨"hb_2", 0, "", []⟩))]

/-- **An iteration in which something was received leaves the call past its deadline
behind.** -/
theorem overdueReadable_not_timely :
    ¬ ∀ (es : List Act) (s : TimedClient), exec step {} es = some s → Timely {} es := by
  intro h
  have htimely := h (overdueReadable ++ [.act (.dispatcher 0 .framesDone)]) _ rfl
  have hleft := htimely overdueReadable 0 .framesDone [] _ _ 7 rfl rfl rfl rfl rfl rfl
  exact absurd hleft (by decide)

end TimedClient
end Client
end MiniRpc
