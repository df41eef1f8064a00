/-
# A task and the threads around it

`src/coroutine/task.h`: the coroutine frame of a `Task<T>` holds a promise, and
up to three threads use it at once.  One runs the body to its end and then the
steps of `FinalAwaiter::await_suspend`; one awaits the task, with the steps of
`Awaiter`; one owns the `Task` object, waits for it (`Get`) and destroys it
(`Reset`).  The steps of all of them are the events of one step function, so a
list of events is an interleaving.

The promise is shared without a lock.  `completion_future` is ready once
`PublishCompletion` has set the value, which is what the awaiter and the owner
go by; the handle in `continuation` is what the finishing thread goes by.  The
awaiter writes the handle and then looks at the future, the finisher sets the
future and then looks at the handle, and no step does both, so the two can each
see the other (`continued_iff`).  The owner may destroy the frame as soon as the
future is ready, while the finisher still has the handle to read
(`access_after_destroy_iff`).

`Task<void>` has the same steps with `Unit` for the value.
-/

import MiniRpc.Library.Transition

namespace MiniRpc
namespace Coroutine

open Transition

/-- `promise_type`; the shared state of `completion_promise` is the value or the
exception it was given, and the continuation is a handle or null. -/
structure Promise (τ ε : Type*) where
  completion : Option (Except ε τ) := none
  continuation : Bool := false
  resultValue : Option τ := none
  unhandledError : Option ε := none
  completionSet : Bool := false

/-- `completion_future.wait_for(0) == ready`. -/
def Promise.isReady {τ ε : Type*} (p : Promise τ ε) : Bool := p.completion.isSome

/-- The thread that runs the body and `FinalAwaiter::await_suspend`. -/
inductive Finisher where
  | running
  /-- `PublishCompletion`: `completion_set` is read next, or written, or the value is set. -/
  | checking
  | marking
  | publishing
  /-- `promise.continuation` is read next. -/
  | reading
  /-- The handle that was read, to be transferred to. -/
  | transferring (continuation : Bool)
  | done (continuation : Bool)
  deriving DecidableEq, Repr

/-- The thread of the coroutine that awaits the task. -/
inductive Awaiting where
  | start
  /-- `await_ready` was false; the continuation is stored next, then the future tested. -/
  | storing
  | testing
  /-- `await_ready` was true. -/
  | passed
  /-- `await_suspend` returned true. -/
  | suspended
  /-- `await_suspend` returned false. -/
  | declined
  deriving DecidableEq, Repr

/-- The thread that owns the `Task`. -/
inductive Owner where
  | holding
  /-- `Reset` found the future not ready and waits. -/
  | waiting
  | destroying
  | gone
  deriving DecidableEq, Repr

/-- A task with its threads; `continued` counts how often the awaiting coroutine
was continued, and `got` what calls of `Get` returned or threw. -/
structure State (τ ε : Type*) where
  promise : Promise τ ε := {}
  finisher : Finisher := .running
  awaiting : Awaiting := .start
  owner : Owner := .holding
  continued : ℕ := 0
  got : List (Except ε τ) := []

/-- One step of one thread. -/
inductive Event (τ ε : Type*) where
  /-- The body returns or throws: `return_value`, `unhandled_exception`. -/
  | finish (outcome : Except ε τ)
  | checkSet
  | markSet
  | setValue
  | readContinuation
  | transfer
  | awaitReady
  | storeContinuation
  | testReady
  | get
  | resetCheck
  | resetWait
  | destroy

variable {τ ε : Type*}

/-- `result_value` and `unhandled_error` after the body. -/
def Promise.finish (p : Promise τ ε) : Except ε τ → Promise τ ε
  | .ok v => { p with resultValue := some v }
  | .error e => { p with unhandledError := some e }

/-- `set_exception` or `set_value` of `PublishCompletion`; without either value
it is undefined. -/
def Promise.publish (p : Promise τ ε) : Option (Promise τ ε) :=
  match p.unhandledError, p.resultValue with
  | some e, _ => some { p with completion := some (.error e) }
  | none, some v => some { p with completion := some (.ok v) }
  | none, none => none

/-- One step, `none` if it cannot happen in the state. -/
def step (s : State τ ε) : Event τ ε → Option (State τ ε)
  | .finish outcome =>
    if s.finisher = .running then
      some { s with finisher := .checking, promise := s.promise.finish outcome }
    else none
  | .checkSet =>
    if s.finisher = .checking then
      some { s with finisher := if s.promise.completionSet then .reading else .marking }
    else none
  | .markSet =>
    if s.finisher = .marking then
      some { s with finisher := .publishing, promise := { s.promise with completionSet := true } }
    else none
  | .setValue =>
    if s.finisher = .publishing then
      s.promise.publish.map fun promise => { s with finisher := .reading, promise }
    else none
  | .readContinuation =>
    if s.finisher = .reading then
      some { s with finisher := .transferring s.promise.continuation }
    else none
  | .transfer =>
    match s.finisher with
    | .transferring continuation =>
      some { s with
        finisher := .done continuation
        continued := if continuation then s.continued + 1 else s.continued }
    | _ => none
  | .awaitReady =>
    if s.awaiting = .start then
      if s.promise.isReady then
        some { s with awaiting := .passed, continued := s.continued + 1 }
      else some { s with awaiting := .storing }
    else none
  | .storeContinuation =>
    if s.awaiting = .storing then
      some { s with awaiting := .testing, promise := { s.promise with continuation := true } }
    else none
  | .testReady =>
    if s.awaiting = .testing then
      if s.promise.isReady then
        some { s with awaiting := .declined, continued := s.continued + 1 }
      else some { s with awaiting := .suspended }
    else none
  | .get =>
    match s.owner, s.promise.completion with
    | .holding, some v => some { s with got := s.got ++ [v] }
    | _, _ => none
  | .resetCheck =>
    if s.owner = .holding then
      some { s with owner := if s.promise.isReady then .destroying else .waiting }
    else none
  | .resetWait =>
    if s.owner = .waiting ∧ s.promise.isReady then some { s with owner := .destroying } else none
  | .destroy => if s.owner = .destroying then some { s with owner := .gone } else none

/-- A step of `FinalAwaiter::await_suspend` that reads or writes the promise. -/
def Event.accesses : Event τ ε → Prop
  | .checkSet => True
  | .markSet => True
  | .setValue => True
  | .readContinuation => True
  | _ => False

-- The case analyses of this module all go by the equations of `step`.
attribute [local simp] step

/-! ### What every reachable state satisfies -/

/-- The finisher is past `PublishCompletion`. -/
def Finisher.published : Finisher → Bool
  | .reading => true
  | .transferring _ => true
  | .done _ => true
  | _ => false

/-- The handle the finisher has read, once it has. -/
def Finisher.seen : Finisher → Option Bool
  | .transferring c => some c
  | .done c => some c
  | _ => none

theorem published_of_seen {f : Finisher} {c : Bool} (h : f.seen = some c) : f.published = true := by
  cases f <;> first | rfl | cases h

/-- The awaiter has stored its handle. -/
def Awaiting.stored : Awaiting → Bool
  | .testing => true
  | .suspended => true
  | .declined => true
  | _ => false

/-- How often a coroutine has continued itself. -/
def Awaiting.continues : Awaiting → ℕ
  | .passed => 1
  | .declined => 1
  | _ => 0

/-- How often the finisher has continued it. -/
def Finisher.continues : Finisher → ℕ
  | .done true => 1
  | _ => 0

/-- The state of a task between two steps. -/
structure Inv (s : State τ ε) : Prop where
  ready : s.promise.isReady = s.finisher.published
  unset : s.promise.completionSet = true → s.finisher ≠ .running ∧ s.finisher ≠ .checking
  stored : s.promise.continuation = s.awaiting.stored
  count : s.continued = s.awaiting.continues + s.finisher.continues
  /-- A handle that was read is the one that was stored. -/
  seen : s.finisher.seen = some true → s.awaiting.stored = true
  /-- A coroutine that suspended had stored its handle before the future was ready. -/
  suspended : s.awaiting = .suspended → s.finisher.seen ≠ some false
  claimed : s.awaiting = .passed ∨ s.awaiting = .declined → s.finisher.published = true
  owned : s.owner = .destroying ∨ s.owner = .gone → s.finisher.published = true

theorem inv_init : Inv ({} : State τ ε) where
  ready := rfl
  unset := by simp
  stored := rfl
  count := rfl
  seen := by simp [Finisher.seen]
  suspended := by simp
  claimed := by simp
  owned := by simp

theorem isReady_finish (p : Promise τ ε) (outcome : Except ε τ) :
    (p.finish outcome).isReady = p.isReady ∧ (p.finish outcome).continuation = p.continuation ∧
      (p.finish outcome).completionSet = p.completionSet := by
  cases outcome <;> exact ⟨rfl, rfl, rfl⟩

theorem isReady_publish {p q : Promise τ ε} (h : p.publish = some q) :
    q.isReady = true ∧ q.continuation = p.continuation ∧ q.completionSet = p.completionSet := by
  unfold Promise.publish at h
  split at h
  · obtain rfl := Option.some.inj h
    exact ⟨rfl, rfl, rfl⟩
  · obtain rfl := Option.some.inj h
    exact ⟨rfl, rfl, rfl⟩
  · cases h

/-- **Every step keeps the invariant.** -/
theorem Inv.step {s t : State τ ε} {e : Event τ ε} (h : Inv s) (hstep : step s e = some t) :
    Inv t := by
  obtain ⟨hready, hunset, hstored, hcount, hseen, hsuspended, hclaimed, howned⟩ := h
  cases e with
  | finish outcome =>
    obtain ⟨hr, hc, hs⟩ := isReady_finish s.promise outcome
    simp only [Coroutine.step] at hstep
    split_ifs at hstep with hf
    obtain rfl := Option.some.inj hstep
    constructor <;> simp_all [Finisher.published, Finisher.seen, Finisher.continues]
  | checkSet =>
    simp only [Coroutine.step] at hstep
    split_ifs at hstep with hf hs
    · exact absurd hf (hunset hs).2
    · obtain rfl := Option.some.inj hstep
      constructor <;> simp_all [Finisher.published, Finisher.seen, Finisher.continues]
  | markSet =>
    simp only [Coroutine.step] at hstep
    split_ifs at hstep with hf
    obtain rfl := Option.some.inj hstep
    constructor <;>
      simp_all [Finisher.published, Finisher.seen, Finisher.continues, Promise.isReady]
  | setValue =>
    simp only [Coroutine.step] at hstep
    split_ifs at hstep with hf
    obtain ⟨q, hq, rfl⟩ := Option.map_eq_some_iff.1 hstep
    obtain ⟨hr, hc, hs⟩ := isReady_publish hq
    constructor <;> simp_all [Finisher.published, Finisher.seen, Finisher.continues]
  | readContinuation =>
    simp only [Coroutine.step] at hstep
    split_ifs at hstep with hf
    obtain rfl := Option.some.inj hstep
    constructor <;>
      simp_all [Finisher.published, Finisher.seen, Finisher.continues, Awaiting.stored]
  | transfer =>
    simp only [Coroutine.step] at hstep
    split at hstep
    · rename_i c hf
      obtain rfl := Option.some.inj hstep
      cases c <;> constructor <;>
        simp_all [Finisher.published, Finisher.seen, Finisher.continues]
    · cases hstep
  | awaitReady =>
    simp only [Coroutine.step] at hstep
    split_ifs at hstep with ha hr <;> obtain rfl := Option.some.inj hstep <;> constructor <;>
      simp_all [Awaiting.stored, Awaiting.continues, Nat.add_comm]
  | storeContinuation =>
    simp only [Coroutine.step] at hstep
    split_ifs at hstep with ha
    obtain rfl := Option.some.inj hstep
    constructor <;> simp_all [Awaiting.stored, Awaiting.continues, Promise.isReady]
  | testReady =>
    simp only [Coroutine.step] at hstep
    split_ifs at hstep with ha hr
    · obtain rfl := Option.some.inj hstep
      constructor <;> simp_all [Awaiting.stored, Awaiting.continues, Nat.add_comm]
    · -- the future is not ready, so the finisher has not read the handle yet
      have hunread : s.finisher.seen = none := by
        cases hf : s.finisher.seen with
        | none => rfl
        | some c => exact absurd (hready.trans (published_of_seen hf)) hr
      obtain rfl := Option.some.inj hstep
      constructor <;> simp_all [Awaiting.stored, Awaiting.continues]
  | get =>
    simp only [Coroutine.step] at hstep
    split at hstep
    · obtain rfl := Option.some.inj hstep
      exact ⟨hready, hunset, hstored, hcount, hseen, hsuspended, hclaimed, howned⟩
    · cases hstep
  | resetCheck =>
    simp only [Coroutine.step] at hstep
    split_ifs at hstep with ho hr <;> obtain rfl := Option.some.inj hstep <;> constructor <;>
      simp_all
  | resetWait =>
    simp only [Coroutine.step] at hstep
    split_ifs at hstep with ho
    obtain rfl := Option.some.inj hstep
    constructor <;> simp_all
  | destroy =>
    simp only [Coroutine.step] at hstep
    split_ifs at hstep with ho
    obtain rfl := Option.some.inj hstep
    constructor <;> simp_all

/-! ### The order of the steps -/

/-- What the events of a run say about the state it reached. -/
structure Order (es : List (Event τ ε)) (s : State τ ε) : Prop where
  published : .setValue ∈ es ↔ s.finisher.published = true
  read : .readContinuation ∈ es ↔ s.finisher.seen.isSome
  tested : .testReady ∈ es ↔ s.awaiting = .suspended ∨ s.awaiting = .declined
  /-- `await_ready` was true exactly if the value was set before it. -/
  passed : Precedes es .setValue .awaitReady ↔ s.awaiting = .passed
  /-- `await_suspend` returned true exactly if it looked before the value was set. -/
  suspended : Precedes es .testReady .setValue ↔
    s.awaiting = .suspended ∧ s.finisher.published = true
  /-- The finisher read null although there was an awaiter exactly if it was first. -/
  missed : Precedes es .readContinuation .storeContinuation ↔
    s.awaiting.stored = true ∧ s.finisher.seen = some false
  gone : .destroy ∈ es ↔ s.owner = .gone

theorem order_init : Order [] ({} : State τ ε) := by
  constructor <;> simp [Finisher.published, Finisher.seen, Awaiting.stored]

/-- A step whose place among the others matters. -/
def Event.ordered : Event τ ε → Bool
  | .setValue => true
  | .readContinuation => true
  | .awaitReady => true
  | .storeContinuation => true
  | .testReady => true
  | .destroy => true
  | _ => false

/-- The other steps move no thread past a point that matters. -/
theorem quiet_step {s t : State τ ε} {e : Event τ ε} (hi : Inv s) (he : e.ordered = false)
    (hstep : step s e = some t) :
    t.finisher.published = s.finisher.published ∧ t.finisher.seen = s.finisher.seen ∧
      t.awaiting = s.awaiting ∧ (t.owner = .gone ↔ s.owner = .gone) := by
  cases e with
  | setValue => cases he
  | readContinuation => cases he
  | awaitReady => cases he
  | storeContinuation => cases he
  | testReady => cases he
  | destroy => cases he
  | checkSet =>
    simp only [Coroutine.step] at hstep
    split_ifs at hstep with hf hs
    · exact absurd hf (hi.unset hs).2
    · obtain rfl := Option.some.inj hstep
      simp [hf, Finisher.published, Finisher.seen]
  | transfer =>
    simp only [Coroutine.step] at hstep
    split at hstep
    · rename_i c hf
      obtain rfl := Option.some.inj hstep
      simp [hf, Finisher.published, Finisher.seen]
    · cases hstep
  | get =>
    simp only [Coroutine.step] at hstep
    split at hstep
    · obtain rfl := Option.some.inj hstep
      exact ⟨rfl, rfl, rfl, Iff.rfl⟩
    · cases hstep
  | resetCheck =>
    simp only [Coroutine.step] at hstep
    split_ifs at hstep with hf hr <;> obtain rfl := Option.some.inj hstep <;> simp [hf]
  | _ =>
    simp only [Coroutine.step] at hstep
    split_ifs at hstep with hf
    obtain rfl := Option.some.inj hstep
    simp [hf, Finisher.published, Finisher.seen]

/-- **Every step keeps the order in line with the state.** -/
theorem Order.step {es : List (Event τ ε)} {s t : State τ ε} {e : Event τ ε} (hi : Inv s)
    (h : Order es s) (hstep : step s e = some t) : Order (es ++ [e]) t := by
  obtain ⟨hpub, hread, htested, hpassed, hsusp, hmissed, hgone⟩ := h
  cases e with
  | setValue =>
    simp only [Coroutine.step] at hstep
    split_ifs at hstep with hf
    obtain ⟨q, -, rfl⟩ := Option.map_eq_some_iff.1 hstep
    -- nobody was told that the future is ready before it was
    have hdeclined : s.awaiting ≠ .declined := by
      intro ha
      have := hi.claimed (Or.inr ha)
      rw [hf] at this
      cases this
    constructor <;> simp_all [precedes_concat, Finisher.published, Finisher.seen]
  | readContinuation =>
    simp only [Coroutine.step] at hstep
    split_ifs at hstep with hf
    obtain rfl := Option.some.inj hstep
    have hstored := hi.stored
    constructor <;> simp_all [precedes_concat, Finisher.published, Finisher.seen]
  | awaitReady =>
    have hready := hi.ready
    simp only [Coroutine.step] at hstep
    split_ifs at hstep with ha hr <;> obtain rfl := Option.some.inj hstep <;> constructor <;>
      simp_all [precedes_concat, Awaiting.stored]
  | storeContinuation =>
    have hseen := hi.seen
    simp only [Coroutine.step] at hstep
    split_ifs at hstep with ha
    obtain rfl := Option.some.inj hstep
    have hnull : s.finisher.seen.isSome ↔ s.finisher.seen = some false := by
      rcases hc : s.finisher.seen with _ | _ | _ <;> simp_all [Awaiting.stored]
    constructor <;> simp_all [precedes_concat, Awaiting.stored]
  | testReady =>
    have hready := hi.ready
    simp only [Coroutine.step] at hstep
    split_ifs at hstep with ha hr <;> obtain rfl := Option.some.inj hstep <;> constructor <;>
      simp_all [precedes_concat, Awaiting.stored]
  | destroy =>
    simp only [Coroutine.step] at hstep
    split_ifs at hstep with ho
    obtain rfl := Option.some.inj hstep
    constructor <;> simp_all [precedes_concat]
  | _ =>
    obtain ⟨hp, hs, ha, ho⟩ := quiet_step hi rfl hstep
    constructor <;> simp_all [precedes_concat]

theorem inv_order {es : List (Event τ ε)} {s : State τ ε} (h : exec step {} es = some s) :
    Inv s ∧ Order es s :=
  exec_history (I := fun es s => Inv s ∧ Order es s) ⟨inv_init, order_init⟩
    (fun _ _ _ _ ⟨hi, ho⟩ hstep => ⟨hi.step hstep, ho.step hi hstep⟩) es s h

/-! ### The awaiting coroutine is continued -/

/-- The awaiter has taken all its steps. -/
def Awaiting.finished : Awaiting → Bool
  | .passed => true
  | .suspended => true
  | .declined => true
  | _ => false

/-- **When the awaiting coroutine is continued once.**  In every interleaving in
which both sides have taken all their steps, it is continued at least once, and
exactly once if and only if the value was set before `await_ready` looked, or
after `await_suspend` looked, or the finisher read the continuation before the
awaiter stored it. -/
theorem continued_iff {es : List (Event τ ε)} {s : State τ ε} (h : exec step {} es = some s)
    (ha : s.awaiting.finished = true) {c : Bool} (hf : s.finisher = .done c) :
    1 ≤ s.continued ∧
      (s.continued = 1 ↔ Precedes es .setValue .awaitReady ∨ Precedes es .testReady .setValue ∨
        Precedes es .readContinuation .storeContinuation) := by
  obtain ⟨hi, ho⟩ := inv_order h
  rw [ho.passed, ho.suspended, ho.missed, hi.count]
  have hseen := hi.seen
  have hsuspended := hi.suspended
  rw [hf] at hseen hsuspended ⊢
  cases hw : s.awaiting with
  | passed =>
    -- nothing was stored, so the finisher read null
    cases c with
    | true => simp [hw, Finisher.seen, Awaiting.stored] at hseen
    | false => simp [Awaiting.continues, Finisher.continues]
  | suspended =>
    -- the handle was stored before the value was set, so the finisher read it
    cases c with
    | true => simp [Awaiting.continues, Finisher.continues, Finisher.published]
    | false => exact absurd rfl (hsuspended hw)
  | declined =>
    -- the coroutine continued itself, and once more if the finisher read its handle
    cases c <;> simp [Awaiting.continues, Finisher.continues, Finisher.seen, Awaiting.stored]
  | _ =>
    rw [hw] at ha
    cases ha

/-- The body finishes before the awaiter comes: continued once. -/
theorem continued_iff_passed : ∃ s,
    exec step ({} : State Unit Unit) [.finish (.ok ()), .checkSet, .markSet, .setValue,
      .awaitReady, .readContinuation, .transfer] = some s ∧ s.continued = 1 := by
  refine ⟨_, rfl, ?_⟩
  refine (continued_iff (c := false) (rfl : exec step ({} : State Unit Unit) [.finish (.ok ()),
    .checkSet, .markSet, .setValue, .awaitReady, .readContinuation, .transfer] = some _)
    rfl rfl).2.2 (Or.inl ?_)
  exact ⟨[.finish (.ok ()), .checkSet, .markSet], [], [.readContinuation, .transfer], rfl⟩

/-- **A coroutine that is continued twice**: the value is set between the two
looks of the awaiter, and the finisher reads the continuation it stored. -/
theorem continued_twice :
    (exec step ({} : State Unit Unit) [.finish (.ok ()), .checkSet, .markSet, .awaitReady,
        .storeContinuation, .setValue, .testReady, .readContinuation, .transfer]).map
      (fun s => (s.awaiting.finished, s.finisher, s.continued)) = some (true, .done true, 2) := by
  rfl

/-! ### The owner destroys the frame -/

/-- A frame is destroyed only once the value is set, so what `PublishCompletion`
does comes before. -/
theorem not_destroy_precedes {es : List (Event τ ε)} {s : State τ ε}
    (h : exec step {} es = some s) :
    ¬ Precedes es .destroy .checkSet ∧ ¬ Precedes es .destroy .markSet ∧
      ¬ Precedes es .destroy .setValue := by
  have key : ∀ es s, exec step ({} : State τ ε) es = some s →
      ¬ Precedes es .destroy .checkSet ∧ ¬ Precedes es .destroy .markSet ∧
        ¬ Precedes es .destroy .setValue := by
    intro es
    induction es using List.reverseRecOn with
    | nil => simp
    | append_singleton es e ih =>
      intro t ht
      obtain ⟨s, hs, hstep⟩ := exec_concat.1 ht
      obtain ⟨h₁, h₂, h₃⟩ := ih s hs
      obtain ⟨hi, ho⟩ := inv_order hs
      have hpub : .destroy ∈ es → s.finisher.published = true :=
        fun hd => hi.owned (Or.inr (ho.gone.1 hd))
      simp only [precedes_concat, h₁, h₂, h₃, false_or]
      refine ⟨?_, ?_, ?_⟩ <;> rintro ⟨hd, rfl⟩ <;> have := hpub hd <;>
        simp only [Coroutine.step] at hstep <;> split_ifs at hstep with hf <;> rw [hf] at this <;>
        cases this
  exact key es s h

/-- The owner destroys the frame only when the finisher has read the
continuation. -/
def Event.spares (s : State τ ε) : Event τ ε → Bool
  | .destroy => s.finisher.seen.isSome
  | _ => true

/-- If the frame is destroyed after the finisher read the continuation only, then
that is not the order of the two. -/
theorem not_destroy_precedes_read {es : List (Event τ ε)} {s : State τ ε}
    (h : exec step {} es = some s)
    (hspares : Along step (fun s e => Event.spares s e = true) {} es) :
    ¬ Precedes es .destroy .readContinuation := by
  rintro ⟨as, bs, cs, rfl⟩
  rw [exec_append] at h
  obtain ⟨u, hu, h⟩ := Option.bind_eq_some_iff.1 h
  have hseen : u.finisher.seen.isSome = true := along_iff.1 hspares as _ _ u rfl hu
  have hread := (inv_order hu).2.read.2 hseen
  -- the read is enabled a second time, after `as` and `bs`
  rw [← List.cons_append, exec_append] at h
  obtain ⟨v, hv, h⟩ := Option.bind_eq_some_iff.1 h
  have hv' : exec step {} (as ++ .destroy :: bs) = some v := by
    rw [exec_append, hu]
    exact hv
  have hseen' := (inv_order hv').2.read.1 (List.mem_append_left _ hread)
  obtain ⟨w, hw, -⟩ := Option.bind_eq_some_iff.1 h
  simp only [Coroutine.step] at hw
  split_ifs at hw with hf
  rw [hf] at hseen'
  cases hseen'

/-- **When the finisher stays off a destroyed frame.**  In every interleaving in
which the owner destroys the frame only after the finisher has read the
continuation, no step of `FinalAwaiter::await_suspend` reads or writes the promise
after the frame was destroyed: its other steps on the promise come before anyone
can see that the task is done.  Once the finisher has read the continuation, no
other interleaving is without such a step. -/
theorem access_after_destroy_iff {es : List (Event τ ε)} {s : State τ ε}
    (h : exec step {} es = some s) :
    (Along step (fun s e => Event.spares s e = true) {} es →
      ∀ e : Event τ ε, e.accesses → ¬ Precedes es .destroy e) ∧
    (.readContinuation ∈ es → (∀ e : Event τ ε, e.accesses → ¬ Precedes es .destroy e) →
      Along step (fun s e => Event.spares s e = true) {} es) := by
  refine ⟨fun hspares e he => ?_, fun hread hall => along_iff.2 ?_⟩
  · obtain ⟨h₁, h₂, h₃⟩ := not_destroy_precedes h
    cases e with
    | checkSet => exact h₁
    | markSet => exact h₂
    | setValue => exact h₃
    | readContinuation => exact not_destroy_precedes_read h hspares
    | _ => cases he
  · rintro pre e post u rfl hu
    cases e with
    | destroy =>
      -- a read that is not before the destruction is after it
      refine (inv_order hu).2.read.1 ?_
      rcases List.mem_append.1 hread with hpre | hpost
      · exact hpre
      · rcases List.mem_cons.1 hpost with heq | hpost
        · cases heq
        · obtain ⟨bs, cs, rfl⟩ := List.append_of_mem hpost
          exact absurd ⟨pre, bs, cs, rfl⟩ (hall .readContinuation trivial)
    | _ => rfl

/-- An owner that comes after the finisher. -/
theorem access_after_destroy_iff_late :
    (exec step ({} : State Unit Unit) [.finish (.ok ()), .checkSet, .markSet, .setValue,
        .readContinuation, .transfer, .get, .resetCheck, .destroy]).isSome = true ∧
      ¬ Precedes [.finish (.ok ()), .checkSet, .markSet, .setValue, .readContinuation, .transfer,
        .get, .resetCheck, .destroy] (.destroy : Event Unit Unit) .readContinuation :=
  ⟨rfl, (access_after_destroy_iff (rfl : exec step ({} : State Unit Unit) [.finish (.ok ()),
    .checkSet, .markSet, .setValue, .readContinuation, .transfer, .get, .resetCheck,
    .destroy] = some _)).1 (by decide) .readContinuation trivial⟩

/-- **A frame that is read after it was destroyed**: the owner gets the value and
destroys the task between the two last steps of the finisher. -/
theorem read_after_destroy :
    (exec step ({} : State Unit Unit) [.finish (.ok ()), .checkSet, .markSet, .setValue, .get,
        .resetCheck, .destroy, .readContinuation]).isSome = true ∧
      Precedes [.finish (.ok ()), .checkSet, .markSet, .setValue, .get, .resetCheck, .destroy,
        .readContinuation] (.destroy : Event Unit Unit) .readContinuation :=
  ⟨rfl, [.finish (.ok ()), .checkSet, .markSet, .setValue, .get, .resetCheck], [], [], rfl⟩

end Coroutine
end MiniRpc
