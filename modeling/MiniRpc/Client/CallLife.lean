/-
# The life of a call

What one call and its slot look like at every moment, as an automaton of its own
(`Life`): the call draws an id, its slot is open until the first response or
failure settles it, the result waits in the slot or on its way to the waiter,
and is received once.  What is to be seen of a call is a `View`: its program
counter, its slot, the wake-ups for it and what it received.

The lemmas `of_callStep`, `of_complete`, `of_sweep` and `of_wake` say that each
operation of the client on the call leads from the view of one point of its life
to the view of another, and which result it decides.  `MiniRpc.Client.Invariant`
puts them together for all calls at once.
-/

import MiniRpc.Client.Calls

namespace MiniRpc
namespace Client

/-- Where a call with an unbound slot stands. -/
inductive Stage where
  | registered
  | sendFailed (result : RpcCallResult)
  | sent
  deriving DecidableEq

/-- The program counter of a stage. -/
def Stage.pc : Stage → Pc
  | .registered => .registered
  | .sendFailed r => .sendFailed r
  | .sent => .sent

/-- The life of one call. -/
inductive Life where
  /-- No slot yet. -/
  | drawn
  /-- A slot nobody waits for and nothing has finished. -/
  | unbound (stage : Stage)
  /-- A slot nobody waits for, finished with `r`. -/
  | settled (stage : Stage) (r : RpcCallResult)
  /-- The send failed and the slot is finished with `r`. -/
  | popping (failure r : RpcCallResult)
  /-- An unfinished slot with the promise in it. -/
  | waiting (deadline : Time)
  /-- An unfinished slot with the coroutine in it. -/
  | suspended (deadline : Time)
  /-- The promise is about to get `r`; a slot without it may be left over. -/
  | fulfilling (r : RpcCallResult) (leftover : Option Time)
  /-- The coroutine is about to be resumed, `r` is in the slot. -/
  | resuming (r : RpcCallResult) (deadline : Time)
  /-- The coroutine runs and will find `r` in the slot. -/
  | resumed (r : RpcCallResult) (deadline : Time)
  /-- The future was returned before it got `r`. -/
  | fulfilled (r : RpcCallResult) (leftover : Option Time)
  /-- The call returned `r`. -/
  | returned (r : RpcCallResult)
  /-- The id was taken, and the call returned `r` without ever having a slot. -/
  | refused (r : RpcCallResult)

/-- What is to be seen of one call. -/
@[ext] structure View where
  pc : Pc
  slot : Option (Slot ℕ)
  wakes : List (Wake ℕ)
  received : List RpcCallResult

/-- The view of call `k` in a state. -/
def State.view (s : State) (k : ℕ) (c : Call) : View :=
  ⟨c.pc, s.pending.slots.lookup c.requestId, s.wakes.filter (·.owner = k), c.received⟩

/-! ### The shapes a slot takes

A fresh slot is `{}`.  Each lemma says what finishing a slot of that shape does
to it and whom it wakes. -/

/-- An unfinished slot with the promise of call `k`. -/
def Slot.async (k : ℕ) (deadline : Time) : Slot ℕ :=
  { asyncPromise := some k, asyncBound := true, deadline }

/-- An unfinished slot with the coroutine of call `k`. -/
def Slot.coroutine (k : ℕ) (deadline : Time) : Slot ℕ :=
  { coroutineHandle := some k, coroutineBound := true, deadline }

/-- A finished slot that nobody waits for. -/
def Slot.settled (r : RpcCallResult) (deadline : Time) : Slot ℕ :=
  { done := true, result := r, deadline }

/-- A finished slot whose promise was taken out. -/
def Slot.leftover (r : RpcCallResult) (deadline : Time) : Slot ℕ :=
  { done := true, result := r, asyncBound := true, deadline }

@[simp] theorem Slot.finish_fresh (r : RpcCallResult) :
    (Slot.settle r {}).release = Slot.settled r 0 ∧
      (Slot.settle r ({} : Slot ℕ)).asyncWaiter = none ∧
      (Slot.settle r ({} : Slot ℕ)).coroutineWaiter = none :=
  ⟨rfl, rfl, rfl⟩

@[simp] theorem Slot.finish_async (r : RpcCallResult) (k : ℕ) (d : Time) :
    ((Slot.async k d).settle r).release = Slot.leftover r d ∧
      ((Slot.async k d).settle r).asyncWaiter = some (.setValue k r) ∧
      ((Slot.async k d).settle r).coroutineWaiter = none :=
  ⟨rfl, rfl, rfl⟩

@[simp] theorem Slot.finish_coroutine (r : RpcCallResult) (k : ℕ) (d : Time) :
    ((Slot.coroutine k d).settle r).release = Slot.settled r d ∧
      ((Slot.coroutine k d).settle r).asyncWaiter = none ∧
      ((Slot.coroutine k d).settle r).coroutineWaiter = some (.resume k) :=
  ⟨rfl, rfl, rfl⟩

@[simp] theorem Slot.finish_settled (r r₀ : RpcCallResult) (d : Time) :
    ((Slot.settled r₀ d).settle r).release = Slot.settled r₀ d ∧
      ((Slot.settled r₀ d).settle r).asyncWaiter = none ∧
      ((Slot.settled r₀ d).settle r).coroutineWaiter = none :=
  ⟨rfl, rfl, rfl⟩

@[simp] theorem Slot.finish_leftover (r r₀ : RpcCallResult) (d : Time) :
    ((Slot.leftover r₀ d).settle r).release = Slot.leftover r₀ d ∧
      ((Slot.leftover r₀ d).settle r).asyncWaiter = none ∧
      ((Slot.leftover r₀ d).settle r).coroutineWaiter = none :=
  ⟨rfl, rfl, rfl⟩

@[simp] theorem Slot.done_async (k : ℕ) (d : Time) : (Slot.async k d).done = false := rfl

@[simp] theorem Slot.done_coroutine (k : ℕ) (d : Time) : (Slot.coroutine k d).done = false := rfl

@[simp] theorem Slot.done_settled (r : RpcCallResult) (d : Time) : (Slot.settled r d).done := rfl

@[simp] theorem Slot.done_leftover (r : RpcCallResult) (d : Time) : (Slot.leftover r d).done := rfl

namespace Life

/-- The view of call `k` at a point of its life. -/
def view (k : ℕ) : Life → View
  | drawn => ⟨.drawn, none, [], []⟩
  | unbound stage => ⟨stage.pc, some {}, [], []⟩
  | settled stage r => ⟨stage.pc, some (.settled r 0), [], []⟩
  | popping failure r => ⟨.popping failure, some (.settled r 0), [], []⟩
  | waiting deadline => ⟨.waiting, some (.async k deadline), [], []⟩
  | suspended deadline => ⟨.suspended, some (.coroutine k deadline), [], []⟩
  | fulfilling r leftover => ⟨.waiting, leftover.map (.leftover r), [.setValue k r], []⟩
  | resuming r deadline => ⟨.suspended, some (.settled r deadline), [.resume k], []⟩
  | resumed r deadline => ⟨.resumed none, some (.settled r deadline), [], []⟩
  | fulfilled r leftover => ⟨.waiting, leftover.map (.leftover r), [], [r]⟩
  | returned r => ⟨.returned, none, [], [r]⟩
  | refused r => ⟨.returned, none, [], [r]⟩

/-- The result the call was decided to have. -/
def verdict : Life → Option RpcCallResult
  | drawn | unbound _ | waiting _ | suspended _ | refused _ => none
  | settled _ r | popping _ r | fulfilling r _ | resuming r _ | resumed r _ | fulfilled r _
  | returned r => some r

/-- The call was turned away. -/
def isRefused : Life → Bool
  | refused _ => true
  | _ => false

/-- A slot without a waiter is left in the table although the call has its
result or is about to get it. -/
def hasLeftover : Life → Bool
  | fulfilling _ left | fulfilled _ left => left.isSome
  | _ => false

/-- The slot a call has at a point of its life. -/
def slot (k : ℕ) (l : Life) : Option (Slot ℕ) := (l.view k).slot

/-- What a call received, unless it was turned away, is its verdict. -/
theorem received_eq (k : ℕ) (l : Life) :
    (l.view k).received = [] ∨ (∃ r, (l.view k).received = [r] ∧ l.verdict = some r) ∨
      l.isRefused := by
  cases l <;> simp [view, verdict, isRefused]

/-- Only the call itself waits in its slot. -/
theorem waiter_eq (k : ℕ) (l : Life) : ∀ slot ∈ (l.view k).slot,
    (∀ j ∈ slot.asyncPromise, j = k) ∧ ∀ j ∈ slot.coroutineHandle, j = k := by
  cases l <;> simp [view, Slot.async, Slot.coroutine, Slot.settled, Slot.leftover]

end Life

/-! ### One step of a life -/

/-- What an event decides for a call with the given slot. -/
def verdictOn (k : ℕ) (c : Call) (slot : Option (Slot ℕ)) (e : Event) : Option RpcCallResult :=
  slot.bind fun slot => e.verdict k c slot

/-- Beginning a call, a heartbeat, a wake-up and another call's step decide
nothing. -/
theorem verdictOn_eq_none {k : ℕ} {c : Call} {slot : Option (Slot ℕ)} {e : Event}
    (he : (∃ j kind, e = .begin j kind) ∨ e = .heartbeat ∨ (∃ w, e = .wake w) ∨
      ∃ j a, j ≠ k ∧ e = .call j a) : verdictOn k c slot e = none := by
  have h : ∀ slot, Event.verdict k c slot e = none := by
    intro slot
    rcases he with ⟨j, kind, rfl⟩ | rfl | ⟨w, rfl⟩ | ⟨j, a, hne, rfl⟩
    · simp [Event.verdict]
    · simp [Event.verdict]
    · simp [Event.verdict]
    · cases a <;> cases hpc : c.pc <;> simp [Event.verdict, hne, hpc]
  cases slot with
  | none => rfl
  | some slot => exact h slot

/-- `l'` follows `l` under an event that decides `v`: nothing is decided twice, a
call is refused only for an id that is `taken`, and a slot is left over only
where a promise is `stranded`. -/
structure Life.Follows (l : Life) (v : Option RpcCallResult) (taken stranded : Prop)
    (l' : Life) : Prop where
  verdict : l'.verdict.toList = l.verdict.toList ++ v.toList
  refused : l'.isRefused → l.isRefused ∨ taken
  leftover : l'.hasLeftover → l.hasLeftover ∨ stranded

section Follows

variable {l l' : Life} {v : Option RpcCallResult} {taken taken' stranded stranded' : Prop}

theorem Life.Follows.of (hv : l'.verdict.toList = l.verdict.toList ++ v.toList)
    (hr : l'.isRefused = l.isRefused) (hl : l'.hasLeftover = l.hasLeftover) :
    l.Follows v taken stranded l' :=
  ⟨hv, fun h => Or.inl (hr ▸ h), fun h => Or.inl (hl ▸ h)⟩

theorem Life.Follows.rfl : l.Follows none taken stranded l :=
  .of (by simp) (Eq.refl _) (Eq.refl _)

theorem Life.Follows.mono (h : l.Follows v taken stranded l') (ht : taken → taken')
    (hs : stranded → stranded') : l.Follows v taken' stranded' l' :=
  ⟨h.verdict, fun hr => (h.refused hr).imp_right ht, fun hl => (h.leftover hl).imp_right hs⟩

end Follows

/-- What a call's own step does to the slot it has (`x` before and `x'` after):
nothing to a slot it does not have, unless it takes an id that is free. -/
def Life.Moves (p p' : PendingCalls ℕ) (id : String) (x x' : Option (Slot ℕ)) : Prop :=
  (x = none ∧ x' = none ∧ p' = p) ∨
    (x = none ∧ p.slots.lookup id = none ∧ p'.slots.lookup id = x') ∨
    (x ≠ none ∧ p'.slots.lookup id = x')

/-- **A call's own step leads from one point of its life to another**, wakes
nobody and touches no other slot. -/
theorem Life.of_callStep {p p' : PendingCalls ℕ} {k : ℕ} {c c' : Call} {a : CallStep}
    {ws ws₀ : List (Wake ℕ)} {l : Life} {x : Option (Slot ℕ)} (hid : c.requestId ≠ "")
    (hview : ⟨c.pc, x, ws₀, c.received⟩ = l.view k)
    (hx : ∀ slot, x = some slot → p.slots.lookup c.requestId = some slot)
    (h : callStep p k c a = some (p', ws, c')) :
    ws = [] ∧ (∀ id, id ≠ c.requestId → p'.slots.lookup id = p.slots.lookup id) ∧
      ∃ (l' : Life) (x' : Option (Slot ℕ)), ⟨c'.pc, x', ws₀, c'.received⟩ = l'.view k ∧
        Moves p p' c.requestId x x' ∧ l.Follows (verdictOn k c x (.call k a))
          (x = none ∧ (p.slots.lookup c.requestId).isSome) False l' := by
  have hins : ∀ id slot, id ≠ c.requestId →
      (p.slots.insert c.requestId slot).lookup id = p.slots.lookup id :=
    fun _ _ h => AList.lookup_insert_ne h
  have hera : ∀ id, id ≠ c.requestId → (p.slots.erase c.requestId).lookup id = p.slots.lookup id :=
    fun _ h => AList.lookup_erase_ne h
  cases l with
  | drawn =>
    obtain ⟨hpc, rfl, hws, hrec⟩ := View.mk.inj hview
    cases hslot : p.slots.lookup c.requestId with
    | none =>
      obtain ⟨rfl, rfl, rfl, rfl⟩ := callStep_drawn hpc hid hslot h
      refine ⟨rfl, fun id => hins id _, .unbound .registered, some {}, ?_, ?_, ?_⟩
      · simp [view, Stage.pc, hws, hrec]
      · exact Or.inr (Or.inl ⟨rfl, hslot, AList.lookup_insert _⟩)
      · exact .of (by simp [verdict, verdictOn]) rfl rfl
    | some slot =>
      obtain ⟨rfl, rfl, rfl, r, rfl⟩ := callStep_drawn_taken hpc hslot h
      refine ⟨rfl, fun _ _ => rfl, .refused r, none, ?_, Or.inl ⟨rfl, rfl, rfl⟩, ?_⟩
      · simp [view, Call.ret, hws, hrec]
      · exact ⟨by simp [verdict, verdictOn], fun _ => Or.inr ⟨rfl, rfl⟩, by simp [hasLeftover]⟩
  | unbound stage =>
    obtain ⟨hpc, rfl, hws, hrec⟩ := View.mk.inj hview
    have hslot := hx _ rfl
    cases stage with
    | registered =>
      obtain ⟨rfl, rfl, ⟨rfl, rfl⟩ | ⟨e, rfl, rfl⟩⟩ := callStep_registered hpc h
      · refine ⟨rfl, fun _ _ => rfl, .unbound .sent, some {}, ?_, ?_, ?_⟩
        · simp [view, Stage.pc, hws, hrec]
        · exact Or.inr (Or.inr ⟨by simp, hslot⟩)
        · exact .of (by simp [verdict, verdictOn, Event.verdict]) rfl rfl
      · refine ⟨rfl, fun _ _ => rfl, .unbound (.sendFailed (sendFailure e)), some {}, ?_, ?_, ?_⟩
        · simp [view, Stage.pc, hws, hrec]
        · exact Or.inr (Or.inr ⟨by simp, hslot⟩)
        · exact .of (by simp [verdict, verdictOn, Event.verdict]) rfl rfl
    | sendFailed f =>
      obtain ⟨rfl, rfl, rfl, rfl⟩ := callStep_sendFailed hpc h
      rw [PendingCalls.complete_other hslot rfl rfl]
      refine ⟨rfl, fun id => hins id _, .popping f f, some (.settled f 0), ?_, ?_, ?_⟩
      · simp [view, hws, hrec]
      · exact Or.inr (Or.inr ⟨by simp, by simp⟩)
      · exact .of (by simp [verdict, verdictOn, Event.verdict, hpc, Stage.pc]) rfl rfl
    | sent =>
      obtain ⟨d, rfl, rfl, ⟨rfl, rfl⟩ | ⟨rfl, rfl⟩⟩ := callStep_sent_open hpc hslot h
      · refine ⟨rfl, fun id => hins id _, .waiting d, some (.async k d), ?_, ?_, ?_⟩
        · simp [view, hws, hrec]
        · exact Or.inr (Or.inr ⟨by simp, by simp [Slot.async]⟩)
        · exact .of (by simp [verdict, verdictOn, Event.verdict]) rfl rfl
      · refine ⟨rfl, fun id => hins id _, .suspended d, some (.coroutine k d), ?_, ?_, ?_⟩
        · simp [view, hws, hrec]
        · exact Or.inr (Or.inr ⟨by simp, by simp [Slot.coroutine]⟩)
        · exact .of (by simp [verdict, verdictOn, Event.verdict]) rfl rfl
  | settled stage r =>
    obtain ⟨hpc, rfl, hws, hrec⟩ := View.mk.inj hview
    have hslot := hx _ rfl
    have hv : verdictOn k c (some (.settled r 0)) (.call k a) = none := by
      simp [verdictOn, Event.verdict]
    rw [hv]
    cases stage with
    | registered =>
      obtain ⟨rfl, rfl, ⟨rfl, rfl⟩ | ⟨e, rfl, rfl⟩⟩ := callStep_registered hpc h
      · refine ⟨rfl, fun _ _ => rfl, .settled .sent r, some (.settled r 0), ?_, ?_, ?_⟩
        · simp [view, Stage.pc, hws, hrec]
        · exact Or.inr (Or.inr ⟨by simp, hslot⟩)
        · exact .of (by simp [verdict]) rfl rfl
      · refine ⟨rfl, fun _ _ => rfl, .settled (.sendFailed (sendFailure e)) r,
          some (.settled r 0), ?_, ?_, ?_⟩
        · simp [view, Stage.pc, hws, hrec]
        · exact Or.inr (Or.inr ⟨by simp, hslot⟩)
        · exact .of (by simp [verdict]) rfl rfl
    | sendFailed f =>
      obtain ⟨rfl, rfl, rfl, rfl⟩ := callStep_sendFailed hpc h
      rw [PendingCalls.complete_done hslot rfl]
      refine ⟨rfl, fun _ _ => rfl, .popping f r, some (.settled r 0), ?_, ?_, ?_⟩
      · simp [view, hws, hrec]
      · exact Or.inr (Or.inr ⟨by simp, hslot⟩)
      · exact .of (by simp [verdict]) rfl rfl
    | sent =>
      obtain ⟨d, rfl, rfl, ⟨rfl, rfl⟩ | ⟨rfl, rfl⟩⟩ := callStep_sent_done hpc hslot rfl rfl rfl h
      · refine ⟨rfl, hera, .fulfilled r none, none, ?_, ?_, ?_⟩
        · simp [view, hws, hrec, Slot.settled]
        · exact Or.inr (Or.inr ⟨by simp, by simp⟩)
        · exact .of (by simp [verdict]) rfl rfl
      · refine ⟨rfl, fun _ _ => rfl, .resumed r 0, some (.settled r 0), ?_, ?_, ?_⟩
        · simp [view, hws, hrec]
        · exact Or.inr (Or.inr ⟨by simp, hslot⟩)
        · exact .of (by simp [verdict]) rfl rfl
  | popping f r =>
    obtain ⟨hpc, rfl, hws, hrec⟩ := View.mk.inj hview
    obtain ⟨rfl, rfl, rfl, rfl⟩ := callStep_popping hpc (hx _ rfl) rfl rfl h
    refine ⟨rfl, hera, .returned r, none, ?_, ?_, ?_⟩
    · simp [view, Call.ret, hws, hrec, Slot.settled]
    · exact Or.inr (Or.inr ⟨by simp, by simp⟩)
    · exact .of (by simp [verdict, verdictOn, Event.verdict]) rfl rfl
  | resumed r d =>
    obtain ⟨hpc, rfl, hws, hrec⟩ := View.mk.inj hview
    obtain ⟨rfl, rfl, rfl, rfl⟩ := callStep_resumed hpc (hx _ rfl) rfl h
    refine ⟨rfl, hera, .returned r, none, ?_, ?_, ?_⟩
    · simp [view, Call.ret, hws, hrec, Slot.settled]
    · exact Or.inr (Or.inr ⟨by simp, by simp⟩)
    · exact .of (by simp [verdict, verdictOn, Event.verdict]) rfl rfl
  | waiting d | suspended d | fulfilling r left | resuming r d | fulfilled r left | returned r
  | refused r =>
    obtain ⟨hpc, -⟩ := View.mk.inj hview
    rw [callStep_idle (by rw [hpc]; simp)] at h
    cases h

/-- What a hit with `r` decides for a slot. -/
def hitVerdict (hit : Slot ℕ → Bool) (r : RpcCallResult) (slot : Option (Slot ℕ)) :
    Option RpcCallResult :=
  slot.bind fun slot => if !slot.done && hit slot then some r else none

/-- **`Complete` settles an open slot** and wakes its waiter; any other slot it
leaves as it is. -/
theorem Life.of_complete {p : PendingCalls ℕ} {k : ℕ} {id : String} {pc : Pc}
    {ws₀ : List (Wake ℕ)} {rec : List RpcCallResult} {l : Life} (r : RpcCallResult)
    (hview : ⟨pc, p.slots.lookup id, ws₀, rec⟩ = l.view k) :
    (∀ w ∈ (p.complete id r).2.1, w.owner = k) ∧
      ∃ l' : Life, ⟨pc, (p.complete id r).1.slots.lookup id, ws₀ ++ (p.complete id r).2.1, rec⟩ =
          l'.view k ∧
        l.Follows (hitVerdict (fun _ => true) r (p.slots.lookup id)) False False l' := by
  cases l with
  | drawn | returned | refused =>
    obtain ⟨-, hslot, -, -⟩ := View.mk.inj hview
    rw [PendingCalls.complete_absent hslot]
    exact ⟨by simp, _, by simpa using hview, .of (by simp [hslot, hitVerdict]) rfl rfl⟩
  | unbound stage =>
    obtain ⟨hpc, hslot, hws, hrec⟩ := View.mk.inj hview
    rw [PendingCalls.complete_other hslot rfl rfl]
    refine ⟨by simp, .settled stage r, ?_, ?_⟩
    · simp [Life.view, hpc, hws, hrec]
    · exact .of (by simp [Life.verdict, hitVerdict, hslot]) rfl rfl
  | waiting d =>
    obtain ⟨hpc, hslot, hws, hrec⟩ := View.mk.inj hview
    rw [PendingCalls.complete_async hslot rfl rfl]
    refine ⟨by simp [Wake.owner], .fulfilling r none, ?_, ?_⟩
    · simp [Life.view, hpc, hws, hrec]
    · exact .of (by simp [Life.verdict, hitVerdict, hslot]) rfl rfl
  | suspended d =>
    obtain ⟨hpc, hslot, hws, hrec⟩ := View.mk.inj hview
    rw [PendingCalls.complete_other hslot rfl rfl]
    refine ⟨by simp [Wake.owner], .resuming r d, ?_, ?_⟩
    · simp [Life.view, hpc, hws, hrec]
    · exact .of (by simp [Life.verdict, hitVerdict, hslot]) rfl rfl
  | settled stage r₀ | popping f r₀ | resuming r₀ d | resumed r₀ d =>
    obtain ⟨-, hslot, -, -⟩ := View.mk.inj hview
    rw [PendingCalls.complete_done hslot rfl]
    exact ⟨by simp, _, by simpa using hview, .of (by simp [hslot, hitVerdict]) rfl rfl⟩
  | fulfilling r₀ left | fulfilled r₀ left =>
    obtain ⟨-, hslot, -, -⟩ := View.mk.inj hview
    have hsame : p.complete id r = (p, [], false) := by
      cases left with
      | none => exact PendingCalls.complete_absent hslot
      | some d => exact PendingCalls.complete_done hslot rfl
    rw [hsame]
    refine ⟨by simp, _, by simpa using hview, .of ?_ rfl rfl⟩
    cases left <;> simp [hslot, hitVerdict]

/-- The slot of a call and what is collected for it, after a sweep. -/
def sweptView (hit : Slot ℕ → Bool) (r : RpcCallResult) (x : View) : View :=
  { x with
    slot := x.slot.map fun slot => if hit slot then (slot.settle r).release else slot
    wakes := x.wakes ++ ((x.slot.bind (Slot.collect hit r Slot.asyncWaiter)).toList ++
      (x.slot.bind (Slot.collect hit r Slot.coroutineWaiter)).toList) }

/-- A sweep fulfils the promise of a slot, and the slot stays. -/
def Strands (hit : Slot ℕ → Bool) (slot : Option (Slot ℕ)) : Prop :=
  ∃ x, slot = some x ∧ hit x ∧ x.asyncPromise ≠ none

/-- **A sweep settles the open slots it hits** and wakes their waiters; a promise
leaves its slot behind. -/
theorem Life.of_sweep (hit : Slot ℕ → Bool) (r : RpcCallResult) (k : ℕ) (l : Life) :
    ∃ l' : Life, sweptView hit r (l.view k) = l'.view k ∧
      l.Follows (hitVerdict hit r (l.slot k)) False (Strands hit (l.slot k)) l' := by
  cases l with
  | drawn => exact ⟨.drawn, rfl, .rfl⟩
  | returned r₀ => exact ⟨.returned r₀, rfl, .rfl⟩
  | refused r₀ => exact ⟨.refused r₀, rfl, .rfl⟩
  | unbound stage =>
    by_cases h : hit {}
    · exact ⟨.settled stage r, by simp [sweptView, view, Slot.collect, h],
        .of (by simp [hitVerdict, verdict, slot, view, h]) rfl rfl⟩
    · exact ⟨.unbound stage, by simp [sweptView, view, Slot.collect, h],
        .of (by simp [hitVerdict, verdict, slot, view, h]) rfl rfl⟩
  | waiting d =>
    by_cases h : hit (.async k d)
    · exact ⟨.fulfilling r (some d), by simp [sweptView, view, Slot.collect, h],
        by simp [hitVerdict, verdict, slot, view, h], by simp [isRefused],
        fun _ => Or.inr ⟨_, rfl, h, by simp [Slot.async]⟩⟩
    · exact ⟨.waiting d, by simp [sweptView, view, Slot.collect, h],
        .of (by simp [hitVerdict, verdict, slot, view, h]) rfl rfl⟩
  | suspended d =>
    by_cases h : hit (.coroutine k d)
    · exact ⟨.resuming r d, by simp [sweptView, view, Slot.collect, h],
        .of (by simp [hitVerdict, verdict, slot, view, h]) rfl rfl⟩
    · exact ⟨.suspended d, by simp [sweptView, view, Slot.collect, h],
        .of (by simp [hitVerdict, verdict, slot, view, h]) rfl rfl⟩
  -- a finished slot is left as it is, and nobody waits in it
  | settled stage r₀ =>
    exact ⟨.settled stage r₀, by simp [sweptView, view, Slot.collect],
      .of (by simp [hitVerdict, verdict, slot, view]) rfl rfl⟩
  | popping f r₀ =>
    exact ⟨.popping f r₀, by simp [sweptView, view, Slot.collect],
      .of (by simp [hitVerdict, verdict, slot, view]) rfl rfl⟩
  | resuming r₀ d =>
    exact ⟨.resuming r₀ d, by simp [sweptView, view, Slot.collect],
      .of (by simp [hitVerdict, verdict, slot, view]) rfl rfl⟩
  | resumed r₀ d =>
    exact ⟨.resumed r₀ d, by simp [sweptView, view, Slot.collect],
      .of (by simp [hitVerdict, verdict, slot, view]) rfl rfl⟩
  | fulfilling r₀ left =>
    refine ⟨.fulfilling r₀ left, ?_, .of ?_ rfl rfl⟩ <;> cases left <;>
      simp [sweptView, view, slot, Slot.collect, hitVerdict]
  | fulfilled r₀ left =>
    refine ⟨.fulfilled r₀ left, ?_, .of ?_ rfl rfl⟩ <;> cases left <;>
      simp [sweptView, view, slot, Slot.collect, hitVerdict]

/-- **A wake-up reaches the call it is for**, and nothing else is on its way to
it. -/
theorem Life.of_wake {k : ℕ} {l : Life} {w : Wake ℕ} {c : Call} {slot : Option (Slot ℕ)}
    {ws : List (Wake ℕ)} (hview : ⟨c.pc, slot, ws, c.received⟩ = l.view k) (hw : w ∈ ws) :
    ∃ l' : Life, ⟨(c.woken w).pc, slot, ws.erase w, (c.woken w).received⟩ = l'.view k ∧
      l.Follows none False False l' := by
  cases l with
  | fulfilling r left =>
    obtain ⟨hpc, hslot, rfl, hrec⟩ := View.mk.inj hview
    obtain rfl := List.mem_singleton.1 hw
    exact ⟨.fulfilled r left, by simp [Call.woken, view, hpc, hslot, hrec],
      .of (by simp [verdict]) rfl rfl⟩
  | resuming r d =>
    obtain ⟨hpc, hslot, rfl, hrec⟩ := View.mk.inj hview
    obtain rfl := List.mem_singleton.1 hw
    exact ⟨.resumed r d, by simp [Call.woken, view, hslot, hrec],
      .of (by simp [verdict]) rfl rfl⟩
  | _ =>
    obtain ⟨-, -, rfl, -⟩ := View.mk.inj hview
    cases hw

end Client
end MiniRpc
