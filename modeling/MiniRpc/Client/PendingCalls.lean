/-
# The table of pending calls

`src/client/pending_calls.{h,cpp}`: one slot for each call that waits for its
response, under its request id.  A slot is finished by a response
(`Complete`), by the clock (`FailTimedOut`) or by the end of the connection
(`FailAll`); its waiter is the promise of a `CallAsync` or the coroutine of a
`CallCo`, bound after the request was sent and so possibly after the slot was
finished.

Every operation runs under `mutex_`, so each is one function of the table.  What
an operation does after it released the mutex, fulfilling promises and resuming
coroutines, it returns as a list of `Wake`s, for the caller's thread to carry
out.  A promise and a coroutine handle are known by the waiter `α` they belong
to; `α` is whatever the user of the table tells its calls apart by.  The
condition variable of a slot is left out: `WaitAndPop`, which no call of
`RpcClient` uses, is the one operation that waits on it, and `waitAndPop` is what
it does each time it has the mutex.
-/

import MiniRpc.Common.RpcError
import MiniRpc.Library.Table

namespace MiniRpc
namespace Client

/-- What an operation does for a waiter once it has released the mutex. -/
inductive Wake (α : Type*) where
  | setValue (promise : α) (result : RpcCallResult)
  | resume (handle : α)
  deriving DecidableEq

/-- Whose promise or coroutine it is. -/
def Wake.owner {α : Type*} : Wake α → α
  | .setValue p _ => p
  | .resume h => h

/-- `PendingCalls::Slot`. -/
structure Slot (α : Type*) where
  done : Bool := false
  result : RpcCallResult := {}
  asyncPromise : Option α := none
  asyncBound : Bool := false
  coroutineHandle : Option α := none
  coroutineBound : Bool := false
  deadline : Time := 0
  deriving DecidableEq

namespace Slot

variable {α : Type*}

/-- `slot.done = true; slot.result = r`, for a slot that is not done. -/
def settle (r : RpcCallResult) (slot : Slot α) : Slot α :=
  if slot.done then slot else { slot with done := true, result := r }

@[simp] theorem asyncPromise_settle (r : RpcCallResult) (slot : Slot α) :
    (slot.settle r).asyncPromise = slot.asyncPromise := by
  unfold settle
  split_ifs <;> rfl

@[simp] theorem coroutineHandle_settle (r : RpcCallResult) (slot : Slot α) :
    (slot.settle r).coroutineHandle = slot.coroutineHandle := by
  unfold settle
  split_ifs <;> rfl

/-- `slot.coroutine_bound && slot.coroutine_handle`. -/
def hasCoroutine (slot : Slot α) : Bool := slot.coroutineBound && slot.coroutineHandle.isSome

/-- The entry of `async_waiters` for a slot. -/
def asyncWaiter (slot : Slot α) : Option (Wake α) :=
  slot.asyncPromise.map fun p => .setValue p slot.result

/-- The entry of `coroutine_waiters` for a slot. -/
def coroutineWaiter (slot : Slot α) : Option (Wake α) :=
  if slot.hasCoroutine then slot.coroutineHandle.map .resume else none

/-- The slot after its waiters were moved out of it. -/
def release (slot : Slot α) : Slot α :=
  if slot.hasCoroutine then
    { slot with asyncPromise := none, coroutineBound := false, coroutineHandle := none }
  else { slot with asyncPromise := none }

/-- A slot that is settled and released is done, with the first result it got. -/
theorem done_release_settle (r : RpcCallResult) (slot : Slot α) :
    (slot.settle r).release.done = true ∧
      (slot.settle r).release.result = if slot.done then slot.result else r := by
  unfold release settle
  split_ifs <;> simp_all

/-- The test of `FailTimedOut`, the other way round: not done, past its deadline
and with a waiter. -/
def timedOut (now : Time) (slot : Slot α) : Bool :=
  !(slot.done || now < slot.deadline || (!slot.asyncBound && !slot.coroutineBound))

/-- What a pass over the table collects from a slot that is `hit` and finished
with `r`. -/
def collect (hit : Slot α → Bool) (r : RpcCallResult) (waiter : Slot α → Option (Wake α))
    (slot : Slot α) : Option (Wake α) :=
  if hit slot then waiter (slot.settle r) else none

theorem asyncPromise_of_collect {hit : Slot α → Bool} {r : RpcCallResult} {slot : Slot α}
    {w : Wake α} (h : slot.collect hit r asyncWaiter = some w) :
    slot.asyncPromise = some w.owner := by
  unfold collect at h
  split_ifs at h
  obtain ⟨b, hb, rfl⟩ := Option.map_eq_some_iff.1 h
  rwa [asyncPromise_settle] at hb

theorem coroutineHandle_of_collect {hit : Slot α → Bool} {r : RpcCallResult} {slot : Slot α}
    {w : Wake α} (h : slot.collect hit r coroutineWaiter = some w) :
    slot.coroutineHandle = some w.owner := by
  unfold collect coroutineWaiter at h
  split_ifs at h
  obtain ⟨b, hb, rfl⟩ := Option.map_eq_some_iff.1 h
  rwa [coroutineHandle_settle] at hb

end Slot

/-- `PendingCalls`: the map `slots_`. -/
structure PendingCalls (α : Type*) where
  slots : Table String (Slot α) := ∅

/-- `PendingCalls::BindCoroutineStatus`. -/
inductive BindCoroutineStatus where
  | kBound
  | kAlreadyDone
  | kNotFound
  | kAlreadyBound
  deriving DecidableEq, Repr

namespace PendingCalls

variable {α : Type*}

/-- `Add`. -/
def add (p : PendingCalls α) (id : String) : PendingCalls α × Bool :=
  if id = "" then (p, false)
  else
    let (slots, inserted) := p.slots.tryEmplace id {}
    (⟨slots⟩, inserted)

/-- `BindAsync`.  A slot that is done fulfils the promise at once, inside the
mutex; the value is returned. -/
def bindAsync (p : PendingCalls α) (id : String) (promise : α) (deadline : Time) :
    PendingCalls α × Bool × Option RpcCallResult :=
  match p.slots.lookup id with
  | none => (p, false, none)
  | some slot =>
    if slot.asyncBound then (p, false, none)
    else if slot.coroutineBound then (p, false, none)
    else if slot.done then (⟨p.slots.erase id⟩, true, some slot.result)
    else
      (⟨p.slots.insert id
        { slot with asyncPromise := some promise, asyncBound := true, deadline }⟩, true, none)

/-- `BindCoroutine`. -/
def bindCoroutine (p : PendingCalls α) (id : String) (handle : α) (deadline : Time) :
    PendingCalls α × BindCoroutineStatus :=
  match p.slots.lookup id with
  | none => (p, .kNotFound)
  | some slot =>
    if slot.coroutineBound then (p, .kAlreadyBound)
    else if slot.asyncBound then (p, .kAlreadyBound)
    else if slot.done then (p, .kAlreadyDone)
    else
      (⟨p.slots.insert id
        { slot with coroutineHandle := some handle, coroutineBound := true, deadline }⟩, .kBound)

/-- `Complete`: the first result of a slot is kept, and handed to a waiter that
is already there. -/
def complete (p : PendingCalls α) (id : String) (r : RpcCallResult) :
    PendingCalls α × List (Wake α) × Bool :=
  match p.slots.lookup id with
  | none => (p, [], false)
  | some slot =>
    if slot.done then (p, [], false)
    else
      match (slot.settle r).asyncWaiter with
      | some wake => (⟨p.slots.erase id⟩, [wake], true)
      | none =>
        (⟨p.slots.insert id (slot.settle r).release⟩, (slot.settle r).coroutineWaiter.toList, true)

/-- `TryPop`. -/
def tryPop (p : PendingCalls α) (id : String) : PendingCalls α × Option RpcCallResult :=
  match p.slots.lookup id with
  | none => (p, none)
  | some slot => if slot.done then (⟨p.slots.erase id⟩, some slot.result) else (p, none)

/-- `WaitAndPop`, when it comes in and again when its wait is over.  A slot that is
not done stays, and the caller waits for it or gives up. -/
def waitAndPop (p : PendingCalls α) (id : String) : PendingCalls α × Option RpcCallResult :=
  match p.slots.lookup id with
  | none => (p, none)
  | some slot => if !slot.done then (p, none) else (⟨p.slots.erase id⟩, some slot.result)

/-- `Remove`. -/
def remove (p : PendingCalls α) (id : String) : PendingCalls α := ⟨p.slots.erase id⟩

/-- One pass of `FailAll` or `FailTimedOut` over the table: the slots that are
`hit` are finished with `r` and lose their waiters, which are woken afterwards,
promises first. -/
def sweep (p : PendingCalls α) (hit : Slot α → Bool) (r : RpcCallResult) :
    PendingCalls α × List (Wake α) :=
  (⟨p.slots.mapVals fun slot => if hit slot then (slot.settle r).release else slot⟩,
    p.slots.entries.filterMap (fun e => e.2.collect hit r Slot.asyncWaiter) ++
      p.slots.entries.filterMap (fun e => e.2.collect hit r Slot.coroutineWaiter))

/-- `FailAll`. -/
def failAll (p : PendingCalls α) (r : RpcCallResult) : PendingCalls α × List (Wake α) :=
  p.sweep (fun _ => true) r

/-- `FailTimedOut`. -/
def failTimedOut (p : PendingCalls α) (now : Time) (r : RpcCallResult) :
    PendingCalls α × List (Wake α) :=
  p.sweep (Slot.timedOut now) r

/-- `Size`. -/
def size (p : PendingCalls α) : ℕ := p.slots.size

/-! ### What the operations do to one slot -/

variable {p : PendingCalls α} {id : String} {slot : Slot α} {r : RpcCallResult}

theorem complete_absent (h : p.slots.lookup id = none) : p.complete id r = (p, [], false) := by
  simp [complete, h]

theorem complete_done (h : p.slots.lookup id = some slot) (hd : slot.done) :
    p.complete id r = (p, [], false) := by
  simp [complete, h, hd]

/-- A waiting promise is taken out with its slot. -/
theorem complete_async (h : p.slots.lookup id = some slot) (hd : slot.done = false) {a : α}
    (ha : slot.asyncPromise = some a) :
    p.complete id r = (⟨p.slots.erase id⟩, [.setValue a r], true) := by
  simp [complete, h, hd, Slot.asyncWaiter, Slot.settle, ha]

theorem complete_other (h : p.slots.lookup id = some slot) (hd : slot.done = false)
    (ha : slot.asyncPromise = none) :
    p.complete id r = (⟨p.slots.insert id (slot.settle r).release⟩,
      (slot.settle r).coroutineWaiter.toList, true) := by
  simp [complete, h, hd, Slot.asyncWaiter, Slot.settle, ha]

theorem lookup_complete_ne {id' : String} (h : id' ≠ id) :
    (p.complete id r).1.slots.lookup id' = p.slots.lookup id' := by
  unfold complete
  split
  · rfl
  · split_ifs
    · rfl
    · split
      · exact AList.lookup_erase_ne h
      · exact AList.lookup_insert_ne h

variable {hit : Slot α → Bool}

theorem lookup_sweep : (p.sweep hit r).1.slots.lookup id =
    (p.slots.lookup id).map fun slot => if hit slot then (slot.settle r).release else slot :=
  Table.lookup_mapVals _ _ _

/-- The wake-ups of a sweep for the waiter `a` come from the one slot in which
`a` waits. -/
theorem filter_wakes_sweep [DecidableEq α] {a : α}
    (h : ∀ id' slot, p.slots.lookup id' = some slot →
      (∀ b ∈ slot.asyncPromise, b = a ↔ id' = id) ∧ ∀ b ∈ slot.coroutineHandle, b = a ↔ id' = id) :
    (p.sweep hit r).2.filter (·.owner = a) =
      ((p.slots.lookup id).bind (Slot.collect hit r Slot.asyncWaiter)).toList ++
        ((p.slots.lookup id).bind (Slot.collect hit r Slot.coroutineWaiter)).toList := by
  rw [sweep, List.filter_append]
  congr 1
  · exact Table.filter_filterMap_of_owner p.slots (Slot.collect hit r Slot.asyncWaiter) _ id
      fun id' slot w hs hw => decide_eq_true_iff.trans
        ((h id' slot hs).1 _ (Slot.asyncPromise_of_collect hw))
  · exact Table.filter_filterMap_of_owner p.slots (Slot.collect hit r Slot.coroutineWaiter) _ id
      fun id' slot w hs hw => decide_eq_true_iff.trans
        ((h id' slot hs).2 _ (Slot.coroutineHandle_of_collect hw))

/-- A sweep wakes nobody but those who wait in a slot. -/
theorem owner_of_mem_sweep {w : Wake α} (hw : w ∈ (p.sweep hit r).2) :
    ∃ id slot, p.slots.lookup id = some slot ∧
      (slot.asyncPromise = some w.owner ∨ slot.coroutineHandle = some w.owner) := by
  rcases List.mem_append.1 hw with hw | hw
  · obtain ⟨e, he, hc⟩ := List.mem_filterMap.1 hw
    exact ⟨e.1, e.2, AList.mem_lookup_iff.2 he, Or.inl (Slot.asyncPromise_of_collect hc)⟩
  · obtain ⟨e, he, hc⟩ := List.mem_filterMap.1 hw
    exact ⟨e.1, e.2, AList.mem_lookup_iff.2 he, Or.inr (Slot.coroutineHandle_of_collect hc)⟩

/-! ### No operation but `Add` opens a slot

Each lemma takes an unfinished slot of the table after the operation and finds
it in the table before. -/

theorem open_of_complete {id' : String} {x : Slot α}
    (h : (p.complete id' r).1.slots.lookup id = some x) (hx : x.done = false) :
    p.slots.lookup id = some x := by
  by_cases hid : id = id'
  swap
  · rwa [lookup_complete_ne hid] at h
  subst hid
  cases hl : p.slots.lookup id with
  | none =>
    rw [complete_absent hl, hl] at h
    cases h
  | some slot =>
    cases hd : slot.done with
    | true => rwa [complete_done hl hd, hl] at h
    | false =>
      cases ha : slot.asyncPromise with
      | some a =>
        rw [complete_async hl hd ha] at h
        exact hl ▸ Table.lookup_of_erase h
      | none =>
        rw [complete_other hl hd ha, AList.lookup_insert] at h
        obtain rfl := Option.some.inj h
        rw [(slot.done_release_settle r).1] at hx
        cases hx

theorem open_of_add {id' : String} {x : Slot α} (h : (p.add id').1.slots.lookup id = some x) :
    p.slots.lookup id = some x ∨ id' = id ∧ p.slots.lookup id = none ∧ x = {} := by
  unfold add Table.tryEmplace at h
  split_ifs at h
  · exact Or.inl h
  · cases hl : p.slots.lookup id' with
    | some slot =>
      simp only [hl] at h
      exact Or.inl h
    | none =>
      simp only [hl] at h
      by_cases hid : id = id'
      · rw [hid, AList.lookup_insert] at h
        exact Or.inr ⟨hid.symm, hid ▸ hl, (Option.some.inj h).symm⟩
      · rw [AList.lookup_insert_ne hid] at h
        exact Or.inl h

theorem open_of_tryPop {id' : String} {x : Slot α}
    (h : (p.tryPop id').1.slots.lookup id = some x) : p.slots.lookup id = some x := by
  unfold tryPop at h
  split at h
  · exact h
  · split_ifs at h
    · exact Table.lookup_of_erase h
    · exact h

/-- A wait that is over is a `TryPop`. -/
theorem waitAndPop_eq_tryPop : p.waitAndPop id = p.tryPop id := by
  unfold waitAndPop tryPop
  split
  · rfl
  · split_ifs <;> simp_all

theorem open_of_bindAsync {id' : String} {a : α} {d : Time} {x : Slot α}
    (h : (p.bindAsync id' a d).1.slots.lookup id = some x) :
    p.slots.lookup id = some x ∨
      id' = id ∧ ∃ slot, p.slots.lookup id = some slot ∧ slot.done = false := by
  unfold bindAsync at h
  split at h
  · exact Or.inl h
  rename_i slot hslot
  split_ifs at h with _ _ hd
  · exact Or.inl h
  · exact Or.inl h
  · exact Or.inl (Table.lookup_of_erase h)
  · by_cases hid : id = id'
    · exact Or.inr ⟨hid.symm, slot, hid ▸ hslot, by simpa using hd⟩
    · rw [AList.lookup_insert_ne hid] at h
      exact Or.inl h

theorem open_of_bindCoroutine {id' : String} {a : α} {d : Time} {x : Slot α}
    (h : (p.bindCoroutine id' a d).1.slots.lookup id = some x) :
    p.slots.lookup id = some x ∨
      id' = id ∧ ∃ slot, p.slots.lookup id = some slot ∧ slot.done = false := by
  unfold bindCoroutine at h
  split at h
  · exact Or.inl h
  rename_i slot hslot
  split_ifs at h with _ _ hd
  · exact Or.inl h
  · exact Or.inl h
  · exact Or.inl h
  · by_cases hid : id = id'
    · exact Or.inr ⟨hid.symm, slot, hid ▸ hslot, by simpa using hd⟩
    · rw [AList.lookup_insert_ne hid] at h
      exact Or.inl h

theorem open_of_sweep {x : Slot α} (h : (p.sweep hit r).1.slots.lookup id = some x)
    (hx : x.done = false) : p.slots.lookup id = some x ∧ hit x = false := by
  rw [lookup_sweep] at h
  obtain ⟨slot, hl, rfl⟩ := Option.map_eq_some_iff.1 h
  cases hh : hit slot with
  | true =>
    rw [if_pos hh, (slot.done_release_settle r).1] at hx
    cases hx
  | false => simpa [hh] using hl

end PendingCalls
end Client
end MiniRpc
