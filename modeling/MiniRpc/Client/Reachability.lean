/-
# The health of a channel

A channel of `RpcClientPool` (`src/client/rpc_client_pool.cpp`) keeps one fact in
two atomics, `consecutive_failures` and `healthy`, and each completion of a call
updates them one after the other: `RecordReachability` and its copy in
`CallAsync` set the count to zero and then the flag, or count one up and clear
the flag if that reached the maximum.  `Warmup` stores both too.  Any number of
completions may be between their two steps at once.

The flag and the count disagree for a time whenever a completion is between its
steps, and that completion puts them right again, if nobody else gets in
between.  `Explained` says that each disagreement has such a completion, and
`orderly` which steps leave it that way.
-/

import MiniRpc.Common.RpcError
import MiniRpc.Library.Table
import MiniRpc.Library.Transition
import Mathlib.Algebra.Group.Nat.Defs

namespace MiniRpc
namespace Client

open Transition

/-- The atomics of `Channel` that say whether it can be reached. -/
structure Health where
  consecutiveFailures : ℕ := 0
  healthy : Bool := true
  deriving DecidableEq, Repr

/-- The next atomic operation of a completion. -/
inductive Recording where
  /-- `consecutive_failures.store(0)`, then `healing`. -/
  | zeroing
  /-- `healthy.store(true)`. -/
  | healing
  /-- `consecutive_failures.fetch_add(1)`, then `condemning` at the maximum. -/
  | adding
  /-- `consecutive_failures.store(max_consecutive_failures)`, then `condemning`. -/
  | capping
  /-- `healthy.store(false)`. -/
  | condemning
  deriving DecidableEq, Repr

/-- One atomic operation, and the one that comes after it. -/
def Recording.run (maxFailures : ℕ) (h : Health) : Recording → Health × Option Recording
  | .zeroing => ({ h with consecutiveFailures := 0 }, some .healing)
  | .healing => ({ h with healthy := true }, none)
  | .adding =>
    let failures := (h.consecutiveFailures + 1) % 2 ^ 64
    ({ h with consecutiveFailures := failures },
      if maxFailures ≤ failures then some .condemning else none)
  | .capping => ({ h with consecutiveFailures := maxFailures }, some .condemning)
  | .condemning => ({ h with healthy := false }, none)

/-- How a call, or an attempt of `Warmup` to connect, ended. -/
inductive Ending where
  | reachable
  | unreachable
  /-- `Warmup` could not connect. -/
  | notWarm
  deriving DecidableEq, Repr

/-- The first operation for an ending. -/
def Ending.recording : Ending → Recording
  | .reachable => .zeroing
  | .unreachable => .adding
  | .notWarm => .capping

/-- A channel with the completions that are recording their ending. -/
structure Recorder where
  health : Health := {}
  running : Table ℕ Recording := ∅

namespace Recorder

/-- One atomic step. -/
inductive Act where
  /-- The completion `t` starts to record its ending. -/
  | start (t : ℕ) (ending : Ending)
  | run (t : ℕ)

/-- One step, `none` if it cannot happen in the state. -/
def step (maxFailures : ℕ) (s : Recorder) : Act → Option Recorder
  | .start t ending =>
    if (s.running.lookup t).isSome then none
    else some { s with running := s.running.insert t ending.recording }
  | .run t =>
    match s.running.lookup t with
    | none => none
    | some r =>
      match r.run maxFailures s.health with
      | (health, some next) => some { health, running := s.running.insert t next }
      | (health, none) => some { health, running := s.running.erase t }

/-- The flag says what the count says. -/
def Settled (maxFailures : ℕ) (s : Recorder) : Prop :=
  s.health.healthy = true ↔ s.health.consecutiveFailures < maxFailures

/-- A completion other than `t` is about to do `r`. -/
def awaits (s : Recorder) (t : ℕ) (r : Recording) : Bool :=
  s.running.entries.any fun e => e.1 ≠ t && e.2 = r

/-- A store to the flag agrees with the count, or another completion has still
to store the opposite; and the count of an unhealthy channel does not wrap to
zero, unless it is about to be healed. -/
def orderly (maxFailures : ℕ) (s : Recorder) : Act → Bool
  | .start _ _ => true
  | .run t =>
    match s.running.lookup t with
    | some .healing => s.health.consecutiveFailures < maxFailures || s.awaits t .condemning
    | some .condemning => maxFailures ≤ s.health.consecutiveFailures || s.awaits t .healing
    | some .adding =>
      s.health.healthy || s.health.consecutiveFailures + 1 < 2 ^ 64 || s.awaits t .healing
    | _ => true

theorem awaits_iff {s : Recorder} {t : ℕ} {r : Recording} :
    s.awaits t r = true ↔ ∃ t', t' ≠ t ∧ s.running.lookup t' = some r := by
  rw [awaits, List.any_eq_true]
  constructor
  · rintro ⟨e, he, h⟩
    simp only [Bool.and_eq_true, decide_eq_true_eq] at h
    exact ⟨e.1, h.1, h.2 ▸ AList.mem_lookup_iff.2 he⟩
  · rintro ⟨t', ht', hl⟩
    exact ⟨⟨t', r⟩, AList.mem_lookup_iff.1 hl, by simpa using ht'⟩

/-- Where the flag and the count disagree, a completion is about to store the
flag. -/
def Explained (maxFailures : ℕ) (s : Recorder) : Prop :=
  s.Settled maxFailures ∨
    (s.health.healthy = false ∧ s.health.consecutiveFailures < maxFailures ∧
      ∃ t, s.running.lookup t = some .healing) ∨
    (s.health.healthy = true ∧ maxFailures ≤ s.health.consecutiveFailures ∧
      ∃ t, s.running.lookup t = some .condemning)

variable {maxFailures : ℕ} {s s' : Recorder}

/-- With nobody about to store the flag there is no disagreement. -/
theorem Explained.settled (h : s.Explained maxFailures)
    (hdone : ∀ t, s.running.lookup t = none) : s.Settled maxFailures := by
  rcases h with h | ⟨-, -, t, ht⟩ | ⟨-, -, t, ht⟩
  · exact h
  · rw [hdone t] at ht
    cases ht
  · rw [hdone t] at ht
    cases ht

/-- A state is explained if the completion `t` makes up for a disagreement, or
another one does. -/
theorem explained_of {health : Health} {running : Table ℕ Recording}
    (hheal : health.healthy = false → health.consecutiveFailures < maxFailures →
      ∃ t, running.lookup t = some .healing)
    (hcondemn : health.healthy = true → maxFailures ≤ health.consecutiveFailures →
      ∃ t, running.lookup t = some .condemning) :
    Explained maxFailures ⟨health, running⟩ := by
  by_cases hlt : health.consecutiveFailures < maxFailures
  · cases hh : health.healthy with
    | true => exact Or.inl (iff_of_true hh hlt)
    | false => exact Or.inr (Or.inl ⟨hh, hlt, hheal hh hlt⟩)
  · cases hh : health.healthy with
    | true => exact Or.inr (Or.inr ⟨hh, Nat.le_of_not_lt hlt, hcondemn hh (Nat.le_of_not_lt hlt)⟩)
    | false => exact Or.inl (iff_of_false (by simp [hh]) hlt)

theorem Explained.healing (h : s.Explained maxFailures) (hh : s.health.healthy = false)
    (hlt : s.health.consecutiveFailures < maxFailures) :
    ∃ t, s.running.lookup t = some .healing := by
  rcases h with h | ⟨-, -, h⟩ | ⟨h, -⟩
  · rw [Settled, hh] at h
    exact absurd (h.2 hlt) Bool.false_ne_true
  · exact h
  · rw [hh] at h
    cases h

theorem Explained.condemning (h : s.Explained maxFailures) (hh : s.health.healthy = true)
    (hle : maxFailures ≤ s.health.consecutiveFailures) :
    ∃ t, s.running.lookup t = some .condemning := by
  rcases h with h | ⟨h, -⟩ | ⟨-, -, h⟩
  · have := h.1 hh
    omega
  · rw [hh] at h
    cases h
  · exact h

/-- The completions other than `t` stay where they are. -/
theorem exists_insert {t t' : ℕ} {r next : Recording} (ht' : t' ≠ t)
    (h : s.running.lookup t' = some r) : ∃ u, (s.running.insert t next).lookup u = some r :=
  ⟨t', (AList.lookup_insert_ne ht').trans h⟩

theorem exists_erase {t t' : ℕ} {r : Recording} (ht' : t' ≠ t)
    (h : s.running.lookup t' = some r) : ∃ u, (s.running.erase t).lookup u = some r :=
  ⟨t', (AList.lookup_erase_ne ht').trans h⟩

/-- **An orderly step leaves every disagreement explained.** -/
theorem Explained.step (hmax : 1 ≤ maxFailures) (h : s.Explained maxFailures) {a : Act}
    (ha : s.orderly maxFailures a = true) (hs : Recorder.step maxFailures s a = some s') :
    s'.Explained maxFailures := by
  cases a with
  | start t ending =>
    simp only [Recorder.step] at hs
    split_ifs at hs with hnew
    obtain rfl := Option.some.inj hs
    have hne : ∀ {t' : ℕ} {r : Recording}, s.running.lookup t' = some r → t' ≠ t := by
      rintro t' r hr rfl
      simp [hr] at hnew
    refine explained_of (fun hh hlt => ?_) (fun hh hle => ?_)
    · obtain ⟨t', ht'⟩ := h.healing hh hlt
      exact exists_insert (hne ht') ht'
    · obtain ⟨t', ht'⟩ := h.condemning hh hle
      exact exists_insert (hne ht') ht'
  | run t =>
    simp only [Recorder.step] at hs
    simp only [orderly] at ha
    cases ht : s.running.lookup t with
    | none => simp [ht] at hs
    | some r =>
      have hne : ∀ {t' : ℕ} {r' : Recording}, s.running.lookup t' = some r' → r' ≠ r → t' ≠ t := by
        rintro t' r' hr' hrr rfl
        rw [ht] at hr'
        exact hrr (Option.some.inj hr').symm
      rw [ht] at hs ha
      cases r with
      | zeroing =>
        obtain rfl := Option.some.inj hs
        exact explained_of (fun _ _ => ⟨t, AList.lookup_insert _⟩)
          (fun _ hle => by dsimp only at hle; omega)
      | capping =>
        obtain rfl := Option.some.inj hs
        exact explained_of (fun _ hlt => by dsimp only at hlt; omega)
          (fun _ _ => ⟨t, AList.lookup_insert _⟩)
      | healing =>
        obtain rfl := Option.some.inj hs
        refine explained_of (fun hh => by cases hh) (fun _ hle => ?_)
        simp only [Bool.or_eq_true, decide_eq_true_eq] at ha
        obtain ⟨t', ht', hl⟩ := awaits_iff.1 (ha.resolve_left (by dsimp only at hle; omega))
        exact exists_erase ht' hl
      | condemning =>
        obtain rfl := Option.some.inj hs
        refine explained_of (fun _ hlt => ?_) (fun hh => by cases hh)
        simp only [Bool.or_eq_true, decide_eq_true_eq] at ha
        obtain ⟨t', ht', hl⟩ := awaits_iff.1 (ha.resolve_left (by dsimp only at hlt; omega))
        exact exists_erase ht' hl
      | adding =>
        simp only [Recording.run] at hs
        by_cases hcap : maxFailures ≤ (s.health.consecutiveFailures + 1) % 2 ^ 64
        · rw [if_pos hcap] at hs
          obtain rfl := Option.some.inj hs
          exact explained_of (fun _ hlt => by dsimp only at hlt; omega)
            (fun _ _ => ⟨t, AList.lookup_insert _⟩)
        · rw [if_neg hcap] at hs
          obtain rfl := Option.some.inj hs
          refine explained_of (fun hh _ => ?_) (fun _ hle => absurd hle hcap)
          -- the count of an unhealthy channel stays at the maximum, unless it wraps
          simp only [Bool.or_eq_true, decide_eq_true_eq] at ha
          rcases ha with (hh' | hwrap) | hheal
          · exact absurd (hh'.symm.trans hh) (by decide)
          · rw [Nat.mod_eq_of_lt hwrap] at hcap
            obtain ⟨t', ht'⟩ := h.healing hh (by omega)
            exact exists_erase (hne ht' (by decide)) ht'
          · obtain ⟨t', ht', hl⟩ := awaits_iff.1 hheal
            exact exists_erase ht' hl

/-- **The flag and the count agree in the end, if no store comes out of order.**
From a channel whose flag and count agree, any number of completions run their
steps in any order, all of them orderly; once all have finished, the channel is
healthy if and only if its count is below the maximum. -/
theorem healthy_iff (hmax : 1 ≤ maxFailures) (health : Health)
    (h₀ : health.healthy = true ↔ health.consecutiveFailures < maxFailures) {es : List Act}
    (horderly : Along (step maxFailures) (fun s a => s.orderly maxFailures a = true) { health } es)
    (hrun : exec (step maxFailures) { health } es = some s)
    (hdone : ∀ t, s.running.lookup t = none) :
    s.health.healthy = true ↔ s.health.consecutiveFailures < maxFailures := by
  have hinit : Explained maxFailures { health } := Or.inl h₀
  have hexplained : s.Explained maxFailures :=
    exec_along (fun _ _ _ h ha hs => h.step hmax ha hs) hinit horderly hrun
  exact hexplained.settled hdone

/-- A failure and a success that cross, the failure storing last to the count
and to the flag. -/
theorem healthy_iff_crossing :
    ∃ s, exec (step 1) {} [.start 1 .reachable, .start 2 .unreachable, .run 1, .run 2, .run 1,
      .run 2] = some s ∧
      (s.health.healthy = true ↔ s.health.consecutiveFailures < 1) :=
  ⟨_, rfl, healthy_iff le_rfl {} (by decide) (by decide)
    (rfl : exec (step 1) {} [.start 1 .reachable, .start 2 .unreachable, .run 1, .run 2, .run 1,
      .run 2] = some _) fun _ => rfl⟩

/-- **A success and a failure that cross leave a channel unhealthy with no
failures**: the failure reaches the maximum, the success sets the count to zero
and the flag, and then the failure clears the flag. -/
theorem crossing_unhealthy :
    ∃ s, exec (step 1) {} [.start 1 .reachable, .start 2 .unreachable, .run 2, .run 1, .run 1,
      .run 2] = some s ∧ (∀ t, s.running.lookup t = none) ∧
      s.health.consecutiveFailures = 0 ∧ s.health.healthy = false :=
  ⟨_, rfl, fun _ => rfl, rfl, rfl⟩

end Recorder
end Client
end MiniRpc
