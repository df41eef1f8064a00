/-
# The client pool

`src/client/rpc_client_pool.cpp`: a pool selects one of its channels for each
attempt of a call, and the way the attempt ends is recorded in the health of the
channel (`MiniRpc.Client.Reachability`).  `SelectChannel` looks at healthy
channels only, and at the first channel of all if there is none.

Any number of operations run at once, each a step at a time, `SelectChannel` being one
step; `MiniRpc.Client.PoolScans` takes its scan apart.  `Call` tries another channel
after a connection error, `CallAsync` and `CallCo` do not, and `Warmup` connects the
channels in turn.  The requests of a channel in flight are
the slots of its client; an attempt has a slot until it ends, and a slot may be
left behind (`left`).  The counters of successes, failures and selections are
left out, since nothing depends on them.

Only an attempt on a channel can heal it, and an unhealthy channel gets no
attempts.  `Eligible` says which channels calls that succeed can come back to.
-/

import MiniRpc.Client.LoadBalancer
import MiniRpc.Client.Reachability
import Mathlib.Algebra.Order.BigOperators.Group.List
import Mathlib.Algebra.Order.Ring.Nat

namespace MiniRpc
namespace Client

open Transition

/-- What a pool is built with: the number of its endpoints, which are in a
vector, and `RpcClientPoolOptions`. -/
structure PoolSetup where
  channels : ℕ
  channels_lt : channels < 2 ^ 64 := by decide
  strategy : LoadBalanceStrategy := .kRoundRobin
  maxConsecutiveFailures : ℕ := 3

/-- `IsConnectionError`. -/
def isConnectionError (result : RpcCallResult) : Bool :=
  !result.status.ok &&
    ["connect failed", "send request failed", "connection closed", "connection inactive",
      "dispatcher stopped", "call timeout"].any fun text =>
        text.toList <:+: result.status.message.toList

/-- An operation of the pool. -/
inductive OperationKind where
  | call
  | callAsync
  | callCo
  | warmup
  deriving DecidableEq, Repr

/-- What an operation does next. -/
inductive OperationPlace where
  /-- `SelectChannel`. -/
  | selecting
  /-- It waits for the result of its attempt on the channel. -/
  | waiting (channel : ℕ)
  /-- `Warmup` connects the channel. -/
  | connecting (channel : ℕ)
  /-- The ending is recorded in the channel; the operation may go on after that. -/
  | recording (channel : ℕ) (next : Recording) (again : Bool)
  deriving DecidableEq, Repr

/-- The channel that an operation is at. -/
def OperationPlace.channel : OperationPlace → Option ℕ
  | .selecting => none
  | .waiting i => some i
  | .connecting i => some i
  | .recording i _ _ => some i

/-- An operation under way; `failed` says that an attempt of it was not `ok()`. -/
structure Operation where
  kind : OperationKind
  place : OperationPlace
  attempted : List ℕ := []
  failed : Bool := false
  deriving DecidableEq, Repr

/-- A call none of whose attempts has failed. -/
def Operation.succeeding (op : Operation) : Bool := op.kind ≠ .warmup && !op.failed

/-- `RpcClientPool`; `nextIndex` is the counter of the balancer. -/
structure RpcClientPool where
  health : ℕ → Health := fun _ => {}
  inflight : ℕ → ℕ := fun _ => 0
  nextIndex : ℕ := 0
  operations : Table ℕ Operation := ∅

namespace RpcClientPool

/-- `healthy_candidates`. -/
def candidates (setup : PoolSetup) (s : RpcClientPool) (excluded : List ℕ) : List ℕ :=
  (List.range setup.channels).filter fun i => (s.health i).healthy && i ∉ excluded

/-- `SelectChannel`: the channel, and the counter of the balancer after it. -/
def selectChannel (setup : PoolSetup) (s : RpcClientPool) (excluded : List ℕ) : Option (ℕ × ℕ) :=
  let candidates := s.candidates setup excluded
  if candidates = [] then if setup.channels = 0 then none else some (0, s.nextIndex)
  else
    some (candidates.getD (setup.strategy.select s.nextIndex (candidates.map s.inflight)) 0,
      (s.nextIndex + 1) % 2 ^ 64)

/-- One atomic step. -/
inductive Act where
  | start (k : ℕ) (kind : OperationKind)
  | select (k : ℕ)
  /-- The attempt has this result; its slot may be left behind. -/
  | finish (k : ℕ) (result : RpcCallResult) (left : Bool)
  | connect (k : ℕ) (connected : Bool)
  | record (k : ℕ)

/-- The operation `k` is now `op`. -/
def goto (s : RpcClientPool) (k : ℕ) (op : Operation) : RpcClientPool :=
  { s with operations := s.operations.insert k op }

/-- The atomics of the channel `i` are now `health`. -/
def setHealth (s : RpcClientPool) (i : ℕ) (health : Health) : RpcClientPool :=
  { s with health := Function.update s.health i health }

/-- The operation `k` returns. -/
def leave (s : RpcClientPool) (k : ℕ) : RpcClientPool :=
  { s with operations := s.operations.erase k }

/-- One step, `none` if it cannot happen in the state.  `SelectChannel` reads the flags of
all channels in one step. -/
def step (setup : PoolSetup) (s : RpcClientPool) : Act → Option RpcClientPool
  | .start k kind =>
    if (s.operations.lookup k).isSome then none
    else if kind = .warmup then
      some (if setup.channels = 0 then s else s.goto k { kind, place := .connecting 0 })
    else some (s.goto k { kind, place := .selecting })
  | .select k =>
    match s.operations.lookup k with
    | some ⟨kind, .selecting, attempted, failed⟩ =>
      match s.selectChannel setup attempted with
      | none => some (s.leave k)
      | some (i, nextIndex) =>
        some (goto { s with
          nextIndex
          inflight := Function.update s.inflight i (s.inflight i + 1) } k
            ⟨kind, .waiting i, attempted ++ [i], failed⟩)
    | _ => none
  | .finish k result left =>
    match s.operations.lookup k with
    | some ⟨kind, .waiting i, attempted, failed⟩ =>
      let ending := if isConnectionError result then Ending.unreachable else .reachable
      let again := kind = .call && isConnectionError result &&
        decide (attempted.length < setup.channels)
      let inflight := if left then s.inflight else Function.update s.inflight i (s.inflight i - 1)
      some (goto { s with inflight } k
        ⟨kind, .recording i ending.recording again, attempted, failed || !result.status.ok⟩)
    | _ => none
  | .connect k connected =>
    match s.operations.lookup k with
    | some ⟨kind, .connecting i, attempted, failed⟩ =>
      let ending := if connected then Ending.reachable else .notWarm
      some (s.goto k
        ⟨kind, .recording i ending.recording (i + 1 < setup.channels), attempted, failed⟩)
    | _ => none
  | .record k =>
    match s.operations.lookup k with
    | some ⟨kind, .recording i r again, attempted, failed⟩ =>
      match r.run setup.maxConsecutiveFailures (s.health i) with
      | (health, some next) =>
        some ((s.setHealth i health).goto k ⟨kind, .recording i next again, attempted, failed⟩)
      | (health, none) =>
        let s := s.setHealth i health
        let place := if kind = .warmup then .connecting (i + 1) else .selecting
        some (if again then s.goto k ⟨kind, place, attempted, failed⟩ else s.leave k)
    | _ => none

/-! ### Channels that calls can come back to -/

/-- A step of a `Call`, `CallAsync` or `CallCo` whose attempts all succeed. -/
def succeeds (s : RpcClientPool) : Act → Bool
  | .start _ kind => kind ≠ .warmup
  | .select k => (s.operations.lookup k).any Operation.succeeding
  | .finish k result _ => (s.operations.lookup k).any Operation.succeeding && result.status.ok
  | .connect _ _ => false
  | .record k => (s.operations.lookup k).any Operation.succeeding

/-- The channel that `SelectChannel` returns in a step. -/
def picked (setup : PoolSetup) (s : RpcClientPool) : Act → Option ℕ
  | .select k =>
    match s.operations.lookup k with
    | some ⟨_, .selecting, attempted, _⟩ => (s.selectChannel setup attempted).map Prod.fst
    | _ => none
  | _ => none

/-- Calls whose attempts all succeed can go on in such a way that the channel is
selected. -/
def Selectable (setup : PoolSetup) (s : RpcClientPool) (channel : ℕ) : Prop :=
  ∃ es t, Along (step setup) (fun s a => s.succeeds a = true) s es ∧
    exec (step setup) s es = some t ∧ channel ∈ observe (step setup) (picked setup) s es

/-- The channel is healthy; or it is the first, and none is; or a call that has
had no failure is under way on it. -/
def Eligible (setup : PoolSetup) (s : RpcClientPool) (channel : ℕ) : Prop :=
  (s.health channel).healthy = true ∨
    (channel = 0 ∧ ∀ i < setup.channels, (s.health i).healthy = false) ∨
    ∃ k op, s.operations.lookup k = some op ∧ op.succeeding = true ∧
      op.place.channel = some channel

/-! ### What a step does -/

variable {setup : PoolSetup} {s t : RpcClientPool} {k c : ℕ}

theorem start_cases {kind : OperationKind} (h : step setup s (.start k kind) = some t) :
    s.operations.lookup k = none ∧
      (t = s ∨ t = s.goto k ⟨kind, .connecting 0, [], false⟩ ∧ kind = .warmup ∨
        t = s.goto k ⟨kind, .selecting, [], false⟩) := by
  simp only [step] at h
  split_ifs at h with hnew hkind hzero
  · obtain rfl := Option.some.inj h
    exact ⟨by simpa using hnew, Or.inl rfl⟩
  · obtain rfl := Option.some.inj h
    exact ⟨by simpa using hnew, Or.inr (Or.inl ⟨rfl, hkind⟩)⟩
  · obtain rfl := Option.some.inj h
    exact ⟨by simpa using hnew, Or.inr (Or.inr rfl)⟩

theorem select_cases (h : step setup s (.select k) = some t) :
    ∃ kind attempted failed,
      s.operations.lookup k = some ⟨kind, .selecting, attempted, failed⟩ ∧
      (s.selectChannel setup attempted = none ∧ t = s.leave k ∨
        ∃ i nextIndex, s.selectChannel setup attempted = some (i, nextIndex) ∧
          t = goto { s with
            nextIndex
            inflight := Function.update s.inflight i (s.inflight i + 1) } k
              ⟨kind, .waiting i, attempted ++ [i], failed⟩) := by
  simp only [step] at h
  split at h
  · rename_i kind attempted failed hl
    refine ⟨kind, attempted, failed, hl, ?_⟩
    split at h
    · rename_i hselect
      exact Or.inl ⟨hselect, (Option.some.inj h).symm⟩
    · rename_i i nextIndex hselect
      exact Or.inr ⟨i, nextIndex, hselect, (Option.some.inj h).symm⟩
  · cases h

theorem finish_cases {result : RpcCallResult} {left : Bool}
    (h : step setup s (.finish k result left) = some t) :
    ∃ kind i attempted failed r again inflight,
      s.operations.lookup k = some ⟨kind, .waiting i, attempted, failed⟩ ∧
      t = goto { s with inflight } k
        ⟨kind, .recording i r again, attempted, failed || !result.status.ok⟩ ∧
      (result.status.ok = true → r = .zeroing ∧ again = false) := by
  simp only [step] at h
  split at h
  · rename_i kind i attempted failed hl
    refine ⟨kind, i, attempted, failed, _, _, _, hl, (Option.some.inj h).symm, ?_⟩
    intro hok
    have herr : isConnectionError result = false := by simp [isConnectionError, hok]
    simp [herr, Ending.recording]
  · cases h

theorem connect_cases {connected : Bool} (h : step setup s (.connect k connected) = some t) :
    ∃ kind i attempted failed r again,
      s.operations.lookup k = some ⟨kind, .connecting i, attempted, failed⟩ ∧
      t = s.goto k ⟨kind, .recording i r again, attempted, failed⟩ := by
  simp only [step] at h
  split at h
  · rename_i kind i attempted failed hl
    exact ⟨kind, i, attempted, failed, _, _, hl, (Option.some.inj h).symm⟩
  · cases h

theorem record_cases (h : step setup s (.record k) = some t) :
    ∃ kind i r again attempted failed,
      s.operations.lookup k = some ⟨kind, .recording i r again, attempted, failed⟩ ∧
      ∃ s', s' = s.setHealth i (r.run setup.maxConsecutiveFailures (s.health i)).1 ∧
        ((∃ next, (r.run setup.maxConsecutiveFailures (s.health i)).2 = some next ∧
            t = s'.goto k ⟨kind, .recording i next again, attempted, failed⟩) ∨
          (r.run setup.maxConsecutiveFailures (s.health i)).2 = none ∧
            (again = false ∧ t = s'.leave k ∨
              again = true ∧ ∃ place, t = s'.goto k ⟨kind, place, attempted, failed⟩)) := by
  simp only [step] at h
  split at h
  · rename_i kind i r again attempted failed hl
    refine ⟨kind, i, r, again, attempted, failed, hl, _, rfl, ?_⟩
    split at h
    · rename_i health next hrun
      rw [hrun]
      exact Or.inl ⟨next, rfl, (Option.some.inj h).symm⟩
    · rename_i health hrun
      rw [hrun]
      refine Or.inr ⟨rfl, ?_⟩
      cases again with
      | false => exact Or.inl ⟨rfl, (Option.some.inj h).symm⟩
      | true => exact Or.inr ⟨rfl, _, (Option.some.inj h).symm⟩
  · cases h

/-! ### Calls without a failure -/

/-- What holds of a call that has had no failure: it has tried no channel when it
selects one, and when it records its ending it heals a channel and is done. -/
def Operation.Fresh (op : Operation) : Prop :=
  match op.place with
  | .selecting => op.attempted = []
  | .waiting _ => True
  | .connecting _ => False
  | .recording _ r again => (r = .zeroing ∨ r = .healing) ∧ again = false

/-- What holds in every state that is reached. -/
structure Sound (s : RpcClientPool) : Prop where
  nextIndex : s.nextIndex < 2 ^ 64
  fresh : ∀ k op, s.operations.lookup k = some op → op.succeeding = true → Operation.Fresh op

namespace Sound

theorem init : Sound {} where
  nextIndex := by decide
  fresh := by simp

/-- An operation goes on; what the counter and the atomics become does not
matter. -/
theorem goto (h : s.Sound) (s' : RpcClientPool) (hop : s'.operations = s.operations)
    (hnext : s'.nextIndex < 2 ^ 64) {op : Operation}
    (hfresh : op.succeeding = true → Operation.Fresh op) : Sound (s'.goto k op) where
  nextIndex := hnext
  fresh := by
    intro k' op' hl
    unfold RpcClientPool.goto at hl
    dsimp only at hl
    rw [hop] at hl
    by_cases hk : k' = k
    · rw [hk, AList.lookup_insert] at hl
      exact Option.some.inj hl ▸ hfresh
    · rw [AList.lookup_insert_ne hk] at hl
      exact h.fresh k' op' hl

theorem leave (h : s.Sound) (s' : RpcClientPool) (hop : s'.operations = s.operations)
    (hnext : s'.nextIndex < 2 ^ 64) : Sound (s'.leave k) where
  nextIndex := hnext
  fresh := by
    intro k' op' hl
    unfold RpcClientPool.leave at hl
    dsimp only at hl
    rw [hop] at hl
    by_cases hk : k' = k
    · rw [hk, AList.lookup_erase] at hl
      cases hl
    · rw [AList.lookup_erase_ne hk] at hl
      exact h.fresh k' op' hl

/-- The counter stays a 64-bit number. -/
theorem selectChannel_lt (h : s.Sound) {excluded : List ℕ} {i nextIndex : ℕ}
    (hselect : s.selectChannel setup excluded = some (i, nextIndex)) : nextIndex < 2 ^ 64 := by
  unfold selectChannel at hselect
  dsimp only at hselect
  split_ifs at hselect
  · obtain ⟨-, rfl⟩ := Prod.mk.inj (Option.some.inj hselect)
    exact h.nextIndex
  · obtain ⟨-, rfl⟩ := Prod.mk.inj (Option.some.inj hselect)
    exact Nat.mod_lt _ (by decide)

/-- **Every step keeps the state sound.** -/
theorem step {a : Act} (h : s.Sound) (hs : RpcClientPool.step setup s a = some t) : t.Sound := by
  cases a with
  | start k kind =>
    obtain ⟨-, rfl | ⟨rfl, rfl⟩ | rfl⟩ := start_cases hs
    · exact h
    · exact h.goto _ rfl h.nextIndex fun hsucc => by simp [Operation.succeeding] at hsucc
    · exact h.goto _ rfl h.nextIndex fun _ => rfl
  | select k =>
    obtain ⟨kind, attempted, failed, hl, ⟨-, rfl⟩ | ⟨i, nextIndex, hselect, rfl⟩⟩ :=
      select_cases hs
    · exact h.leave _ rfl h.nextIndex
    · exact h.goto { s with
        nextIndex, inflight := Function.update s.inflight i (s.inflight i + 1) }
        rfl (h.selectChannel_lt hselect) fun _ => trivial
  | finish k result left =>
    obtain ⟨kind, i, attempted, failed, r, again, inflight, hl, rfl, hok⟩ := finish_cases hs
    refine h.goto { s with inflight } rfl h.nextIndex fun hsucc => ?_
    simp only [Operation.succeeding, Bool.and_eq_true, Bool.not_eq_true', Bool.or_eq_false_iff,
      Bool.not_eq_false'] at hsucc
    obtain ⟨rfl, rfl⟩ := hok hsucc.2.2
    exact ⟨Or.inl rfl, rfl⟩
  | connect k connected =>
    obtain ⟨kind, i, attempted, failed, r, again, hl, rfl⟩ := connect_cases hs
    exact h.goto _ rfl h.nextIndex fun hsucc => (h.fresh k _ hl hsucc).elim
  | record k =>
    obtain ⟨kind, i, r, again, attempted, failed, hl, s', hs', hcases⟩ := record_cases hs
    have hop : s'.operations = s.operations := by
      rw [hs']
      rfl
    have hnext : s'.nextIndex < 2 ^ 64 := by
      rw [hs']
      exact h.nextIndex
    have hfresh := h.fresh k _ hl
    rcases hcases with ⟨next, hrun, rfl⟩ | ⟨-, ⟨-, rfl⟩ | ⟨hagain, place, rfl⟩⟩
    · refine h.goto s' hop hnext fun hsucc => ?_
      obtain ⟨rfl | rfl, hagain⟩ := hfresh hsucc
      · obtain rfl := Option.some.inj hrun
        exact ⟨Or.inr rfl, hagain⟩
      · cases hrun
    · exact h.leave s' hop hnext
    · refine h.goto s' hop hnext fun hsucc => ?_
      obtain ⟨-, hnot⟩ := hfresh hsucc
      rw [hagain] at hnot
      cases hnot

end Sound

/-! ### Channels that calls do not come back to -/

/-- The channel is unhealthy, no call without a failure is on it, and if it is
the first there is a healthy one. -/
structure Barred (setup : PoolSetup) (s : RpcClientPool) (c : ℕ) : Prop where
  unhealthy : (s.health c).healthy = false
  away : ∀ k op, s.operations.lookup k = some op → op.succeeding = true →
    op.place.channel ≠ some c
  spared : c = 0 → ∃ i < setup.channels, (s.health i).healthy = true

theorem mem_candidates {excluded : List ℕ} {i : ℕ} :
    i ∈ s.candidates setup excluded ↔
      i < setup.channels ∧ (s.health i).healthy = true ∧ i ∉ excluded := by
  simp [candidates]

/-- What `SelectChannel` returns: a candidate, or the first channel. -/
theorem selectChannel_spec {excluded : List ℕ} {i nextIndex : ℕ}
    (h : s.selectChannel setup excluded = some (i, nextIndex)) :
    i ∈ s.candidates setup excluded ∨ i = 0 ∧ s.candidates setup excluded = [] := by
  unfold selectChannel at h
  dsimp only at h
  split_ifs at h with hnil hzero
  · obtain ⟨rfl, -⟩ := Prod.mk.inj (Option.some.inj h)
    exact Or.inr ⟨rfl, hnil⟩
  · obtain ⟨rfl, -⟩ := Prod.mk.inj (Option.some.inj h)
    have hlt : setup.strategy.select s.nextIndex ((s.candidates setup excluded).map s.inflight) <
        ((s.candidates setup excluded).map s.inflight).length :=
      select_lt setup.strategy s.nextIndex (by simpa using hnil)
    rw [List.length_map] at hlt
    rw [List.getD_eq_getElem _ _ hlt]
    exact Or.inl (List.getElem_mem hlt)

/-- A success leaves every channel healthy that is. -/
theorem healthy_setHealth {r : Recording} {i : ℕ} (hr : r = .zeroing ∨ r = .healing) (j : ℕ)
    (hj : (s.health j).healthy = true) :
    ((s.setHealth i (r.run setup.maxConsecutiveFailures (s.health i)).1).health j).healthy =
      true := by
  rw [setHealth]
  dsimp only
  by_cases hji : j = i
  · subst hji
    rw [Function.update_self]
    rcases hr with rfl | rfl
    · exact hj
    · rfl
  · rw [Function.update_of_ne hji]
    exact hj

/-- Calls that succeed make no channel unhealthy. -/
theorem healthy_step {a : Act} (hS : s.Sound) (ha : s.succeeds a = true)
    (hs : step setup s a = some t) (j : ℕ) (hj : (s.health j).healthy = true) :
    (t.health j).healthy = true := by
  cases a with
  | start k kind =>
    obtain ⟨-, rfl | ⟨rfl, -⟩ | rfl⟩ := start_cases hs
    · exact hj
    · exact hj
    · exact hj
  | select k =>
    obtain ⟨kind, attempted, failed, -, ⟨-, rfl⟩ | ⟨i, nextIndex, -, rfl⟩⟩ := select_cases hs
    · exact hj
    · exact hj
  | finish k result left =>
    obtain ⟨kind, i, attempted, failed, r, again, inflight, -, rfl, -⟩ := finish_cases hs
    exact hj
  | connect k connected => cases ha
  | record k =>
    obtain ⟨kind, i, r, again, attempted, failed, hl, s', hs', hcases⟩ := record_cases hs
    simp only [succeeds, hl] at ha
    have hj' : (s'.health j).healthy = true :=
      hs' ▸ healthy_setHealth (hS.fresh k _ hl ha).1 j hj
    rcases hcases with ⟨next, -, rfl⟩ | ⟨-, ⟨-, rfl⟩ | ⟨-, place, rfl⟩⟩
    · exact hj'
    · exact hj'
    · exact hj'

namespace Barred

/-- A call that has tried no channel does not select it. -/
theorem selectChannel_ne (h : s.Barred setup c) {i nextIndex : ℕ}
    (hselect : s.selectChannel setup [] = some (i, nextIndex)) : i ≠ c := by
  rintro rfl
  rcases selectChannel_spec hselect with hmem | ⟨hzero, hnil⟩
  · have := h.unhealthy.symm.trans (mem_candidates.1 hmem).2.1
    cases this
  · obtain ⟨j, hj, hhealthy⟩ := h.spared hzero
    have hmem : j ∈ s.candidates setup [] := mem_candidates.2 ⟨hj, hhealthy, by simp⟩
    rw [hnil] at hmem
    cases hmem

/-- An operation goes on, away from the channel. -/
theorem goto (h : s.Barred setup c) (s' : RpcClientPool) (hop : s'.operations = s.operations)
    (hhealth : ∀ i, (s.health i).healthy = true → (s'.health i).healthy = true)
    (hc : s'.health c = s.health c) {op : Operation}
    (haway : op.succeeding = true → op.place.channel ≠ some c) :
    Barred setup (s'.goto k op) c where
  unhealthy := (congrArg Health.healthy hc).trans h.unhealthy
  away := by
    intro k' op' hl
    unfold RpcClientPool.goto at hl
    dsimp only at hl
    rw [hop] at hl
    by_cases hk : k' = k
    · rw [hk, AList.lookup_insert] at hl
      exact Option.some.inj hl ▸ haway
    · rw [AList.lookup_insert_ne hk] at hl
      exact h.away k' op' hl
  spared := fun hzero => (h.spared hzero).imp fun i hi => ⟨hi.1, hhealth i hi.2⟩

theorem leave (h : s.Barred setup c) (s' : RpcClientPool) (hop : s'.operations = s.operations)
    (hhealth : ∀ i, (s.health i).healthy = true → (s'.health i).healthy = true)
    (hc : s'.health c = s.health c) : Barred setup (s'.leave k) c where
  unhealthy := (congrArg Health.healthy hc).trans h.unhealthy
  away := by
    intro k' op' hl
    unfold RpcClientPool.leave at hl
    dsimp only at hl
    rw [hop] at hl
    by_cases hk : k' = k
    · rw [hk, AList.lookup_erase] at hl
      cases hl
    · rw [AList.lookup_erase_ne hk] at hl
      exact h.away k' op' hl
  spared := fun hzero => (h.spared hzero).imp fun i hi => ⟨hi.1, hhealth i hi.2⟩

/-- **Calls that succeed leave the channel barred**: they neither select it nor
heal it, and they make no channel unhealthy. -/
theorem step {a : Act} (h : s.Barred setup c) (hS : s.Sound) (ha : s.succeeds a = true)
    (hs : RpcClientPool.step setup s a = some t) : t.Barred setup c := by
  cases a with
  | start k kind =>
    obtain ⟨-, rfl | ⟨rfl, rfl⟩ | rfl⟩ := start_cases hs
    · exact h
    · simp [succeeds] at ha
    · exact h.goto _ rfl (fun _ => id) rfl fun _ => nofun
  | select k =>
    obtain ⟨kind, attempted, failed, hl, ⟨-, rfl⟩ | ⟨i, nextIndex, hselect, rfl⟩⟩ :=
      select_cases hs
    · exact h.leave _ rfl (fun _ => id) rfl
    · simp only [succeeds, hl] at ha
      obtain rfl : attempted = [] := hS.fresh k _ hl ha
      refine h.goto { s with
        nextIndex, inflight := Function.update s.inflight i (s.inflight i + 1) }
        rfl (fun _ => id) rfl fun _ hi => ?_
      exact h.selectChannel_ne hselect (Option.some.inj hi)
  | finish k result left =>
    obtain ⟨kind, i, attempted, failed, r, again, inflight, hl, rfl, -⟩ := finish_cases hs
    simp only [succeeds, hl, Bool.and_eq_true] at ha
    have haway := h.away k _ hl ha.1
    exact h.goto { s with inflight } rfl (fun _ => id) rfl fun _ => haway
  | connect k connected => cases ha
  | record k =>
    obtain ⟨kind, i, r, again, attempted, failed, hl, s', hs', hcases⟩ := record_cases hs
    have hop : s'.operations = s.operations := by
      rw [hs']
      rfl
    simp only [succeeds, hl] at ha
    have haway := h.away k _ hl ha
    obtain ⟨hr, hdone⟩ := hS.fresh k _ hl ha
    have hne : c ≠ i := fun heq => haway (congrArg some heq.symm)
    have hc : s'.health c = s.health c := by
      rw [hs']
      exact Function.update_of_ne hne _ _
    have hhealth : ∀ j, (s.health j).healthy = true → (s'.health j).healthy = true :=
      hs' ▸ healthy_setHealth hr
    rcases hcases with ⟨next, -, rfl⟩ | ⟨-, ⟨-, rfl⟩ | ⟨hagain, place, rfl⟩⟩
    · exact h.goto s' hop hhealth hc fun _ => haway
    · exact h.leave s' hop hhealth hc
    · rw [hagain] at hdone
      cases hdone

end Barred

/-- A channel that is not eligible is barred. -/
theorem barred_of_not_eligible (h : ¬ s.Eligible setup c) : s.Barred setup c where
  unhealthy := by
    rw [← Bool.not_eq_true]
    exact fun hhealthy => h (Or.inl hhealthy)
  away := fun k op hl hsucc hat => h (Or.inr (Or.inr ⟨k, op, hl, hsucc, hat⟩))
  spared := by
    intro hzero
    by_contra hnone
    refine h (Or.inr (Or.inl ⟨hzero, fun i hi => ?_⟩))
    rw [← Bool.not_eq_true]
    exact fun hhealthy => hnone ⟨i, hi, hhealthy⟩

/-! ### Channels that calls come back to -/

theorem candidates_congr (h : t.health = s.health) (excluded : List ℕ) :
    t.candidates setup excluded = s.candidates setup excluded := by
  rw [candidates, candidates, h]

/-- A step of a call that succeeds, and then a run in which the channel is
selected. -/
theorem Selectable.head {a : Act} (ha : s.succeeds a = true) (hs : step setup s a = some t)
    (h : t.Selectable setup c) : s.Selectable setup c := by
  obtain ⟨es, u, halong, hex, hmem⟩ := h
  refine ⟨a :: es, u, Along.cons ha hs halong, ?_, ?_⟩
  · rw [exec_cons, hs]
    exact hex
  · show c ∈ (picked setup s a).toList ++ (step setup s a).elim [] _
    rw [hs]
    exact List.mem_append_right _ hmem

/-- The step in which the channel is selected. -/
theorem Selectable.now {a : Act} (ha : s.succeeds a = true) (hs : step setup s a = some t)
    (hpick : picked setup s a = some c) : s.Selectable setup c := by
  refine ⟨[a], t, Along.cons ha hs trivial, by rw [exec_cons, hs]; rfl, ?_⟩
  show c ∈ (picked setup s a).toList ++ _
  rw [hpick]
  exact List.mem_append_left _ (List.mem_singleton.2 rfl)

/-- **A call can start at any time.**  It selects the channel that the balancer
is at; what is left behind is a request in flight and the next value of the
counter. -/
theorem selectable_of_select {i nextIndex : ℕ}
    (hselect : s.selectChannel setup [] = some (i, nextIndex))
    (h : i = c ∨ ∀ t : RpcClientPool, t.health = s.health → t.nextIndex = nextIndex →
      t.inflight = Function.update s.inflight i (s.inflight i + 1) → t.Selectable setup c) :
    s.Selectable setup c := by
  obtain ⟨k, hk⟩ := s.operations.exists_lookup_eq_none
  have hstart : step setup s (.start k .callAsync) =
      some (s.goto k ⟨.callAsync, .selecting, [], false⟩) := by
    simp [step, hk]
  refine Selectable.head rfl hstart ?_
  have hl : (s.goto k ⟨.callAsync, .selecting, [], false⟩).operations.lookup k =
      some ⟨.callAsync, .selecting, [], false⟩ := AList.lookup_insert _
  generalize hu : s.goto k ⟨.callAsync, .selecting, [], false⟩ = u at hl
  have hselect' : u.selectChannel setup [] = some (i, nextIndex) := by
    rw [← hu]
    exact hselect
  have hsucc : u.succeeds (.select k) = true := by
    rw [succeeds, hl]
    rfl
  have hstep : ∃ op, step setup u (.select k) = some (goto { u with
      nextIndex
      inflight := Function.update u.inflight i (u.inflight i + 1) } k op) := by
    simp only [step, hl, hselect']
    exact ⟨_, rfl⟩
  obtain ⟨op, hstep⟩ := hstep
  rcases h with rfl | h
  · refine Selectable.now hsucc hstep ?_
    simp only [picked, hl, hselect', Option.map_some]
  · refine Selectable.head hsucc hstep (h _ ?_ rfl ?_)
    · rw [← hu]
      rfl
    · rw [← hu]
      rfl

/-- What `SelectChannel` returns when there are candidates. -/
theorem selectChannel_of_mem (hmem : c ∈ s.candidates setup []) :
    ∃ i, s.selectChannel setup [] = some (i, (s.nextIndex + 1) % 2 ^ 64) ∧
      (s.candidates setup [])[setup.strategy.select s.nextIndex
        ((s.candidates setup []).map s.inflight)]? = some i := by
  have hne := List.ne_nil_of_mem hmem
  have hlt : setup.strategy.select s.nextIndex ((s.candidates setup []).map s.inflight) <
      ((s.candidates setup []).map s.inflight).length :=
    select_lt setup.strategy s.nextIndex (by simpa using hne)
  rw [List.length_map] at hlt
  refine ⟨_, by rw [selectChannel, if_neg hne], ?_⟩
  rw [List.getD_eq_getElem _ _ hlt]
  exact List.getElem?_eq_getElem hlt

/-- **`RoundRobinBalancer` comes around.**  By induction on how far the counter is
from the place of the channel among the candidates. -/
theorem selectable_roundRobin (hstrategy : setup.strategy = .kRoundRobin) {place : ℕ} (m : ℕ)
    (hnext : s.nextIndex < 2 ^ 64) (hplace : (s.candidates setup [])[place]? = some c)
    (hm : (s.nextIndex + m) % 2 ^ 64 = place) : s.Selectable setup c := by
  have hmem := List.mem_of_getElem? hplace
  have hlt := (List.getElem?_eq_some_iff.1 hplace).1
  induction m generalizing s with
  | zero =>
    obtain ⟨i, hselect, hi⟩ := selectChannel_of_mem hmem
    refine selectable_of_select hselect (Or.inl ?_)
    have hat : s.nextIndex = place := by omega
    rw [hstrategy] at hi
    simp only [LoadBalanceStrategy.select, List.length_map, hat, Nat.mod_eq_of_lt hlt] at hi
    exact Option.some.inj (hi.symm.trans hplace)
  | succ m ih =>
    obtain ⟨i, hselect, -⟩ := selectChannel_of_mem hmem
    refine selectable_of_select hselect (Or.inr fun t hhealth hn _ => ?_)
    have hcand : t.candidates setup [] = s.candidates setup [] := candidates_congr hhealth []
    refine ih ?_ ?_ ?_ ?_ ?_
    · omega
    · rw [hcand]
      exact hplace
    · omega
    · rw [hcand]
      exact hmem
    · rw [hcand]
      exact hlt

/-- By how much the requests in flight of the channels may grow before the
channel `c` has the fewest. -/
def slack (channels : List ℕ) (inflight : ℕ → ℕ) (c : ℕ) : ℕ :=
  (channels.map fun i => inflight c + 1 - inflight i).sum

/-- **`LeastInflightBalancer` comes to every candidate.**  Each call that selects
another one takes something of the slack. -/
theorem selectable_leastInflight (hstrategy : setup.strategy = .kLeastInflight) (n : ℕ)
    (hmem : c ∈ s.candidates setup []) (hn : slack (s.candidates setup []) s.inflight c = n) :
    s.Selectable setup c := by
  induction n using Nat.strong_induction_on generalizing s with
  | _ n ih =>
    obtain ⟨i, hselect, hi⟩ := selectChannel_of_mem hmem
    refine selectable_of_select hselect ?_
    by_cases hic : i = c
    · exact Or.inl hic
    · refine Or.inr fun t hhealth _ hinflight => ?_
      have hcand : t.candidates setup [] = s.candidates setup [] := candidates_congr hhealth []
      -- the channel that was selected has no more requests in flight than `c`
      have hle : s.inflight i ≤ s.inflight c := by
        rw [hstrategy] at hi
        obtain ⟨count, hcount, hleast⟩ := select_leastInflight s.nextIndex
          (List.ne_nil_of_mem (List.mem_map_of_mem (f := s.inflight) hmem))
        rw [List.getElem?_map, hi] at hcount
        obtain rfl := Option.some.inj hcount
        exact hleast _ (List.mem_map_of_mem hmem)
      refine ih _ ?_ (by rw [hcand]; exact hmem) rfl
      rw [hcand, hinflight, ← hn]
      have hc : Function.update s.inflight i (s.inflight i + 1) c = s.inflight c :=
        Function.update_of_ne (Ne.symm hic) _ _
      refine List.sum_lt_sum _ _ (fun j _ => ?_) ⟨i, List.mem_of_getElem? hi, ?_⟩
      · rw [hc]
        by_cases hji : j = i
        · rw [hji, Function.update_self]
          omega
        · rw [Function.update_of_ne hji]
      · rw [hc, Function.update_self]
        omega

/-- A healthy channel is selected in time, whatever the balancer. -/
theorem selectable_of_healthy (hS : s.Sound) (hlt : c < setup.channels)
    (h : (s.health c).healthy = true) : s.Selectable setup c := by
  have hmem : c ∈ s.candidates setup [] := mem_candidates.2 ⟨hlt, h, by simp⟩
  cases hstrategy : setup.strategy with
  | kRoundRobin =>
    obtain ⟨place, hplace⟩ := List.mem_iff_getElem?.1 hmem
    have hlen : (s.candidates setup []).length ≤ setup.channels := by
      have := List.length_filter_le (fun i => (s.health i).healthy && decide (i ∉ []))
        (List.range setup.channels)
      rwa [List.length_range] at this
    have hlt' := (List.getElem?_eq_some_iff.1 hplace).1
    have hnext := hS.nextIndex
    have hsize := setup.channels_lt
    exact selectable_roundRobin hstrategy (2 ^ 64 - s.nextIndex + place) hnext hplace (by omega)
  | kLeastInflight => exact selectable_leastInflight hstrategy _ hmem rfl

/-- A call that is about to set the flag of the channel does that next. -/
theorem selectable_of_healing {kind : OperationKind} {attempted : List ℕ} {again : Bool}
    (hS : s.Sound) (hlt : c < setup.channels)
    (hl : s.operations.lookup k = some ⟨kind, .recording c .healing again, attempted, false⟩)
    (hsucc : Operation.succeeding ⟨kind, .recording c .healing again, attempted, false⟩ = true) :
    s.Selectable setup c := by
  obtain ⟨-, rfl⟩ : _ ∧ again = false := hS.fresh k _ hl hsucc
  have hstep : step setup s (.record k) =
      some ((s.setHealth c { s.health c with healthy := true }).leave k) := by
    simp only [step, hl]
    rfl
  refine Selectable.head ?_ hstep (selectable_of_healthy (hS.step hstep) hlt ?_)
  · simp only [succeeds, hl]
    exact hsucc
  · show ((Function.update s.health c _) c).healthy = true
    rw [Function.update_self]

theorem selectable_of_zeroing {kind : OperationKind} {attempted : List ℕ} {again : Bool}
    (hS : s.Sound) (hlt : c < setup.channels)
    (hl : s.operations.lookup k = some ⟨kind, .recording c .zeroing again, attempted, false⟩)
    (hsucc : Operation.succeeding ⟨kind, .recording c .zeroing again, attempted, false⟩ = true) :
    s.Selectable setup c := by
  have hstep : step setup s (.record k) =
      some ((s.setHealth c { s.health c with consecutiveFailures := 0 }).goto k
        ⟨kind, .recording c .healing again, attempted, false⟩) := by
    simp only [step, hl]
    rfl
  refine Selectable.head ?_ hstep
    (selectable_of_healing (hS.step hstep) hlt (AList.lookup_insert _) hsucc)
  simp only [succeeds, hl]
  exact hsucc

theorem selectable_of_waiting {kind : OperationKind} {attempted : List ℕ}
    (hS : s.Sound) (hlt : c < setup.channels)
    (hl : s.operations.lookup k = some ⟨kind, .waiting c, attempted, false⟩)
    (hsucc : Operation.succeeding ⟨kind, .waiting c, attempted, false⟩ = true) :
    s.Selectable setup c := by
  let result : RpcCallResult := { status := ⟨Common.makeErrorCode .ok, ""⟩ }
  have hstep : step setup s (.finish k result true) =
      some (s.goto k ⟨kind, .recording c .zeroing false, attempted, false⟩) := by
    have herr : isConnectionError result = false := rfl
    simp only [step, hl, herr, Bool.and_false, Bool.false_and]
    rfl
  refine Selectable.head ?_ hstep
    (selectable_of_zeroing (hS.step hstep) hlt (AList.lookup_insert _) hsucc)
  simp only [succeeds, hl, Option.any_some, hsucc]
  rfl

/-- A call without a failure that is on the channel comes to heal it. -/
theorem selectable_of_at {op : Operation} (hS : s.Sound) (hlt : c < setup.channels)
    (hl : s.operations.lookup k = some op) (hsucc : op.succeeding = true)
    (hat : op.place.channel = some c) : s.Selectable setup c := by
  obtain ⟨kind, place, attempted, failed⟩ := op
  obtain rfl : failed = false := by simpa using (Bool.and_eq_true_iff.1 hsucc).2
  have hfresh := hS.fresh k _ hl hsucc
  cases place with
  | selecting => cases hat
  | waiting i =>
    obtain rfl := Option.some.inj hat
    exact selectable_of_waiting hS hlt hl hsucc
  | connecting i => exact hfresh.elim
  | recording i r again =>
    obtain rfl := Option.some.inj hat
    obtain ⟨rfl | rfl, -⟩ := hfresh
    · exact selectable_of_zeroing hS hlt hl hsucc
    · exact selectable_of_healing hS hlt hl hsucc

/-- With no healthy channel the first one is selected. -/
theorem selectable_of_fallback (hlt : 0 < setup.channels)
    (h : ∀ i < setup.channels, (s.health i).healthy = false) : s.Selectable setup 0 := by
  have hnil : s.candidates setup [] = [] := by
    refine List.eq_nil_iff_forall_not_mem.2 fun i hi => ?_
    obtain ⟨hi, hhealthy, -⟩ := mem_candidates.1 hi
    rw [h i hi] at hhealthy
    cases hhealthy
  have hselect : s.selectChannel setup [] = some (0, s.nextIndex) := by
    rw [selectChannel, if_pos hnil, if_neg hlt.ne']
  exact selectable_of_select hselect (Or.inl rfl)

/-- **Calls come back to an eligible channel.** -/
theorem selectable_of_eligible (hS : s.Sound) (hlt : c < setup.channels)
    (h : s.Eligible setup c) : s.Selectable setup c := by
  rcases h with hhealthy | ⟨rfl, hnone⟩ | ⟨k, op, hl, hsucc, hat⟩
  · exact selectable_of_healthy hS hlt hhealthy
  · exact selectable_of_fallback hlt hnone
  · exact selectable_of_at hS hlt hl hsucc hat

end RpcClientPool
end Client
end MiniRpc
