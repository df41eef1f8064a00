/-
# What a completion records in its channel

Each of the three calls of `src/client/rpc_client_pool.cpp` counts the result of
an attempt and records whether the channel could be reached.  `Call` does so in
the branches of its loop, `CallCo` in two calls, and the thread of `CallAsync`
in a copy of the code of both functions, since it must not use the pool.

`bookkeeping_eq` says that the three do the same to the channel.  Here each runs
as a whole; the atomic operations of `RecordReachability` are those of
`MiniRpc.Client.Reachability`, and `completion_of_steps` says that a completion
of the pool that nobody interrupts leaves the channel as `CallCo` does.
-/

import MiniRpc.Client.RpcClientPool

namespace MiniRpc
namespace Client

open Transition

/-- The counters of `Channel`. -/
structure ChannelCounts where
  selectCount : ℕ := 0
  successCount : ℕ := 0
  failCount : ℕ := 0
  deriving DecidableEq, Repr

/-- `RecordCallResult`. -/
def ChannelCounts.recordCallResult (counts : ChannelCounts) (result : RpcCallResult) :
    ChannelCounts :=
  if result.status.ok then { counts with successCount := (counts.successCount + 1) % 2 ^ 64 }
  else { counts with failCount := (counts.failCount + 1) % 2 ^ 64 }

/-- `RecordReachability`. -/
def Health.recordReachability (maxFailures : ℕ) (h : Health) (reachable : Bool) : Health :=
  if reachable then { consecutiveFailures := 0, healthy := true }
  else
    let failures := (h.consecutiveFailures + 1) % 2 ^ 64
    if maxFailures ≤ failures then { consecutiveFailures := failures, healthy := false }
    else { h with consecutiveFailures := failures }

/-- The atomics of `Channel`. -/
structure Channel where
  counts : ChannelCounts := {}
  health : Health := {}
  deriving DecidableEq, Repr

namespace Channel

/-- `RecordCallResult` of a channel. -/
def recordCallResult (ch : Channel) (result : RpcCallResult) : Channel :=
  { ch with counts := ch.counts.recordCallResult result }

/-- `RecordReachability` of a channel. -/
def recordReachability (maxFailures : ℕ) (ch : Channel) (reachable : Bool) : Channel :=
  { ch with health := ch.health.recordReachability maxFailures reachable }

/-- One attempt of `Call`, and whether its loop goes on. -/
def callAttempt (maxFailures : ℕ) (ch : Channel) (result : RpcCallResult) : Channel × Bool :=
  let ch := ch.recordCallResult result
  if result.status.ok then (ch.recordReachability maxFailures true, false)
  else if isConnectionError result then (ch.recordReachability maxFailures false, true)
  else (ch.recordReachability maxFailures true, false)

/-- `msg.find(text) != npos`. -/
def finds (msg text : String) : Bool := decide (text.toList <:+: msg.toList)

/-- The thread of `CallAsync`. -/
def callAsyncThread (maxFailures : ℕ) (ch : Channel) (result : RpcCallResult) : Channel :=
  let counts :=
    if result.status.ok then
      { ch.counts with successCount := (ch.counts.successCount + 1) % 2 ^ 64 }
    else { ch.counts with failCount := (ch.counts.failCount + 1) % 2 ^ 64 }
  let msg := result.status.message
  let isConnectionErr :=
    if !result.status.ok then
      finds msg "connect failed" || finds msg "send request failed" ||
        finds msg "connection closed" || finds msg "connection inactive" ||
        finds msg "dispatcher stopped" || finds msg "call timeout"
    else false
  if !isConnectionErr then { counts, health := { consecutiveFailures := 0, healthy := true } }
  else
    let failures := (ch.health.consecutiveFailures + 1) % 2 ^ 64
    let health := { ch.health with consecutiveFailures := failures }
    if failures ≥ maxFailures then { counts, health := { health with healthy := false } }
    else { counts, health }

/-- `CallCo` after its `co_await`. -/
def callCoCompletion (maxFailures : ℕ) (ch : Channel) (result : RpcCallResult) : Channel :=
  (ch.recordCallResult result).recordReachability maxFailures (!isConnectionError result)

variable {maxFailures : ℕ} {ch : Channel} {result : RpcCallResult}

theorem isConnectionError_of_ok (h : result.status.ok = true) :
    isConnectionError result = false := by
  simp [isConnectionError, h]

/-- The list of `CallAsync` is the one of `IsConnectionError`. -/
theorem isConnectionError_of_not_ok (h : result.status.ok = false) :
    isConnectionError result =
      (finds result.status.message "connect failed" ||
        finds result.status.message "send request failed" ||
        finds result.status.message "connection closed" ||
        finds result.status.message "connection inactive" ||
        finds result.status.message "dispatcher stopped" ||
        finds result.status.message "call timeout") := by
  simp [isConnectionError, h, finds, Bool.or_assoc]

theorem callAttempt_eq (maxFailures : ℕ) (ch : Channel) (result : RpcCallResult) :
    ch.callAttempt maxFailures result =
      (ch.callCoCompletion maxFailures result, isConnectionError result) := by
  unfold callAttempt callCoCompletion
  cases hok : result.status.ok with
  | true => simp [isConnectionError_of_ok hok]
  | false => cases herr : isConnectionError result <;> simp

theorem callAsyncThread_eq (maxFailures : ℕ) (ch : Channel) (result : RpcCallResult) :
    ch.callAsyncThread maxFailures result = ch.callCoCompletion maxFailures result := by
  unfold callAsyncThread callCoCompletion recordCallResult recordReachability
  cases hok : result.status.ok with
  | true =>
    simp [isConnectionError_of_ok hok, ChannelCounts.recordCallResult,
      Health.recordReachability, hok]
  | false =>
    simp only [Bool.not_false, if_true, ← isConnectionError_of_not_ok hok]
    cases herr : isConnectionError result with
    | false => simp [ChannelCounts.recordCallResult, Health.recordReachability, hok]
    | true =>
      simp only [ChannelCounts.recordCallResult, Health.recordReachability, hok]
      split_ifs <;> rfl

/-- **The three completions are one.**  Whatever the channel, the maximum and the result,
the code of `CallAsync` and that of an attempt of `Call` do to the counters, the count of
failures and the flag what `CallCo` does. -/
theorem bookkeeping_eq (maxFailures : ℕ) (ch : Channel) (result : RpcCallResult) :
    (ch.callAttempt maxFailures result).1 = ch.callCoCompletion maxFailures result ∧
      ch.callAsyncThread maxFailures result = ch.callCoCompletion maxFailures result :=
  ⟨congrArg Prod.fst (callAttempt_eq maxFailures ch result),
    callAsyncThread_eq maxFailures ch result⟩

end Channel

/-! ### The completions of the pool -/

namespace RpcClientPool

variable {setup : PoolSetup} {s : RpcClientPool} {k i : ℕ} {kind : OperationKind}
  {r next : Recording} {again failed : Bool} {attempted : List ℕ} {h : Health}

/-- The atomic operations of an ending, with nobody between them. -/
def recorded (maxFailures : ℕ) (h : Health) (r : Recording) : Health :=
  match r.run maxFailures h with
  | (h, none) => h
  | (h, some next) => (next.run maxFailures h).1

theorem recorded_ending (maxFailures : ℕ) (h : Health) (unreachable : Bool) :
    recorded maxFailures h (if unreachable then Ending.unreachable else .reachable).recording =
      h.recordReachability maxFailures (!unreachable) := by
  cases unreachable with
  | false => rfl
  | true =>
    simp only [recorded, if_true, Ending.recording, Recording.run, Health.recordReachability,
      Bool.not_true, Bool.false_eq_true, if_false]
    split_ifs <;> rfl

/-- The last atomic operation of an ending. -/
theorem step_record_last
    (hl : s.operations.lookup k = some ⟨kind, .recording i r again, attempted, failed⟩)
    (hrun : r.run setup.maxConsecutiveFailures (s.health i) = (h, none)) :
    ∃ t, step setup s (.record k) = some t ∧ t.health = Function.update s.health i h := by
  simp only [step, hl, hrun]
  cases again with
  | false => exact ⟨_, rfl, rfl⟩
  | true => exact ⟨_, rfl, rfl⟩

/-- What comes after the first of them is the last. -/
theorem run_next {maxFailures : ℕ} {h h' : Health}
    (hrun : r.run maxFailures h = (h', some next)) : (next.run maxFailures h').2 = none := by
  cases r with
  | zeroing =>
    cases hrun
    rfl
  | healing => cases hrun
  | adding =>
    simp only [Recording.run] at hrun
    split_ifs at hrun
    · cases hrun
      rfl
    · cases hrun
  | capping =>
    cases hrun
    rfl
  | condemning => cases hrun

/-- An operation that records its ending, with nobody between its steps. -/
theorem exec_records
    (hl : s.operations.lookup k = some ⟨kind, .recording i r again, attempted, failed⟩) :
    ∃ n t, exec (step setup) s (List.replicate n (.record k)) = some t ∧
      t.health =
        Function.update s.health i (recorded setup.maxConsecutiveFailures (s.health i) r) := by
  cases hrun : r.run setup.maxConsecutiveFailures (s.health i) with
  | mk h next =>
    cases next with
    | none =>
      obtain ⟨t, ht, hhealth⟩ := step_record_last hl hrun
      refine ⟨1, t, ?_, ?_⟩
      · simp [ht]
      · rw [hhealth, recorded, hrun]
    | some next =>
      obtain ⟨u, hu, hlu, huhealth⟩ : ∃ u, step setup s (.record k) = some u ∧
          u.operations.lookup k = some ⟨kind, .recording i next again, attempted, failed⟩ ∧
          u.health = Function.update s.health i h := by
        simp only [step, hl, hrun]
        exact ⟨_, rfl, AList.lookup_insert _, rfl⟩
      have hlast : next.run setup.maxConsecutiveFailures (u.health i) =
          ((next.run setup.maxConsecutiveFailures h).1, none) := by
        rw [huhealth, Function.update_self]
        exact Prod.ext rfl (run_next hrun)
      obtain ⟨t, ht, hhealth⟩ := step_record_last hlu hlast
      refine ⟨2, t, ?_, ?_⟩
      · simp [List.replicate_succ, hu, ht]
      · rw [hhealth, huhealth, recorded, hrun, Function.update_idem]

/-- **A completion of the pool that nobody interrupts** leaves the health of its channel as
`CallCo` does, and that of the others alone. -/
theorem completion_of_steps
    (hl : s.operations.lookup k = some ⟨kind, .waiting i, attempted, failed⟩)
    (result : RpcCallResult) (left : Bool) (counts : ChannelCounts) :
    ∃ n t, exec (step setup) s (.finish k result left :: List.replicate n (.record k)) = some t ∧
      t.health = Function.update s.health i
        (Channel.callCoCompletion setup.maxConsecutiveFailures ⟨counts, s.health i⟩
          result).health := by
  obtain ⟨u, r, again, hu, hlu, hhealth, hr⟩ : ∃ u r again,
      step setup s (.finish k result left) = some u ∧
      u.operations.lookup k =
        some ⟨kind, .recording i r again, attempted, failed || !result.status.ok⟩ ∧
      u.health = s.health ∧
      r = (if isConnectionError result then Ending.unreachable else .reachable).recording := by
    simp only [step, hl]
    exact ⟨_, _, _, rfl, AList.lookup_insert _, rfl, rfl⟩
  obtain ⟨n, t, ht, hrecords⟩ : ∃ n t, exec (step setup) u (List.replicate n (.record k)) = some t ∧
      t.health = _ := exec_records hlu
  refine ⟨n, t, ?_, ?_⟩
  · rw [exec_cons, hu]
    exact ht
  · rw [hrecords, hhealth, hr, recorded_ending]
    rfl

end RpcClientPool

end Client
end MiniRpc
