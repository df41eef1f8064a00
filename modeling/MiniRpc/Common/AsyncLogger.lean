/-
# The asynchronous logger

`AsyncLoggerEngine` of `src/common/async_logger.cpp`: any number of threads in
`Submit`, `Init` and `Shutdown`, and the worker in `WorkerLoop`.  Each load and
store of an atomic, and each step of the queue that another thread can see, is a
step here, so a list of events is an interleaving.  The queue is a `TicketQueue`,
as in `MiniRpc.Common.ThreadPool`; its records are their levels.  What the worker
writes, when it flushes and how long it sleeps, and the counters of
`GetRuntimeStats`, are left out: no drop depends on them.

`inflight_count_` is "the number of records in the queue", but `Submit` adds to
it after its push and the worker subtracts from it after its pop.  The state
keeps the tickets that were added, so that the counter can be compared with the
line (`Tallied`).  `reliable_iff` says when no record is dropped without need.
-/

import MiniRpc.Common.RingPlaces
import MiniRpc.Library.Transition
import Mathlib.Data.List.Perm.Subperm
import Mathlib.Logic.Function.Basic

namespace MiniRpc
namespace Common

open Transition

inductive LogLevel where
  | kInfo
  | kWarn
  | kError
  | kOff
  deriving DecidableEq, Repr

/-- `LevelValue`. -/
def LogLevel.value : LogLevel → ℕ
  | .kInfo => 0
  | .kWarn => 1
  | .kError => 2
  | .kOff => 3

/-- `kRingCapacity`. -/
def kRingCapacity : ℕ := 2 ^ 18

/-- `kDefaultQueueCapacity`. -/
def kDefaultQueueCapacity : ℕ := 2 ^ 16

/-- `kDefaultBatchSize`. -/
def kDefaultBatchSize : ℕ := 512

/-- The options that `Submit` and the worker go by. -/
structure LoggerOptions where
  queueCapacity : ℕ := 2 ^ 16
  maxBatchSize : ℕ := 512
  minLevel : LogLevel := .kInfo
  deriving DecidableEq, Repr

/-- Why a record is dropped, with what the ring held at that moment. -/
inductive Drop where
  /-- `inflight_count_` has reached the limit. -/
  | soft (limit held : ℕ)
  /-- `TryPush` found the ring full. -/
  | full (held : ℕ)
  deriving DecidableEq, Repr

/-- The ring held as many records as the limit, or was full. -/
def Drop.Justified : Drop → Prop
  | .soft limit held => limit ≤ held
  | .full held => held = kRingCapacity

/-- What a thread does next in `Submit`, `Init` or `Shutdown`. -/
inductive LogCaller where
  | outside
  | checkAccepting (level : LogLevel)
  | checkLevel (level : LogLevel)
  /-- `queue_capacity_soft_.load()`. -/
  | loadLimit (level : LogLevel)
  /-- `inflight_count_.load() >= soft_cap`. -/
  | checkLimit (level : LogLevel) (limit : ℕ)
  | tryPush (level : LogLevel)
  /-- `TryPush` has won a place and has it to fill. -/
  | filling (ticket : ℕ)
  /-- `inflight_count_.fetch_add(1)`. -/
  | counting (ticket : ℕ)
  /-- `dropped_.fetch_add(1)`. -/
  | dropping (reason : Drop)
  | initAccepting (options : LoggerOptions)
  | initLevel (options : LoggerOptions)
  | initCapacity (options : LoggerOptions)
  | initBatch (options : LoggerOptions)
  /-- `Shutdown` has stopped the records. -/
  | stopping
  | joining
  deriving DecidableEq, Repr

/-- The place in the ring that the thread has not counted yet. -/
def LogCaller.ticket : LogCaller → Option ℕ
  | .filling ticket | .counting ticket => some ticket
  | _ => none

/-- What the worker does next in `WorkerLoop`; `stopping` after the loop. -/
inductive LogWorker where
  | looping
  /-- In `PopBatch`, with the room left and the number of records it has. -/
  | popping (room drained : ℕ) (stopping : Bool)
  /-- `inflight_count_.fetch_sub(drained)`. -/
  | counting (drained : ℕ) (stopping : Bool)
  | checkStop
  | exited
  deriving DecidableEq, Repr

/-- The records that were taken out of the ring and not yet subtracted. -/
def LogWorker.taken : LogWorker → ℕ
  | .popping _ drained _ => drained
  | .counting drained _ => drained
  | _ => 0

def LogWorker.room : LogWorker → ℕ
  | .popping room _ _ => room
  | _ => 0

/-- The logger with its threads, and the tickets that were added to
`inflight_count_`, the records that were dropped, and whether a subtraction went
below zero. -/
structure AsyncLogger where
  queue : TicketQueue LogLevel := {}
  inflightCount : ℕ := 0
  queueCapacitySoft : ℕ := kDefaultQueueCapacity
  maxBatchSize : ℕ := kDefaultBatchSize
  minLevel : LogLevel := .kInfo
  acceptingLogs : Bool := true
  stopRequested : Bool := false
  /-- `batch.size()`. -/
  batchSize : ℕ := 0
  worker : LogWorker := .looping
  callers : ℕ → LogCaller := fun _ => .outside
  counted : List ℕ := []
  dropped : List Drop := []
  wrapped : Bool := false

/-- `fetch_sub` on a `std::size_t`. -/
def fetchSub (n k : ℕ) : ℕ := (n + 2 ^ 64 - k) % 2 ^ 64

theorem fetchSub_of_le {n k : ℕ} (hk : k ≤ n) (hn : n < 2 ^ 64) : fetchSub n k = n - k := by
  unfold fetchSub
  omega

namespace AsyncLogger

/-- One step of one thread. -/
inductive Event where
  /-- A thread calls `Submit`. -/
  | submit (t : ℕ) (level : LogLevel)
  /-- A thread calls `Init`. -/
  | init (t : ℕ) (options : LoggerOptions)
  /-- A thread calls `Shutdown`. -/
  | shutdown (t : ℕ)
  /-- A thread goes on in its function. -/
  | call (t : ℕ)
  /-- The worker goes on. -/
  | work
  deriving DecidableEq, Repr

/-- The records in the ring: claimed and not yet consumed. -/
def held (s : AsyncLogger) : ℕ := s.queue.line.length

/-- The thread is at this place now. -/
def goto (s : AsyncLogger) (t : ℕ) (place : LogCaller) : AsyncLogger :=
  { s with callers := Function.update s.callers t place }

/-- A thread goes on in `Submit`, `Init` or `Shutdown`. -/
def call (s : AsyncLogger) (t : ℕ) : Option AsyncLogger :=
  match s.callers t with
  | .outside => none
  | .checkAccepting level =>
    some (s.goto t (if s.acceptingLogs then .checkLevel level else .outside))
  | .checkLevel level =>
    some (s.goto t (if level.value < s.minLevel.value then .outside else .loadLimit level))
  | .loadLimit level => some (s.goto t (.checkLimit level s.queueCapacitySoft))
  | .checkLimit level limit =>
    some (s.goto t (if limit < kRingCapacity ∧ limit ≤ s.inflightCount then
      .dropping (.soft limit s.held) else .tryPush level))
  | .tryPush level =>
    if s.held < kRingCapacity then
      some (goto { s with queue := s.queue.reserve level } t (.filling s.queue.ticket))
    else some (s.goto t (.dropping (.full s.held)))
  | .filling ticket =>
    some (goto { s with queue := s.queue.fill ticket } t (.counting ticket))
  | .counting ticket =>
    some (goto { s with
      inflightCount := (s.inflightCount + 1) % 2 ^ 64
      counted := ticket :: s.counted } t .outside)
  | .dropping reason => some (goto { s with dropped := reason :: s.dropped } t .outside)
  | .initAccepting options =>
    some (s.goto t (if s.acceptingLogs then .initLevel options else .outside))
  | .initLevel options =>
    some (goto { s with minLevel := options.minLevel } t (.initCapacity options))
  | .initCapacity options =>
    some (goto { s with
      queueCapacitySoft := max 1 (min options.queueCapacity kRingCapacity) } t (.initBatch options))
  | .initBatch options =>
    some (goto { s with maxBatchSize := max 1 options.maxBatchSize } t .outside)
  | .stopping => some (goto { s with stopRequested := true } t .joining)
  | .joining => if s.worker = .exited then some (s.goto t .outside) else none

/-- The worker goes on in `WorkerLoop`.  No vector has `2 ^ 63` elements: `resize`
would throw. -/
def work (s : AsyncLogger) : Option AsyncLogger :=
  match s.worker with
  | .looping =>
    if s.maxBatchSize < 2 ^ 63 then
      some { s with batchSize := s.maxBatchSize, worker := .popping s.maxBatchSize 0 false }
    else none
  | .popping room drained stopping =>
    match if room = 0 then none else s.queue.pop with
    | some (_, queue) =>
      some { s with queue, worker := .popping (room - 1) (drained + 1) stopping }
    | none =>
      some { s with
        worker := if drained = 0 then (if stopping then .exited else .checkStop)
          else .counting drained stopping }
  | .counting drained stopping =>
    some { s with
      inflightCount := fetchSub s.inflightCount drained
      wrapped := s.wrapped || s.inflightCount < drained
      worker := if stopping then .popping s.batchSize 0 true else .looping }
  | .checkStop =>
    some { s with
      worker := if s.stopRequested then .popping s.batchSize 0 true else .looping }
  | .exited => none

/-- One step, `none` if it cannot happen in the state. -/
def step (s : AsyncLogger) : Event → Option AsyncLogger
  | .submit t level =>
    if s.callers t = .outside then some (s.goto t (.checkAccepting level)) else none
  | .init t options =>
    if s.callers t = .outside then some (s.goto t (.initAccepting options)) else none
  | .shutdown t =>
    if s.callers t = .outside then
      some (if s.acceptingLogs then goto { s with acceptingLogs := false } t .stopping else s)
    else none
  | .call t => s.call t
  | .work => s.work

/-- **No record is dropped without need**: the ring held as many as the limit, or
was full; and `inflight_count_` has not wrapped below zero. -/
structure Reliable (s : AsyncLogger) : Prop where
  wrapped : s.wrapped = false
  dropping : ∀ t reason, s.callers t = .dropping reason → reason.Justified
  dropped : ∀ reason ∈ s.dropped, reason.Justified

/-- The records that have a place in the ring, or had one, and were not added to
`inflight_count_` yet. -/
def uncounted (s : AsyncLogger) : ℕ := s.queue.ticket - s.counted.length

/-- The limit is checked while the ring holds as many records, or would not with
those that were taken out and not yet subtracted, less those that were not
added; and at a subtraction no more are still to be added than are in the ring. -/
def settled (s : AsyncLogger) : Event → Bool
  | .call t =>
    match s.callers t with
    | .checkLimit _ limit =>
      kRingCapacity ≤ limit || limit ≤ s.held ||
        s.held + s.worker.taken < limit + s.uncounted
    | _ => true
  | .work =>
    match s.worker with
    | .counting _ _ => s.uncounted ≤ s.held
    | _ => true
  | _ => true

@[simp] theorem goto_callers (s : AsyncLogger) (t : ℕ) (place : LogCaller) :
    (s.goto t place).callers = Function.update s.callers t place := rfl

/-! ### The invariant -/

/-- Each place that was taken is counted at most once, by the thread that took
it. -/
structure Ticketed (s : AsyncLogger) : Prop where
  nodup : s.counted.Nodup
  taken : ∀ k ∈ s.counted, k < s.queue.ticket
  pending : ∀ t k, (s.callers t).ticket = some k → k < s.queue.ticket ∧ k ∉ s.counted
  distinct : ∀ t t' k, (s.callers t).ticket = some k → (s.callers t').ticket = some k → t = t'

/-- The counter is the number of records that were added, less those that were
taken out and subtracted. -/
structure Tallied (s : AsyncLogger) : Prop where
  reliable : s.Reliable
  ticketed : s.Ticketed
  tally : s.inflightCount + s.queue.served = s.counted.length + s.worker.taken
  held : s.held ≤ kRingCapacity
  batch : s.batchSize < 2 ^ 63
  room : s.worker.room + s.worker.taken < 2 ^ 63

variable {s s' : AsyncLogger} {t : ℕ} {place : LogCaller}

namespace Ticketed

theorem init : Ticketed {} where
  nodup := List.nodup_nil
  taken := fun k hk => by cases hk
  pending := fun t k h => by cases h
  distinct := fun t t' k h => by cases h

/-- Only the tickets matter. -/
theorem of_eq (h : s.Ticketed) (hcounted : s'.counted = s.counted)
    (hcallers : s'.callers = s.callers) (hticket : s'.queue.ticket = s.queue.ticket) :
    s'.Ticketed := by
  refine ⟨hcounted ▸ h.nodup, ?_, ?_, hcallers ▸ h.distinct⟩
  · rw [hcounted, hticket]
    exact h.taken
  · rw [hcounted, hcallers, hticket]
    exact h.pending

theorem length_le (h : s.Ticketed) : s.counted.length ≤ s.queue.ticket := by
  have hsub : s.counted ⊆ List.range s.queue.ticket :=
    fun k hk => List.mem_range.2 (h.taken k hk)
  have := (h.nodup.subperm hsub).length_le
  rwa [List.length_range] at this

/-- A thread that takes no ticket may lose its own. -/
theorem goto (h : s.Ticketed)
    (hplace : place.ticket = none ∨ place.ticket = (s.callers t).ticket) :
    Ticketed (s.goto t place) := by
  have hold : ∀ t' k, ((s.goto t place).callers t').ticket = some k →
      (s.callers t').ticket = some k := by
    intro t' k hk
    rw [goto_callers] at hk
    by_cases ht : t' = t
    · subst ht
      rw [Function.update_self] at hk
      rcases hplace with hnone | hsame
      · rw [hnone] at hk
        cases hk
      · rw [← hsame, hk]
    · rwa [Function.update_of_ne ht] at hk
  exact ⟨h.nodup, h.taken, fun t' k hk => h.pending t' k (hold t' k hk),
    fun t' t'' k hk hk' => h.distinct t' t'' k (hold t' k hk) (hold t'' k hk')⟩

/-- A thread that has no ticket takes the next one. -/
theorem reserve (h : s.Ticketed) (level : LogLevel) :
    Ticketed (AsyncLogger.goto { s with queue := s.queue.reserve level } t
      (.filling s.queue.ticket)) where
  nodup := h.nodup
  taken := by
    intro k hk
    have := h.taken k hk
    show k < (s.queue.reserve level).ticket
    rw [TicketQueue.ticket_reserve]
    omega
  pending := by
    intro t' k hk
    show k < (s.queue.reserve level).ticket ∧ k ∉ s.counted
    rw [TicketQueue.ticket_reserve]
    rw [goto_callers] at hk
    by_cases ht : t' = t
    · subst ht
      rw [Function.update_self] at hk
      obtain rfl := Option.some.inj hk
      exact ⟨Nat.lt_succ_self _, fun hmem => lt_irrefl _ (h.taken _ hmem)⟩
    · rw [Function.update_of_ne ht] at hk
      obtain ⟨hlt, hnot⟩ := h.pending t' k hk
      exact ⟨Nat.lt_succ_of_lt hlt, hnot⟩
  distinct := by
    intro t' t'' k hk hk'
    rw [goto_callers] at hk hk'
    have hnew : ∀ t', t' ≠ t → ¬ (s.callers t').ticket = some s.queue.ticket :=
      fun t' _ hk => lt_irrefl _ (h.pending t' _ hk).1
    by_cases ht : t' = t <;> by_cases ht' : t'' = t
    · rw [ht, ht']
    · rw [ht, Function.update_self] at hk
      rw [Function.update_of_ne ht'] at hk'
      obtain rfl := Option.some.inj hk
      exact absurd hk' (hnew t'' ht')
    · rw [ht', Function.update_self] at hk'
      rw [Function.update_of_ne ht] at hk
      obtain rfl := Option.some.inj hk'
      exact absurd hk (hnew t' ht)
    · rw [Function.update_of_ne ht] at hk
      rw [Function.update_of_ne ht'] at hk'
      exact h.distinct t' t'' k hk hk'

/-- A thread counts its ticket. -/
theorem count (h : s.Ticketed) {ticket n : ℕ} (hplace : s.callers t = .counting ticket) :
    Ticketed (AsyncLogger.goto { s with
      inflightCount := n
      counted := ticket :: s.counted } t .outside) := by
  have hticket : (s.callers t).ticket = some ticket := by rw [hplace]; rfl
  obtain ⟨hlt, hnot⟩ := h.pending t ticket hticket
  refine ⟨List.nodup_cons.2 ⟨hnot, h.nodup⟩, ?_, ?_, ?_⟩
  · intro k hk
    rcases List.mem_cons.1 hk with rfl | hk
    · exact hlt
    · exact h.taken k hk
  · intro t' k hk
    by_cases ht : t' = t
    · subst ht
      rw [goto_callers, Function.update_self] at hk
      cases hk
    · rw [goto_callers, Function.update_of_ne ht] at hk
      obtain ⟨hlt', hnot'⟩ := h.pending t' k hk
      refine ⟨hlt', fun hmem => ?_⟩
      rcases List.mem_cons.1 hmem with rfl | hmem
      · exact ht (h.distinct t' t k hk hticket)
      · exact hnot' hmem
  · intro t' t'' k hk hk'
    rw [goto_callers] at hk hk'
    by_cases ht : t' = t
    · rw [ht, Function.update_self] at hk
      cases hk
    · by_cases ht' : t'' = t
      · rw [ht', Function.update_self] at hk'
        cases hk'
      · rw [Function.update_of_ne ht] at hk
        rw [Function.update_of_ne ht'] at hk'
        exact h.distinct t' t'' k hk hk'

end Ticketed

/-- Only the drops and the wrap matter. -/
theorem Reliable.of_eq (h : s.Reliable) (hwrapped : s'.wrapped = s.wrapped)
    (hcallers : s'.callers = s.callers) (hdropped : s'.dropped = s.dropped) : s'.Reliable :=
  ⟨hwrapped.trans h.wrapped, hcallers ▸ h.dropping, hdropped ▸ h.dropped⟩

/-- A thread goes on without a drop, or to one that is justified. -/
theorem Reliable.goto (h : s.Reliable)
    (hplace : ∀ reason, place = .dropping reason → reason.Justified) :
    Reliable (s.goto t place) where
  wrapped := h.wrapped
  dropping := by
    intro t' reason hd
    rw [goto_callers] at hd
    by_cases ht : t' = t
    · rw [ht, Function.update_self] at hd
      exact hplace reason hd
    · rw [Function.update_of_ne ht] at hd
      exact h.dropping t' reason hd
  dropped := h.dropped

namespace Tallied

theorem init : Tallied {} where
  reliable := {
    wrapped := rfl
    dropping := fun t reason h => by cases h
    dropped := fun reason h => by cases h }
  ticketed := .init
  tally := rfl
  held := Nat.zero_le _
  batch := by decide
  room := by decide

/-- What the counter says. -/
theorem inflightCount_eq (h : s.Tallied) :
    s.inflightCount + s.uncounted = s.held + s.worker.taken := by
  have htally := h.tally
  have hle := h.ticketed.length_le
  have hticket : s.queue.ticket = s.queue.served + s.held := rfl
  unfold uncounted
  omega

theorem goto (h : s.Tallied)
    (hticket : place.ticket = none ∨ place.ticket = (s.callers t).ticket)
    (hreason : ∀ reason, place = .dropping reason → reason.Justified) :
    Tallied (s.goto t place) :=
  ⟨h.reliable.goto hreason, h.ticketed.goto hticket, h.tally, h.held, h.batch, h.room⟩

/-- The settings may change. -/
theorem settings (h : s.Tallied) (queueCapacitySoft maxBatchSize : ℕ) (minLevel : LogLevel)
    (acceptingLogs stopRequested : Bool) :
    Tallied { s with queueCapacitySoft, maxBatchSize, minLevel, acceptingLogs, stopRequested } :=
  ⟨h.reliable.of_eq rfl rfl rfl, h.ticketed.of_eq rfl rfl rfl, h.tally, h.held, h.batch, h.room⟩

/-- A thread checks the limit.  It goes on to a drop if the counter has reached
the limit, and then so has the ring. -/
theorem checkLimit (h : s.Tallied) {level : LogLevel} {limit : ℕ}
    (hplace : s.callers t = .checkLimit level limit) (hsettled : s.settled (.call t) = true) :
    Tallied (s.goto t (if limit < kRingCapacity ∧ limit ≤ s.inflightCount then
      .dropping (.soft limit s.held) else .tryPush level)) := by
  have hcount := h.inflightCount_eq
  simp only [settled, hplace, Bool.or_eq_true, decide_eq_true_eq] at hsettled
  split_ifs with hover
  · refine h.goto (Or.inl rfl) ?_
    rintro reason ⟨⟩
    show limit ≤ s.held
    omega
  · exact h.goto (Or.inl rfl) fun reason hr => by cases hr

theorem tryPush (h : s.Tallied) (level : LogLevel) (hroom : s.held < kRingCapacity) :
    Tallied (AsyncLogger.goto { s with queue := s.queue.reserve level } t
      (.filling s.queue.ticket)) where
  reliable := (h.reliable.goto fun reason hr => by cases hr).of_eq rfl rfl rfl
  ticketed := h.ticketed.reserve level
  tally := h.tally
  held := by
    show (s.queue.line ++ [(level, false)]).length ≤ kRingCapacity
    rw [List.length_append, List.length_singleton]
    exact hroom
  batch := h.batch
  room := h.room

theorem fill (h : s.Tallied) {ticket : ℕ} (hplace : s.callers t = .filling ticket) :
    Tallied (AsyncLogger.goto { s with queue := s.queue.fill ticket } t (.counting ticket)) := by
  have hmoved : Tallied (s.goto t (.counting ticket)) :=
    h.goto (Or.inr (by rw [hplace]; rfl)) fun reason hr => by cases hr
  have hline : (s.queue.fill ticket).line.length = s.queue.line.length := by
    rw [TicketQueue.fill, List.length_modify]
  refine ⟨hmoved.reliable.of_eq rfl rfl rfl,
    hmoved.ticketed.of_eq rfl rfl (TicketQueue.ticket_fill ..), hmoved.tally, ?_, hmoved.batch,
    hmoved.room⟩
  show (s.queue.fill ticket).line.length ≤ kRingCapacity
  rw [hline]
  exact h.held

/-- A thread counts its record; the counter is far from its upper end. -/
theorem count (h : s.Tallied) {ticket : ℕ} (hplace : s.callers t = .counting ticket) :
    Tallied (AsyncLogger.goto { s with
      inflightCount := (s.inflightCount + 1) % 2 ^ 64
      counted := ticket :: s.counted } t .outside) where
  reliable := (h.reliable.goto fun reason hr => by cases hr).of_eq rfl rfl rfl
  ticketed := h.ticketed.count hplace
  tally := by
    have hcount := h.inflightCount_eq
    have hheld := h.held
    have hroom := h.room
    have htally := h.tally
    show (s.inflightCount + 1) % 2 ^ 64 + s.queue.served =
      (ticket :: s.counted).length + s.worker.taken
    rw [List.length_cons]
    unfold kRingCapacity at hheld
    omega
  held := show s.queue.line.length ≤ kRingCapacity from h.held
  batch := h.batch
  room := h.room

theorem drop (h : s.Tallied) {reason : Drop} (hplace : s.callers t = .dropping reason) :
    Tallied (AsyncLogger.goto { s with dropped := reason :: s.dropped } t .outside) := by
  have hmoved : Tallied (s.goto t .outside) :=
    h.goto (Or.inl rfl) fun reason hr => by cases hr
  refine ⟨⟨hmoved.reliable.wrapped, hmoved.reliable.dropping, ?_⟩,
    hmoved.ticketed.of_eq rfl rfl rfl, hmoved.tally, hmoved.held, hmoved.batch, hmoved.room⟩
  intro reason' hr
  rcases List.mem_cons.1 hr with rfl | hr
  · exact h.reliable.dropping t _ hplace
  · exact h.reliable.dropped reason' hr

/-- A thread goes on. -/
theorem call (h : s.Tallied) (hsettled : s.settled (.call t) = true)
    (hs : s.call t = some s') : s'.Tallied := by
  unfold AsyncLogger.call at hs
  split at hs
  case h_1 => cases hs
  case h_5 level limit hplace =>
    obtain rfl := Option.some.inj hs
    exact h.checkLimit hplace hsettled
  case h_6 level hplace =>
    split_ifs at hs with hroom
    · obtain rfl := Option.some.inj hs
      exact h.tryPush level hroom
    · obtain rfl := Option.some.inj hs
      refine h.goto (Or.inl rfl) ?_
      rintro reason ⟨⟩
      exact le_antisymm h.held (not_lt.1 hroom)
  case h_7 ticket hplace =>
    obtain rfl := Option.some.inj hs
    exact h.fill hplace
  case h_8 ticket hplace =>
    obtain rfl := Option.some.inj hs
    exact h.count hplace
  case h_9 reason hplace =>
    obtain rfl := Option.some.inj hs
    exact h.drop hplace
  case h_11 options hplace =>
    obtain rfl := Option.some.inj hs
    exact (h.settings _ _ _ _ _).goto (Or.inl rfl) fun reason hr => by cases hr
  case h_12 options hplace =>
    obtain rfl := Option.some.inj hs
    exact (h.settings _ _ _ _ _).goto (Or.inl rfl) fun reason hr => by cases hr
  case h_13 options hplace =>
    obtain rfl := Option.some.inj hs
    exact (h.settings _ _ _ _ _).goto (Or.inl rfl) fun reason hr => by cases hr
  case h_14 hplace =>
    obtain rfl := Option.some.inj hs
    exact (h.settings _ _ _ _ _).goto (Or.inl rfl) fun reason hr => by cases hr
  case h_15 hplace =>
    split_ifs at hs
    obtain rfl := Option.some.inj hs
    exact h.goto (Or.inl rfl) fun reason hr => by cases hr
  -- the tests of `accepting_logs_` and of the level, and the load of the limit
  all_goals
    obtain rfl := Option.some.inj hs
    refine h.goto (Or.inl ?_) ?_
    · try split_ifs
      all_goals rfl
    · try split_ifs
      all_goals exact fun reason hr => by cases hr

/-- The worker goes on, and neither takes nor subtracts. -/
theorem worker (h : s.Tallied) {place : LogWorker} {batchSize : ℕ}
    (htaken : place.taken = s.worker.taken) (hbatch : batchSize < 2 ^ 63)
    (hroom : place.room + place.taken < 2 ^ 63) :
    Tallied { s with batchSize, worker := place } :=
  ⟨h.reliable.of_eq rfl rfl rfl, h.ticketed.of_eq rfl rfl rfl, htaken ▸ h.tally, h.held, hbatch,
    hroom⟩

/-- A record leaves the ring. -/
theorem pop (h : s.Tallied) {room drained : ℕ} {stopping : Bool} {level : LogLevel}
    {queue : TicketQueue LogLevel} (hworker : s.worker = .popping (room + 1) drained stopping)
    (hpop : s.queue.pop = some (level, queue)) :
    Tallied { s with queue, worker := .popping room (drained + 1) stopping } := by
  obtain ⟨hserved, hlength⟩ := TicketQueue.served_of_pop hpop
  have hticket : queue.ticket = s.queue.ticket := by
    unfold TicketQueue.ticket
    omega
  have htally := h.tally
  have hheld := h.held
  have hroom := h.room
  rw [hworker] at htally hroom
  refine ⟨h.reliable.of_eq rfl rfl rfl, h.ticketed.of_eq rfl rfl hticket, ?_, ?_, h.batch, ?_⟩
  · show s.inflightCount + queue.served = s.counted.length + (drained + 1)
    simp only [LogWorker.taken] at htally
    omega
  · show queue.line.length ≤ kRingCapacity
    unfold AsyncLogger.held at hheld
    omega
  · show room + (drained + 1) < 2 ^ 63
    simp only [LogWorker.room, LogWorker.taken] at hroom
    omega

/-- The worker subtracts what it has taken, all of which was added. -/
theorem subtract (h : s.Tallied) {drained : ℕ} {stopping : Bool}
    (hworker : s.worker = .counting drained stopping) (hsettled : s.settled .work = true) :
    Tallied { s with
      inflightCount := fetchSub s.inflightCount drained
      wrapped := s.wrapped || s.inflightCount < drained
      worker := if stopping then .popping s.batchSize 0 true else .looping } := by
  have hcount := h.inflightCount_eq
  have htally := h.tally
  have hheld : s.queue.line.length ≤ kRingCapacity := h.held
  have hroom := h.room
  have hbatch := h.batch
  simp only [settled, hworker, decide_eq_true_eq] at hsettled
  rw [hworker] at hcount htally hroom
  simp only [LogWorker.taken, LogWorker.room] at hcount htally hroom
  have hless : s.inflightCount < 2 ^ 64 := by
    unfold kRingCapacity AsyncLogger.held at *
    omega
  refine ⟨⟨?_, h.reliable.dropping, h.reliable.dropped⟩, h.ticketed.of_eq rfl rfl rfl, ?_, hheld,
    hbatch, ?_⟩
  · show (s.wrapped || decide (s.inflightCount < drained)) = false
    rw [h.reliable.wrapped, Bool.false_or, decide_eq_false_iff_not]
    omega
  · show fetchSub s.inflightCount drained + s.queue.served =
      s.counted.length + (if stopping then LogWorker.popping s.batchSize 0 true else .looping).taken
    have hzero :
        (if stopping then LogWorker.popping s.batchSize 0 true else .looping).taken = 0 := by
      split_ifs <;> rfl
    rw [hzero, fetchSub_of_le (by omega) hless]
    omega
  · show (if stopping then LogWorker.popping s.batchSize 0 true else .looping).room +
      (if stopping then LogWorker.popping s.batchSize 0 true else .looping).taken < 2 ^ 63
    split_ifs
    · exact hbatch
    · decide

/-- The worker goes on. -/
theorem work (h : s.Tallied) (hsettled : s.settled .work = true) (hs : s.work = some s') :
    s'.Tallied := by
  have hroom := h.room
  unfold AsyncLogger.work at hs
  split at hs
  case h_1 hworker =>
    split_ifs at hs with hbatch
    obtain rfl := Option.some.inj hs
    exact h.worker (by rw [hworker]; rfl) hbatch hbatch
  case h_2 room drained stopping hworker =>
    rw [hworker] at hroom
    split at hs
    · rename_i level queue hpop
      obtain rfl := Option.some.inj hs
      cases room with
      | zero => cases hpop
      | succ room => exact h.pop hworker hpop
    · obtain rfl := Option.some.inj hs
      refine h.worker ?_ h.batch ?_
      · rw [hworker]
        split_ifs with hzero
        · exact hzero.symm
        · exact hzero.symm
        · rfl
      · simp only [LogWorker.room, LogWorker.taken] at hroom
        split_ifs
        · decide
        · decide
        · show 0 + drained < 2 ^ 63
          omega
  case h_3 drained stopping hworker =>
    obtain rfl := Option.some.inj hs
    exact h.subtract hworker hsettled
  case h_4 hworker =>
    obtain rfl := Option.some.inj hs
    refine h.worker ?_ h.batch ?_
    · rw [hworker]
      split_ifs <;> rfl
    · split_ifs
      · exact h.batch
      · decide
  case h_5 => cases hs

/-- **No step from a settled counter breaks it.** -/
theorem step {e : Event} (h : s.Tallied) (hsettled : s.settled e = true)
    (hs : s.step e = some s') : s'.Tallied := by
  cases e with
  | submit t level =>
    simp only [AsyncLogger.step] at hs
    split_ifs at hs
    obtain rfl := Option.some.inj hs
    exact h.goto (Or.inl rfl) fun reason hr => by cases hr
  | init t options =>
    simp only [AsyncLogger.step] at hs
    split_ifs at hs
    obtain rfl := Option.some.inj hs
    exact h.goto (Or.inl rfl) fun reason hr => by cases hr
  | shutdown t =>
    simp only [AsyncLogger.step] at hs
    split_ifs at hs
    · obtain rfl := Option.some.inj hs
      exact (h.settings _ _ _ _ _).goto (Or.inl rfl) fun reason hr => by cases hr
    · obtain rfl := Option.some.inj hs
      exact h
  | call t => exact h.call hsettled hs
  | work => exact h.work hsettled hs

end Tallied

/-- A check that sees the counter ahead of the ring drops without need, and a
subtraction of what was not added wraps. -/
theorem not_reliable {e : Event} (h : s.Tallied) (hsettled : ¬ s.settled e = true) :
    ∃ s', s.step e = some s' ∧ ¬ s'.Reliable := by
  have hcount := h.inflightCount_eq
  cases e with
  | call t =>
    cases hplace : s.callers t with
    | checkLimit level limit =>
      simp only [settled, hplace, Bool.or_eq_true, decide_eq_true_eq, not_or, not_le, not_lt]
        at hsettled
      obtain ⟨⟨hring, hheld⟩, hover⟩ := hsettled
      have hlimit : limit < kRingCapacity ∧ limit ≤ s.inflightCount := ⟨hring, by omega⟩
      refine ⟨s.goto t (.dropping (.soft limit s.held)), ?_, fun hr => ?_⟩
      · simp only [step, call, hplace, if_pos hlimit]
      · have hjustified : limit ≤ s.held :=
          hr.dropping t (.soft limit s.held) (Function.update_self ..)
        omega
    | _ => exact absurd (by simp [settled, hplace]) hsettled
  | work =>
    cases hworker : s.worker with
    | counting drained stopping =>
      simp only [settled, hworker, decide_eq_true_eq, not_le] at hsettled
      rw [hworker] at hcount
      simp only [LogWorker.taken] at hcount
      have hless : s.inflightCount < drained := by omega
      refine ⟨_, by simp only [step, work, hworker]; rfl, fun hr => ?_⟩
      have hwrapped : (s.wrapped || decide (s.inflightCount < drained)) = false := hr.wrapped
      simp [hless] at hwrapped
    | _ => exact absurd (by simp [settled, hworker]) hsettled
  | submit t level => exact absurd rfl hsettled
  | init t options => exact absurd rfl hsettled
  | shutdown t => exact absurd rfl hsettled

/-- **When the logger drops no record without need.**  In every state of a run
each record that was dropped, or is about to be, met a ring that held as many
records as the limit or was full, and `inflight_count_` has not wrapped, if and
only if every step of the run is settled. -/
theorem reliable_iff {es : List Event} :
    (∀ pre post s, es = pre ++ post → exec step {} pre = some s → s.Reliable) ↔
      Along step (fun s e => s.settled e = true) {} es := by
  refine safe_iff_along (I := Tallied) ?_ ?_ ?_ Tallied.init
  · exact fun s e s' h hsettled hs => h.step hsettled hs
  · exact fun s h => h.reliable
  · exact fun s e h hsettled => not_reliable h hsettled

/-- **An empty queue looks full.**  The worker takes out a record and subtracts it
before `Submit` has added it, and the next record is dropped. -/
theorem empty_ring_drops : ∃ s t,
    exec step {} [.submit 0 .kInfo, .call 0, .call 0, .call 0, .call 0, .call 0, .call 0,
      .work, .work, .work, .work] = some s ∧
    s.inflightCount = 2 ^ 64 - 1 ∧ s.wrapped = true ∧ s.held = 0 ∧
    exec step s [.submit 1 .kError, .call 1, .call 1, .call 1, .call 1, .call 1] = some t ∧
    t.dropped = [.soft 65536 0] ∧ t.held = 0 :=
  ⟨_, _, rfl, rfl, rfl, rfl, rfl, rfl, rfl⟩

end AsyncLogger
end Common
end MiniRpc
