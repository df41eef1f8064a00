/-
# The records of the logger

`MiniRpc.Common.AsyncLogger` with what its records hold: what `Submit` puts into
the ring, the counters `enqueued_` and `consumed_`, and what the worker hands to
`FormatBatch`.  Of a `LogEntry` only the level and the message are kept, and the
lines that `EmitDropSummaryIfNeeded` adds are left out: they are no records.

`WorkerLoop` drains the ring once more when it was told to stop, and exits when a
pop finds nothing.  A place that is taken and not yet filled ends this drain, and
a `Submit` that has passed the test of `accepting_logs_` may still take one.
`lossless_iff` says when no record is lost.
-/

import MiniRpc.Common.AsyncLogger

namespace MiniRpc
namespace Common

open Transition

structure LogEntry where
  level : LogLevel := .kInfo
  message : String := ""
  deriving DecidableEq, Repr

/-- In `Submit` or `Shutdown`. -/
def LogCaller.isBusy : LogCaller → Bool
  | .outside | .initAccepting _ | .initLevel _ | .initCapacity _ | .initBatch _ => false
  | _ => true

/-- Inside `Shutdown`, after it has stopped the records. -/
def LogCaller.isClosing : LogCaller → Bool
  | .stopping | .joining => true
  | _ => false

/-- The level that a call of `Submit` has still to push. -/
def LogCaller.level : LogCaller → Option LogLevel
  | .checkAccepting level | .checkLevel level | .loadLimit level | .checkLimit level _
  | .tryPush level => some level
  | _ => none

/-- The logger with its records, in the order of the ring. -/
structure LoggedRecords where
  logger : AsyncLogger := {}
  /-- `entry`, of each thread in `Submit`. -/
  entries : ℕ → LogEntry := fun _ => {}
  /-- All that `TryPush` took. -/
  records : List LogEntry := []
  /-- The threads that have `enqueued_.fetch_add(1)` before them. -/
  enqueuing : List ℕ := []
  enqueued : ℕ := 0
  /-- `batch`, up to what was popped. -/
  batch : List LogEntry := []
  /-- The worker has `consumed_.fetch_add(drained)` before it, and `FormatBatch`. -/
  consuming : Option ℕ := none
  consumed : ℕ := 0
  /-- The records that were formatted and written. -/
  output : List LogEntry := []

namespace LoggedRecords

/-- One step of one thread. -/
inductive Event where
  /-- A thread calls `Submit`. -/
  | submit (t : ℕ) (entry : LogEntry)
  /-- A thread calls `Init`. -/
  | init (t : ℕ) (options : LoggerOptions)
  /-- A thread calls `Shutdown`. -/
  | shutdown (t : ℕ)
  /-- A thread goes on in its function. -/
  | call (t : ℕ)
  /-- `enqueued_.fetch_add(1)`. -/
  | enqueue (t : ℕ)
  /-- The worker goes on. -/
  | work
  /-- `consumed_.fetch_add(drained)`, `FormatBatch` and `WriteBuffer`. -/
  | consume
  deriving DecidableEq, Repr

/-- The records after a thread has gone on in the logger. -/
def called (s : LoggedRecords) (t : ℕ) (logger : AsyncLogger) : LoggedRecords :=
  match s.logger.callers t with
  | .tryPush _ =>
    if s.logger.held < kRingCapacity then
      { s with logger, records := s.records ++ [s.entries t] }
    else { s with logger }
  | .counting _ => { s with logger, enqueuing := t :: s.enqueuing }
  | _ => { s with logger }

/-- The records after the worker has gone on in the logger. -/
def worked (s : LoggedRecords) (logger : AsyncLogger) : LoggedRecords :=
  match s.logger.worker with
  | .popping room _ _ =>
    if room ≠ 0 ∧ s.logger.queue.pop.isSome then
      { s with logger, batch := s.batch ++ s.records[s.logger.queue.served]?.toList }
    else { s with logger }
  | .counting drained _ => { s with logger, consuming := some drained }
  | _ => { s with logger }

/-- One step, `none` if it cannot happen in the state. -/
def step (s : LoggedRecords) : Event → Option LoggedRecords
  | .submit t entry =>
    if t ∈ s.enqueuing then none
    else (s.logger.step (.submit t entry.level)).map fun logger =>
      { s with logger, entries := Function.update s.entries t entry }
  | .init t options =>
    if t ∈ s.enqueuing then none
    else (s.logger.step (.init t options)).map fun logger => { s with logger }
  | .shutdown t =>
    if t ∈ s.enqueuing then none
    else (s.logger.step (.shutdown t)).map fun logger => { s with logger }
  | .call t => (s.logger.call t).map (s.called t)
  | .enqueue t =>
    if t ∈ s.enqueuing then
      some { s with
        enqueuing := s.enqueuing.erase t
        enqueued := (s.enqueued + 1) % 2 ^ 64 }
    else none
  | .work => if s.consuming.isSome then none else s.logger.work.map s.worked
  | .consume =>
    s.consuming.map fun drained =>
      { s with
        consuming := none
        consumed := (s.consumed + drained) % 2 ^ 64
        output := s.output ++ s.batch
        batch := [] }

/-- `Shutdown` and all calls of `Submit` have returned. -/
structure Returned (s : LoggedRecords) : Prop where
  closed : s.logger.acceptingLogs = false
  idle : ∀ t, (s.logger.callers t).isBusy = false
  enqueuing : s.enqueuing = []

/-- **No record is lost**: `enqueued_` counts the records that the ring took, each
was written once and in their order, and `consumed_` counts as many. -/
structure Lossless (s : LoggedRecords) : Prop where
  enqueued : s.enqueued = s.records.length % 2 ^ 64
  output : s.output = s.records
  consumed : s.consumed = s.enqueued

/-- The worker ends its last drain only when the ring is empty, and no `TryPush`
takes a place after that. -/
def keeps (s : LoggedRecords) : Event → Bool
  | .call t =>
    match s.logger.callers t with
    | .tryPush _ => kRingCapacity ≤ s.logger.held || s.logger.worker ≠ .exited
    | _ => true
  | .work =>
    match s.logger.worker with
    | .popping room 0 true =>
      (room ≠ 0 && s.logger.queue.pop.isSome) || s.logger.queue.line.length = 0
    | _ => true
  | _ => true

/-- The worker has gone and has left something in the ring. -/
def Stranded (s : LoggedRecords) : Prop :=
  s.logger.worker = .exited ∧ s.logger.queue.line ≠ []

end LoggedRecords

/-! ### What the threads do to the ring -/

namespace AsyncLogger

variable {s s' : AsyncLogger} {t : ℕ}

/-- A step of a thread that neither takes a place nor fills or counts one. -/
structure Aside (s s' : AsyncLogger) (t : ℕ) (place : LogCaller) : Prop where
  before : (s.callers t).ticket = none
  after : place.ticket = none
  callers : s'.callers = Function.update s.callers t place
  queue : s'.queue = s.queue
  counted : s'.counted = s.counted
  worker : s'.worker = s.worker
  acceptingLogs : s'.acceptingLogs = s.acceptingLogs
  closing : (s.callers t).isClosing = true → place.isClosing = true ∨ s.worker = .exited

/-- **What a thread does in `Submit`, `Init` or `Shutdown`.** -/
theorem call_cases (h : s.call t = some s') :
    (∃ level, s.callers t = .tryPush level ∧ s.held < kRingCapacity ∧
      s' = goto { s with queue := s.queue.reserve level } t (.filling s.queue.ticket)) ∨
    (∃ ticket, s.callers t = .filling ticket ∧
      s' = goto { s with queue := s.queue.fill ticket } t (.counting ticket)) ∨
    (∃ ticket, s.callers t = .counting ticket ∧
      s' = goto { s with
        inflightCount := (s.inflightCount + 1) % 2 ^ 64
        counted := ticket :: s.counted } t .outside) ∨
    ∃ place, Aside s s' t place ∧
      (place.level = none ∨ place.level = (s.callers t).level) ∧
      ∀ level, s.callers t = .tryPush level → ¬ s.held < kRingCapacity := by
  unfold AsyncLogger.call at h
  split at h
  case h_1 => cases h
  case h_6 level hplace =>
    split_ifs at h with hroom
    · exact Or.inl ⟨level, hplace, hroom, (Option.some.inj h).symm⟩
    · obtain rfl := Option.some.inj h
      refine Or.inr (Or.inr (Or.inr ⟨_, ⟨?_, rfl, rfl, rfl, rfl, rfl, rfl, ?_⟩, Or.inl rfl, ?_⟩))
      · rw [hplace]; rfl
      · rw [hplace]; rintro ⟨⟩
      · exact fun _ _ => hroom
  case h_7 ticket hplace => exact Or.inr (Or.inl ⟨ticket, hplace, (Option.some.inj h).symm⟩)
  case h_8 ticket hplace =>
    exact Or.inr (Or.inr (Or.inl ⟨ticket, hplace, (Option.some.inj h).symm⟩))
  case h_15 hplace =>
    split_ifs at h with hexit
    obtain rfl := Option.some.inj h
    refine Or.inr (Or.inr (Or.inr ⟨_, ⟨?_, rfl, rfl, rfl, rfl, rfl, rfl, ?_⟩, Or.inl rfl, ?_⟩))
    · rw [hplace]; rfl
    · exact fun _ => Or.inr hexit
    · rw [hplace]; rintro level ⟨⟩
  -- no place in the ring is at stake
  all_goals
    rename_i hplace
    obtain rfl := Option.some.inj h
    refine Or.inr (Or.inr (Or.inr ⟨_, ⟨?_, ?_, rfl, rfl, rfl, rfl, rfl, ?_⟩, ?_, ?_⟩))
    · rw [hplace]; rfl
    · try split_ifs
      all_goals rfl
    · rw [hplace]
      rintro hclosing
      first | exact Or.inl rfl | cases hclosing
    · rw [hplace]
      try split_ifs
      all_goals first | exact Or.inl rfl | exact Or.inr rfl
    · rw [hplace]; rintro level ⟨⟩

/-- **What the worker does in `WorkerLoop`.** -/
theorem work_cases (h : s.work = some s') :
    (s.worker = .looping ∧
      s' = { s with batchSize := s.maxBatchSize, worker := .popping s.maxBatchSize 0 false }) ∨
    (∃ room drained stopping level queue, s.worker = .popping (room + 1) drained stopping ∧
      s.queue.pop = some (level, queue) ∧
      s' = { s with queue, worker := .popping room (drained + 1) stopping }) ∨
    (∃ room drained stopping, s.worker = .popping room drained stopping ∧
      (room = 0 ∨ s.queue.pop = none) ∧
      s' = { s with
        worker := if drained = 0 then (if stopping then .exited else .checkStop)
          else .counting drained stopping }) ∨
    (∃ drained stopping, s.worker = .counting drained stopping ∧
      s' = { s with
        inflightCount := fetchSub s.inflightCount drained
        wrapped := s.wrapped || s.inflightCount < drained
        worker := if stopping then .popping s.batchSize 0 true else .looping }) ∨
    (s.worker = .checkStop ∧
      s' = { s with
        worker := if s.stopRequested then .popping s.batchSize 0 true else .looping }) := by
  unfold AsyncLogger.work at h
  split at h
  case h_1 hworker =>
    split_ifs at h
    exact Or.inl ⟨hworker, (Option.some.inj h).symm⟩
  case h_2 room drained stopping hworker =>
    split at h
    · rename_i level queue hpop
      cases room with
      | zero => cases hpop
      | succ room =>
        exact Or.inr (Or.inl ⟨room, drained, stopping, level, queue, hworker, hpop,
          (Option.some.inj h).symm⟩)
    · rename_i hpop
      refine Or.inr (Or.inr (Or.inl ⟨room, drained, stopping, hworker, ?_,
        (Option.some.inj h).symm⟩))
      split_ifs at hpop with hroom
      · exact Or.inl hroom
      · exact Or.inr hpop
  case h_3 drained stopping hworker =>
    exact Or.inr (Or.inr (Or.inr (Or.inl ⟨drained, stopping, hworker,
      (Option.some.inj h).symm⟩)))
  case h_4 hworker =>
    exact Or.inr (Or.inr (Or.inr (Or.inr ⟨hworker, (Option.some.inj h).symm⟩)))
  case h_5 => cases h

end AsyncLogger

namespace LoggedRecords

variable {s s' : LoggedRecords} {t : ℕ} {logger : AsyncLogger}

/-! ### The invariant -/

/-- What the counters and the output say about the ring. -/
structure Tracked (s : LoggedRecords) : Prop where
  ticketed : s.logger.Ticketed
  covered : ∀ k < s.logger.queue.ticket,
    k ∈ s.logger.counted ∨ ∃ t, (s.logger.callers t).ticket = some k
  entries : ∀ t level, (s.logger.callers t).level = some level → (s.entries t).level = level
  records : s.records.length = s.logger.queue.ticket
  levels : (s.records.drop s.logger.queue.served).map LogEntry.level = s.logger.queue.values
  output : s.output ++ s.batch = s.records.take s.logger.queue.served
  batch : s.batch.length = s.consuming.getD s.logger.worker.taken
  taken : s.consuming ≠ none → s.logger.worker.taken = 0
  enqueued : (s.enqueued + s.enqueuing.length) % 2 ^ 64 = s.logger.counted.length % 2 ^ 64
  enqueued_lt : s.enqueued < 2 ^ 64
  consumed : s.consumed = s.output.length % 2 ^ 64
  closing : s.logger.acceptingLogs = false →
    s.logger.worker = .exited ∨ ∃ t, (s.logger.callers t).isClosing = true
  exited : s.logger.worker = .exited → s.consuming = none

namespace Tracked

theorem init : Tracked {} where
  ticketed := .init
  covered := fun k hk => absurd hk (Nat.not_lt_zero k)
  entries := fun t level h => by cases h
  records := rfl
  levels := rfl
  output := rfl
  batch := rfl
  taken := fun h => absurd rfl h
  enqueued := rfl
  enqueued_lt := by decide
  consumed := rfl
  closing := fun h => by cases h
  exited := fun h => by cases h

/-- A thread that has a ticket keeps it when another goes on. -/
theorem covered_goto (h : s.Tracked) {place : LogCaller}
    (hbefore : (s.logger.callers t).ticket = none) :
    ∀ k < s.logger.queue.ticket, k ∈ s.logger.counted ∨
      ∃ t', (Function.update s.logger.callers t place t').ticket = some k := by
  intro k hk
  rcases h.covered k hk with hcounted | ⟨t', ht'⟩
  · exact Or.inl hcounted
  · refine Or.inr ⟨t', ?_⟩
    have hne : t' ≠ t := by
      rintro rfl
      rw [hbefore] at ht'
      cases ht'
    rw [Function.update_of_ne hne, ht']

/-- A thread goes to a place with the level of its entry, or with none. -/
theorem entries_goto (h : s.Tracked) {place : LogCaller}
    (hlevel : ∀ level, place.level = some level → (s.entries t).level = level) :
    ∀ t' level, (Function.update s.logger.callers t place t').level = some level →
      (s.entries t').level = level := by
  intro t' level ht'
  by_cases hne : t' = t
  · subst hne
    rw [Function.update_self] at ht'
    exact hlevel level ht'
  · rw [Function.update_of_ne hne] at ht'
    exact h.entries t' level ht'

/-- Nobody but a thread in `Shutdown` answers for the worker. -/
theorem closing_goto (h : s.Tracked) {place : LogCaller}
    (hplace : (s.logger.callers t).isClosing = true →
      place.isClosing = true ∨ s.logger.worker = .exited)
    (hclosed : s.logger.acceptingLogs = false) :
    s.logger.worker = .exited ∨
      ∃ t', (Function.update s.logger.callers t place t').isClosing = true := by
  rcases h.closing hclosed with hexit | ⟨t', ht'⟩
  · exact Or.inl hexit
  · by_cases hne : t' = t
    · subst hne
      rcases hplace ht' with hstill | hexit
      · exact Or.inr ⟨t', by rw [Function.update_self, hstill]⟩
      · exact Or.inl hexit
    · exact Or.inr ⟨t', by rw [Function.update_of_ne hne, ht']⟩

/-- A step aside of the ring. -/
theorem aside (h : s.Tracked) {place : LogCaller} (ha : s.logger.Aside logger t place)
    (hlevel : ∀ level, place.level = some level → (s.entries t).level = level) :
    Tracked { s with logger } where
  ticketed := by
    have hmoved : AsyncLogger.Ticketed (s.logger.goto t place) :=
      h.ticketed.goto (Or.inl ha.after)
    exact hmoved.of_eq ha.counted ha.callers (by rw [ha.queue]; rfl)
  covered := by
    show ∀ k < logger.queue.ticket, k ∈ logger.counted ∨ ∃ t, (logger.callers t).ticket = some k
    rw [ha.queue, ha.counted, ha.callers]
    exact h.covered_goto ha.before
  entries := by
    show ∀ t level, (logger.callers t).level = some level → (s.entries t).level = level
    rw [ha.callers]
    exact h.entries_goto hlevel
  records := by
    show s.records.length = logger.queue.ticket
    rw [ha.queue, h.records]
  levels := by
    show (s.records.drop logger.queue.served).map LogEntry.level = logger.queue.values
    rw [ha.queue, h.levels]
  output := by
    show s.output ++ s.batch = s.records.take logger.queue.served
    rw [ha.queue, h.output]
  batch := by
    show s.batch.length = s.consuming.getD logger.worker.taken
    rw [ha.worker, h.batch]
  taken := by
    show s.consuming ≠ none → logger.worker.taken = 0
    rw [ha.worker]
    exact h.taken
  enqueued := by
    show (s.enqueued + s.enqueuing.length) % 2 ^ 64 = logger.counted.length % 2 ^ 64
    rw [ha.counted, h.enqueued]
  enqueued_lt := h.enqueued_lt
  consumed := h.consumed
  closing := by
    show logger.acceptingLogs = false →
      logger.worker = .exited ∨ ∃ t, (logger.callers t).isClosing = true
    rw [ha.acceptingLogs, ha.worker, ha.callers]
    exact h.closing_goto ha.closing
  exited := by
    show logger.worker = .exited → s.consuming = none
    rw [ha.worker]
    exact h.exited

/-- A thread pushes its record. -/
theorem push (h : s.Tracked) {level : LogLevel} (hplace : s.logger.callers t = .tryPush level) :
    Tracked { s with
      logger := AsyncLogger.goto { s.logger with queue := s.logger.queue.reserve level } t
        (.filling s.logger.queue.ticket)
      records := s.records ++ [s.entries t] } where
  ticketed := h.ticketed.reserve level
  covered := by
    show ∀ k < (s.logger.queue.reserve level).ticket, k ∈ s.logger.counted ∨
      ∃ t', (Function.update s.logger.callers t (.filling s.logger.queue.ticket) t').ticket =
        some k
    intro k hk
    rw [TicketQueue.ticket_reserve] at hk
    rcases Nat.lt_succ_iff_lt_or_eq.1 hk with hlt | rfl
    · exact h.covered_goto (by rw [hplace]; rfl) k hlt
    · exact Or.inr ⟨t, by rw [Function.update_self]; rfl⟩
  entries := h.entries_goto fun level hl => by cases hl
  records := by
    show (s.records ++ [s.entries t]).length = (s.logger.queue.reserve level).ticket
    rw [List.length_append, List.length_singleton, TicketQueue.ticket_reserve, h.records]
  levels := by
    show ((s.records ++ [s.entries t]).drop s.logger.queue.served).map LogEntry.level =
      (s.logger.queue.reserve level).values
    have hle : s.logger.queue.served ≤ s.records.length := by
      rw [h.records]
      exact Nat.le_add_right _ _
    rw [List.drop_append_of_le_length hle, List.map_append, h.levels, TicketQueue.values_reserve,
      List.map_singleton, h.entries t level (by rw [hplace]; rfl)]
  output := by
    show s.output ++ s.batch = (s.records ++ [s.entries t]).take s.logger.queue.served
    have hle : s.logger.queue.served ≤ s.records.length := by
      rw [h.records]
      exact Nat.le_add_right _ _
    rw [List.take_append_of_le_length hle, h.output]
  batch := h.batch
  taken := h.taken
  enqueued := h.enqueued
  enqueued_lt := h.enqueued_lt
  consumed := h.consumed
  closing := h.closing_goto (by rw [hplace]; rintro ⟨⟩)
  exited := h.exited

/-- A thread fills its place. -/
theorem fill (h : s.Tracked) {ticket : ℕ} (hplace : s.logger.callers t = .filling ticket) :
    Tracked { s with
      logger := AsyncLogger.goto { s.logger with queue := s.logger.queue.fill ticket } t
        (.counting ticket) } where
  ticketed := by
    have hmoved : AsyncLogger.Ticketed (s.logger.goto t (.counting ticket)) :=
      h.ticketed.goto (Or.inr (by rw [hplace]; rfl))
    exact hmoved.of_eq rfl rfl (TicketQueue.ticket_fill ..)
  covered := by
    show ∀ k < (s.logger.queue.fill ticket).ticket, k ∈ s.logger.counted ∨
      ∃ t', (Function.update s.logger.callers t (.counting ticket) t').ticket = some k
    intro k hk
    rw [TicketQueue.ticket_fill] at hk
    rcases h.covered k hk with hcounted | ⟨t', ht'⟩
    · exact Or.inl hcounted
    · refine Or.inr ⟨t', ?_⟩
      by_cases hne : t' = t
      · subst hne
        rw [hplace] at ht'
        rw [Function.update_self]
        exact ht'
      · rw [Function.update_of_ne hne, ht']
  entries := h.entries_goto fun level hl => by cases hl
  records := by
    show s.records.length = (s.logger.queue.fill ticket).ticket
    rw [TicketQueue.ticket_fill, h.records]
  levels := by
    show (s.records.drop s.logger.queue.served).map LogEntry.level =
      (s.logger.queue.fill ticket).values
    rw [TicketQueue.values_fill, h.levels]
  output := h.output
  batch := h.batch
  taken := h.taken
  enqueued := h.enqueued
  enqueued_lt := h.enqueued_lt
  consumed := h.consumed
  closing := h.closing_goto (by rw [hplace]; rintro ⟨⟩)
  exited := h.exited

/-- A thread adds its record to `inflight_count_`; `enqueued_` comes next. -/
theorem count (h : s.Tracked) {ticket n : ℕ} (hplace : s.logger.callers t = .counting ticket) :
    Tracked { s with
      logger := AsyncLogger.goto { s.logger with
        inflightCount := n
        counted := ticket :: s.logger.counted } t .outside
      enqueuing := t :: s.enqueuing } where
  ticketed := h.ticketed.count hplace
  covered := by
    show ∀ k < s.logger.queue.ticket, k ∈ ticket :: s.logger.counted ∨
      ∃ t', (Function.update s.logger.callers t .outside t').ticket = some k
    intro k hk
    rcases h.covered k hk with hcounted | ⟨t', ht'⟩
    · exact Or.inl (List.mem_cons_of_mem _ hcounted)
    · by_cases hne : t' = t
      · subst hne
        rw [hplace] at ht'
        obtain rfl := Option.some.inj ht'
        exact Or.inl (List.mem_cons_self ..)
      · exact Or.inr ⟨t', by rw [Function.update_of_ne hne, ht']⟩
  entries := h.entries_goto fun level hl => by cases hl
  records := h.records
  levels := h.levels
  output := h.output
  batch := h.batch
  taken := h.taken
  enqueued := by
    have henqueued := h.enqueued
    show (s.enqueued + (t :: s.enqueuing).length) % 2 ^ 64 =
      (ticket :: s.logger.counted).length % 2 ^ 64
    rw [List.length_cons, List.length_cons]
    omega
  enqueued_lt := h.enqueued_lt
  consumed := h.consumed
  closing := h.closing_goto (by rw [hplace]; rintro ⟨⟩)
  exited := h.exited

/-- **A thread goes on.** -/
theorem called (h : s.Tracked) (hs : s.logger.call t = some logger) :
    Tracked (s.called t logger) := by
  unfold LoggedRecords.called
  rcases AsyncLogger.call_cases hs with ⟨level, hplace, hroom, rfl⟩ | ⟨ticket, hplace, rfl⟩ |
    ⟨ticket, hplace, rfl⟩ | ⟨place, ha, hlevel, hfull⟩
  · simp only [hplace, if_pos hroom]
    exact h.push hplace
  · simp only [hplace]
    exact h.fill hplace
  · simp only [hplace]
    exact h.count hplace
  · have hkept : Tracked { s with logger } := by
      refine h.aside ha fun level hl => ?_
      rcases hlevel with hnone | hsame
      · rw [hnone] at hl
        cases hl
      · exact h.entries t level (hsame ▸ hl)
    have hbefore := ha.before
    split
    · rename_i level hplace
      rw [if_neg (hfull level hplace)]
      exact hkept
    · rename_i ticket hplace
      rw [hplace] at hbefore
      cases hbefore
    · exact hkept

/-- The worker goes on, and neither takes nor subtracts. -/
theorem worker (h : s.Tracked) {place : LogWorker} {batchSize : ℕ}
    (htaken : place.taken = s.logger.worker.taken) (hnotExited : s.logger.worker ≠ .exited)
    (hconsuming : s.consuming = none) :
    Tracked { s with logger := { s.logger with batchSize, worker := place } } where
  ticketed := h.ticketed.of_eq rfl rfl rfl
  covered := h.covered
  entries := h.entries
  records := h.records
  levels := h.levels
  output := h.output
  batch := by
    show s.batch.length = s.consuming.getD place.taken
    rw [htaken, h.batch]
  taken := fun hc => absurd hconsuming hc
  enqueued := h.enqueued
  enqueued_lt := h.enqueued_lt
  consumed := h.consumed
  closing := fun hclosed => Or.inr ((h.closing hclosed).resolve_left hnotExited)
  exited := fun _ => hconsuming

/-- A record leaves the ring for the batch. -/
theorem pop (h : s.Tracked) {room drained : ℕ} {stopping : Bool} {level : LogLevel}
    {queue : TicketQueue LogLevel}
    (hworker : s.logger.worker = .popping (room + 1) drained stopping)
    (hpop : s.logger.queue.pop = some (level, queue)) (hconsuming : s.consuming = none) :
    Tracked { s with
      logger := { s.logger with queue, worker := .popping room (drained + 1) stopping }
      batch := s.batch ++ s.records[s.logger.queue.served]?.toList } := by
  obtain ⟨hserved, hlength⟩ := TicketQueue.served_of_pop hpop
  have hticket : queue.ticket = s.logger.queue.ticket := by
    unfold TicketQueue.ticket
    omega
  have hlt : s.logger.queue.served < s.records.length := by
    rw [h.records]
    unfold TicketQueue.ticket
    omega
  refine ⟨h.ticketed.of_eq rfl rfl hticket, ?_, h.entries, ?_, ?_, ?_, ?_, ?_, h.enqueued,
    h.enqueued_lt, h.consumed, ?_, ?_⟩
  · show ∀ k < queue.ticket, k ∈ s.logger.counted ∨ ∃ t, (s.logger.callers t).ticket = some k
    rw [hticket]
    exact h.covered
  · show s.records.length = queue.ticket
    rw [hticket, h.records]
  · show (s.records.drop queue.served).map LogEntry.level = queue.values
    have hlevels := h.levels
    rw [List.drop_eq_getElem_cons hlt, TicketQueue.values_of_pop hpop, List.map_cons] at hlevels
    rw [hserved]
    exact (List.cons.inj hlevels).2
  · show s.output ++ (s.batch ++ s.records[s.logger.queue.served]?.toList) =
      s.records.take queue.served
    rw [← List.append_assoc, h.output, hserved, List.take_add_one]
  · show (s.batch ++ s.records[s.logger.queue.served]?.toList).length =
      s.consuming.getD (drained + 1)
    have hbatch := h.batch
    rw [hconsuming, hworker] at hbatch
    rw [hconsuming, List.getElem?_eq_getElem hlt, List.length_append, hbatch]
    rfl
  · exact fun hc => absurd hconsuming hc
  · intro hclosed
    refine Or.inr ((h.closing hclosed).resolve_left ?_)
    rw [hworker]
    rintro ⟨⟩
  · exact fun _ => hconsuming

/-- The worker subtracts what it has taken; `consumed_` comes next. -/
theorem subtract (h : s.Tracked) {drained n : ℕ} {stopping wrapped : Bool}
    (hworker : s.logger.worker = .counting drained stopping) (hconsuming : s.consuming = none) :
    Tracked { s with
      logger := { s.logger with
        inflightCount := n
        wrapped
        worker := if stopping then .popping s.logger.batchSize 0 true else .looping }
      consuming := some drained } where
  ticketed := h.ticketed.of_eq rfl rfl rfl
  covered := h.covered
  entries := h.entries
  records := h.records
  levels := h.levels
  output := h.output
  batch := by
    have hbatch := h.batch
    rw [hconsuming, hworker] at hbatch
    exact hbatch
  taken := fun _ => by
    show (if stopping then LogWorker.popping s.logger.batchSize 0 true else .looping).taken = 0
    split_ifs <;> rfl
  enqueued := h.enqueued
  enqueued_lt := h.enqueued_lt
  consumed := h.consumed
  closing := by
    intro hclosed
    refine Or.inr ((h.closing hclosed).resolve_left ?_)
    rw [hworker]
    rintro ⟨⟩
  exited := by
    show (if stopping then LogWorker.popping s.logger.batchSize 0 true else .looping) = .exited →
      some drained = none
    split_ifs <;> rintro ⟨⟩

/-- **The worker goes on.** -/
theorem worked (h : s.Tracked) (hconsuming : s.consuming = none)
    (hs : s.logger.work = some logger) : Tracked (s.worked logger) := by
  unfold LoggedRecords.worked
  rcases AsyncLogger.work_cases hs with ⟨hworker, rfl⟩ |
    ⟨room, drained, stopping, level, queue, hworker, hpop, rfl⟩ |
    ⟨room, drained, stopping, hworker, hempty, rfl⟩ | ⟨drained, stopping, hworker, rfl⟩ |
    ⟨hworker, rfl⟩
  · simp only [hworker]
    exact h.worker (by rw [hworker]; rfl) (by rw [hworker]; rintro ⟨⟩) hconsuming
  · simp only [hworker, hpop, Option.isSome_some, Nat.add_one_ne_zero, ne_eq, not_false_eq_true,
      and_self, if_true]
    exact h.pop hworker hpop hconsuming
  · have hnone : ¬ (room ≠ 0 ∧ s.logger.queue.pop.isSome = true) := by
      rintro ⟨hroom, hpop⟩
      rcases hempty with hzero | hnone
      · exact hroom hzero
      · rw [hnone] at hpop
        cases hpop
    simp only [hworker, if_neg hnone]
    refine h.worker ?_ (by rw [hworker]; rintro ⟨⟩) hconsuming
    rw [hworker]
    split_ifs with hzero
    · exact hzero.symm
    · exact hzero.symm
    · rfl
  · simp only [hworker]
    exact h.subtract hworker hconsuming
  · simp only [hworker]
    refine h.worker ?_ (by rw [hworker]; rintro ⟨⟩) hconsuming
    rw [hworker]
    split_ifs <;> rfl

/-- A thread begins a call. -/
theorem begin (h : s.Tracked) {place : LogCaller} (hplace : s.logger.callers t = .outside)
    (hticket : place.ticket = none)
    (hlevel : ∀ level, place.level = some level → (s.entries t).level = level) :
    Tracked { s with logger := s.logger.goto t place } := by
  refine h.aside ⟨?_, hticket, rfl, rfl, rfl, rfl, rfl, ?_⟩ hlevel
  · rw [hplace]; rfl
  · rw [hplace]; rintro ⟨⟩

/-- A thread calls `Submit`. -/
theorem submit (h : s.Tracked) (entry : LogEntry) (hplace : s.logger.callers t = .outside) :
    Tracked { s with
      logger := s.logger.goto t (.checkAccepting entry.level)
      entries := Function.update s.entries t entry } := by
  have hentries : Tracked { s with entries := Function.update s.entries t entry } := by
    refine ⟨h.ticketed, h.covered, ?_, h.records, h.levels, h.output, h.batch, h.taken, h.enqueued,
      h.enqueued_lt, h.consumed, h.closing, h.exited⟩
    intro t' level ht'
    show (Function.update s.entries t entry t').level = level
    by_cases hne : t' = t
    · subst hne
      rw [hplace] at ht'
      cases ht'
    · rw [Function.update_of_ne hne]
      exact h.entries t' level ht'
  refine hentries.begin hplace rfl fun level hl => ?_
  obtain rfl := Option.some.inj hl
  show (Function.update s.entries t entry t).level = entry.level
  rw [Function.update_self]

/-- A thread stops the records, and answers for the worker from then on. -/
theorem close (h : s.Tracked) (hplace : s.logger.callers t = .outside) :
    Tracked { s with
      logger := AsyncLogger.goto { s.logger with acceptingLogs := false } t .stopping } := by
  have hmoved : Tracked { s with logger := s.logger.goto t .stopping } :=
    h.begin hplace rfl fun level hl => by cases hl
  refine ⟨hmoved.ticketed.of_eq rfl rfl rfl, hmoved.covered, hmoved.entries, hmoved.records,
    hmoved.levels, hmoved.output, hmoved.batch, hmoved.taken, hmoved.enqueued, hmoved.enqueued_lt,
    hmoved.consumed, fun _ => Or.inr ⟨t, ?_⟩, hmoved.exited⟩
  show (Function.update s.logger.callers t LogCaller.stopping t).isClosing = true
  rw [Function.update_self]
  rfl

/-- `enqueued_.fetch_add(1)`. -/
theorem enqueue (h : s.Tracked) (ht : t ∈ s.enqueuing) :
    Tracked { s with
      enqueuing := s.enqueuing.erase t
      enqueued := (s.enqueued + 1) % 2 ^ 64 } := by
  refine ⟨h.ticketed, h.covered, h.entries, h.records, h.levels, h.output, h.batch, h.taken, ?_,
    Nat.mod_lt _ (by decide), h.consumed, h.closing, h.exited⟩
  have henqueued := h.enqueued
  have hpos := List.length_pos_of_mem ht
  show ((s.enqueued + 1) % 2 ^ 64 + (s.enqueuing.erase t).length) % 2 ^ 64 =
    s.logger.counted.length % 2 ^ 64
  rw [List.length_erase_of_mem ht]
  omega

/-- `consumed_.fetch_add(drained)`, and the batch is written. -/
theorem consume (h : s.Tracked) {drained : ℕ} (hconsuming : s.consuming = some drained) :
    Tracked { s with
      consuming := none
      consumed := (s.consumed + drained) % 2 ^ 64
      output := s.output ++ s.batch
      batch := [] } := by
  refine ⟨h.ticketed, h.covered, h.entries, h.records, h.levels, ?_, ?_, fun hc => absurd rfl hc,
    h.enqueued, h.enqueued_lt, ?_, h.closing, fun _ => rfl⟩
  · show s.output ++ s.batch ++ [] = _
    rw [List.append_nil, h.output]
  · show 0 = s.logger.worker.taken
    exact (h.taken (by rw [hconsuming]; rintro ⟨⟩)).symm
  · have hbatch := h.batch
    have hconsumed := h.consumed
    rw [hconsuming, Option.getD_some] at hbatch
    show (s.consumed + drained) % 2 ^ 64 = (s.output ++ s.batch).length % 2 ^ 64
    rw [List.length_append, hbatch]
    omega

/-- **Every step keeps track of the records.** -/
theorem step {e : Event} (h : s.Tracked) (hs : s.step e = some s') : s'.Tracked := by
  cases e with
  | submit t entry =>
    simp only [LoggedRecords.step] at hs
    split_ifs at hs
    obtain ⟨logger, hlogger, rfl⟩ := Option.map_eq_some_iff.1 hs
    simp only [AsyncLogger.step] at hlogger
    split_ifs at hlogger with hplace
    obtain rfl := Option.some.inj hlogger
    exact h.submit entry hplace
  | init t options =>
    simp only [LoggedRecords.step] at hs
    split_ifs at hs
    obtain ⟨logger, hlogger, rfl⟩ := Option.map_eq_some_iff.1 hs
    simp only [AsyncLogger.step] at hlogger
    split_ifs at hlogger with hplace
    obtain rfl := Option.some.inj hlogger
    exact h.begin hplace rfl fun level hl => by cases hl
  | shutdown t =>
    simp only [LoggedRecords.step] at hs
    split_ifs at hs
    obtain ⟨logger, hlogger, rfl⟩ := Option.map_eq_some_iff.1 hs
    simp only [AsyncLogger.step] at hlogger
    split_ifs at hlogger with hplace
    · obtain rfl := Option.some.inj hlogger
      exact h.close hplace
    · obtain rfl := Option.some.inj hlogger
      exact h
  | call t =>
    obtain ⟨logger, hlogger, rfl⟩ := Option.map_eq_some_iff.1 hs
    exact h.called hlogger
  | enqueue t =>
    simp only [LoggedRecords.step] at hs
    split_ifs at hs with ht
    obtain rfl := Option.some.inj hs
    exact h.enqueue ht
  | work =>
    simp only [LoggedRecords.step] at hs
    split_ifs at hs with hconsuming
    obtain ⟨logger, hlogger, rfl⟩ := Option.map_eq_some_iff.1 hs
    exact h.worked (Option.not_isSome_iff_eq_none.1 hconsuming) hlogger
  | consume =>
    obtain ⟨drained, hconsuming, rfl⟩ := Option.map_eq_some_iff.1 hs
    exact h.consume hconsuming

end Tracked

/-! ### What is left in the ring -/

theorem called_logger : (s.called t logger).logger = logger := by
  unfold called
  split
  · split_ifs <;> rfl
  · rfl
  · rfl

theorem worked_logger : (s.worked logger).logger = logger := by
  unfold worked
  split
  · split_ifs <;> rfl
  · rfl
  · rfl

/-- What a step is for the logger. -/
theorem logger_of_step {e : Event} (hs : s.step e = some s') :
    s'.logger.worker = s.logger.worker ∧ s'.logger.queue = s.logger.queue ∨
      (∃ t, e = .call t ∧ s.logger.call t = some s'.logger) ∨
      e = .work ∧ s.logger.work = some s'.logger := by
  cases e with
  | submit t entry =>
    simp only [step] at hs
    split_ifs at hs
    obtain ⟨logger, hlogger, rfl⟩ := Option.map_eq_some_iff.1 hs
    simp only [AsyncLogger.step] at hlogger
    split_ifs at hlogger
    obtain rfl := Option.some.inj hlogger
    exact Or.inl ⟨rfl, rfl⟩
  | init t options =>
    simp only [step] at hs
    split_ifs at hs
    obtain ⟨logger, hlogger, rfl⟩ := Option.map_eq_some_iff.1 hs
    simp only [AsyncLogger.step] at hlogger
    split_ifs at hlogger
    obtain rfl := Option.some.inj hlogger
    exact Or.inl ⟨rfl, rfl⟩
  | shutdown t =>
    simp only [step] at hs
    split_ifs at hs
    obtain ⟨logger, hlogger, rfl⟩ := Option.map_eq_some_iff.1 hs
    simp only [AsyncLogger.step] at hlogger
    split_ifs at hlogger
    all_goals
      obtain rfl := Option.some.inj hlogger
      exact Or.inl ⟨rfl, rfl⟩
  | call t =>
    obtain ⟨logger, hlogger, rfl⟩ := Option.map_eq_some_iff.1 hs
    exact Or.inr (Or.inl ⟨t, rfl, called_logger ▸ hlogger⟩)
  | enqueue t =>
    simp only [step] at hs
    split_ifs at hs
    obtain rfl := Option.some.inj hs
    exact Or.inl ⟨rfl, rfl⟩
  | work =>
    simp only [step] at hs
    split_ifs at hs
    obtain ⟨logger, hlogger, rfl⟩ := Option.map_eq_some_iff.1 hs
    exact Or.inr (Or.inr ⟨rfl, worked_logger ▸ hlogger⟩)
  | consume =>
    obtain ⟨drained, -, rfl⟩ := Option.map_eq_some_iff.1 hs
    exact Or.inl ⟨rfl, rfl⟩

/-- Nobody takes anything out of the ring once the worker has gone. -/
theorem Stranded.step {e : Event} (h : s.Stranded) (hs : s.step e = some s') : s'.Stranded := by
  obtain ⟨hworker, hline⟩ := h
  rcases logger_of_step hs with ⟨hw, hq⟩ | ⟨t, -, hcall⟩ | ⟨-, hwork⟩
  · exact ⟨hw.trans hworker, hq ▸ hline⟩
  · rcases AsyncLogger.call_cases hcall with ⟨level, -, -, heq⟩ | ⟨ticket, -, heq⟩ |
      ⟨ticket, -, heq⟩ | ⟨place, ha, -⟩
    · refine ⟨heq ▸ hworker, ?_⟩
      rw [heq]
      exact List.append_ne_nil_of_right_ne_nil _ (List.cons_ne_nil _ _)
    · refine ⟨heq ▸ hworker, fun hnil => hline ?_⟩
      rw [heq] at hnil
      have hlength := congrArg List.length hnil
      refine List.eq_nil_of_length_eq_zero ?_
      rwa [show (AsyncLogger.goto { s.logger with queue := s.logger.queue.fill ticket } t
        (.counting ticket)).queue.line.length = s.logger.queue.line.length from
          List.length_modify ..] at hlength
    · exact ⟨heq ▸ hworker, by rw [heq]; exact hline⟩
    · exact ⟨ha.worker.trans hworker, ha.queue ▸ hline⟩
  · rcases AsyncLogger.work_cases hwork with
      ⟨hw, -⟩ | ⟨room, drained, stopping, level, queue, hw, -⟩ |
      ⟨room, drained, stopping, hw, -⟩ | ⟨drained, stopping, hw, -⟩ | ⟨hw, -⟩
    all_goals
      rw [hworker] at hw
      cases hw

/-- **The steps that `keeps` allows strand nothing.** -/
theorem not_stranded_of_keeps {e : Event} (h : ¬ s.Stranded) (hkeeps : s.keeps e = true)
    (hs : s.step e = some s') : ¬ s'.Stranded := by
  rintro ⟨hworker, hline⟩
  rcases logger_of_step hs with ⟨hw, hq⟩ | ⟨t, rfl, hcall⟩ | ⟨rfl, hwork⟩
  · exact h ⟨hw ▸ hworker, hq ▸ hline⟩
  · rcases AsyncLogger.call_cases hcall with ⟨level, hplace, hroom, heq⟩ | ⟨ticket, -, heq⟩ |
      ⟨ticket, -, heq⟩ | ⟨place, ha, -⟩
    · simp only [keeps, hplace, Bool.or_eq_true, decide_eq_true_eq] at hkeeps
      rcases hkeeps with hfull | hrunning
      · omega
      · exact hrunning (by rw [heq] at hworker; exact hworker)
    · rw [heq] at hworker hline
      refine h ⟨hworker, fun hnil => hline ?_⟩
      show s.logger.queue.line.modify _ _ = []
      rw [hnil]
      exact List.modify_nil ..
    · rw [heq] at hworker hline
      exact h ⟨hworker, hline⟩
    · exact h ⟨ha.worker ▸ hworker, ha.queue ▸ hline⟩
  · rcases AsyncLogger.work_cases hwork with ⟨-, heq⟩ |
      ⟨room, drained, stopping, level, queue, -, -, heq⟩ |
      ⟨room, drained, stopping, hw, hempty, heq⟩ | ⟨drained, stopping, -, heq⟩ | ⟨-, heq⟩
    · rw [heq] at hworker
      cases hworker
    · rw [heq] at hworker
      cases hworker
    · rw [heq] at hworker hline
      have hlast : drained = 0 ∧ stopping = true := by
        revert hworker
        show (if drained = 0 then (if stopping then LogWorker.exited else .checkStop)
          else .counting drained stopping) = .exited → _
        split_ifs with hzero hstop
        · exact fun _ => ⟨hzero, hstop⟩
        · rintro ⟨⟩
        · rintro ⟨⟩
      obtain ⟨rfl, rfl⟩ := hlast
      simp only [keeps, hw, Bool.or_eq_true, Bool.and_eq_true, decide_eq_true_eq] at hkeeps
      rcases hkeeps with ⟨hroom, hpop⟩ | hnil
      · rcases hempty with hzero | hnone
        · exact hroom hzero
        · rw [hnone] at hpop
          cases hpop
      · exact hline (List.eq_nil_of_length_eq_zero hnil)
    · revert hworker
      rw [heq]
      show (if stopping then LogWorker.popping _ 0 true else .looping) = .exited → False
      split_ifs <;> rintro ⟨⟩
    · revert hworker
      rw [heq]
      show (if s.logger.stopRequested then LogWorker.popping _ 0 true else .looping) = .exited →
        False
      split_ifs <;> rintro ⟨⟩

/-- Any other step that happens strands a record. -/
theorem stranded_of_not_keeps {e : Event} (hkeeps : ¬ s.keeps e = true)
    (hs : s.step e = some s') : s'.Stranded := by
  cases e with
  | call t =>
    obtain ⟨logger, hcall, rfl⟩ := Option.map_eq_some_iff.1 hs
    cases hplace : s.logger.callers t with
    | tryPush level =>
      simp only [keeps, hplace, Bool.or_eq_true, decide_eq_true_eq, not_or, not_le, ne_eq,
        not_not] at hkeeps
      obtain ⟨hroom, hworker⟩ := hkeeps
      simp only [AsyncLogger.call, hplace, if_pos hroom] at hcall
      obtain rfl := Option.some.inj hcall
      refine ⟨?_, ?_⟩
      · rw [called_logger]
        exact hworker
      · rw [called_logger]
        exact List.append_ne_nil_of_right_ne_nil _ (List.cons_ne_nil _ _)
    | _ => exact absurd (by simp [keeps, hplace]) hkeeps
  | work =>
    simp only [step] at hs
    split_ifs at hs
    obtain ⟨logger, hwork, rfl⟩ := Option.map_eq_some_iff.1 hs
    simp only [keeps] at hkeeps
    split at hkeeps
    · rename_i room hworker
      simp only [Bool.or_eq_true, Bool.and_eq_true, decide_eq_true_eq, not_or] at hkeeps
      obtain ⟨hempty, hline⟩ := hkeeps
      have hnone : (if room = 0 then none else s.logger.queue.pop) = none := by
        split_ifs with hzero
        · rfl
        · exact Option.not_isSome_iff_eq_none.1 fun hpop => hempty ⟨hzero, hpop⟩
      simp only [AsyncLogger.work, hworker, hnone] at hwork
      obtain rfl := Option.some.inj hwork
      refine ⟨?_, ?_⟩
      · rw [worked_logger]
        rfl
      · rw [worked_logger]
        exact fun hnil => hline (congrArg List.length hnil)
    · exact absurd rfl hkeeps
  | submit t entry => exact absurd rfl hkeeps
  | init t options => exact absurd rfl hkeeps
  | shutdown t => exact absurd rfl hkeeps
  | enqueue t => exact absurd rfl hkeeps
  | consume => exact absurd rfl hkeeps

/-! ### After the shutdown -/

theorem ticket_of_not_isBusy {place : LogCaller} (h : place.isBusy = false) :
    place.ticket = none ∧ place.isClosing = false := by
  cases place <;> first | exact ⟨rfl, rfl⟩ | cases h

/-- The worker has gone, and every record that the ring took has been counted. -/
theorem Tracked.returned (h : s.Tracked) (hr : s.Returned) :
    s.logger.worker = .exited ∧ s.logger.counted.length = s.records.length := by
  constructor
  · refine (h.closing hr.closed).resolve_right ?_
    rintro ⟨t, ht⟩
    rw [(ticket_of_not_isBusy (hr.idle t)).2] at ht
    cases ht
  · have hsub : List.range s.logger.queue.ticket ⊆ s.logger.counted := by
      intro k hk
      refine (h.covered k (List.mem_range.1 hk)).resolve_right ?_
      rintro ⟨t, ht⟩
      rw [(ticket_of_not_isBusy (hr.idle t)).1] at ht
      cases ht
    have hge := (List.nodup_range.subperm hsub).length_le
    have hle := h.ticketed.length_le
    rw [List.length_range] at hge
    rw [h.records]
    omega

/-- What was counted and not written is in the ring. -/
theorem Tracked.lossless_iff_not_stranded (h : s.Tracked) (hr : s.Returned) :
    s.Lossless ↔ ¬ s.Stranded := by
  obtain ⟨hworker, hcounted⟩ := h.returned hr
  have hbatch : s.batch = [] := by
    have := h.batch
    rw [h.exited hworker, hworker] at this
    exact List.eq_nil_of_length_eq_zero this
  have houtput := h.output
  rw [hbatch, List.append_nil] at houtput
  have hrecords : s.records.length = s.logger.queue.served + s.logger.queue.line.length := h.records
  constructor
  · rintro hl ⟨-, hline⟩
    have hlength := congrArg List.length (houtput.symm.trans hl.output)
    have hpos := List.length_pos_of_ne_nil hline
    rw [List.length_take] at hlength
    omega
  · intro hs
    have hline : s.logger.queue.line = [] := by
      by_contra hline
      exact hs ⟨hworker, hline⟩
    rw [hline, List.length_nil, Nat.add_zero] at hrecords
    have hall : s.output = s.records := by
      rw [houtput, ← hrecords, List.take_length]
    have henqueued : s.enqueued = s.records.length % 2 ^ 64 := by
      have hmod := h.enqueued
      rw [hr.enqueuing, List.length_nil, Nat.add_zero, hcounted,
        Nat.mod_eq_of_lt h.enqueued_lt] at hmod
      exact hmod
    exact ⟨henqueued, hall, by rw [h.consumed, hall, henqueued]⟩

/-- **When no record is lost.**  Once `Shutdown` and all calls of `Submit` have
returned, every record that `enqueued_` counts was written once and in the order
of the ring, and `consumed_` equals `enqueued_`, if and only if every step of the
run meets `keeps`. -/
theorem lossless_iff {es : List Event} {s : LoggedRecords} (hs : exec step {} es = some s)
    (hr : s.Returned) : s.Lossless ↔ Along step (fun u e => u.keeps e = true) {} es := by
  have htracked : s.Tracked := exec_invariant .init (fun _ _ _ h hu => h.step hu) hs
  rw [htracked.lossless_iff_not_stranded hr, ← exec_safe_iff_along (I := fun u => ¬ u.Stranded)
    (S := fun u => ¬ u.Stranded) (fun _ _ _ h hkeeps hu => not_stranded_of_keeps h hkeeps hu)
    (fun _ h => h) (fun _ _ _ _ hkeeps hu h => h (stranded_of_not_keeps hkeeps hu)) (by
      rintro ⟨hworker, -⟩
      cases hworker) hs]
  constructor
  · rintro h pre post u rfl hu hstranded
    rw [exec_append, hu] at hs
    exact h (exec_invariant hstranded (fun _ _ _ hstranded hv => hstranded.step hv) hs)
  · exact fun h => h es [] s (List.append_nil es).symm hs

/-- One record is accepted, and then `Shutdown` is called; the last drain finds the record. -/
def drainedShutdown : List Event :=
  [.submit 0 { message := "accepted" }, .call 0, .call 0, .call 0, .call 0, .call 0, .call 0,
    .call 0, .enqueue 0, .shutdown 0, .call 0, .work, .work, .work, .work, .consume, .work,
    .work, .work, .work, .call 0]

theorem lossless_iff_drained :
    ∃ s, exec step {} drainedShutdown = some s ∧ s.Returned ∧ s.records ≠ [] ∧ s.Lossless := by
  have hkeeps : Along step (fun u e => u.keeps e = true) {} drainedShutdown := by
    iterate 20 refine .cons rfl rfl ?_
    exact .cons rfl rfl trivial
  refine ⟨_, rfl, ?_, List.cons_ne_nil _ _, (lossless_iff rfl ?_).2 hkeeps⟩
  all_goals exact ⟨rfl, fun t => by cases t <;> rfl, rfl⟩

/-- **A record is counted after the last drain.**  `Submit` has passed the test of
`accepting_logs_` when `Shutdown` stops the worker; it pushes its record to a ring
that nobody reads any more. -/
theorem paused_submit_lost : ∃ s,
    exec step {} [.submit 0 { message := "accepted" }, .call 0, .call 0, .call 0, .call 0,
      .shutdown 1, .call 1, .work, .work, .work, .work, .call 1, .call 0, .call 0, .call 0,
      .enqueue 0] = some s ∧
    s.Returned ∧ s.enqueued = 1 ∧ s.consumed = 0 ∧ s.output = [] ∧ ¬ s.Lossless := by
  refine ⟨_, rfl, ⟨rfl, ?_, rfl⟩, rfl, rfl, rfl, ?_⟩
  · rintro (_ | _ | t) <;> rfl
  · rintro ⟨-, houtput, -⟩
    cases houtput

end LoggedRecords
end Common
end MiniRpc
