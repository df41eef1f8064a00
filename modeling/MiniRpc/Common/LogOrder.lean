/-
# In which order the lines come

Many threads log at once, and a record may be dropped (`MiniRpc.Common.LoggedRecords`).
But a thread is in one call of `Submit` at a time, its record gets a place in the ring
before the call returns, and the worker writes the ring in order.  So of each thread
the log holds some of what it submitted, in the order in which it did
(`output_in_order`).  The lines that `EmitDropSummaryIfNeeded` puts in between are the
worker's own, and no records.

The records carry no author.  `Authored` is about a list of authors beside them, and
the record that a thread still has in its hands comes last (`pending`).
-/

import MiniRpc.Common.LoggedRecords

namespace MiniRpc
namespace Common
namespace LoggedRecords

open Transition

variable {s s' : LoggedRecords} {t u : ℕ} {es : List Event} {logger : AsyncLogger}

/-- What a thread submits in a run, in its order. -/
def submissions (t : ℕ) (es : List Event) : List LogEntry :=
  es.filterMap fun e =>
    match e with
    | .submit u entry => if u = t then some entry else none
    | _ => none

/-- The records of one author. -/
def recordsOf (t : ℕ) (authors : List ℕ) (records : List LogEntry) : List LogEntry :=
  ((authors.zip records).filter fun p => p.1 = t).map Prod.snd

/-- The record that a thread has still to push. -/
def pending (s : LoggedRecords) (t : ℕ) : List LogEntry :=
  if (s.logger.callers t).level.isSome then [s.entries t] else []

/-- The authors of the records: each thread pushed some of what it submitted, in its order. -/
def Authored (es : List Event) (s : LoggedRecords) : Prop :=
  ∃ authors : List ℕ, authors.length = s.records.length ∧
    ∀ t, (recordsOf t authors s.records ++ s.pending t).Sublist (submissions t es)

theorem recordsOf_concat {authors : List ℕ} {records : List LogEntry}
    (h : authors.length = records.length) (t u : ℕ) (entry : LogEntry) :
    recordsOf t (authors ++ [u]) (records ++ [entry]) =
      recordsOf t authors records ++ if u = t then [entry] else [] := by
  unfold recordsOf
  rw [List.zip_append h, List.filter_append, List.map_append]
  by_cases hu : u = t
  · simp [hu]
  · simp [hu]

/-- The first records are some of them. -/
theorem recordsOf_take (t n : ℕ) (authors : List ℕ) (records : List LogEntry) :
    (recordsOf t (authors.take n) (records.take n)).Sublist (recordsOf t authors records) := by
  have htake : (authors.take n).zip (records.take n) = (authors.zip records).take n :=
    List.take_zipWith.symm
  unfold recordsOf
  rw [htake]
  exact ((List.take_sublist _ _).filter _).map _

theorem submissions_concat (t : ℕ) (es : List Event) (e : Event) :
    submissions t (es ++ [e]) = submissions t es ++ submissions t [e] :=
  List.filterMap_append

/-- What a thread has in its hands when one of the threads has moved. -/
theorem pending_update (s s' : LoggedRecords) {place : LogCaller}
    (hcallers : s'.logger.callers = Function.update s.logger.callers u place)
    (hentries : s'.entries = s.entries) (t : ℕ) :
    s'.pending t =
      if t = u then (if place.level.isSome then [s.entries u] else []) else s.pending t := by
  unfold pending
  rw [hcallers, hentries]
  by_cases ht : t = u
  · subst ht
    rw [Function.update_self, if_pos rfl]
  · rw [Function.update_of_ne ht, if_neg ht]

namespace Authored

theorem init : Authored [] {} := ⟨[], rfl, fun _ => List.Sublist.refl _⟩

/-- A step that pushes nothing, after which no thread has more in its hands. -/
theorem keeps (h : Authored es s) {e : Event} (hrecords : s'.records = s.records)
    (hpending : ∀ t, (s'.pending t).Sublist (s.pending t ++ submissions t [e])) :
    Authored (es ++ [e]) s' := by
  obtain ⟨authors, hlen, hsub⟩ := h
  refine ⟨authors, by rw [hrecords, hlen], fun t => ?_⟩
  rw [hrecords, submissions_concat]
  refine ((hpending t).append_left _).trans ?_
  rw [← List.append_assoc]
  exact (hsub t).append_right _

/-- **A thread pushes its record**: it becomes the last of the records. -/
theorem push (h : Authored es s) {e : Event} {level : LogLevel} {place : LogCaller}
    (hlevel : (s.logger.callers u).level = some level)
    (hrecords : s'.records = s.records ++ [s.entries u]) (hentries : s'.entries = s.entries)
    (hcallers : s'.logger.callers = Function.update s.logger.callers u place)
    (hplace : place.level = none) : Authored (es ++ [e]) s' := by
  obtain ⟨authors, hlen, hsub⟩ := h
  refine ⟨authors ++ [u], by rw [hrecords, List.length_append, List.length_append, hlen]; rfl,
    fun t => ?_⟩
  rw [hrecords, recordsOf_concat hlen, submissions_concat, pending_update s s' hcallers hentries,
    hplace]
  refine List.Sublist.trans ?_ ((hsub t).trans (List.sublist_append_left _ _))
  by_cases ht : t = u
  · subst ht
    have hself : s.pending t = [s.entries t] := by
      unfold pending
      rw [hlevel]
      rfl
    rw [if_pos rfl, if_pos rfl, hself]
    exact (List.append_nil _).symm ▸ List.Sublist.refl _
  · rw [if_neg (Ne.symm ht), if_neg ht, List.append_nil]

/-- **A thread goes on.** -/
theorem called (h : Authored es s) (hs : s.logger.call t = some logger) :
    Authored (es ++ [.call t]) (s.called t logger) := by
  -- a thread that pushes nothing has no more in its hands
  have hmoved : ∀ (s' : LoggedRecords) (place : LogCaller), s'.records = s.records →
      s'.entries = s.entries → s'.logger.callers = Function.update s.logger.callers t place →
      (place.level = none ∨ place.level = (s.logger.callers t).level) →
      Authored (es ++ [.call t]) s' := by
    intro s' place hrecords hentries hcallers hlevel
    refine h.keeps hrecords fun v => ?_
    rw [pending_update s s' hcallers hentries]
    show List.Sublist _ (s.pending v ++ [])
    rw [List.append_nil]
    by_cases hv : v = t
    · subst hv
      rw [if_pos rfl]
      rcases hlevel with hnone | hsame
      · rw [hnone]
        exact List.nil_sublist _
      · rw [hsame]
        exact List.Sublist.refl _
    · rw [if_neg hv]
  unfold LoggedRecords.called
  rcases AsyncLogger.call_cases hs with ⟨level, hplace, hroom, rfl⟩ | ⟨ticket, hplace, rfl⟩ |
    ⟨ticket, hplace, rfl⟩ | ⟨place, ha, hlevel, hfull⟩
  · simp only [hplace, if_pos hroom]
    exact h.push (by rw [hplace]; rfl) rfl rfl rfl rfl
  · simp only [hplace]
    exact hmoved _ _ rfl rfl rfl (Or.inl rfl)
  · simp only [hplace]
    exact hmoved _ _ rfl rfl rfl (Or.inl rfl)
  · have hkept : Authored (es ++ [.call t]) { s with logger } :=
      hmoved _ place rfl rfl ha.callers hlevel
    have hbefore := ha.before
    split
    · rename_i level hplace
      rw [if_neg (hfull level hplace)]
      exact hkept
    · rename_i ticket hplace
      rw [hplace] at hbefore
      cases hbefore
    · exact hkept

/-- The worker takes nothing from the threads. -/
theorem worked (h : Authored es s) (hs : s.logger.work = some logger) :
    Authored (es ++ [.work]) (s.worked logger) := by
  have hcallers : logger.callers = s.logger.callers := by
    rcases AsyncLogger.work_cases hs with ⟨-, rfl⟩ | ⟨_, _, _, _, _, -, -, rfl⟩ |
      ⟨_, _, _, -, -, rfl⟩ | ⟨_, _, -, rfl⟩ | ⟨-, rfl⟩ <;> rfl
  have hkept : ∀ s' : LoggedRecords, s'.records = s.records → s'.entries = s.entries →
      s'.logger = logger → Authored (es ++ [.work]) s' := by
    intro s' hrecords hentries hlogger
    refine h.keeps hrecords fun v => ?_
    unfold pending
    rw [hlogger, hcallers, hentries]
    exact List.sublist_append_left _ _
  unfold LoggedRecords.worked
  split
  · split_ifs <;> exact hkept _ rfl rfl rfl
  · exact hkept _ rfl rfl rfl
  · exact hkept _ rfl rfl rfl

/-- A thread begins a call, with the record of it in its hands if there is one. -/
theorem begin (h : Authored es s) {e : Event} {place : LogCaller}
    (hidle : s.logger.callers u = .outside) (hrecords : s'.records = s.records)
    (hentries : ∀ t, t ≠ u → s'.entries t = s.entries t)
    (hcallers : s'.logger.callers = Function.update s.logger.callers u place)
    (hown : s'.pending u = submissions u [e]) : Authored (es ++ [e]) s' := by
  refine h.keeps hrecords fun t => ?_
  by_cases ht : t = u
  · subst ht
    rw [hown]
    exact List.sublist_append_right _ _
  · unfold pending
    rw [hcallers, Function.update_of_ne ht, hentries t ht]
    exact List.sublist_append_left _ _

/-- **Every step keeps the order of each thread.** -/
theorem step (h : Authored es s) {e : Event} (hs : s.step e = some s') :
    Authored (es ++ [e]) s' := by
  cases e with
  | submit t entry =>
    simp only [LoggedRecords.step] at hs
    split_ifs at hs
    obtain ⟨logger, hlogger, rfl⟩ := Option.map_eq_some_iff.1 hs
    simp only [AsyncLogger.step] at hlogger
    split_ifs at hlogger with hidle
    obtain rfl := Option.some.inj hlogger
    refine h.begin hidle rfl (fun v hv => Function.update_of_ne hv ..) rfl ?_
    simp [pending, submissions, AsyncLogger.goto, LogCaller.level]
  | init t options =>
    simp only [LoggedRecords.step] at hs
    split_ifs at hs
    obtain ⟨logger, hlogger, rfl⟩ := Option.map_eq_some_iff.1 hs
    simp only [AsyncLogger.step] at hlogger
    split_ifs at hlogger with hidle
    obtain rfl := Option.some.inj hlogger
    refine h.begin hidle rfl (fun _ _ => rfl) rfl ?_
    simp [pending, submissions, AsyncLogger.goto, LogCaller.level]
  | shutdown t =>
    simp only [LoggedRecords.step] at hs
    split_ifs at hs
    obtain ⟨logger, hlogger, rfl⟩ := Option.map_eq_some_iff.1 hs
    simp only [AsyncLogger.step] at hlogger
    split_ifs at hlogger with hidle haccepting
    · obtain rfl := Option.some.inj hlogger
      refine h.begin hidle rfl (fun _ _ => rfl) rfl ?_
      simp [pending, submissions, AsyncLogger.goto, LogCaller.level]
    · obtain rfl := Option.some.inj hlogger
      exact h.keeps rfl fun v => List.sublist_append_left _ _
  | call t =>
    obtain ⟨logger, hlogger, rfl⟩ := Option.map_eq_some_iff.1 hs
    exact h.called hlogger
  | enqueue t =>
    simp only [LoggedRecords.step] at hs
    split_ifs at hs
    obtain rfl := Option.some.inj hs
    exact h.keeps rfl fun v => List.sublist_append_left _ _
  | work =>
    simp only [LoggedRecords.step] at hs
    split_ifs at hs
    obtain ⟨logger, hlogger, rfl⟩ := Option.map_eq_some_iff.1 hs
    exact h.worked hlogger
  | consume =>
    obtain ⟨drained, -, rfl⟩ := Option.map_eq_some_iff.1 hs
    exact h.keeps rfl fun v => List.sublist_append_left _ _

end Authored

/-- **The log keeps the order of each thread.**  In every run of any number of threads and
the worker, each record that was written has an author, and of each thread these are some of
the records that it submitted, in the order in which it did. -/
theorem output_in_order (hs : exec step {} es = some s) :
    ∃ authors : List ℕ, authors.length = s.output.length ∧
      ∀ t, (recordsOf t authors s.output).Sublist (submissions t es) := by
  obtain ⟨authors, hlen, hsub⟩ : Authored es s :=
    exec_history .init (fun _ _ _ _ h hu => h.step hu) es s hs
  have htracked : s.Tracked := exec_invariant .init (fun _ _ _ h hu => h.step hu) hs
  obtain ⟨n, hn, houtput⟩ : ∃ n ≤ s.records.length, s.output = s.records.take n := by
    have hprefix : s.output <+: s.records :=
      (htracked.output ▸ List.prefix_append s.output s.batch).trans (List.take_prefix _ _)
    exact ⟨s.output.length, hprefix.length_le, List.prefix_iff_eq_take.1 hprefix⟩
  refine ⟨authors.take n, ?_, fun t => ?_⟩
  · rw [houtput, List.length_take, List.length_take, hlen]
  · rw [houtput]
    exact (recordsOf_take t n authors s.records).trans
      ((List.sublist_append_left _ _).trans (hsub t))

/-- Two threads, and the second to call pushes first. -/
theorem output_in_order_overtaken : ∃ (s : LoggedRecords) (authors : List ℕ),
    s.output = [{ message := "second" }, { message := "first" }] ∧ authors.length = 2 ∧
      (recordsOf 0 authors s.output).Sublist [{ message := "first" }] := by
  obtain ⟨s, hs, houtput⟩ : ∃ s, exec step {} [.submit 0 { message := "first" },
      .submit 1 { message := "second" }, .call 1, .call 1, .call 1, .call 1, .call 1, .call 0,
      .call 0, .call 0, .call 0, .call 0, .call 0, .call 1, .work, .work, .work, .work, .work,
      .consume] = some s ∧ s.output = [{ message := "second" }, { message := "first" }] :=
    ⟨_, rfl, rfl⟩
  obtain ⟨authors, hlen, hsub⟩ := output_in_order hs
  exact ⟨s, authors, houtput, by rw [hlen, houtput]; rfl, hsub 0⟩

end LoggedRecords
end Common
end MiniRpc
