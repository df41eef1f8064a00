/-
# Runs of a partial step function

A system is a step function `step : σ → ε → Option σ`: the events are the
atomic actions of all its parties, and `none` says the event is not enabled in
the state.  `exec` runs a list of events, one interleaving of the parties.

Three rules turn facts about one step into facts about every run: an invariant
of the state (`exec_invariant`), an invariant that also sees the events run so
far (`exec_history`), and an invariant that the steps keep only when each of
them meets a condition (`exec_along`, and `safe_iff_along` where the condition is
exact).  `exec_map` does so for two systems, one of which is seen of the other, and
`exec_part` for a system and one of its parts.  `exec_length_le` bounds the length of a run.
`Reaches` forgets the events.  `observe` collects what an observer sees of the
events of a run, and `Precedes` speaks about the order of two of them.
-/

import Mathlib.Algebra.GroupWithZero.Nat
import Mathlib.Data.List.Induction

namespace MiniRpc
namespace Transition

variable {σ ε : Type*} {step : σ → ε → Option σ}

/-- Run the events from `s`, `none` once one of them is not enabled. -/
def exec (step : σ → ε → Option σ) (s : σ) : List ε → Option σ
  | [] => some s
  | e :: es => (step s e).bind fun t => exec step t es

@[simp] theorem exec_nil (s : σ) : exec step s [] = some s := rfl

@[simp] theorem exec_cons (s : σ) (e : ε) (es : List ε) :
    exec step s (e :: es) = (step s e).bind fun t => exec step t es := rfl

theorem exec_append (s : σ) (es fs : List ε) :
    exec step s (es ++ fs) = (exec step s es).bind fun t => exec step t fs := by
  induction es generalizing s with
  | nil => rfl
  | cons e es ih =>
    rw [List.cons_append, exec_cons, exec_cons, Option.bind_assoc]
    exact congrArg _ (funext fun t => ih t)

/-- A run splits at its last event. -/
theorem exec_concat {s t : σ} {es : List ε} {e : ε} :
    exec step s (es ++ [e]) = some t ↔ ∃ u, exec step s es = some u ∧ step u e = some t := by
  rw [exec_append, Option.bind_eq_some_iff]
  exact exists_congr fun u => and_congr_right fun _ => by simp

/-- **The invariant rule with history.**  A property of the events run so far
and of the state reached that holds at the start and is kept by every step
holds after every run. -/
theorem exec_history {s₀ : σ} {I : List ε → σ → Prop} (h₀ : I [] s₀)
    (hstep : ∀ es s e t, I es s → step s e = some t → I (es ++ [e]) t) :
    ∀ es s, exec step s₀ es = some s → I es s := by
  intro es
  induction es using List.reverseRecOn with
  | nil =>
    intro s hs
    obtain rfl := Option.some.inj hs
    exact h₀
  | append_singleton es e ih =>
    intro t ht
    obtain ⟨s, hs, he⟩ := exec_concat.1 ht
    exact hstep es s e t (ih s hs) he

/-- **The invariant rule.** -/
theorem exec_invariant {s₀ : σ} {I : σ → Prop} (h₀ : I s₀)
    (hstep : ∀ s e t, I s → step s e = some t → I t) {es : List ε} {s : σ}
    (hs : exec step s₀ es = some s) : I s :=
  exec_history (I := fun _ s => I s) h₀ (fun _ => hstep) es s hs

/-- **The refinement rule.**  What is seen of the states is a system of its own: if every
event changes it as it does there, from any state with an invariant that the steps keep,
then so does every run. -/
theorem exec_map {τ : Type*} {step' : τ → ε → Option τ} {f : σ → τ} {I : σ → Prop}
    (hI : ∀ s e t, I s → step s e = some t → I t)
    (hstep : ∀ s e, I s → (step s e).map f = step' (f s) e) {s : σ} (hs : I s)
    (es : List ε) : (exec step s es).map f = exec step' (f s) es := by
  induction es generalizing s with
  | nil => rfl
  | cons e es ih =>
    rw [exec_cons, exec_cons, ← hstep s e hs]
    cases ht : step s e with
    | none => rfl
    | some t => exact ih (hI s e t hs ht)

/-- Some events lead from `s` to `t`. -/
def Reaches (step : σ → ε → Option σ) (s t : σ) : Prop := ∃ es, exec step s es = some t

theorem Reaches.refl (s : σ) : Reaches step s s := ⟨[], rfl⟩

theorem Reaches.trans {s t u : σ} (h : Reaches step s t) (h' : Reaches step t u) :
    Reaches step s u := by
  obtain ⟨es, hes⟩ := h
  obtain ⟨fs, hfs⟩ := h'
  exact ⟨es ++ fs, by rw [exec_append, hes]; exact hfs⟩

/-- An event, and then some. -/
theorem Reaches.head {s t u : σ} {e : ε} (h : step s e = some t) (h' : Reaches step t u) :
    Reaches step s u := by
  obtain ⟨es, hes⟩ := h'
  exact ⟨e :: es, by rw [exec_cons, h]; exact hes⟩

/-- **The simulation rule.**  If every step of one system is a step of another, as
`f` sees the states, then what can be reached there can be reached here. -/
theorem Reaches.map {τ δ : Type*} {step' : τ → δ → Option τ} {f : σ → τ}
    (hstep : ∀ s e t, step s e = some t → ∃ d, step' (f s) d = some (f t)) {s t : σ}
    (h : Reaches step s t) : Reaches step' (f s) (f t) := by
  obtain ⟨es, hes⟩ := h
  induction es generalizing s with
  | nil =>
    obtain rfl := Option.some.inj hes
    exact .refl _
  | cons e es ih =>
    obtain ⟨u, hu, hrest⟩ := Option.bind_eq_some_iff.1 hes
    obtain ⟨d, hd⟩ := hstep s e u hu
    exact .head hd (ih hrest)

/-- What can be reached has what the steps keep. -/
theorem Reaches.invariant {I : σ → Prop} (hstep : ∀ s e t, I s → step s e = some t → I t)
    {s t : σ} (hs : I s) (h : Reaches step s t) : I t := by
  obtain ⟨es, hes⟩ := h
  exact exec_invariant hs hstep hes

/-- **The cost rule.**  If every step from a state with an invariant lowers a measure, but
for what its event brings in, then a run is no longer than the measure at its start and
what its events bring in. -/
theorem exec_length_le {I : σ → Prop} {Q : ε → Prop} {μ : σ → ℕ} {c : ε → ℕ}
    (hstep : ∀ s e t, I s → Q e → step s e = some t → I t ∧ μ t + 1 ≤ μ s + c e)
    {es : List ε} {s t : σ} (hs : I s) (hes : ∀ e ∈ es, Q e) (ht : exec step s es = some t) :
    es.length + μ t ≤ μ s + (es.map c).sum := by
  induction es generalizing s with
  | nil =>
    obtain rfl := Option.some.inj ht
    simp
  | cons e es ih =>
    obtain ⟨u, hu, hex⟩ := Option.bind_eq_some_iff.1 ht
    obtain ⟨hI, hμ⟩ := hstep s e u hs (hes e List.mem_cons_self) hu
    have hrest := ih hI (fun e' he' => hes e' (List.mem_cons_of_mem e he')) hex
    rw [List.length_cons, List.map_cons, List.sum_cons]
    omega

variable {α : Type*}

/-- What `f` sees along the run of `es` from `s`: of each event at most one
thing, in the state the event happens in. -/
def observe (step : σ → ε → Option σ) (f : σ → ε → Option α) (s : σ) : List ε → List α
  | [] => []
  | e :: es => (f s e).toList ++ (step s e).elim [] fun t => observe step f t es

theorem observe_append {f : σ → ε → Option α} {es fs : List ε} {s t : σ}
    (h : exec step s es = some t) :
    observe step f s (es ++ fs) = observe step f s es ++ observe step f t fs := by
  induction es generalizing s with
  | nil =>
    obtain rfl := Option.some.inj h
    rfl
  | cons x es ih =>
    obtain ⟨u, hu, hex⟩ := Option.bind_eq_some_iff.1 h
    simp only [List.cons_append, observe, hu, Option.elim_some, ih hex, List.append_assoc]

/-- What is seen of a run is what was seen of it before its last event, and of
that. -/
theorem observe_concat {f : σ → ε → Option α} {es : List ε} {e : ε} {s t : σ}
    (h : exec step s es = some t) :
    observe step f s (es ++ [e]) = observe step f s es ++ (f t e).toList := by
  rw [observe_append h]
  simp only [observe]
  cases step t e <;> simp

/-- What is seen of a run is seen at one of its events. -/
theorem exists_of_mem_observe {f : σ → ε → Option α} {a : α} {es : List ε} {s : σ}
    (h : a ∈ observe step f s es) :
    ∃ pre e post t, es = pre ++ e :: post ∧ exec step s pre = some t ∧ f t e = some a := by
  induction es generalizing s with
  | nil => cases h
  | cons x es ih =>
    rcases List.mem_append.1 h with h | h
    · exact ⟨[], x, es, s, rfl, rfl, by simpa using h⟩
    · cases hx : step s x with
      | none => simp [hx] at h
      | some u =>
        rw [hx] at h
        obtain ⟨pre, e, post, t, rfl, hex, hf⟩ := ih h
        exact ⟨x :: pre, e, post, t, rfl, by rw [exec_cons, hx]; exact hex, hf⟩

/-- What is seen of a run, taken apart at one thing: the events before the one it
is seen at, that event, and those after it. -/
theorem exists_of_observe_eq {f : σ → ε → Option α} {as bs : List α} {a : α} {es : List ε} {s : σ}
    (h : observe step f s es = as ++ a :: bs) :
    ∃ pre e post t, es = pre ++ e :: post ∧ exec step s pre = some t ∧ f t e = some a ∧
      observe step f s pre = as := by
  induction es generalizing s as with
  | nil => simp [observe] at h
  | cons x es ih =>
    rw [observe] at h
    cases hf : f s x with
    | some y =>
      rw [hf, Option.toList_some, List.singleton_append] at h
      cases as with
      | nil =>
        obtain ⟨rfl, -⟩ := List.cons.inj h
        exact ⟨[], x, es, s, rfl, rfl, hf, rfl⟩
      | cons z as =>
        obtain ⟨rfl, hrest⟩ := List.cons.inj h
        cases hx : step s x with
        | none => simp [hx] at hrest
        | some u =>
          rw [hx] at hrest
          obtain ⟨pre, e, post, t, rfl, hex, hfe, hpre⟩ := ih hrest
          refine ⟨x :: pre, e, post, t, rfl, by rw [exec_cons, hx]; exact hex, hfe, ?_⟩
          rw [observe, hf, hx, Option.elim_some, hpre]
          rfl
    | none =>
      rw [hf, Option.toList_none, List.nil_append] at h
      cases hx : step s x with
      | none => simp [hx] at h
      | some u =>
        rw [hx] at h
        obtain ⟨pre, e, post, t, rfl, hex, hfe, hpre⟩ := ih h
        refine ⟨x :: pre, e, post, t, rfl, by rw [exec_cons, hx]; exact hex, hfe, ?_⟩
        rw [observe, hf, hx, Option.elim_some, hpre]
        rfl

/-- **The part of a run.**  If every step of a system is for one of its parts at
most one event, which leads there from what the part was to what it is, then a
run of the system is for the part the run of these events. -/
theorem exec_part {τ δ : Type*} {step' : τ → δ → Option τ} (part : σ → τ)
    {event : σ → ε → Option δ}
    (hpart : ∀ s e t, step s e = some t →
      exec step' (part s) (event s e).toList = some (part t)) {es : List ε} {s t : σ}
    (h : exec step s es = some t) :
    exec step' (part s) (observe step event s es) = some (part t) := by
  induction es generalizing s with
  | nil =>
    obtain rfl := Option.some.inj h
    rfl
  | cons e es ih =>
    obtain ⟨u, hu, hex⟩ := Option.bind_eq_some_iff.1 h
    rw [observe, exec_append, hpart s e u hu, hu]
    exact ih hex

/-- If one thing is seen of a run, it is seen at one event and at no other. -/
theorem eq_of_observe_singleton {f : σ → ε → Option α} {a : α} {es : List ε} {s : σ}
    (h : observe step f s es = [a]) {pre pre' post post' : List ε} {e e' : ε} {t t' : σ}
    (he : es = pre ++ e :: post) (hex : exec step s pre = some t) (hf : (f t e).isSome)
    (he' : es = pre' ++ e' :: post') (hex' : exec step s pre' = some t') (hf' : (f t' e').isSome) :
    pre = pre' := by
  -- an event before `pre'` and the one after it would both be seen
  have key : ∀ {pre pre' post post' : List ε} {e e' : ε} {t t' : σ}, es = pre ++ e :: post →
      exec step s pre = some t → (f t e).isSome → es = pre' ++ e' :: post' →
      exec step s pre' = some t' → (f t' e').isSome → ¬ pre.length < pre'.length := by
    intro pre pre' post post' e e' t t' he hex hf he' hex' hf' hlt
    obtain ⟨mid, rfl⟩ : ∃ mid, pre' = pre ++ e :: mid := by
      have := he.symm.trans he'
      obtain ⟨as, rfl, has⟩ | ⟨cs, rfl, hcs⟩ := List.append_eq_append_iff.1 this
      · cases as with
        | nil => simp at hlt
        | cons x as =>
          obtain ⟨rfl, -⟩ := List.cons.inj has
          exact ⟨as, rfl⟩
      · rw [List.length_append] at hlt
        omega
    obtain ⟨b, hb⟩ := Option.isSome_iff_exists.1 hf
    obtain ⟨b', hb'⟩ := Option.isSome_iff_exists.1 hf'
    have hlen : (observe step f s es).length = 1 := by rw [h]; rfl
    rw [he', observe_append hex', observe_append hex] at hlen
    simp only [observe, hb, hb', List.length_append, Option.toList_some, List.length_singleton]
      at hlen
    omega
  have h₁ := key he hex hf he' hex' hf'
  have h₂ := key he' hex' hf' he hex hf
  exact (List.append_inj (he.symm.trans he') (by omega)).1

/-- What takes away a property that only `b` brings back happens at most once
while no `b` is seen, and not at all without the property. -/
theorem count_observe_le_one {β : Type*} [DecidableEq α] {f : σ → ε → Option α}
    {g : σ → ε → Option β} {A : σ → Prop} {a : α} {b : β}
    (huse : ∀ s e t, step s e = some t → f s e = some a → A s ∧ ¬ A t)
    (hback : ∀ s e t, step s e = some t → A t → A s ∨ g s e = some b)
    (hstep : ∀ s e, f s e = some a → (step s e).isSome) {es : List ε} {s : σ}
    (hb : b ∉ observe step g s es) :
    (observe step f s es).count a ≤ 1 ∧ (¬ A s → (observe step f s es).count a = 0) := by
  induction es generalizing s with
  | nil => simp [observe]
  | cons e es ih =>
    cases ht : step s e with
    | none =>
      have hne : f s e ≠ some a := by
        intro hf
        have := hstep s e hf
        rw [ht] at this
        cases this
      have hzero : (observe step f s (e :: es)).count a = 0 := by
        cases hf : f s e <;> simp_all [observe]
      exact ⟨by omega, fun _ => hzero⟩
    | some t =>
      simp only [observe, ht, Option.elim_some, List.mem_append, not_or] at hb
      obtain ⟨hle, hzero⟩ := ih hb.2
      simp only [observe, ht, Option.elim_some, List.count_append]
      by_cases hf : f s e = some a
      · obtain ⟨hs, hnt⟩ := huse s e t ht hf
        rw [hf, hzero hnt]
        exact ⟨by simp, fun h => absurd hs h⟩
      · have hnone : (f s e).toList.count a = 0 := by
          cases hfe : f s e <;> simp_all
        have hkept : ¬ A s → ¬ A t := fun hns hA => (hback s e t ht hA).elim hns
          fun hg => hb.1 (by simp [hg])
        exact ⟨by omega, fun hns => by rw [hnone, hzero (hkept hns)]⟩

/-- Every step of the run of `es` from `s` meets `P`: the state before the step
and the event stand in `P`. -/
def Along (step : σ → ε → Option σ) (P : σ → ε → Prop) (s : σ) : List ε → Prop
  | [] => True
  | e :: es => P s e ∧ ∀ t, step s e = some t → Along step P t es

instance Along.decidable {P : σ → ε → Prop} [∀ s e, Decidable (P s e)] :
    ∀ (s : σ) (es : List ε), Decidable (Along step P s es)
  | _, [] => isTrue trivial
  | s, e :: es =>
    match h : step s e with
    | none => decidable_of_iff (P s e) (by simp [Along, h])
    | some t =>
      have := Along.decidable (P := P) t es
      decidable_of_iff (P s e ∧ Along step P t es) (by simp [Along, h])

theorem Along.cons {P : σ → ε → Prop} {s t : σ} {e : ε} {es : List ε} (hP : P s e)
    (h : step s e = some t) (hrest : Along step P t es) : Along step P s (e :: es) :=
  ⟨hP, fun _ hu => Option.some.inj (h.symm.trans hu) ▸ hrest⟩

/-- **The invariant rule under a condition on the steps.** -/
theorem exec_along {P : σ → ε → Prop} {I : σ → Prop}
    (hstep : ∀ s e t, I s → P s e → step s e = some t → I t) :
    ∀ {es : List ε} {s t : σ}, I s → Along step P s es → exec step s es = some t → I t
  | [], _, _, hs, _, ht => Option.some.inj ht ▸ hs
  | _ :: _, _, _, hs, ⟨hP, hrest⟩, ht => by
    obtain ⟨u, hu, hex⟩ := Option.bind_eq_some_iff.1 ht
    exact exec_along hstep (hstep _ _ _ hs hP hu) (hrest u hu) hex

/-- A condition along a run is one on every event of it, in the state that the
events before it reached. -/
theorem along_iff {P : σ → ε → Prop} {es : List ε} {s : σ} :
    Along step P s es ↔
      ∀ pre e post t, es = pre ++ e :: post → exec step s pre = some t → P t e := by
  induction es generalizing s with
  | nil => simp [Along]
  | cons x es ih =>
    constructor
    · rintro ⟨hP, hrest⟩ pre e post t heq ht
      cases pre with
      | nil =>
        obtain ⟨rfl, -⟩ := List.cons.inj heq
        exact Option.some.inj ht ▸ hP
      | cons y pre =>
        obtain ⟨rfl, rfl⟩ := List.cons.inj heq
        obtain ⟨u, hu, hex⟩ := Option.bind_eq_some_iff.1 ht
        exact ih.1 (hrest u hu) pre e post t rfl hex
    · intro hall
      refine ⟨hall [] x es s rfl rfl, fun u hu => ih.2 ?_⟩
      intro pre e post t heq ht
      refine hall (x :: pre) e post t (by rw [heq]; rfl) ?_
      rw [exec_cons, hu]
      exact ht

/-- A condition along a run holds along each prefix of the run. -/
theorem Along.of_append {P : σ → ε → Prop} {es fs : List ε} {s : σ}
    (h : Along step P s (es ++ fs)) : Along step P s es := by
  rw [along_iff] at h ⊢
  intro pre e post t heq
  exact h pre e (post ++ fs) t (by rw [heq]; simp)

/-- A condition along two runs, the second from where the first ends, holds along both. -/
theorem Along.append {P : σ → ε → Prop} {es fs : List ε} {s t : σ} (h : Along step P s es)
    (ht : exec step s es = some t) (hrest : Along step P t fs) : Along step P s (es ++ fs) := by
  induction es generalizing s with
  | nil =>
    obtain rfl := Option.some.inj ht
    exact hrest
  | cons x es ih =>
    obtain ⟨u, hu, hex⟩ := Option.bind_eq_some_iff.1 ht
    exact Along.cons h.1 hu (ih (h.2 u hu) hex)

/-- A condition along a run holds along the rest of it. -/
theorem Along.after {P : σ → ε → Prop} {es fs : List ε} {s t : σ} (h : Along step P s (es ++ fs))
    (ht : exec step s es = some t) : Along step P t fs := by
  rw [along_iff] at h ⊢
  intro pre e post u heq hu
  refine h (es ++ pre) e post u (by rw [heq, List.append_assoc]) ?_
  rw [exec_append, ht]
  exact hu

/-- One more event that meets the condition. -/
theorem Along.concat {P : σ → ε → Prop} {es : List ε} {e : ε} {s t : σ}
    (h : Along step P s es) (ht : exec step s es = some t) (hP : P t e) :
    Along step P s (es ++ [e]) :=
  h.append ht ⟨hP, fun _ _ => trivial⟩

/-- Two conditions that agree on the steps from a state with an invariant, which
the steps under one of them keep, agree along every run. -/
theorem along_congr {P Q : σ → ε → Prop} {I : σ → Prop}
    (hstep : ∀ s e t, I s → P s e → step s e = some t → I t)
    (hiff : ∀ s e t, I s → step s e = some t → (Q s e ↔ P s e)) {es : List ε} {s t : σ}
    (hs : I s) (ht : exec step s es = some t) : Along step Q s es ↔ Along step P s es := by
  induction es generalizing s with
  | nil => exact Iff.rfl
  | cons e es ih =>
    obtain ⟨u, hu, hex⟩ := Option.bind_eq_some_iff.1 ht
    have htail : P s e → (Along step Q u es ↔ Along step P u es) :=
      fun hP => ih (hstep s e u hs hP hu) hex
    constructor
    · rintro ⟨hQ, hrest⟩
      have hP := (hiff s e u hs hu).1 hQ
      exact Along.cons hP hu ((htail hP).1 (hrest u hu))
    · rintro ⟨hP, hrest⟩
      exact Along.cons ((hiff s e u hs hu).2 hP) hu ((htail hP).2 (hrest u hu))

/-- **A condition that is exact.**  If the steps that meet `P` keep an invariant
that makes a state safe, and every other step from such a state is enabled and
leads to a state that is not, then a run is safe throughout if and only if all
its steps meet `P`. -/
theorem safe_iff_along {P : σ → ε → Prop} {I S : σ → Prop}
    (hstep : ∀ s e t, I s → P s e → step s e = some t → I t) (hsafe : ∀ s, I s → S s)
    (hbreak : ∀ s e, I s → ¬ P s e → ∃ t, step s e = some t ∧ ¬ S t) {s : σ} (hs : I s)
    {es : List ε} :
    (∀ pre post t, es = pre ++ post → exec step s pre = some t → S t) ↔ Along step P s es := by
  constructor
  · intro h
    induction es generalizing s with
    | nil => exact trivial
    | cons e es ih =>
      have hP : P s e := by
        by_contra hP
        obtain ⟨t, ht, hbad⟩ := hbreak s e hs hP
        exact hbad (h [e] es t rfl (by rw [exec_cons, ht]; rfl))
      refine ⟨hP, fun t ht => ih (hstep s e t hs hP ht) ?_⟩
      intro pre post u heq hu
      exact h (e :: pre) post u (by rw [heq]; rfl) (by rw [exec_cons, ht]; exact hu)
  · rintro h pre post t rfl ht
    exact hsafe t (exec_along hstep hs h.of_append ht)

/-- The same, where only the steps that happen are looked at. -/
theorem exec_safe_iff_along {P : σ → ε → Prop} {I S : σ → Prop}
    (hstep : ∀ s e t, I s → P s e → step s e = some t → I t) (hsafe : ∀ s, I s → S s)
    (hbreak : ∀ s e t, I s → ¬ P s e → step s e = some t → ¬ S t) {s t : σ} (hs : I s)
    {es : List ε} (ht : exec step s es = some t) :
    (∀ pre post u, es = pre ++ post → exec step s pre = some u → S u) ↔ Along step P s es := by
  constructor
  · intro h
    induction es generalizing s with
    | nil => exact trivial
    | cons e es ih =>
      obtain ⟨u, hu, hex⟩ := Option.bind_eq_some_iff.1 ht
      have hP : P s e := by
        by_contra hP
        exact hbreak s e u hs hP hu (h [e] es u rfl (by rw [exec_cons, hu]; rfl))
      refine Along.cons hP hu (ih (hstep s e u hs hP hu) hex ?_)
      intro pre post v heq hv
      exact h (e :: pre) post v (by rw [heq]; rfl) (by rw [exec_cons, hu]; exact hv)
  · rintro h pre post u rfl hu
    exact hsafe u (exec_along hstep hs h.of_append hu)

/-- `x` occurs in `es` with `y` somewhere after it. -/
def Precedes (es : List ε) (x y : ε) : Prop :=
  ∃ as bs cs, es = as ++ x :: (bs ++ y :: cs)

@[simp] theorem not_precedes_nil (x y : ε) : ¬ Precedes [] x y := by
  rintro ⟨as, bs, cs, h⟩
  simp at h

/-- The last event of a run is preceded by all the others. -/
theorem precedes_concat {es : List ε} {e x y : ε} :
    Precedes (es ++ [e]) x y ↔ Precedes es x y ∨ x ∈ es ∧ e = y := by
  constructor
  · rintro ⟨as, bs, cs, h⟩
    rcases List.eq_nil_or_concat cs with rfl | ⟨cs, z, rfl⟩
    · have h' : es ++ [e] = (as ++ x :: bs) ++ [y] := by simpa using h
      obtain ⟨rfl, he⟩ := List.append_inj' h' rfl
      exact Or.inr ⟨by simp, by simpa using he⟩
    · have h' : es ++ [e] = (as ++ x :: (bs ++ y :: cs)) ++ [z] := by simpa using h
      exact Or.inl ⟨as, bs, cs, (List.append_inj' h' rfl).1⟩
  · rintro (⟨as, bs, cs, rfl⟩ | ⟨hx, rfl⟩)
    · exact ⟨as, bs, cs ++ [e], by simp⟩
    · obtain ⟨as, bs, rfl⟩ := List.append_of_mem hx
      exact ⟨as, bs, [], by simp⟩

end Transition
end MiniRpc
