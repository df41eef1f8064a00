/-
# Who waits for whom in a client

A thread inside `Close` waits for its dispatcher to exit, and a thread that sends
waits for `write_mu_` (`MiniRpc.Client.LockedClient`).  A failed send calls `Close`
with `write_mu_` held, the dispatcher takes it to send heartbeats, and a
coroutine that is resumed on the dispatcher may call `Close`: the two waits can
close a cycle.

A cycle is closed by the step that adds the last wait: a thread begins `Close`,
or a dispatcher comes to the lock.  `orderly` is the condition on these two, and
nothing else matters (`acyclic_iff`).
-/

import MiniRpc.Client.LockedClient

namespace MiniRpc
namespace Client

open Transition

namespace LockedClient

/-- The thread is inside `Close` and waits for the dispatcher `g`. -/
def joins (s : LockedClient) (T : Thread) (g : ℕ) : Bool :=
  s.client.closers.lookup T.number = some (.joining (some g)) &&
    s.client.dispatchers.lookup g ≠ some .exited

/-- The dispatcher waits for `write_mu_`. -/
def blocked (s : LockedClient) (g : ℕ) : Bool :=
  (s.stack (.dispatcher g)).head?.any Frame.waits

/-- A thread waits for a dispatcher that waits for a mutex of that thread, or
that is that thread. -/
def Cycle (s : LockedClient) : Prop :=
  ∃ T g, s.joins T g = true ∧
    (T = .dispatcher g ∨ s.blocked g = true ∧ s.writeMu = some T)

/-- `Close` begins on another thread than the dispatcher it waits for, and not
with `write_mu_` held while this dispatcher waits for it; and a dispatcher does
not come to the lock while it is held by a thread that waits for this
dispatcher. -/
def orderly (s : LockedClient) (a : Act) : Bool :=
  match a.move with
  | .client (.closeBegin _) =>
    match s.client.thread with
    | none => true
    | some g =>
      s.client.dispatchers.lookup g = some .exited ||
        a.thread ≠ .dispatcher g && !(s.blocked g && s.writeMu = some a.thread)
  | .await =>
    match a.thread with
    | .dispatcher g => !s.writeMu.any fun T => s.joins T g
    | .user _ => true
  | _ => true

theorem joins_iff {s : LockedClient} {T : Thread} {g : ℕ} :
    s.joins T g = true ↔ s.client.closers.lookup T.number = some (.joining (some g)) ∧
      s.client.dispatchers.lookup g ≠ some .exited := by
  simp [joins]

/-! ### Steps that begin or end no `Close` -/

/-- What such a step of the client leaves as it is. -/
structure Plain (c c' : RpcClient) : Prop where
  closers : c'.closers = c.closers
  exited : ∀ g < c.generations, c.dispatchers.lookup g = some .exited →
    c'.dispatchers.lookup g = some .exited
  generations : c.generations ≤ c'.generations
  thread : (∀ g, c.thread = some g → g < c.generations) →
    ∀ g, c'.thread = some g → g < c'.generations

namespace Plain

variable {c c' : RpcClient}

theorem refl (c : RpcClient) : Plain c c :=
  ⟨rfl, fun _ _ h => h, le_rfl, id⟩

theorem connect {k : ℕ} {established : Bool}
    (h : RpcClient.step c (.connect k established) = some c') : Plain c c' := by
  rcases RpcClient.connect_cases h with ⟨-, rfl⟩ | ⟨-, -, rfl⟩ | rfl
  · exact ⟨rfl, fun _ _ h => h, le_rfl, id⟩
  · refine ⟨rfl, ?_, Nat.le_succ _, ?_⟩
    · intro g hg hex
      exact (AList.lookup_insert_ne hg.ne).trans hex
    · intro _ g hg
      rw [← Option.some.inj hg]
      exact Nat.lt_succ_self _
  · exact refl _

theorem dispatcher {g : ℕ} {a : DispatcherStep}
    (h : RpcClient.step c (.dispatcher g a) = some c') : Plain c c' := by
  obtain ⟨hthread, hgen⟩ := RpcClient.dispatcher_frame h
  obtain ⟨pc, pc', e, hg, hd, hmove, -, hclosers, -⟩ := RpcClient.dispatcher_cases h
  refine ⟨hclosers, ?_, hgen.ge, fun ht g' hg' => hgen ▸ ht g' (hthread ▸ hg')⟩
  intro g' _ hex
  rw [hmove]
  by_cases hgg : g' = g
  · -- an exited dispatcher makes no step
    subst hgg
    obtain rfl := Option.some.inj (hg.symm.trans hex)
    cases a <;> simp [RpcClient.dispatcherStep] at hd
  · rwa [AList.lookup_insert_ne hgg]

theorem call {e : Event} (h : RpcClient.step c (.call e) = some c') : Plain c c' := by
  obtain ⟨-, calls, -, rfl⟩ := RpcClient.call_cases h
  exact ⟨rfl, fun _ _ h => h, le_rfl, id⟩

end Plain

/-! ### The invariant -/

/-- There is no cycle; a thread that the client knows to be inside `Close` is
there, and a thread waits for `write_mu_` only in the function it is in; and the
dispatchers that somebody waits for are numbered. -/
structure Calm (s : LockedClient) : Prop where
  acyclic : ¬ s.Cycle
  inside : ∀ T : Thread, s.client.closers.lookup T.number ≠ none →
    (s.stack T).head? = some .close
  shallow : ∀ T, ∀ f ∈ (s.stack T).tail, f.waits = false
  thread : ∀ g, s.client.thread = some g → g < s.client.generations
  joining : ∀ (T : Thread) (g : ℕ),
    s.client.closers.lookup T.number = some (.joining (some g)) → g < s.client.generations

namespace Calm

variable {M : Message RpcRequest} {s t : LockedClient} {T : Thread} {frames : List Frame}

theorem init : Calm {} where
  acyclic := by
    rintro ⟨T, g, hjoins, -⟩
    simp [joins] at hjoins
  inside := fun T h => absurd rfl h
  shallow := by
    intro T f hf
    cases T <;> cases hf
  thread := fun g h => by cases h
  joining := fun T g h => by cases h

/-- **A step of a thread**, which may begin or end a `Close` of its own and may
take `write_mu_` or give it back: only its own waits can close a cycle. -/
theorem moved (h : s.Calm)
    (hstack : t.stack = Function.update s.stack T (frames ++ (s.stack T).tail))
    (hwaits : ∀ f ∈ frames.tail, f.waits = false)
    (hblocked : frames.head?.any Frame.waits = true →
      ∀ g T', T = .dispatcher g → s.writeMu = some T' → s.joins T' g = false)
    (hothers : ∀ T' : Thread, T' ≠ T →
      t.client.closers.lookup T'.number = s.client.closers.lookup T'.number)
    (hself : ∀ g, t.client.closers.lookup T.number = some (.joining (some g)) →
      g < t.client.generations ∧
        (t.joins T g = true → T ≠ .dispatcher g ∧ ¬ (t.blocked g = true ∧ t.writeMu = some T)))
    (hinside : t.client.closers.lookup T.number ≠ none →
      (frames ++ (s.stack T).tail).head? = some .close)
    (hexited : ∀ g < s.client.generations, s.client.dispatchers.lookup g = some .exited →
      t.client.dispatchers.lookup g = some .exited)
    (hgen : s.client.generations ≤ t.client.generations)
    (hthread : ∀ g, t.client.thread = some g → g < t.client.generations)
    (hmu : ∀ T', T' ≠ T → t.writeMu = some T' → s.writeMu = some T') : t.Calm := by
  have hsame : ∀ T', T' ≠ T → t.stack T' = s.stack T' := by
    intro T' hT'
    rw [hstack, Function.update_of_ne hT']
  have hT : t.stack T = frames ++ (s.stack T).tail := by rw [hstack, Function.update_self]
  have hjoining : ∀ (T' : Thread) (g : ℕ),
      t.client.closers.lookup T'.number = some (.joining (some g)) → g < t.client.generations := by
    intro T' g hl
    by_cases hT' : T' = T
    · subst hT'
      exact (hself g hl).1
    · rw [hothers T' hT'] at hl
      exact (h.joining T' g hl).trans_le hgen
  refine ⟨?_, ?_, ?_, hthread, hjoining⟩
  · rintro ⟨T', g, hjoins, hwait⟩
    obtain ⟨hl, hlive⟩ := joins_iff.1 hjoins
    by_cases hT' : T' = T
    · subst hT'
      obtain ⟨hne, hnot⟩ := (hself g hl).2 hjoins
      exact hwait.elim hne hnot
    · -- another thread waited for the dispatcher before this step
      have hbefore : s.joins T' g = true := by
        rw [hothers T' hT'] at hl
        exact joins_iff.2 ⟨hl, fun hex => hlive (hexited g (h.joining T' g hl) hex)⟩
      rcases hwait with hwait | ⟨hblock, hmutex⟩
      · exact h.acyclic ⟨T', g, hbefore, Or.inl hwait⟩
      · have hmutex' := hmu T' hT' hmutex
        refine h.acyclic ⟨T', g, hbefore, Or.inr ⟨?_, hmutex'⟩⟩
        by_cases hg : T = .dispatcher g
        · exfalso
          rw [blocked, ← hg, hT] at hblock
          cases frames with
          | nil =>
            cases htail : (s.stack T).tail with
            | nil => simp [htail] at hblock
            | cons f fs =>
              have hf := h.shallow T f (by simp [htail])
              simp [htail, hf] at hblock
          | cons f fs =>
            have hfalse := hblocked hblock g T' hg hmutex'
            rw [hbefore] at hfalse
            cases hfalse
        · rw [blocked] at hblock ⊢
          rwa [hsame _ (Ne.symm hg)] at hblock
  · intro T' hl
    by_cases hT' : T' = T
    · subst hT'
      rw [hT]
      exact hinside hl
    · rw [hsame T' hT']
      exact h.inside T' (hothers T' hT' ▸ hl)
  · intro T' f hf
    by_cases hT' : T' = T
    · subst hT'
      rw [hT] at hf
      cases frames with
      | nil => exact h.shallow T' f (List.mem_of_mem_tail hf)
      | cons x xs =>
        rcases List.mem_append.1 hf with hf | hf
        · exact hwaits f hf
        · exact h.shallow T' f hf
    · rw [hsame T' hT'] at hf
      exact h.shallow T' f hf

/-- A thread that is not in `Close` makes a step of another kind, and does not
come to the lock. -/
theorem plain (h : s.Calm) (hplain : Plain s.client t.client)
    (hstack : t.stack = Function.update s.stack T (frames ++ (s.stack T).tail))
    (hwaits : ∀ f ∈ frames, f.waits = false) (htop : (s.stack T).head? ≠ some .close)
    (hmu : ∀ T', T' ≠ T → t.writeMu = some T' → s.writeMu = some T') : t.Calm := by
  have hnone : t.client.closers.lookup T.number = none := by
    rw [hplain.closers]
    by_contra hne
    exact htop (h.inside T hne)
  refine h.moved hstack (fun f hf => hwaits f (List.mem_of_mem_tail hf)) ?_ ?_ ?_ ?_
    hplain.exited hplain.generations (hplain.thread h.thread) hmu
  · intro hblock
    cases frames with
    | nil => cases hblock
    | cons f fs =>
      have hf : f.waits = true := hblock
      rw [hwaits f (List.mem_cons_self ..)] at hf
      cases hf
  · intro T' _
    rw [hplain.closers]
  · intro g hl
    rw [hnone] at hl
    cases hl
  · exact fun hne => absurd hnone hne

/-- `Close` begins in the function `f` of the thread. -/
theorem closeBegin (h : s.Calm) {c : RpcClient} {f : Frame} (hf : f.waits = false)
    (horderly : s.orderly ⟨T, .client (.closeBegin T.number)⟩ = true)
    (hs : s.client.step (.closeBegin T.number) = some c) :
    Calm (goto { s with client := c } T [.close, f]) := by
  obtain rfl := RpcClient.closeBegin_cases hs
  refine h.moved rfl ?_ (fun hblock => by cases hblock) ?_ ?_ (fun _ => rfl) (fun _ _ h => h)
    le_rfl (fun g hg => by cases hg) (fun T' _ h => h)
  · intro x hx
    obtain rfl := List.mem_singleton.1 hx
    exact hf
  · intro T' hT'
    exact AList.lookup_insert_ne fun hnum => hT' (Thread.number_inj hnum)
  · intro g hl
    have hthread : s.client.thread = some g := by
      rw [goto_client, AList.lookup_insert] at hl
      exact Closing.joining.inj (Option.some.inj hl)
    refine ⟨h.thread g hthread, fun hjoins => ?_⟩
    have hlive := (joins_iff.1 hjoins).2
    simp only [orderly, hthread, Bool.or_eq_true, Bool.and_eq_true, decide_eq_true_eq,
      Bool.not_eq_true', Bool.and_eq_false_iff, decide_eq_false_iff_not] at horderly
    obtain ⟨hne, hfree⟩ := horderly.resolve_left hlive
    refine ⟨hne, ?_⟩
    rintro ⟨hblock, hmutex⟩
    rw [blocked, goto_stack_ne _ (Ne.symm hne)] at hblock
    rcases hfree with hfree | hfree
    · exact Bool.false_ne_true (hfree.symm.trans hblock)
    · exact hfree hmutex

/-- A thread inside `Close` goes on after its join. -/
theorem closing (h : s.Calm) {c : RpcClient} {f : Frame} (hf : f.waits = false)
    (hclosers : ∀ T' : Thread, T' ≠ T →
      c.closers.lookup T'.number = s.client.closers.lookup T'.number)
    (hself : ∀ g, c.closers.lookup T.number ≠ some (.joining (some g)))
    (hinside : c.closers.lookup T.number ≠ none → f = .close)
    (hd : c.dispatchers = s.client.dispatchers) (hg : c.generations = s.client.generations)
    (ht : c.thread = s.client.thread) : Calm (goto { s with client := c } T [f]) := by
  refine h.moved rfl (fun x hx => by cases hx) ?_ hclosers
    (fun g hl => absurd hl (hself g)) ?_ ?_ hg.ge ?_ (fun T' _ h => h)
  · intro hblock
    have hblock : f.waits = true := hblock
    rw [hf] at hblock
    cases hblock
  · exact fun hne => congrArg some (hinside hne)
  · intro g _ hex
    exact hd ▸ hex
  · exact fun g hthread => hg ▸ h.thread g (ht ▸ hthread)

theorem waits_of_woken {w : Wake ℕ} {f : Frame} (hf : f ∈ woken w) : f.waits = false := by
  cases w <;> simp [woken] at hf
  obtain rfl | rfl := hf <;> rfl

/-- A step of the client. -/
theorem client (h : s.Calm) {b : RpcClient.Act} {c : RpcClient}
    (horderly : s.orderly ⟨T, .client b⟩ = true) (hs : s.client.step b = some c)
    (hgoes : Goes T s.client c (s.stack T).head? b frames) :
    Calm (goto { s with client := c } T frames) := by
  generalize htop : (s.stack T).head? = top at hgoes
  have hmu : ∀ T', T' ≠ T → s.writeMu = some T' → s.writeMu = some T' := fun _ _ => id
  cases hgoes with
  | dispatcher g a frames hT hframes =>
    refine h.plain (.dispatcher hs) rfl ?_ (by simp [htop]) hmu
    rcases hframes with rfl | rfl <;> simp [Frame.waits]
  | wake w => exact h.plain (.call hs) rfl (fun f hf => waits_of_woken hf) (by simp [htop]) hmu
  | connect k established =>
    exact h.plain (.connect hs) rfl (by simp [Frame.waits]) (by simp [htop]) hmu
  | close => exact h.closeBegin rfl horderly hs
  | join =>
    obtain rfl := RpcClient.closeJoin_cases hs
    refine h.closing rfl ?_ ?_ (fun _ => rfl) rfl rfl rfl
    · exact fun T' hT' => AList.lookup_insert_ne fun hnum => hT' (Thread.number_inj hnum)
    · intro g
      rw [AList.lookup_insert]
      simp
  | fail =>
    obtain ⟨calls, -, rfl⟩ := RpcClient.closeFail_cases hs
    refine h.closing rfl ?_ ?_ ?_ rfl rfl rfl
    · exact fun T' hT' => AList.lookup_erase_ne fun hnum => hT' (Thread.number_inj hnum)
    · intro g
      rw [AList.lookup_erase]
      simp
    · exact fun hne => absurd (AList.lookup_erase _ _) hne
  | waking w =>
    refine h.plain (.call hs) rfl ?_ (by simp [htop]) hmu
    intro f hf
    rcases List.mem_append.1 hf with hf | hf
    · exact waits_of_woken hf
    · obtain rfl := List.mem_singleton.1 hf
      rfl
  | connecting k request established frames hframes =>
    refine h.plain (.connect hs) rfl ?_ (by simp [htop]) hmu
    rcases hframes with rfl | rfl <;> simp [Frame.waits]
  | begin k request kind id =>
    exact h.plain (.call hs) rfl (by simp [Frame.waits]) (by simp [htop]) hmu
  | add k request frames hframes =>
    refine h.plain (.call hs) rfl ?_ (by simp [htop]) hmu
    rcases hframes with rfl | rfl <;> simp [Frame.waits]
  | complete k request =>
    exact h.plain (.call hs) rfl (by simp [Frame.waits]) (by simp [htop]) hmu
  | tryPop k request =>
    exact h.plain (.call hs) rfl (by simp [Frame.waits]) (by simp [htop]) hmu
  | closing k request => exact h.closeBegin rfl horderly hs
  | bind k a frames hframes =>
    refine h.plain (.call hs) rfl ?_ (by simp [htop]) hmu
    rcases hframes with rfl | rfl <;> simp [Frame.waits]

/-- A thread comes to the lock. -/
theorem await (h : s.Calm) {call : Option ℕ} {request : RpcRequest}
    (horderly : s.orderly ⟨T, .await⟩ = true)
    (htop : (s.stack T).head? = some (.send call request .composed)) :
    Calm (s.goto T [.send call request .locking]) := by
  have hnone : s.client.closers.lookup T.number = none := by
    by_contra hne
    have := (h.inside T hne).symm.trans htop
    cases this
  refine h.moved rfl (fun x hx => by cases hx) ?_ (fun _ _ => rfl) ?_ (absurd hnone)
    (fun _ _ h => h) le_rfl h.thread fun _ _ => id
  · rintro - g T' rfl hmutex
    simpa [orderly, hmutex] using horderly
  · intro g hl
    rw [show (s.goto T [.send call request .locking]).client = s.client from rfl, hnone] at hl
    cases hl

/-- `WriteMessage` was called. -/
theorem write (h : s.Calm) {call : Option ℕ} {request : RpcRequest} {outbox : Outbox}
    {place : SendPlace} {c : RpcClient} (hplain : Plain s.client c)
    (htop : (s.stack T).head? = some (.send call request .writing))
    (hplace : (Frame.send call request place).waits = false) :
    Calm (goto { (s.writeRequest M request outbox).1 with client := c } T
      [.send call request place]) := by
  have hmu := (writeRequest_fields (M := M) (s := s) request outbox).2.1
  refine h.plain hplain (stack_of_write ..) ?_ (by simp [htop]) fun T' _ h' => hmu ▸ h'
  intro f hf
  obtain rfl := List.mem_singleton.1 hf
  exact hplace

/-- **No orderly step closes a cycle.** -/
theorem step {a : Act} (h : s.Calm) (horderly : s.orderly a = true)
    (hs : LockedClient.step M s a = some t) : t.Calm := by
  obtain ⟨T, m⟩ := a
  have hsteps : Steps M s T m t := .of_step hs
  cases hsteps with
  | call k request htop =>
    exact h.plain (.refl _) rfl (by simp [Frame.waits]) (by simp [htop]) fun _ _ => id
  | client b c frames hclient hgoes => exact h.client horderly hclient hgoes
  | await call request htop => exact h.await horderly htop
  | lock call request htop hfree =>
    refine h.plain (.refl _) rfl (by simp [Frame.waits]) (by simp [htop]) fun T' hT' hmu => ?_
    exact absurd (Option.some.inj hmu).symm hT'
  | heartbeat request outbox htop =>
    exact h.write ((writeRequest_fields request outbox).1 ▸ .refl _) htop rfl
  | sent k request outbox c htop hwrite hclient => exact h.write (.call hclient) htop rfl
  | failed k request outbox e c htop hwrite hclient => exact h.write (.call hclient) htop rfl
  | code htop => exact h.plain (.refl _) rfl (by simp) (by simp [htop]) fun _ _ => id
  | waking htop => exact h.plain (.refl _) rfl (by simp) (by simp [htop]) fun _ _ => id
  | unlock call request htop =>
    refine h.plain (.refl _) rfl ?_ (by simp [htop]) fun T' _ h' => by cases h'
    cases call <;> simp [Frame.waits]
  | closed call request htop =>
    exact h.plain (.refl _) rfl (by simp) (by simp [htop]) fun T' _ h' => by cases h'

end Calm

/-- Every other step that begins a `Close`, or comes to the lock, closes a
cycle. -/
theorem cycle_of_not_orderly {M : Message RpcRequest} {s t : LockedClient} {a : Act}
    (horderly : ¬ s.orderly a = true) (hs : step M s a = some t) : t.Cycle := by
  obtain ⟨T, m⟩ := a
  have hsteps : Steps M s T m t := .of_step hs
  cases hsteps with
  | client b c frames hclient hgoes =>
    cases b with
    | closeBegin n =>
      have hn : n = T.number := by
        generalize (s.stack T).head? = top at hgoes
        cases hgoes <;> rfl
      subst hn
      cases hthread : s.client.thread with
      | none => exact absurd (by simp [orderly, hthread]) horderly
      | some g =>
        obtain rfl := RpcClient.closeBegin_cases hclient
        simp only [orderly, hthread, Bool.or_eq_true, not_or, decide_eq_true_eq] at horderly
        obtain ⟨hlive, hwaits⟩ := horderly
        refine ⟨T, g, ?_, ?_⟩
        · exact joins_iff.2 ⟨by rw [goto_client, AList.lookup_insert, hthread], hlive⟩
        · by_cases hT : T = .dispatcher g
          · exact Or.inl hT
          · refine Or.inr ?_
            simp only [ne_eq, hT, not_false_eq_true, decide_true, Bool.true_and,
              Bool.not_eq_true', Bool.not_eq_false, Bool.and_eq_true, decide_eq_true_eq]
              at hwaits
            refine ⟨?_, hwaits.2⟩
            rw [blocked, goto_stack_ne _ (Ne.symm hT)]
            exact hwaits.1
    | _ => exact absurd rfl horderly
  | await call request htop =>
    cases T with
    | user u => exact absurd rfl horderly
    | dispatcher g =>
      cases hmu : s.writeMu with
      | none => exact absurd (by simp [orderly, hmu]) horderly
      | some T' =>
        simp only [orderly, hmu, Option.any_some, Bool.not_eq_true', Bool.not_eq_false]
          at horderly
        refine ⟨T', g, horderly, Or.inr ⟨?_, hmu⟩⟩
        rw [blocked, goto_stack]
        rfl
  | _ => exact absurd rfl horderly

/-- **When a client cannot wait for itself.**  In no state of a run does a thread
inside `Close` wait for a dispatcher that waits for a mutex of that thread, or
that is that thread, if and only if every step of the run is orderly. -/
theorem acyclic_iff (M : Message RpcRequest) {es : List Act} {t : LockedClient}
    (hrun : exec (step M) {} es = some t) :
    (∀ pre post u, es = pre ++ post → exec (step M) {} pre = some u → ¬ u.Cycle) ↔
      Along (step M) (fun s a => s.orderly a = true) {} es := by
  refine exec_safe_iff_along (I := Calm) ?_ ?_ ?_ Calm.init hrun
  · exact fun s a t h horderly hs => h.step horderly hs
  · exact fun s h => h.acyclic
  · exact fun s a t _ horderly hs hsafe => hsafe (cycle_of_not_orderly horderly hs)

/-- A second user waits for the dispatcher in `Close`. -/
theorem acyclic_iff_second_user :
    ∃ t, exec (step firstMessage) {}
      (heartbeatWaits ++ [⟨.user 1, .client (.closeBegin 2)⟩]) = some t ∧ ¬ t.Cycle :=
  ⟨_, rfl, (acyclic_iff firstMessage (rfl : exec (step firstMessage) {}
    (heartbeatWaits ++ [⟨.user 1, .client (.closeBegin 2)⟩]) = some _)).2 (by decide) _ [] _
      (List.append_nil _).symm rfl⟩

/-- **A failed send waits for a heartbeat that waits for it.**  The send times out,
and `Close` waits for the dispatcher with `write_mu_` held. -/
theorem failed_send_cycle : ∃ u v t,
    exec (step firstMessage) {} heartbeatWaits = some u ∧
    step firstMessage u ⟨.user 0, .write [.sent 0, .wouldBlock]⟩ = some v ∧
    exec (step firstMessage) v
      [⟨.user 0, .client (.call (.call 0 .complete))⟩,
        ⟨.user 0, .client (.call (.call 0 .tryPop))⟩,
        ⟨.user 0, .client (.closeBegin 0)⟩] = some t ∧ t.Cycle :=
  ⟨_, _, _, rfl,
    step_failed rfl rfl (Protocol.writeMessage_timeout (by decide) (by decide)) rfl,
    rfl, .user 0, 0, rfl, Or.inr ⟨rfl, rfl⟩⟩

end LockedClient
end Client
end MiniRpc
