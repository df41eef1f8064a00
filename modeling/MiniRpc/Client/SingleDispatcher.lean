/-
# One dispatcher at a time

`Connect` and `Close` of `src/client/rpc_client.cpp` start and stop a dispatcher
thread for each connection, and all of these threads go by one flag,
`dispatcher_running_`.  `Close` clears the flag and resets the socket under
`connect_mu_` and joins the thread after it has released it; `Connect` sets the
flag again as soon as it finds no socket.

On `RpcClient.step` (`MiniRpc.Client.Lifecycle`): a dispatcher whose socket was
reset is out of its loop, or is kept out by the flag, as long as no `Connect`
starts another one before.
-/

import MiniRpc.Client.Lifecycle

namespace MiniRpc
namespace Client

open Transition

namespace RpcClient

/-- A dispatcher that has not left its loop. -/
def Live (s : RpcClient) (g : ℕ) : Prop :=
  ∃ pc, s.dispatchers.lookup g = some pc ∧ pc.isGone = false

/-- One dispatcher at most is live; one whose socket was reset finds the flag
cleared, and so does one that a `Close` waits for. -/
structure Single (s : RpcClient) : Prop where
  one : ∀ g g', s.Live g → s.Live g' → g = g'
  stale : ∀ g, s.Live g → s.sock ≠ some g → s.running = false
  joined : ∀ t g, s.closers.lookup t = some (.joining (some g)) → s.Live g → s.running = false

/-- All dispatchers have left their loops. -/
def quiet (s : RpcClient) : Bool := s.dispatchers.entries.all fun e => e.2.isGone

/-- `Connect` makes no new connection before the old dispatchers are gone. -/
def awaitsQuiet (s : RpcClient) : Act → Bool
  | .connect _ established => s.sock.isSome || !established || s.quiet
  | _ => true

variable {s t : RpcClient}

theorem quiet_iff : s.quiet = true ↔ ∀ g, ¬ s.Live g := by
  rw [quiet, List.all_eq_true]
  constructor
  · rintro h g ⟨pc, hl, hpc⟩
    have := h ⟨g, pc⟩ (AList.mem_lookup_iff.1 hl)
    exact Bool.false_ne_true (hpc.symm.trans this)
  · intro h e he
    by_contra hnot
    exact h e.1 ⟨e.2, AList.mem_lookup_iff.2 he, by simpa using hnot⟩

theorem looping_of_check {sock running : Bool} {size : ℕ} {pc pc' : DispatcherPc}
    {e : Option Event} (h : dispatcherStep sock running size pc .check = some (pc', e)) :
    pc = .looping ∧ pc' = if running then .waiting else .leaving := by
  cases pc <;> simp [dispatcherStep] at h
  exact ⟨rfl, h.1.symm⟩

/-- A dispatcher whose socket was reset does not pass its check. -/
theorem Single.check_stale (h : s.Single) {g : ℕ} (hstale : s.sock ≠ some g)
    (hs : step s (.dispatcher g .check) = some t) : t.dispatchers.lookup g = some .leaving := by
  obtain ⟨pc, pc', e, hg, hd, hmove, -⟩ := dispatcher_cases hs
  obtain ⟨rfl, rfl⟩ := looping_of_check hd
  have hrunning := h.stale g ⟨.looping, hg, rfl⟩ hstale
  rw [hmove, AList.lookup_insert, hrunning]
  rfl

/-! ### The invariant -/

/-- The numbers of the dispatchers are taken; the socket and its thread have one
number; and a `Close` waits for a thread of a socket that is gone. -/
structure Numbered (s : RpcClient) : Prop where
  single : s.Single
  fresh : ∀ g, s.Live g → g < s.generations
  thread : s.thread = s.sock
  sock : ∀ g, s.sock = some g → g < s.generations
  joining : ∀ t g, s.closers.lookup t = some (.joining (some g)) →
    g < s.generations ∧ s.sock ≠ some g

namespace Numbered

theorem init : Numbered {} where
  single := by
    constructor
    · rintro g g' ⟨pc, hl, -⟩
      cases hl
    · rintro g ⟨pc, hl, -⟩
      cases hl
    · rintro c g hc
      cases hc
  fresh := by
    rintro g ⟨pc, hl, -⟩
    cases hl
  thread := rfl
  sock := by simp
  joining := by simp

/-- The dispatchers that are live, and the flag, may become fewer. -/
theorem mono (h : s.Numbered) (hlive : ∀ g, t.Live g → s.Live g)
    (hrunning : s.running = false → t.running = false) (hthread : t.thread = s.thread)
    (hsock : t.sock = s.sock) (hgen : t.generations = s.generations)
    (hclosers : ∀ c g, t.closers.lookup c = some (.joining (some g)) →
      s.closers.lookup c = some (.joining (some g))) : t.Numbered where
  single := {
    one := fun g g' hg hg' => h.single.one g g' (hlive g hg) (hlive g' hg')
    stale := fun g hg hne => hrunning (h.single.stale g (hlive g hg) (hsock ▸ hne))
    joined := fun c g hc hg => hrunning (h.single.joined c g (hclosers c g hc) (hlive g hg)) }
  fresh := fun g hg => hgen ▸ h.fresh g (hlive g hg)
  thread := by rw [hthread, hsock, h.thread]
  sock := fun g hg => hgen ▸ h.sock g (hsock ▸ hg)
  joining := fun c g hc => by
    rw [hgen, hsock]
    exact h.joining c g (hclosers c g hc)

/-- A dispatcher that moves does not come back into its loop. -/
theorem gone_of_gone {sock running : Bool} {size : ℕ} {pc pc' : DispatcherPc} {a : DispatcherStep}
    {e : Option Event} (h : dispatcherStep sock running size pc a = some (pc', e))
    (hpc : pc.isGone = true) : pc'.isGone = true := by
  cases pc with
  | leaving =>
    cases a <;> simp [dispatcherStep] at h
    rw [← h.1]
    rfl
  | exited => cases a <;> simp [dispatcherStep] at h
  | _ => cases hpc

theorem dispatcher {g : ℕ} {a : DispatcherStep} (h : s.Numbered)
    (hs : RpcClient.step s (.dispatcher g a) = some t) : t.Numbered := by
  obtain ⟨hthread, hgen⟩ := dispatcher_frame hs
  obtain ⟨pc, pc', e, hg, hd, hmove, hsock, hclosers, hrunning, -⟩ := dispatcher_cases hs
  refine h.mono ?_ ?_ hthread hsock hgen fun c g' hc => hclosers ▸ hc
  · rintro g' ⟨pc₁, hl, hlive⟩
    rw [hmove] at hl
    by_cases hgg : g' = g
    · subst hgg
      rw [AList.lookup_insert] at hl
      obtain rfl := Option.some.inj hl
      refine ⟨pc, hg, ?_⟩
      by_contra hnot
      have := gone_of_gone hd (by simpa using hnot)
      exact Bool.false_ne_true (hlive.symm.trans this)
    · rw [AList.lookup_insert_ne hgg] at hl
      exact ⟨pc₁, hl, hlive⟩
  · rcases hrunning with ⟨-, h⟩ | ⟨-, h⟩
    · exact fun _ => h
    · exact fun hs => h.trans hs

/-- A new connection, when no dispatcher is live. -/
theorem connect {k : ℕ} {established : Bool} (h : s.Numbered)
    (hquiet : s.awaitsQuiet (.connect k established) = true)
    (hs : RpcClient.step s (.connect k established) = some t) : t.Numbered := by
  rcases connect_cases hs with ⟨-, rfl⟩ | ⟨hsock, hnew, rfl⟩ | rfl
  · exact h.mono (fun _ => id) id rfl rfl rfl fun _ _ => id
  · have hnone : ∀ g, ¬ s.Live g := by
      refine quiet_iff.1 ?_
      simpa [awaitsQuiet, hsock, hnew] using hquiet
    have hlive : ∀ g, Live { s with
        admitted := k :: s.admitted
        sock := some s.generations
        thread := some s.generations
        running := true
        generations := s.generations + 1
        dispatchers := s.dispatchers.insert s.generations .starting } g → g = s.generations := by
      rintro g ⟨pc, hl, hpc⟩
      by_contra hne
      exact hnone g ⟨pc, (AList.lookup_insert_ne hne).symm.trans hl, hpc⟩
    refine ⟨⟨?_, ?_, ?_⟩, ?_, rfl, ?_, ?_⟩
    · exact fun g g' hg hg' => (hlive g hg).trans (hlive g' hg').symm
    · exact fun g hg hne => absurd (congrArg some (hlive g hg).symm) hne
    · intro c g hc hg
      exact absurd (h.joining c g hc).1 (by rw [hlive g hg]; exact lt_irrefl _)
    · intro g hg
      rw [hlive g hg]
      exact Nat.lt_succ_self _
    · intro g hg
      rw [← Option.some.inj hg]
      exact Nat.lt_succ_self _
    · intro c g hc
      have hlt := (h.joining c g hc).1
      refine ⟨Nat.lt_succ_of_lt hlt, fun heq => ?_⟩
      have := Option.some.inj heq
      omega
  · exact h

theorem closeBegin {c : ℕ} (h : s.Numbered) (hs : RpcClient.step s (.closeBegin c) = some t) :
    t.Numbered := by
  obtain rfl := closeBegin_cases hs
  refine ⟨⟨h.single.one, fun _ _ _ => rfl, fun _ _ _ _ => rfl⟩, h.fresh, rfl, by simp, ?_⟩
  intro c' g hc'
  refine ⟨?_, by simp⟩
  by_cases hcc : c' = c
  · rw [hcc] at hc'
    dsimp only at hc'
    rw [AList.lookup_insert] at hc'
    have hthread := Closing.joining.inj (Option.some.inj hc')
    exact h.sock g (h.thread.symm.trans hthread)
  · dsimp only at hc'
    rw [AList.lookup_insert_ne hcc] at hc'
    exact (h.joining c' g hc').1

/-- A thread inside `Close` goes on after its join. -/
theorem closing (h : s.Numbered) {closers : Table ℕ Closing} {calls : State}
    (hclosers : ∀ c g, closers.lookup c = some (.joining (some g)) →
      s.closers.lookup c = some (.joining (some g))) :
    Numbered { s with closers, calls } :=
  h.mono (fun _ => id) id rfl rfl rfl hclosers

/-- **No step but a new connection beside a live dispatcher breaks the
numbering.** -/
theorem step {a : Act} (h : s.Numbered) (hquiet : s.awaitsQuiet a = true)
    (hs : RpcClient.step s a = some t) : t.Numbered := by
  cases a with
  | connect k established => exact h.connect hquiet hs
  | closeBegin c => exact h.closeBegin hs
  | closeJoin c =>
    obtain rfl := closeJoin_cases hs
    refine h.closing fun c' g hc' => ?_
    by_cases hcc : c' = c
    · rw [hcc, AList.lookup_insert] at hc'
      cases hc'
    · rwa [AList.lookup_insert_ne hcc] at hc'
  | closeFail c =>
    obtain ⟨calls, -, rfl⟩ := closeFail_cases hs
    refine h.closing fun c' g hc' => ?_
    by_cases hcc : c' = c
    · rw [hcc, AList.lookup_erase] at hc'
      cases hc'
    · rwa [AList.lookup_erase_ne hcc] at hc'
  | dispatcher g a => exact h.dispatcher hs
  | call e =>
    obtain ⟨-, calls, -, rfl⟩ := call_cases hs
    exact h.closing fun _ _ => id

end Numbered

/-- A dispatcher of another socket is not live while there is a socket. -/
def Current (s : RpcClient) : Prop := ∀ g i, s.Live g → s.sock = some i → g = i

theorem Current.init : Current {} := by
  rintro g i - h
  cases h

/-- The dispatcher of the new socket is the only live one, if the others have left
before. -/
theorem Current.step {a : Act} (h : s.Current) (hquiet : s.awaitsQuiet a = true)
    (hs : RpcClient.step s a = some t) : t.Current := by
  cases a with
  | connect k established =>
    rcases connect_cases hs with ⟨-, rfl⟩ | ⟨hsock, hnew, rfl⟩ | rfl
    · exact h
    · have hnone : ∀ g, ¬ s.Live g := by
        refine quiet_iff.1 ?_
        simpa [awaitsQuiet, hsock, hnew] using hquiet
      rintro g i ⟨pc, hl, hpc⟩ hi
      obtain rfl := Option.some.inj hi
      by_contra hne
      exact hnone g ⟨pc, (AList.lookup_insert_ne hne).symm.trans hl, hpc⟩
    · exact h
  | closeBegin c =>
    obtain rfl := closeBegin_cases hs
    rintro g i - hi
    cases hi
  | closeJoin c =>
    obtain rfl := closeJoin_cases hs
    exact h
  | closeFail c =>
    obtain ⟨calls, -, rfl⟩ := closeFail_cases hs
    exact h
  | dispatcher g a =>
    obtain ⟨pc, pc', e, hg, hd, hmove, hsock, -⟩ := dispatcher_cases hs
    rintro g' i ⟨pc₁, hl, hlive⟩ hi
    refine h g' i ?_ (hsock ▸ hi)
    rw [hmove] at hl
    by_cases hgg : g' = g
    · subst hgg
      rw [AList.lookup_insert] at hl
      obtain rfl := Option.some.inj hl
      refine ⟨pc, hg, ?_⟩
      by_contra hnot
      have := Numbered.gone_of_gone hd (by simpa using hnot)
      exact Bool.false_ne_true (hlive.symm.trans this)
    · rw [AList.lookup_insert_ne hgg] at hl
      exact ⟨pc₁, hl, hlive⟩
  | call e =>
    obtain ⟨-, calls, -, rfl⟩ := call_cases hs
    exact h

/-- A new connection beside a live dispatcher makes two of them. -/
theorem not_single {a : Act} (h : s.Numbered) (hquiet : ¬ s.awaitsQuiet a = true) :
    ∃ t, step s a = some t ∧ ¬ t.Single := by
  cases a with
  | connect k established =>
    simp only [awaitsQuiet, Bool.or_eq_true, not_or, Bool.not_eq_true'] at hquiet
    obtain ⟨⟨hsock, hnew⟩, hbusy⟩ := hquiet
    obtain ⟨g, hlive⟩ : ∃ g, s.Live g := by
      by_contra hnone
      exact hbusy (quiet_iff.2 fun g hg => hnone ⟨g, hg⟩)
    have hne : g ≠ s.generations := (h.fresh g hlive).ne
    have hstep : ∃ t, step s (.connect k established) = some t ∧
        t.dispatchers = s.dispatchers.insert s.generations .starting := by
      simp only [step, control, if_neg hsock]
      rw [if_pos (by simpa using hnew)]
      exact ⟨_, rfl, rfl⟩
    obtain ⟨t, ht, hd⟩ := hstep
    refine ⟨t, ht, fun hS => hne (hS.one g s.generations ?_ ?_)⟩
    · obtain ⟨pc, hl, hpc⟩ := hlive
      exact ⟨pc, by rw [hd, AList.lookup_insert_ne hne]; exact hl, hpc⟩
    · exact ⟨.starting, by rw [hd, AList.lookup_insert], rfl⟩
  | closeBegin c => exact absurd rfl hquiet
  | closeJoin c => exact absurd rfl hquiet
  | closeFail c => exact absurd rfl hquiet
  | dispatcher g a => exact absurd rfl hquiet
  | call e => exact absurd rfl hquiet

/-- **When one flag is enough.**  In every state of a run at most one dispatcher
is live, a dispatcher whose socket `Close` has reset finds
`dispatcher_running_` cleared for as long as it is live, and a `Close` joins
only such a dispatcher, if and only if no `Connect` of the run makes a new
connection before every older dispatcher has left its loop. -/
theorem single_iff {es : List Act} :
    (∀ pre post t, es = pre ++ post → exec step {} pre = some t → t.Single) ↔
      Along step (fun s a => s.awaitsQuiet a = true) {} es := by
  refine safe_iff_along (I := Numbered) ?_ ?_ ?_ Numbered.init
  · exact fun s a t h hquiet hs => h.step hquiet hs
  · exact fun s h => h.single
  · exact fun s a h hquiet => not_single h hquiet

/-- **A reset dispatcher goes on.**  `Close` clears the flag and resets socket 0,
and waits for dispatcher 0; before this dispatcher tests the flag a caller
reconnects.  The old dispatcher passes its check, beside the new one, and
`Close` waits for it. -/
theorem stale_dispatcher : ∃ s t,
    exec step {} [.connect 0 true, .dispatcher 0 .start, .dispatcher 0 .ready, .closeBegin 7,
      .connect 1 true] = some s ∧
    s.sock = some 1 ∧ s.closers.lookup 7 = some (.joining (some 0)) ∧
    step s (.dispatcher 0 .check) = some t ∧
    t.dispatchers.lookup 0 = some .waiting ∧ t.dispatchers.lookup 1 = some .starting :=
  ⟨_, _, rfl, rfl, rfl, rfl, rfl, rfl⟩

end RpcClient
end Client
end MiniRpc
