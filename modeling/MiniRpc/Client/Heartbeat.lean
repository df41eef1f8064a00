/-
# The heartbeat of a connection

The heartbeat logic of `DispatcherLoop` in `src/client/rpc_client.cpp`, with
`heartbeat_interval` and `heartbeat_timeout` of `RpcClientOptions`.  Two time
stamps decide what a tick does, a wait of the loop that timed out:
`last_activity_time_`, which every piece of data from the server sets, and
`last_heartbeat_time_`, which only a heartbeat sets.  `docs/heartbeat_design.md`
tells why there are two.

The two options count seconds, the stamps are of a clock that counts nanoseconds.  A
comparison of the two brings the seconds to nanoseconds in 64 bits, which wrap for
an option beyond 292 years: a timeout of `2^63 - 1` seconds is then `-10^9`
nanoseconds, and the first tick finds a live connection to be inactive
(`timeout_wraps`).

For options that fit, `heartbeats_regular` says what comes of it, for every sequence
of ticks and data: heartbeats keep their distance, a silent server is found out by the
next tick, and one that answers in time never is.  `iteration` is what a tick is for
the client (`MiniRpc.Client.Lifecycle`).
-/

import MiniRpc.Client.Lifecycle

namespace MiniRpc
namespace Client

open Transition

/-- The part of `RpcClientOptions` that is about heartbeats, in seconds; `0` switches
one off, as a negative number would. -/
structure HeartbeatOptions where
  heartbeatInterval : ℕ := 30
  heartbeatTimeout : ℕ := 45

/-- The nanoseconds of `std::chrono::seconds`, an `int64_t`. -/
def nanoseconds (seconds : ℕ) : ℤ := (seconds * 10 ^ 9 : ℤ).bmod (2 ^ 64)

/-- The nanoseconds of the two options fit in 64 bits. -/
structure HeartbeatOptions.Fits (o : HeartbeatOptions) : Prop where
  interval_le : o.heartbeatInterval ≤ 9223372036
  timeout_le : o.heartbeatTimeout ≤ 9223372036

/-- What `DispatcherLoop` keeps for the heartbeats, times in nanoseconds; `clock` is
the time of the last event, and the connection was made at the first one. -/
structure Heartbeat where
  lastActivity : Time
  lastHeartbeat : Time
  running : Bool := true
  clock : Time
  deriving DecidableEq, Repr

namespace Heartbeat

/-- A dispatcher enters its loop. -/
def init (start : Time) : Heartbeat :=
  { lastActivity := start, lastHeartbeat := start, clock := start }

/-- What happens to a dispatcher in its loop. -/
inductive Act where
  /-- `WaitOnce` times out. -/
  | tick (now : Time)
  /-- `recv` returns data. -/
  | received (now : Time)
  /-- `HandleReadableFrames` has taken frames from the buffer. -/
  | decoded (now : Time)
  deriving DecidableEq, Repr

/-- When it happens. -/
def Act.time : Act → Time
  | .tick now => now
  | .received now => now
  | .decoded now => now

/-- Data arrives. -/
def Act.arrives : Act → Bool
  | .tick _ => false
  | _ => true

/-- The first test of a tick: nothing was received for the timeout. -/
def inactive (o : HeartbeatOptions) (s : Heartbeat) (now : Time) : Bool :=
  0 < o.heartbeatTimeout &&
    decide (nanoseconds o.heartbeatTimeout ≤ (now : ℤ) - s.lastActivity)

/-- The other tests: nothing was received for the interval, and no heartbeat was
sent. -/
def beats (o : HeartbeatOptions) (s : Heartbeat) (now : Time) : Bool :=
  0 < o.heartbeatInterval &&
    decide (nanoseconds o.heartbeatInterval ≤ (now : ℤ) - s.lastActivity) &&
    decide (nanoseconds o.heartbeatInterval ≤ (now : ℤ) - s.lastHeartbeat)

/-- One event, `none` once the dispatcher has stopped; the clock does not go
back. -/
def step (o : HeartbeatOptions) (s : Heartbeat) (a : Act) : Option Heartbeat :=
  if s.running = false ∨ a.time < s.clock then none
  else
    match a with
    | .tick now =>
      if s.inactive o now then some { s with running := false, clock := now }
      else if s.beats o now then some { s with lastHeartbeat := now, clock := now }
      else some { s with clock := now }
    | .received now => some { s with lastActivity := now, clock := now }
    | .decoded now => some { s with lastActivity := now, clock := now }

/-- The time of the heartbeat that an event sends. -/
def beat (o : HeartbeatOptions) (s : Heartbeat) : Act → Option Time
  | .tick now => if !s.inactive o now && s.beats o now then some now else none
  | _ => none

/-- The connection is found to be inactive. -/
def declares (o : HeartbeatOptions) (s : Heartbeat) : Act → Bool
  | .tick now => s.inactive o now
  | _ => false

/-- A tick, as the steps of the dispatcher. -/
def iteration (o : HeartbeatOptions) (s : Heartbeat) (now : Time) : List DispatcherStep :=
  [.check, .timeout now] ++
    if s.inactive o now then [.inactive, .stop] else [.tick (s.beats o now)]

/-- The ticks are at most `gap` apart, the first one no later after `last`. -/
def Regular (gap : Time) (last : Time) : List Act → Prop
  | [] => True
  | .tick now :: es => now ≤ last + gap ∧ Regular gap now es
  | _ :: es => Regular gap last es

/-- Data arrives no later than `limit`, if the events go on so long. -/
def Arrives (limit : Time) (es : List Act) : Prop :=
  (∃ a ∈ es, a.arrives = true ∧ a.time ≤ limit) ∨ ∀ a ∈ es, a.time ≤ limit

/-- After each heartbeat data arrives no later than `delay`. -/
def Answered (o : HeartbeatOptions) (delay : Time) (s : Heartbeat) : List Act → Prop
  | [] => True
  | a :: es =>
    (∀ h, s.beat o a = some h → Arrives (h + delay) es) ∧
      ∀ t, step o s a = some t → Answered o delay t es

variable {o : HeartbeatOptions} {s t : Heartbeat} {a : Act} {es : List Act}

/-! ### What an event does -/

theorem nanoseconds_eq {seconds : ℕ} (h : seconds ≤ 9223372036) :
    nanoseconds seconds = seconds * 10 ^ 9 := by
  unfold nanoseconds
  exact Int.bmod_eq_of_le_mul_two (by omega) (by omega)

/-- Below the wrap, the comparison is that of the times. -/
theorem nanoseconds_le_sub_iff {seconds : ℕ} {now last : Time} (h : seconds ≤ 9223372036) :
    nanoseconds seconds ≤ (now : ℤ) - last ↔ last + 10 ^ 9 * seconds ≤ now := by
  rw [nanoseconds_eq h]
  unfold Time at *
  omega

theorem inactive_iff {now : Time} (hfits : o.Fits) :
    s.inactive o now = true ↔
      0 < o.heartbeatTimeout ∧ s.lastActivity + 10 ^ 9 * o.heartbeatTimeout ≤ now := by
  simp [inactive, nanoseconds_le_sub_iff hfits.timeout_le]

theorem beats_iff {now : Time} (hfits : o.Fits) :
    s.beats o now = true ↔ 0 < o.heartbeatInterval ∧
      s.lastActivity + 10 ^ 9 * o.heartbeatInterval ≤ now ∧
      s.lastHeartbeat + 10 ^ 9 * o.heartbeatInterval ≤ now := by
  simp [beats, and_assoc, nanoseconds_le_sub_iff hfits.interval_le]

theorem beats_of_beat {h : Time} (hbeat : s.beat o a = some h) : s.beats o h = true := by
  cases a with
  | tick now =>
    simp only [beat] at hbeat
    split_ifs at hbeat with hboth
    obtain rfl := Option.some.inj hbeat
    exact (Bool.and_eq_true_iff.1 hboth).2
  | received now => cases hbeat
  | decoded now => cases hbeat

/-- **What an event does**: data sets the one stamp, a heartbeat the other, and a
tick that finds the connection inactive ends it. -/
theorem step_cases (h : step o s a = some t) :
    s.running = true ∧ s.clock ≤ a.time ∧ t.clock = a.time ∧
      (a.arrives = true ∧ t.lastActivity = a.time ∧ t.lastHeartbeat = s.lastHeartbeat ∧
          t.running = true ∧ s.beat o a = none ∧ s.declares o a = false ∨
        a = .tick a.time ∧ t.lastActivity = s.lastActivity ∧
          (s.declares o a = true ∧ t.lastHeartbeat = s.lastHeartbeat ∧ t.running = false ∧
              s.beat o a = none ∨
            s.declares o a = false ∧ t.running = true ∧
              (s.beats o a.time = true ∧ s.beat o a = some a.time ∧ t.lastHeartbeat = a.time ∨
                s.beats o a.time = false ∧ s.beat o a = none ∧
                  t.lastHeartbeat = s.lastHeartbeat))) := by
  unfold step at h
  split_ifs at h with hgo
  simp only [not_or, Bool.not_eq_false, not_lt] at hgo
  refine ⟨hgo.1, hgo.2, ?_⟩
  cases a with
  | tick now =>
    dsimp only at h
    split_ifs at h with hinactive hbeats
    · obtain rfl := Option.some.inj h
      simp [Act.time, declares, beat, hinactive]
    · obtain rfl := Option.some.inj h
      simp [Act.time, Act.arrives, declares, beat, hinactive, hbeats, hgo.1]
    · obtain rfl := Option.some.inj h
      simp [Act.time, Act.arrives, declares, beat, hinactive, hbeats, hgo.1]
  | received now =>
    obtain rfl := Option.some.inj h
    simp [Act.time, Act.arrives, declares, beat, hgo.1]
  | decoded now =>
    obtain rfl := Option.some.inj h
    simp [Act.time, Act.arrives, declares, beat, hgo.1]

/-! ### What the stamps remember -/

/-- What the two stamps say of the events so far. -/
structure Traced (o : HeartbeatOptions) (start : Time) (es : List Act) (s : Heartbeat) : Prop where
  activity_le : s.lastActivity ≤ s.clock
  arrival_le : ∀ a ∈ es, a.arrives = true → a.time ≤ s.lastActivity
  activity : s.lastActivity = start ∨ ∃ a ∈ es, a.arrives = true ∧ a.time = s.lastActivity
  beat_le : ∀ h ∈ observe (step o) (beat o) (init start) es, h ≤ s.lastHeartbeat
  spaced : (observe (step o) (beat o) (init start) es).Pairwise fun h h' =>
    h + 10 ^ 9 * o.heartbeatInterval ≤ h'

theorem Traced.step {start : Time} (hfits : o.Fits)
    (hrun : exec (Heartbeat.step o) (init start) es = some s)
    (h : Traced o start es s) (hs : Heartbeat.step o s a = some t) :
    Traced o start (es ++ [a]) t := by
  obtain ⟨-, hclock, hclock', hcases⟩ := step_cases hs
  have hobserve := observe_concat (f := beat o) (e := a) hrun
  rcases hcases with ⟨harrives, hactivity, hheartbeat, -, hbeat, -⟩ |
    ⟨ha, hactivity, hcases⟩
  · rw [hbeat, Option.toList_none, List.append_nil] at hobserve
    refine ⟨?_, ?_, ?_, ?_, ?_⟩
    · rw [hactivity, hclock']
    · intro x hx hxa
      rw [hactivity]
      rcases List.mem_append.1 hx with hx | hx
      · exact ((h.arrival_le x hx hxa).trans h.activity_le).trans hclock
      · rw [List.mem_singleton.1 hx]
    · exact Or.inr ⟨a, by simp, harrives, hactivity.symm⟩
    · rw [hobserve, hheartbeat]
      exact h.beat_le
    · rw [hobserve]
      exact h.spaced
  · have harrival : ∀ x ∈ es ++ [a], x.arrives = true → x ∈ es := by
      intro x hx hxa
      rcases List.mem_append.1 hx with hx | hx
      · exact hx
      · rw [List.mem_singleton.1 hx, ha] at hxa
        cases hxa
    have hstamps : ∀ hs : List Time,
        observe (Heartbeat.step o) (beat o) (init start) (es ++ [a]) = hs →
        (∀ h ∈ hs, h ≤ t.lastHeartbeat) →
        hs.Pairwise (fun h h' => h + 10 ^ 9 * o.heartbeatInterval ≤ h') →
        Traced o start (es ++ [a]) t := by
      intro hs hobs hle hspaced
      refine ⟨?_, ?_, ?_, hobs ▸ hle, hobs ▸ hspaced⟩
      · rw [hactivity, hclock']
        exact h.activity_le.trans hclock
      · intro x hx hxa
        rw [hactivity]
        exact h.arrival_le x (harrival x hx hxa) hxa
      · rw [hactivity]
        exact h.activity.imp_right fun ⟨x, hx, hxa⟩ => ⟨x, List.mem_append_left _ hx, hxa⟩
    rcases hcases with ⟨-, hheartbeat, -, hbeat⟩ | ⟨-, -, ⟨hbeats, hbeat, hheartbeat⟩ |
      ⟨-, hbeat, hheartbeat⟩⟩
    · rw [hbeat, Option.toList_none, List.append_nil] at hobserve
      exact hstamps _ hobserve (hheartbeat ▸ h.beat_le) h.spaced
    · rw [hbeat, Option.toList_some] at hobserve
      have hafter : s.lastHeartbeat + 10 ^ 9 * o.heartbeatInterval ≤ a.time :=
        ((beats_iff hfits).1 hbeats).2.2
      refine hstamps _ hobserve ?_ ?_
      · intro b hb
        rw [hheartbeat]
        rcases List.mem_append.1 hb with hb | hb
        · exact ((h.beat_le b hb).trans (Nat.le_add_right ..)).trans hafter
        · exact (List.mem_singleton.1 hb).le
      · rw [List.pairwise_append]
        refine ⟨h.spaced, List.pairwise_singleton .., ?_⟩
        intro b hb b' hb'
        rw [List.mem_singleton.1 hb']
        exact (Nat.add_le_add_right (h.beat_le b hb) _).trans hafter
    · rw [hbeat, Option.toList_none, List.append_nil] at hobserve
      exact hstamps _ hobserve (hheartbeat ▸ h.beat_le) h.spaced

theorem traced {start : Time} (hfits : o.Fits) (hrun : exec (step o) (init start) es = some s) :
    Traced o start es s := by
  have h := @exec_history _ _ (step o) (init start)
    (fun es s => exec (step o) (init start) es = some s ∧ Traced o start es s) ?_ ?_ es s hrun
  · exact h.2
  · refine ⟨rfl, le_rfl, ?_, Or.inl rfl, ?_, List.Pairwise.nil⟩
    · intro a ha
      cases ha
    · intro h hh
      cases hh
  · rintro es s a t ⟨hs, h⟩ hstep
    exact ⟨exec_concat.2 ⟨s, hs, hstep⟩, h.step hfits hs hstep⟩

/-- **A heartbeat comes after a silence of the interval.** -/
theorem silence_of_beat {start h : Time} {pre : List Act} (hfits : o.Fits)
    (hrun : exec (step o) (init start) pre = some s) (hbeat : s.beat o a = some h) :
    ∀ x ∈ pre, x.arrives = true → x.time + 10 ^ 9 * o.heartbeatInterval ≤ h := by
  intro x hx hxa
  obtain ⟨-, hsilent, -⟩ := (beats_iff hfits).1 (beats_of_beat hbeat)
  have hlast := (traced hfits hrun).arrival_le x hx hxa
  exact (Nat.add_le_add_right hlast _).trans hsilent

/-- **A silence of the timeout is found out** by the next tick. -/
theorem inactive_of_silence {start now : Time} {pre : List Act} (hT : 0 < o.heartbeatTimeout)
    (hfits : o.Fits) (hrun : exec (step o) (init start) pre = some s)
    (hstart : start + 10 ^ 9 * o.heartbeatTimeout ≤ now)
    (hsilent : ∀ x ∈ pre, x.arrives = true → x.time + 10 ^ 9 * o.heartbeatTimeout ≤ now) :
    s.inactive o now = true := by
  have h := traced hfits hrun
  have hle : s.lastActivity + 10 ^ 9 * o.heartbeatTimeout ≤ now := by
    rcases h.activity with heq | ⟨x, hx, hxa, heq⟩
    · rw [heq]
      exact hstart
    · rw [← heq]
      exact hsilent x hx hxa
  exact (inactive_iff hfits).2 ⟨hT, hle⟩

/-! ### A server that answers in time -/

/-- The events of a run come no earlier than the clock is. -/
theorem clock_le_time (h : exec (step o) s es = some t) : ∀ a ∈ es, s.clock ≤ a.time := by
  induction es generalizing s with
  | nil =>
    intro a ha
    cases ha
  | cons x es ih =>
    obtain ⟨u, hu, hex⟩ := Option.bind_eq_some_iff.1 h
    obtain ⟨-, hle, hclock, -⟩ := step_cases hu
    intro a ha
    rcases List.mem_cons.1 ha with rfl | ha
    · exact hle
    · exact hle.trans (hclock ▸ ih hex a ha)

/-- Why the next tick will not find the connection inactive: it comes before the
timeout since the last tick was close to the last data, or since data is to arrive
for a heartbeat that was sent in between. -/
def Safe (o : HeartbeatOptions) (gap delay last : Time) (s : Heartbeat) (es : List Act) : Prop :=
  last < s.lastActivity + 10 ^ 9 * o.heartbeatInterval ∧ s.lastHeartbeat ≤ s.lastActivity ∨
    ∃ h, h < s.lastActivity + 10 ^ 9 * o.heartbeatInterval + gap ∧ Arrives (h + delay) es

/-- Data that is to arrive after a tick arrives in the events after it, and until
then the limit lies ahead. -/
theorem Arrives.of_tick {limit now : Time} (h : Arrives limit (.tick now :: es))
    (hle : ∀ a ∈ es, now ≤ a.time) : Arrives limit es ∧ now ≤ limit := by
  rcases h with ⟨x, hx, hxa, hxt⟩ | hall
  · rcases List.mem_cons.1 hx with rfl | hx
    · cases hxa
    · exact ⟨Or.inl ⟨x, hx, hxa, hxt⟩, (hle x hx).trans hxt⟩
  · exact ⟨Or.inr fun x hx => hall x (List.mem_cons_of_mem _ hx), hall _ (List.mem_cons_self ..)⟩

/-- A tick that is safe does not find the connection inactive, and leaves the next
one safe. -/
theorem Safe.tick {gap delay last now : Time} (hI : 0 < o.heartbeatInterval) (hfits : o.Fits)
    (hlt : 10 ^ 9 * o.heartbeatInterval + gap + delay < 10 ^ 9 * o.heartbeatTimeout)
    (hnow : now ≤ last + gap)
    (hanswered : ∀ h, s.beat o (.tick now) = some h → Arrives (h + delay) es)
    (hsafe : Safe o gap delay last s (.tick now :: es)) (hs : step o s (.tick now) = some t)
    (hrun : ∀ a ∈ es, now ≤ a.time) : s.inactive o now = false ∧ Safe o gap delay now t es := by
  unfold Safe Time at *
  have hbefore : now < s.lastActivity + 10 ^ 9 * o.heartbeatTimeout := by
    rcases hsafe with ⟨hclose, -⟩ | ⟨h, hh, harrives⟩
    · omega
    · have hlimit : now ≤ h + delay := (harrives.of_tick hrun).2
      omega
  have hquiet : s.inactive o now = false := by
    rw [Bool.eq_false_iff]
    intro hinactive
    exact absurd ((inactive_iff hfits).1 hinactive).2 (not_le.2 hbefore)
  obtain ⟨-, -, -, ⟨⟨⟩, -⟩ | ⟨-, hactivity, hcases⟩⟩ := step_cases hs
  refine ⟨hquiet, ?_⟩
  rcases hcases with ⟨hdeclares, -⟩ | ⟨-, -, ⟨hbeats, hbeat, -⟩ | ⟨hbeats, -, hsame⟩⟩
  · rw [declares, hquiet] at hdeclares
    cases hdeclares
  · -- a heartbeat was sent, or one before it is still to be answered
    right
    rw [hactivity]
    rcases hsafe with ⟨hclose, -⟩ | ⟨h, hh, harrives⟩
    · exact ⟨now, by omega, hanswered now hbeat⟩
    · exact ⟨h, hh, (harrives.of_tick hrun).1⟩
  · rw [hactivity, hsame]
    rcases hsafe with ⟨hclose, hheartbeat⟩ | ⟨h, hh, harrives⟩
    · -- no heartbeat was due yet
      refine Or.inl ⟨?_, hheartbeat⟩
      by_contra hlate
      have hdue : s.beats o now = true :=
        (beats_iff hfits).2 ⟨hI, by unfold Time; omega, by unfold Time; omega⟩
      exact absurd hdue (by rw [show s.beats o now = false from hbeats]; simp)
    · exact Or.inr ⟨h, hh, (harrives.of_tick hrun).1⟩

/-- **A connection whose heartbeats are answered in time is never found to be
inactive.** -/
theorem never_declares {gap delay last : Time} (hI : 0 < o.heartbeatInterval) (hfits : o.Fits)
    (hlt : 10 ^ 9 * o.heartbeatInterval + gap + delay < 10 ^ 9 * o.heartbeatTimeout)
    (hregular : Regular gap last es) (hanswered : Answered o delay s es)
    (hlast : last ≤ s.clock) (hheartbeat : s.lastHeartbeat ≤ s.clock)
    (hsafe : Safe o gap delay last s es) (hrun : exec (step o) s es = some t) :
    Along (step o) (fun s a => s.declares o a = false) s es := by
  induction es generalizing s last with
  | nil => exact trivial
  | cons a es ih =>
    obtain ⟨u, hu, hex⟩ := Option.bind_eq_some_iff.1 hrun
    obtain ⟨-, hle, hclock, hcases⟩ := step_cases hu
    have hafter : ∀ x ∈ es, a.time ≤ x.time := hclock ▸ clock_le_time hex
    rcases hcases with ⟨harrives, hactivity, hsame, -, -, hquiet⟩ | ⟨ha, hactivity, hcases⟩
    · -- data: the last tick was before it
      have hregular' : Regular gap last es := by
        cases a with
        | tick now => cases harrives
        | received now => exact hregular
        | decoded now => exact hregular
      refine Along.cons hquiet hu (ih hregular' (hanswered.2 u hu) ?_ ?_ ?_ hex)
      · rw [hclock]
        exact hlast.trans hle
      · rw [hsame, hclock]
        exact hheartbeat.trans hle
      · refine Or.inl ⟨?_, ?_⟩
        · rw [hactivity]
          exact (hlast.trans hle).trans_lt (Nat.lt_add_of_pos_right (by omega))
        · rw [hsame, hactivity]
          exact hheartbeat.trans hle
    · cases a with
      | tick now =>
        obtain ⟨hquiet, hsafe'⟩ := hsafe.tick hI hfits hlt hregular.1 hanswered.1 hu hafter
        refine Along.cons hquiet hu (ih hregular.2 (hanswered.2 u hu) hclock.ge ?_ hsafe' hex)
        rw [hclock]
        rcases hcases with ⟨-, hsame, -⟩ | ⟨-, -, ⟨-, -, hnew⟩ | ⟨-, -, hsame⟩⟩
        · exact hsame ▸ hheartbeat.trans hle
        · exact hnew.le
        · exact hsame ▸ hheartbeat.trans hle
      | received now => cases ha
      | decoded now => cases ha

/-! ### What a tick is for the client -/

section Client

variable {c : RpcClient} {g : ℕ} {now : Time}

/-- A step that the dispatcher is at, with an event that can happen. -/
theorem exists_step {pc pc' : DispatcherPc} {a : DispatcherStep} {e : Option Event}
    (hg : c.dispatchers.lookup g = some pc)
    (hd : RpcClient.dispatcherStep c.sock.isSome c.running c.calls.pending.size pc a =
      some (pc', e)) (hcalls : ∀ x, e = some x → ∃ calls, Client.step c.calls x = some calls) :
    ∃ c', c.step (.dispatcher g a) = some c' ∧ c'.dispatchers.lookup g = some pc' ∧
      (a = .stop ∧ c'.running = false ∨ a ≠ .stop ∧ c'.running = c.running) ∧
      (e = none ∧ c'.calls = c.calls ∨
        ∃ x, e = some x ∧ Client.step c.calls x = some c'.calls) := by
  obtain ⟨c', hc'⟩ : ∃ c', c.step (.dispatcher g a) = some c' := by
    simp only [RpcClient.step, RpcClient.control, hg, hd, Option.map_some]
    cases e with
    | none => exact ⟨_, rfl⟩
    | some x =>
      obtain ⟨calls, hx⟩ := hcalls x rfl
      exact ⟨_, Option.map_eq_some_iff.2 ⟨calls, hx, rfl⟩⟩
  obtain ⟨pc₀, pc₀', e₀, hg₀, hd₀, hmove, -, -, hrunning, hevent⟩ := RpcClient.dispatcher_cases hc'
  obtain rfl := Option.some.inj (hg.symm.trans hg₀)
  obtain ⟨rfl, rfl⟩ := Prod.mk.inj (Option.some.inj (hd.symm.trans hd₀))
  exact ⟨c', hc', by rw [hmove, AList.lookup_insert], hrunning, hevent⟩

/-- The beginning of a tick: the loop is entered, and calls that timed out fail. -/
theorem exec_tick (now : Time) (hlooping : c.dispatchers.lookup g = some .looping)
    (hrunning : c.running = true) :
    ∃ c', exec RpcClient.step c [.dispatcher g .check, .dispatcher g (.timeout now)] = some c' ∧
      c'.running = true ∧ c'.dispatchers.lookup g = some .ticked := by
  have hcheck : RpcClient.dispatcherStep c.sock.isSome c.running c.calls.pending.size .looping
      .check = some (.waiting, none) := by
    simp only [RpcClient.dispatcherStep, hrunning, if_true]
  obtain ⟨u, hu, hwaiting, ⟨⟨⟩, -⟩ | ⟨-, hgoing⟩, -⟩ := exists_step hlooping hcheck (by simp)
  obtain ⟨c', hc', hticked, ⟨⟨⟩, -⟩ | ⟨-, hgoing'⟩, -⟩ :=
    exists_step (a := .timeout now) hwaiting rfl (by rintro x ⟨⟩; exact ⟨_, rfl⟩)
  refine ⟨c', ?_, hgoing'.trans (hgoing.trans hrunning), hticked⟩
  rw [exec_cons, hu, Option.bind_some, exec_cons, hc']
  rfl

/-- A tick of a silent connection runs to the end of the loop: every pending call
has failed, and `dispatcher_running_` is cleared. -/
theorem exec_iteration_inactive (hlooping : c.dispatchers.lookup g = some .looping)
    (hrunning : c.running = true) (hinactive : s.inactive o now = true) :
    ∃ c', exec RpcClient.step c ((s.iteration o now).map (.dispatcher g)) = some c' ∧
      RpcClient.Idle c'.calls ∧ c'.running = false ∧
      c'.dispatchers.lookup g = some .looping := by
  obtain ⟨u, hu, -, hticked⟩ := exec_tick now hlooping hrunning
  obtain ⟨v, hv, hstopping, -, ⟨⟨⟩, -⟩ | ⟨x, hx, hfail⟩⟩ :=
    exists_step (a := .inactive) hticked rfl (by rintro x ⟨⟩; exact ⟨_, rfl⟩)
  obtain rfl := Option.some.inj hx
  obtain ⟨c', hc', hend, ⟨-, hstopped⟩ | ⟨hne, -⟩, ⟨-, hcalls⟩ | ⟨x, ⟨⟩, -⟩⟩ :=
    exists_step (a := .stop) (e := none) hstopping rfl (by simp)
  swap
  · exact absurd rfl hne
  refine ⟨c', ?_, hcalls ▸ RpcClient.idle_of_failAll hfail, hstopped, hend⟩
  have hsteps : (s.iteration o now).map (RpcClient.Act.dispatcher g) =
      [.dispatcher g .check, .dispatcher g (.timeout now)] ++
        [.dispatcher g .inactive, .dispatcher g .stop] := by
    simp [iteration, hinactive]
  rw [hsteps, exec_append, hu, Option.bind_some, exec_cons, hv, Option.bind_some, exec_cons, hc']
  rfl

/-- Any other tick leads back to the test of the loop. -/
theorem exec_iteration_quiet (hlooping : c.dispatchers.lookup g = some .looping)
    (hrunning : c.running = true) (hinactive : s.inactive o now = false) :
    ∃ c', exec RpcClient.step c ((s.iteration o now).map (.dispatcher g)) = some c' ∧
      c'.running = true ∧ c'.dispatchers.lookup g = some .looping := by
  obtain ⟨u, hu, hrunning', hticked⟩ := exec_tick now hlooping hrunning
  obtain ⟨c', hc', hend, ⟨⟨⟩, -⟩ | ⟨-, hgoing⟩, -⟩ :=
    exists_step (a := .tick (s.beats o now)) hticked rfl (by
      intro x hx
      split_ifs at hx
      obtain rfl := Option.some.inj hx
      exact ⟨_, rfl⟩)
  refine ⟨c', ?_, hgoing.trans hrunning', hend⟩
  have hsteps : (s.iteration o now).map (RpcClient.Act.dispatcher g) =
      [.dispatcher g .check, .dispatcher g (.timeout now)] ++
        [.dispatcher g (.tick (s.beats o now))] := by
    simp [iteration, hinactive]
  rw [hsteps, exec_append, hu, Option.bind_some, exec_cons, hc']
  rfl

end Client

/-- A tick that finds the connection inactive is the last event. -/
theorem eq_nil_of_declares {post : List Act} (hdeclares : s.declares o a = true)
    (hrun : exec (step o) s (a :: post) = some t) : post = [] := by
  obtain ⟨u, hu, hex⟩ := Option.bind_eq_some_iff.1 hrun
  obtain ⟨-, -, -, ⟨-, -, -, -, -, hquiet⟩ |
    ⟨-, -, ⟨-, -, hstopped, -⟩ | ⟨hquiet, -⟩⟩⟩ := step_cases hu
  · rw [hquiet] at hdeclares
    cases hdeclares
  · cases post with
    | nil => rfl
    | cons x post =>
      obtain ⟨v, hv, -⟩ := Option.bind_eq_some_iff.1 hex
      have hgoing := (step_cases hv).1
      rw [hstopped] at hgoing
      cases hgoing
  · rw [hquiet] at hdeclares
    cases hdeclares

/-- **The heartbeats of a connection**, for any ticks and data at times that do not
go back, and options whose nanoseconds fit in 64 bits.  Two heartbeats are at least
the interval apart, and none is sent when data came less than the interval before.
The first tick after a silence of the timeout, which counts from the last data or
else from the beginning, is the last one: it fails all pending calls and stops the
dispatcher.  And if the ticks are at most `gap` apart and data comes no later than
`delay` after each heartbeat, in time before the timeout, then no tick finds the
connection to be inactive, and each leads back to the loop. -/
theorem heartbeats_regular {start : Time} (hI : 0 < o.heartbeatInterval)
    (hT : 0 < o.heartbeatTimeout) (hfits : o.Fits)
    (hrun : exec (step o) (init start) es = some t) :
    ((observe (step o) (beat o) (init start) es).Pairwise fun h h' =>
        h + 10 ^ 9 * o.heartbeatInterval ≤ h') ∧
      (∀ pre a post s h, es = pre ++ a :: post → exec (step o) (init start) pre = some s →
        s.beat o a = some h →
        ∀ x ∈ pre, x.arrives = true → x.time + 10 ^ 9 * o.heartbeatInterval ≤ h) ∧
      (∀ pre now post s, es = pre ++ .tick now :: post →
        exec (step o) (init start) pre = some s → start + 10 ^ 9 * o.heartbeatTimeout ≤ now →
        (∀ x ∈ pre, x.arrives = true → x.time + 10 ^ 9 * o.heartbeatTimeout ≤ now) →
        post = [] ∧ ∀ (c : RpcClient) (g : ℕ), c.dispatchers.lookup g = some .looping →
          c.running = true → ∃ c',
            exec RpcClient.step c ((s.iteration o now).map (.dispatcher g)) = some c' ∧
            RpcClient.Idle c'.calls ∧ c'.running = false ∧
            c'.dispatchers.lookup g = some .looping) ∧
      ∀ gap delay, 10 ^ 9 * o.heartbeatInterval + gap + delay < 10 ^ 9 * o.heartbeatTimeout →
        Regular gap start es → Answered o delay (init start) es →
        Along (step o) (fun s a => s.declares o a = false) (init start) es ∧
        ∀ pre now post s, es = pre ++ .tick now :: post →
          exec (step o) (init start) pre = some s →
          ∀ (c : RpcClient) (g : ℕ), c.dispatchers.lookup g = some .looping →
            c.running = true → ∃ c',
              exec RpcClient.step c ((s.iteration o now).map (.dispatcher g)) = some c' ∧
              c'.running = true ∧ c'.dispatchers.lookup g = some .looping := by
  refine ⟨(traced hfits hrun).spaced, ?_, ?_, ?_⟩
  · rintro pre a post s h rfl hpre hbeat
    exact silence_of_beat hfits hpre hbeat
  · rintro pre now post s rfl hpre hstart hsilent
    have hinactive := inactive_of_silence hT hfits hpre hstart hsilent
    rw [exec_append, hpre, Option.bind_some] at hrun
    exact ⟨eq_nil_of_declares (a := .tick now) hinactive hrun, fun c g hlooping hrunning =>
      exec_iteration_inactive hlooping hrunning hinactive⟩
  · intro gap delay hlt hregular hanswered
    have hsafe : Safe o gap delay start (init start) es :=
      Or.inl ⟨Nat.lt_add_of_pos_right (by omega), le_rfl⟩
    have hquiet := never_declares hI hfits hlt hregular hanswered le_rfl le_rfl hsafe hrun
    refine ⟨hquiet, ?_⟩
    rintro pre now post s rfl hpre c g hlooping hrunning
    have htick := along_iff.1 hquiet pre (.tick now) post s rfl hpre
    exact exec_iteration_quiet hlooping hrunning htick

/-- A heartbeat after 10 s of silence, and its answer. -/
def answeredBeat : List Act :=
  [.tick (5 * 10 ^ 9), .tick (10 * 10 ^ 9), .received (12 * 10 ^ 9), .tick (15 * 10 ^ 9)]

/-- The answer is in time. -/
theorem answered_answeredBeat : Answered ⟨10, 40⟩ (3 * 10 ^ 9) (init 0) answeredBeat := by
  refine ⟨by rintro h ⟨⟩, ?_⟩
  rintro s ⟨⟩
  refine ⟨?_, ?_⟩
  · rintro h ⟨⟩
    exact Or.inl ⟨.received (12 * 10 ^ 9), by simp, rfl, by decide⟩
  rintro s ⟨⟩
  refine ⟨by rintro h ⟨⟩, ?_⟩
  rintro s ⟨⟩
  refine ⟨by rintro h ⟨⟩, ?_⟩
  rintro s ⟨⟩
  trivial

theorem heartbeats_regular_answeredBeat :
    observe (step ⟨10, 40⟩) (beat ⟨10, 40⟩) (init 0) answeredBeat = [10 * 10 ^ 9] ∧
      Along (step ⟨10, 40⟩) (fun s a => s.declares ⟨10, 40⟩ a = false) (init 0) answeredBeat := by
  have hregular : Regular (5 * 10 ^ 9) 0 answeredBeat := by simp [answeredBeat, Regular]
  have hrun : exec (step ⟨10, 40⟩) (init 0) answeredBeat =
      some ⟨12 * 10 ^ 9, 10 * 10 ^ 9, true, 15 * 10 ^ 9⟩ := by decide
  exact ⟨by decide, ((heartbeats_regular (by decide) (by decide) ⟨by decide, by decide⟩ hrun).2.2.2
    (5 * 10 ^ 9) (3 * 10 ^ 9) (by decide) hregular answered_answeredBeat).1⟩

/-- **The nanoseconds of an option wrap**: with a timeout of `2^63 - 1` seconds the
first tick, 50 ms after the connection was made, finds it inactive although no
heartbeat is due, and with such an interval two heartbeats are a nanosecond apart. -/
theorem timeout_wraps :
    (Regular 50000000 0 [.tick 50000000] ∧
        Answered ⟨10, 2 ^ 63 - 1⟩ 0 (init 0) [.tick 50000000] ∧
        10 ^ 9 * 10 + 50000000 + 0 < 10 ^ 9 * (2 ^ 63 - 1) ∧
        (init 0).declares ⟨10, 2 ^ 63 - 1⟩ (.tick 50000000) = true) ∧
      observe (step ⟨2 ^ 63 - 1, 45⟩) (beat ⟨2 ^ 63 - 1, 45⟩) (init 0) [.tick 1, .tick 2] =
        [1, 2] := by
  refine ⟨⟨?_, ⟨?_, ?_⟩, by decide, by decide⟩, by decide⟩
  · simp [Regular]
  · rintro h ⟨⟩
  · rintro s ⟨⟩
    trivial

end Heartbeat
end Client
end MiniRpc
