/-
# Closing a connection

`Connection::State` (`src/server/connection.h`) is documented by a diagram: from
`kClosing` a connection goes to `kClosed` or `kError`, and from these nowhere.
`should_close_` is set where the closing begins and never cleared.

Here a connection goes through the calls that the loop of its worker makes, in
any order, and through the rounds of its coroutine, one `OnReadable`,
`OnWritable` or suspension at a time: a finer view of `HandleConnectionCo` than
`proceed`, which runs the rounds of a resumption at once.  `Reached` says that
the connections of a worker are no others (`WorkerLoop.connections_reached`).

`NotifyReadable` and `NotifyWritable` store to `state_` whatever it was, and
`CloseConnection` calls them after `MarkClosing`.
-/

import MiniRpc.Server.Suspended

namespace MiniRpc
namespace Server

open Protocol Transition

namespace Connection

/-- One round of `HandleConnectionCo` at a place: the connection after it, and
where the coroutine goes on if it was not suspended and did not return. -/
def coRound (env : Env) (place : Place) (c : Connection) : Connection × Option Place :=
  match place with
  | .top =>
    if c.shouldClose then (c.coReturn, none)
    else if c.readReady then (c, some .afterRead)
    else (c.suspendReadable env, none)
  | .afterRead =>
    let c₁ : Connection := { c.clearReadDeadline with readReady := false }
    if c₁.shouldClose then (c₁.coReturn, none)
    else
      match c₁.onReadable env with
      | (c₂, some e) => (c₂.coFail e, none)
      | (c₂, none) => if c₂.shouldClose then (c₂.coReturn, none) else (c₂, some .writeLoop)
  | .writeLoop =>
    if !c.out.hasPendingWrite then (c, some .top)
    else if c.writeReady then (c, some .afterWrite)
    else (c.suspendWritable env, none)
  | .afterWrite =>
    let c₁ : Connection := { c.clearWriteDeadline with writeReady := false }
    if c₁.shouldClose then (c₁.coReturn, none)
    else
      match c₁.onWritable env with
      | (c₂, some e) => (c₂.coFail e, none)
      | (c₂, none) => if c₂.shouldClose then (c₂.coReturn, none) else (c₂, some .writeLoop)

/-- The place at which a suspended coroutine goes on. -/
def resumption (c : Connection) : Option Place :=
  match c.coroutine with
  | .waitReadable => some .afterRead
  | .waitWritable => some .afterWrite
  | .returned => none

end Connection

/-- A connection, and the place its coroutine is at while it runs. -/
structure Turn where
  connection : Connection
  running : Option Connection.Place := none

namespace Turn

/-- `StartConnectionCoroutine`, for a clock and a socket that answer as given. -/
def start (readClock writeClock : List Time) (inbox : Inbox) (outbox : Outbox) : Turn :=
  ⟨{ Connection.new readClock writeClock outbox with inbox }, some .top⟩

/-- What happens to a connection: a call that the loop makes, or a round of the
coroutine.  The handlers and the pool may answer differently every time. -/
inductive Act where
  | round (env : Env)
  | enqueueResponse (env : Env) (response : RpcResponse)
  | notifyReadable
  | notifyWritable
  | tick (now : Time)
  | markClosing
  | markClosed

/-- A call leaves the connection as given; the loop makes it when the coroutine
does not run. -/
def called (s : Turn) (c : Connection) (running : Option Connection.Place := none) : Option Turn :=
  if s.running.isSome then none else some ⟨c, running⟩

/-- One step, `none` if it cannot happen in the state. -/
def step (s : Turn) : Act → Option Turn
  | .round env =>
    s.running.map fun place =>
      ⟨(s.connection.coRound env place).1, (s.connection.coRound env place).2⟩
  | .enqueueResponse env response =>
    s.called { s.connection with
      out := (Server.enqueueResponse env s.connection.out response).1 }
  | .notifyReadable =>
    let c : Connection := { s.connection with readReady := true, state := .kReading }
    if c.readWaiter then s.called { c with readWaiter := false } c.resumption else s.called c
  | .notifyWritable =>
    let c : Connection := { s.connection with writeReady := true, state := .kWriting }
    if c.writeWaiter then s.called { c with writeWaiter := false } c.resumption else s.called c
  | .tick now => s.called (s.connection.tick now)
  | .markClosing => s.called s.connection.markClosing
  | .markClosed => s.called s.connection.markClosed

end Turn

/-! ### What the diagram asks for -/

/-- The states of a connection that is closing. -/
def State.closing (state : State) : Bool :=
  state = .kClosing || state = .kClosed || state = .kError

/-- What the diagram asks of a step: the flag stays, and with the flag set the
state is a closing one; `kError` and `kClosed` are not left. -/
structure Conforms (c c' : Connection) : Prop where
  shouldClose : c.shouldClose = true → c'.shouldClose = true
  closing : c'.shouldClose = true → c'.state.closing = true
  error : c.state = .kError → c'.state = .kError
  closed : c.state = .kClosed → c'.state = .kClosed

namespace Turn

/-- The calls that leave the diagram alone: no notification when the flag is set,
no `MarkClosed` after an error. -/
def allowed (s : Turn) : Act → Bool
  | .notifyReadable => !s.connection.shouldClose
  | .notifyWritable => !s.connection.shouldClose
  | .markClosed => s.connection.state ≠ .kError
  | _ => true

/-- The flag says what the state says, and the coroutine writes only while the
flag is not set. -/
structure Agrees (s : Turn) : Prop where
  flag : s.connection.shouldClose = s.connection.state.closing
  writing : s.running = some .writeLoop → s.connection.shouldClose = false

end Turn

namespace Connection

theorem resumeWaitersClosing_fields (c : Connection) :
    c.resumeWaitersClosing.shouldClose = c.shouldClose ∧
      c.resumeWaitersClosing.state = c.state := by
  unfold resumeWaitersClosing
  dsimp only
  split_ifs <;> simp [resumeClosing_fields]

/-- What `MarkClosing` leaves. -/
theorem markClosing_fields (c : Connection) :
    c.markClosing.shouldClose = true ∧
      c.markClosing.state =
        if c.state ≠ .kClosed ∧ c.state ≠ .kError then .kClosing else c.state := by
  unfold markClosing
  refine ⟨(resumeWaitersClosing_fields _).1.trans rfl, (resumeWaitersClosing_fields _).2.trans ?_⟩
  rfl

/-- `OnReadable` sets the flag where it sets a closing state. -/
theorem onReadable_agrees (env : Env) {c : Connection} (h : c.shouldClose = c.state.closing)
    (hopen : c.shouldClose = false) :
    (c.onReadable env).1.shouldClose = (c.onReadable env).1.state.closing := by
  obtain ⟨b, -, hread⟩ := c.readFromSocket_eq
  unfold onReadable
  rw [hread]
  cases readOutcome c.inbox.ending b.readable with
  | kWouldBlock => exact h
  | kPeerClosed => rfl
  | kError e =>
    have hfields := enterError_fields { c with inbox := c.inbox.afterEnding, readBuffer := b } e
    rw [hfields.1, hfields.2.1]
    rfl
  | kData =>
    obtain ⟨b', -, hparse⟩ := tryParseRequests_eq env
      { c with inbox := c.inbox.afterEnding, readBuffer := b }
    dsimp only
    rw [hparse]
    split
    · rename_i c' e heq
      have hfields := enterError_fields c' e
      rw [hfields.1, hfields.2.1]
      rfl
    · rename_i heq
      obtain ⟨rfl, -⟩ := Prod.mk.inj heq
      exact hopen

/-- `OnWritable` too. -/
theorem onWritable_agrees (env : Env) {c : Connection} (h : c.shouldClose = c.state.closing)
    (hopen : c.shouldClose = false) :
    (c.onWritable env).1.shouldClose = (c.onWritable env).1.state.closing := by
  unfold onWritable
  split
  · rename_i out e heq
    have hfields := enterError_fields { c with out } e
    rw [hfields.1, hfields.2.1]
    rfl
  · split_ifs
    · exact h
    · exact hopen

/-- **One round of the coroutine**: a closing connection keeps its state, and
otherwise the flag is set where a closing state is. -/
theorem coRound_agrees (env : Env) (place : Place) {c : Connection}
    (h : c.shouldClose = c.state.closing) (hopen : place = .writeLoop → c.shouldClose = false) :
    (c.coRound env place).1.shouldClose = (c.coRound env place).1.state.closing ∧
      ((c.coRound env place).2 = some .writeLoop → (c.coRound env place).1.shouldClose = false) ∧
      (c.shouldClose = true →
        (c.coRound env place).1.shouldClose = true ∧ (c.coRound env place).1.state = c.state) := by
  cases place with
  | top =>
    unfold coRound
    dsimp only
    split_ifs with hclose hready
    · exact ⟨h, by simp, fun _ => ⟨hclose, rfl⟩⟩
    · exact ⟨h, by simp, fun hc => absurd hc hclose⟩
    · have hfalse : c.shouldClose = false := by simpa using hclose
      exact ⟨hfalse, by simp, fun hc => absurd hc hclose⟩
  | afterRead =>
    unfold coRound
    dsimp only
    split_ifs with hclose
    · exact ⟨h, by simp, fun _ => ⟨hclose, rfl⟩⟩
    · have hfalse : c.shouldClose = false := by simpa [clearReadDeadline] using hclose
      have hflag := onReadable_agrees env
        (c := { c.clearReadDeadline with readReady := false }) h hfalse
      split
      · rename_i c₂ e heq
        rw [heq] at hflag
        exact ⟨hflag, by simp, fun hc => absurd (hfalse.symm.trans hc) (by simp)⟩
      · rename_i c₂ heq
        rw [heq] at hflag
        split_ifs with hclose₂
        · exact ⟨hflag, by simp, fun hc => absurd (hfalse.symm.trans hc) (by simp)⟩
        · exact ⟨hflag, fun _ => by simpa using hclose₂,
            fun hc => absurd (hfalse.symm.trans hc) (by simp)⟩
  | writeLoop =>
    have hfalse := hopen rfl
    have hnot : c.shouldClose = true → False := fun hc => absurd (hfalse.symm.trans hc) (by simp)
    unfold coRound
    dsimp only
    split_ifs
    · exact ⟨h, by simp, fun hc => (hnot hc).elim⟩
    · exact ⟨h, by simp, fun hc => (hnot hc).elim⟩
    · exact ⟨hfalse, by simp, fun hc => (hnot hc).elim⟩
  | afterWrite =>
    unfold coRound
    dsimp only
    split_ifs with hclose
    · exact ⟨h, by simp, fun _ => ⟨hclose, rfl⟩⟩
    · have hfalse : c.shouldClose = false := by simpa [clearWriteDeadline] using hclose
      have hflag := onWritable_agrees env
        (c := { c.clearWriteDeadline with writeReady := false }) h hfalse
      split
      · rename_i c₂ e heq
        rw [heq] at hflag
        exact ⟨hflag, by simp, fun hc => absurd (hfalse.symm.trans hc) (by simp)⟩
      · rename_i c₂ heq
        rw [heq] at hflag
        split_ifs with hclose₂
        · exact ⟨hflag, by simp, fun hc => absurd (hfalse.symm.trans hc) (by simp)⟩
        · exact ⟨hflag, fun _ => by simpa using hclose₂,
            fun hc => absurd (hfalse.symm.trans hc) (by simp)⟩

end Connection

/-- A step that leaves a closing connection in its state conforms to the
diagram. -/
theorem conforms_of_same {c c' : Connection} (h : c.shouldClose = c.state.closing)
    (h' : c'.shouldClose = c'.state.closing)
    (hsame : c.shouldClose = true → c'.shouldClose = true ∧ c'.state = c.state) :
    Conforms c c' where
  shouldClose := fun hc => (hsame hc).1
  closing := fun hc => h'.symm.trans hc
  error := by
    intro hstate
    have hclose : c.shouldClose = true := by rw [h, hstate]; rfl
    exact (hsame hclose).2.trans hstate
  closed := by
    intro hstate
    have hclose : c.shouldClose = true := by rw [h, hstate]; rfl
    exact (hsame hclose).2.trans hstate

namespace Turn

variable {s t : Turn}

theorem called_cases {c : Connection} {running : Option Connection.Place}
    (h : s.called c running = some t) : s.running = none ∧ t = ⟨c, running⟩ := by
  unfold called at h
  split_ifs at h with hrun
  exact ⟨by simpa using hrun, (Option.some.inj h).symm⟩

/-- What a notification leaves. -/
theorem notify_cases {c : Connection} {waiter : Bool} {c' : Connection}
    (h : (if waiter then s.called c' c.resumption else s.called c) = some t) :
    t.connection = (if waiter then c' else c) ∧ t.running ≠ some .writeLoop := by
  cases waiter with
  | true =>
    obtain ⟨-, rfl⟩ := called_cases h
    refine ⟨rfl, ?_⟩
    show c.resumption ≠ _
    unfold Connection.resumption
    split <;> simp
  | false =>
    obtain ⟨-, rfl⟩ := called_cases h
    exact ⟨rfl, by simp⟩

/-- A notification sets the state and leaves the flag. -/
theorem notifyReadable_fields (h : step s .notifyReadable = some t) :
    t.connection.shouldClose = s.connection.shouldClose ∧ t.connection.state = .kReading ∧
      t.running ≠ some .writeLoop := by
  obtain ⟨hc, hrun⟩ := notify_cases h
  rw [hc]
  refine ⟨?_, ?_, hrun⟩ <;> split_ifs <;> rfl

theorem notifyWritable_fields (h : step s .notifyWritable = some t) :
    t.connection.shouldClose = s.connection.shouldClose ∧ t.connection.state = .kWriting ∧
      t.running ≠ some .writeLoop := by
  obtain ⟨hc, hrun⟩ := notify_cases h
  rw [hc]
  refine ⟨?_, ?_, hrun⟩ <;> split_ifs <;> rfl

/-- `Tick` leaves a closing connection as it is. -/
theorem tick_agrees (now : Time) {c : Connection} (h : c.shouldClose = c.state.closing) :
    (c.tick now).shouldClose = (c.tick now).state.closing ∧
      (c.shouldClose = true → c.tick now = c) := by
  unfold Connection.tick
  split_ifs with hclosed hread hwrite
  · exact ⟨h, fun _ => rfl⟩
  · have hfields := c.enterError_fields "read timeout"
    exact ⟨by rw [hfields.1, hfields.2.1]; rfl, fun hc => absurd (Or.inr (Or.inr hc)) hclosed⟩
  · have hfields := c.enterError_fields "write timeout"
    exact ⟨by rw [hfields.1, hfields.2.1]; rfl, fun hc => absurd (Or.inr (Or.inr hc)) hclosed⟩
  · exact ⟨h, fun _ => rfl⟩

/-- `MarkClosing` leaves a closing connection in its state. -/
theorem markClosing_agrees {c : Connection} (h : c.shouldClose = c.state.closing) :
    c.markClosing.shouldClose = c.markClosing.state.closing ∧
      (c.shouldClose = true → c.markClosing.shouldClose = true ∧
        c.markClosing.state = c.state) := by
  obtain ⟨hflag, hstate⟩ := c.markClosing_fields
  rw [hflag, hstate]
  rw [h]
  cases c.state <;> simp [State.closing]

/-- **An allowed step conforms to the diagram**, and the flag and the state still
agree after it. -/
theorem Agrees.step {a : Act} (h : s.Agrees) (ha : s.allowed a = true)
    (hs : Turn.step s a = some t) : t.Agrees ∧ Conforms s.connection t.connection := by
  have key : t.connection.shouldClose = t.connection.state.closing →
      (t.running = some .writeLoop → t.connection.shouldClose = false) →
      (s.connection.shouldClose = true →
        t.connection.shouldClose = true ∧ t.connection.state = s.connection.state) →
      t.Agrees ∧ Conforms s.connection t.connection :=
    fun hflag hwriting hsame => ⟨⟨hflag, hwriting⟩, conforms_of_same h.flag hflag hsame⟩
  cases a with
  | round env =>
    obtain ⟨place, hplace, rfl⟩ := Option.map_eq_some_iff.1 hs
    obtain ⟨hflag, hwriting, hsame⟩ := Connection.coRound_agrees env place h.flag
      fun heq => h.writing (by rw [hplace, heq])
    exact key hflag hwriting hsame
  | enqueueResponse env response =>
    obtain ⟨-, rfl⟩ := called_cases hs
    exact key h.flag (by simp) fun hc => ⟨hc, rfl⟩
  | notifyReadable =>
    obtain ⟨hflag, hstate, hrun⟩ := notifyReadable_fields hs
    have hopen : s.connection.shouldClose = false := by simpa [allowed] using ha
    refine key ?_ (fun heq => absurd heq hrun) fun hc => ?_
    · rw [hflag, hopen, hstate]
      rfl
    · rw [hopen] at hc
      cases hc
  | notifyWritable =>
    obtain ⟨hflag, hstate, hrun⟩ := notifyWritable_fields hs
    have hopen : s.connection.shouldClose = false := by simpa [allowed] using ha
    refine key ?_ (fun heq => absurd heq hrun) fun hc => ?_
    · rw [hflag, hopen, hstate]
      rfl
    · rw [hopen] at hc
      cases hc
  | tick now =>
    obtain ⟨-, rfl⟩ := called_cases hs
    obtain ⟨hflag, hsame⟩ := tick_agrees now h.flag
    refine key hflag (by simp) fun hc => ?_
    show (s.connection.tick now).shouldClose = true ∧ (s.connection.tick now).state = _
    rw [hsame hc]
    exact ⟨hc, rfl⟩
  | markClosing =>
    obtain ⟨-, rfl⟩ := called_cases hs
    obtain ⟨hflag, hsame⟩ := markClosing_agrees h.flag
    exact key hflag (by simp) hsame
  | markClosed =>
    obtain ⟨-, rfl⟩ := called_cases hs
    have hne : s.connection.state ≠ .kError := by simpa [allowed] using ha
    exact ⟨⟨rfl, by simp⟩, fun _ => rfl, fun _ => rfl, fun heq => absurd heq hne, fun _ => rfl⟩

/-- Every other step breaks the diagram. -/
theorem not_conforms {a : Act} (ha : s.allowed a = false) (hs : Turn.step s a = some t) :
    ¬ Conforms s.connection t.connection := by
  intro hconf
  cases a with
  | notifyReadable =>
    obtain ⟨hflag, hstate, -⟩ := notifyReadable_fields hs
    have hclose : s.connection.shouldClose = true := by simpa [allowed] using ha
    have hclosing := hconf.closing (hflag.trans hclose)
    rw [hstate] at hclosing
    cases hclosing
  | notifyWritable =>
    obtain ⟨hflag, hstate, -⟩ := notifyWritable_fields hs
    have hclose : s.connection.shouldClose = true := by simpa [allowed] using ha
    have hclosing := hconf.closing (hflag.trans hclose)
    rw [hstate] at hclosing
    cases hclosing
  | markClosed =>
    obtain ⟨-, rfl⟩ := called_cases hs
    have herr : s.connection.state = .kError := by simpa [allowed] using ha
    cases hconf.error herr
  | round env => cases ha
  | enqueueResponse env response => cases ha
  | tick now => cases ha
  | markClosing => cases ha

/-- **When a connection closes as the diagram says.**  Whatever calls the loop
makes and whatever the rounds of the coroutine do, every step of the run keeps
`should_close_`, stays in the closing states once it is set and leaves neither
`kError` nor `kClosed`, if and only if the loop never notifies a connection whose
flag is set, and never calls `MarkClosed` after an error. -/
theorem conforms_iff {readClock writeClock : List Time} {inbox : Inbox} {outbox : Outbox}
    {es : List Act} (hrun : exec step (start readClock writeClock inbox outbox) es = some s) :
    Along step (fun u a => ∀ v, step u a = some v → Conforms u.connection v.connection)
        (start readClock writeClock inbox outbox) es ↔
      Along step (fun u a => u.allowed a = true) (start readClock writeClock inbox outbox) es := by
  have hstart : (start readClock writeClock inbox outbox).Agrees := ⟨rfl, fun _ => rfl⟩
  refine along_congr (I := Agrees) (fun u a v hu ha hv => (hu.step ha hv).1) ?_ hstart hrun
  intro u a v hu hv
  constructor
  · intro hconf
    by_contra hnot
    exact not_conforms (by simpa using hnot) hv (hconf v hv)
  · intro ha v' hv'
    exact (hu.step ha hv').2

/-- The environment of a connection of an idle worker. -/
def idleConnection : Env := WorkerLoop.connectionEnv WorkerLoop.idleEnv WorkerLoop.idle 7 1

/-- A connection whose deadline passes before it is closed. -/
theorem conforms_iff_timeout :
    Along step (fun u a => ∀ v, step u a = some v → Conforms u.connection v.connection)
      (start [] [] [] []) [.round idleConnection, .tick 6000, .markClosing] :=
  (conforms_iff (rfl : exec step (start [] [] [] [])
    [.round idleConnection, .tick 6000, .markClosing] = some _)).2
    ⟨rfl, fun _ _ => ⟨rfl, fun _ _ => ⟨rfl, fun _ _ => trivial⟩⟩⟩

/-- **A closing connection reads again**: the first two calls of
`CloseConnection`, for a connection that waits for a request. -/
theorem closing_reads :
    ∃ s t, exec step (start [] [] [] []) [.round idleConnection, .markClosing] = some s ∧
      step s .notifyReadable = some t ∧
      s.connection.shouldClose = true ∧ s.connection.state = .kClosing ∧
      t.connection.shouldClose = true ∧ t.connection.state = .kReading :=
  ⟨_, _, rfl, rfl, rfl, rfl, rfl, rfl⟩

/-! ### The connections of a worker are such connections -/

/-- What a call of the loop is made of: notifications, and rounds in which the
connection is built with `env`. -/
def Act.notifies (env : Env) : Act → Prop
  | .round env' => env' = env
  | .notifyReadable => True
  | .notifyWritable => True
  | _ => False

/-- A step of this kind. -/
def notifyStep (env : Env) (s : Turn) (a : { a : Act // a.notifies env }) : Option Turn :=
  s.step a.1

theorem step_round (env : Env) {place : Connection.Place} {c c' : Connection}
    {next : Option Connection.Place} (h : c.coRound env place = (c', next)) :
    notifyStep env ⟨c, some place⟩ ⟨.round env, rfl⟩ = some ⟨c', next⟩ := by
  show some (Turn.mk (c.coRound env place).1 (c.coRound env place).2) = _
  rw [h]

/-- The rounds of a resumption, one after the other. -/
theorem reaches_proceed (env : Env) (place : Connection.Place) (c : Connection) :
    Reaches (notifyStep env) ⟨c, some place⟩ ⟨c.proceed env place, none⟩ := by
  fun_induction Connection.proceed env place c with
  | case1 c hclose => exact .head (step_round env (if_pos hclose)) (.refl _)
  | case2 c hopen hready ih =>
    exact .head (step_round env ((if_neg hopen).trans (if_pos hready))) ih
  | case3 c hopen hready =>
    exact .head (step_round env ((if_neg hopen).trans (if_neg hready))) (.refl _)
  | case4 c c₁ hclose => exact .head (step_round env (if_pos hclose)) (.refl _)
  | case5 c c₁ hopen c₂ e hread =>
    refine .head (step_round env ((if_neg hopen).trans ?_)) (.refl _)
    rw [hread]
  | case6 c c₁ hopen c₂ hread hclose =>
    refine .head (step_round env ((if_neg hopen).trans ?_)) (.refl _)
    rw [hread]
    exact if_pos hclose
  | case7 c c₁ hopen c₂ hread hclose ih =>
    refine .head (step_round env ((if_neg hopen).trans ?_)) ih
    rw [hread]
    exact if_neg hclose
  | case8 c hnone ih => exact .head (step_round env (if_pos hnone)) ih
  | case9 c hpending hready ih =>
    exact .head (step_round env ((if_neg hpending).trans (if_pos hready))) ih
  | case10 c hpending hready =>
    exact .head (step_round env ((if_neg hpending).trans (if_neg hready))) (.refl _)
  | case11 c c₁ hclose => exact .head (step_round env (if_pos hclose)) (.refl _)
  | case12 c c₁ hopen c₂ e hwrite =>
    refine .head (step_round env ((if_neg hopen).trans ?_)) (.refl _)
    rw [hwrite]
  | case13 c c₁ hopen c₂ hwrite hclose =>
    refine .head (step_round env ((if_neg hopen).trans ?_)) (.refl _)
    rw [hwrite]
    exact if_pos hclose
  | case14 c c₁ hopen c₂ hwrite hclose ih =>
    refine .head (step_round env ((if_neg hopen).trans ?_)) ih
    rw [hwrite]
    exact if_neg hclose

/-- A resumption, from where the coroutine is suspended. -/
theorem reaches_resume (env : Env) (c : Connection) :
    Reaches (notifyStep env) ⟨c, c.resumption⟩ ⟨c.resume env, none⟩ := by
  unfold Connection.resumption Connection.resume
  cases c.coroutine with
  | waitReadable => exact reaches_proceed env .afterRead c
  | waitWritable => exact reaches_proceed env .afterWrite c
  | returned => exact .refl _

theorem reaches_notifyReadable (env : Env) (c : Connection) :
    Reaches (notifyStep env) ⟨c, none⟩ ⟨c.notifyReadable env, none⟩ := by
  cases hw : c.readWaiter with
  | true =>
    have hstep : notifyStep env ⟨c, none⟩ ⟨.notifyReadable, trivial⟩ =
        some ⟨{ c with readReady := true, state := .kReading, readWaiter := false },
          c.resumption⟩ := by
      simp only [notifyStep, step, hw, if_true]
      rfl
    have heq : c.notifyReadable env =
        ({ c with readReady := true, state := .kReading, readWaiter := false }).resume env := by
      simp only [Connection.notifyReadable, hw, if_true]
    rw [heq]
    exact .head hstep (reaches_resume env _)
  | false =>
    have hstep : notifyStep env ⟨c, none⟩ ⟨.notifyReadable, trivial⟩ =
        some ⟨{ c with readReady := true, state := .kReading }, none⟩ := by
      simp only [notifyStep, step, hw, Bool.false_eq_true, if_false]
      rfl
    have heq : c.notifyReadable env = { c with readReady := true, state := .kReading } := by
      simp only [Connection.notifyReadable, hw, Bool.false_eq_true, if_false]
    rw [heq]
    exact .head hstep (.refl _)

theorem reaches_notifyWritable (env : Env) (c : Connection) :
    Reaches (notifyStep env) ⟨c, none⟩ ⟨c.notifyWritable env, none⟩ := by
  cases hw : c.writeWaiter with
  | true =>
    have hstep : notifyStep env ⟨c, none⟩ ⟨.notifyWritable, trivial⟩ =
        some ⟨{ c with writeReady := true, state := .kWriting, writeWaiter := false },
          c.resumption⟩ := by
      simp only [notifyStep, step, hw, if_true]
      rfl
    have heq : c.notifyWritable env =
        ({ c with writeReady := true, state := .kWriting, writeWaiter := false }).resume env := by
      simp only [Connection.notifyWritable, hw, if_true]
    rw [heq]
    exact .head hstep (reaches_resume env _)
  | false =>
    have hstep : notifyStep env ⟨c, none⟩ ⟨.notifyWritable, trivial⟩ =
        some ⟨{ c with writeReady := true, state := .kWriting }, none⟩ := by
      simp only [notifyStep, step, hw, Bool.false_eq_true, if_false]
      rfl
    have heq : c.notifyWritable env = { c with writeReady := true, state := .kWriting } := by
      simp only [Connection.notifyWritable, hw, Bool.false_eq_true, if_false]
    rw [heq]
    exact .head hstep (.refl _)

/-- What a call of the loop reaches. -/
theorem reaches_of_notifies {env : Env} {s t : Turn} (h : Reaches (notifyStep env) s t) :
    Reaches step s t :=
  h.map (f := id) fun _ a _ ha => ⟨a.1, ha⟩

end Turn

/-- The loop has come to this connection by its calls. -/
def Connection.Reached (c : Connection) : Prop :=
  ∃ readClock writeClock inbox outbox,
    Reaches Turn.step (Turn.start readClock writeClock inbox outbox) ⟨c, none⟩

namespace Connection.Reached

variable {c : Connection}

theorem trans {c' : Connection} (h : c.Reached)
    (h' : Reaches Turn.step ⟨c, none⟩ ⟨c', none⟩) : c'.Reached := by
  obtain ⟨rc, wc, i, o, hc⟩ := h
  exact ⟨rc, wc, i, o, hc.trans h'⟩

theorem start (env : Env) (rc wc : List Time) (i : Inbox) (o : Outbox) :
    Reached (startConnectionCoroutine env { new rc wc o with inbox := i }) :=
  ⟨rc, wc, i, o, Turn.reaches_of_notifies (Turn.reaches_proceed env .top _)⟩

theorem notifyReadable (h : c.Reached) (env : Env) : (c.notifyReadable env).Reached :=
  h.trans (Turn.reaches_of_notifies (Turn.reaches_notifyReadable env c))

theorem notifyWritable (h : c.Reached) (env : Env) : (c.notifyWritable env).Reached :=
  h.trans (Turn.reaches_of_notifies (Turn.reaches_notifyWritable env c))

theorem markClosing (h : c.Reached) : c.markClosing.Reached :=
  h.trans (.head (e := .markClosing) rfl (.refl _))

theorem tick (h : c.Reached) (now : Time) : (c.tick now).Reached :=
  h.trans (.head (e := .tick now) rfl (.refl _))

theorem enqueueResponse (h : c.Reached) {env : Env} {r : RpcResponse} {out : Outbound}
    {e : Option String} (hq : Server.enqueueResponse env c.out r = (out, e)) :
    Reached { c with out } := by
  have hout : out = (Server.enqueueResponse env c.out r).1 := by rw [hq]
  rw [hout]
  exact h.trans (.head (e := .enqueueResponse env r) rfl (.refl _))

end Connection.Reached

namespace WorkerLoop

/-- **The loop changes a connection by its calls.** -/
theorem reached_invariant :
    LoopInvariant (fun state => state.connection.Reached)
      fun state => state.connection.Reached where
  start := fun env rc wc inbox outbox _ => .start env rc wc inbox outbox
  between := fun _ h => h
  tick := fun _ now h => h.tick now
  respond := fun env _ _ _ h hq => (h.enqueueResponse hq).notifyReadable env
  notifyReadable := fun env _ h => h.notifyReadable env
  notifyWritable := fun env _ h => h.notifyWritable env
  markClosing := fun _ h => h.markClosing
  settle := fun _ h => h

/-- Every connection in the table of a worker, after any run, is one that the
calls of a run here lead to. -/
theorem connections_reached {w₀ w : WorkerLoop} (h₀ : w₀.connections = ∅) {events : List Event}
    (hrun : exec loopStep w₀ events = some w) :
    w.Everywhere fun state => state.connection.Reached := by
  refine exec_invariant ?_ (fun s e t hs ht => reached_invariant.loopStep hs ht) hrun
  intro fd state hl
  rw [h₀] at hl
  cases hl

end WorkerLoop
end Server
end MiniRpc
