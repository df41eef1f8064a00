/-
# The coroutine of a connection

`HandleConnectionCo` of `src/server/worker_loop.cpp` with `ReadRequestCo`,
`WriteResponseCo` and the two awaiters of `src/server/connection.cpp`: read,
write while there is something to write, read again.  The coroutine runs on the
owner thread from the call that resumes it to the next `co_await` that suspends
it, so a resumption is one function, `proceed`, by the place from which the
coroutine goes on.

A pass of the loop uses up a ready flag, which only the event loop sets, so the
coroutine suspends or returns.  Where the code checks `should_close_` twice with
nothing in between on the one thread that writes it, the model checks it once.
-/

import MiniRpc.Server.Connection

namespace MiniRpc
namespace Server
namespace Connection

/-- A place in `HandleConnectionCo`. -/
inductive Place where
  /-- The start of the outer loop. -/
  | top
  /-- `WaitReadableCo` is over. -/
  | afterRead
  /-- The start of the inner loop. -/
  | writeLoop
  /-- `WaitWritableCo` is over. -/
  | afterWrite
  deriving DecidableEq, Repr

/-- `co_return`. -/
def coReturn (c : Connection) : Connection := { c with coroutine := .returned }

/-- `co_return` after a failed read or write: the error of the call, or
`LastError` if it gave none. -/
def coFail (c : Connection) (e : String) : Connection :=
  { c with
    coroutine := .returned
    coroutineOk := false
    coroutineError := if e = "" then c.lastError else e }

/-- `ReadableAwaiter::await_suspend`, when nothing is ready. -/
def suspendReadable (env : Env) (c : Connection) : Connection :=
  ({ c with readWaiter := true, state := .kReading, coroutine := .waitReadable }
    ).armReadDeadline env

/-- `WritableAwaiter::await_suspend`, when nothing is ready. -/
def suspendWritable (env : Env) (c : Connection) : Connection :=
  { c with
    writeWaiter := true, state := .kWriting, coroutine := .waitWritable
    out := c.out.armWriteDeadline env }

/-! ### Reading and writing set no ready flag -/

/-- `c'` has no ready flag that `c` has not. -/
def NoNewFlag (c c' : Connection) : Prop :=
  c'.readReady ≤ c.readReady ∧ c'.writeReady ≤ c.writeReady

theorem NoNewFlag.trans {c c' c'' : Connection} (h : NoNewFlag c c') (h' : NoNewFlag c' c'') :
    NoNewFlag c c'' :=
  ⟨h'.1.trans h.1, h'.2.trans h.2⟩

theorem noNewFlag_resumeClosing (c : Connection) : NoNewFlag c c.resumeClosing := by
  unfold resumeClosing
  split <;> simp [NoNewFlag, clearReadDeadline, clearWriteDeadline]

theorem noNewFlag_resumeWaitersClosing (c : Connection) : NoNewFlag c c.resumeWaitersClosing := by
  unfold resumeWaitersClosing
  dsimp only
  split_ifs with hr hw hw
  · exact NoNewFlag.trans (noNewFlag_resumeClosing { c with readWaiter := false })
      (noNewFlag_resumeClosing { ({ c with readWaiter := false }).resumeClosing with
        writeWaiter := false })
  · exact noNewFlag_resumeClosing { c with readWaiter := false }
  · exact noNewFlag_resumeClosing { c with writeWaiter := false }
  · exact ⟨le_rfl, le_rfl⟩

theorem noNewFlag_enterError (c : Connection) (e : String) : NoNewFlag c (c.enterError e) :=
  NoNewFlag.trans ⟨le_rfl, le_rfl⟩ (noNewFlag_resumeWaitersClosing _)

theorem noNewFlag_onReadable (env : Env) (c : Connection) : NoNewFlag c (c.onReadable env).1 := by
  obtain ⟨b, -, hread⟩ := c.readFromSocket_eq
  unfold onReadable
  rw [hread]
  cases readOutcome c.inbox.ending b.readable with
  | kWouldBlock => exact ⟨le_rfl, le_rfl⟩
  | kPeerClosed => exact ⟨le_rfl, le_rfl⟩
  | kError e => exact NoNewFlag.trans ⟨le_rfl, le_rfl⟩ (noNewFlag_enterError _ e)
  | kData =>
    obtain ⟨b', -, hparse⟩ := tryParseRequests_eq env
      { c with inbox := c.inbox.afterEnding, readBuffer := b }
    dsimp only
    rw [hparse]
    split
    · rename_i e heq
      obtain ⟨rfl, -⟩ := Prod.mk.inj heq
      exact NoNewFlag.trans ⟨le_rfl, le_rfl⟩ (noNewFlag_enterError _ e)
    · rename_i heq
      obtain ⟨rfl, -⟩ := Prod.mk.inj heq
      exact ⟨le_rfl, le_rfl⟩

theorem noNewFlag_onWritable (env : Env) (c : Connection) : NoNewFlag c (c.onWritable env).1 := by
  unfold onWritable
  split
  · exact NoNewFlag.trans ⟨le_rfl, le_rfl⟩ (noNewFlag_enterError _ _)
  · split_ifs <;> exact ⟨le_rfl, le_rfl⟩

/-! ### The coroutine -/

/-- A bound on the places the coroutine still comes to before it suspends. -/
def passes (place : Place) (c : Connection) : ℕ :=
  match place with
  | .top => 3 * (c.readReady.toNat + c.writeReady.toNat) + 1
  | .afterRead => 3 * c.writeReady.toNat + 3
  | .writeLoop => 3 * (c.readReady.toNat + c.writeReady.toNat) + 2
  | .afterWrite => 3 * c.readReady.toNat + 3

/-- `HandleConnectionCo` from a place on, until it suspends or returns. -/
def proceed (env : Env) (place : Place) (c : Connection) : Connection :=
  match place with
  | .top =>
    if c.shouldClose then c.coReturn
    else if c.readReady then proceed env .afterRead c
    else c.suspendReadable env
  | .afterRead =>
    let c₁ : Connection := { c.clearReadDeadline with readReady := false }
    if c₁.shouldClose then c₁.coReturn
    else
      match _h : c₁.onReadable env with
      | (c₂, some e) => c₂.coFail e
      | (c₂, none) => if c₂.shouldClose then c₂.coReturn else proceed env .writeLoop c₂
  | .writeLoop =>
    if !c.out.hasPendingWrite then proceed env .top c
    else if c.writeReady then proceed env .afterWrite c
    else c.suspendWritable env
  | .afterWrite =>
    let c₁ : Connection := { c.clearWriteDeadline with writeReady := false }
    if c₁.shouldClose then c₁.coReturn
    else
      match _h : c₁.onWritable env with
      | (c₂, some e) => c₂.coFail e
      | (c₂, none) => if c₂.shouldClose then c₂.coReturn else proceed env .writeLoop c₂
termination_by c.passes place
decreasing_by
  · rename_i hr
    simp only [passes, hr, Bool.toNat_true]
    omega
  · obtain ⟨hr, hw⟩ := noNewFlag_onReadable env { c.clearReadDeadline with readReady := false }
    have hw' := Bool.toNat_le_toNat hw
    have hr' := Bool.toNat_le_toNat hr
    rw [show c₁ = { c.clearReadDeadline with readReady := false } from rfl] at _h
    rw [_h] at hr' hw'
    simp only [passes, clearReadDeadline, Bool.toNat_false] at hr' hw' ⊢
    omega
  · simp only [passes]
    omega
  · rename_i hw
    simp only [passes, hw, Bool.toNat_true]
    omega
  · obtain ⟨hr, hw⟩ := noNewFlag_onWritable env { c.clearWriteDeadline with writeReady := false }
    have hw' := Bool.toNat_le_toNat hw
    have hr' := Bool.toNat_le_toNat hr
    rw [show c₁ = { c.clearWriteDeadline with writeReady := false } from rfl] at _h
    rw [_h] at hr' hw'
    simp only [passes, clearWriteDeadline, Bool.toNat_false] at hr' hw' ⊢
    omega

/-- `handle.resume()`: the coroutine goes on after the `co_await` it is suspended in. -/
def resume (env : Env) (c : Connection) : Connection :=
  match c.coroutine with
  | .waitReadable => c.proceed env .afterRead
  | .waitWritable => c.proceed env .afterWrite
  | .returned => c

/-- `resumeClosing` is what a resumption does when `should_close_` is set. -/
theorem resume_of_shouldClose (env : Env) {c : Connection} (h : c.shouldClose = true) :
    c.resume env = c.resumeClosing := by
  unfold resume resumeClosing
  cases c.coroutine with
  | returned => rfl
  | waitReadable =>
    dsimp only
    rw [proceed]
    exact if_pos h
  | waitWritable =>
    dsimp only
    rw [proceed]
    exact if_pos h

/-- `NotifyReadable`. -/
def notifyReadable (env : Env) (c : Connection) : Connection :=
  let c : Connection := { c with readReady := true, state := .kReading }
  if c.readWaiter then resume env { c with readWaiter := false } else c

/-- `NotifyWritable`. -/
def notifyWritable (env : Env) (c : Connection) : Connection :=
  let c : Connection := { c with writeReady := true, state := .kWriting }
  if c.writeWaiter then resume env { c with writeWaiter := false } else c

/-- `StartConnectionCoroutine`. -/
def startConnectionCoroutine (env : Env) (c : Connection) : Connection := c.proceed env .top

end Connection
end Server
end MiniRpc
