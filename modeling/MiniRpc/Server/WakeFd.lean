/-
# The wake-up descriptor of a worker

A worker sleeps in `epoll_wait`; the acceptor and the tasks of the pool hand it
their connections and responses through two queues, each with a mutex, and wake
it through one `eventfd` (`src/server/worker_loop.cpp`).  A producer pushes under
the mutex and then writes to the descriptor.  `PollOnce` reads the descriptor
down to zero and takes the two queues one after the other, and a push may fall
anywhere in between.

The owner thread goes through `PollOnce` a step at a time here, and the steps are
the calls of `MiniRpc.Server.WorkerLoop`.  A write to the descriptor counts it
up, or fails with `EAGAIN`, which it does only with the counter above zero;
`epoll_wait` reports the descriptor only with the counter above zero, and need not
report it then.  A step that fails ends the worker, and the run.
-/

import MiniRpc.Server.OwnedLoop

namespace MiniRpc
namespace Server

open Transition

/-- Where the owner thread is in `PollOnce`. -/
inductive WakePhase where
  /-- In `epoll_wait`. -/
  | waiting
  /-- In `DrainWakeFd`. -/
  | draining (events : List ReadyEvent)
  /-- At the start of `DrainPendingConnections`. -/
  | swapping (events : List ReadyEvent)
  | adopting (events : List ReadyEvent) (pending : List PendingConnection)
  | delivering (events : List ReadyEvent) (completed : List CompletedResponse)
  /-- Before step 2. -/
  | ticking (events : List ReadyEvent)
  /-- In the loop of step 3. -/
  | handling (events : List ReadyEvent)

namespace WakePhase

/-- The connections that are taken from their queue and not yet adopted. -/
def pending : WakePhase → List PendingConnection
  | .adopting _ ps => ps
  | _ => []

/-- The responses that are taken from their queue and not yet looked at. -/
def completed : WakePhase → List CompletedResponse
  | .delivering _ rs => rs
  | _ => []

/-- The owner thread is in `epoll_wait`. -/
def isWaiting : WakePhase → Bool
  | .waiting => true
  | _ => false

/-- In this poll `pending_connections_` is still to be taken. -/
def beforePending : WakePhase → Bool
  | .draining _ => true
  | .swapping _ => true
  | _ => false

/-- In this poll the completed responses are still to be taken. -/
def beforeCompleted : WakePhase → Bool
  | .draining _ => true
  | .swapping _ => true
  | .adopting _ _ => true
  | _ => false

end WakePhase

/-- A worker with its wake-up descriptor and its producers; `writing` are the
threads that are about to write to the descriptor. -/
structure WakeLoop where
  loop : WorkerLoop
  counter : ℕ := 0
  writing : List ℕ := []
  phase : WakePhase := .waiting
  /-- Everything that was pushed, and what the owner thread did with it. -/
  enqueued : List PendingConnection := []
  finished : List CompletedResponse := []
  adopted : List PendingConnection := []
  delivered : List CompletedResponse := []

namespace WakeLoop

/-- The worker after `Init`. -/
def start (w : WorkerLoop) : WakeLoop where
  loop := { w with pendingConnections := [], completed := some [] }

/-- One step of a thread. -/
inductive Act where
  /-- `EnqueueConnection` pushes. -/
  | enqueue (k : ℕ) (p : PendingConnection)
  /-- A task of the pool pushes its response. -/
  | complete (k : ℕ) (r : CompletedResponse)
  /-- `RequestStop` is about to write. -/
  | wakeup (k : ℕ)
  /-- The write to the descriptor, or `EAGAIN`. -/
  | write (k : ℕ) (accepted : Bool)
  /-- `epoll_wait` returns. -/
  | collect (events : List ReadyEvent)
  /-- The owner thread goes on. -/
  | work (env : LoopEnv) (now : Time)

/-- The owner thread goes on after a call that succeeded. -/
def after (r : Ended) (f : WorkerLoop → WakeLoop) : Option WakeLoop :=
  match r with
  | .ok w => some (f w)
  | _ => none

/-- The owner thread in `PollOnce`. -/
def work (env : LoopEnv) (now : Time) (s : WakeLoop) : Option WakeLoop :=
  match s.phase with
  | .waiting => none
  | .draining events =>
    if s.counter = 0 then some { s with phase := .swapping events }
    else some { s with counter := 0 }
  | .swapping events =>
    some { s with
      loop := { s.loop with pendingConnections := [] }
      phase := .adopting events s.loop.pendingConnections }
  | .adopting events (p :: ps) =>
    after (s.loop.addConnectionOnOwnerThread env p) fun loop =>
      { s with loop, phase := .adopting events ps, adopted := s.adopted ++ [p] }
  | .adopting events [] =>
    some { s with
      loop := { s.loop with completed := s.loop.completed.map fun _ => [] }
      phase := .delivering events (s.loop.completed.getD []) }
  | .delivering events (r :: rs) =>
    after (s.loop.deliver env r) fun loop =>
      { s with loop, phase := .delivering events rs, delivered := s.delivered ++ [r] }
  | .delivering events [] => some { s with phase := .ticking events }
  | .ticking events => some { s with loop := s.loop.tickAll now, phase := .handling events }
  | .handling (e :: events) =>
    after (s.loop.handleEvent env e) fun loop => { s with loop, phase := .handling events }
  | .handling [] => some { s with phase := .waiting }

/-- One step, `none` if it cannot happen in the state. -/
def step (s : WakeLoop) : Act → Option WakeLoop
  | .enqueue k p =>
    if k ∈ s.writing then none
    else some { s with
      loop := { s.loop with pendingConnections := s.loop.pendingConnections ++ [p] }
      writing := k :: s.writing
      enqueued := s.enqueued ++ [p] }
  | .complete k r =>
    if k ∈ s.writing then none
    else some { s with
      loop := { s.loop with completed := s.loop.completed.map (· ++ [r]) }
      writing := k :: s.writing
      finished := s.finished ++ [r] }
  | .wakeup k => if k ∈ s.writing then none else some { s with writing := k :: s.writing }
  | .write k true =>
    if k ∈ s.writing ∧ s.counter + 2 < 2 ^ 64 then
      some { s with counter := s.counter + 1, writing := s.writing.erase k }
    else none
  | .write k false =>
    if k ∈ s.writing ∧ s.counter ≠ 0 then some { s with writing := s.writing.erase k } else none
  | .collect events =>
    match s.phase with
    | .waiting =>
      if (events.any fun e => e.fd = s.loop.wakeFd) = true then
        if s.counter = 0 then none else some { s with phase := .draining events }
      else some { s with phase := .ticking events }
    | _ => none
  | .work env now => s.work env now

/-! ### The invariant -/

/-- What holds in every state that is reached: a queue that is not empty has a
wake-up under way, or the owner thread has still to take it in this poll; and
everything that was pushed is done, in hand or in its queue, in this order. -/
structure Sound (s : WakeLoop) : Prop where
  pending : s.loop.pendingConnections ≠ [] →
    0 < s.counter ∨ s.writing ≠ [] ∨ s.phase.beforePending = true
  completed : s.loop.completed.getD [] ≠ [] →
    0 < s.counter ∨ s.writing ≠ [] ∨ s.phase.beforeCompleted = true
  queue : s.loop.completed.isSome
  enqueued : s.enqueued = s.adopted ++ s.phase.pending ++ s.loop.pendingConnections
  finished : s.finished = s.delivered ++ s.phase.completed ++ s.loop.completed.getD []

namespace Sound

variable {s t : WakeLoop}

theorem init (w : WorkerLoop) : (start w).Sound where
  pending := fun h => absurd rfl h
  completed := fun h => absurd rfl h
  queue := rfl
  enqueued := rfl
  finished := rfl

/-- A thread goes to its write after a push, which put an item at the end of one
of the queues or of none. -/
theorem push (h : s.Sound) (k : ℕ) (ps : List PendingConnection) (rs : List CompletedResponse) :
    Sound { s with
      loop := { s.loop with
        pendingConnections := s.loop.pendingConnections ++ ps
        completed := s.loop.completed.map (· ++ rs) }
      writing := k :: s.writing
      enqueued := s.enqueued ++ ps
      finished := s.finished ++ rs } where
  pending := fun _ => Or.inr (Or.inl (by simp))
  completed := fun _ => Or.inr (Or.inl (by simp))
  queue := by simpa using h.queue
  enqueued := by
    dsimp only
    rw [h.enqueued, List.append_assoc]
  finished := by
    obtain ⟨queue, hqueue⟩ := Option.isSome_iff_exists.1 h.queue
    have hfinished := h.finished
    rw [hqueue] at hfinished
    simp only [hqueue, Option.map_some, Option.getD_some, hfinished, List.append_assoc]

/-- A thread has written, and the counter is above zero. -/
theorem written (h : s.Sound) {counter : ℕ} (hcounter : 0 < counter) (writing : List ℕ) :
    Sound { s with counter, writing } where
  pending := fun _ => Or.inl hcounter
  completed := fun _ => Or.inl hcounter
  queue := h.queue
  enqueued := h.enqueued
  finished := h.finished

/-- The owner thread goes on, past the queues and with nothing in hand, and they
are left as they are. -/
theorem goto (h : s.Sound) (hpending : s.phase.beforePending = false ∧ s.phase.pending = [])
    (hcompleted : s.phase.beforeCompleted = false ∧ s.phase.completed = []) (w : WorkerLoop)
    (hp : w.pendingConnections = s.loop.pendingConnections)
    (hc : w.completed = s.loop.completed) (phase : WakePhase) (hphase : phase.pending = [])
    (hphase' : phase.completed = []) : Sound { s with loop := w, phase } where
  pending := fun hne => (h.pending (hp ▸ hne)).imp_right fun hor =>
    Or.inl (hor.resolve_right (by simp [hpending.1]))
  completed := fun hne => (h.completed (hc ▸ hne)).imp_right fun hor =>
    Or.inl (hor.resolve_right (by simp [hcompleted.1]))
  queue := hc ▸ h.queue
  enqueued := by
    dsimp only
    have henqueued := h.enqueued
    rw [hpending.2] at henqueued
    rw [hp, hphase]
    exact henqueued
  finished := by
    dsimp only
    have hfinished := h.finished
    rw [hcompleted.2] at hfinished
    rw [hc, hphase']
    exact hfinished

theorem after_cases {r : Ended} {f : WorkerLoop → WakeLoop} (h : after r f = some t) :
    ∃ w, r = .ok w ∧ t = f w := by
  cases r with
  | ok w => exact ⟨w, rfl, (Option.some.inj h).symm⟩
  | failed w e => cases h
  | blocked => cases h

/-- A connection is adopted. -/
theorem adopt (h : s.Sound) {env : LoopEnv} {events : List ReadyEvent} {p : PendingConnection}
    {ps : List PendingConnection} {w : WorkerLoop} (hphase : s.phase = .adopting events (p :: ps))
    (hw : s.loop.addConnectionOnOwnerThread env p = .ok w) :
    Sound { s with
      loop := w, phase := .adopting events ps, adopted := s.adopted ++ [p] } := by
  obtain ⟨hp, hc⟩ : w.pendingConnections = s.loop.pendingConnections ∧
      w.completed = s.loop.completed := by
    rcases WorkerLoop.addConnectionOnOwnerThread_cases env s.loop p with
      ⟨w', c, hadd, -, -, -, rfl⟩ | ⟨w', e, hadd, -⟩
    · obtain rfl := Ended.ok.inj (hw.symm.trans hadd)
      exact ⟨rfl, rfl⟩
    · rw [hw] at hadd
      cases hadd
  have hpending := h.pending
  have hcompleted := h.completed
  have henqueued := h.enqueued
  have hfinished := h.finished
  rw [hphase] at hpending hcompleted henqueued hfinished
  refine ⟨fun hne => ?_, fun _ => Or.inr (Or.inr rfl), hc ▸ h.queue, ?_, ?_⟩
  · exact hpending (hp ▸ hne)
  · dsimp only
    rw [hp, henqueued]
    simp [WakePhase.pending]
  · dsimp only
    rw [hc]
    exact hfinished

/-- The completed responses are taken. -/
theorem swap (h : s.Sound) {events : List ReadyEvent} (hphase : s.phase = .adopting events []) :
    Sound { s with
      loop := { s.loop with completed := s.loop.completed.map fun _ => [] }
      phase := .delivering events (s.loop.completed.getD []) } := by
  obtain ⟨queue, hqueue⟩ := Option.isSome_iff_exists.1 h.queue
  have hpending := h.pending
  have henqueued := h.enqueued
  have hfinished := h.finished
  rw [hphase] at hpending henqueued hfinished
  refine ⟨hpending, fun hne => ?_, ?_, henqueued, ?_⟩
  · simp [hqueue] at hne
  · simp [hqueue]
  · simpa [hqueue, WakePhase.completed] using hfinished

/-- A response is delivered. -/
theorem deliver (h : s.Sound) {env : LoopEnv} {events : List ReadyEvent} {r : CompletedResponse}
    {rs : List CompletedResponse} {w : WorkerLoop}
    (hphase : s.phase = .delivering events (r :: rs)) (hw : s.loop.deliver env r = .ok w) :
    Sound { s with
      loop := w, phase := .delivering events rs, delivered := s.delivered ++ [r] } := by
  have hsame := WorkerLoop.shrinks_deliver env s.loop r
  rw [hw] at hsame
  have hpending := h.pending
  have hcompleted := h.completed
  have henqueued := h.enqueued
  have hfinished := h.finished
  rw [hphase] at hpending hcompleted henqueued hfinished
  refine ⟨fun hne => ?_, fun hne => ?_, hsame.completed ▸ h.queue, ?_, ?_⟩
  · exact hpending (hsame.pending ▸ hne)
  · exact hcompleted (hsame.completed ▸ hne)
  · dsimp only
    rw [hsame.pending]
    exact henqueued
  · dsimp only
    rw [hsame.completed, hfinished]
    simp [WakePhase.completed]

/-- The owner thread goes on. -/
theorem work (h : s.Sound) {env : LoopEnv} {now : Time} (hs : s.work env now = some t) :
    t.Sound := by
  unfold WakeLoop.work at hs
  split at hs
  · cases hs
  · rename_i events hphase
    split_ifs at hs with hzero
    · obtain rfl := Option.some.inj hs
      exact ⟨fun _ => Or.inr (Or.inr rfl), fun _ => Or.inr (Or.inr rfl), h.queue,
        by simpa [hphase, WakePhase.pending] using h.enqueued,
        by simpa [hphase, WakePhase.completed] using h.finished⟩
    · obtain rfl := Option.some.inj hs
      exact ⟨fun _ => Or.inr (Or.inr (by rw [hphase]; rfl)),
        fun _ => Or.inr (Or.inr (by rw [hphase]; rfl)), h.queue, h.enqueued, h.finished⟩
  · rename_i events hphase
    obtain rfl := Option.some.inj hs
    exact ⟨fun hne => absurd rfl hne, fun _ => Or.inr (Or.inr rfl), h.queue,
      by simpa [hphase, WakePhase.pending] using h.enqueued,
      by simpa [hphase, WakePhase.completed] using h.finished⟩
  · rename_i events p ps hphase
    obtain ⟨w, hw, rfl⟩ := after_cases hs
    exact h.adopt hphase hw
  · rename_i events hphase
    obtain rfl := Option.some.inj hs
    exact h.swap hphase
  · rename_i events r rs hphase
    obtain ⟨w, hw, rfl⟩ := after_cases hs
    exact h.deliver hphase hw
  · rename_i events hphase
    obtain rfl := Option.some.inj hs
    exact h.goto (by rw [hphase]; exact ⟨rfl, rfl⟩) (by rw [hphase]; exact ⟨rfl, rfl⟩) _ rfl rfl
      (.ticking events) rfl rfl
  · rename_i events hphase
    obtain rfl := Option.some.inj hs
    exact h.goto (by rw [hphase]; exact ⟨rfl, rfl⟩) (by rw [hphase]; exact ⟨rfl, rfl⟩)
      (s.loop.tickAll now) rfl rfl (.handling events) rfl rfl
  · rename_i e events hphase
    obtain ⟨w, hw, rfl⟩ := after_cases hs
    have hsame := WorkerLoop.shrinks_handleEvent env s.loop e
    rw [hw] at hsame
    exact h.goto (by rw [hphase]; exact ⟨rfl, rfl⟩) (by rw [hphase]; exact ⟨rfl, rfl⟩)
      w hsame.pending hsame.completed (.handling events) rfl rfl
  · rename_i hphase
    obtain rfl := Option.some.inj hs
    exact h.goto (by rw [hphase]; exact ⟨rfl, rfl⟩) (by rw [hphase]; exact ⟨rfl, rfl⟩) _ rfl rfl
      .waiting rfl rfl

/-- **Every step keeps the state sound.** -/
theorem step {a : Act} (h : s.Sound) (hs : WakeLoop.step s a = some t) : t.Sound := by
  cases a with
  | enqueue k p =>
    simp only [WakeLoop.step] at hs
    split_ifs at hs
    obtain rfl := Option.some.inj hs
    simpa using h.push k [p] []
  | complete k r =>
    simp only [WakeLoop.step] at hs
    split_ifs at hs
    obtain rfl := Option.some.inj hs
    simpa using h.push k [] [r]
  | wakeup k =>
    simp only [WakeLoop.step] at hs
    split_ifs at hs
    obtain rfl := Option.some.inj hs
    simpa using h.push k [] []
  | write k accepted =>
    cases accepted with
    | true =>
      simp only [WakeLoop.step] at hs
      split_ifs at hs
      obtain rfl := Option.some.inj hs
      exact h.written (Nat.succ_pos _) _
    | false =>
      simp only [WakeLoop.step] at hs
      split_ifs at hs with hcounter
      obtain rfl := Option.some.inj hs
      exact h.written (Nat.pos_of_ne_zero hcounter.2) _
  | collect events =>
    simp only [WakeLoop.step] at hs
    split at hs
    · rename_i hphase
      split_ifs at hs with hwake hzero
      · obtain rfl := Option.some.inj hs
        exact ⟨fun _ => Or.inr (Or.inr rfl), fun _ => Or.inr (Or.inr rfl), h.queue,
          by simpa [hphase, WakePhase.pending] using h.enqueued,
          by simpa [hphase, WakePhase.completed] using h.finished⟩
      · obtain rfl := Option.some.inj hs
        exact h.goto (by rw [hphase]; exact ⟨rfl, rfl⟩) (by rw [hphase]; exact ⟨rfl, rfl⟩)
          _ rfl rfl (.ticking events) rfl rfl
    · cases hs
  | work env now => exact h.work hs

end Sound

/-- **No wake-up is lost.**  Whatever the producers and the owner thread do in
between: when the owner thread is in `epoll_wait` and no producer is between its
push and its write, both queues are empty or the descriptor is readable; and what
was pushed is, in this order, what was processed, what the owner thread has in
hand, and what is in the queue. -/
theorem no_lost_wakeup {w : WorkerLoop} {es : List Act} {s : WakeLoop}
    (hrun : exec step (start w) es = some s) :
    (s.phase = .waiting → s.writing = [] →
      s.loop.pendingConnections = [] ∧ s.loop.completed = some [] ∨ 0 < s.counter) ∧
    s.enqueued = s.adopted ++ s.phase.pending ++ s.loop.pendingConnections ∧
    s.finished = s.delivered ++ s.phase.completed ++ s.loop.completed.getD [] := by
  have h : s.Sound := exec_invariant (Sound.init w) (fun _ _ _ hS hs => hS.step hs) hrun
  refine ⟨fun hwaiting hquiet => ?_, h.enqueued, h.finished⟩
  by_contra hnot
  obtain ⟨hqueues, hcounter⟩ := not_or.1 hnot
  have hpending : s.loop.pendingConnections = [] := by
    by_contra hne
    rcases h.pending hne with hc | hc | hc
    · exact hcounter hc
    · exact hc hquiet
    · rw [hwaiting] at hc
      cases hc
  have hcompleted : s.loop.completed.getD [] = [] := by
    by_contra hne
    rcases h.completed hne with hc | hc | hc
    · exact hcounter hc
    · exact hc hquiet
    · rw [hwaiting] at hc
      cases hc
  obtain ⟨queue, hqueue⟩ := Option.isSome_iff_exists.1 h.queue
  rw [hqueue] at hcompleted
  exact hqueues ⟨hpending, hqueue.trans (congrArg some hcompleted)⟩

/-- **What is logged was done**: a connection that a step adopts is in the table after it
and was not before, and a response that a step delivers went through the loop. -/
theorem logged_step {a : Act} {s t : WakeLoop} (hs : step s a = some t) :
    (t.adopted = s.adopted ∨ ∃ p, t.adopted = s.adopted ++ [p] ∧
      s.loop.connections.lookup p.fd = none ∧ (t.loop.connections.lookup p.fd).isSome = true) ∧
    (t.delivered = s.delivered ∨ ∃ env r, t.delivered = s.delivered ++ [r] ∧
      s.loop.deliver env r = .ok t.loop) := by
  cases a with
  | work env now =>
    simp only [step, work] at hs
    split at hs
    · cases hs
    · split_ifs at hs <;> exact Option.some.inj hs ▸ ⟨Or.inl rfl, Or.inl rfl⟩
    · exact Option.some.inj hs ▸ ⟨Or.inl rfl, Or.inl rfl⟩
    · rename_i events p ps hphase
      obtain ⟨w, hw, rfl⟩ := Sound.after_cases hs
      refine ⟨Or.inr ⟨p, rfl, ?_⟩, Or.inl rfl⟩
      rcases WorkerLoop.addConnectionOnOwnerThread_cases env s.loop p with
        ⟨w', c, hadd, -, -, hfree, rfl⟩ | ⟨w', e, hadd, -⟩
      · obtain rfl := Ended.ok.inj (hw.symm.trans hadd)
        exact ⟨hfree, by simp⟩
      · rw [hw] at hadd
        cases hadd
    · exact Option.some.inj hs ▸ ⟨Or.inl rfl, Or.inl rfl⟩
    · rename_i events r rs hphase
      obtain ⟨w, hw, rfl⟩ := Sound.after_cases hs
      exact ⟨Or.inl rfl, Or.inr ⟨env, r, rfl, hw⟩⟩
    · exact Option.some.inj hs ▸ ⟨Or.inl rfl, Or.inl rfl⟩
    · exact Option.some.inj hs ▸ ⟨Or.inl rfl, Or.inl rfl⟩
    · obtain ⟨w, -, rfl⟩ := Sound.after_cases hs
      exact ⟨Or.inl rfl, Or.inl rfl⟩
    · exact Option.some.inj hs ▸ ⟨Or.inl rfl, Or.inl rfl⟩
  | write k accepted =>
    cases accepted <;> simp only [step] at hs <;> split_ifs at hs <;>
      exact Option.some.inj hs ▸ ⟨Or.inl rfl, Or.inl rfl⟩
  | collect events =>
    simp only [step] at hs
    split at hs
    · split_ifs at hs <;> exact Option.some.inj hs ▸ ⟨Or.inl rfl, Or.inl rfl⟩
    · cases hs
  | _ =>
    simp only [step] at hs
    split_ifs at hs
    exact Option.some.inj hs ▸ ⟨Or.inl rfl, Or.inl rfl⟩

/-- The response is a body of three bytes. -/
def wokenEnv : LoopEnv where
  request := .only ⟨"", "", "", []⟩ []
  response := .only ⟨"1", 0, "", []⟩ [0x0A, 1, 0x31]

/-- The acceptor and a task of the pool push, and write in the other order; then the worker
polls, and takes both queues. -/
def wokenActs : List Act :=
  [.enqueue 0 { fd := 8 }, .complete 1 ⟨7, 1, "1", 0, "", []⟩, .write 1 true, .write 0 true,
    .collect [{ fd := 3, readable := true }]] ++ List.replicate 10 (.work wokenEnv 5)

/-- After the poll the connection is in the table, and the response is delivered. -/
theorem no_lost_wakeup_pushed :
    ∃ s, exec step (start WorkerLoop.idle) wokenActs = some s ∧
      (s.loop.pendingConnections = [] ∧ s.loop.completed = some [] ∨ 0 < s.counter) ∧
      s.adopted.map PendingConnection.fd = [8] ∧
      (s.loop.connections.lookup 8).isSome = true ∧
      s.delivered.map CompletedResponse.requestId = ["1"] := by
  obtain ⟨s, hs, hall⟩ := (Option.any_eq_true _ _).1 (show
    (exec step (start WorkerLoop.idle) wokenActs).any (fun s =>
      s.phase.isWaiting && decide (s.writing = []) &&
        decide (s.adopted.map PendingConnection.fd = [8]) &&
        (s.loop.connections.lookup 8).isSome &&
        decide (s.delivered.map CompletedResponse.requestId = ["1"])) = true by decide +kernel)
  simp only [Bool.and_eq_true, decide_eq_true_eq] at hall
  obtain ⟨⟨⟨⟨hphase, hwriting⟩, hadopted⟩, hthere⟩, hdelivered⟩ := hall
  have hwaiting : s.phase = .waiting := by
    cases hp : s.phase with
    | waiting => rfl
    | _ => simp [hp, WakePhase.isWaiting] at hphase
  exact ⟨s, hs, (no_lost_wakeup hs).1 hwaiting hwriting, hadopted, hthere, hdelivered⟩

end WakeLoop
end Server
end MiniRpc
