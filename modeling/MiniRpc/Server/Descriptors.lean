/-
# Who closes a descriptor

`RpcServer::Start` of `src/server/rpc_server.cpp` accepts connections and hands
their descriptors to the workers in turn.  A descriptor is owned by one
`UniqueFd` (`src/common/unique_fd.h`) at a time, whose destructor calls `close`:
the parameter of `EnqueueConnection`, an entry of `pending_connections_`, of the
local queue of `DrainPendingConnections`, and at last a `Connection` of
`connections_`.  Here an owner is a place in one of these lists, a move goes from
one place to another, and the destructor of an owner that was not moved from is
one more call of `close` in `closes`.

Accepted connections are numbered, since the kernel hands out the number of a
closed descriptor again; `closes` names the connection that a call of `close` was
made for.  The workers run the functions of `MiniRpc.Server.WorkerLoop`, in any
order that `Run` allows, and a connection that such a call takes out of the table
is destroyed.  Of `Run` after its loop the drains may come in any order.

`closedOnce_iff` says when each descriptor is closed once.
-/

import MiniRpc.Server.PendingAdoption

namespace MiniRpc
namespace Server

open Transition

/-- A connection that `accept4` returned, with its number. -/
structure Accepted where
  id : ℕ
  connection : PendingConnection
  valid : 0 ≤ connection.fd

/-- A call that the owner thread makes on its connections in `PollOnce`. -/
inductive LoopCall where
  | deliver (r : CompletedResponse)
  | tick (now : Time)
  | handle (e : ReadyEvent)

/-- The call. -/
def LoopCall.run (env : LoopEnv) (w : WorkerLoop) : LoopCall → Ended
  | .deliver r => w.deliver env r
  | .tick now => .ok (w.tickAll now)
  | .handle e => w.handleEvent env e

/-- Where a worker thread is in `Run`. -/
inductive DescriptorPhase where
  | polling
  /-- In the loop of `DrainPendingConnections`, after the loop of `Run` or in it. -/
  | adopting (last : Bool) (queue : List Accepted)
  /-- `PollOnce` has returned false. -/
  | failing
  /-- After the loop of `Run`. -/
  | draining
  | exited
  /-- The `WorkerLoop` was destroyed. -/
  | destroyed

def DescriptorPhase.isDestroyed : DescriptorPhase → Bool
  | .destroyed => true
  | _ => false

/-- The descriptors that the phase owns. -/
def DescriptorPhase.held : DescriptorPhase → List ℕ
  | .adopting _ queue => queue.map Accepted.id
  | _ => []

/-- A worker; `owner` is the number of the connection at a descriptor of the table. -/
structure DescriptorLoop where
  loop : WorkerLoop
  acceptingNewConnections : Bool := true
  stopRequested : Bool := false
  pending : List Accepted := []
  phase : DescriptorPhase := .polling
  owner : ℤ → ℕ := fun _ => 0

namespace DescriptorLoop

/-- The tests of `EnqueueConnection`. -/
def refuses (d : DescriptorLoop) (fd : ℤ) : Option String :=
  if fd < 0 then some "invalid client fd"
  else if !d.acceptingNewConnections then
    some "worker loop is stopping and no longer accepts new connections"
  else if !d.loop.initialized then some "worker loop not initialized"
  else none

/-- The connections that a call took out of the table. -/
def destroyedBy (d : DescriptorLoop) (loop : WorkerLoop) : List ℕ :=
  (d.loop.connections.keys.filter fun fd => fd ∉ loop.connections.keys).map d.owner

/-- The descriptors that the worker owns. -/
def held (d : DescriptorLoop) : List ℕ :=
  d.pending.map Accepted.id ++ d.phase.held ++ d.loop.connections.keys.map d.owner

/-- The push of `EnqueueConnection`. -/
def enqueue (d : DescriptorLoop) (a : Accepted) : DescriptorLoop :=
  { d with pending := d.pending ++ [a] }

/-- `RequestStop`. -/
def requestStop (d : DescriptorLoop) : DescriptorLoop :=
  { d with acceptingNewConnections := false, stopRequested := true }

/-- The worker after its destructor. -/
def destroy (d : DescriptorLoop) : DescriptorLoop :=
  { d with loop := { d.loop with connections := ∅ }, pending := [], phase := .destroyed }

/-- What the worker thread does next. -/
inductive Work where
  /-- `DrainPendingConnections` takes the queue. -/
  | swap
  | adopt
  | call (c : LoopCall)
  /-- `epoll_wait` or the read of the wake-up descriptor fails. -/
  | fail
  /-- The loop of `Run` is over. -/
  | leave
  /-- `CloseAllConnections`, and the thread is done. -/
  | finish

/-- One step of the worker thread, and the descriptors that it closes. -/
def work (env : LoopEnv) (d : DescriptorLoop) : Work → Option (DescriptorLoop × List ℕ)
  | .swap =>
    match d.phase with
    | .polling => some ({ d with pending := [], phase := .adopting false d.pending }, [])
    | .draining => some ({ d with pending := [], phase := .adopting true d.pending }, [])
    | _ => none
  | .adopt =>
    match d.phase with
    | .adopting last [] => some ({ d with phase := if last then .draining else .polling }, [])
    | .adopting last (a :: queue) =>
      match d.loop.addConnectionOnOwnerThread env a.connection with
      | .ok loop =>
        some ({ d with
          loop
          phase := .adopting last queue
          owner := fun fd => if fd = a.connection.fd then a.id else d.owner fd }, [])
      | .failed loop _ =>
        -- the parameter is destroyed, and the rest of the queue with it
        some ({ d with loop, phase := if last then .draining else .failing },
          a.id :: queue.map Accepted.id)
      | .blocked => none
    | _ => none
  | .call c =>
    match d.phase, c.run env d.loop with
    | .polling, .ok loop => some ({ d with loop }, d.destroyedBy loop)
    | .polling, .failed loop _ => some ({ d with loop, phase := .failing }, d.destroyedBy loop)
    | .draining, .ok loop => some ({ d with loop }, d.destroyedBy loop)
    | .draining, .failed loop _ => some ({ d with loop }, d.destroyedBy loop)
    | _, _ => none
  | .fail =>
    match d.phase with
    | .polling => some ({ d with phase := .failing }, [])
    | _ => none
  | .leave =>
    match d.phase with
    | .polling =>
      if d.stopRequested then
        some ({ d with acceptingNewConnections := false, phase := .draining }, [])
      else none
    | .failing => some ({ d with acceptingNewConnections := false, phase := .draining }, [])
    | _ => none
  | .finish =>
    match d.phase, d.loop.closeAllConnections env with
    | .draining, .ok loop => some ({ d with loop, phase := .exited }, d.destroyedBy loop)
    | .draining, .failed loop _ => some ({ d with loop, phase := .exited }, d.destroyedBy loop)
    | _, _ => none

end DescriptorLoop

/-- `SelectWorker`: the worker, and `next_worker_` after it. -/
def selectWorker (workers nextWorker : ℕ) : ℕ × ℕ := (nextWorker, (nextWorker + 1) % workers)

/-- Where the thread in `Start` is in its accept loop. -/
inductive AcceptPlace where
  | looping
  /-- In `EnqueueConnection` of the worker: its tests, and the push. -/
  | testing (a : Accepted) (worker : ℕ)
  | pushing (a : Accepted) (worker : ℕ)
  /-- `EnqueueConnection` returned false, and the accept loop is about to call `close`. -/
  | refused (a : Accepted)
  /-- The loop is over. -/
  | left

def AcceptPlace.isLeft : AcceptPlace → Bool
  | .left => true
  | _ => false

/-- The descriptor that `EnqueueConnection` owns. -/
def AcceptPlace.held : AcceptPlace → List ℕ
  | .testing a _ | .pushing a _ => [a.id]
  | _ => []

/-- The server, as far as the descriptors of its connections go. -/
structure DescriptorServer where
  workers : List DescriptorLoop
  nextWorker : ℕ := 0
  place : AcceptPlace := .looping
  /-- How many connections were accepted. -/
  accepted : ℕ := 0
  /-- The calls of `close`, by the connection that each was made for. -/
  closes : List ℕ := []

namespace DescriptorServer

/-- One step of one thread. -/
inductive Event where
  /-- `accept4` returns a connection. -/
  | accept (p : PendingConnection)
  /-- The thread in `Start` goes on. -/
  | proceed
  /-- It leaves the accept loop. -/
  | leave
  /-- `RequestStop` for a worker, and its destruction, in `StopWorkers`. -/
  | requestStop (i : ℕ)
  | clear (i : ℕ)
  | work (i : ℕ) (w : DescriptorLoop.Work)

/-- `EnqueueConnection`, and what the accept loop does if it returns false. -/
def proceed (s : DescriptorServer) : Option DescriptorServer :=
  match s.place with
  | .looping | .left => none
  | .testing a i =>
    (s.workers[i]?).map fun d =>
      match d.refuses a.connection.fd with
      -- the destructor of the parameter
      | some _ => { s with place := .refused a, closes := s.closes ++ [a.id] }
      | none => { s with place := .pushing a i }
  | .pushing a i =>
    some { s with workers := s.workers.modify i fun d => d.enqueue a, place := .looping }
  | .refused a => some { s with place := .looping, closes := s.closes ++ [a.id] }

/-- One step, `none` if it cannot happen in the state. -/
def step (env : LoopEnv) (s : DescriptorServer) : Event → Option DescriptorServer
  | .accept p =>
    match s.place with
    | .looping =>
      if h : 0 ≤ p.fd then
        let (i, nextWorker) := selectWorker s.workers.length s.nextWorker
        some { s with
          nextWorker, place := .testing ⟨s.accepted, p, h⟩ i, accepted := s.accepted + 1 }
      else none
    | _ => none
  | .proceed => s.proceed
  | .leave =>
    match s.place with
    | .looping => some { s with place := .left }
    | _ => none
  | .requestStop i =>
    match s.place with
    | .left => some { s with workers := s.workers.modify i DescriptorLoop.requestStop }
    | _ => none
  | .clear i =>
    match s.place, s.workers[i]? with
    | .left, some d =>
      match d.phase with
      | .exited =>
        some { s with workers := s.workers.set i d.destroy, closes := s.closes ++ d.held }
      | _ => none
    | _, _ => none
  | .work i w =>
    match s.workers[i]? with
    | none => none
    | some d =>
      (d.work env w).map fun (d', closed) =>
        { s with workers := s.workers.set i d', closes := s.closes ++ closed }

/-- `Start` with its workers running, before the first connection. -/
def start (loops : List WorkerLoop) : DescriptorServer :=
  { workers := loops.map fun loop => { loop } }

/-- The descriptors that somebody owns. -/
def held (s : DescriptorServer) : List ℕ := s.place.held ++ s.workers.flatMap DescriptorLoop.held

/-- The accept loop is over and all workers are destroyed. -/
def isOver (s : DescriptorServer) : Bool :=
  s.place.isLeft && s.workers.all fun d => d.phase.isDestroyed

/-- No descriptor was closed twice for one connection, and each was closed if the server is
gone. -/
structure ClosedOnce (s : DescriptorServer) : Prop where
  atMost : ∀ id, s.closes.count id ≤ 1
  closed : s.isOver = true → ∀ id < s.accepted, s.closes.count id = 1

/-- If `EnqueueConnection` is at its tests, they pass. -/
def admits (s : DescriptorServer) : Event → Bool
  | .proceed =>
    match s.place with
    | .testing a i => (s.workers[i]?).all fun d => (d.refuses a.connection.fd).isNone
    | _ => true
  | _ => true

end DescriptorServer

/-! ### Where the descriptors of a worker go -/

namespace DescriptorLoop

variable {env : LoopEnv} {d d' : DescriptorLoop} {closed : List ℕ}

/-- The connections that a call leaves, and those that it destroyed. -/
theorem perm_destroyedBy {loop : WorkerLoop}
    (h : ∀ fd ∈ loop.connections.keys, fd ∈ d.loop.connections.keys) :
    (d.destroyedBy loop ++ loop.connections.keys.map d.owner).Perm
      (d.loop.connections.keys.map d.owner) := by
  have hkept : (d.loop.connections.keys.filter fun fd => fd ∈ loop.connections.keys).Perm
      loop.connections.keys := by
    refine (List.perm_ext_iff_of_nodup (d.loop.connections.nodupKeys.filter _)
      loop.connections.nodupKeys).2 fun fd => ?_
    simp only [List.mem_filter, decide_eq_true_eq]
    exact ⟨fun hfd => hfd.2, fun hfd => ⟨h fd hfd, hfd⟩⟩
  rw [destroyedBy, ← List.map_append]
  refine List.Perm.map _ (List.perm_append_comm.trans ?_)
  refine (hkept.symm.append_right _).trans ?_
  have hsplit := List.filter_append_perm (fun fd => decide (fd ∈ loop.connections.keys))
    d.loop.connections.keys
  simpa using hsplit

theorem keys_of_entries {w w' : WorkerLoop}
    (h : ∀ fd state', w'.connections.lookup fd = some state' →
      ∃ state, w.connections.lookup fd = some state ∧
        state'.connectionToken = state.connectionToken) :
    ∀ fd ∈ w'.connections.keys, fd ∈ w.connections.keys := by
  intro fd hfd
  obtain ⟨state', hl'⟩ := (Table.mem_keys_iff _ _).1 hfd
  obtain ⟨state, hl, -⟩ := h fd state' hl'
  exact (Table.mem_keys_iff _ _).2 ⟨state, hl⟩

/-- A call on the connections puts none into the table. -/
theorem keys_of_call {c : LoopCall} {loop : WorkerLoop}
    (h : (c.run env d.loop = .ok loop) ∨ ∃ e, c.run env d.loop = .failed loop e) :
    ∀ fd ∈ loop.connections.keys, fd ∈ d.loop.connections.keys := by
  have hkeeps : (c.run env d.loop).Keeps (WorkerLoop.Shrinks d.loop) := by
    cases c with
    | deliver r => exact WorkerLoop.shrinks_deliver env d.loop r
    | tick now => exact WorkerLoop.shrinks_tickAll now d.loop
    | handle e => exact WorkerLoop.shrinks_handleEvent env d.loop e
  rcases h with h | ⟨e, h⟩
  · rw [h] at hkeeps
    exact keys_of_entries hkeeps.entries
  · rw [h] at hkeeps
    exact keys_of_entries hkeeps.entries

theorem shrinks_closeEach (env : LoopEnv) (fds : List ℤ) (w : WorkerLoop) :
    (WorkerLoop.closeEach env w fds).Keeps (WorkerLoop.Shrinks w) := by
  induction fds generalizing w with
  | nil => exact .refl w
  | cons fd fds ih =>
    exact (WorkerLoop.shrinks_closeConnection env w fd).andThen fun v hv => hv.keeps (ih v)

theorem keys_of_closeAll {loop : WorkerLoop}
    (h : (d.loop.closeAllConnections env = .ok loop) ∨
      ∃ e, d.loop.closeAllConnections env = .failed loop e) :
    ∀ fd ∈ loop.connections.keys, fd ∈ d.loop.connections.keys := by
  have hkeeps := shrinks_closeEach env d.loop.connections.keys d.loop
  rw [← WorkerLoop.closeAllConnections] at hkeeps
  rcases h with h | ⟨e, h⟩
  · rw [h] at hkeeps
    exact keys_of_entries hkeeps.entries
  · rw [h] at hkeeps
    exact keys_of_entries hkeeps.entries

/-- What a call leaves of the descriptors. -/
theorem perm_call {loop : WorkerLoop} {phase : DescriptorPhase} (hphase : phase.held = d.phase.held)
    (h : ∀ fd ∈ loop.connections.keys, fd ∈ d.loop.connections.keys) :
    (d.destroyedBy loop ++ held { d with loop, phase }).Perm d.held := by
  unfold held
  dsimp only
  rw [hphase, ← List.append_assoc]
  refine (List.perm_append_comm.append_right _).trans ?_
  rw [List.append_assoc]
  exact (perm_destroyedBy h).append_left _

/-- A connection that is taken over goes from the local queue into the table. -/
theorem perm_adopted {loop : WorkerLoop} {a : Accepted} {queue : List Accepted} {last : Bool}
    {state : ConnectionState} (hphase : d.phase = .adopting last (a :: queue))
    (hfree : d.loop.connections.lookup a.connection.fd = none)
    (hloop : loop.connections = d.loop.connections.insert a.connection.fd state) :
    (held { d with
      loop
      phase := .adopting last queue
      owner := fun fd => if fd = a.connection.fd then a.id else d.owner fd }).Perm d.held := by
  have hnot : a.connection.fd ∉ d.loop.connections.keys := by
    rw [← AList.mem_keys]
    exact AList.lookup_eq_none.1 hfree
  have howner : (d.loop.connections.keys.map fun fd =>
      if fd = a.connection.fd then a.id else d.owner fd) = d.loop.connections.keys.map d.owner := by
    refine List.map_congr_left fun fd hfd => if_neg ?_
    rintro rfl
    exact hnot hfd
  have hkeys : loop.connections.keys = a.connection.fd :: d.loop.connections.keys := by
    rw [hloop, AList.keys_insert, List.erase_of_not_mem hnot]
  unfold held
  dsimp only
  rw [hphase, hkeys, List.map_cons, if_pos rfl, howner]
  simp only [DescriptorPhase.held, List.map_cons, List.append_assoc, List.cons_append]
  exact List.Perm.append_left _ List.perm_middle

/-- **What the worker thread closes was its own**, and all that it does not close still is. -/
theorem perm_work {w : Work} (h : d.work env w = some (d', closed)) :
    (closed ++ d'.held).Perm d.held := by
  cases w with
  | swap =>
    simp only [work] at h
    split at h
    · rename_i hphase
      obtain ⟨rfl, rfl⟩ := Prod.mk.inj (Option.some.inj h)
      simp [held, hphase, DescriptorPhase.held]
    · rename_i hphase
      obtain ⟨rfl, rfl⟩ := Prod.mk.inj (Option.some.inj h)
      simp [held, hphase, DescriptorPhase.held]
    · cases h
  | adopt =>
    simp only [work] at h
    split at h
    · rename_i last hphase
      obtain ⟨rfl, rfl⟩ := Prod.mk.inj (Option.some.inj h)
      cases last <;> simp [held, hphase, DescriptorPhase.held]
    · rename_i last a queue hphase
      rcases WorkerLoop.addConnectionOnOwnerThread_cases env d.loop a.connection with
        ⟨w', c, heq, -, -, hfree, hw'⟩ | ⟨w', e, heq, -, hconn, -⟩
      · rw [heq] at h
        obtain ⟨rfl, rfl⟩ := Prod.mk.inj (Option.some.inj h)
        exact perm_adopted hphase hfree (by rw [hw'])
      · rw [heq] at h
        obtain ⟨rfl, rfl⟩ := Prod.mk.inj (Option.some.inj h)
        -- the queue was destroyed, and the table is as it was
        have hnone : (if last then DescriptorPhase.draining else .failing).held = [] := by
          cases last <;> rfl
        unfold held
        dsimp only
        rw [hphase, hnone, hconn]
        simp only [DescriptorPhase.held, List.map_cons, List.append_nil]
        exact (List.perm_append_comm_assoc ..).trans (by simp)
    · cases h
  | call c =>
    simp only [work] at h
    split at h
    · rename_i hphase hrun
      obtain ⟨rfl, rfl⟩ := Prod.mk.inj (Option.some.inj h)
      exact perm_call rfl (keys_of_call (.inl hrun))
    · rename_i hphase hrun
      obtain ⟨rfl, rfl⟩ := Prod.mk.inj (Option.some.inj h)
      exact perm_call (by rw [hphase]; rfl) (keys_of_call (.inr ⟨_, hrun⟩))
    · rename_i hphase hrun
      obtain ⟨rfl, rfl⟩ := Prod.mk.inj (Option.some.inj h)
      exact perm_call rfl (keys_of_call (.inl hrun))
    · rename_i hphase hrun
      obtain ⟨rfl, rfl⟩ := Prod.mk.inj (Option.some.inj h)
      exact perm_call rfl (keys_of_call (.inr ⟨_, hrun⟩))
    · cases h
  | fail =>
    simp only [work] at h
    split at h
    · rename_i hphase
      obtain ⟨rfl, rfl⟩ := Prod.mk.inj (Option.some.inj h)
      simp [held, hphase, DescriptorPhase.held]
    · cases h
  | leave =>
    simp only [work] at h
    split at h
    · rename_i hphase
      split_ifs at h
      obtain ⟨rfl, rfl⟩ := Prod.mk.inj (Option.some.inj h)
      simp [held, hphase, DescriptorPhase.held]
    · rename_i hphase
      obtain ⟨rfl, rfl⟩ := Prod.mk.inj (Option.some.inj h)
      simp [held, hphase, DescriptorPhase.held]
    · cases h
  | finish =>
    simp only [work] at h
    split at h
    · rename_i hphase hrun
      obtain ⟨rfl, rfl⟩ := Prod.mk.inj (Option.some.inj h)
      exact perm_call (by rw [hphase]; rfl) (keys_of_closeAll (.inl hrun))
    · rename_i hphase hrun
      obtain ⟨rfl, rfl⟩ := Prod.mk.inj (Option.some.inj h)
      exact perm_call (by rw [hphase]; rfl) (keys_of_closeAll (.inr ⟨_, hrun⟩))
    · cases h

/-- A worker that was destroyed does nothing, and no thread of a living one destroys it. -/
theorem isDestroyed_work {w : Work} (h : d.work env w = some (d', closed)) :
    d'.phase.isDestroyed = false := by
  cases w with
  | swap =>
    simp only [work] at h
    split at h <;> cases h <;> rfl
  | adopt =>
    simp only [work] at h
    split at h
    · rename_i last hphase
      cases h
      cases last <;> rfl
    · rename_i last a queue hphase
      split at h
      · cases h
        rfl
      · cases h
        cases last <;> rfl
      · cases h
    · cases h
  | call c =>
    simp only [work] at h
    split at h <;> cases h <;> simp_all [DescriptorPhase.isDestroyed]
  | fail =>
    simp only [work] at h
    split at h <;> cases h
    rfl
  | leave =>
    simp only [work] at h
    split at h
    · split_ifs at h
      cases h
      rfl
    · cases h
      rfl
    · cases h
  | finish =>
    simp only [work] at h
    split at h <;> cases h <;> rfl

end DescriptorLoop

namespace DescriptorServer

variable {env : LoopEnv} {s t : DescriptorServer} {e : Event}

/-! ### What a step can do -/

/-- The steps of the server, each with what holds before it. -/
inductive Steps (env : LoopEnv) (s : DescriptorServer) : Event → DescriptorServer → Prop where
  | accept (p : PendingConnection) (hplace : s.place = .looping) (hp : 0 ≤ p.fd) :
    Steps env s (.accept p) { s with
      nextWorker := (s.nextWorker + 1) % s.workers.length
      place := .testing ⟨s.accepted, p, hp⟩ s.nextWorker
      accepted := s.accepted + 1 }
  | refuse (a : Accepted) (i : ℕ) (d : DescriptorLoop) (what : String)
    (hplace : s.place = .testing a i) (hd : s.workers[i]? = some d)
    (hrefuses : d.refuses a.connection.fd = some what) :
    Steps env s .proceed { s with place := .refused a, closes := s.closes ++ [a.id] }
  | pass (a : Accepted) (i : ℕ) (d : DescriptorLoop) (hplace : s.place = .testing a i)
    (hd : s.workers[i]? = some d) (hadmits : d.refuses a.connection.fd = none) :
    Steps env s .proceed { s with place := .pushing a i }
  | push (a : Accepted) (i : ℕ) (hplace : s.place = .pushing a i) :
    Steps env s .proceed { s with
      workers := s.workers.modify i fun d => d.enqueue a, place := .looping }
  | close (a : Accepted) (hplace : s.place = .refused a) :
    Steps env s .proceed { s with place := .looping, closes := s.closes ++ [a.id] }
  | leave (hplace : s.place = .looping) : Steps env s .leave { s with place := .left }
  | requestStop (i : ℕ) (hplace : s.place = .left) :
    Steps env s (.requestStop i) { s with
      workers := s.workers.modify i DescriptorLoop.requestStop }
  | clear (i : ℕ) (d : DescriptorLoop) (hplace : s.place = .left) (hd : s.workers[i]? = some d) :
    Steps env s (.clear i) { s with
      workers := s.workers.set i d.destroy, closes := s.closes ++ d.held }
  | work (i : ℕ) (w : DescriptorLoop.Work) (d d' : DescriptorLoop) (closed : List ℕ)
    (hd : s.workers[i]? = some d) (hwork : d.work env w = some (d', closed)) :
    Steps env s (.work i w) { s with
      workers := s.workers.set i d', closes := s.closes ++ closed }

theorem Steps.of_proceed (h : s.proceed = some t) : Steps env s .proceed t := by
  unfold proceed at h
  split at h
  · cases h
  · cases h
  · rename_i a i hplace
    obtain ⟨d, hd, rfl⟩ := Option.map_eq_some_iff.1 h
    split
    · rename_i what hrefuses
      exact .refuse a i d what hplace hd hrefuses
    · rename_i hadmits
      exact .pass a i d hplace hd hadmits
  · rename_i a i hplace
    obtain rfl := Option.some.inj h
    exact .push a i hplace
  · rename_i a hplace
    obtain rfl := Option.some.inj h
    exact .close a hplace

/-- **What a step can do.** -/
theorem Steps.of_step (h : s.step env e = some t) : Steps env s e t := by
  cases e with
  | accept p =>
    simp only [step] at h
    split at h
    · rename_i hplace
      split_ifs at h with hp
      obtain rfl := Option.some.inj h
      exact .accept p hplace hp
    · cases h
  | proceed => exact .of_proceed h
  | leave =>
    simp only [step] at h
    split at h
    · rename_i hplace
      obtain rfl := Option.some.inj h
      exact .leave hplace
    · cases h
  | requestStop i =>
    simp only [step] at h
    split at h
    · rename_i hplace
      obtain rfl := Option.some.inj h
      exact .requestStop i hplace
    · cases h
  | clear i =>
    simp only [step] at h
    split at h
    · rename_i d hplace hd
      split at h
      · obtain rfl := Option.some.inj h
        exact .clear i d hplace hd
      · cases h
    · cases h
  | work i w =>
    simp only [step] at h
    split at h
    · cases h
    · rename_i d hd
      obtain ⟨⟨d', closed⟩, hwork, rfl⟩ := Option.map_eq_some_iff.1 h
      exact .work i w d d' closed hd hwork

/-! ### Where the descriptors of the server go -/

/-- What an update of one worker does to the descriptors of all. -/
theorem count_set {ds : List DescriptorLoop} {i : ℕ} {d : DescriptorLoop} (h : ds[i]? = some d)
    (d' : DescriptorLoop) (id : ℕ) :
    ((ds.set i d').flatMap DescriptorLoop.held).count id + d.held.count id =
      (ds.flatMap DescriptorLoop.held).count id + d'.held.count id := by
  induction ds generalizing i with
  | nil => cases h
  | cons x ds ih =>
    cases i with
    | zero =>
      obtain rfl := Option.some.inj h
      simp only [List.set_cons_zero, List.flatMap_cons, List.count_append]
      omega
    | succ i =>
      have := ih h
      simp only [List.set_cons_succ, List.flatMap_cons, List.count_append]
      omega

/-- The same of an update in place that adds to the descriptors of the worker. -/
theorem count_modify {f : DescriptorLoop → DescriptorLoop} {id n : ℕ}
    (h : ∀ d, (f d).held.count id = d.held.count id + n) (ds : List DescriptorLoop) (i : ℕ) :
    ((ds.modify i f).flatMap DescriptorLoop.held).count id =
      (ds.flatMap DescriptorLoop.held).count id + if i < ds.length then n else 0 := by
  induction ds generalizing i with
  | nil => simp
  | cons d ds ih =>
    cases i with
    | zero =>
      simp only [List.modify_zero_cons, List.flatMap_cons, List.count_append, h,
        List.length_cons, Nat.zero_lt_succ, if_true]
      omega
    | succ i =>
      simp only [List.modify_succ_cons, List.flatMap_cons, List.count_append, ih,
        List.length_cons, Nat.add_lt_add_iff_right]
      omega

theorem exists_of_mem_modify {f : DescriptorLoop → DescriptorLoop} {ds : List DescriptorLoop}
    {i : ℕ} {x : DescriptorLoop} (hx : x ∈ ds.modify i f) : ∃ d ∈ ds, x = d ∨ x = f d := by
  obtain ⟨j, hj⟩ := List.mem_iff_getElem?.1 hx
  rw [List.getElem?_modify] at hj
  obtain ⟨d, hd, rfl⟩ := Option.map_eq_some_iff.1 hj
  refine ⟨d, List.mem_of_getElem? hd, ?_⟩
  split_ifs
  · exact Or.inr rfl
  · exact Or.inl rfl

/-- While `EnqueueConnection` admits the connections: each descriptor has one owner or was
closed once, and a worker that is gone owns none. -/
structure Tracked (s : DescriptorServer) : Prop where
  once : ∀ id, s.closes.count id + s.held.count id = if id < s.accepted then 1 else 0
  pushed : ∀ a i, s.place = .pushing a i → i < s.workers.length
  kept : ∀ a, s.place ≠ .refused a
  gone : ∀ d ∈ s.workers, d.phase.isDestroyed = true → s.place = .left ∧ d.held = []

theorem tracked_start {loops : List WorkerLoop} (hloops : ∀ w ∈ loops, w.connections = ∅) :
    (start loops).Tracked := by
  have hnone : (start loops).workers.flatMap DescriptorLoop.held = [] := by
    rw [List.flatMap_eq_nil_iff]
    intro d hd
    obtain ⟨w, hw, rfl⟩ := List.mem_map.1 hd
    simp [DescriptorLoop.held, DescriptorPhase.held, hloops w hw]
  constructor
  case once =>
    intro id
    rw [held, hnone]
    simp [start, AcceptPlace.held]
  case pushed => rintro a i ⟨⟩
  case kept => rintro a ⟨⟩
  case gone =>
    intro d hd hgone
    obtain ⟨w, -, rfl⟩ := List.mem_map.1 hd
    cases hgone

/-- While the accept loop goes on no worker is gone. -/
theorem Tracked.not_gone (hs : s.Tracked) (hplace : s.place ≠ .left) {d : DescriptorLoop}
    (hd : d ∈ s.workers) : d.phase.isDestroyed ≠ true :=
  fun hgone => hplace (hs.gone d hd hgone).1

theorem tracked_work {i : ℕ} {w : DescriptorLoop.Work} {d d' : DescriptorLoop} {closed : List ℕ}
    (hs : s.Tracked) (hd : s.workers[i]? = some d) (hwork : d.work env w = some (d', closed)) :
    ({ s with workers := s.workers.set i d', closes := s.closes ++ closed } :
      DescriptorServer).Tracked := by
  constructor
  case once =>
    intro id
    have hset := count_set hd d' id
    have hperm := (DescriptorLoop.perm_work hwork).count_eq id
    have honce := hs.once id
    simp only [held, List.count_append] at hperm honce ⊢
    omega
  case pushed =>
    intro a j hplace
    rw [List.length_set]
    exact hs.pushed a j hplace
  case kept => exact hs.kept
  case gone =>
    intro x hx hgone
    rcases List.mem_or_eq_of_mem_set hx with hx | rfl
    · exact hs.gone x hx hgone
    · rw [DescriptorLoop.isDestroyed_work hwork] at hgone
      cases hgone

theorem tracked_push {a : Accepted} {i : ℕ} (hs : s.Tracked) (hplace : s.place = .pushing a i) :
    ({ s with workers := s.workers.modify i fun d => d.enqueue a, place := .looping } :
      DescriptorServer).Tracked := by
  have hnot : s.place ≠ .left := by
    rw [hplace]
    rintro ⟨⟩
  constructor
  case once =>
    intro id
    have honce := hs.once id
    have hadd : ∀ d : DescriptorLoop,
        (d.enqueue a).held.count id = d.held.count id + if a.id = id then 1 else 0 := by
      intro d
      simp only [DescriptorLoop.enqueue, DescriptorLoop.held, List.map_append,
        List.count_append, List.map_cons, List.map_nil, List.count_singleton, beq_iff_eq]
      omega
    have hmodify := count_modify hadd s.workers i
    rw [if_pos (hs.pushed a i hplace)] at hmodify
    simp only [held, hplace, AcceptPlace.held, List.count_append, hmodify, List.count_singleton,
      List.count_nil, beq_iff_eq] at honce ⊢
    omega
  case pushed => rintro _ _ ⟨⟩
  case kept => rintro _ ⟨⟩
  case gone =>
    intro x hx hgone
    obtain ⟨d, hd, rfl | rfl⟩ := exists_of_mem_modify hx
    · exact absurd hgone (hs.not_gone hnot hd)
    · exact absurd (show d.phase.isDestroyed = true from hgone) (hs.not_gone hnot hd)

theorem tracked_requestStop (hs : s.Tracked) (i : ℕ) :
    ({ s with workers := s.workers.modify i DescriptorLoop.requestStop } :
      DescriptorServer).Tracked := by
  constructor
  case once =>
    intro id
    have honce := hs.once id
    have hsame : ∀ d : DescriptorLoop, d.requestStop.held.count id = d.held.count id + 0 :=
      fun _ => rfl
    have hmodify := count_modify hsame s.workers i
    rw [ite_self, Nat.add_zero] at hmodify
    simpa only [held, List.count_append, hmodify] using honce
  case pushed =>
    intro a j hplace
    rw [List.length_modify]
    exact hs.pushed a j hplace
  case kept => exact hs.kept
  case gone =>
    intro x hx hgone
    obtain ⟨d, hd, rfl | rfl⟩ := exists_of_mem_modify hx
    · exact hs.gone _ hd hgone
    · exact hs.gone d hd hgone

theorem tracked_clear {i : ℕ} {d : DescriptorLoop} (hs : s.Tracked) (hplace : s.place = .left)
    (hd : s.workers[i]? = some d) :
    ({ s with workers := s.workers.set i d.destroy, closes := s.closes ++ d.held } :
      DescriptorServer).Tracked := by
  constructor
  case once =>
    intro id
    have honce := hs.once id
    have hset := count_set hd d.destroy id
    have hnone : d.destroy.held = [] := rfl
    rw [hnone, List.count_nil] at hset
    simp only [held, List.count_append] at honce ⊢
    omega
  case pushed =>
    intro a j hpushing
    cases hplace.symm.trans hpushing
  case kept => exact hs.kept
  case gone =>
    intro x hx hgone
    rcases List.mem_or_eq_of_mem_set hx with hx | rfl
    · exact hs.gone x hx hgone
    · exact ⟨hplace, rfl⟩

/-- **A step that admits its connection keeps track of every descriptor.** -/
theorem tracked_step (hs : s.Tracked) (hadmits : s.admits e = true)
    (h : s.step env e = some t) : t.Tracked := by
  cases Steps.of_step h with
  | accept p hplace hp =>
    constructor
    case once =>
      intro id
      have honce := hs.once id
      simp only [held, hplace, AcceptPlace.held, List.count_append, List.count_singleton,
        List.count_nil, beq_iff_eq] at honce ⊢
      split_ifs at honce ⊢ <;> omega
    case pushed => rintro _ _ ⟨⟩
    case kept => rintro _ ⟨⟩
    case gone =>
      intro x hx hgone
      exact absurd hgone (hs.not_gone (by rw [hplace]; rintro ⟨⟩) hx)
  | refuse a i d what hplace hd hrefuses =>
    simp [admits, hplace, hd, hrefuses] at hadmits
  | pass a i d hplace hd hadmits =>
    constructor
    case once => simpa [held, hplace, AcceptPlace.held] using hs.once
    case pushed =>
      rintro _ _ ⟨⟩
      exact (List.getElem?_eq_some_iff.1 hd).1
    case kept => rintro _ ⟨⟩
    case gone =>
      intro x hx hgone
      exact absurd hgone (hs.not_gone (by rw [hplace]; rintro ⟨⟩) hx)
  | push a i hplace => exact tracked_push hs hplace
  | close a hplace => exact absurd hplace (hs.kept a)
  | leave hplace =>
    constructor
    case once => simpa [held, hplace, AcceptPlace.held] using hs.once
    case pushed => rintro _ _ ⟨⟩
    case kept => rintro _ ⟨⟩
    case gone => exact fun x hx hgone => ⟨rfl, (hs.gone x hx hgone).2⟩
  | requestStop i hplace => exact tracked_requestStop hs i
  | clear i d hplace hd => exact tracked_clear hs hplace hd
  | work i w d d' closed hd hwork => exact tracked_work hs hd hwork

theorem Tracked.closedOnce (hs : s.Tracked) : s.ClosedOnce := by
  refine ⟨fun id => ?_, fun hover id hid => ?_⟩
  · have := hs.once id
    split_ifs at this <;> omega
  · have honce := hs.once id
    simp only [isOver, Bool.and_eq_true, List.all_eq_true] at hover
    have hplace : s.place.held = [] := by
      cases hp : s.place <;> simp_all [AcceptPlace.isLeft, AcceptPlace.held]
    have hworkers : s.workers.flatMap DescriptorLoop.held = [] := by
      rw [List.flatMap_eq_nil_iff]
      exact fun d hd => (hs.gone d hd (hover.2 d hd)).2
    rw [held, hplace, hworkers, if_pos hid] at honce
    exact honce

/-! ### A refused connection -/

/-- Some descriptor was closed twice, or will be by what the accept loop does next. -/
def Broken (s : DescriptorServer) : Prop :=
  (∃ a, s.place = .refused a ∧ 1 ≤ s.closes.count a.id) ∨ ∃ id, 2 ≤ s.closes.count id

/-- `EnqueueConnection` closes what it refuses. -/
theorem broken_of_refused (hadmits : s.admits e = false) (h : s.step env e = some t) :
    t.Broken := by
  cases Steps.of_step h with
  | refuse a i d what hplace hd hrefuses => exact Or.inl ⟨a, rfl, by simp⟩
  | pass a i d hplace hd hnone => simp [admits, hplace, hd, hnone] at hadmits
  | push a i hplace => simp [admits, hplace] at hadmits
  | close a hplace => simp [admits, hplace] at hadmits
  | _ => cases hadmits

/-- No step takes a call of `close` back. -/
theorem closes_step (h : s.step env e = some t) : ∃ closed, t.closes = s.closes ++ closed := by
  cases Steps.of_step h with
  | refuse | close | clear | work => exact ⟨_, rfl⟩
  | accept | pass | push | leave | requestStop => exact ⟨[], (List.append_nil _).symm⟩

theorem broken_step (hs : s.Broken) (h : s.step env e = some t) : t.Broken := by
  obtain ⟨closed, hcloses⟩ := closes_step h
  have hmono : ∀ id, s.closes.count id ≤ t.closes.count id := by
    intro id
    rw [hcloses, List.count_append]
    exact Nat.le_add_right _ _
  rcases hs with ⟨a, hplace, hone⟩ | ⟨id, htwo⟩
  · cases Steps.of_step h with
    | close b hb =>
      obtain rfl := AcceptPlace.refused.inj (hplace.symm.trans hb)
      refine Or.inr ⟨a.id, ?_⟩
      simp only [List.count_append, List.count_singleton_self]
      omega
    | work => exact Or.inl ⟨a, hplace, hone.trans (hmono a.id)⟩
    | accept _ hother | refuse _ _ _ _ hother | pass _ _ _ hother | push _ _ hother
    | leave hother | requestStop _ hother | clear _ _ hother => cases hplace.symm.trans hother
  · exact Or.inr ⟨id, htwo.trans (hmono id)⟩

/-- What a run leads to, by whether all its connections were admitted. -/
theorem tracked_or_broken {loops : List WorkerLoop} (hloops : ∀ w ∈ loops, w.connections = ∅)
    {es : List Event} (h : exec (step env) (start loops) es = some s) :
    (Along (step env) (fun s e => s.admits e = true) (start loops) es → s.Tracked) ∧
      (¬ Along (step env) (fun s e => s.admits e = true) (start loops) es → s.Broken) := by
  refine ⟨fun halong => ?_, ?_⟩
  · exact exec_along (fun _ _ _ => tracked_step) (tracked_start hloops) halong h
  · suffices hbroken : exec (step env) (start loops) es = some s ∧
        (¬ Along (step env) (fun s e => s.admits e = true) (start loops) es → s.Broken) from
      hbroken.2
    refine exec_history (I := fun es s => exec (step env) (start loops) es = some s ∧
      (¬ Along (step env) (fun s e => s.admits e = true) (start loops) es → s.Broken))
      ⟨rfl, fun hnot => absurd trivial hnot⟩ ?_ es s h
    rintro es s e t ⟨hs, ih⟩ ht
    refine ⟨exec_concat.2 ⟨s, hs, ht⟩, fun hnot => ?_⟩
    by_cases halong : Along (step env) (fun s e => s.admits e = true) (start loops) es
    · cases hadmits : s.admits e with
      | true => exact absurd (halong.concat hs hadmits) hnot
      | false => exact broken_of_refused hadmits ht
    · exact broken_step (ih halong) ht

/-- **When each descriptor is closed once.**  The server closes none twice, is not about
to, and none is left when it is gone, if and only if each worker still took connections when
`EnqueueConnection` looked. -/
theorem closedOnce_iff (env : LoopEnv) {loops : List WorkerLoop}
    (hloops : ∀ w ∈ loops, w.connections = ∅) {es : List Event}
    (h : exec (step env) (start loops) es = some s) :
    Along (step env) (fun s e => s.admits e = true) (start loops) es ↔
      s.ClosedOnce ∧ ∀ a, s.place ≠ .refused a := by
  obtain ⟨htracked, hbroken⟩ := tracked_or_broken hloops h
  constructor
  · intro halong
    exact ⟨(htracked halong).closedOnce, (htracked halong).kept⟩
  · rintro ⟨honce, hplace⟩
    by_contra hnot
    rcases hbroken hnot with ⟨a, ha, -⟩ | ⟨id, htwo⟩
    · exact hplace a ha
    · have := honce.atMost id
      omega

/-- One worker whose `epoll_ctl` refuses. -/
def exhausted : WorkerLoop where
  wakeFd := 3
  epollCtl := [some "No space left on device"]

theorem connections_exhausted : ∀ w ∈ [exhausted], w.connections = ∅ := by
  intro w hw
  rw [List.mem_singleton.1 hw]
  rfl

/-- It drops a connection, and the server stops. -/
def stopping : List Event :=
  [.accept { fd := 7 }, .proceed, .proceed, .work 0 .swap, .work 0 .adopt, .leave,
    .requestStop 0, .work 0 .leave, .work 0 .finish, .clear 0]

theorem closedOnce_iff_stopping :
    ∃ s, exec (step WorkerLoop.idleEnv) (start [exhausted]) stopping = some s ∧
      s.isOver = true ∧ s.ClosedOnce := by
  have hadmits : Along (step WorkerLoop.idleEnv) (fun s e => s.admits e = true)
      (start [exhausted]) stopping := by decide
  exact ⟨_, rfl, rfl,
    ((closedOnce_iff WorkerLoop.idleEnv connections_exhausted rfl).1 hadmits).1⟩

/-- **A connection that is accepted after its worker has failed is closed twice.** -/
theorem closed_twice :
    ¬ ∀ (env : LoopEnv) (loops : List WorkerLoop) (es : List Event) (s : DescriptorServer),
      (∀ w ∈ loops, w.connections = ∅) → exec (step env) (start loops) es = some s →
        s.ClosedOnce := by
  intro hall
  have honce := hall WorkerLoop.idleEnv [exhausted]
    [.accept { fd := 7 }, .proceed, .proceed, .work 0 .swap, .work 0 .adopt, .work 0 .leave,
      .accept { fd := 8 }, .proceed, .proceed] _ connections_exhausted rfl
  exact absurd (honce.atMost 1) (by decide)

end DescriptorServer

end Server
end MiniRpc
