/-
# Whose response it is

The kernel hands out the number of a closed descriptor again, so the token has to
tell the connections of one number apart.  A response is queued at most once, and each
event reaches the connection it was reported for, in every run; in one in which at most
`2 ^ 64` connections got a token, each response reaches its own connection or nobody
(`responses_come_home`).  The token is a `uint64_t`: with one connection more a
response can be queued on a stranger (`response_strays`).
-/

import MiniRpc.Server.OwnedLoop

namespace MiniRpc
namespace Server
namespace OwnedLoop

open Protocol Splitter Transition

/-! ### The invariant -/

/-- What holds of the numbers, the tasks and the logs in every state of a run. -/
structure Owned (s : OwnedLoop) : Prop where
  token : s.loop.nextConnectionToken = (1 + s.issued.length) % 2 ^ 64
  tokens : ∀ i fd token, s.issued[i]? = some (fd, token) → token = (1 + i) % 2 ^ 64
  /-- A connection of the table is the one that `owner` names. -/
  table : ∀ fd state, s.loop.connections.lookup fd = some state →
    s.issued[s.owner fd]? = some (fd, state.connectionToken)
  /-- A task carries the descriptor and the token of its connection. -/
  tasks : ∀ task ∈ s.tasks, s.issued[task.uid]? = some (task.fd, task.token)
  ran : ∀ id ∈ s.ran, id < s.tasks.length
  /-- A task that was run is queued at most once: in the completion queue, in the
  hands of the owner thread, or on a connection. -/
  once : (s.log.map Prod.fst ++ s.phase.inHand ++ s.queue).Nodup
  once_ran : ∀ id ∈ s.log.map Prod.fst ++ s.phase.inHand ++ s.queue, id ∈ s.ran
  log : s.issued.length ≤ 2 ^ 64 → ∀ id uid, (id, uid) ∈ s.log →
    ∃ task, s.tasks[id]? = some task ∧ task.uid = uid
  /-- The connection that has the descriptor of an event is the one it was
  reported for. -/
  events : ∀ e ∈ s.phase.events, e.event.fd ≠ s.loop.wakeFd →
    ∀ state, s.loop.connections.lookup e.event.fd = some state →
      e.uid = some (s.owner e.event.fd)
  /-- While connections are taken over, none of those with an event is gone. -/
  present : s.phase.isAdopting → ∀ e ∈ s.phase.events, e.event.fd ≠ s.loop.wakeFd →
    (s.loop.connections.lookup e.event.fd).isSome
  applied : ∀ u uid, (u, uid) ∈ s.applied → u = some uid

theorem getElem?_append_of_some {α : Type*} {l l' : List α} {i : ℕ} {a : α} (h : l[i]? = some a) :
    (l ++ l')[i]? = some a := by
  obtain ⟨hi, -⟩ := List.getElem?_eq_some_iff.1 h
  rw [List.getElem?_append_left hi, h]

variable {env : LoopEnv} {s t : OwnedLoop}

/-- **A connection is taken over**: it gets a number of its own, and its
descriptor is not that of a connection with an event in this poll. -/
theorem Owned.adoptStep (h : s.Owned) {events : List Collected} {p : PendingConnection}
    {ps : List PendingConnection} (hphase : s.phase = .adopting events (p :: ps))
    (hstep : s.adoptStep env events p ps = some t) : t.Owned := by
  have honce := h.once
  have hran := h.once_ran
  have hevents := h.events
  have hpresent := h.present
  rw [hphase] at honce hran hevents hpresent
  have htokens : ∀ i fd token,
      (s.issued ++ [(p.fd, s.loop.nextConnectionToken)])[i]? = some (fd, token) →
        token = (1 + i) % 2 ^ 64 := by
    intro i fd token hi
    rw [List.getElem?_append] at hi
    split_ifs at hi with hlt
    · exact h.tokens i fd token hi
    · obtain ⟨hsub, heq⟩ := List.getElem?_eq_some_iff.1 hi
      rw [List.length_singleton] at hsub
      have hn : i = s.issued.length := by omega
      subst hn
      have : (p.fd, s.loop.nextConnectionToken) = (fd, token) := by simpa using heq
      rw [← (Prod.mk.inj this).2, h.token]
  have hlength : ∀ x : ℤ × ℕ, (s.issued ++ [x]).length ≤ 2 ^ 64 → s.issued.length ≤ 2 ^ 64 := by
    intro x hx
    rw [List.length_append] at hx
    omega
  unfold OwnedLoop.adoptStep at hstep
  rcases WorkerLoop.addConnectionOnOwnerThread_cases env s.loop p with
    ⟨w', c, hadd, hinit, hctl, hnew, rfl⟩ | ⟨w', e, hadd, hwake, hconn, htoken⟩
  · rw [hadd] at hstep
    simp only [hinit, hctl, Option.isNone_none, Bool.and_self, if_true] at hstep
    obtain rfl := Option.some.inj hstep
    refine { h with
      token := ?_, tokens := htokens, table := ?_, once := honce, once_ran := hran
      tasks := fun task ht => getElem?_append_of_some (h.tasks task ht)
      log := fun hn => h.log (hlength _ hn), events := ?_, present := ?_ }
    · dsimp only
      rw [List.length_append, List.length_singleton, h.token]
      omega
    · intro fd state hl
      dsimp only at hl ⊢
      by_cases hfd : fd = p.fd
      · rw [hfd, AList.lookup_insert] at hl
        obtain rfl := Option.some.inj hl
        rw [if_pos hfd, hfd]
        simp
      · rw [AList.lookup_insert_ne hfd] at hl
        rw [if_neg hfd]
        exact getElem?_append_of_some (h.table fd state hl)
    · intro e he hne state hl
      dsimp only at he hl ⊢
      have hfd : e.event.fd ≠ p.fd := by
        intro hfd
        have := hpresent rfl e he hne
        rw [hfd, hnew] at this
        cases this
      rw [AList.lookup_insert_ne hfd] at hl
      rw [if_neg hfd]
      exact hevents e he hne state hl
    · intro _ e he hne
      dsimp only at he ⊢
      by_cases hfd : e.event.fd = p.fd
      · rw [hfd, AList.lookup_insert]
        rfl
      · rw [AList.lookup_insert_ne hfd]
        exact hpresent rfl e he hne
  · rw [hadd] at hstep
    obtain rfl := Option.some.inj hstep
    refine { h with
      token := ?_, tokens := ?_, table := ?_, tasks := ?_, log := ?_
      once := honce, once_ran := hran
      events := fun e he => (List.not_mem_nil he).elim
      present := fun hp => (Bool.false_ne_true hp).elim }
    · dsimp only
      rw [htoken]
      split_ifs
      · rw [List.length_append, List.length_singleton, h.token]
        omega
      · exact h.token
    · intro i fd token hi
      dsimp only at hi
      split_ifs at hi
      · exact htokens i fd token hi
      · exact h.tokens i fd token hi
    · intro fd state hl
      dsimp only at hl ⊢
      rw [hconn] at hl
      split_ifs
      · exact getElem?_append_of_some (h.table fd state hl)
      · exact h.table fd state hl
    · intro task ht
      dsimp only
      split_ifs
      · exact getElem?_append_of_some (h.tasks task ht)
      · exact h.tasks task ht
    · intro hn
      dsimp only at hn
      split_ifs at hn
      · exact h.log (hlength _ hn)
      · exact h.log hn

/-- The numbers of a state whose table shrank. -/
theorem Owned.table_shrinks (h : s.Owned) {w' : WorkerLoop} (hw : WorkerLoop.Shrinks s.loop w')
    {fd : ℤ} {state : ConnectionState} (hl : w'.connections.lookup fd = some state) :
    s.issued[s.owner fd]? = some (fd, state.connectionToken) := by
  obtain ⟨old, hold, htoken⟩ := hw.entries fd state hl
  rw [htoken]
  exact h.table fd old hold

theorem Owned.events_shrink (h : s.Owned) {w' : WorkerLoop} (hw : WorkerLoop.Shrinks s.loop w')
    {events : List Collected} (hsub : ∀ e ∈ events, e ∈ s.phase.events) :
    ∀ e ∈ events, e.event.fd ≠ w'.wakeFd →
      ∀ state, w'.connections.lookup e.event.fd = some state →
        e.uid = some (s.owner e.event.fd) := by
  intro e he hne state hl
  obtain ⟨old, hold, -⟩ := hw.entries _ state hl
  rw [hw.wakeFd] at hne
  exact h.events e (hsub e he) hne old hold

/-- The tasks that a connection of the table submits carry its numbers. -/
theorem Owned.submitted (h : s.Owned) {fd : ℤ} {state : ConnectionState}
    (hl : s.loop.connections.lookup fd = some state) (before after : List RpcRequest) :
    ∀ task ∈ s.tasks ++ WorkerLoop.submitted env (s.owner fd) fd state.connectionToken before after,
      s.issued[task.uid]? = some (task.fd, task.token) := by
  intro task ht
  rcases List.mem_append.1 ht with ht | ht
  · exact h.tasks task ht
  · unfold WorkerLoop.submitted at ht
    obtain ⟨i, hi, rfl⟩ := List.mem_mapIdx.1 (List.mem_of_mem_filter ht)
    exact h.table fd state hl

/-- A completion carries the descriptor and the token of its task. -/
theorem completion_of_task (env : LoopEnv) {id : ℕ} {task : PoolTask}
    (h : s.tasks[id]? = some task) :
    (s.completion env id).fd = task.fd ∧ (s.completion env id).connectionToken = task.token := by
  unfold completion runTask
  rw [h]
  dsimp only
  split
  · exact ⟨rfl, rfl⟩
  · split <;> exact ⟨rfl, rfl⟩

/-- **The token tells the connections apart.**  While tokens do not repeat, a
connection of the table with the descriptor and the token of a task is the one
that submitted it. -/
theorem Owned.owner_eq (h : s.Owned) (hn : s.issued.length ≤ 2 ^ 64) {task : PoolTask}
    (ht : task ∈ s.tasks) {state : ConnectionState}
    (hl : s.loop.connections.lookup task.fd = some state)
    (htoken : state.connectionToken = task.token) : s.owner task.fd = task.uid := by
  have hown := h.table task.fd state hl
  have htask := h.tasks task ht
  have h₁ := h.tokens _ _ _ hown
  have h₂ := h.tokens _ _ _ htask
  obtain ⟨hlt₁, -⟩ := List.getElem?_eq_some_iff.1 hown
  obtain ⟨hlt₂, -⟩ := List.getElem?_eq_some_iff.1 htask
  rw [← htoken, h₁] at h₂
  omega

/-- **A response is delivered**: on the connection of its task, and then it is in
nobody's hands any more. -/
theorem Owned.deliverStep (h : s.Owned) {events : List Collected} {id : ℕ} {ids : List ℕ}
    (hphase : s.phase = .delivering events (id :: ids))
    (hstep : s.deliverStep env events id ids = some t) : t.Owned := by
  have honce := h.once
  have hran := h.once_ran
  rw [hphase] at honce hran
  simp only [PollPhase.inHand] at honce hran
  have hsub : ∀ e ∈ events, e ∈ s.phase.events := by
    rw [hphase]
    exact fun e he => he
  have hid : id ∈ s.ran := hran id (by simp)
  obtain ⟨task, htask⟩ : ∃ task, s.tasks[id]? = some task :=
    ⟨_, List.getElem?_eq_getElem (h.ran id hid)⟩
  have hmem := List.mem_of_getElem? htask
  obtain ⟨hfd, htoken⟩ := completion_of_task env htask
  have hkeeps := WorkerLoop.shrinks_deliver env s.loop (s.completion env id)
  -- what is left when the response is dropped or its connection closed
  have hdropped : ∀ {w' : WorkerLoop} {phase : PollPhase}, WorkerLoop.Shrinks s.loop w' →
      (phase = .delivering events ids ∨ phase = .idle) → Owned { s with loop := w', phase } := by
    intro w' phase hw hp
    have hlist : (s.log.map Prod.fst ++ phase.inHand ++ s.queue).Sublist
        (s.log.map Prod.fst ++ id :: ids ++ s.queue) := by
      refine ((List.Sublist.refl _).append ?_).append (List.Sublist.refl _)
      rcases hp with rfl | rfl
      · exact List.sublist_cons_self _ _
      · exact List.nil_sublist _
    refine { h with
      token := hw.token.trans h.token
      table := fun fd state hl => h.table_shrinks hw hl
      once := honce.sublist hlist
      once_ran := fun x hx => hran x (hlist.subset hx)
      events := ?_, present := ?_ }
    · refine h.events_shrink hw ?_
      rcases hp with rfl | rfl
      · exact hsub
      · exact fun e he => (List.not_mem_nil he).elim
    · rcases hp with rfl | rfl <;> exact fun hp => (Bool.false_ne_true hp).elim
  unfold OwnedLoop.deliverStep at hstep
  dsimp only at hstep
  cases hd : s.loop.deliver env (s.completion env id) with
  | blocked => simp [hd] at hstep
  | failed w' e =>
    rw [hd] at hkeeps hstep
    obtain rfl := Option.some.inj hstep
    exact hdropped hkeeps (Or.inr rfl)
  | ok w' =>
    rw [hd] at hkeeps hstep
    dsimp only at hstep
    rcases WorkerLoop.deliver_cases env s.loop (s.completion env id) with
      ⟨state, c, hdel, hl, ht, -⟩ | ⟨hdel, -, -⟩ | ⟨hdel, -, -⟩
    · rw [hdel] at hstep
      obtain rfl := Option.some.inj hstep
      have hlist : ((s.log ++ [(id, s.owner (s.completion env id).fd)]).map Prod.fst ++
          ids ++ s.queue) = s.log.map Prod.fst ++ id :: ids ++ s.queue := by
        simp
      refine { h with
        token := hkeeps.token.trans h.token
        table := fun fd state hl => h.table_shrinks hkeeps hl
        tasks := h.submitted hl _ _
        ran := fun x hx => lt_of_lt_of_le (h.ran x hx) (by simp)
        once := hlist ▸ honce
        once_ran := fun x hx => hran x (hlist ▸ hx)
        log := ?_
        events := h.events_shrink hkeeps hsub
        present := fun hp => (Bool.false_ne_true hp).elim }
      intro hn id' uid hx
      rcases List.mem_append.1 hx with hx | hx
      · obtain ⟨task', ht', huid⟩ := h.log hn id' uid hx
        exact ⟨task', getElem?_append_of_some ht', huid⟩
      · obtain ⟨rfl, rfl⟩ := Prod.mk.inj (List.mem_singleton.1 hx)
        refine ⟨task, getElem?_append_of_some htask, ?_⟩
        rw [hfd] at hl ⊢
        exact (h.owner_eq hn hmem hl (ht.trans htoken)).symm
    · rw [hdel] at hstep
      obtain rfl := Option.some.inj hstep
      exact hdropped hkeeps (Or.inl rfl)
    · rw [hdel] at hstep
      obtain rfl := Option.some.inj hstep
      exact hdropped hkeeps (Or.inl rfl)

/-- **An event is applied**, to the connection it was reported for. -/
theorem Owned.handleStep (h : s.Owned) {e : Collected} {events : List Collected}
    (hphase : s.phase = .handling (e :: events)) (hstep : s.handleStep env e events = some t) :
    t.Owned := by
  have honce := h.once
  have hran := h.once_ran
  rw [hphase] at honce hran
  have hsub : ∀ x ∈ e :: events, x ∈ s.phase.events := by
    rw [hphase]
    exact fun x hx => hx
  have hsub' : ∀ x ∈ events, x ∈ s.phase.events := fun x hx => hsub x (List.mem_cons_of_mem _ hx)
  have hkeeps := WorkerLoop.shrinks_handleEvent env s.loop e.event
  unfold OwnedLoop.handleStep at hstep
  cases hd : s.loop.handleEvent env e.event with
  | blocked => simp [hd] at hstep
  | failed w' err =>
    rw [hd] at hkeeps hstep
    obtain rfl := Option.some.inj hstep
    exact { h with
      token := hkeeps.token.trans h.token
      table := fun fd state hl => h.table_shrinks hkeeps hl
      once := honce, once_ran := hran
      events := fun x hx => (List.not_mem_nil hx).elim
      present := fun hp => (Bool.false_ne_true hp).elim }
  | ok w' =>
    rw [hd] at hkeeps hstep
    dsimp only at hstep
    rcases WorkerLoop.handleEvent_cases env s.loop e.event with
      ⟨state, c, hnot, hne, hl, -⟩ | ⟨hnot, -⟩
    · rw [hnot] at hstep
      obtain rfl := Option.some.inj hstep
      refine { h with
        token := hkeeps.token.trans h.token
        table := fun fd state hl => h.table_shrinks hkeeps hl
        tasks := h.submitted hl _ _
        ran := fun x hx => lt_of_lt_of_le (h.ran x hx) (by simp)
        once := honce, once_ran := hran
        log := ?_
        events := h.events_shrink hkeeps hsub'
        present := fun hp => (Bool.false_ne_true hp).elim
        applied := ?_ }
      · intro hn id uid hx
        obtain ⟨task, ht, huid⟩ := h.log hn id uid hx
        exact ⟨task, getElem?_append_of_some ht, huid⟩
      · intro u uid hx
        rcases List.mem_append.1 hx with hx | hx
        · exact h.applied u uid hx
        · obtain ⟨rfl, rfl⟩ := Prod.mk.inj (List.mem_singleton.1 hx)
          exact h.events e (hsub e List.mem_cons_self) hne state hl
    · rw [hnot] at hstep
      obtain rfl := Option.some.inj hstep
      exact { h with
        token := hkeeps.token.trans h.token
        table := fun fd state hl => h.table_shrinks hkeeps hl
        once := honce, once_ran := hran
        events := h.events_shrink hkeeps hsub'
        present := fun hp => (Bool.false_ne_true hp).elim }

theorem collected_events (s : OwnedLoop) (events : List ReadyEvent) :
    ∀ e ∈ s.collected events, ∀ state, s.loop.connections.lookup e.event.fd = some state →
      e.uid = some (s.owner e.event.fd) := by
  intro e he state hl
  obtain ⟨r, -, rfl⟩ := List.mem_map.1 he
  simp [hl]

/-- **`epoll_wait` returns**: the events are those of the connections that have
the descriptors now. -/
theorem Owned.collect (h : s.Owned) {events : List ReadyEvent}
    (hstep : s.act env (.collect events) = some t) : t.Owned := by
  simp only [act] at hstep
  cases hphase : s.phase with
  | idle =>
    rw [hphase] at hstep
    dsimp only at hstep
    split_ifs at hstep with hguard hwake
    · have honce := h.once
      have hran := h.once_ran
      rw [hphase] at honce hran
      have hdrain := s.loop.drainWakeFd_keeps
      cases hd : s.loop.drainWakeFd with
      | blocked => simp [hd] at hstep
      | failed w' e =>
        rw [hd] at hdrain hstep
        obtain rfl := Option.some.inj hstep
        obtain ⟨rest, rfl⟩ := hdrain
        exact { h with
          once := honce, once_ran := hran
          events := fun x hx => (List.not_mem_nil hx).elim
          present := fun hp => (Bool.false_ne_true hp).elim }
      | ok w' =>
        rw [hd] at hdrain hstep
        obtain rfl := Option.some.inj hstep
        obtain ⟨rest, rfl⟩ := hdrain
        refine { h with
          once := honce, once_ran := hran
          events := fun e he _ => s.collected_events events e he
          present := ?_ }
        intro _ e he hne
        obtain ⟨r, hr, rfl⟩ := List.mem_map.1 he
        exact (hguard r hr).resolve_left hne
    · obtain rfl := Option.some.inj hstep
      have honce := h.once
      have hran := h.once_ran
      rw [hphase] at honce hran
      exact { h with
        once := honce, once_ran := hran
        events := fun e he _ => s.collected_events events e he
        present := fun hp => (Bool.false_ne_true hp).elim }
  | adopting evs ps => simp [hphase] at hstep
  | delivering evs ids => simp [hphase] at hstep
  | ticking evs => simp [hphase] at hstep
  | handling evs => simp [hphase] at hstep

/-- **Every action keeps the invariant.** -/
theorem Owned.act (h : s.Owned) {a : Action} (hstep : s.act env a = some t) : t.Owned := by
  have honce := h.once
  have hran := h.once_ran
  have hevents := h.events
  cases a with
  | enqueue p =>
    obtain rfl := Option.some.inj hstep
    exact { h with }
  | complete id =>
    simp only [OwnedLoop.act] at hstep
    split_ifs at hstep with hguard
    obtain rfl := Option.some.inj hstep
    refine { h with ran := ?_, once := ?_, once_ran := ?_ }
    · intro x hx
      rcases List.mem_append.1 hx with hx | hx
      · exact h.ran x hx
      · rw [List.mem_singleton.1 hx]
        exact hguard.1
    · rw [← List.append_assoc, List.nodup_append_comm, List.singleton_append, List.nodup_cons]
      exact ⟨fun hx => hguard.2 (hran id hx), honce⟩
    · intro x hx
      rw [← List.append_assoc] at hx
      rcases List.mem_append.1 hx with hx | hx
      · exact List.mem_append_left _ (hran x hx)
      · exact List.mem_append_right _ hx
  | collect events => exact h.collect hstep
  | work now =>
    simp only [OwnedLoop.act] at hstep
    cases hphase : s.phase with
    | idle => simp [hphase] at hstep
    | adopting events ps =>
      rw [hphase] at hstep honce hran hevents
      cases ps with
      | nil =>
        obtain rfl := Option.some.inj hstep
        have hlist : s.log.map Prod.fst ++ [] ++ s.queue = s.log.map Prod.fst ++ s.queue ++ [] := by
          simp
        simp only [PollPhase.inHand] at honce hran
        exact { h with
          once := hlist ▸ honce
          once_ran := fun x hx => hran x (hlist ▸ hx)
          events := hevents
          present := fun hp => (Bool.false_ne_true hp).elim }
      | cons p ps => exact h.adoptStep hphase hstep
    | delivering events ids =>
      rw [hphase] at hstep honce hran hevents
      cases ids with
      | nil =>
        obtain rfl := Option.some.inj hstep
        exact { h with
          once := honce, once_ran := hran, events := hevents
          present := fun hp => (Bool.false_ne_true hp).elim }
      | cons id ids => exact h.deliverStep hphase hstep
    | ticking events =>
      rw [hphase] at hstep honce hran
      obtain rfl := Option.some.inj hstep
      have htick := WorkerLoop.shrinks_tickAll now s.loop
      exact { h with
        table := fun fd state hl => h.table_shrinks htick hl
        once := honce, once_ran := hran
        events := h.events_shrink htick (by rw [hphase]; exact fun e he => he)
        present := fun hp => (Bool.false_ne_true hp).elim }
    | handling events =>
      rw [hphase] at hstep honce hran hevents
      cases events with
      | nil =>
        obtain rfl := Option.some.inj hstep
        exact { h with
          once := honce, once_ran := hran, events := hevents
          present := fun hp => (Bool.false_ne_true hp).elim }
      | cons e events => exact h.handleStep hphase hstep

/-! ### Runs from the start -/

/-- A worker before its first connection: nothing was numbered, run or queued. -/
structure Initial (s : OwnedLoop) : Prop where
  idle : s.phase = .idle
  connections : s.loop.connections = ∅
  token : s.loop.nextConnectionToken = 1
  issued : s.issued = []
  tasks : s.tasks = []
  ran : s.ran = []
  queue : s.queue = []
  log : s.log = []
  applied : s.applied = []

theorem Initial.owned (h : s.Initial) : s.Owned where
  token := by rw [h.token, h.issued]; rfl
  tokens := by simp [h.issued]
  table := by
    intro fd state hl
    rw [h.connections] at hl
    cases hl
  tasks := by simp [h.tasks]
  ran := by simp [h.ran]
  once := by simp [h.log, h.idle, h.queue, PollPhase.inHand]
  once_ran := by simp [h.log, h.idle, h.queue, PollPhase.inHand]
  log := by simp [h.log]
  events := by simp [h.idle, PollPhase.events]
  present := by simp [h.idle, PollPhase.isAdopting]
  applied := by simp [h.applied]

/-- The connection with this number is in the table. -/
def Open (s : OwnedLoop) (uid : ℕ) : Prop :=
  ∃ fd state, s.loop.connections.lookup fd = some state ∧ s.owner fd = uid

/-- **A response reaches its own connection or nobody.**  In every run of a worker a response
is queued at most once, and every event is applied to the connection it was reported for.  If
at most `2 ^ 64` connections got a token, a response is queued on the connection whose request
it answers, and one whose connection is no longer open when its turn comes is dropped and
changes nothing. -/
theorem responses_come_home {s₀ : OwnedLoop} (h₀ : s₀.Initial) {actions : List Action}
    (hrun : exec (act env) s₀ actions = some s) :
    (s.log.map Prod.fst).Nodup ∧
    (∀ u uid, (u, uid) ∈ s.applied → u = some uid) ∧
    (s.issued.length ≤ 2 ^ 64 →
      (∀ id uid, (id, uid) ∈ s.log → ∃ task, s.tasks[id]? = some task ∧ task.uid = uid) ∧
      ∀ events id ids task, s.phase = .delivering events (id :: ids) → s.tasks[id]? = some task →
        ¬ s.Open task.uid →
        s.deliverStep env events id ids = some { s with phase := .delivering events ids }) := by
  have h : s.Owned := exec_invariant h₀.owned (fun _ _ _ hs ht => hs.act ht) hrun
  refine ⟨?_, h.applied, fun hn => ⟨h.log hn, ?_⟩⟩
  · exact (List.nodup_append.1 (List.nodup_append.1 h.once).1).1
  · intro events id ids task hphase htask hopen
    obtain ⟨hfd, htoken⟩ := completion_of_task env htask
    -- a connection with the descriptor and the token of the task would be its own
    have hnone : ∀ state, s.loop.connections.lookup (s.completion env id).fd = some state →
        state.connectionToken ≠ (s.completion env id).connectionToken := by
      intro state hl ht
      rw [hfd] at hl
      rw [htoken] at ht
      exact hopen ⟨task.fd, state, hl, h.owner_eq hn (List.mem_of_getElem? htask) hl ht⟩
    rcases WorkerLoop.deliver_cases env s.loop (s.completion env id) with
      ⟨state, c, -, hl, ht, -⟩ | ⟨-, -, state, hl, ht⟩ | ⟨hdel, hok, -⟩
    · exact absurd ht (hnone state hl)
    · exact absurd ht (hnone state hl)
    · unfold OwnedLoop.deliverStep
      dsimp only
      rw [hok, hdel]

/-! ### Descriptor 7 is used again and again -/

open Connection (sampleRequest sampleBody sampleReply)

/-- A pool that takes every task, and no method registered. -/
def poolEnv : LoopEnv where
  request := .only sampleRequest sampleBody
  response := .only ⟨"1", 1, "method not found: S.M", []⟩ sampleReply
  submit := some fun _ _ _ => true

/-- A worker between two connections; the next token is `next`. -/
def resting (next : ℕ) (issued : List (ℤ × ℕ)) (owner : ℤ → ℕ) (tasks : List PoolTask)
    (applied : List (Option ℕ × ℕ)) : OwnedLoop where
  loop := { wakeFd := 3, nextConnectionToken := next }
  issued := issued
  owner := owner
  tasks := tasks
  applied := applied

/-- The same worker with a connection on descriptor 7. -/
def serving (c : Connection) (token next : ℕ) (issued : List (ℤ × ℕ)) (owner : ℤ → ℕ)
    (tasks : List PoolTask) (applied : List (Option ℕ × ℕ)) : OwnedLoop where
  loop :=
    { wakeFd := 3
      connections := (∅ : Table ℤ ConnectionState).insert 7
        { connection := c, connectionToken := token }
      nextConnectionToken := next }
  issued := issued
  owner := owner
  tasks := tasks
  applied := applied

/-- A connection that waits for a request from time 0 on. -/
def waiting (b : Buffer) (bodies : List Bytes) (out : Outbound) (i : Inbox) : Connection :=
  { readBuffer := b, bodies, out, state := .kReading, readWaiter := true, inbox := i
    readDeadline := some 5000, coroutine := .waitReadable }

/-- The wake-up descriptor is ready. -/
def wakeUp : Action := .collect [{ fd := 3, readable := true }]

/-- A connection on descriptor 7 comes in. -/
def arriveActions (i : Inbox) : List Action :=
  [.enqueue { fd := 7, inbox := i }, wakeUp, .work 0, .work 0, .work 0, .work 0, .work 0, .work 0]

/-- The loop when the acceptor has handed over the connection. -/
def knocking (i : Inbox) (next : ℕ) : WorkerLoop where
  wakeFd := 3
  pendingConnections := [{ fd := 7, inbox := i }]
  nextConnectionToken := next

theorem exec_arrive (i : Inbox) (next : ℕ) (issued : List (ℤ × ℕ)) (owner : ℤ → ℕ)
    (tasks : List PoolTask) (applied : List (Option ℕ × ℕ)) :
    exec (act poolEnv) (resting next issued owner tasks applied) (arriveActions i) =
      some (serving (waiting (Buffer.new 8192) [] {} i) next ((next + 1) % 2 ^ 64)
        (issued ++ [(7, next)]) (fun fd => if fd = 7 then issued.length else owner fd) tasks
        applied) := by
  have hwake := WorkerLoop.drainWakeFd_of_nil (rfl : (knocking i next).wakeReads = [])
  have hcollect : exec (act poolEnv) (resting next issued owner tasks applied)
      [.enqueue { fd := 7, inbox := i }, wakeUp] =
      some { resting next issued owner tasks applied with
        phase := .adopting [⟨{ fd := 3, readable := true }, none⟩] [{ fd := 7, inbox := i }] } := by
    have hact : act poolEnv { resting next issued owner tasks applied with
        loop := knocking i next } wakeUp = _ :=
      act_collect rfl (fun e he => Or.inl (by rw [List.mem_singleton.1 he]; rfl)) rfl hwake
    exact congrArg (Option.bind · some) hact
  have hstart := Connection.startConnectionCoroutine_new
    (WorkerLoop.connectionEnv poolEnv
      { wakeFd := 3, nextConnectionToken := (next + 1) % 2 ^ 64 } 7 next) [] [] [] i
  have hadopt : act poolEnv { resting next issued owner tasks applied with
        phase := .adopting [⟨{ fd := 3, readable := true }, none⟩] [{ fd := 7, inbox := i }] }
      (.work 0) = some { serving (waiting (Buffer.new 8192) [] {} i) next ((next + 1) % 2 ^ 64)
        (issued ++ [(7, next)]) (fun fd => if fd = 7 then issued.length else owner fd) tasks
        applied with phase := .adopting [⟨{ fd := 3, readable := true }, none⟩] [] } := by
    refine Eq.trans ?_ (congrArg (fun c => some ({ serving c next ((next + 1) % 2 ^ 64)
      (issued ++ [(7, next)]) (fun fd => if fd = 7 then issued.length else owner fd) tasks
      applied with
        phase := .adopting [⟨{ fd := 3, readable := true }, none⟩] [] } : OwnedLoop)) hstart)
    rfl
  rw [show arriveActions i = [.enqueue { fd := 7, inbox := i }, wakeUp] ++
    .work 0 :: [.work 0, .work 0, .work 0, .work 0, .work 0] from rfl, exec_append, hcollect,
    Option.bind_some, exec_cons, hadopt]
  rfl

/-- A readable event whose frames are all taken, with nothing to write: the
coroutine waits for the next one. -/
theorem proceed_afterRead (cenv : Env) {c c' : Connection} (hopen : c.shouldClose = false)
    (hread : Connection.onReadable cenv { c.clearReadDeadline with readReady := false } =
      (c', none))
    (hopen' : c'.shouldClose = false) (hbuffer : c'.out.writeBuffer = [])
    (hready : c'.readReady = false) :
    c.proceed cenv .afterRead = c'.suspendReadable cenv := by
  have hpending : (!c'.out.hasPendingWrite) = true := by
    simp [Outbound.hasPendingWrite, hbuffer]
  rw [Connection.proceed]
  dsimp only
  rw [if_neg (by simp [Connection.clearReadDeadline, hopen])]
  split
  · rename_i heq
    rw [hread] at heq
    cases heq
  · rename_i heq
    rw [hread] at heq
    obtain ⟨rfl, -⟩ := Prod.mk.inj heq
    rw [if_neg (by simp [hopen']), Connection.proceed, if_pos hpending, Connection.proceed,
      if_neg (by simp [hopen']), if_neg (by simp [hready])]

/-- The answers of `recv` to a request that comes in at once. -/
def requestInbox : Inbox := [.data 0 ([0, 0, 9] ++ sampleBody)]

/-- What a connection with a dispatcher makes of the request. -/
theorem notifyReadable_request (w : WorkerLoop) (hw : w.completed = some []) (token : ℕ) :
    ∃ b, (waiting (Buffer.new 8192) [] {} requestInbox).notifyReadable
        (WorkerLoop.connectionEnv poolEnv w 7 token) =
      waiting b [sampleBody] { handed := [sampleRequest], nextRequestSequence := 1 } [] := by
  have hframe : processFrame (WorkerLoop.connectionEnv poolEnv w 7 token) {} sampleBody =
      ({ handed := [sampleRequest], nextRequestSequence := 1 }, none) := by
    unfold WorkerLoop.connectionEnv poolEnv WorkerLoop.dispatchRequestToThreadPool
    rw [hw]
    rfl
  generalize hcenv : WorkerLoop.connectionEnv poolEnv w 7 token = cenv at hframe
  have hoptions : cenv.options = {} := by
    rw [← hcenv]
    rfl
  -- the connection as the coroutine finds it after the wait
  let c : Connection := { waiting (Buffer.new 8192) [] {} requestInbox with
    readDeadline := none, readWaiter := false }
  obtain ⟨b, hb, hread⟩ := c.readFromSocket_eq
  replace hb : b.readable = frame sampleBody ++ [] := hb
  have hdata : Connection.readOutcome c.inbox.ending b.readable = .kData := by
    rw [hb]
    rfl
  rw [hdata] at hread
  have hdrive : frameSplitter.drive (processFrame cenv) {} b.readable =
      ⟨{ handed := [sampleRequest], nextRequestSequence := 1 }, [sampleBody], [], none⟩ := by
    rw [hb, drive_item (cut_frame (by decide) []) hframe, drive_more cut_nil]
  obtain ⟨b', -, hparse⟩ := Connection.tryParseRequests_eq cenv
    { c with inbox := c.inbox.afterEnding, readBuffer := b }
  dsimp only at hparse
  rw [show c.out = {} from rfl, hdrive] at hparse
  refine ⟨b', ?_⟩
  have hon := Connection.onReadable_accepted hread hparse
  have hgo := proceed_afterRead cenv
    (c := { waiting (Buffer.new 8192) [] {} requestInbox with
      readReady := true, readWaiter := false }) rfl hon rfl rfl rfl
  refine Eq.trans hgo ?_
  unfold Connection.suspendReadable Connection.armReadDeadline
  rw [hoptions]
  rfl

/-- The connection on descriptor 7 has a request to read. -/
def askActions : List Action :=
  [.collect [{ fd := 7, readable := true }], .work 0, .work 0, .work 0]

theorem exec_ask (token next : ℕ) (issued : List (ℤ × ℕ)) (owner : ℤ → ℕ)
    (tasks : List PoolTask) (applied : List (Option ℕ × ℕ)) :
    ∃ b, exec (act poolEnv) (serving (waiting (Buffer.new 8192) [] {} requestInbox) token next
        issued owner tasks applied) askActions =
      some (serving (waiting b [sampleBody]
        { handed := [sampleRequest], nextRequestSequence := 1 } []) token next issued owner
        (tasks ++ [⟨owner 7, 7, token, dispatchRequest 1 sampleRequest⟩])
        (applied ++ [(some (owner 7), owner 7)])) := by
  obtain ⟨b, hb⟩ := notifyReadable_request
    (serving (waiting (Buffer.new 8192) [] {} requestInbox) token next issued owner tasks
      applied).loop rfl token
  refine ⟨b, ?_⟩
  have hcollect : exec (act poolEnv) (serving (waiting (Buffer.new 8192) [] {} requestInbox) token
      next issued owner tasks applied) [.collect [{ fd := 7, readable := true }], .work 0] =
        some { serving (waiting (Buffer.new 8192) [] {} requestInbox) token next issued owner tasks
          applied with phase := .handling [⟨{ fd := 7, readable := true }, some (owner 7)⟩] } := rfl
  have hhandle : act poolEnv { serving (waiting (Buffer.new 8192) [] {} requestInbox) token next
      issued owner tasks applied with
        phase := .handling [⟨{ fd := 7, readable := true }, some (owner 7)⟩] } (.work 0) =
      some { serving (waiting b [sampleBody]
        { handed := [sampleRequest], nextRequestSequence := 1 } []) token next issued owner
        (tasks ++ [⟨owner 7, 7, token, dispatchRequest 1 sampleRequest⟩])
        (applied ++ [(some (owner 7), owner 7)]) with phase := .handling [] } := by
    have hnot : (serving (waiting (Buffer.new 8192) [] {} requestInbox) token next issued owner
        tasks applied).loop.notification poolEnv { fd := 7, readable := true } =
          some (⟨waiting (Buffer.new 8192) [] {} requestInbox, token, false⟩,
            waiting b [sampleBody] { handed := [sampleRequest], nextRequestSequence := 1 } []) :=
      congrArg (fun c => some ((⟨waiting (Buffer.new 8192) [] {} requestInbox, token, false⟩ :
        ConnectionState), c)) hb
    have hev : (serving (waiting (Buffer.new 8192) [] {} requestInbox) token next issued owner
        tasks applied).loop.handleEvent poolEnv { fd := 7, readable := true } =
          .ok (serving (waiting b [sampleBody]
            { handed := [sampleRequest], nextRequestSequence := 1 } []) token next issued owner
            tasks applied).loop := by
      rcases WorkerLoop.handleEvent_cases poolEnv (serving (waiting (Buffer.new 8192) [] {}
        requestInbox) token next issued owner tasks applied).loop { fd := 7, readable := true } with
        ⟨state, c, hn, -, -, heq⟩ | ⟨hn, -⟩
      · obtain ⟨rfl, rfl⟩ := Prod.mk.inj (Option.some.inj (hn.symm.trans hnot))
        rw [heq]
        rfl
      · cases hn.symm.trans hnot
    change handleStep poolEnv _ _ _ = _
    unfold handleStep
    dsimp only
    rw [hev, hnot]
    rfl
  rw [show askActions = [.collect [{ fd := 7, readable := true }], .work 0] ++
    .work 0 :: [.work 0] from rfl, exec_append, hcollect, Option.bind_some, exec_cons, hhandle]
  rfl

/-- The peer of the connection on descriptor 7 goes away. -/
def leaveActions : List Action :=
  [.collect [{ fd := 7, hangup := true }], .work 0, .work 0, .work 0]

theorem exec_leave (b : Buffer) (bodies : List Bytes) (handed : List RpcRequest) (n : ℕ)
    (i : Inbox) (token next : ℕ) (issued : List (ℤ × ℕ)) (owner : ℤ → ℕ) (tasks : List PoolTask)
    (applied : List (Option ℕ × ℕ)) :
    exec (act poolEnv) (serving (waiting b bodies { handed, nextRequestSequence := n } i) token next
      issued owner tasks applied) leaveActions =
      some (resting next issued owner tasks (applied ++ [(some (owner 7), owner 7)])) := by
  have hnone : WorkerLoop.submitted poolEnv (owner 7) 7 token handed handed = [] := by
    simp [WorkerLoop.submitted]
  have hrun : exec (act poolEnv) (serving (waiting b bodies { handed, nextRequestSequence := n } i)
      token next issued owner tasks applied) leaveActions = some (resting next issued owner
        (tasks ++ WorkerLoop.submitted poolEnv (owner 7) 7 token handed handed)
        (applied ++ [(some (owner 7), owner 7)])) := rfl
  rw [hrun, hnone, List.append_nil]

/-- Any number of connections come in on descriptor 7 and go away. -/
theorem exec_visits (tasks : List PoolTask) (n : ℕ) (issued : List (ℤ × ℕ)) (owner : ℤ → ℕ)
    (applied : List (Option ℕ × ℕ)) :
    ∃ actions issued' owner' applied', issued'.length = issued.length + n ∧
      exec (act poolEnv) (resting ((1 + issued.length) % 2 ^ 64) issued owner tasks applied)
        actions = some (resting ((1 + issued'.length) % 2 ^ 64) issued' owner' tasks applied') := by
  induction n generalizing issued owner applied with
  | zero => exact ⟨[], issued, owner, applied, rfl, rfl⟩
  | succ n ih =>
    obtain ⟨actions, issued', owner', applied', hlen, hex⟩ := ih
      (issued ++ [(7, (1 + issued.length) % 2 ^ 64)])
      (fun fd => if fd = 7 then issued.length else owner fd)
      (applied ++ [(some issued.length, issued.length)])
    have hnext : ((1 + issued.length) % 2 ^ 64 + 1) % 2 ^ 64 =
        (1 + (issued ++ [((7 : ℤ), (1 + issued.length) % 2 ^ 64)]).length) % 2 ^ 64 := by
      rw [List.length_append, List.length_singleton]
      omega
    refine ⟨arriveActions [] ++ (leaveActions ++ actions), issued', owner', applied', ?_, ?_⟩
    · rw [hlen, List.length_append, List.length_singleton]
      omega
    · rw [exec_append, exec_arrive, Option.bind_some, exec_append, exec_leave, Option.bind_some,
        hnext]
      exact hex

/-- The worker at the start. -/
def beginning : OwnedLoop := resting 1 [] (fun _ => 0) [] []

theorem initial_beginning : beginning.Initial := ⟨rfl, rfl, rfl, rfl, rfl, rfl, rfl, rfl, rfl⟩

/-- A connection comes in, sends a request and goes away; its task is still to be
run. -/
theorem exec_first_visit :
    ∃ actions owner applied, exec (act poolEnv) beginning actions =
      some (resting 2 [(7, 1)] owner [⟨0, 7, 1, dispatchRequest 1 sampleRequest⟩] applied) := by
  obtain ⟨b, hask⟩ := exec_ask 1 2 [(7, 1)] (fun fd => if fd = 7 then 0 else 0) [] []
  refine ⟨arriveActions requestInbox ++ (askActions ++ leaveActions),
    fun fd => if fd = 7 then 0 else 0, [(some 0, 0), (some 0, 0)], ?_⟩
  rw [exec_append, beginning, exec_arrive, Option.bind_some, exec_append]
  change ((exec (act poolEnv) (serving (waiting (Buffer.new 8192) [] {} requestInbox) 1 2 [(7, 1)]
    (fun fd => if fd = 7 then 0 else 0) [] []) askActions).bind _) = _
  rw [hask, Option.bind_some, exec_leave]
  rfl

/-- The worker when the task of the first connection was run: its response is
next, and descriptor 7 belongs to the connection that came last. -/
def returning (token next : ℕ) (issued : List (ℤ × ℕ)) (owner : ℤ → ℕ)
    (applied : List (Option ℕ × ℕ)) : OwnedLoop :=
  { serving (waiting (Buffer.new 8192) [] {} []) token next issued owner
      [⟨0, 7, 1, dispatchRequest 1 sampleRequest⟩] applied with
    phase := .delivering [⟨{ fd := 3, readable := true }, none⟩] [0]
    ran := [0] }

/-- The task of the first connection is run, and its response comes back to the
worker. -/
def returnActions : List Action := [.complete 0, wakeUp, .work 0]

/-- The loop when the pool has handed the response over. -/
def handedOver (token next : ℕ) : WorkerLoop :=
  { (serving (waiting (Buffer.new 8192) [] {} []) token next [] (fun _ => 0) [] []).loop with
    completed := some [runTask poolEnv.registry 7 1 (dispatchRequest 1 sampleRequest)] }

theorem exec_return (token next : ℕ) (issued : List (ℤ × ℕ)) (owner : ℤ → ℕ)
    (applied : List (Option ℕ × ℕ)) :
    exec (act poolEnv) (serving (waiting (Buffer.new 8192) [] {} []) token next issued owner
      [⟨0, 7, 1, dispatchRequest 1 sampleRequest⟩] applied) returnActions =
      some (returning token next issued owner applied) := by
  have hwake := WorkerLoop.drainWakeFd_of_nil (rfl : (handedOver token next).wakeReads = [])
  have hact : act poolEnv { serving (waiting (Buffer.new 8192) [] {} []) token next issued owner
      [⟨0, 7, 1, dispatchRequest 1 sampleRequest⟩] applied with
        loop := handedOver token next, ran := [0], queue := [0] } wakeUp = _ :=
    act_collect rfl (fun e he => Or.inl (by rw [List.mem_singleton.1 he]; rfl)) rfl hwake
  exact congrArg (Option.bind · fun u => exec (act poolEnv) u [.work 0]) hact

/-- The next connection comes in on the same descriptor, and the task of the
first is run: its response is dropped. -/
theorem responses_come_home_sample :
    ∃ actions s, exec (act poolEnv) beginning actions = some s ∧ s.issued.length = 2 ∧
      s.ran = [0] ∧ s.deliverStep poolEnv [⟨{ fd := 3, readable := true }, none⟩] 0 [] =
        some { s with phase := .delivering [⟨{ fd := 3, readable := true }, none⟩] [] } := by
  obtain ⟨actions, owner, applied, hvisit⟩ := exec_first_visit
  have hrun : exec (act poolEnv) beginning (actions ++ (arriveActions [] ++ returnActions)) =
      some (returning 2 3 [(7, 1), (7, 2)] (fun fd => if fd = 7 then 1 else owner fd) applied) := by
    rw [exec_append, hvisit, Option.bind_some, exec_append, exec_arrive, Option.bind_some]
    exact exec_return 2 3 _ _ applied
  obtain ⟨-, -, hbounded⟩ := responses_come_home initial_beginning hrun
  obtain ⟨-, hdropped⟩ := hbounded (show 2 ≤ 2 ^ 64 by decide)
  refine ⟨_, _, hrun, rfl, rfl, hdropped _ _ _ _ rfl rfl ?_⟩
  rintro ⟨fd, state, hl, ho⟩
  by_cases hfd : fd = 7
  · simp [returning, serving, hfd] at ho
  · replace hl : ((∅ : Table ℤ ConnectionState).insert 7 _).lookup fd = some state := hl
    rw [AList.lookup_insert_ne hfd, AList.lookup_empty] at hl
    cases hl

/-- Where the connection that has descriptor 7 now has token 1 too, the response
is queued on it. -/
theorem act_returning (next : ℕ) (issued : List (ℤ × ℕ)) (owner : ℤ → ℕ)
    (applied : List (Option ℕ × ℕ)) :
    ∃ s, act poolEnv (returning 1 next issued owner applied) (.work 0) = some s ∧
      s.tasks[0]? = some ⟨0, 7, 1, dispatchRequest 1 sampleRequest⟩ ∧
      s.log = [(0, owner 7)] := by
  have hact : act poolEnv (returning 1 next issued owner applied) (.work 0) = deliverStep poolEnv
      (returning 1 next issued owner applied) [⟨{ fd := 3, readable := true }, none⟩] 0 [] := rfl
  have hcompletion : (returning 1 next issued owner applied).completion poolEnv 0 =
      runTask poolEnv.registry 7 1 (dispatchRequest 1 sampleRequest) := rfl
  rw [hact, deliverStep, hcompletion]
  rcases WorkerLoop.deliver_cases poolEnv (returning 1 next issued owner applied).loop
    (runTask poolEnv.registry 7 1 (dispatchRequest 1 sampleRequest)) with
    ⟨state, c, hdel, -, -, heq⟩ | ⟨hdel, -, -⟩ | ⟨hdel, -, -⟩
  · rw [heq, hdel]
    exact ⟨_, rfl, rfl, rfl⟩
  · cases hdel
  · cases hdel

/-- **After `2 ^ 64` connections a token comes again**: the response to a request
of the first connection is queued on a later one. -/
theorem response_strays :
    ∃ actions s task uid, exec (act poolEnv) beginning actions = some s ∧
      s.tasks[0]? = some task ∧ (0, uid) ∈ s.log ∧ task.uid ≠ uid := by
  obtain ⟨first, owner, applied, hfirst⟩ := exec_first_visit
  obtain ⟨visits, issued', owner', applied', hlen, hvisits⟩ := exec_visits
    [⟨0, 7, 1, dispatchRequest 1 sampleRequest⟩] (2 ^ 64 - 1) [(7, 1)] owner applied
  rw [List.length_singleton] at hlen
  have hagain : (1 + issued'.length) % 2 ^ 64 = 1 := by omega
  rw [hagain] at hvisits
  have hrun : exec (act poolEnv) beginning
      (first ++ (visits ++ (arriveActions [] ++ returnActions))) =
        some (returning 1 2 (issued' ++ [(7, 1)])
          (fun fd => if fd = 7 then issued'.length else owner' fd) applied') := by
    rw [exec_append, hfirst, Option.bind_some, exec_append]
    refine Eq.trans (congrArg (Option.bind · _) hvisits) ?_
    rw [Option.bind_some, exec_append, exec_arrive, Option.bind_some]
    exact exec_return 1 2 _ _ applied'
  obtain ⟨s, hdeliver, htask, hlog⟩ := act_returning 2 (issued' ++ [(7, 1)])
    (fun fd => if fd = 7 then issued'.length else owner' fd) applied'
  refine ⟨first ++ (visits ++ (arriveActions [] ++ returnActions)) ++ [.work 0], s, _,
    issued'.length, ?_, htask, ?_, ?_⟩
  · rw [exec_append, hrun, Option.bind_some, exec_cons, hdeliver]
    rfl
  · rw [hlog]
    exact List.mem_singleton.2 rfl
  · dsimp only
    omega

end OwnedLoop
end Server
end MiniRpc
