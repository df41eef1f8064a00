/-
# The server's ends of a worker

A worker (`MiniRpc.Server.OwnedLoop`) has many connections, one event loop and one
pool; the acceptor and the threads of the pool come in between.  Seen alone, each
connection in its table is a server's end (`MiniRpc.EndToEnd.ServerEnd`): the polls
of the worker are its steps, and of all the responses that come back from the pool
it sees those to its own requests, each once (`connection_alone`).  So what is known
of the ends holds of the connections of a worker, whatever goes on in the others
(`connection_serves`).
-/

import MiniRpc.EndToEnd.ServerEnd
import MiniRpc.Server.RequestCounts

namespace MiniRpc
namespace EndToEnd

open Protocol Splitter Server Transition

namespace ServerEnd

variable {env : LoopEnv} {s t : ServerEnd} {responses : List RpcResponse}

/-- A call of the loop is some steps of the end. -/
theorem reaches_of_notifies (dispatch : DispatchRequest → Except String Unit) (ids : List ℕ)
    {s t : Turn} (h : Reaches (Turn.notifyStep (connectionEnv env dispatch)) s t) :
    Reaches (step env) ⟨s, ids⟩ ⟨t, ids⟩ := by
  refine h.map (f := fun turn => (⟨turn, ids⟩ : ServerEnd)) ?_
  rintro s ⟨a, ha⟩ t (hst : s.step a = some t)
  cases a with
  | round env' =>
    obtain rfl : env' = connectionEnv env dispatch := ha
    refine ⟨.round dispatch s.connection.inbox s.connection.out.outbox, ?_⟩
    show (s.step _).map _ = _
    rw [hst]
    rfl
  | notifyReadable =>
    refine ⟨.notifyReadable, ?_⟩
    show (s.step _).map _ = _
    rw [hst]
    rfl
  | notifyWritable =>
    refine ⟨.notifyWritable, ?_⟩
    show (s.step _).map _ = _
    rw [hst]
    rfl
  | enqueueResponse | tick | markClosing | markClosed => exact ha.elim

/-- What an end comes to still has what was read, queued and handed over. -/
theorem Served.reaches (h : s.Served env responses) (hr : Reaches (ServerEnd.step env) s t) :
    ∃ more, t.Served env (responses ++ more) ∧ s.Extends t := by
  refine hr.invariant (I := fun u => ∃ more, u.Served env (responses ++ more) ∧ s.Extends u)
    (fun u a v hu hv => ?_) ⟨[], by rwa [List.append_nil], .refl s⟩
  obtain ⟨more, hserved, hext⟩ := hu
  obtain ⟨more', hserved', hext'⟩ := hserved.step hv
  exact ⟨more ++ more', by rwa [← List.append_assoc], hext.trans hext'⟩

end ServerEnd

/-- What a worker builds a connection with. -/
theorem exists_connectionEnv (env : LoopEnv) (w : WorkerLoop) (fd : ℤ) (token : ℕ) :
    ∃ dispatch, WorkerLoop.connectionEnv env w fd token = connectionEnv env dispatch := by
  unfold WorkerLoop.connectionEnv connectionEnv
  cases env.submit with
  | none => exact ⟨fun _ => .ok (), rfl⟩
  | some submit => exact ⟨w.dispatchRequestToThreadPool submit fd token, rfl⟩

/-- The connection is one that a server's end comes to, with the responses to these
of its requests brought back. -/
def Seen (env : LoopEnv) (c : Connection) (ids : List ℕ) : Prop :=
  ∃ rc wc, Reaches (ServerEnd.step env) (.start rc wc) ⟨⟨c, none⟩, ids⟩

namespace Seen

variable {env : LoopEnv} {c c' : Connection} {ids ids' : List ℕ}

theorem trans (h : Seen env c ids)
    (hr : Reaches (ServerEnd.step env) ⟨⟨c, none⟩, ids⟩ ⟨⟨c', none⟩, ids'⟩) :
    Seen env c' ids' := by
  obtain ⟨rc, wc, hc⟩ := h
  exact ⟨rc, wc, hc.trans hr⟩

theorem exists_served (h : Seen env c ids) :
    ∃ responses, ServerEnd.Served env ⟨⟨c, none⟩, ids⟩ responses := by
  obtain ⟨rc, wc, hr⟩ := h
  obtain ⟨more, hserved, -⟩ := (ServerEnd.Served.start rc wc).reaches hr
  exact ⟨_, hserved⟩

/-- Nothing that was handed over is forgotten. -/
theorem handed (h : Seen env c ids)
    (hr : Reaches (ServerEnd.step env) ⟨⟨c, none⟩, ids⟩ ⟨⟨c', none⟩, ids'⟩) :
    c.out.handed <+: c'.out.handed := by
  obtain ⟨responses, hserved⟩ := h.exists_served
  obtain ⟨more, -, hext⟩ := hserved.reaches hr
  exact hext.handed

end Seen

section

variable (env : LoopEnv) (w : WorkerLoop) (fd : ℤ) (token : ℕ) (c : Connection) (ids : List ℕ)

theorem reaches_notifyReadable : Reaches (ServerEnd.step env) ⟨⟨c, none⟩, ids⟩
    ⟨⟨c.notifyReadable (WorkerLoop.connectionEnv env w fd token), none⟩, ids⟩ := by
  obtain ⟨dispatch, heq⟩ := exists_connectionEnv env w fd token
  rw [heq]
  exact ServerEnd.reaches_of_notifies dispatch ids (Turn.reaches_notifyReadable _ c)

theorem reaches_notifyWritable : Reaches (ServerEnd.step env) ⟨⟨c, none⟩, ids⟩
    ⟨⟨c.notifyWritable (WorkerLoop.connectionEnv env w fd token), none⟩, ids⟩ := by
  obtain ⟨dispatch, heq⟩ := exists_connectionEnv env w fd token
  rw [heq]
  exact ServerEnd.reaches_of_notifies dispatch ids (Turn.reaches_notifyWritable _ c)

theorem reaches_markClosing :
    Reaches (ServerEnd.step env) ⟨⟨c, none⟩, ids⟩ ⟨⟨c.markClosing, none⟩, ids⟩ :=
  .head (e := .markClosing) rfl (.refl _)

theorem reaches_tick (now : Time) :
    Reaches (ServerEnd.step env) ⟨⟨c, none⟩, ids⟩ ⟨⟨c.tick now, none⟩, ids⟩ :=
  .head (e := .tick now) rfl (.refl _)

/-- A connection that a worker takes over.  Its socket is the one it was handed over
with from the first round on. -/
theorem seen_start (rc wc : List Time) (i : Inbox) (o : Outbox) :
    Seen env (Connection.startConnectionCoroutine (WorkerLoop.connectionEnv env w fd token)
      { Connection.new rc wc o with inbox := i }) [] := by
  rw [Connection.startConnectionCoroutine_new]
  obtain ⟨dispatch, heq⟩ := exists_connectionEnv env w fd token
  rw [heq]
  exact ⟨rc, wc, .head (e := .round dispatch i o) rfl (.refl _)⟩

end

/-- What an event does to its connection. -/
theorem reaches_notification {env : LoopEnv} {w : WorkerLoop} {e : ReadyEvent}
    {state : ConnectionState} {c : Connection} (h : w.notification env e = some (state, c))
    (ids : List ℕ) :
    Reaches (ServerEnd.step env) ⟨⟨state.connection, none⟩, ids⟩ ⟨⟨c, none⟩, ids⟩ := by
  have hif : ∀ (b : Bool) (c c' : Connection),
      Reaches (ServerEnd.step env) ⟨⟨c, none⟩, ids⟩ ⟨⟨c', none⟩, ids⟩ →
        Reaches (ServerEnd.step env) ⟨⟨c, none⟩, ids⟩ ⟨⟨if b then c' else c, none⟩, ids⟩ := by
    intro b c c' hr
    cases b with
    | true => exact hr
    | false => exact .refl _
  unfold WorkerLoop.notification at h
  by_cases hwake : e.fd = w.wakeFd
  · rw [if_pos hwake] at h
    cases h
  · rw [if_neg hwake] at h
    split at h
    · cases h
    · obtain ⟨rfl, rfl⟩ := Prod.mk.inj (Option.some.inj h)
      refine (hif e.readable _ _ (reaches_notifyReadable ..)).trans
        ((hif e.writable _ _ (reaches_notifyWritable ..)).trans (hif e.hangup _ _ ?_))
      exact (reaches_markClosing ..).trans ((reaches_notifyReadable ..).trans
        (reaches_notifyWritable ..))

/-- What a completion does to its connection. -/
theorem delivery_cases {env : LoopEnv} {w : WorkerLoop} {r : CompletedResponse}
    {state : ConnectionState} {c : Connection} (h : w.delivery env r = some (state, c)) :
    w.connections.lookup r.fd = some state ∧ state.connectionToken = r.connectionToken ∧
      c = ({ state.connection with
        out := (enqueueResponse (baseEnv env) state.connection.out r.response).1 }).notifyReadable
          (WorkerLoop.connectionEnv env w r.fd state.connectionToken) := by
  unfold WorkerLoop.delivery at h
  split at h
  · cases h
  · rename_i state' hl
    split_ifs at h with ht
    dsimp only at h
    split at h
    · cases h
    · rename_i out heq
      obtain ⟨rfl, rfl⟩ := Prod.mk.inj (Option.some.inj h)
      have hout : out = (enqueueResponse (baseEnv env) state'.connection.out r.response).1 :=
        (congrArg Prod.fst heq).symm
      exact ⟨hl, not_not.1 ht, by rw [hout]⟩

/-! ### The connections of a run -/

/-- The place of the request of a task among those that its connection handed over. -/
def place (task : PoolTask) : ℕ := task.request.sequence - 1

/-- The places of the requests of a connection whose responses were queued. -/
def answered (s : OwnedLoop) (uid : ℕ) : List ℕ :=
  s.log.filterMap fun x => if x.2 = uid then s.tasks[x.1]?.map place else none

/-- **What a worker keeps of its connections.** -/
structure Portrayed (env : LoopEnv) (s : OwnedLoop) : Prop where
  owned : s.Owned
  pooled : s.tasks ≠ [] → env.submit.isSome = true
  /-- A task carries the request at its place. -/
  tasks : ∀ task ∈ s.tasks, ∃ request, task.request = dispatchRequest (place task + 1) request ∧
    ∀ state, s.loop.connections.lookup task.fd = some state → s.owner task.fd = task.uid →
      state.connection.out.handed[place task]? = some request
  distinct : (s.tasks.map fun task => (task.uid, place task)).Nodup
  seen : ∀ fd state, s.loop.connections.lookup fd = some state →
    Seen env state.connection (answered s (s.owner fd))

namespace Portrayed

variable {env : LoopEnv} {s t : OwnedLoop}

/-- A task is submitted for a request that was handed over, with its place. -/
theorem mem_submitted {env : LoopEnv} {uid : ℕ} {fd : ℤ} {token : ℕ}
    {before after : List RpcRequest} (hle : before <+: after) {task : PoolTask}
    (h : task ∈ WorkerLoop.submitted env uid fd token before after) :
    task.uid = uid ∧ before.length ≤ place task ∧ env.submit.isSome = true ∧
      ∃ request, task.request = dispatchRequest (place task + 1) request ∧
        after[place task]? = some request := by
  obtain ⟨more, rfl⟩ := hle
  obtain ⟨hmem, hsubmit⟩ := List.mem_filter.1 h
  obtain ⟨i, hi, rfl⟩ := List.mem_mapIdx.1 hmem
  have hplace : place ⟨uid, fd, token, dispatchRequest (before.length + i + 1)
      ((before ++ more).drop before.length)[i]⟩ = before.length + i := rfl
  refine ⟨rfl, by rw [hplace]; omega, ?_, _, by rw [hplace], ?_⟩
  · cases hs : env.submit with
    | none => simp [hs] at hsubmit
    | some submit => rfl
  · rw [hplace, ← List.getElem?_drop, List.getElem?_eq_getElem hi]

/-- The places of what is submitted differ. -/
theorem nodup_submitted (env : LoopEnv) (uid : ℕ) (fd : ℤ) (token : ℕ)
    (before after : List RpcRequest) :
    ((WorkerLoop.submitted env uid fd token before after).map place).Nodup := by
  have hplaces : ((after.drop before.length).mapIdx fun i request =>
      (⟨uid, fd, token, dispatchRequest (before.length + i + 1) request⟩ : PoolTask)).map place =
        (List.range (after.drop before.length).length).map (before.length + ·) := by
    refine List.ext_getElem (by simp) fun i hi hi' => ?_
    simp [place, dispatchRequest]
  refine List.Nodup.sublist (List.filter_sublist.map place) ?_
  rw [hplaces]
  exact List.nodup_range.map fun i j hij => by simpa using hij

/-- The tasks of a connection of the table carry its descriptor. -/
theorem fd_of_uid (h : Portrayed env s) {task : PoolTask} (ht : task ∈ s.tasks) {fd : ℤ}
    {state : ConnectionState} (hl : s.loop.connections.lookup fd = some state)
    (huid : task.uid = s.owner fd) : task.fd = fd := by
  have htask := h.owned.tasks task ht
  rw [huid, h.owned.table fd state hl] at htask
  exact (Prod.mk.inj (Option.some.inj htask)).1.symm

/-- What was queued before is not touched by what comes after. -/
theorem answered_append (h : s.Owned) {l : List (ℕ × ℕ)} (hlog : t.log = s.log ++ l)
    {more : List PoolTask} (htasks : t.tasks = s.tasks ++ more) (uid : ℕ) :
    answered t uid = answered s uid ++
      l.filterMap fun x => if x.2 = uid then t.tasks[x.1]?.map place else none := by
  unfold answered
  rw [hlog, List.filterMap_append]
  congr 1
  refine List.filterMap_congr fun x hx => ?_
  have hran : x.1 ∈ s.ran :=
    h.once_ran _ (List.mem_append_left _ (List.mem_append_left _ (List.mem_map_of_mem hx)))
  rw [htasks, List.getElem?_append_left (h.ran _ hran)]

/-- A step that submits nothing and queues nothing: the connections that are still in
the table are notified, at most. -/
theorem keeps (h : Portrayed env s) (ht : t.Owned) (howner : t.owner = s.owner)
    (htasks : t.tasks = s.tasks) (hlog : t.log = s.log)
    (htable : ∀ fd state', t.loop.connections.lookup fd = some state' →
      ∃ state, s.loop.connections.lookup fd = some state ∧ ∀ ids,
        Reaches (ServerEnd.step env) ⟨⟨state.connection, none⟩, ids⟩
          ⟨⟨state'.connection, none⟩, ids⟩) : Portrayed env t := by
  have hanswered : ∀ uid, answered t uid = answered s uid := by
    intro uid
    unfold answered
    rw [htasks, hlog]
  refine ⟨ht, by rw [htasks]; exact h.pooled, ?_, by rw [htasks]; exact h.distinct, ?_⟩
  · intro task hmem
    obtain ⟨request, hrequest, hhanded⟩ := h.tasks task (htasks ▸ hmem)
    refine ⟨request, hrequest, fun state' hl huid => ?_⟩
    obtain ⟨state, hl₀, hreaches⟩ := htable _ state' hl
    obtain ⟨more, hmore⟩ := (h.seen _ state hl₀).handed (hreaches _)
    rw [← hmore]
    exact OwnedLoop.getElem?_append_of_some (hhanded state hl₀ (howner ▸ huid))
  · intro fd state' hl
    obtain ⟨state, hl₀, hreaches⟩ := htable fd state' hl
    rw [howner, hanswered]
    exact (h.seen fd state hl₀).trans (hreaches _)

/-- **A step of one connection**: it submits what it hands over, and maybe a response
to it is queued. -/
theorem changes (h : Portrayed env s) (ht : t.Owned) (howner : t.owner = s.owner) {fd : ℤ}
    {state : ConnectionState} {c : Connection} (hl : s.loop.connections.lookup fd = some state)
    (hreaches : Reaches (ServerEnd.step env)
      ⟨⟨state.connection, none⟩, answered s (s.owner fd)⟩ ⟨⟨c, none⟩, answered t (s.owner fd)⟩)
    (htasks : t.tasks = s.tasks ++ WorkerLoop.submitted env (s.owner fd) fd state.connectionToken
      state.connection.out.handed c.out.handed)
    (hothers : ∀ fd', fd' ≠ fd →
      t.loop.connections.lookup fd' = s.loop.connections.lookup fd')
    (hself : ∀ state', t.loop.connections.lookup fd = some state' → state'.connection = c)
    (hanswered : ∀ uid, uid ≠ s.owner fd → answered t uid = answered s uid) :
    Portrayed env t := by
  have hle := (h.seen fd state hl).handed hreaches
  have hnew : ∀ task ∈ WorkerLoop.submitted env (s.owner fd) fd state.connectionToken
      state.connection.out.handed c.out.handed, _ := fun task hmem => mem_submitted hle hmem
  -- the tasks that the connection has already
  have hold : ∀ task ∈ s.tasks, task.uid = s.owner fd →
      ∃ request, task.request = dispatchRequest (place task + 1) request ∧
        state.connection.out.handed[place task]? = some request := by
    intro task hmem huid
    obtain ⟨request, hrequest, hhanded⟩ := h.tasks task hmem
    have hfd := h.fd_of_uid hmem hl huid
    exact ⟨request, hrequest, hhanded state (hfd ▸ hl) (hfd ▸ huid.symm)⟩
  refine ⟨ht, ?_, ?_, ?_, ?_⟩
  · intro hne
    obtain ⟨task, hmem⟩ := List.exists_mem_of_ne_nil _ hne
    rw [htasks] at hmem
    rcases List.mem_append.1 hmem with hmem | hmem
    · exact h.pooled (List.ne_nil_of_mem hmem)
    · exact (hnew task hmem).2.2.1
  · intro task hmem
    rw [htasks] at hmem
    rcases List.mem_append.1 hmem with hmem | hmem
    · obtain ⟨request, hrequest, hhanded⟩ := h.tasks task hmem
      refine ⟨request, hrequest, fun state' hl' huid => ?_⟩
      rw [howner] at huid
      by_cases hfd : task.fd = fd
      · obtain ⟨more, hmore⟩ := hle
        rw [hself state' (hfd ▸ hl'), ← hmore]
        exact OwnedLoop.getElem?_append_of_some (hhanded state (hfd ▸ hl) huid)
      · exact hhanded state' ((hothers _ hfd) ▸ hl') huid
    · obtain ⟨huid, -, -, request, hrequest, hhanded⟩ := hnew task hmem
      refine ⟨request, hrequest, fun state' hl' _ => ?_⟩
      have hfd : task.fd = fd := by
        obtain ⟨i, -, rfl⟩ := List.mem_mapIdx.1 (List.mem_of_mem_filter hmem)
        rfl
      rw [hself state' (hfd ▸ hl')]
      exact hhanded
  · rw [htasks, List.map_append, List.nodup_append]
    refine ⟨h.distinct, ?_, ?_⟩
    · refine List.Nodup.of_map Prod.snd ?_
      rw [List.map_map]
      exact nodup_submitted ..
    · intro x hx y hy hxy
      obtain ⟨task, hmem, rfl⟩ := List.mem_map.1 hx
      obtain ⟨task', hmem', rfl⟩ := List.mem_map.1 hy
      obtain ⟨huid, hplace⟩ := Prod.mk.inj hxy
      obtain ⟨huid', hlen, -⟩ := hnew task' hmem'
      obtain ⟨request, -, hhanded⟩ := hold task hmem (huid.trans huid')
      obtain ⟨hlt, -⟩ := List.getElem?_eq_some_iff.1 hhanded
      omega
  · intro fd' state' hl'
    rw [howner]
    by_cases hfd : fd' = fd
    · subst hfd
      rw [hself state' hl']
      exact (h.seen fd' state hl).trans hreaches
    · have hl₀ : s.loop.connections.lookup fd' = some state' := (hothers _ hfd) ▸ hl'
      have hne : s.owner fd' ≠ s.owner fd := by
        intro heq
        have htable := h.owned.table fd' state' hl₀
        rw [heq, h.owned.table fd state hl] at htable
        exact hfd (Prod.mk.inj (Option.some.inj htable)).1.symm
      rw [hanswered _ hne]
      exact h.seen fd' state' hl₀

/-- The connection that is taken over. -/
theorem seen_adopted {w w' : WorkerLoop} {p : PendingConnection}
    (h : w.addConnectionOnOwnerThread env p = .ok w') {state : ConnectionState}
    (hl : w'.connections.lookup p.fd = some state) : Seen env state.connection [] := by
  unfold WorkerLoop.addConnectionOnOwnerThread at h
  split_ifs at h
  split at h
  · cases h
  · dsimp only at h
    split_ifs at h
    obtain rfl := Ended.ok.inj h
    rw [AList.lookup_insert] at hl
    obtain rfl := Option.some.inj hl
    exact seen_start ..

/-- **A connection is taken over.** -/
theorem adoptStep (h : Portrayed env s) (hn : s.issued.length ≤ 2 ^ 64) {events : List Collected}
    {p : PendingConnection} {ps : List PendingConnection}
    (hphase : s.phase = .adopting events (p :: ps))
    (hstep : s.adoptStep env events p ps = some t) : Portrayed env t := by
  have ht := h.owned.adoptStep hphase hstep
  unfold OwnedLoop.adoptStep at hstep
  rcases WorkerLoop.addConnectionOnOwnerThread_cases env s.loop p with
    ⟨w', c, hadd, -, -, hnew, rfl⟩ | ⟨w', e, hadd, -, hconn, -⟩
  · have hc : Seen env c [] := seen_adopted hadd (AList.lookup_insert _)
    rw [hadd] at hstep
    obtain rfl := Option.some.inj hstep
    -- the tasks and the responses so far are those of connections with smaller numbers
    have huid : ∀ task ∈ s.tasks, task.uid < s.issued.length := by
      intro task hmem
      obtain ⟨hlt, -⟩ := List.getElem?_eq_some_iff.1 (h.owned.tasks task hmem)
      exact hlt
    refine ⟨ht, h.pooled, fun task hmem => ?_, h.distinct, fun fd state hl => ?_⟩
    · obtain ⟨request, hrequest, hhanded⟩ := h.tasks task hmem
      refine ⟨request, hrequest, fun state hl howner => ?_⟩
      dsimp only at hl howner
      by_cases hfd : task.fd = p.fd
      · rw [if_pos hfd] at howner
        have := huid task hmem
        omega
      · rw [if_neg hfd] at howner
        rw [AList.lookup_insert_ne hfd] at hl
        exact hhanded state hl howner
    · dsimp only at hl ⊢
      by_cases hfd : fd = p.fd
      · rw [hfd, AList.lookup_insert] at hl
        obtain rfl := Option.some.inj hl
        rw [if_pos hfd]
        have hnone : answered s s.issued.length = [] := by
          refine List.filterMap_eq_nil_iff.2 fun x hx => if_neg fun hlast => ?_
          obtain ⟨task, htask, hown⟩ := h.owned.log hn x.1 x.2 hx
          have := huid task (List.mem_of_getElem? htask)
          omega
        show Seen env c (answered s s.issued.length)
        rw [hnone]
        exact hc
      · rw [AList.lookup_insert_ne hfd] at hl
        rw [if_neg hfd]
        exact h.seen fd state hl
  · rw [hadd] at hstep
    obtain rfl := Option.some.inj hstep
    exact h.keeps ht rfl rfl rfl fun fd state hl => ⟨state, hconn ▸ hl, fun _ => .refl _⟩

/-- A task whose response was not queued yet answers a request that was not answered
yet. -/
theorem place_not_answered (h : Portrayed env s) (hn : s.issued.length ≤ 2 ^ 64) {id : ℕ}
    {task : PoolTask} (htask : s.tasks[id]? = some task) (hlog : id ∉ s.log.map Prod.fst) :
    place task ∉ answered s task.uid := by
  intro hmem
  obtain ⟨⟨id', uid⟩, hx, hplace⟩ := List.mem_filterMap.1 hmem
  dsimp only at hplace
  split_ifs at hplace with huid
  obtain ⟨task', htask', hsame⟩ := Option.map_eq_some_iff.1 hplace
  obtain ⟨task'', htask'', hown⟩ := h.owned.log hn id' uid hx
  obtain rfl := Option.some.inj (htask'.symm.trans htask'')
  -- the two tasks are one, by their connection and their place
  have hid : id' = id := by
    obtain ⟨hlt, -⟩ := List.getElem?_eq_some_iff.1 htask'
    refine (List.getElem?_inj (by rwa [List.length_map]) h.distinct).1 ?_
    rw [List.getElem?_map, List.getElem?_map, htask, htask']
    simp [hsame, hown, huid]
  exact hlog (List.mem_map.2 ⟨_, hx, hid⟩)

/-- **A response is looked at**: it is queued on the connection whose request it
answers, for the first time, or it changes nothing but a connection that closes. -/
theorem deliverStep (h : Portrayed env s) (hn : s.issued.length ≤ 2 ^ 64)
    {events : List Collected} {id : ℕ} {ids : List ℕ}
    (hphase : s.phase = .delivering events (id :: ids))
    (hstep : s.deliverStep env events id ids = some t) : Portrayed env t := by
  have ht := h.owned.deliverStep hphase hstep
  have honce := h.owned.once
  have hran := h.owned.once_ran
  rw [hphase] at honce hran
  simp only [PollPhase.inHand] at honce hran
  obtain ⟨task, htask⟩ : ∃ task, s.tasks[id]? = some task :=
    ⟨_, List.getElem?_eq_getElem (h.owned.ran id (hran id (by simp)))⟩
  have hmem := List.mem_of_getElem? htask
  obtain ⟨hfd, htoken⟩ := OwnedLoop.completion_of_task env htask
  unfold OwnedLoop.deliverStep at hstep
  dsimp only at hstep
  cases hd : s.loop.deliver env (s.completion env id) with
  | blocked => simp [hd] at hstep
  | failed w' e => exact absurd hd (CountedLoop.deliver_ne_failed env s.loop w' _ e)
  | ok w' =>
    rw [hd] at hstep
    dsimp only at hstep
    rcases WorkerLoop.deliver_cases env s.loop (s.completion env id) with
      ⟨state, c, hdel, hl, -, heq⟩ | ⟨hdel, heq, -⟩ | ⟨hdel, heq, -⟩
    · rw [hdel] at hstep
      have heqt := Option.some.inj hstep
      obtain ⟨-, hsame, hc⟩ := delivery_cases hdel
      rw [hfd] at hl heq heqt hc
      have hown : s.owner task.fd = task.uid :=
        h.owned.owner_eq hn hmem hl (hsame.trans htoken)
      have howner : t.owner = s.owner := by rw [← heqt]
      have htasks : t.tasks = s.tasks ++ WorkerLoop.submitted env (s.owner task.fd) task.fd
          state.connectionToken state.connection.out.handed c.out.handed := by rw [← heqt]
      have hlog : t.log = s.log ++ [(id, task.uid)] := by rw [← heqt, hown]
      have hloop : t.loop = w' := by rw [← heqt]
      rw [heq] at hd
      obtain ⟨honly, hself⟩ := WorkerLoop.updateEpollInterest_ok hd
      obtain ⟨request, hrequest, hhanded⟩ := h.tasks task hmem
      -- the response is that to the request of the task
      have hresponse : (s.completion env id).response =
          answer (env.registry.find request.serviceName request.methodName) request := by
        unfold OwnedLoop.completion
        rw [htask]
        dsimp only
        rw [hrequest]
        exact runTask_response ..
      have hplace := hhanded state hl hown
      have hfresh := h.place_not_answered hn htask fun hin =>
        (List.nodup_append.1 (List.nodup_append.1 honce).1).2.2 id hin id (by simp) rfl
      have hanswered := fun uid => answered_append h.owned hlog htasks uid
      refine h.changes ht howner hl ?_ htasks ?_ ?_ fun uid hne => ?_
      · rw [hanswered, hown]
        have hstep : ServerEnd.step env ⟨⟨state.connection, none⟩, answered s task.uid⟩
            (.complete (place task)) = some ⟨⟨{ state.connection with
              out := (enqueueResponse (baseEnv env) state.connection.out
                (s.completion env id).response).1 }, none⟩,
              answered s task.uid ++ [place task]⟩ := by
          have hguard : ¬ (env.submit.isNone || decide (place task ∈ answered s task.uid)) := by
            have hpool := Option.isSome_iff_ne_none.1 (h.pooled (List.ne_nil_of_mem hmem))
            simp [hfresh, hpool]
          simp only [ServerEnd.step, ServerEnd.connection, hplace]
          rw [if_neg hguard, hresponse]
          rfl
        have hlast : [(id, task.uid)].filterMap (fun x =>
            if x.2 = task.uid then t.tasks[x.1]?.map place else none) = [place task] := by
          have hget : t.tasks[id]? = some task := by
            rw [htasks]
            exact OwnedLoop.getElem?_append_of_some htask
          simp [hget]
        rw [hlast, hc]
        exact .head hstep (reaches_notifyReadable ..)
      · intro fd hne
        rw [hloop, honly.others fd hne]
        exact AList.lookup_insert_ne hne
      · intro state' hl'
        obtain ⟨state'', hl'', hconn⟩ := hself state' (hloop ▸ hl')
        rw [AList.lookup_insert] at hl''
        obtain rfl := Option.some.inj hl''
        exact hconn
      · have hskip : [(id, task.uid)].filterMap (fun x =>
            if x.2 = uid then t.tasks[x.1]?.map place else none) = [] := by
          simp [Ne.symm (hown ▸ hne)]
        rw [hanswered, hskip, List.append_nil]
    · rw [hdel] at hstep
      obtain rfl := Option.some.inj hstep
      rw [heq] at hd
      obtain ⟨honly, hnone⟩ := WorkerLoop.closeConnection_ok hd
      refine h.keeps ht rfl rfl rfl fun fd state' hl => ⟨state', ?_, fun _ => .refl _⟩
      have hne : fd ≠ (s.completion env id).fd := by
        rintro rfl
        cases hnone.symm.trans hl
      exact (honly.others fd hne) ▸ hl
    · rw [hdel] at hstep
      obtain rfl := Option.some.inj hstep
      obtain rfl := Ended.ok.inj (heq.symm.trans hd)
      exact h.keeps ht rfl rfl rfl fun fd state hl => ⟨state, hl, fun _ => .refl _⟩

theorem handleEvent_ne_failed (env : LoopEnv) (w w' : WorkerLoop) (e : ReadyEvent)
    (error : String) : w.handleEvent env e ≠ .failed w' error := by
  rcases WorkerLoop.handleEvent_cases env w e with ⟨state, c, -, -, -, heq⟩ | ⟨-, heq⟩
  · rw [heq]
    dsimp only
    split_ifs
    · exact WorkerLoop.closeConnection_ne_failed env _ w' _ error
    · exact WorkerLoop.closeConnection_ne_failed env _ w' _ error
    · exact WorkerLoop.updateEpollInterest_ne_failed env _ w' _ error
  · rw [heq]
    simp

/-- What handling an event leaves in the table. -/
theorem handleEvent_table {w w' : WorkerLoop} {e : ReadyEvent} {state : ConnectionState}
    {c : Connection} (hnot : w.notification env e = some (state, c))
    (h : w.handleEvent env e = .ok w') :
    (∀ fd, fd ≠ e.fd → w'.connections.lookup fd = w.connections.lookup fd) ∧
      ∀ state', w'.connections.lookup e.fd = some state' → state'.connection = c := by
  rcases WorkerLoop.handleEvent_cases env w e with ⟨state', c', hnot', -, -, heq⟩ | ⟨hnone, -⟩
  · obtain ⟨rfl, rfl⟩ := Prod.mk.inj (Option.some.inj (hnot.symm.trans hnot'))
    rw [heq] at h
    have hinsert : ∀ {v : WorkerLoop}, WorkerLoop.OnlyAt e.fd { w with
        connections := w.connections.insert e.fd { state with connection := c } } v →
          ∀ fd, fd ≠ e.fd → v.connections.lookup fd = w.connections.lookup fd :=
      fun honly fd hne => (honly.others fd hne).trans (AList.lookup_insert_ne hne)
    have hclose : ∀ {v : WorkerLoop}, v.connections.lookup e.fd = none →
        ∀ state', v.connections.lookup e.fd = some state' → state'.connection = c := by
      intro v hnone state' hl
      cases hnone.symm.trans hl
    dsimp only at h
    split_ifs at h
    · obtain ⟨honly, hnone⟩ := WorkerLoop.closeConnection_ok h
      exact ⟨hinsert honly, hclose hnone⟩
    · obtain ⟨honly, hnone⟩ := WorkerLoop.closeConnection_ok h
      exact ⟨hinsert honly, hclose hnone⟩
    · obtain ⟨honly, hself⟩ := WorkerLoop.updateEpollInterest_ok h
      refine ⟨hinsert honly, fun state' hl => ?_⟩
      obtain ⟨state'', hl'', hconn⟩ := hself state' hl
      rw [AList.lookup_insert] at hl''
      obtain rfl := Option.some.inj hl''
      exact hconn
  · cases hnone.symm.trans hnot

/-- **An event is handled.** -/
theorem handleStep (h : Portrayed env s) {e : Collected} {events : List Collected}
    (hphase : s.phase = .handling (e :: events)) (hstep : s.handleStep env e events = some t) :
    Portrayed env t := by
  have ht := h.owned.handleStep hphase hstep
  unfold OwnedLoop.handleStep at hstep
  cases hd : s.loop.handleEvent env e.event with
  | blocked => simp [hd] at hstep
  | failed w' err => exact absurd hd (handleEvent_ne_failed env s.loop w' e.event err)
  | ok w' =>
    rw [hd] at hstep
    dsimp only at hstep
    rcases WorkerLoop.handleEvent_cases env s.loop e.event with
      ⟨state, c, hnot, -, hl, -⟩ | ⟨hnot, heq⟩
    · rw [hnot] at hstep
      have heqt := Option.some.inj hstep
      obtain ⟨hothers, hself⟩ := handleEvent_table hnot hd
      have htasks : t.tasks = s.tasks ++ WorkerLoop.submitted env (s.owner e.event.fd) e.event.fd
          state.connectionToken state.connection.out.handed c.out.handed := by rw [← heqt]
      have hlog : t.log = s.log ++ [] := by rw [← heqt, List.append_nil]
      have hloop : t.loop = w' := by rw [← heqt]
      have hanswered := fun uid => answered_append h.owned hlog htasks uid
      refine h.changes ht (by rw [← heqt]) hl ?_ htasks (fun fd hne => ?_) (fun state' hl' => ?_)
        fun uid _ => ?_
      · rw [hanswered, List.filterMap_nil, List.append_nil]
        exact reaches_notification hnot _
      · rw [hloop]
        exact hothers fd hne
      · exact hself state' (hloop ▸ hl')
      · rw [hanswered, List.filterMap_nil, List.append_nil]
    · rw [hnot] at hstep
      obtain rfl := Option.some.inj hstep
      obtain rfl := Ended.ok.inj (heq.symm.trans hd)
      exact h.keeps ht rfl rfl rfl fun fd state hl => ⟨state, hl, fun _ => .refl _⟩

/-- **Every action keeps the portrait.** -/
theorem act (h : Portrayed env s) (hn : s.issued.length ≤ 2 ^ 64) {a : OwnedLoop.Action}
    (hstep : s.act env a = some t) : Portrayed env t := by
  have ht := h.owned.act hstep
  have hsame : t.loop.connections = s.loop.connections → t.owner = s.owner →
      t.tasks = s.tasks → t.log = s.log → Portrayed env t :=
    fun hconn howner htasks hlog =>
      h.keeps ht howner htasks hlog fun fd state hl => ⟨state, hconn ▸ hl, fun _ => .refl _⟩
  cases a with
  | enqueue p =>
    obtain rfl := Option.some.inj hstep
    exact hsame rfl rfl rfl rfl
  | complete id =>
    simp only [OwnedLoop.act] at hstep
    split_ifs at hstep
    obtain rfl := Option.some.inj hstep
    exact hsame rfl rfl rfl rfl
  | collect events =>
    simp only [OwnedLoop.act] at hstep
    split at hstep
    · split_ifs at hstep
      · have hdrain := s.loop.drainWakeFd_keeps
        cases hd : s.loop.drainWakeFd with
        | blocked => simp [hd] at hstep
        | failed w' e =>
          rw [hd] at hdrain hstep
          obtain rfl := Option.some.inj hstep
          obtain ⟨rest, rfl⟩ := hdrain
          exact hsame rfl rfl rfl rfl
        | ok w' =>
          rw [hd] at hdrain hstep
          obtain rfl := Option.some.inj hstep
          obtain ⟨rest, rfl⟩ := hdrain
          exact hsame rfl rfl rfl rfl
      · obtain rfl := Option.some.inj hstep
        exact hsame rfl rfl rfl rfl
    · cases hstep
  | work now =>
    simp only [OwnedLoop.act] at hstep
    cases hphase : s.phase with
    | idle => simp [hphase] at hstep
    | adopting events ps =>
      rw [hphase] at hstep
      cases ps with
      | nil =>
        obtain rfl := Option.some.inj hstep
        exact hsame rfl rfl rfl rfl
      | cons p ps => exact h.adoptStep hn hphase hstep
    | delivering events ids =>
      rw [hphase] at hstep
      cases ids with
      | nil =>
        obtain rfl := Option.some.inj hstep
        exact hsame rfl rfl rfl rfl
      | cons id ids => exact h.deliverStep hn hphase hstep
    | ticking events =>
      rw [hphase] at hstep
      obtain rfl := Option.some.inj hstep
      refine h.keeps ht rfl rfl rfl fun fd state' hl => ?_
      rw [WorkerLoop.tickAll, Table.lookup_mapVals] at hl
      obtain ⟨state, hstate, rfl⟩ := Option.map_eq_some_iff.1 hl
      exact ⟨state, hstate, fun ids => reaches_tick env _ ids now⟩
    | handling events =>
      rw [hphase] at hstep
      cases events with
      | nil =>
        obtain rfl := Option.some.inj hstep
        exact hsame rfl rfl rfl rfl
      | cons e events => exact h.handleStep hphase hstep

end Portrayed

/-! ### Runs from the start -/

variable {env : LoopEnv} {s₀ s : OwnedLoop}

theorem Portrayed.init (h : s₀.Initial) : Portrayed env s₀ where
  owned := h.owned
  pooled := fun hne => absurd h.tasks hne
  tasks := by simp [h.tasks]
  distinct := by simp [h.tasks]
  seen := by
    intro fd state hl
    rw [h.connections] at hl
    cases hl

/-- Tokens are given out, and not taken back. -/
theorem issued_le {s t : OwnedLoop} {a : OwnedLoop.Action} (hstep : s.act env a = some t) :
    s.issued.length ≤ t.issued.length := by
  suffices s.issued <+: t.issued from this.length_le
  cases a with
  | enqueue p =>
    obtain rfl := Option.some.inj hstep
    exact List.prefix_rfl
  | complete id =>
    simp only [OwnedLoop.act] at hstep
    split_ifs at hstep
    obtain rfl := Option.some.inj hstep
    exact List.prefix_rfl
  | collect events =>
    simp only [OwnedLoop.act] at hstep
    split at hstep
    · split_ifs at hstep
      · split at hstep
        · obtain rfl := Option.some.inj hstep
          exact List.prefix_rfl
        · obtain rfl := Option.some.inj hstep
          exact List.prefix_rfl
        · cases hstep
      · obtain rfl := Option.some.inj hstep
        exact List.prefix_rfl
    · cases hstep
  | work now =>
    simp only [OwnedLoop.act] at hstep
    split at hstep
    · cases hstep
    · obtain rfl := Option.some.inj hstep
      exact List.prefix_rfl
    · -- a connection that is taken over gets the next token
      have hnext : ∀ (b : Bool) (x : ℤ × ℕ),
          s.issued <+: if b then s.issued ++ [x] else s.issued := by
        intro b x
        cases b with
        | true => exact List.prefix_append _ _
        | false => exact List.prefix_rfl
      unfold OwnedLoop.adoptStep at hstep
      dsimp only at hstep
      split at hstep
      · obtain rfl := Option.some.inj hstep
        exact hnext _ _
      · obtain rfl := Option.some.inj hstep
        exact hnext _ _
      · cases hstep
    · obtain rfl := Option.some.inj hstep
      exact List.prefix_rfl
    · unfold OwnedLoop.deliverStep at hstep
      dsimp only at hstep
      split at hstep
      · split at hstep
        · obtain rfl := Option.some.inj hstep
          exact List.prefix_rfl
        · obtain rfl := Option.some.inj hstep
          exact List.prefix_rfl
      · obtain rfl := Option.some.inj hstep
        exact List.prefix_rfl
      · cases hstep
    · obtain rfl := Option.some.inj hstep
      exact List.prefix_rfl
    · obtain rfl := Option.some.inj hstep
      exact List.prefix_rfl
    · unfold OwnedLoop.handleStep at hstep
      split at hstep
      · split at hstep
        · obtain rfl := Option.some.inj hstep
          exact List.prefix_rfl
        · obtain rfl := Option.some.inj hstep
          exact List.prefix_rfl
      · obtain rfl := Option.some.inj hstep
        exact List.prefix_rfl
      · cases hstep

theorem portrayed (h₀ : s₀.Initial) {actions : List OwnedLoop.Action}
    (hrun : exec (OwnedLoop.act env) s₀ actions = some s) (hn : s.issued.length ≤ 2 ^ 64) :
    Portrayed env s := by
  refine exec_invariant (I := fun s => s.issued.length ≤ 2 ^ 64 → Portrayed env s)
    (fun _ => .init h₀) (fun s a t h hstep hn => ?_) hrun hn
  have hn' := (issued_le hstep).trans hn
  exact (h hn').act hn' hstep

/-- **Seen alone, a connection of a worker is a server's end.**  In every run of a
worker in which at most `2 ^ 64` connections got a token, each connection of the
table is what a run of a server's end comes to, from its start on; the responses
that come back there are those to the requests of this connection that were
queued. -/
theorem connection_alone (h₀ : s₀.Initial) {actions : List OwnedLoop.Action}
    (hrun : exec (OwnedLoop.act env) s₀ actions = some s) (hn : s.issued.length ≤ 2 ^ 64) {fd : ℤ}
    {state : ConnectionState} (hl : s.loop.connections.lookup fd = some state) :
    ∃ readClock writeClock acts,
      exec (ServerEnd.step env) (.start readClock writeClock) acts =
        some ⟨⟨state.connection, none⟩, answered s (s.owner fd)⟩ :=
  (portrayed h₀ hrun hn).seen fd state hl

/-- A connection comes in and sends a request, its task is run, and the worker has
queued the response. -/
def askedActions : List OwnedLoop.Action :=
  OwnedLoop.arriveActions OwnedLoop.requestInbox ++ OwnedLoop.askActions ++
    [.complete 0, OwnedLoop.wakeUp, .work 0, .work 0]

/-- What comes of it. -/
theorem exists_askedActions : ∃ s state,
    exec (OwnedLoop.act OwnedLoop.poolEnv) OwnedLoop.beginning askedActions = some s ∧
      s.issued.length ≤ 2 ^ 64 ∧ s.loop.connections.lookup 7 = some state ∧
      answered s (s.owner 7) = [0] ∧
      state.connection.out.emitted = frame Server.Connection.sampleReply := by
  have hone : ((exec (OwnedLoop.act OwnedLoop.poolEnv) OwnedLoop.beginning askedActions).map
      fun s => (s.issued.length, answered s (s.owner 7))) = some (1, [0]) := by
    decide +kernel
  have hout : ((exec (OwnedLoop.act OwnedLoop.poolEnv) OwnedLoop.beginning askedActions).bind
      fun s => (s.loop.connections.lookup 7).map fun state => state.connection.out.emitted) =
        some (frame Server.Connection.sampleReply) := by
    decide +kernel
  obtain ⟨s, hs, heq⟩ := Option.map_eq_some_iff.1 hone
  rw [hs] at hout
  obtain ⟨state, hl, hemitted⟩ := Option.map_eq_some_iff.1 hout
  obtain ⟨hlen, hanswered⟩ := Prod.mk.inj heq
  exact ⟨s, state, hs, by omega, hl, hanswered, hemitted⟩

/-- One connection, one request. -/
theorem connection_alone_sample : ∃ s state readClock writeClock acts,
    exec (OwnedLoop.act OwnedLoop.poolEnv) OwnedLoop.beginning askedActions = some s ∧
      exec (ServerEnd.step OwnedLoop.poolEnv) (.start readClock writeClock) acts =
        some ⟨⟨state, none⟩, [0]⟩ := by
  obtain ⟨s, state, hs, hn, hl, hanswered, -⟩ := exists_askedActions
  obtain ⟨readClock, writeClock, acts, hacts⟩ :=
    connection_alone OwnedLoop.initial_beginning hs hn hl
  rw [hanswered] at hacts
  exact ⟨s, state.connection, readClock, writeClock, acts, hs, hacts⟩

/-- **A connection of a worker serves its own client.**  In every such run, what was
queued on a connection of the table are whole frames: with no pool the replies to the
frames it took, in their order; with a pool the replies to those that are not
dispatched, and answers to requests that the connection handed over, each place at
most once. -/
theorem connection_serves (h₀ : s₀.Initial) {actions : List OwnedLoop.Action}
    (hrun : exec (OwnedLoop.act env) s₀ actions = some s) (hn : s.issued.length ≤ 2 ^ 64) {fd : ℤ}
    {state : ConnectionState} (hl : s.loop.connections.lookup fd = some state) :
    ∃ responses : List RpcResponse,
      state.connection.out.emitted = stream (responses.map env.response.serialize) ∧
      (env.submit = none →
        responses = state.connection.bodies.map (reply (baseEnv env))) ∧
      ∃ places : List ℕ, places.Nodup ∧
        (∀ i ∈ places, i < state.connection.out.handed.length) ∧
        responses.Perm (state.connection.bodies.filterMap (ownReply env) ++
          places.filterMap (ServerEnd.answerTo env state.connection.out.handed)) := by
  obtain ⟨responses, hserved⟩ := ((portrayed h₀ hrun hn).seen fd state hl).exists_served
  obtain ⟨places, hsub, hperm⟩ := hserved.pooled
  exact ⟨responses, hserved.emitted, hserved.inline, places, hserved.nodup.sublist hsub,
    fun i hi => hserved.completed i (hsub.subset hi), hperm⟩

/-- One connection, one request. -/
theorem connection_serves_sample : ∃ s state, ∃ responses : List RpcResponse, ∃ places : List ℕ,
    exec (OwnedLoop.act OwnedLoop.poolEnv) OwnedLoop.beginning askedActions = some s ∧
      s.loop.connections.lookup 7 = some state ∧
      frame Server.Connection.sampleReply =
        stream (responses.map OwnedLoop.poolEnv.response.serialize) ∧
      places.Nodup ∧
      responses.Perm (state.connection.bodies.filterMap (ownReply OwnedLoop.poolEnv) ++
        places.filterMap
          (ServerEnd.answerTo OwnedLoop.poolEnv state.connection.out.handed)) := by
  obtain ⟨s, state, hs, hn, hl, -, hemitted⟩ := exists_askedActions
  obtain ⟨responses, hstream, -, places, hnodup, -, hperm⟩ :=
    connection_serves OwnedLoop.initial_beginning hs hn hl
  exact ⟨s, state, responses, places, hs, hl, hemitted.symm.trans hstream, hnodup, hperm⟩

end EndToEnd
end MiniRpc
