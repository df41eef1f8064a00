/-
# Even shares

`SelectChannel` of `src/client/rpc_client_pool.cpp`, run by any number of threads an
atomic operation at a time: the scan reads the flag of each channel, other threads
store to the flags meanwhile, and then `RoundRobinBalancer` of
`src/client/load_balancer.cpp` counts its counter up and the channel its selections.
A thread that runs alone does what `selectChannel` of `MiniRpc.Client.RpcClientPool`
says (`selectChannel_alone`).

While all channels are healthy and none is excluded, the balancer goes around them all
(`picks_eq_rotation`).  `SelectWorker` of `src/server/rpc_server.cpp` goes around the
workers in the same way, whatever they do (`assigns_eq_rotation`).
-/

import MiniRpc.Client.RpcClientPool
import MiniRpc.Library.Rotation
import MiniRpc.Server.Descriptors

namespace MiniRpc
namespace Client

open Transition

/-- Where a thread is in `SelectChannel`. -/
inductive SelectPlace where
  /-- In the scan: the channels still to look at, and `healthy_candidates`. -/
  | scanning (excluded rest candidates : List ℕ)
  /-- At `balancer_->Select`. -/
  | balancing (candidates : List ℕ)
  /-- At `select_count.fetch_add`. -/
  | counting (channel : ℕ)
  deriving DecidableEq, Repr

/-- A pool under `kRoundRobin`, as far as `SelectChannel` goes. -/
structure SelectingPool where
  healthy : ℕ → Bool := fun _ => true
  nextIndex : ℕ := 0
  selectCount : ℕ → ℕ := fun _ => 0
  threads : Table ℕ SelectPlace := ∅

namespace SelectingPool

/-- One atomic step. -/
inductive Act where
  /-- The thread `T` calls `SelectChannel`. -/
  | start (T : ℕ) (excluded : List ℕ)
  /-- It goes on. -/
  | go (T : ℕ)
  /-- Somebody stores to the flag of the channel. -/
  | setHealth (channel : ℕ) (healthy : Bool)

/-- The thread is at this place now. -/
def goto (s : SelectingPool) (T : ℕ) (place : SelectPlace) : SelectingPool :=
  { s with threads := s.threads.insert T place }

/-- It returns from `SelectChannel`. -/
def leave (s : SelectingPool) (T : ℕ) : SelectingPool :=
  { s with threads := s.threads.erase T }

/-- One step for a pool with so many channels, `none` if it cannot happen in the state. -/
def step (channels : ℕ) (s : SelectingPool) : Act → Option SelectingPool
  | .start T excluded =>
    if (s.threads.lookup T).isSome then none
    else some (s.goto T (.scanning excluded (List.range channels) []))
  | .go T =>
    match s.threads.lookup T with
    | some (.scanning excluded (i :: rest) candidates) =>
      some (s.goto T (.scanning excluded rest
        (if s.healthy i && i ∉ excluded then candidates ++ [i] else candidates)))
    -- the first channel, or none
    | some (.scanning _ [] []) => some (s.leave T)
    | some (.scanning _ [] candidates) => some (s.goto T (.balancing candidates))
    | some (.balancing candidates) =>
      let index := LoadBalanceStrategy.select .kRoundRobin s.nextIndex candidates
      some (goto { s with nextIndex := (s.nextIndex + 1) % 2 ^ 64 } T
        (.counting (candidates.getD index 0)))
    | some (.counting i) =>
      some (leave { s with
        selectCount := Function.update s.selectCount i ((s.selectCount i + 1) % 2 ^ 64) } T)
    | none => none
  | .setHealth i healthy => some { s with healthy := Function.update s.healthy i healthy }

/-- The channel that `SelectChannel` decides on in a step: the first one if it found none,
and otherwise the one that the balancer selects. -/
def pick (channels : ℕ) (s : SelectingPool) : Act → Option ℕ
  | .go T =>
    match s.threads.lookup T with
    | some (.scanning _ [] []) => if channels = 0 then none else some 0
    | some (.balancing candidates) =>
      some (candidates.getD (LoadBalanceStrategy.select .kRoundRobin s.nextIndex candidates) 0)
    | _ => none
  | _ => none

/-- `SelectChannel` is called with no channels to exclude, as it is but for retries. -/
def Act.excludesNone : Act → Bool
  | .start _ excluded => excluded.isEmpty
  | _ => true

/-- All channels are healthy, and nobody excludes one. -/
def Calm (channels : ℕ) (s : SelectingPool) (a : Act) : Prop :=
  (∀ i < channels, s.healthy i = true) ∧ a.excludesNone = true

instance (channels : ℕ) (s : SelectingPool) (a : Act) : Decidable (Calm channels s a) :=
  inferInstanceAs (Decidable (_ ∧ _))

/-- A thread has found every channel that it has looked at. -/
def Finds (channels : ℕ) : SelectPlace → Prop
  | .scanning excluded rest candidates => excluded = [] ∧ candidates ++ rest = List.range channels
  | .balancing candidates => candidates = List.range channels
  | .counting _ => True

/-- All threads have. -/
def AllFind (channels : ℕ) (s : SelectingPool) : Prop :=
  ∀ T place, s.threads.lookup T = some place → Finds channels place

variable {channels : ℕ} {s t : SelectingPool} {a : Act} {T : ℕ}

theorem AllFind.goto (hs : s.AllFind channels) {s' : SelectingPool}
    (hthreads : s'.threads = s.threads) {place : SelectPlace} (hplace : Finds channels place) :
    AllFind channels (s'.goto T place) := by
  intro T' place' hl
  unfold SelectingPool.goto at hl
  dsimp only at hl
  rw [hthreads] at hl
  by_cases hT : T' = T
  · rw [hT, AList.lookup_insert] at hl
    exact Option.some.inj hl ▸ hplace
  · rw [AList.lookup_insert_ne hT] at hl
    exact hs T' place' hl

theorem AllFind.leave (hs : s.AllFind channels) {s' : SelectingPool}
    (hthreads : s'.threads = s.threads) : AllFind channels (s'.leave T) := by
  intro T' place' hl
  unfold SelectingPool.leave at hl
  dsimp only at hl
  rw [hthreads] at hl
  by_cases hT : T' = T
  · rw [hT, AList.lookup_erase] at hl
    cases hl
  · rw [AList.lookup_erase_ne hT] at hl
    exact hs T' place' hl

/-- **A step of a calm run leaves nobody out.** -/
theorem AllFind.step (hs : s.AllFind channels) (hcalm : Calm channels s a)
    (h : SelectingPool.step channels s a = some t) : t.AllFind channels := by
  cases a with
  | start T excluded =>
    simp only [SelectingPool.step] at h
    split_ifs at h
    obtain rfl := Option.some.inj h
    exact hs.goto rfl ⟨List.isEmpty_iff.1 hcalm.2, rfl⟩
  | setHealth i healthy =>
    obtain rfl := Option.some.inj h
    exact hs
  | go T =>
    simp only [SelectingPool.step] at h
    split at h
    · rename_i excluded i rest candidates hl
      obtain ⟨rfl, hfound⟩ := hs T _ hl
      have hi : i < channels := by
        rw [← List.mem_range, ← hfound]
        simp
      obtain rfl := Option.some.inj h
      refine hs.goto rfl ⟨rfl, ?_⟩
      rw [hcalm.1 i hi, ← hfound]
      simp
    · obtain rfl := Option.some.inj h
      exact hs.leave rfl
    · rename_i candidates _ hl
      obtain rfl := Option.some.inj h
      obtain ⟨-, hfound⟩ := hs T _ hl
      rw [List.append_nil] at hfound
      exact hs.goto rfl hfound
    · obtain rfl := Option.some.inj h
      exact hs.goto rfl trivial
    · obtain rfl := Option.some.inj h
      exact hs.leave rfl
    · cases h

/-- What a step decides on, and what it leaves of the counter. -/
theorem pick_step (hpos : 0 < channels) (hs : s.AllFind channels)
    (h : step channels s a = some t) :
    pick channels s a = none ∧ t.nextIndex = s.nextIndex ∨
      pick channels s a = some (s.nextIndex % channels) ∧
        t.nextIndex = (s.nextIndex + 1) % 2 ^ 64 := by
  cases a with
  | start T excluded =>
    simp only [step] at h
    split_ifs at h
    obtain rfl := Option.some.inj h
    exact Or.inl ⟨rfl, rfl⟩
  | setHealth i healthy =>
    obtain rfl := Option.some.inj h
    exact Or.inl ⟨rfl, rfl⟩
  | go T =>
    simp only [step] at h
    split at h
    · rename_i hl
      obtain rfl := Option.some.inj h
      exact Or.inl ⟨by simp [pick, hl], rfl⟩
    · rename_i hl
      -- the scan of a calm run finds a channel
      obtain ⟨-, hfound⟩ := hs T _ hl
      simp only [List.append_nil] at hfound
      have := congrArg List.length hfound
      simp at this
      omega
    · rename_i candidates hne hl
      obtain rfl := Option.some.inj h
      refine Or.inl ⟨?_, rfl⟩
      cases candidates with
      | nil => exact absurd rfl hne
      | cons i candidates => simp [pick, hl]
    · rename_i candidates hl
      obtain rfl := Option.some.inj h
      obtain rfl : candidates = List.range channels := hs T _ hl
      refine Or.inr ⟨?_, rfl⟩
      have hlt := Nat.mod_lt s.nextIndex hpos
      simp [pick, hl, LoadBalanceStrategy.select, hlt]
    · rename_i hl
      obtain rfl := Option.some.inj h
      exact Or.inl ⟨by simp [pick, hl], rfl⟩
    · cases h

/-- **The balancer goes around all channels.** -/
theorem picks_eq_rotation (hpos : 0 < channels) {es : List Act} (hs : s.AllFind channels)
    (hcalm : Along (step channels) (Calm channels) s es) (h : exec (step channels) s es = some t)
    (hlt : s.nextIndex + (observe (step channels) (pick channels) s es).length ≤ 2 ^ 64) :
    observe (step channels) (pick channels) s es =
      rotation s.nextIndex (observe (step channels) (pick channels) s es).length channels := by
  induction es generalizing s with
  | nil => rfl
  | cons a es ih =>
    obtain ⟨u, hu, hex⟩ := Option.bind_eq_some_iff.1 h
    have hrest := ih (hs.step hcalm.1 hu) (hcalm.2 u hu) hex
    simp only [observe, hu, Option.elim_some] at hlt ⊢
    rcases pick_step hpos hs hu with ⟨hnone, hnext⟩ | ⟨hsome, hnext⟩
    · rw [hnone, Option.toList_none, List.nil_append] at hlt ⊢
      rw [hnext] at hrest
      exact hrest hlt
    · rw [hsome, Option.toList_some, List.singleton_append, List.length_cons] at hlt ⊢
      rw [rotation_succ]
      refine congrArg _ ?_
      by_cases hwrap : s.nextIndex + 1 < 2 ^ 64
      · rw [Nat.mod_eq_of_lt hwrap] at hnext
        rw [hnext] at hrest
        exact hrest (by omega)
      · -- the counter wraps after the last selection
        have hnil : observe (step channels) (pick channels) u es = [] := by
          rw [← List.length_eq_zero_iff]
          omega
        rw [hnil]
        rfl

/-! ### A thread that runs alone -/

/-- The thread goes on alone to `t`, and decides on `picked`. -/
def Alone (channels : ℕ) (s : SelectingPool) (T : ℕ) (picked : Option ℕ) (t : SelectingPool) :
    Prop :=
  ∃ n, exec (step channels) s (List.replicate n (.go T)) = some t ∧
    observe (step channels) (pick channels) s (List.replicate n (.go T)) = picked.toList

theorem Alone.refl (s : SelectingPool) : Alone channels s T none s := ⟨0, rfl, rfl⟩

/-- One more step before the others. -/
theorem Alone.head {u : SelectingPool} {picked : Option ℕ}
    (hstep : step channels s (.go T) = some u) (h : Alone channels u T picked t)
    (hnone : pick channels s (.go T) = none) : Alone channels s T picked t := by
  obtain ⟨n, hex, hobserve⟩ := h
  refine ⟨n + 1, ?_, ?_⟩
  · rw [List.replicate_succ, exec_cons, hstep]
    exact hex
  · rw [List.replicate_succ, observe, hnone, hstep]
    exact hobserve

/-- The step that decides, if it is followed by steps that do not. -/
theorem Alone.settle {u : SelectingPool} {i : ℕ} (hstep : step channels s (.go T) = some u)
    (h : Alone channels u T none t) (hsome : pick channels s (.go T) = some i) :
    Alone channels s T (some i) t := by
  obtain ⟨n, hex, hobserve⟩ := h
  refine ⟨n + 1, ?_, ?_⟩
  · rw [List.replicate_succ, exec_cons, hstep]
    exact hex
  · rw [List.replicate_succ, observe, hsome, hstep, Option.elim_some, hobserve]
    rfl

/-- The thread has left, with this counter; the flags are as they were. -/
structure Left (s : SelectingPool) (T nextIndex : ℕ) (t : SelectingPool) : Prop where
  thread : t.threads.lookup T = none
  nextIndex : t.nextIndex = nextIndex
  healthy : t.healthy = s.healthy

theorem alone_balancing {candidates : List ℕ}
    (hl : s.threads.lookup T = some (.balancing candidates)) :
    ∃ t, Alone channels s T
        (some (candidates.getD (LoadBalanceStrategy.select .kRoundRobin s.nextIndex candidates) 0))
        t ∧
      Left s T ((s.nextIndex + 1) % 2 ^ 64) t := by
  obtain ⟨u, i, hu, hlu, hnext, hhealthy⟩ : ∃ u i, step channels s (.go T) = some u ∧
      u.threads.lookup T = some (.counting i) ∧ u.nextIndex = (s.nextIndex + 1) % 2 ^ 64 ∧
      u.healthy = s.healthy := by
    simp only [step, hl]
    exact ⟨_, _, rfl, AList.lookup_insert _, rfl, rfl⟩
  have hlast : step channels u (.go T) = some (leave { u with
      selectCount := Function.update u.selectCount i ((u.selectCount i + 1) % 2 ^ 64) } T) := by
    simp only [step, hlu]
  refine ⟨_, Alone.settle hu (Alone.head hlast (Alone.refl _) (by simp [pick, hlu])) ?_, ?_⟩
  · simp [pick, hl]
  · exact ⟨AList.lookup_erase _ _, hnext, hhealthy⟩

/-- The scan, and what comes after it. -/
theorem alone_scanning (setup : PoolSetup) (hstrategy : setup.strategy = .kRoundRobin)
    (p : RpcClientPool) {excluded rest candidates : List ℕ}
    (hhealthy : s.healthy = fun i => (p.health i).healthy) (hnext : s.nextIndex = p.nextIndex)
    (hl : s.threads.lookup T = some (.scanning excluded rest candidates))
    (hfound : candidates ++ (rest.filter fun i => (p.health i).healthy && i ∉ excluded) =
      p.candidates setup excluded) :
    ∃ t, Alone setup.channels s T ((p.selectChannel setup excluded).map Prod.fst) t ∧
      Left s T (((p.selectChannel setup excluded).map Prod.snd).getD s.nextIndex) t := by
  induction rest generalizing s candidates with
  | nil =>
    simp only [List.filter_nil, List.append_nil] at hfound
    cases candidates with
    | nil =>
      have hstep : step setup.channels s (.go T) = some (s.leave T) := by simp only [step, hl]
      have hselect : p.selectChannel setup excluded =
          if setup.channels = 0 then none else some (0, p.nextIndex) := by
        rw [RpcClientPool.selectChannel, ← hfound]
        rfl
      refine ⟨s.leave T, ?_, AList.lookup_erase _ _, ?_, rfl⟩
      · rw [hselect]
        by_cases hzero : setup.channels = 0
        · rw [if_pos hzero]
          exact Alone.head hstep (Alone.refl _) (by simp [pick, hl, hzero])
        · rw [if_neg hzero]
          exact Alone.settle hstep (Alone.refl _) (by simp [pick, hl, hzero])
      · rw [hselect]
        split_ifs
        · rfl
        · exact hnext
    | cons i more =>
      obtain ⟨u, hu, hlu, huhealthy, hunext⟩ : ∃ u, step setup.channels s (.go T) = some u ∧
          u.threads.lookup T = some (.balancing (i :: more)) ∧ u.healthy = s.healthy ∧
          u.nextIndex = s.nextIndex := by
        simp only [step, hl]
        exact ⟨_, rfl, AList.lookup_insert _, rfl, rfl⟩
      obtain ⟨t, ht, hleft⟩ : ∃ t, Alone setup.channels u T _ t ∧ Left u T _ t :=
        alone_balancing hlu
      have hselect : p.selectChannel setup excluded =
          some ((i :: more).getD
            (LoadBalanceStrategy.select .kRoundRobin s.nextIndex (i :: more)) 0,
            (s.nextIndex + 1) % 2 ^ 64) := by
        rw [RpcClientPool.selectChannel, ← hfound, hstrategy, hnext]
        simp [LoadBalanceStrategy.select]
      rw [hunext] at ht hleft
      rw [hselect]
      exact ⟨t, Alone.head hu ht (by simp [pick, hl]), hleft.thread, hleft.nextIndex,
        hleft.healthy.trans huhealthy⟩
  | cons i rest ih =>
    obtain ⟨u, hu, hlu, huhealthy, hunext⟩ : ∃ u, step setup.channels s (.go T) = some u ∧
        u.threads.lookup T = some (.scanning excluded rest
          (if (p.health i).healthy && i ∉ excluded then candidates ++ [i] else candidates)) ∧
        u.healthy = s.healthy ∧ u.nextIndex = s.nextIndex := by
      simp only [step, hl, hhealthy]
      exact ⟨_, rfl, AList.lookup_insert _, hhealthy, rfl⟩
    obtain ⟨t, ht, hleft⟩ := ih (huhealthy.trans hhealthy) (hunext.trans hnext) hlu (by
      rw [← hfound, List.filter_cons]
      split_ifs <;> simp)
    refine ⟨t, Alone.head hu ht (by simp [pick, hl]), hleft.thread, ?_, ?_⟩
    · rw [hleft.nextIndex, hunext]
    · rw [hleft.healthy, huhealthy]

/-- **A thread that runs alone selects as the pool does.** -/
theorem selectChannel_alone (setup : PoolSetup) (hstrategy : setup.strategy = .kRoundRobin)
    (p : RpcClientPool) (excluded : List ℕ) (hnew : s.threads.lookup T = none)
    (hhealthy : s.healthy = fun i => (p.health i).healthy) (hnext : s.nextIndex = p.nextIndex) :
    ∃ u t, step setup.channels s (.start T excluded) = some u ∧
      Alone setup.channels u T ((p.selectChannel setup excluded).map Prod.fst) t ∧
      Left u T (((p.selectChannel setup excluded).map Prod.snd).getD p.nextIndex) t := by
  have hstart : step setup.channels s (.start T excluded) =
      some (s.goto T (.scanning excluded (List.range setup.channels) [])) := by
    simp only [step, hnew, Option.isSome_none, Bool.false_eq_true, if_false]
  obtain ⟨t, ht, hleft⟩ := alone_scanning setup hstrategy p
    (s := s.goto T (.scanning excluded (List.range setup.channels) [])) hhealthy hnext
    (AList.lookup_insert _) rfl
  refine ⟨_, t, hstart, ht, ?_⟩
  rw [← hnext]
  exact hleft

end SelectingPool

/-! ### The workers of the server -/

open Server

namespace WorkerShares

/-- The worker that a step of the server hands a connection to. -/
def assign (s : DescriptorServer) : DescriptorServer.Event → Option ℕ
  | .accept p =>
    match s.place with
    | .looping =>
      if 0 ≤ p.fd then some (selectWorker s.workers.length s.nextWorker).1 else none
    | _ => none
  | _ => none

variable {env : LoopEnv} {s t : DescriptorServer} {e : DescriptorServer.Event}

/-- What a step assigns, and what it leaves of `next_worker_`. -/
theorem assign_step (h : s.step env e = some t) :
    t.workers.length = s.workers.length ∧
      (assign s e = none ∧ t.nextWorker = s.nextWorker ∨
        assign s e = some s.nextWorker ∧ t.nextWorker = (s.nextWorker + 1) % s.workers.length) := by
  cases DescriptorServer.Steps.of_step h with
  | accept p hplace hp => exact ⟨rfl, Or.inr ⟨by simp [assign, hplace, hp, selectWorker], rfl⟩⟩
  | refuse | pass | close | leave => exact ⟨rfl, Or.inl ⟨rfl, rfl⟩⟩
  | push | requestStop => exact ⟨List.length_modify .., Or.inl ⟨rfl, rfl⟩⟩
  | clear | work => exact ⟨List.length_set .., Or.inl ⟨rfl, rfl⟩⟩

/-- **`SelectWorker` goes around all workers.** -/
theorem assigns_eq_rotation {es : List DescriptorServer.Event}
    (hlt : s.nextWorker < s.workers.length)
    (h : exec (DescriptorServer.step env) s es = some t) :
    observe (DescriptorServer.step env) assign s es =
      rotation s.nextWorker (observe (DescriptorServer.step env) assign s es).length
        s.workers.length := by
  induction es generalizing s with
  | nil => rfl
  | cons e es ih =>
    obtain ⟨u, hu, hex⟩ := Option.bind_eq_some_iff.1 h
    obtain ⟨hlength, ⟨hnone, hnext⟩ | ⟨hsome, hnext⟩⟩ := assign_step hu
    · have hrest := ih (by rw [hlength, hnext]; exact hlt) hex
      rw [hlength, hnext] at hrest
      simpa only [observe, hu, hnone, Option.elim_some, Option.toList_none, List.nil_append]
        using hrest
    · have hrest := ih (by rw [hlength, hnext]; exact Nat.mod_lt _ (by omega)) hex
      rw [hlength, hnext] at hrest
      simp only [observe, hu, hsome, Option.elim_some, Option.toList_some,
        List.singleton_append, List.length_cons]
      rw [rotation_succ, Nat.mod_eq_of_lt hlt, ← rotation_mod_start]
      exact congrArg _ hrest

end WorkerShares

/-- **Everybody gets a share.**  Of any number of selections that any number of threads make
while all channels are healthy and none is excluded, each channel gets its share, as long as the
counter does not wrap before the last; and of any number of connections in a row that the server
hands over each worker gets its share. -/
theorem even_shares :
    (∀ (channels : ℕ) (s t : SelectingPool) (es : List SelectingPool.Act), 1 ≤ channels →
      s.threads = ∅ → Along (SelectingPool.step channels) (SelectingPool.Calm channels) s es →
      exec (SelectingPool.step channels) s es = some t →
      s.nextIndex + (observe (SelectingPool.step channels) (SelectingPool.pick channels) s
        es).length ≤ 2 ^ 64 →
      ∀ i < channels, IsShare
        (observe (SelectingPool.step channels) (SelectingPool.pick channels) s es).length channels
        ((observe (SelectingPool.step channels) (SelectingPool.pick channels) s es).count i)) ∧
    ∀ (env : LoopEnv) (s t : DescriptorServer) (es : List DescriptorServer.Event),
      s.nextWorker < s.workers.length → exec (DescriptorServer.step env) s es = some t →
      ∀ i < s.workers.length, IsShare
        (observe (DescriptorServer.step env) WorkerShares.assign s es).length s.workers.length
        ((observe (DescriptorServer.step env) WorkerShares.assign s es).count i) := by
  constructor
  · intro channels s t es hpos hidle hcalm h hlt i hi
    have hs : s.AllFind channels := by
      intro T place hl
      rw [hidle] at hl
      cases hl
    have hpicks := SelectingPool.picks_eq_rotation hpos hs hcalm h hlt
    generalize (observe _ _ s es) = picks at hpicks hlt ⊢
    have hshare := isShare_rotation s.nextIndex picks.length hi
    rwa [← hpicks] at hshare
  · intro env s t es hlt h i hi
    have hassigns := WorkerShares.assigns_eq_rotation hlt h
    generalize (observe _ _ s es) = assigns at hassigns ⊢
    have hshare := isShare_rotation s.nextWorker assigns.length hi
    rwa [← hassigns] at hshare

/-- Two threads that select a channel at once, the second one first. -/
def crossing : List SelectingPool.Act :=
  [.start 0 [], .start 1 [], .go 0, .go 1, .go 0, .go 1, .go 0, .go 1, .go 1, .go 0, .go 0, .go 1]

theorem even_shares_crossing :
    IsShare 2 2 ((observe (SelectingPool.step 2) (SelectingPool.pick 2) {} crossing).count 1) :=
  even_shares.1 2 {} _ crossing (by decide) rfl (by decide) rfl (by decide) 1 (by decide)

end Client
end MiniRpc
