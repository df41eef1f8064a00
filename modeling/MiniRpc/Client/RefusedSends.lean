/-
# A request that cannot be written

`Codec::WriteMessage` of `src/protocol/codec.cpp` refuses a message whose size is
`0` or over the limit before it touches the socket.  `CallAsync` and `CallCo` of
`src/client/rpc_client.cpp` take that for a broken connection like any other
failure: they close the client, and with it fail every call that is pending.
`refused_disturbs` follows the thread (`MiniRpc.Client.LockedClient`) from
`WriteMessage` to the end of the call.
-/

import MiniRpc.Client.LockedClient
import MiniRpc.Client.Origins

namespace MiniRpc
namespace Client

open Transition Protocol

namespace LockedClient

/-- In the run of `es` from `s` the thread has come to the end of `FailAll` in a
`Close`, after which no call was pending. -/
def FailsAll (M : Message RpcRequest) (T : Thread) (s : LockedClient) (es : List Act) : Prop :=
  ∃ pre post u, es = pre ++ ⟨T, .client (.closeFail T.number)⟩ :: post ∧
    exec (step M) s (pre ++ [⟨T, .client (.closeFail T.number)⟩]) = some u ∧
    RpcClient.Idle u.client.calls

/-- The client will not go back to the socket `g`. -/
def Lost (s : LockedClient) (g : ℕ) : Prop :=
  g < s.client.generations ∧ s.client.sock ≠ some g

/-- Where a thread is after `WriteMessage` refused a request: before the `Close` of
the call, in it or in what it wakes, or back from the call. -/
inductive Refused (M : Message RpcRequest) (T : Thread) (k g : ℕ) (request : RpcRequest)
    (rest : List Frame) (s₀ : LockedClient) (es : List Act) (s : LockedClient) : Prop where
  | sending (place : SendPlace)
    (hplace : place = .writing ∨ place = .failed ∨ place = .popping ∨ place = .closing)
    (hstack : s.stack T = .send (some k) request place :: rest)
    (hold : g < s.client.generations)
  | closing (frames : List Frame)
    (hstack : s.stack T = frames ++ .send (some k) request .closed :: rest)
    (hlost : s.Lost g)
    (hfails : frames.getLast? = some .close ∨ FailsAll M T s₀ es)
  | left (hlost : s.Lost g) (hfails : FailsAll M T s₀ es)

variable {M : Message RpcRequest} {s t : LockedClient} {T : Thread}

/-- What a step does to the client. -/
theorem client_of_steps {m : Move} (h : Steps M s T m t) :
    t.client = s.client ∨ ∃ b, s.client.step b = some t.client := by
  cases h with
  | call k request htop => exact Or.inl rfl
  | client b client' frames hclient hgoes => exact Or.inr ⟨b, hclient⟩
  | await call request htop => exact Or.inl rfl
  | lock call request htop hfree => exact Or.inl rfl
  | heartbeat request outbox htop => exact Or.inl (writeRequest_fields request outbox).1
  | sent k request outbox client' htop hwrite hclient => exact Or.inr ⟨_, hclient⟩
  | failed k request outbox e client' htop hwrite hclient => exact Or.inr ⟨_, hclient⟩
  | code htop => exact Or.inl rfl
  | waking htop => exact Or.inl rfl
  | unlock call request htop => exact Or.inl rfl
  | closed call request htop => exact Or.inl rfl

/-- A step changes the innermost function of its thread only. -/
theorem stack_of_steps {m : Move} (h : Steps M s T m t) :
    ∃ frames, t.stack = Function.update s.stack T (frames ++ (s.stack T).tail) := by
  cases h with
  | call k request htop => exact ⟨_, rfl⟩
  | client b client' frames hclient hgoes => exact ⟨_, rfl⟩
  | await call request htop => exact ⟨_, rfl⟩
  | lock call request htop hfree => exact ⟨_, rfl⟩
  | heartbeat request outbox htop =>
    exact ⟨[.send none request .written], stack_of_write request outbox _ _⟩
  | sent k request outbox client' htop hwrite hclient =>
    exact ⟨_, stack_of_write request outbox client' _⟩
  | failed k request outbox e client' htop hwrite hclient =>
    exact ⟨_, stack_of_write request outbox client' _⟩
  | code htop => exact ⟨[], rfl⟩
  | waking htop => exact ⟨[], rfl⟩
  | unlock call request htop => exact ⟨_, rfl⟩
  | closed call request htop => exact ⟨[], rfl⟩

/-- A socket that was given up does not come back: a new one has a new number. -/
theorem Lost.steps {m : Move} {g : ℕ} (h : s.Lost g) (hs : Steps M s T m t) : t.Lost g := by
  rcases client_of_steps hs with hclient | ⟨b, hclient⟩
  · rw [Lost, hclient]
    exact h
  · obtain ⟨hle, hsock⟩ := RpcClient.sock_of_step hclient
    refine ⟨h.1.trans_le hle, ?_⟩
    rcases hsock with hsock | hsock | ⟨hsock, -⟩
    · rw [hsock]
      exact h.2
    · simp [hsock]
    · rw [hsock]
      exact fun heq => absurd (Option.some.inj heq) (Nat.ne_of_gt h.1)

section Refused

variable {k g : ℕ} {request : RpcRequest} {rest : List Frame} {s₀ : LockedClient} {es : List Act}

/-- What was failed stays on record. -/
theorem FailsAll.concat {a : Act} (h : FailsAll M T s₀ es) : FailsAll M T s₀ (es ++ [a]) := by
  obtain ⟨pre, post, u, rfl, hu, hidle⟩ := h
  exact ⟨pre, post ++ [a], u, by simp, hu, hidle⟩

/-- The socket that a client has is no newer than the last one it made. -/
theorem sock_lt {es : List Act} (hs : exec (step M) {} es = some s)
    (hsock : s.client.sock = some g) : g < s.client.generations := by
  refine @exec_invariant _ _ (step M) {}
    (fun s => ∀ g, s.client.sock = some g → g < s.client.generations) ?_ ?_ es s hs g hsock
  · intro g h
    cases h
  · intro s a t h hs g hg
    rcases client_of_steps (Steps.of_step hs) with hclient | ⟨b, hclient⟩
    · rw [hclient] at hg ⊢
      exact h g hg
    · obtain ⟨hle, hsock⟩ := RpcClient.sock_of_step hclient
      rcases hsock with hsock | hsock | ⟨hsock, hnext⟩
      · exact (h g (hsock ▸ hg)).trans_le hle
      · rw [hsock] at hg
        cases hg
      · rw [hsock] at hg
        obtain rfl := Option.some.inj hg
        omega

/-- `WriteMessage` fails for a request of a refused size, whatever the socket. -/
theorem writeRequest_refused (hsize : ¬ ValidLength (M.byteSizeLong request)) (outbox : Outbox) :
    (s.writeRequest M request outbox).2 ≠ none := by
  unfold writeRequest
  split
  · simp
  · obtain ⟨e, he⟩ := writeMessage_refused hsize outbox
    simp [he]

/-- The step of the thread that sends. -/
theorem Refused.sending_step {place : SendPlace} {m : Move}
    (hsize : ¬ ValidLength (M.byteSizeLong request))
    (hplace : place = .writing ∨ place = .failed ∨ place = .popping ∨ place = .closing)
    (hstack : s.stack T = .send (some k) request place :: rest)
    (hold : g < s.client.generations) (hs : Steps M s T m t) :
    Refused M T k g request rest s₀ es t := by
  have htop : (s.stack T).head? = some (.send (some k) request place) := by rw [hstack]; rfl
  have htail : (s.stack T).tail = rest := by rw [hstack]; rfl
  have hgoto : ∀ (u : LockedClient) (place : SendPlace), u.stack = s.stack →
      (u.goto T [.send (some k) request place]).stack T = .send (some k) request place :: rest := by
    intro u place hu
    rw [goto_stack, hu, htail]
    rfl
  have hgenerations : s.client.generations ≤ t.client.generations := by
    rcases client_of_steps hs with hclient | ⟨b, hclient⟩
    · rw [hclient]
    · exact (RpcClient.sock_of_step hclient).1
  have hold' := hold.trans_le hgenerations
  cases hs with
  | client b client' frames hclient hgoes =>
    rw [htop] at hgoes
    rcases hplace with rfl | rfl | rfl | rfl
    · cases hgoes
    · cases hgoes
      exact .sending .popping (by simp) (hgoto _ _ rfl) hold'
    · cases hgoes
      exact .sending .closing (by simp) (hgoto _ _ rfl) hold'
    · cases hgoes
      refine .closing [.close] ?_ ⟨hold', ?_⟩ (Or.inl rfl)
      · rw [goto_stack]
        exact congrArg _ htail
      · obtain rfl := RpcClient.closeBegin_cases hclient
        simp
  | sent k' request' outbox client' htop' hwrite hclient =>
    obtain ⟨-, rfl, -⟩ := Frame.send.inj (Option.some.inj (htop.symm.trans htop'))
    exact absurd hwrite (writeRequest_refused hsize outbox)
  | failed k' request' outbox e client' htop' hwrite hclient =>
    obtain ⟨hk, rfl, -⟩ := Frame.send.inj (Option.some.inj (htop.symm.trans htop'))
    obtain rfl := Option.some.inj hk
    exact .sending .failed (by simp)
      (hgoto { (s.writeRequest M request outbox).1 with client := client' } _
        (writeRequest_fields request outbox).2.2) hold'
  | call k' request' htop' => cases htop.symm.trans htop'
  | await call request' htop' =>
    cases htop.symm.trans htop'
    simp at hplace
  | lock call request' htop' hfree =>
    cases htop.symm.trans htop'
    simp at hplace
  | heartbeat request' outbox htop' => cases htop.symm.trans htop'
  | code htop' => cases htop.symm.trans htop'
  | waking htop' => cases htop.symm.trans htop'
  | unlock call request' htop' =>
    cases htop.symm.trans htop'
    simp at hplace
  | closed call request' htop' =>
    cases htop.symm.trans htop'
    simp at hplace

/-- A thread inside `Close` waits for the dispatcher, or fails all calls. -/
theorem close_cases {m : Move} (htop : (s.stack T).head? = some .close)
    (hs : Steps M s T m t) :
    t.stack T = .close :: (s.stack T).tail ∨
      t.stack T = .waking :: (s.stack T).tail ∧ m = .client (.closeFail T.number) ∧
        RpcClient.Idle t.client.calls := by
  cases hs with
  | client b client' frames hclient hgoes =>
    rw [htop] at hgoes
    cases hgoes with
    | join => exact Or.inl (goto_stack ..)
    | fail =>
      refine Or.inr ⟨goto_stack .., rfl, ?_⟩
      obtain ⟨calls, hfail, rfl⟩ := RpcClient.closeFail_cases hclient
      exact RpcClient.idle_of_failAll hfail
  | call k request htop' => cases htop.symm.trans htop'
  | await call request htop' => cases htop.symm.trans htop'
  | lock call request htop' hfree => cases htop.symm.trans htop'
  | heartbeat request outbox htop' => cases htop.symm.trans htop'
  | sent k request outbox client' htop' hwrite hclient => cases htop.symm.trans htop'
  | failed k request outbox e client' htop' hwrite hclient => cases htop.symm.trans htop'
  | code htop' => cases htop.symm.trans htop'
  | waking htop' => cases htop.symm.trans htop'
  | unlock call request htop' => cases htop.symm.trans htop'
  | closed call request htop' => cases htop.symm.trans htop'

/-- The step of the thread that closes. -/
theorem Refused.closing_step {frames : List Frame} {m : Move}
    (hs₀ : exec (LockedClient.step M) s₀ es = some s)
    (hstack : s.stack T = frames ++ .send (some k) request .closed :: rest)
    (hlost : s.Lost g) (hfails : frames.getLast? = some .close ∨ FailsAll M T s₀ es)
    (hs : LockedClient.step M s ⟨T, m⟩ = some t) :
    Refused M T k g request rest s₀ (es ++ [⟨T, m⟩]) t := by
  have hsteps : Steps M s T m t := Steps.of_step hs
  have hlost' := hlost.steps hsteps
  cases frames with
  | nil =>
    -- `Close` has returned; the call leaves its critical section
    have hfailed : FailsAll M T s₀ es := by
      rcases hfails with h | h
      · cases h
      · exact h
    exact .left hlost' hfailed.concat
  | cons x frames =>
    have htop : (s.stack T).head? = some x := by rw [hstack]; rfl
    have htail : (s.stack T).tail = frames ++ .send (some k) request .closed :: rest := by
      rw [hstack]
      rfl
    obtain ⟨top, hmove⟩ := stack_of_steps hsteps
    have hstack' : t.stack T = (top ++ frames) ++ .send (some k) request .closed :: rest := by
      rw [hmove, Function.update_self, htail, List.append_assoc]
    rcases hfails with hlast | hfailed
    · cases frames with
      | nil =>
        obtain rfl : x = .close := by simpa using hlast
        rcases close_cases htop hsteps with hstays | ⟨hwakes, rfl, hidle⟩
        · refine .closing [.close] ?_ hlost' (Or.inl rfl)
          rw [hstays, htail]
          rfl
        · refine .closing [.waking] ?_ hlost' (Or.inr ⟨es, [], t, rfl, ?_, hidle⟩)
          · rw [hwakes, htail]
            rfl
          · exact exec_concat.2 ⟨s, hs₀, hs⟩
      | cons y frames =>
        refine .closing (top ++ y :: frames) hstack' hlost' (Or.inl ?_)
        rw [List.getLast?_append, ← List.getLast?_cons_cons (a := x), hlast]
        rfl
    · exact .closing (top ++ frames) hstack' hlost' (Or.inr hfailed.concat)

theorem Refused.step {a : Act} (hsize : ¬ ValidLength (M.byteSizeLong request))
    (hs₀ : exec (step M) s₀ es = some s) (h : Refused M T k g request rest s₀ es s)
    (hs : LockedClient.step M s a = some t) : Refused M T k g request rest s₀ (es ++ [a]) t := by
  have hsteps := Steps.of_step hs
  by_cases hT : a.thread = T
  · subst hT
    cases h with
    | sending place hplace hstack hold => exact sending_step hsize hplace hstack hold hsteps
    | closing frames hstack hlost hfails => exact closing_step hs₀ hstack hlost hfails hs
    | left hlost hfails => exact .left (hlost.steps hsteps) hfails.concat
  · have hsame : t.stack T = s.stack T := by
      obtain ⟨frames, hstack⟩ := stack_of_steps hsteps
      rw [hstack, Function.update_of_ne (Ne.symm hT)]
    cases h with
    | sending place hplace hstack hold =>
      refine .sending place hplace (hsame.trans hstack) (hold.trans_le ?_)
      rcases client_of_steps hsteps with hclient | ⟨b, hclient⟩
      · rw [hclient]
      · exact (RpcClient.sock_of_step hclient).1
    | closing frames hstack hlost hfails =>
      exact .closing frames (hsame.trans hstack) (hlost.steps hsteps)
        (hfails.imp_right FailsAll.concat)
    | left hlost hfails => exact .left (hlost.steps hsteps) hfails.concat

/-- **A request that is refused for its size costs all the calls that are pending
their connection.**  A thread calls `WriteMessage` for such a request while the
client has the socket `g`.  However the threads go on from there, when the call has
returned the client has not got that socket, the thread has failed every pending
call in between, and the error of the call counts as one of the connection, so that
the pool goes on with the same request at its next channel. -/
theorem refused_disturbs {pre : List Act} (hs : exec (LockedClient.step M) {} pre = some s)
    (hstack : s.stack T = .send (some k) request .writing :: rest)
    (hsock : s.client.sock = some g) (hsize : ¬ ValidLength (M.byteSizeLong request))
    (hrun : exec (LockedClient.step M) s es = some t)
    (hreturned : (t.stack T).length ≤ rest.length) :
    t.client.sock ≠ some g ∧ FailsAll M T s es ∧
      ∀ outbox e, (s.writeRequest M request outbox).2 = some e →
        isConnectionError (sendFailure e) = true := by
  have hrefused : Refused M T k g request rest s es t := by
    have hrun' := @exec_history _ _ (LockedClient.step M) s
      (fun es t => exec (LockedClient.step M) s es = some t ∧
        Refused M T k g request rest s es t)
      ⟨rfl, .sending .writing (Or.inl rfl) hstack (sock_lt hs hsock)⟩
      (fun es u a v h huv => ⟨exec_concat.2 ⟨u, h.1, huv⟩, h.2.step hsize h.1 huv⟩) es t hrun
    exact hrun'.2
  refine ⟨?_, ?_, fun outbox e _ => (Origin.isConnectionError_iff (.send e)).2 rfl⟩
  all_goals
    cases hrefused with
    | sending place hplace hstack' hold =>
      rw [hstack', List.length_cons] at hreturned
      omega
    | closing frames hstack' hlost hfails =>
      rw [hstack', List.length_append, List.length_cons] at hreturned
      omega
    | left hlost hfails => first | exact hlost.2 | exact hfails

end Refused

/-- A request with a payload as large as a frame may be. -/
def bulkRequest : RpcRequest := ⟨"2", "S", "M", List.replicate kMaxFrameSize 0⟩

/-- The first request and that one, as they are written. -/
def bulkMessage : Message RpcRequest where
  serialize request :=
    if request.requestId = "1" then [0x0A, 1, 0x31, 0x12, 1, 0x53, 0x1A, 1, 0x4D]
    else
      [0x0A, 1, 0x32, 0x12, 1, 0x53, 0x1A, 1, 0x4D, 0x22, 0x80, 0x80, 0x80, 0x02] ++
        request.payload
  parse body := some (if body.length = 9 then firstRequest else bulkRequest)

theorem bulkRequest_refused : ¬ ValidLength (bulkMessage.byteSizeLong bulkRequest) := by
  have hid : ¬ bulkRequest.requestId = "1" := by decide
  have hsize : bulkMessage.byteSizeLong bulkRequest = 14 + kMaxFrameSize := by
    simp only [Message.byteSizeLong, bulkMessage, if_neg hid, List.length_append]
    exact congrArg _ List.length_replicate
  rw [not_validLength_iff, hsize]
  omega

theorem writeMessage_bulkRequest :
    ∃ e, writeMessage bulkMessage bulkRequest [] = ([], some e, []) ∧ e ≠ "" := by
  refine ⟨_, by rw [writeMessage, if_pos bulkRequest_refused], fun h => ?_⟩
  have hlist := congrArg String.toList h
  rw [String.toList_append] at hlist
  exact absurd (List.append_eq_nil_iff.1 hlist).1 (by decide)

/-- The step of a call whose request could not be sent on the socket. -/
theorem step_sendError {c : RpcClient} {k : ℕ} {e : String} {calls : State}
    (hsock : c.sock.isSome = true) (hne : e ≠ "")
    (hcalls : Client.step c.calls (.call k (.sendError e)) = some calls) :
    c.step (.call (.call k (.sendError e))) = some { c with calls } := by
  have hallows : c.allows (.call k (.sendError e)) = true := by
    simp [RpcClient.allows, hsock, hne]
  simp only [RpcClient.step, RpcClient.control, hallows, if_true, hcalls, Option.map_some]

/-- A call of the second user is registered and about to be sent. -/
def firstRegistered : List Act :=
  [⟨.user 1, .call 1 ⟨"", "S", "M", []⟩⟩,
    ⟨.user 1, .client (.connect 1 true)⟩,
    ⟨.user 1, .client (.call (.begin 1 .callAsync))⟩,
    ⟨.user 1, .client (.call (.call 1 .add))⟩,
    ⟨.user 1, .await⟩,
    ⟨.user 1, .lock⟩]

/-- It waits for its answer, and the first user comes with the large request. -/
def firstWaits : List Act :=
  [⟨.user 1, .leave⟩,
    ⟨.user 1, .client (.call (.call 1 (.bind 5)))⟩,
    ⟨.dispatcher 0, .client (.dispatcher 0 .start)⟩,
    ⟨.dispatcher 0, .client (.dispatcher 0 .ready)⟩,
    ⟨.dispatcher 0, .client (.dispatcher 0 .check)⟩,
    ⟨.user 0, .call 0 ⟨"", "S", "M", List.replicate kMaxFrameSize 0⟩⟩,
    ⟨.user 0, .client (.connect 0 false)⟩,
    ⟨.user 0, .client (.call (.begin 0 .callAsync))⟩,
    ⟨.user 0, .client (.call (.call 0 .add))⟩,
    ⟨.user 0, .await⟩,
    ⟨.user 0, .lock⟩]

/-- The first user's call fails, closes the client and returns. -/
def bulkFails : List Act :=
  [⟨.user 0, .client (.call (.call 0 .complete))⟩,
    ⟨.user 0, .client (.call (.call 0 .tryPop))⟩,
    ⟨.user 0, .client (.closeBegin 0)⟩,
    ⟨.dispatcher 0, .client (.dispatcher 0 .wakeup)⟩,
    ⟨.dispatcher 0, .client (.dispatcher 0 .check)⟩,
    ⟨.dispatcher 0, .client (.dispatcher 0 .leave)⟩,
    ⟨.user 0, .client (.closeJoin 0)⟩,
    ⟨.user 0, .client (.closeFail 0)⟩,
    ⟨.user 0, .client (.call (.wake (.setValue 1 Origin.closed.result)))⟩,
    ⟨.user 0, .leave⟩,
    ⟨.user 0, .leave⟩]

/-- The large request costs the second user its call. -/
theorem bulk_run : ∃ s t c,
    exec (step bulkMessage) {} (firstRegistered ++ ⟨.user 1, .write []⟩ :: firstWaits) = some s ∧
    s.stack (.user 0) = [.send (some 0) bulkRequest .writing, .code] ∧ s.client.sock = some 0 ∧
    exec (step bulkMessage) s (⟨.user 0, .write []⟩ :: bulkFails) = some t ∧
    t.stack (.user 0) = [.code] ∧ t.client.sock = none ∧
    t.client.calls.calls.lookup 1 = some c ∧ c.received = [Origin.closed.result] := by
  obtain ⟨e, hwrite, hne⟩ := writeMessage_bulkRequest
  obtain ⟨u, v, s, hu, hv, hs, hstack, hsock, x, hx, t, c, ht⟩ : ∃ u v s,
      exec (step bulkMessage) {} firstRegistered = some u ∧
      step bulkMessage u ⟨.user 1, .write []⟩ = some v ∧
      exec (step bulkMessage) v firstWaits = some s ∧
      s.stack (.user 0) = [.send (some 0) bulkRequest .writing, .code] ∧ s.client.sock = some 0 ∧
      ∃ x, step bulkMessage s ⟨.user 0, .write []⟩ = some x ∧ ∃ t c,
        exec (step bulkMessage) x bulkFails = some t ∧
        t.stack (.user 0) = [.code] ∧ t.client.sock = none ∧
        t.client.calls.calls.lookup 1 = some c ∧ c.received = [Origin.closed.result] :=
    ⟨_, _, _, rfl, step_sent rfl rfl (writeMessage_all (by decide)) rfl, rfl, rfl, rfl, _,
      step_failed rfl rfl hwrite (step_sendError rfl hne rfl), _, _, rfl, rfl, rfl, rfl, rfl⟩
  refine ⟨s, t, c, ?_, hstack, hsock, ?_, ht.2⟩
  · rw [exec_append, hu, Option.bind_some, exec_cons, hv, Option.bind_some, hs]
  · rw [exec_cons, hx, Option.bind_some, ht.1]

theorem refused_disturbs_bulk :
    ∃ s t, exec (step bulkMessage) s (⟨.user 0, .write []⟩ :: bulkFails) = some t ∧
      t.client.sock ≠ some 0 ∧
      FailsAll bulkMessage (.user 0) s (⟨.user 0, .write []⟩ :: bulkFails) := by
  obtain ⟨s, t, c, hs, hstack, hsock, ht, hreturned, -⟩ := bulk_run
  have hdisturbs := refused_disturbs hs hstack hsock bulkRequest_refused ht (by rw [hreturned])
  exact ⟨s, t, ht, hdisturbs.1, hdisturbs.2.1⟩

/-- **A call that waited for its answer has lost its connection** when the large
request of another one has failed. -/
theorem bulk_disturbs :
    ¬ ∀ (M : Message RpcRequest) (pre es : List Act) (s t : LockedClient) (T : Thread) (k g : ℕ)
      (request : RpcRequest) (rest : List Frame), exec (step M) {} pre = some s →
        s.stack T = .send (some k) request .writing :: rest → s.client.sock = some g →
        ¬ ValidLength (M.byteSizeLong request) → exec (step M) s es = some t →
        (t.stack T).length ≤ rest.length → t.client.sock = some g ∧
          ∀ j c, j ≠ k → s.client.calls.calls.lookup j = some c →
            t.client.calls.calls.lookup j = some c := by
  intro h
  obtain ⟨s, t, c, hs, hstack, hsock, ht, hreturned, hlost, -⟩ := bulk_run
  have hkept := (h _ _ _ s t _ _ _ _ _ hs hstack hsock bulkRequest_refused ht
    (by rw [hreturned])).1
  rw [hlost] at hkept
  cases hkept

end LockedClient
end Client
end MiniRpc
