/-
# A client and its threads

`src/client/rpc_client.cpp`, with the mutex `write_mu_` that the calls and the
heartbeats send under.  `RpcClient` (`MiniRpc.Client.Lifecycle`) leaves open which
thread makes a step; here each thread has a stack of the functions it is in, and
a step of the client is made by the thread that is at it.  A resumed coroutine
runs on the thread that resumes it, the dispatcher or a thread inside `Close`, and
may call `CallAsync`, `CallCo` and `Close` itself, with everything below it still
on the stack.

`CallAsync` and `CallCo` hold `write_mu_` from before `WriteMessage` until after
the `Close` of a failed send; `SendHeartbeatRequest` only while it writes.
`WriteMessage` is one step, under the mutex, for a socket that answers as given.
What it put on each socket is recorded.  A user's `Close` does not take `write_mu_`, and
a `Connect` after it may get the same descriptor: runs in which this happens while
`WriteMessage` is under way are left out.

A wake-up may be carried out by any thread that resumes coroutines, as in
`MiniRpc.Client.Calls`; in the code it is the thread whose operation made it.
-/

import MiniRpc.Client.Lifecycle
import MiniRpc.Protocol.Codec

namespace MiniRpc
namespace Client

open Transition

/-- `kHeartbeatServiceName`. -/
def RpcClient.kHeartbeatServiceName : String := "__Heartbeat__"

/-- A thread: one of the users of the client, or a dispatcher. -/
inductive Thread where
  | user (u : ℕ)
  | dispatcher (g : ℕ)
  deriving DecidableEq, Repr

/-- The number under which the client knows the thread while it is in `Close`. -/
def Thread.number : Thread → ℕ
  | .user u => 2 * u
  | .dispatcher g => 2 * g + 1

theorem Thread.number_inj {T T' : Thread} (h : T.number = T'.number) : T = T' := by
  cases T <;> cases T' <;> simp only [Thread.number] at h <;> first | omega | congr 1; omega

/-- Where a thread is in `CallAsync`, `CallCo` or `SendHeartbeatRequest`. -/
inductive SendPlace where
  /-- Before `Connect`. -/
  | connecting
  /-- Before `NextRequestId`. -/
  | connected
  /-- Before `Add`. -/
  | drawn
  /-- The request is built. -/
  | composed
  /-- In the lock of `write_mu_`. -/
  | locking
  /-- Before `WriteMessage`. -/
  | writing
  /-- Before the end of the critical section. -/
  | written
  /-- `WriteMessage` failed; before `Complete`. -/
  | failed
  /-- Before `TryPop`. -/
  | popping
  /-- Before `Close`. -/
  | closing
  /-- `Close` has returned. -/
  | closed
  deriving DecidableEq, Repr

/-- The critical section of `write_mu_`. -/
def SendPlace.holds : SendPlace → Bool
  | .writing => true
  | .written => true
  | .failed => true
  | .popping => true
  | .closing => true
  | .closed => true
  | _ => false

/-- A function that a thread is in. -/
inductive Frame where
  /-- Code of the user: a thread of its own, or a resumed coroutine. -/
  | code
  /-- A call, or a heartbeat, that sends the request. -/
  | send (call : Option ℕ) (request : RpcRequest) (place : SendPlace)
  /-- The part of a call after its request was sent. -/
  | bind (call : ℕ)
  | close
  /-- `FailAll` of a `Close`, which fulfils promises and resumes coroutines. -/
  | waking
  deriving DecidableEq, Repr

/-- The thread waits for `write_mu_`. -/
def Frame.waits : Frame → Bool
  | .send _ _ .locking => true
  | _ => false

/-- A request that was written: its body, and the bytes that the socket took. -/
structure Sent where
  body : Bytes
  bytes : Bytes

/-- An `RpcClient` with its threads. -/
structure LockedClient where
  client : RpcClient := {}
  writeMu : Option Thread := none
  stack : Thread → List Frame := fun
    | .user _ => [.code]
    | .dispatcher _ => []
  sent : ℕ → List Sent := fun _ => []

namespace LockedClient

/-- What a thread does next. -/
inductive Move where
  /-- The user's code calls `CallAsync` or `CallCo`, for call `k`. -/
  | call (k : ℕ) (request : RpcRequest)
  | client (a : RpcClient.Act)
  /-- The thread comes to the lock of `write_mu_`. -/
  | await
  | lock
  /-- `WriteMessage`. -/
  | write (outbox : Outbox)
  /-- The function returns. -/
  | leave

/-- One step of a thread. -/
structure Act where
  thread : Thread
  move : Move

/-- The request of `SendHeartbeatRequest`. -/
def heartbeatRequest (client : RpcClient) : RpcRequest :=
  ⟨"hb_" ++ toString client.calls.nextId, RpcClient.kHeartbeatServiceName, "Ping", []⟩

/-- What a wake-up puts on the stack: a coroutine goes on after its `co_await`. -/
def woken : Wake ℕ → List Frame
  | .setValue _ _ => []
  | .resume k => [.bind k, .code]

/-- The thread of the dispatcher runs. -/
def runs (client : RpcClient) (g : ℕ) : Bool :=
  (client.dispatchers.lookup g).any fun pc => pc ≠ .exited

/-- A step of the client, which becomes `client'`, by a thread whose innermost
function is `top`: the functions it is in after that, or `none` if it is not at
this step. -/
def goes (T : Thread) (client client' : RpcClient) :
    Option Frame → RpcClient.Act → Option (List Frame)
  | none, .dispatcher g a =>
    if T = .dispatcher g then
      some (match a with
        | .tick true => [.send none (heartbeatRequest client') .composed]
        | _ => [])
    else none
  | none, .call (.wake w) =>
    match T with
    | .dispatcher g => if runs client g then some (woken w) else none
    | .user _ => none
  | some .code, .connect _ _ => some [.code]
  | some .code, .closeBegin c => if c = T.number then some [.close, .code] else none
  | some .close, .closeJoin c => if c = T.number then some [.close] else none
  | some .close, .closeFail c => if c = T.number then some [.waking] else none
  | some .waking, .call (.wake w) => some (woken w ++ [.waking])
  | some (.send (some k) request .connecting), .connect k' established =>
    if k' = k then
      some (if client.sock.isSome || established then [.send (some k) request .connected] else [])
    else none
  | some (.send (some k) request .connected), .call (.begin k' _) =>
    if k' = k then
      some [.send (some k) { request with requestId := toString client'.calls.nextId } .drawn]
    else none
  | some (.send (some k) request .drawn), .call (.call k' .add) =>
    if k' = k then
      some (if (client'.calls.calls.lookup k).any fun c => c.pc = .registered then
        [.send (some k) request .composed] else [])
    else none
  | some (.send (some k) request .failed), .call (.call k' .complete) =>
    if k' = k then some [.send (some k) request .popping] else none
  | some (.send (some k) request .popping), .call (.call k' .tryPop) =>
    if k' = k then some [.send (some k) request .closing] else none
  | some (.send (some k) request .closing), .closeBegin c =>
    if c = T.number then some [.close, .send (some k) request .closed] else none
  | some (.bind k), .call (.call k' (.bind _)) =>
    if k' = k then
      some (if (client'.calls.calls.lookup k).any fun c => c.pc = .waiting || c.pc = .suspended
        then [] else [.bind k])
    else none
  | some (.bind k), .call (.call k' .remove) => if k' = k then some [] else none
  | some (.bind k), .call (.call k' .awaitResume) => if k' = k then some [] else none
  | _, _ => none

/-- The thread is in other functions than the innermost one now. -/
def goto (s : LockedClient) (T : Thread) (frames : List Frame) : LockedClient :=
  { s with stack := Function.update s.stack T (frames ++ (s.stack T).tail) }

@[simp] theorem goto_client (s : LockedClient) (T : Thread) (frames : List Frame) :
    (s.goto T frames).client = s.client := rfl

@[simp] theorem goto_writeMu (s : LockedClient) (T : Thread) (frames : List Frame) :
    (s.goto T frames).writeMu = s.writeMu := rfl

@[simp] theorem goto_sent (s : LockedClient) (T : Thread) (frames : List Frame) :
    (s.goto T frames).sent = s.sent := rfl

theorem goto_stack (s : LockedClient) (T : Thread) (frames : List Frame) :
    (s.goto T frames).stack T = frames ++ (s.stack T).tail := Function.update_self ..

theorem goto_stack_ne (s : LockedClient) {T T' : Thread} (h : T' ≠ T) (frames : List Frame) :
    (s.goto T frames).stack T' = s.stack T' := Function.update_of_ne h ..

/-- What `WriteMessage` does for the request, or that there is no socket.  The header and the
body go to one socket: no user closes it in between. -/
def writeRequest (M : Message RpcRequest) (s : LockedClient) (request : RpcRequest)
    (outbox : Outbox) : LockedClient × Option String :=
  match s.client.sock with
  | none => (s, some "")
  | some g =>
    let r := Protocol.writeMessage M request outbox
    ({ s with
      sent := Function.update s.sent g (s.sent g ++ [⟨M.serialize request, r.1⟩]) }, r.2.1)

/-- A thread at `WriteMessage`.  A heartbeat only logs a failure. -/
def write (M : Message RpcRequest) (s : LockedClient) (T : Thread) (outbox : Outbox) :
    Option LockedClient :=
  match (s.stack T).head? with
  | some (.send call request .writing) =>
    match call, s.writeRequest M request outbox with
    | none, (s, _) => some (s.goto T [.send none request .written])
    | some k, (s, none) =>
      (s.client.step (.call (.call k .sendOk))).map fun client =>
        goto { s with client } T [.send (some k) request .written]
    | some k, (s, some e) =>
      (s.client.step (.call (.call k (.sendError e)))).map fun client =>
        goto { s with client } T [.send (some k) request .failed]
  | _ => none

/-- A function returns. -/
def leave (s : LockedClient) (T : Thread) : Option LockedClient :=
  match (s.stack T).head? with
  | some .code => some (s.goto T [])
  | some .waking => some (s.goto T [])
  | some (.send call _ .written) =>
    some (goto { s with writeMu := none } T (call.toList.map .bind))
  | some (.send _ _ .closed) => some (goto { s with writeMu := none } T [])
  | _ => none

/-- One step, `none` if it cannot happen in the state. -/
def step (M : Message RpcRequest) (s : LockedClient) (a : Act) : Option LockedClient :=
  match a.move with
  | .call k request =>
    match (s.stack a.thread).head? with
    | some .code => some (s.goto a.thread [.send (some k) request .connecting, .code])
    | _ => none
  | .client b =>
    (s.client.step b).bind fun client =>
      (goes a.thread s.client client (s.stack a.thread).head? b).map fun frames =>
        goto { s with client } a.thread frames
  | .await =>
    match (s.stack a.thread).head? with
    | some (.send call request .composed) =>
      some (s.goto a.thread [.send call request .locking])
    | _ => none
  | .lock =>
    match (s.stack a.thread).head? with
    | some (.send call request .locking) =>
      if s.writeMu = none then
        some (goto { s with writeMu := some a.thread } a.thread [.send call request .writing])
      else none
    | _ => none
  | .write outbox => s.write M a.thread outbox
  | .leave => s.leave a.thread

/-! ### The steps of the client, by the function they are made in -/

/-- What `goes` says, one constructor for each function. -/
inductive Goes (T : Thread) (client client' : RpcClient) :
    Option Frame → RpcClient.Act → List Frame → Prop where
  | dispatcher (g : ℕ) (a : DispatcherStep) (frames : List Frame) :
    T = .dispatcher g →
    (frames = [] ∨ frames = [.send none (heartbeatRequest client') .composed]) →
    Goes T client client' none (.dispatcher g a) frames
  | wake (w : Wake ℕ) : Goes T client client' none (.call (.wake w)) (woken w)
  | connect (k : ℕ) (established : Bool) :
    Goes T client client' (some .code) (.connect k established) [.code]
  | close : Goes T client client' (some .code) (.closeBegin T.number) [.close, .code]
  | join : Goes T client client' (some .close) (.closeJoin T.number) [.close]
  | fail : Goes T client client' (some .close) (.closeFail T.number) [.waking]
  | waking (w : Wake ℕ) :
    Goes T client client' (some .waking) (.call (.wake w)) (woken w ++ [.waking])
  | connecting (k : ℕ) (request : RpcRequest) (established : Bool) (frames : List Frame) :
    frames = [] ∨ frames = [.send (some k) request .connected] →
    Goes T client client' (some (.send (some k) request .connecting)) (.connect k established)
      frames
  | begin (k : ℕ) (request : RpcRequest) (kind : Kind) (id : String) :
    Goes T client client' (some (.send (some k) request .connected)) (.call (.begin k kind))
      [.send (some k) { request with requestId := id } .drawn]
  | add (k : ℕ) (request : RpcRequest) (frames : List Frame) :
    frames = [] ∨ frames = [.send (some k) request .composed] →
    Goes T client client' (some (.send (some k) request .drawn)) (.call (.call k .add)) frames
  | complete (k : ℕ) (request : RpcRequest) :
    Goes T client client' (some (.send (some k) request .failed)) (.call (.call k .complete))
      [.send (some k) request .popping]
  | tryPop (k : ℕ) (request : RpcRequest) :
    Goes T client client' (some (.send (some k) request .popping)) (.call (.call k .tryPop))
      [.send (some k) request .closing]
  | closing (k : ℕ) (request : RpcRequest) :
    Goes T client client' (some (.send (some k) request .closing)) (.closeBegin T.number)
      [.close, .send (some k) request .closed]
  | bind (k : ℕ) (a : CallStep) (frames : List Frame) : frames = [] ∨ frames = [.bind k] →
    Goes T client client' (some (.bind k)) (.call (.call k a)) frames

theorem Goes.of_goes {T : Thread} {client client' : RpcClient} {top : Option Frame}
    {b : RpcClient.Act} {frames : List Frame} (h : goes T client client' top b = some frames) :
    Goes T client client' top b frames := by
  unfold goes at h
  split at h
  case h_1 g a =>
    split_ifs at h with hT
    obtain rfl := Option.some.inj h
    refine .dispatcher g a _ hT ?_
    split
    · exact Or.inr rfl
    · exact Or.inl rfl
  case h_2 w =>
    split at h
    · split_ifs at h
      obtain rfl := Option.some.inj h
      exact .wake w
    · cases h
  case h_3 =>
    obtain rfl := Option.some.inj h
    exact .connect _ _
  case h_4 =>
    split_ifs at h with hc
    obtain rfl := Option.some.inj h
    exact hc ▸ .close
  case h_5 =>
    split_ifs at h with hc
    obtain rfl := Option.some.inj h
    exact hc ▸ .join
  case h_6 =>
    split_ifs at h with hc
    obtain rfl := Option.some.inj h
    exact hc ▸ .fail
  case h_7 =>
    obtain rfl := Option.some.inj h
    exact .waking _
  case h_8 =>
    split_ifs at h with hk hreturn
    · obtain rfl := Option.some.inj h
      exact hk ▸ .connecting _ _ _ _ (Or.inr rfl)
    · obtain rfl := Option.some.inj h
      exact hk ▸ .connecting _ _ _ _ (Or.inl rfl)
  case h_9 =>
    split_ifs at h with hk
    obtain rfl := Option.some.inj h
    exact hk ▸ .begin _ _ _ _
  case h_10 =>
    split_ifs at h with hk hreturn
    · obtain rfl := Option.some.inj h
      exact hk ▸ .add _ _ _ (Or.inr rfl)
    · obtain rfl := Option.some.inj h
      exact hk ▸ .add _ _ _ (Or.inl rfl)
  case h_11 =>
    split_ifs at h with hk
    obtain rfl := Option.some.inj h
    exact hk ▸ .complete _ _
  case h_12 =>
    split_ifs at h with hk
    obtain rfl := Option.some.inj h
    exact hk ▸ .tryPop _ _
  case h_13 =>
    split_ifs at h with hc
    obtain rfl := Option.some.inj h
    exact hc ▸ .closing _ _
  case h_14 =>
    split_ifs at h with hk hreturn
    · obtain rfl := Option.some.inj h
      exact hk ▸ .bind _ _ _ (Or.inl rfl)
    · obtain rfl := Option.some.inj h
      exact hk ▸ .bind _ _ _ (Or.inr rfl)
  case h_15 =>
    split_ifs at h with hk
    obtain rfl := Option.some.inj h
    exact hk ▸ .bind _ _ _ (Or.inl rfl)
  case h_16 =>
    split_ifs at h with hk
    obtain rfl := Option.some.inj h
    exact hk ▸ .bind _ _ _ (Or.inl rfl)
  case h_17 => cases h

/-- What `step` says, one constructor for each kind of step. -/
inductive Steps (M : Message RpcRequest) (s : LockedClient) (T : Thread) :
    Move → LockedClient → Prop where
  | call (k : ℕ) (request : RpcRequest) (htop : (s.stack T).head? = some .code) :
    Steps M s T (.call k request) (s.goto T [.send (some k) request .connecting, .code])
  | client (b : RpcClient.Act) (client' : RpcClient) (frames : List Frame)
    (hclient : s.client.step b = some client')
    (hgoes : Goes T s.client client' (s.stack T).head? b frames) :
    Steps M s T (.client b) (goto { s with client := client' } T frames)
  | await (call : Option ℕ) (request : RpcRequest)
    (htop : (s.stack T).head? = some (.send call request .composed)) :
    Steps M s T .await (s.goto T [.send call request .locking])
  | lock (call : Option ℕ) (request : RpcRequest)
    (htop : (s.stack T).head? = some (.send call request .locking)) (hfree : s.writeMu = none) :
    Steps M s T .lock (goto { s with writeMu := some T } T [.send call request .writing])
  | heartbeat (request : RpcRequest) (outbox : Outbox)
    (htop : (s.stack T).head? = some (.send none request .writing)) :
    Steps M s T (.write outbox)
      ((s.writeRequest M request outbox).1.goto T [.send none request .written])
  | sent (k : ℕ) (request : RpcRequest) (outbox : Outbox) (client' : RpcClient)
    (htop : (s.stack T).head? = some (.send (some k) request .writing))
    (hwrite : (s.writeRequest M request outbox).2 = none)
    (hclient : s.client.step (.call (.call k .sendOk)) = some client') :
    Steps M s T (.write outbox)
      (goto { (s.writeRequest M request outbox).1 with client := client' } T
        [.send (some k) request .written])
  | failed (k : ℕ) (request : RpcRequest) (outbox : Outbox) (e : String) (client' : RpcClient)
    (htop : (s.stack T).head? = some (.send (some k) request .writing))
    (hwrite : (s.writeRequest M request outbox).2 = some e)
    (hclient : s.client.step (.call (.call k (.sendError e))) = some client') :
    Steps M s T (.write outbox)
      (goto { (s.writeRequest M request outbox).1 with client := client' } T
        [.send (some k) request .failed])
  | code (htop : (s.stack T).head? = some .code) : Steps M s T .leave (s.goto T [])
  | waking (htop : (s.stack T).head? = some .waking) : Steps M s T .leave (s.goto T [])
  | unlock (call : Option ℕ) (request : RpcRequest)
    (htop : (s.stack T).head? = some (.send call request .written)) :
    Steps M s T .leave (goto { s with writeMu := none } T (call.toList.map .bind))
  | closed (call : Option ℕ) (request : RpcRequest)
    (htop : (s.stack T).head? = some (.send call request .closed)) :
    Steps M s T .leave (goto { s with writeMu := none } T [])

section

variable {M : Message RpcRequest} {s t : LockedClient} {T : Thread}

theorem writeRequest_fields (request : RpcRequest) (outbox : Outbox) :
    (s.writeRequest M request outbox).1.client = s.client ∧
      (s.writeRequest M request outbox).1.writeMu = s.writeMu ∧
      (s.writeRequest M request outbox).1.stack = s.stack := by
  unfold writeRequest
  split <;> exact ⟨rfl, rfl, rfl⟩

/-- The stack of a thread that has called `WriteMessage`. -/
theorem stack_of_write (request : RpcRequest) (outbox : Outbox) (c : RpcClient)
    (frames : List Frame) :
    (goto { (s.writeRequest M request outbox).1 with client := c } T frames).stack =
      Function.update s.stack T (frames ++ (s.stack T).tail) := by
  rw [goto, (writeRequest_fields request outbox).2.2]

/-- What `WriteMessage` writes goes to the socket. -/
theorem writeRequest_sent (request : RpcRequest) (outbox : Outbox) (g : ℕ) :
    (s.writeRequest M request outbox).1.sent g = s.sent g ∨
      s.client.sock = some g ∧
        (s.writeRequest M request outbox).1.sent g =
          s.sent g ++ [⟨M.serialize request, (Protocol.writeMessage M request outbox).1⟩] ∧
        (s.writeRequest M request outbox).2 = (Protocol.writeMessage M request outbox).2.1 := by
  unfold writeRequest
  split
  · exact Or.inl rfl
  · rename_i g' hsock
    by_cases hg : g = g'
    · subst hg
      exact Or.inr ⟨hsock, Function.update_self .., rfl⟩
    · exact Or.inl (Function.update_of_ne hg ..)

theorem Steps.of_write {outbox : Outbox} (h : s.write M T outbox = some t) :
    Steps M s T (.write outbox) t := by
  unfold write at h
  split at h
  · rename_i call request htop
    split at h
    · rename_i s' e heq
      obtain rfl := Option.some.inj h
      have hs' : (s.writeRequest M request outbox).1 = s' := by rw [heq]
      exact hs' ▸ .heartbeat request outbox htop
    · rename_i k s' heq
      have hs' : (s.writeRequest M request outbox).1 = s' := by rw [heq]
      have hwrite : (s.writeRequest M request outbox).2 = none := by rw [heq]
      obtain ⟨client', hclient, rfl⟩ := Option.map_eq_some_iff.1 h
      rw [← hs', (writeRequest_fields request outbox).1] at hclient
      exact hs' ▸ .sent k request outbox client' htop hwrite hclient
    · rename_i k s' e heq
      have hs' : (s.writeRequest M request outbox).1 = s' := by rw [heq]
      have hwrite : (s.writeRequest M request outbox).2 = some e := by rw [heq]
      obtain ⟨client', hclient, rfl⟩ := Option.map_eq_some_iff.1 h
      rw [← hs', (writeRequest_fields request outbox).1] at hclient
      exact hs' ▸ .failed k request outbox e client' htop hwrite hclient
  · cases h

theorem Steps.of_leave (h : s.leave T = some t) : Steps M s T .leave t := by
  unfold leave at h
  split at h
  · rename_i htop
    obtain rfl := Option.some.inj h
    exact .code htop
  · rename_i htop
    obtain rfl := Option.some.inj h
    exact .waking htop
  · rename_i call request htop
    obtain rfl := Option.some.inj h
    exact .unlock call request htop
  · rename_i call request htop
    obtain rfl := Option.some.inj h
    exact .closed call request htop
  · cases h

/-- **What a step can do.** -/
theorem Steps.of_step {a : Act} (h : step M s a = some t) : Steps M s a.thread a.move t := by
  obtain ⟨T, m⟩ := a
  cases m with
  | call k request =>
    simp only [step] at h
    split at h
    · rename_i htop
      obtain rfl := Option.some.inj h
      exact .call k request htop
    · cases h
  | client b =>
    simp only [step] at h
    obtain ⟨client', hclient, h⟩ := Option.bind_eq_some_iff.1 h
    obtain ⟨frames, hgoes, rfl⟩ := Option.map_eq_some_iff.1 h
    exact .client b client' frames hclient (.of_goes hgoes)
  | await =>
    simp only [step] at h
    split at h
    · rename_i call request htop
      obtain rfl := Option.some.inj h
      exact .await call request htop
    · cases h
  | lock =>
    simp only [step] at h
    split at h
    · rename_i call request htop
      split_ifs at h with hfree
      obtain rfl := Option.some.inj h
      exact .lock call request htop hfree
    · cases h
  | write outbox => exact .of_write h
  | leave => exact .of_leave h

/-- A request that is put on the socket `g`. -/
def record (M : Message RpcRequest) (s : LockedClient) (g : ℕ) (request : RpcRequest)
    (bytes : Bytes) : ℕ → List Sent :=
  Function.update s.sent g (s.sent g ++ [⟨M.serialize request, bytes⟩])

section

variable {k g : ℕ} {request : RpcRequest} {outbox rest : Outbox} {bytes : Bytes} {e : String}
  {result : Option String} {c : RpcClient}

/-- A heartbeat, whatever comes of it. -/
theorem step_heartbeat (htop : (s.stack T).head? = some (.send none request .writing))
    (hsock : s.client.sock = some g)
    (hwrite : Protocol.writeMessage M request outbox = (bytes, result, rest)) :
    step M s ⟨T, .write outbox⟩ = some (goto { s with sent := s.record M g request bytes } T
      [.send none request .written]) := by
  simp only [step, write, htop, writeRequest, hsock, hwrite, record]

/-- A call whose request was sent. -/
theorem step_sent (htop : (s.stack T).head? = some (.send (some k) request .writing))
    (hsock : s.client.sock = some g)
    (hwrite : Protocol.writeMessage M request outbox = (bytes, none, rest))
    (hclient : s.client.step (.call (.call k .sendOk)) = some c) :
    step M s ⟨T, .write outbox⟩ = some (goto { s with
      client := c
      sent := s.record M g request bytes } T [.send (some k) request .written]) := by
  simp only [step, write, htop, writeRequest, hsock, hwrite, hclient, Option.map_some, record]

/-- A call whose request could not be sent. -/
theorem step_failed (htop : (s.stack T).head? = some (.send (some k) request .writing))
    (hsock : s.client.sock = some g)
    (hwrite : Protocol.writeMessage M request outbox = (bytes, some e, rest))
    (hclient : s.client.step (.call (.call k (.sendError e))) = some c) :
    step M s ⟨T, .write outbox⟩ = some (goto { s with
      client := c
      sent := s.record M g request bytes } T [.send (some k) request .failed]) := by
  simp only [step, write, htop, writeRequest, hsock, hwrite, hclient, Option.map_some, record]

end

end

/-- The request of the first call. -/
def firstRequest : RpcRequest := ⟨"1", "S", "M", []⟩

/-- The request of the first call, as it is written. -/
def firstMessage : Message RpcRequest :=
  .only firstRequest [0x0A, 1, 0x31, 0x12, 1, 0x53, 0x1A, 1, 0x4D]

/-- A call holds `write_mu_`, and the dispatcher waits for it. -/
def heartbeatWaits : List Act :=
  [⟨.user 0, .call 0 ⟨"", "S", "M", []⟩⟩,
    ⟨.user 0, .client (.connect 0 true)⟩,
    ⟨.dispatcher 0, .client (.dispatcher 0 .start)⟩,
    ⟨.dispatcher 0, .client (.dispatcher 0 .ready)⟩,
    ⟨.dispatcher 0, .client (.dispatcher 0 .check)⟩,
    ⟨.dispatcher 0, .client (.dispatcher 0 (.timeout 5000))⟩,
    ⟨.user 0, .client (.call (.begin 0 .callAsync))⟩,
    ⟨.user 0, .client (.call (.call 0 .add))⟩,
    ⟨.user 0, .await⟩,
    ⟨.user 0, .lock⟩,
    ⟨.dispatcher 0, .client (.dispatcher 0 (.tick true))⟩,
    ⟨.dispatcher 0, .await⟩]

end LockedClient
end Client
end MiniRpc
