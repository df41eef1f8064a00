/-
# A client and its server

An `RpcClient` with all its threads, the server's ends of its connections, and the
bytes between them.  A socket takes what one side writes and gives it to the other
in its order, at any time and in any pieces: what a side has received is the first
part of what the other wrote.  Nothing says that the rest ever arrives.

A `WriteMessage` of the client is one step (`MiniRpc.Client.LockedClient`), so what is
said here is said of runs in which no user's `Close` comes to the socket while one is
under way.

A `recv` of a dispatcher is a step of its own; it reads from the socket that the
client has, whichever dispatcher it is, as a descriptor that `Close` gave back is
the next one to be given out.  `reads_its_own` says when this makes no difference.
-/

import MiniRpc.Client.SingleDispatcher
import MiniRpc.EndToEnd.ClientEnd
import MiniRpc.EndToEnd.Reader
import MiniRpc.EndToEnd.ServerEnd

namespace MiniRpc
namespace EndToEnd

open Protocol Client Server Transition

/-- The client, the reading sides of its dispatchers, what was read of each socket,
and the server's end of each connection that was accepted. -/
structure System where
  client : ClientEnd := {}
  reader : ℕ → Reader := fun _ => {}
  taken : ℕ → Bytes := fun _ => []
  server : ℕ → Option ServerEnd := fun _ => none

namespace System

/-- One step of one party. -/
inductive Act where
  /-- A thread of the client. -/
  | client (a : LockedClient.Act)
  /-- `recv` gives bytes to dispatcher `g`. -/
  | recv (g : ℕ) (arrived : Bytes)
  /-- The server accepts connection `g`. -/
  | accept (g : ℕ) (readClock writeClock : List Time)
  /-- The server's end of connection `g`. -/
  | server (g : ℕ) (a : ServerEnd.Act)

/-- The `RpcClient`. -/
def rpcClient (s : System) : RpcClient := s.client.client.client

/-- What the client wrote on a socket. -/
def written (s : System) (g : ℕ) : Bytes := Client.written (s.client.client.sent g)

/-- What the server's end wrote on a socket. -/
def wire (s : System) (g : ℕ) : Bytes := ((s.server g).map fun e => e.connection.out.wire).getD []

/-- The reading sides after a step of a thread. -/
def readers (env : LoopEnv) (s : System) (a : LockedClient.Act) : Option (ℕ → Reader) :=
  match a.move with
  | .client (.dispatcher g d) =>
    ((s.reader g).step env.response d).map (Function.update s.reader g)
  | _ => some s.reader

/-- One step, `none` if it cannot happen in the state. -/
def step (env : LoopEnv) (s : System) : Act → Option System
  | .client a =>
    (s.client.step env.request a).bind fun client =>
      (s.readers env a).map fun reader => { s with client, reader }
  | .recv g arrived =>
    match s.rpcClient.dispatchers.lookup g, s.rpcClient.sock with
    | some .waiting, some i =>
      if s.taken i ++ arrived <+: s.wire i then
        some { s with
          reader := Function.update s.reader g ((s.reader g).recv arrived)
          taken := Function.update s.taken i (s.taken i ++ arrived) }
      else none
    | _, _ => none
  | .accept g readClock writeClock =>
    if g < s.rpcClient.generations ∧ (s.server g).isNone then
      some { s with
        server := Function.update s.server g (some (.start readClock writeClock)) }
    else none
  | .server g a =>
    match s.server g with
    | none => none
    | some e =>
      (e.step env a).bind fun e' =>
        if e'.connection.received <+: s.written g then
          some { s with server := Function.update s.server g (some e') }
        else none

/-- No heartbeat is cut off, and `Connect` makes no new connection while an old
dispatcher is at work.  That no `Close` of a user cuts off a send is in the steps. -/
def spares (env : LoopEnv) (s : System) : Act → Bool
  | .client a =>
    !s.client.client.cutsHeartbeat env.request a &&
      match a.move with
      | .client b => s.rpcClient.awaitsQuiet b
      | _ => true
  | _ => true

/-- What a step is for the calls of the client. -/
def event (env : LoopEnv) (s : System) : Act → Option Event
  | .client a => s.client.client.event env.request a
  | _ => none

/-- **What holds between the two sides.** -/
structure Linked (env : LoopEnv) (s : System) : Prop where
  kept : s.client.Kept env.request
  unbroken : s.client.client.Unbroken
  current : s.rpcClient.Current
  failing : s.rpcClient.Failing
  served : ∀ g e, s.server g = some e →
    ∃ responses, e.Served env responses ∧ e.connection.received <+: s.written g
  taken : ∀ g, s.taken g <+: s.wire g
  offset : ∀ g, (s.reader g).offset ≤ (s.reader g).readBuffer.length
  sized : ∀ g, ∀ body ∈ (s.reader g).bodies, ValidLength body.length
  read : ∀ g, s.taken g = stream (s.reader g).bodies ++ (s.reader g).unread

variable {env : LoopEnv} {s t : System}

/-- What the server's end has written are frames of its responses. -/
theorem Linked.wire (h : s.Linked env) (g : ℕ) : ∃ responses : List RpcResponse,
    (∀ e, s.server g = some e → e.Served env responses) ∧ (s.server g = none → responses = []) ∧
      (∀ r ∈ responses, ValidLength (env.response.byteSizeLong r)) ∧
      s.wire g <+: stream (responses.map env.response.serialize) := by
  cases hg : s.server g with
  | none => exact ⟨[], by simp, by simp, by simp, by simp [System.wire, hg]⟩
  | some e =>
    obtain ⟨responses, hserved, -⟩ := h.served g e hg
    refine ⟨responses, fun e' he' => Option.some.inj he' ▸ hserved, by simp, hserved.valid, ?_⟩
    rw [← hserved.emitted]
    simp [System.wire, hg, Outbound.emitted]

/-- **What dispatcher `g` sees next** is the next response of the server's end, and
no bad frame. -/
theorem Linked.next (h : s.Linked env) (g : ℕ) :
    frameSplitter.cut (s.reader g).unread ≠ .bad ∧
      ∀ body rest, frameSplitter.cut (s.reader g).unread = .item body rest →
        ∃ e responses, s.server g = some e ∧ e.Served env responses ∧
          ∃ r ∈ responses, body = env.response.serialize r := by
  obtain ⟨responses, hserved, hnone, hvalid, hwire⟩ := h.wire g
  have hway : OnTheWay (responses.map env.response.serialize)
      (stream (responses.map env.response.serialize)) := by
    refine .stream fun body hbody => ?_
    obtain ⟨r, hr, rfl⟩ := List.mem_map.1 hbody
    exact hvalid r hr
  have hread := h.read g ▸ (h.taken g).trans hwire
  obtain ⟨others, hall, more, hmore⟩ := hway.taken (h.sized g) hread
  refine ⟨hmore.not_bad, fun body rest hcut => ?_⟩
  obtain ⟨others, rfl⟩ := hmore.next hcut
  obtain ⟨r, hr, hbody⟩ : ∃ r ∈ responses, env.response.serialize r = body := by
    rw [← List.mem_map, hall]
    simp
  cases hg : s.server g with
  | none =>
    rw [hnone hg] at hr
    cases hr
  | some e => exact ⟨e, responses, rfl, hserved e hg, r, hr, hbody.symm⟩

/-- **What the server's end sees** are the frames of requests that were written to
its socket, in their order, and no bad frame. -/
theorem Linked.frames (h : s.Linked env) {g : ℕ} {e : ServerEnd} (hg : s.server g = some e) :
    ∃ xs : List (Option ℕ × RpcRequest), xs.Sublist (s.client.requests g) ∧
      e.connection.bodies <+: xs.map (fun x => env.request.serialize x.2) ∧
      frameSplitter.cut e.connection.readBuffer.readable ≠ .bad ∧
      ∀ body rest, frameSplitter.cut e.connection.readBuffer.readable = .item body rest →
        e.connection.bodies ++ [body] <+: xs.map fun x => env.request.serialize x.2 := by
  obtain ⟨responses, hserved, hreceived⟩ := h.served g e hg
  obtain ⟨xs, hsub, hway⟩ := h.kept.onTheWay (h.unbroken.framed g)
  obtain ⟨others, hall, more, hmore⟩ := hway.taken hserved.sized hreceived
  refine ⟨xs, hsub, ⟨others, hall.symm⟩, hmore.not_bad, fun body rest hcut => ?_⟩
  obtain ⟨others, rfl⟩ := hmore.next hcut
  exact ⟨others, by rw [hall, List.append_assoc]; rfl⟩

/-- Protobuf gives back the requests that were written, and what the server says to
them. -/
def Inverts (env : LoopEnv) (s : System) : Prop :=
  ∀ g, ∀ x ∈ s.client.requests g,
    env.request.parse (env.request.serialize x.2) = some x.2 ∧
      env.response.parse (env.response.serialize (serve env x.2)) = some (serve env x.2)

/-- **Every response answers a request that was written** on the same socket; it was
handed over if it is no heartbeat. -/
theorem Linked.response (h : s.Linked env) (hinv : s.Inverts env) {g : ℕ} {e : ServerEnd}
    (hg : s.server g = some e) {responses : List RpcResponse} (hserved : e.Served env responses)
    {r : RpcResponse} (hr : r ∈ responses) :
    ∃ x ∈ s.client.requests g, r = serve env x.2 ∧
      (x.2.serviceName ≠ kHeartbeatServiceName → x.2 ∈ e.connection.out.handed) := by
  obtain ⟨xs, hsub, hbodies, -, hnext⟩ := h.frames hg
  obtain ⟨body, hbody, rfl, hhanded⟩ := hserved.source hr
  obtain ⟨x, hx, rfl⟩ : ∃ x ∈ xs, env.request.serialize x.2 = body := by
    rw [← List.mem_map]
    rcases hbody with hbody | ⟨rest, hcut⟩
    · exact hbodies.subset hbody
    · exact (hnext body rest hcut).subset (by simp)
  have hparse := (hinv g x (hsub.subset hx)).1
  refine ⟨x, hsub.subset hx, reply_eq_serve hparse, fun hname => hhanded x.2 ?_⟩
  have hp : (baseEnv env).request.parse (env.request.serialize x.2) = some x.2 := hparse
  rw [business, hp]
  exact if_neg hname

/-- The response that dispatcher `g` decodes next answers a request. -/
theorem Linked.decoded (h : s.Linked env) (hinv : s.Inverts env) {g : ℕ} {body rest : Bytes}
    (hcut : frameSplitter.cut (s.reader g).unread = .item body rest) :
    ∃ e, s.server g = some e ∧ ∃ x ∈ s.client.requests g,
      env.response.parse body = some (serve env x.2) ∧
        (x.2.serviceName ≠ kHeartbeatServiceName → x.2 ∈ e.connection.out.handed) := by
  obtain ⟨e, responses, hg, hserved, r, hr, rfl⟩ := (h.next g).2 body rest hcut
  obtain ⟨x, hx, rfl, hhanded⟩ := h.response hinv hg hserved hr
  exact ⟨e, hg, x, hx, (hinv g x hx).2, hhanded⟩

/-! ### The steps -/

/-- What a step of a thread does to the `RpcClient`. -/
theorem rpcClient_of_step {M : Message RpcRequest} {s t : LockedClient} {a : LockedClient.Act}
    (hs : LockedClient.step M s a = some t) :
    t.client = s.client ∨ ∃ b, s.client.step b = some t.client ∧
      ((∃ e, b = .call e) ∨ a.move = .client b) := by
  obtain ⟨T, m⟩ := a
  have hsteps : LockedClient.Steps M s T m t := .of_step hs
  cases hsteps with
  | client b client' frames hclient hgoes => exact Or.inr ⟨b, hclient, Or.inr rfl⟩
  | heartbeat request outbox htop =>
    exact Or.inl (LockedClient.writeRequest_fields request outbox).1
  | sent k request outbox client' htop hwrite hclient => exact Or.inr ⟨_, hclient, Or.inl ⟨_, rfl⟩⟩
  | failed k request outbox e client' htop hwrite hclient =>
    exact Or.inr ⟨_, hclient, Or.inl ⟨_, rfl⟩⟩
  | _ => exact Or.inl rfl

/-- What was written stays on the socket. -/
theorem sent_prefix {M : Message RpcRequest} {s t : LockedClient} {a : LockedClient.Act}
    (hs : LockedClient.step M s a = some t) (g : ℕ) : s.sent g <+: t.sent g := by
  have hwrite : ∀ request outbox,
      s.sent g <+: (s.writeRequest M request outbox).1.sent g := by
    intro request outbox
    rcases LockedClient.writeRequest_sent (M := M) (s := s) request outbox g with heq | ⟨-, heq, -⟩
    · rw [heq]
    · rw [heq]
      exact List.prefix_append _ _
  obtain ⟨T, m⟩ := a
  have hsteps : LockedClient.Steps M s T m t := .of_step hs
  cases hsteps with
  | heartbeat request outbox htop => exact hwrite request outbox
  | sent k request outbox client' htop hok hclient => exact hwrite request outbox
  | failed k request outbox e client' htop hfailed hclient => exact hwrite request outbox
  | _ => exact List.prefix_rfl

theorem Linked.init : Linked env {} where
  kept := .init
  unbroken := .init
  current := .init
  failing := by
    intro g f next h
    cases h
  served := by simp
  taken := fun g => List.prefix_rfl
  offset := fun g => le_rfl
  sized := by simp
  read := fun g => rfl

/-- A dispatcher looks at what it read. -/
theorem Linked.reader (h : s.Linked env) (hinv : s.Inverts env) {g : ℕ} {d : DispatcherStep}
    {r : Reader} (hr : (s.reader g).step env.response d = some r) :
    r.offset ≤ r.readBuffer.length ∧ (∀ body ∈ r.bodies, ValidLength body.length) ∧
      s.taken g = stream r.bodies ++ r.unread := by
  refine ⟨Reader.step_offset hr (h.offset g), ?_⟩
  rcases Reader.step_cases hr with ⟨message, body, rest, -, hcut, -, hunread, -, hbodies⟩ |
    ⟨-, hcut, -⟩ | ⟨body, rest, -, hcut, hparse, -⟩ | ⟨hunread, hbodies, -⟩
  · obtain ⟨hsize, heq⟩ := eq_frame_of_cut hcut
    rw [hbodies, hunread]
    refine ⟨fun b hb => ?_, ?_⟩
    · rcases List.mem_append.1 hb with hb | hb
      · exact h.sized g b hb
      · exact List.mem_singleton.1 hb ▸ hsize
    · rw [h.read g, heq, stream, stream, List.flatMap_append, List.append_assoc]
      simp
  · exact absurd hcut (h.next g).1
  · obtain ⟨e, -, x, -, hx, -⟩ := h.decoded hinv hcut
    cases hparse.symm.trans hx
  · rw [hbodies, hunread]
    exact ⟨h.sized g, h.read g⟩

/-- A step of a thread of the client. -/
theorem Linked.client {a : LockedClient.Act} (h : s.Linked env) (hinv : s.Inverts env)
    (hspares : s.spares env (.client a) = true) (hs : s.step env (.client a) = some t) :
    t.Linked env := by
  obtain ⟨client, hclient, hs⟩ := Option.bind_eq_some_iff.1 hs
  obtain ⟨reader, hreader, rfl⟩ := Option.map_eq_some_iff.1 hs
  obtain ⟨locked, hlocked, -⟩ := Option.map_eq_some_iff.1 hclient
  have hclient' : LockedClient.step env.request s.client.client a = some client.client := by
    obtain ⟨locked, hlocked, rfl⟩ := Option.map_eq_some_iff.1 hclient
    exact hlocked
  simp only [spares, Bool.and_eq_true, Bool.not_eq_true'] at hspares
  have hrpc : RpcClient.Current client.client.client ∧ RpcClient.Failing client.client.client := by
    rcases rpcClient_of_step hclient' with heq | ⟨b, hb, hkind⟩
    · rw [heq]
      exact ⟨h.current, h.failing⟩
    · refine ⟨h.current.step ?_ hb, h.failing.step hb⟩
      rcases hkind with ⟨e, rfl⟩ | hmove
      · rfl
      · simpa [hmove] using hspares.2
  have hreaders : ∀ g, (reader g).offset ≤ (reader g).readBuffer.length ∧
      (∀ body ∈ (reader g).bodies, ValidLength body.length) ∧
      s.taken g = stream (reader g).bodies ++ (reader g).unread := by
    intro g
    unfold readers at hreader
    split at hreader
    · rename_i g' d hmove
      obtain ⟨r, hr, rfl⟩ := Option.map_eq_some_iff.1 hreader
      by_cases hg : g = g'
      · subst hg
        rw [Function.update_self]
        exact h.reader hinv hr
      · rw [Function.update_of_ne hg]
        exact ⟨h.offset g, h.sized g, h.read g⟩
    · obtain rfl := Option.some.inj hreader
      exact ⟨h.offset g, h.sized g, h.read g⟩
  refine ⟨h.kept.step hclient, h.unbroken.step hspares.1 hclient', hrpc.1, hrpc.2, ?_, h.taken,
    fun g => (hreaders g).1, fun g => (hreaders g).2.1, fun g => (hreaders g).2.2⟩
  intro g e hg
  obtain ⟨responses, hserved, hreceived⟩ := h.served g e hg
  obtain ⟨more, hmore⟩ := sent_prefix hclient' g
  refine ⟨responses, hserved, hreceived.trans ?_⟩
  show Client.written (s.client.client.sent g) <+: Client.written (client.client.sent g)
  rw [← hmore, Client.written, Client.written, List.flatMap_append]
  exact List.prefix_append _ _

/-- While no `Connect` comes too early, a dispatcher reads from its own socket. -/
theorem Linked.reads_its_own (h : s.Linked env) {g i : ℕ}
    (hg : s.rpcClient.dispatchers.lookup g = some .waiting) (hi : s.rpcClient.sock = some i) :
    g = i :=
  h.current g i ⟨.waiting, hg, rfl⟩ hi

/-- A dispatcher receives bytes. -/
theorem Linked.recv {g : ℕ} {arrived : Bytes} (h : s.Linked env)
    (hs : s.step env (.recv g arrived) = some t) : t.Linked env := by
  simp only [System.step] at hs
  split at hs
  · rename_i i hg hi
    split_ifs at hs with hwire
    obtain rfl := Option.some.inj hs
    obtain rfl := h.reads_its_own hg hi
    refine ⟨h.kept, h.unbroken, h.current, h.failing, h.served, ?_, ?_, ?_, ?_⟩ <;> intro g' <;>
      dsimp only
    · by_cases hgg : g' = g
      · subst hgg
        rw [Function.update_self]
        exact hwire
      · rw [Function.update_of_ne hgg]
        exact h.taken g'
    · by_cases hgg : g' = g
      · subst hgg
        rw [Function.update_self, Reader.recv, List.length_append]
        exact (h.offset g').trans (Nat.le_add_right _ _)
      · rw [Function.update_of_ne hgg]
        exact h.offset g'
    · by_cases hgg : g' = g
      · subst hgg
        rw [Function.update_self]
        exact h.sized g'
      · rw [Function.update_of_ne hgg]
        exact h.sized g'
    · by_cases hgg : g' = g
      · subst hgg
        rw [Function.update_self, Function.update_self, Reader.unread_recv (h.offset g'),
          h.read g', List.append_assoc]
        rfl
      · rw [Function.update_of_ne hgg, Function.update_of_ne hgg]
        exact h.read g'
  · cases hs

/-- The server's end of one connection goes on. -/
theorem Linked.goesOn {g : ℕ} {e : ServerEnd} (h : s.Linked env)
    (hserved : ∃ responses, e.Served env responses)
    (hreceived : e.connection.received <+: s.written g)
    (hwire : s.wire g <+: e.connection.out.wire) :
    Linked env { s with server := Function.update s.server g (some e) } := by
  refine ⟨h.kept, h.unbroken, h.current, h.failing, ?_, ?_, h.offset, h.sized, h.read⟩
  · intro g' e' hg'
    by_cases hgg : g' = g
    · subst hgg
      obtain rfl := Option.some.inj ((Function.update_self g' (some e) s.server).symm.trans hg')
      obtain ⟨responses, hserved⟩ := hserved
      exact ⟨responses, hserved, hreceived⟩
    · exact h.served g' e' ((Function.update_of_ne hgg ..).symm.trans hg')
  · intro g'
    refine (h.taken g').trans ?_
    by_cases hgg : g' = g
    · subst hgg
      simpa [System.wire] using hwire
    · simp [System.wire, Function.update_of_ne hgg]

/-- **No step that spares the connection breaks the link.** -/
theorem Linked.step {a : Act} (h : s.Linked env) (hinv : s.Inverts env)
    (hspares : s.spares env a = true) (hs : System.step env s a = some t) : t.Linked env := by
  cases a with
  | client a => exact h.client hinv hspares hs
  | recv g arrived => exact h.recv hs
  | accept g readClock writeClock =>
    simp only [System.step] at hs
    split_ifs at hs with hnew
    obtain rfl := Option.some.inj hs
    have hnone : s.server g = none := by simpa using hnew.2
    refine h.goesOn ⟨[], .start readClock writeClock⟩ List.nil_prefix ?_
    simp [System.wire, hnone]
  | server g a =>
    simp only [System.step] at hs
    cases hg : s.server g with
    | none => simp [hg] at hs
    | some e =>
      rw [hg] at hs
      obtain ⟨e', he', hs⟩ := Option.bind_eq_some_iff.1 hs
      split_ifs at hs with hreceived
      obtain rfl := Option.some.inj hs
      obtain ⟨responses, hserved, -⟩ := h.served g e hg
      obtain ⟨more, hserved', hextends⟩ := hserved.step he'
      refine h.goesOn ⟨_, hserved'⟩ hreceived ?_
      simpa [System.wire, hg] using hextends.wire

end System
end EndToEnd
end MiniRpc
