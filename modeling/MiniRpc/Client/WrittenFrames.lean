/-
# What a client writes on a socket

The requests and heartbeats of a client share its socket
(`MiniRpc.Client.LockedClient`), and `WriteMessage` may fail with a part of a
frame on the wire.  A call that fails there closes the connection before it gives
`write_mu_` back; `SendHeartbeatRequest` only logs the failure.

`Framed` says that nothing follows a frame that was cut off.  It holds as long as
no heartbeat is cut off (`frames_unbroken`).  A `Close` of the user comes before or
after a `WriteMessage`, not while it is under way.
-/

import MiniRpc.Client.LockedClient

namespace MiniRpc
namespace Client

open Transition Protocol

/-- The frame was written, or nothing. -/
def Sent.Whole (x : Sent) : Prop := x.bytes = [] ∨ x.bytes = frame x.body

/-- The bytes on a socket. -/
def written (log : List Sent) : Bytes := log.flatMap Sent.bytes

/-- **Whole frames, and one at most that is cut off, with nothing after it.** -/
structure Framed (log : List Sent) : Prop where
  whole : ∀ x ∈ log.dropLast, x.Whole
  last : ∀ x ∈ log.getLast?, x.bytes <+: frame x.body

theorem Framed.nil : Framed [] where
  whole := by simp
  last := by simp

/-- One more frame, or a part of it, after whole ones. -/
theorem Framed.concat {log : List Sent} {x : Sent} (h : ∀ y ∈ log, y.Whole)
    (hx : x.bytes <+: frame x.body) : Framed (log ++ [x]) where
  whole := by simpa using h
  last := by simpa using hx

theorem written_of_whole {log : List Sent} (h : ∀ x ∈ log, x.Whole) :
    ∃ bodies, bodies.Sublist (log.map Sent.body) ∧ written log = stream bodies := by
  induction log with
  | nil => exact ⟨[], List.Sublist.refl _, rfl⟩
  | cons x log ih =>
    obtain ⟨bodies, hsub, hbytes⟩ := ih fun y hy => h y (List.mem_cons_of_mem x hy)
    have happend : written (x :: log) = x.bytes ++ written log := List.flatMap_cons ..
    rcases h x (List.mem_cons_self ..) with hx | hx
    · refine ⟨bodies, hsub.cons _, ?_⟩
      rw [happend, hx, hbytes, List.nil_append]
    · refine ⟨x.body :: bodies, hsub.cons_cons _, ?_⟩
      rw [happend, hx, hbytes, stream_cons]

/-- The bytes are frames of requests that were sent, and a part of the frame of
the last one. -/
theorem Framed.bytes {log : List Sent} (h : Framed log) :
    ∃ bodies cut, bodies.Sublist (log.map Sent.body) ∧ written log = stream bodies ++ cut ∧
      (cut = [] ∨ ∃ x ∈ log.getLast?, cut <+: frame x.body) := by
  rcases List.eq_nil_or_concat log with rfl | ⟨init, x, rfl⟩
  · exact ⟨[], [], List.Sublist.refl _, rfl, Or.inl rfl⟩
  · have hinit : ∀ y ∈ init, y.Whole := by simpa using h.whole
    obtain ⟨bodies, hsub, hbytes⟩ := written_of_whole hinit
    refine ⟨bodies, x.bytes, ?_, ?_, Or.inr ⟨x, by simp, h.last x (by simp)⟩⟩
    · rw [List.concat_eq_append, List.map_append]
      exact hsub.trans (List.sublist_append_left ..)
    · rw [List.concat_eq_append, ← hbytes]
      simp [written]

/-- In the critical section of `write_mu_`. -/
def Frame.holds : Frame → Bool
  | .send _ _ place => place.holds
  | _ => false

/-- On the way from a failed `WriteMessage` to `Close`. -/
def Frame.abandons : Frame → Bool
  | .send _ _ .failed => true
  | .send _ _ .popping => true
  | .send _ _ .closing => true
  | _ => false

namespace LockedClient

/-- The thread is about to close the connection. -/
def abandons (s : LockedClient) (T : Thread) : Bool := (s.stack T).head?.any Frame.abandons

/-- `send` fails for a heartbeat after it has taken a part of its frame. -/
def cutsHeartbeat (M : Message RpcRequest) (s : LockedClient) (a : Act) : Bool :=
  match a.move, (s.stack a.thread).head? with
  | .write outbox, some (.send none request .writing) =>
    s.client.sock.isSome && cutsFrame (M.byteSizeLong request) outbox
  | _, _ => false

/-! ### `write_mu_` -/

/-- The thread that has locked `write_mu_` is in one critical section, and no
other thread is in one. -/
def Exclusive (s : LockedClient) : Prop :=
  ∀ T, (s.stack T).countP Frame.holds = if s.writeMu = some T then 1 else 0

variable {M : Message RpcRequest} {s t : LockedClient} {T : Thread} {frames : List Frame}

namespace Exclusive

theorem init : Exclusive {} := by
  intro T
  cases T <;> rfl

theorem countP_stack (s : LockedClient) (T : Thread) :
    (s.stack T).countP Frame.holds =
      (s.stack T).head?.toList.countP Frame.holds + (s.stack T).tail.countP Frame.holds := by
  rw [← List.countP_append]
  cases s.stack T <;> rfl

/-- The thread at the top of whose stack is a critical section holds the mutex. -/
theorem holder (h : s.Exclusive) {f : Frame} (htop : (s.stack T).head? = some f)
    (hf : f.holds = true) : s.writeMu = some T := by
  by_contra hne
  have hcount := h T
  rw [countP_stack, htop, if_neg hne, Option.toList_some, List.countP_singleton, if_pos hf]
    at hcount
  omega

/-- A thread goes on, inside or outside of a critical section. -/
theorem neutral (h : s.Exclusive) (hmu : t.writeMu = s.writeMu)
    (hstack : t.stack = Function.update s.stack T (frames ++ (s.stack T).tail))
    (hcount : frames.countP Frame.holds = (s.stack T).head?.toList.countP Frame.holds) :
    t.Exclusive := by
  intro T'
  rw [hmu, ← h T', hstack]
  by_cases hT : T' = T
  · rw [hT, Function.update_self, List.countP_append, hcount, countP_stack]
  · rw [Function.update_of_ne hT]

theorem lock (h : s.Exclusive) {call : Option ℕ} {request : RpcRequest}
    (htop : (s.stack T).head? = some (.send call request .locking)) (hfree : s.writeMu = none) :
    Exclusive (goto { s with writeMu := some T } T [.send call request .writing]) := by
  intro T'
  rw [goto_writeMu]
  have hbefore := h T'
  rw [hfree, if_neg (by simp)] at hbefore
  by_cases hT : T' = T
  · subst hT
    rw [goto_stack, if_pos rfl, List.countP_append]
    rw [countP_stack, htop] at hbefore
    have hone : [Frame.send call request .writing].countP Frame.holds = 1 := rfl
    dsimp only
    omega
  · rw [goto_stack_ne _ hT, if_neg (fun heq => hT (Option.some.inj heq).symm)]
    exact hbefore

/-- The thread leaves its critical section. -/
theorem unlock (h : s.Exclusive) {f : Frame} (htop : (s.stack T).head? = some f)
    (hf : f.holds = true) (hframes : frames.countP Frame.holds = 0) :
    Exclusive (goto { s with writeMu := none } T frames) := by
  intro T'
  rw [goto_writeMu, if_neg (by simp)]
  have hmu := h.holder htop hf
  have hbefore := h T'
  by_cases hT : T' = T
  · subst hT
    rw [countP_stack, htop, Option.toList_some, List.countP_singleton, if_pos hf, if_pos hmu]
      at hbefore
    rw [goto_stack, List.countP_append]
    dsimp only
    omega
  · rw [goto_stack_ne _ hT]
    rwa [hmu, if_neg (fun heq => hT (Option.some.inj heq).symm)] at hbefore

theorem countP_woken (w : Wake ℕ) : (woken w).countP Frame.holds = 0 := by
  cases w <;> rfl

/-- A step of the client. -/
theorem client (h : s.Exclusive) {b : RpcClient.Act} {c : RpcClient}
    (hgoes : Goes T s.client c (s.stack T).head? b frames) :
    Exclusive (goto { s with client := c } T frames) := by
  refine h.neutral rfl rfl ?_
  generalize (s.stack T).head? = top at hgoes
  cases hgoes with
  | dispatcher g a frames hT hframes => rcases hframes with rfl | rfl <;> rfl
  | wake w => exact countP_woken w
  | waking w =>
    rw [List.countP_append, countP_woken]
    rfl
  | connecting k request established frames hframes => rcases hframes with rfl | rfl <;> rfl
  | add k request frames hframes => rcases hframes with rfl | rfl <;> rfl
  | bind k a frames hframes => rcases hframes with rfl | rfl <;> rfl
  | _ => rfl

/-- `WriteMessage` was called. -/
theorem write (h : s.Exclusive) {call : Option ℕ} {request : RpcRequest} {outbox : Outbox}
    {place : SendPlace} {c : RpcClient}
    (htop : (s.stack T).head? = some (.send call request .writing))
    (hplace : place.holds = true) :
    Exclusive (goto { (s.writeRequest M request outbox).1 with client := c } T
      [.send call request place]) := by
  have hmu := (writeRequest_fields (M := M) (s := s) request outbox).2.1
  refine h.neutral hmu (stack_of_write ..) ?_
  rw [htop, Option.toList_some, List.countP_singleton, List.countP_singleton]
  exact if_congr (iff_of_true hplace rfl) rfl rfl

/-- **The mutex excludes.** -/
theorem step {a : Act} (h : s.Exclusive) (hs : LockedClient.step M s a = some t) :
    t.Exclusive := by
  obtain ⟨T, m⟩ := a
  have hsteps : Steps M s T m t := .of_step hs
  cases hsteps with
  | call k request htop => exact h.neutral rfl rfl (by rw [htop]; rfl)
  | client b c frames hclient hgoes => exact h.client hgoes
  | await call request htop => exact h.neutral rfl rfl (by rw [htop]; rfl)
  | lock call request htop hfree => exact h.lock htop hfree
  | heartbeat request outbox htop => exact h.write htop rfl
  | sent k request outbox c htop hwrite hclient => exact h.write htop rfl
  | failed k request outbox e c htop hwrite hclient => exact h.write htop rfl
  | code htop => exact h.neutral rfl rfl (by rw [htop]; rfl)
  | waking htop => exact h.neutral rfl rfl (by rw [htop]; rfl)
  | unlock call request htop => exact h.unlock htop rfl (by cases call <;> rfl)
  | closed call request htop => exact h.unlock htop rfl rfl

end Exclusive

/-! ### The frames -/

/-- Nothing is written to a socket after a frame that was cut off: if the client
still has the socket, the thread that was writing is about to close it, with
`write_mu_` held. -/
structure Unbroken (s : LockedClient) : Prop where
  exclusive : s.Exclusive
  framed : ∀ g, Framed (s.sent g)
  guarded : ∀ g, s.client.sock = some g →
    (∀ x ∈ s.sent g, x.Whole) ∨ ∃ T, s.writeMu = some T ∧ s.abandons T = true
  fresh : ∀ g, s.client.generations ≤ g → s.sent g = []
  sock : ∀ g, s.client.sock = some g → g < s.client.generations

namespace Unbroken

theorem init : Unbroken {} where
  exclusive := .init
  framed := fun _ => .nil
  guarded := fun g h => by cases h
  fresh := fun _ _ => rfl
  sock := fun g h => by cases h

/-- A step in which nothing is written.  A thread that is about to close the
connection stays so until it does. -/
theorem moved (h : s.Unbroken) (hexclusive : t.Exclusive) (hsent : t.sent = s.sent)
    (hstack : t.stack = Function.update s.stack T (frames ++ (s.stack T).tail))
    (hgen : s.client.generations ≤ t.client.generations)
    (hsock : ∀ g, t.client.sock = some g → s.client.sock = some g ∨
      g = s.client.generations ∧ t.client.generations = s.client.generations + 1)
    (hmu : ∀ T', T' ≠ T → s.writeMu = some T' → t.writeMu = some T')
    (hself : t.client.sock ≠ none → s.abandons T = true →
      t.writeMu = s.writeMu ∧ frames.head?.any Frame.abandons = true) : t.Unbroken where
  exclusive := hexclusive
  framed := fun g => hsent ▸ h.framed g
  guarded := by
    intro g hg
    rcases hsock g hg with hold | ⟨rfl, -⟩
    · rcases h.guarded g hold with hwhole | ⟨T', hheld, hgives⟩
      · exact Or.inl (hsent ▸ hwhole)
      · refine Or.inr ⟨T', ?_⟩
        by_cases hT : T' = T
        · subst hT
          obtain ⟨hsame, htop⟩ := hself (by simp [hg]) hgives
          refine ⟨hsame ▸ hheld, ?_⟩
          rw [abandons, hstack, Function.update_self]
          cases frames with
          | nil => cases htop
          | cons f fs => exact htop
        · refine ⟨hmu T' hT hheld, ?_⟩
          rwa [abandons, hstack, Function.update_of_ne hT]
    · refine Or.inl ?_
      rw [hsent, h.fresh _ le_rfl]
      simp
  fresh := fun g hg => hsent ▸ h.fresh g (hgen.trans hg)
  sock := by
    intro g hg
    rcases hsock g hg with hold | ⟨rfl, hnew⟩
    · exact (h.sock g hold).trans_le hgen
    · omega

/-- A step of a thread that is not about to close the connection, and leaves the
client alone. -/
theorem still (h : s.Unbroken) (hexclusive : t.Exclusive) (hsent : t.sent = s.sent)
    (hstack : t.stack = Function.update s.stack T (frames ++ (s.stack T).tail))
    (hclient : t.client = s.client)
    (hmu : ∀ T', T' ≠ T → s.writeMu = some T' → t.writeMu = some T')
    (hself : s.abandons T = false) : t.Unbroken := by
  refine h.moved hexclusive hsent hstack (hclient ▸ le_rfl) ?_ hmu ?_
  · exact fun g hg => Or.inl (hclient ▸ hg)
  · intro _ hgives
    rw [hself] at hgives
    cases hgives

/-- A step of the client. -/
theorem client (h : s.Unbroken) {b : RpcClient.Act} {c : RpcClient}
    (hs : s.client.step b = some c) (hgoes : Goes T s.client c (s.stack T).head? b frames) :
    Unbroken (goto { s with client := c } T frames) := by
  obtain ⟨hgen, hsock⟩ := RpcClient.sock_of_step hs
  refine h.moved (h.exclusive.client hgoes) rfl rfl hgen ?_ (fun _ _ h => h) ?_
  · intro g hg
    rw [goto_client] at hg
    rcases hsock with hsame | hnone | ⟨hnew, hgen'⟩
    · exact Or.inl (hsame ▸ hg)
    · rw [hnone] at hg
      cases hg
    · exact Or.inr ⟨Option.some.inj (hg.symm.trans hnew), hgen'⟩
  · intro hopen hgives
    refine ⟨rfl, ?_⟩
    rw [abandons] at hgives
    generalize (s.stack T).head? = top at hgoes hgives
    cases hgoes with
    | complete k request => rfl
    | tryPop k request => rfl
    | closing k request =>
      obtain rfl := RpcClient.closeBegin_cases hs
      exact absurd rfl hopen
    | _ => cases hgives

/-- `WriteMessage` was called, and no frame was cut off but of a call. -/
theorem write (h : s.Unbroken) {call : Option ℕ} {request : RpcRequest} {outbox : Outbox}
    {place : SendPlace} {c : RpcClient}
    (htop : (s.stack T).head? = some (.send call request .writing))
    (hplace : place.holds = true) (hsock : c.sock = s.client.sock)
    (hgen : c.generations = s.client.generations)
    (hwrite : s.client.sock ≠ none →
      ((⟨M.serialize request, (writeMessage M request outbox).1⟩ : Sent).Whole ∨
        (Frame.send call request place).abandons = true)) :
    Unbroken (goto { (s.writeRequest M request outbox).1 with client := c } T
      [.send call request place]) := by
  have hmu := (writeRequest_fields (M := M) (s := s) request outbox).2.1
  have hheld : s.writeMu = some T := h.exclusive.holder htop rfl
  -- the writer holds the mutex, so nobody is about to close the connection
  have hwhole : ∀ g, s.client.sock = some g → ∀ x ∈ s.sent g, x.Whole := by
    intro g hg
    refine (h.guarded g hg).resolve_right ?_
    rintro ⟨T', hT', hgives⟩
    obtain rfl := Option.some.inj (hheld.symm.trans hT')
    rw [abandons, htop] at hgives
    cases hgives
  refine ⟨h.exclusive.write htop hplace, ?_, ?_, ?_, ?_⟩
  · intro g
    rcases writeRequest_sent (M := M) (s := s) request outbox g with heq | ⟨hg, heq, -⟩
    · rw [goto_sent, heq]
      exact h.framed g
    · rw [goto_sent, heq]
      exact .concat (hwhole g hg) (writeMessage_frame request outbox).1
  · intro g hg
    have hg' : s.client.sock = some g := hsock.symm.trans hg
    rcases hwrite (by simp [hg']) with hnew | hgives
    · refine Or.inl ?_
      rcases writeRequest_sent (M := M) (s := s) request outbox g with heq | ⟨-, heq, -⟩
      · rw [goto_sent, heq]
        exact hwhole g hg'
      · rw [goto_sent, heq]
        intro x hx
        rcases List.mem_append.1 hx with hx | hx
        · exact hwhole g hg' x hx
        · obtain rfl := List.mem_singleton.1 hx
          exact hnew
    · refine Or.inr ⟨T, hmu.trans hheld, ?_⟩
      rw [abandons, goto_stack]
      exact hgives
  · intro g hg
    have hg' : s.client.generations ≤ g := hgen.ge.trans hg
    rcases writeRequest_sent (M := M) (s := s) request outbox g with heq | ⟨hg, -, -⟩
    · rw [goto_sent, heq]
      exact h.fresh g hg'
    · have := h.sock g hg
      omega
  · intro g hg
    have := h.sock g (hsock.symm.trans hg)
    exact this.trans_le hgen.ge

/-- **No step but a heartbeat that is cut off breaks the frames.** -/
theorem step {a : Act} (h : s.Unbroken) (hcut : s.cutsHeartbeat M a = false)
    (hs : LockedClient.step M s a = some t) : t.Unbroken := by
  have hexclusive := h.exclusive.step hs
  obtain ⟨T, m⟩ := a
  have hsteps : Steps M s T m t := .of_step hs
  cases hsteps with
  | call k request htop =>
    exact h.still hexclusive rfl rfl rfl (fun _ _ h => h) (by rw [abandons, htop]; rfl)
  | client b c frames hclient hgoes => exact h.client hclient hgoes
  | await call request htop =>
    exact h.still hexclusive rfl rfl rfl (fun _ _ h => h) (by rw [abandons, htop]; rfl)
  | lock call request htop hfree =>
    refine h.still hexclusive rfl rfl rfl (fun T' _ hT' => ?_) (by rw [abandons, htop]; rfl)
    rw [hfree] at hT'
    cases hT'
  | heartbeat request outbox htop =>
    have hclient := (writeRequest_fields (M := M) (s := s) request outbox).1
    refine h.write htop rfl (by rw [hclient]) (by rw [hclient]) fun hopen => Or.inl ?_
    refine writeMessage_whole ?_
    simpa [cutsHeartbeat, htop, Option.isSome_iff_ne_none.2 hopen] using hcut
  | sent k request outbox c htop hwrite hclient =>
    obtain ⟨-, calls, -, rfl⟩ := RpcClient.call_cases hclient
    refine h.write htop rfl rfl rfl fun hopen => Or.inl (Or.inr ?_)
    refine (writeMessage_frame request outbox).2 ?_
    obtain ⟨g, hg⟩ := Option.ne_none_iff_exists'.1 hopen
    simpa [writeRequest, hg] using hwrite
  | failed k request outbox e c htop hwrite hclient =>
    obtain ⟨-, calls, -, rfl⟩ := RpcClient.call_cases hclient
    exact h.write htop rfl rfl rfl fun _ => Or.inr rfl
  | code htop =>
    exact h.still hexclusive rfl rfl rfl (fun _ _ h => h) (by rw [abandons, htop]; rfl)
  | waking htop =>
    exact h.still hexclusive rfl rfl rfl (fun _ _ h => h) (by rw [abandons, htop]; rfl)
  | unlock call request htop =>
    refine h.still hexclusive rfl rfl rfl (fun T' hne hT' => ?_) (by rw [abandons, htop]; rfl)
    exact absurd (Option.some.inj (hT'.symm.trans (h.exclusive.holder htop rfl))) hne
  | closed call request htop =>
    refine h.still hexclusive rfl rfl rfl (fun T' hne hT' => ?_) (by rw [abandons, htop]; rfl)
    exact absurd (Option.some.inj (hT'.symm.trans (h.exclusive.holder htop rfl))) hne

end Unbroken

/-- **When the server can read what a client writes.**  In a run in which no
heartbeat is cut off, the bytes on every socket are frames of requests that were
sent, in their order, and a prefix of the frame of the last one; nothing was
written after a frame that was cut off. -/
theorem frames_unbroken (M : Message RpcRequest) {es : List Act} {t : LockedClient}
    (hcut : Along (LockedClient.step M) (fun s a => s.cutsHeartbeat M a = false) {} es)
    (hrun : exec (LockedClient.step M) {} es = some t) (g : ℕ) :
    Framed (t.sent g) ∧ ∃ bodies cut, bodies.Sublist ((t.sent g).map Sent.body) ∧
      written (t.sent g) = stream bodies ++ cut ∧
      (cut = [] ∨ ∃ x ∈ (t.sent g).getLast?, cut <+: frame x.body) := by
  have hframed : Framed (t.sent g) :=
    (exec_along (I := Unbroken) (fun _ _ _ h hcut hs => h.step hcut hs) .init hcut hrun).framed g
  exact ⟨hframed, hframed.bytes⟩

/-- A call whose frame is cut off. -/
theorem frames_unbroken_call :
    ∃ t, exec (LockedClient.step firstMessage) {}
      (heartbeatWaits ++ [⟨.user 0, .write [.sent 3, .wouldBlock]⟩]) = some t ∧
      Framed (t.sent 0) := by
  obtain ⟨u, hwaits, t, hwrite⟩ : ∃ u, exec (LockedClient.step firstMessage) {} heartbeatWaits =
      some u ∧ ∃ t, LockedClient.step firstMessage u
        ⟨.user 0, .write [.sent 3, .wouldBlock]⟩ = some t :=
    ⟨_, rfl, _, step_failed rfl rfl
      (writeMessage_timeout (n := 3) (by decide) (by decide)) rfl⟩
  have hrun := exec_concat.2 ⟨u, hwaits, hwrite⟩
  have hcut : Along (LockedClient.step firstMessage)
      (fun s a => s.cutsHeartbeat firstMessage a = false) {} heartbeatWaits := by decide
  obtain rfl := Option.some.inj hwaits
  exact ⟨t, hrun, (frames_unbroken firstMessage (hcut.concat hwaits rfl) hrun 0).1⟩

/-- The first heartbeat, and the call after it. -/
def heartbeatMessage : Message RpcRequest where
  serialize request :=
    if request.serviceName = RpcClient.kHeartbeatServiceName then
      [0x0A, 4, 0x68, 0x62, 0x5F, 0x31, 0x12, 13, 0x5F, 0x5F, 0x48, 0x65, 0x61, 0x72, 0x74, 0x62,
        0x65, 0x61, 0x74, 0x5F, 0x5F, 0x1A, 4, 0x50, 0x69, 0x6E, 0x67]
    else [0x0A, 1, 0x32, 0x12, 1, 0x53, 0x1A, 1, 0x4D]
  parse body :=
    if body.length = 27 then some ⟨"hb_1", RpcClient.kHeartbeatServiceName, "Ping", []⟩
    else if body.length = 9 then some ⟨"2", "S", "M", []⟩
    else none

/-- **A call writes after a heartbeat that was cut off.**  The send of a heartbeat
times out after three bytes, and the next request goes to the same socket. -/
theorem call_after_cut_heartbeat : ∃ u v w t,
    exec (LockedClient.step heartbeatMessage) {}
      [⟨.user 0, .call 0 ⟨"", "S", "M", []⟩⟩,
        ⟨.user 0, .client (.connect 0 true)⟩,
        ⟨.dispatcher 0, .client (.dispatcher 0 .start)⟩,
        ⟨.dispatcher 0, .client (.dispatcher 0 .ready)⟩,
        ⟨.dispatcher 0, .client (.dispatcher 0 .check)⟩,
        ⟨.dispatcher 0, .client (.dispatcher 0 (.timeout 5000))⟩,
        ⟨.dispatcher 0, .client (.dispatcher 0 (.tick true))⟩,
        ⟨.dispatcher 0, .await⟩,
        ⟨.dispatcher 0, .lock⟩] = some u ∧
    LockedClient.step heartbeatMessage u
      ⟨.dispatcher 0, .write [.sent 3, .wouldBlock]⟩ = some v ∧
    exec (LockedClient.step heartbeatMessage) v
      [⟨.dispatcher 0, .leave⟩,
        ⟨.user 0, .client (.call (.begin 0 .callAsync))⟩,
        ⟨.user 0, .client (.call (.call 0 .add))⟩,
        ⟨.user 0, .await⟩,
        ⟨.user 0, .lock⟩] = some w ∧
    LockedClient.step heartbeatMessage w ⟨.user 0, .write []⟩ = some t ∧
    written (t.sent 0) = [0, 0, 0] ++ frame [0x0A, 1, 0x32, 0x12, 1, 0x53, 0x1A, 1, 0x4D] ∧
    ¬ Framed (t.sent 0) := by
  refine ⟨_, _, _, _, rfl,
    step_heartbeat rfl rfl (writeMessage_timeout (n := 3) (by decide) (by decide)), rfl,
    step_sent rfl rfl (writeMessage_all (by decide)) rfl, rfl, fun h => ?_⟩
  rcases h.whole _ (List.mem_cons_self ..) with hnone | hall
  · cases hnone
  · cases hall

end LockedClient
end Client
end MiniRpc
