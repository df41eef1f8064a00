/-
# What a connection has read and what it has queued

A connection of the server (`src/server/connection.cpp`) takes bytes in by
`OnReadable` and gives bytes out by `QueueResponse` and `FlushWrites`.  Every
other call leaves both alone: `Same` and `Keeps` are the frames that the calls
of the loop and the other rounds of the coroutine have in common.
`onReadable_reads` says what `OnReadable` does: it drives the frame splitter over
what was unread and what arrived, and what it took and what it left make up all
that was read (`Connection.received`).
-/

import MiniRpc.Protocol.Delivery
import MiniRpc.Server.Closing

namespace MiniRpc
namespace Server

open Protocol Splitter Transition

/-- All the bytes that a connection has read: the frames it took, and what is in
its read buffer. -/
def Connection.received (c : Connection) : Bytes := stream c.bodies ++ c.readBuffer.readable

/-- `c'` is `c` up to its deadlines, its flags, its state and its socket; a
connection that is closing is closing still. -/
structure Same (c c' : Connection) : Prop where
  bodies : c'.bodies = c.bodies
  readBuffer : c'.readBuffer = c.readBuffer
  out : { c'.out with writeDeadline := none, clock := [], outbox := [] } =
    { c.out with writeDeadline := none, clock := [], outbox := [] }
  closing : c.shouldClose = true → c'.shouldClose = true

namespace Same

variable {c c' c'' : Connection}

theorem refl (c : Connection) : Same c c := ⟨rfl, rfl, rfl, id⟩

theorem trans (h : Same c c') (h' : Same c' c'') : Same c c'' :=
  ⟨h'.bodies.trans h.bodies, h'.readBuffer.trans h.readBuffer, h'.out.trans h.out,
    fun hc => h'.closing (h.closing hc)⟩

theorem resumeClosing (c : Connection) : Same c c.resumeClosing := by
  unfold Connection.resumeClosing
  split <;> exact ⟨rfl, rfl, rfl, id⟩

theorem resumeWaitersClosing (c : Connection) : Same c c.resumeWaitersClosing := by
  unfold Connection.resumeWaitersClosing
  dsimp only
  have hread : Same c
      (if c.readWaiter then ({ c with readWaiter := false } : Connection).resumeClosing
        else c) := by
    split_ifs
    · exact (⟨rfl, rfl, rfl, id⟩ : Same c { c with readWaiter := false }).trans (.resumeClosing _)
    · exact .refl c
  generalize (if c.readWaiter then _ else _ : Connection) = d at hread ⊢
  split_ifs
  · exact (hread.trans (⟨rfl, rfl, rfl, id⟩ : Same d { d with writeWaiter := false })).trans
      (.resumeClosing _)
  · exact hread

theorem enterError (c : Connection) (e : String) : Same c (c.enterError e) := by
  unfold Connection.enterError
  dsimp only
  refine Same.trans ?_ (resumeWaitersClosing _)
  exact ⟨rfl, rfl, rfl, fun _ => rfl⟩

theorem markClosing (c : Connection) : Same c c.markClosing := by
  unfold Connection.markClosing
  dsimp only
  refine Same.trans ?_ (resumeWaitersClosing _)
  exact ⟨rfl, rfl, rfl, fun _ => rfl⟩

theorem markClosed (c : Connection) : Same c c.markClosed := ⟨rfl, rfl, rfl, fun _ => rfl⟩

theorem tick (now : Time) (c : Connection) : Same c (c.tick now) := by
  unfold Connection.tick
  split_ifs
  · exact .refl c
  · exact .enterError c _
  · exact .enterError c _
  · exact .refl c

end Same

/-- `c'` has read and queued what `c` has, and may have flushed more of it. -/
structure Keeps (c c' : Connection) : Prop where
  bodies : c'.bodies = c.bodies
  readBuffer : c'.readBuffer = c.readBuffer
  emitted : c'.out.emitted = c.out.emitted
  handed : c'.out.handed = c.out.handed
  wire : c.out.wire <+: c'.out.wire
  closing : c.shouldClose = true → c'.shouldClose = true

/-- The deadlines, the flags and the state are no part of it. -/
theorem Same.keeps {c c' : Connection} (h : Same c c') : Keeps c c' := by
  have hwire : c'.out.wire = c.out.wire := (congrArg Outbound.wire h.out :)
  refine ⟨h.bodies, h.readBuffer, ?_, (congrArg Outbound.handed h.out :),
    hwire ▸ List.prefix_rfl, h.closing⟩
  have hbuffer : c'.out.writeBuffer = c.out.writeBuffer :=
    (congrArg Outbound.writeBuffer h.out :)
  rw [Outbound.emitted, Outbound.emitted, hwire, hbuffer]

namespace Keeps

variable {c c' c'' : Connection}

theorem trans (h : Keeps c c') (h' : Keeps c' c'') : Keeps c c'' :=
  ⟨h'.bodies.trans h.bodies, h'.readBuffer.trans h.readBuffer, h'.emitted.trans h.emitted,
    h'.handed.trans h.handed, h.wire.trans h'.wire, fun hc => h'.closing (h.closing hc)⟩

theorem received (h : Keeps c c') : c'.received = c.received := by
  rw [Connection.received, Connection.received, h.bodies, h.readBuffer]

theorem onWritable (env : Env) (c : Connection) : Keeps c (c.onWritable env).1 := by
  have hflush : Keeps c { c with out := (flushWrites c.out).1 } := by
    refine ⟨rfl, rfl, flushWrites_emitted c.out, flushWrites_handed c.out, ?_, id⟩
    show c.out.wire <+: (flushWrites c.out).1.wire
    generalize c.out = o
    fun_induction flushWrites o with
    | case1 => exact List.prefix_rfl
    | case2 => exact List.prefix_rfl
    | case3 o chunk chunks hbuf n outbox hsend offset ih =>
      exact (List.prefix_append _ _).trans (by simpa only [dite_eq_ite] using ih)
    | case4 o chunk chunks hbuf outbox hsend ih => exact ih
    | case5 => exact List.prefix_rfl
    | case6 => exact List.prefix_rfl
  unfold Connection.onWritable
  split
  · rename_i out e heq
    rw [heq] at hflush
    exact hflush.trans (Same.enterError _ e).keeps
  · rename_i out heq
    rw [heq] at hflush
    dsimp only
    split_ifs
    · exact hflush.trans (Same.keeps ⟨rfl, rfl, rfl, id⟩)
    · exact hflush.trans (Same.keeps ⟨rfl, rfl, rfl, id⟩)

end Keeps

/-! ### What `OnReadable` reads -/

theorem enqueueResponse_wire (env : Env) (o : Outbound) (r : RpcResponse) :
    (enqueueResponse env o r).1.wire = o.wire := by
  by_cases hsize : ValidLength (env.response.byteSizeLong r)
  · by_cases hroom : Room env o r
    · rw [enqueueResponse_valid hsize hroom]
      rfl
    · rw [enqueueResponse_noRoom hsize hroom]
  · rw [enqueueResponse_invalid hsize]

theorem processFrame_wire (env : Env) (o : Outbound) (body : Bytes) :
    (processFrame env o body).1.wire = o.wire := by
  unfold processFrame
  cases env.request.parse body with
  | none => exact enqueueResponse_wire env o _
  | some request =>
    dsimp only
    split_ifs
    · exact enqueueResponse_wire env o _
    · cases env.dispatcher with
      | none => exact enqueueResponse_wire env { o with handed := o.handed ++ [request] } _
      | some dispatcher =>
        dsimp only
        split <;> rfl

/-- A response that is refused is not queued. -/
theorem enqueueResponse_failed {env : Env} {o o' : Outbound} {r : RpcResponse} {e : String}
    (h : enqueueResponse env o r = (o', some e)) : o' = o := by
  by_cases hsize : ValidLength (env.response.byteSizeLong r)
  · by_cases hroom : Room env o r
    · rw [enqueueResponse_valid hsize hroom] at h
      cases (Prod.mk.inj h).2
    · rw [enqueueResponse_noRoom hsize hroom] at h
      exact (Prod.mk.inj h).1.symm
  · rw [enqueueResponse_invalid hsize] at h
    exact (Prod.mk.inj h).1.symm

/-- A frame whose dispatch or response fails queues nothing. -/
theorem processFrame_failed {env : Env} {o o' : Outbound} {body : Bytes} {e : String}
    (h : processFrame env o body = (o', some e)) : o'.emitted = o.emitted := by
  unfold processFrame at h
  cases hp : env.request.parse body with
  | none =>
    rw [hp] at h
    rw [enqueueResponse_failed h]
  | some request =>
    rw [hp] at h
    dsimp only at h
    split_ifs at h with hbeat
    · rw [enqueueResponse_failed h]
    · cases hd : env.dispatcher with
      | none =>
        rw [hd] at h
        rw [enqueueResponse_failed h]
        rfl
      | some dispatcher =>
        rw [hd] at h
        dsimp only at h
        split at h
        · cases (Prod.mk.inj h).2
        · exact (Prod.mk.inj h).1 ▸ rfl

/-- What a drive over the frames of a connection queues and hands over.  A frame
whose dispatch or response fails is not taken, but its request was handed over. -/
theorem drive_out (env : Env) (o : Outbound) (xs : Bytes) :
    ∃ extra : Option RpcRequest,
      (frameSplitter.drive (processFrame env) o xs).state.emitted = o.emitted ++
        stream (((frameSplitter.drive (processFrame env) o xs).items.filterMap
          fun body => (WriteEvent.frame body).response env).map env.response.serialize) ∧
      (∀ r ∈ (frameSplitter.drive (processFrame env) o xs).items.filterMap
        fun body => (WriteEvent.frame body).response env,
          ValidLength (env.response.byteSizeLong r)) ∧
      (frameSplitter.drive (processFrame env) o xs).state.handed = o.handed ++
        (frameSplitter.drive (processFrame env) o xs).items.filterMap (business env) ++
          extra.toList ∧
      (frameSplitter.drive (processFrame env) o xs).state.wire = o.wire ∧
      ∀ q ∈ extra, (frameSplitter.drive (processFrame env) o xs).stop ≠ none ∧
        ∃ body rest, frameSplitter.cut (frameSplitter.drive (processFrame env) o xs).rest =
          .item body rest ∧ business env body = some q := by
  induction o, xs using drive_induction frameSplitter (processFrame env) with
  | more o xs hc =>
    rw [drive_more hc]
    exact ⟨none, by simp, by simp, by simp, rfl, by simp⟩
  | bad o xs hc =>
    rw [drive_bad hc]
    exact ⟨none, by simp, by simp, by simp, rfl, by simp⟩
  | failed o xs body rest o' e hc hh =>
    have hhanded := processFrame_handed env o body
    have hwire := processFrame_wire env o body
    rw [hh] at hhanded hwire
    rw [drive_failed hc hh]
    refine ⟨business env body, ?_, by simp, ?_, hwire, fun q hq => ⟨by simp, body, rest, hc, hq⟩⟩
    · simpa using processFrame_failed hh
    · simpa using hhanded
  | item o xs body rest o' hc hh ih =>
    obtain ⟨extra, hemit, hvalid, hhanded, hwire, hextra⟩ := ih
    have hstep : writeStep env o (.frame body) = some o' := writeStep_eq_some.2 hh
    obtain ⟨hemit₁, hvalid₁, hhanded₁⟩ := writeStep_emitted hstep
    have hwire₁ := processFrame_wire env o body
    rw [hh] at hwire₁
    have hone : (WriteEvent.bodies [.frame body]).filterMap (business env) =
        (business env body).toList := by
      rw [WriteEvent.bodies]
      cases hb : business env body <;> simp [hb]
    rw [drive_item hc hh]
    refine ⟨extra, ?_, ?_, ?_, hwire.trans hwire₁, hextra⟩
    · dsimp only
      rw [hemit, hemit₁, List.append_assoc, List.filterMap_cons]
      cases (WriteEvent.frame body).response env <;> simp
    · intro r hr
      dsimp only at hr
      rw [List.filterMap_cons] at hr
      cases hresp : (WriteEvent.frame body).response env with
      | none =>
        rw [hresp] at hr
        exact hvalid r hr
      | some r₀ =>
        rw [hresp] at hr
        rcases List.mem_cons.1 hr with rfl | hr
        · exact hvalid₁ r hresp
        · exact hvalid r hr
    · dsimp only
      rw [hhanded, hhanded₁, hone, List.filterMap_cons]
      cases business env body <;> simp

/-- What `OnReadable` does to a connection: it took `items` and queued their
`responses`, and everything it read is there. -/
structure Reads (env : Env) (c c' : Connection) (arrived : Bytes) (items : List Bytes)
    (extra : Option RpcRequest) : Prop where
  bodies : c'.bodies = c.bodies ++ items
  sized : ∀ body ∈ items, ValidLength body.length
  received : c'.received = c.received ++ arrived
  emitted : c'.out.emitted = c.out.emitted ++
    stream ((items.filterMap fun body => (WriteEvent.frame body).response env).map
      env.response.serialize)
  valid : ∀ r ∈ items.filterMap fun body => (WriteEvent.frame body).response env,
    ValidLength (env.response.byteSizeLong r)
  handed : c'.out.handed = c.out.handed ++ items.filterMap (business env) ++ extra.toList
  wire : c.out.wire <+: c'.out.wire
  closing : c.shouldClose = true → c'.shouldClose = true
  extra : ∀ q ∈ extra, ∃ body rest,
    frameSplitter.cut c'.readBuffer.readable = .item body rest ∧ business env body = some q

/-- Nothing of this changes afterwards. -/
theorem Reads.keeps {env : Env} {c c' c'' : Connection} {arrived : Bytes} {items : List Bytes}
    {extra : Option RpcRequest} (h : Reads env c c' arrived items extra) (hk : Keeps c' c'') :
    Reads env c c'' arrived items extra where
  bodies := hk.bodies.trans h.bodies
  sized := h.sized
  received := hk.received.trans h.received
  emitted := hk.emitted.trans h.emitted
  valid := h.valid
  handed := hk.handed.trans h.handed
  wire := h.wire.trans hk.wire
  closing := fun hc => hk.closing (h.closing hc)
  extra := fun q hq => hk.readBuffer ▸ h.extra q hq

/-- It is the same if the reading starts from a connection that is the same. -/
theorem Reads.of_same {env : Env} {c c₁ c' : Connection} {arrived : Bytes} {items : List Bytes}
    {extra : Option RpcRequest} (hs : Same c c₁) (h : Reads env c₁ c' arrived items extra) :
    Reads env c c' arrived items extra where
  bodies := hs.bodies ▸ h.bodies
  sized := h.sized
  received := hs.keeps.received ▸ h.received
  emitted := hs.keeps.emitted ▸ h.emitted
  valid := h.valid
  handed := hs.keeps.handed ▸ h.handed
  wire := hs.keeps.wire.trans h.wire
  closing := fun hc => h.closing (hs.closing hc)
  extra := h.extra

/-- **What `OnReadable` reads** is what arrived up to the answer that ended the
series, whatever comes of it.  A connection whose last frame failed closes. -/
theorem onReadable_reads (env : Env) (c : Connection) :
    ∃ items extra, Reads env c (c.onReadable env).1 c.inbox.arrived items extra ∧
      (extra ≠ none → (c.onReadable env).1.shouldClose = true) := by
  obtain ⟨b, hb, hread⟩ := c.readFromSocket_eq
  -- the bytes are in the buffer and nothing was parsed
  have hbytes : ∀ c' : Connection, c'.bodies = c.bodies → c'.readBuffer = b → c'.out = c.out →
      (c.shouldClose = true → c'.shouldClose = true) →
      Reads env c c' c.inbox.arrived [] none := by
    intro c' hbodies hbuffer hout hclose
    refine ⟨by simpa using hbodies, by simp, ?_, by simp [hout], by simp, by simp [hout],
      hout ▸ List.prefix_rfl, hclose, by simp⟩
    rw [Connection.received, Connection.received, hbodies, hbuffer, hb, List.append_assoc]
  unfold Connection.onReadable
  rw [hread]
  cases Connection.readOutcome c.inbox.ending b.readable with
  | kWouldBlock => exact ⟨[], none, hbytes _ rfl rfl rfl id, fun h => absurd rfl h⟩
  | kPeerClosed => exact ⟨[], none, hbytes _ rfl rfl rfl fun _ => rfl, fun h => absurd rfl h⟩
  | kError e =>
    refine ⟨[], none, Reads.keeps ?_ (Same.enterError _ e).keeps, fun h => absurd rfl h⟩
    exact hbytes { c with inbox := c.inbox.afterEnding, readBuffer := b } rfl rfl rfl id
  | kData =>
    obtain ⟨b', hb', hparse⟩ := Connection.tryParseRequests_eq env
      { c with inbox := c.inbox.afterEnding, readBuffer := b }
    dsimp only at hb' hparse ⊢
    obtain ⟨extra, hemit, hvalid, hhanded, hwire, hextra⟩ := drive_out env c.out b.readable
    have hall := @stream_items_append_rest _ _ (processFrame env) c.out b.readable
    have hsized := @drive_sized _ _ (processFrame env) c.out b.readable
    generalize frameSplitter.drive (processFrame env) c.out b.readable = p
      at hb' hparse hemit hvalid hhanded hwire hextra hall hsized
    have hreceived : stream (c.bodies ++ p.items) ++ b'.readable =
        c.received ++ c.inbox.arrived := by
      rw [Connection.received, List.append_assoc, ← hb, ← hall, ← hb', stream, stream, stream,
        List.flatMap_append, List.append_assoc]
    have hreads : Reads env c { c with
        inbox := c.inbox.afterEnding, out := p.state, bodies := c.bodies ++ p.items
        readBuffer := b' } c.inbox.arrived p.items extra :=
      ⟨rfl, hsized, hreceived, hemit, hvalid, hhanded, hwire ▸ List.prefix_rfl, id,
        fun q hq => hb' ▸ (hextra q hq).2⟩
    rw [hparse]
    cases hstop : Connection.stopMessage p.stop with
    | none =>
      refine ⟨p.items, extra, hreads.keeps (Same.keeps ⟨rfl, rfl, rfl, id⟩), fun hne => ?_⟩
      obtain ⟨q, hq⟩ := Option.ne_none_iff_exists'.1 hne
      -- a drive that hands over a request it does not take has stopped
      cases hp : p.stop with
      | none => exact absurd hp (hextra q hq).1
      | some why =>
        rw [hp] at hstop
        cases why <;> cases hstop
    | some e =>
      exact ⟨p.items, extra, hreads.keeps (Same.enterError _ e).keeps,
        fun _ => (Connection.enterError_fields _ e).1⟩

/-! ### A round of the coroutine -/

/-- **What a round does** is a call of `OnReadable` or `OnWritable`, or nothing to what
was read and queued. -/
theorem coRound_cases (env : Env) (place : Connection.Place) (c : Connection) :
    (Same c (c.coRound env place).1 ∧ (place = .afterRead → c.shouldClose = true)) ∨
      (place = .afterRead ∧ ∃ c₁, Same c c₁ ∧ c₁.inbox = c.inbox ∧
        Same (c₁.onReadable env).1 (c.coRound env place).1) ∨
      (place = .afterWrite ∧ ∃ c₁, Same c c₁ ∧
        Same (c₁.onWritable env).1 (c.coRound env place).1) := by
  cases place with
  | top =>
    refine Or.inl ⟨?_, by simp⟩
    unfold Connection.coRound
    dsimp only
    split_ifs <;> exact ⟨rfl, rfl, rfl, id⟩
  | afterRead =>
    unfold Connection.coRound
    dsimp only
    by_cases hclose : c.shouldClose = true
    · rw [if_pos (by simpa [Connection.clearReadDeadline] using hclose)]
      exact Or.inl ⟨⟨rfl, rfl, rfl, id⟩, fun _ => hclose⟩
    · rw [if_neg (by simpa [Connection.clearReadDeadline] using hclose)]
      refine Or.inr (Or.inl ⟨rfl, { c.clearReadDeadline with readReady := false },
        ⟨rfl, rfl, rfl, id⟩, rfl, ?_⟩)
      split
      · rename_i c₂ e heq
        rw [heq]
        exact ⟨rfl, rfl, rfl, id⟩
      · rename_i c₂ heq
        rw [heq]
        split_ifs
        · exact ⟨rfl, rfl, rfl, id⟩
        · exact .refl _
  | writeLoop =>
    refine Or.inl ⟨?_, by simp⟩
    unfold Connection.coRound
    dsimp only
    split_ifs <;> exact ⟨rfl, rfl, rfl, id⟩
  | afterWrite =>
    unfold Connection.coRound
    dsimp only
    split_ifs
    · exact Or.inl ⟨⟨rfl, rfl, rfl, id⟩, by simp⟩
    · refine Or.inr (Or.inr ⟨rfl, { c.clearWriteDeadline with writeReady := false },
        ⟨rfl, rfl, rfl, id⟩, ?_⟩)
      split
      · rename_i c₂ e heq
        rw [heq]
        exact ⟨rfl, rfl, rfl, id⟩
      · rename_i c₂ heq
        rw [heq]
        split_ifs
        · exact ⟨rfl, rfl, rfl, id⟩
        · exact .refl _

end Server
end MiniRpc
