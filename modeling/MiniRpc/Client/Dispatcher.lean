/-
# The dispatcher reads responses

One readable event of `DispatcherLoop` (`src/client/rpc_client.cpp`): `recv`
until the socket has no more, then `HandleReadableFrames` over the read buffer,
then the end of the connection if the peer closed it.  A response is handed to
the table of pending calls; the connection's end fails what is left there.

`HandleReadableFrames` drives the frame splitter with one handler for a body
(`handleReadableFrames_eq`).  What an event does to one pending call is followed
through all of it by `Fate`: the first answer counts, and a failure of the whole
table only where there was none (`delivered_iff` says when that is every answer
the event received).

Only the dispatcher's own stores to `dispatcher_running_` are seen here; `Close`
on another thread is not.
-/

import MiniRpc.Client.Calls
import MiniRpc.Protocol.Codec
import Mathlib.Data.List.Infix

namespace MiniRpc
namespace Client

open Protocol Splitter Common

/-- `IsTemporaryReadFailure`. -/
def isTemporaryReadFailure (readError : String) : Bool :=
  strerrorAgain.toList <:+: readError.toList || "recv timeout".toList <:+: readError.toList

/-- What the dispatcher's thread owns, with the table it shares with the calls,
the answers of `recv` and of the clock, what it has woken, and the bodies of the
frames consumed so far. -/
structure Dispatcher (α : Type*) where
  pending : PendingCalls α := {}
  wakes : List (Wake α) := []
  readBuffer : Bytes := []
  bodies : List Bytes := []
  running : Bool := true
  lastActivity : Time := 0
  inbox : Inbox := []
  clock : List Time := []

namespace Dispatcher

variable {α : Type*} (M : Message RpcResponse)

/-- `*last_activity = steady_clock::now()`. -/
def touch (d : Dispatcher α) : Dispatcher α :=
  { d with lastActivity := d.clock.headD 0, clock := d.clock.tail }

/-- `pending_calls_->FailAll`. -/
def failAll (d : Dispatcher α) (r : RpcCallResult) : Dispatcher α :=
  let (pending, wakes) := d.pending.failAll r
  { d with pending, wakes := d.wakes ++ wakes }

/-- The response of one frame is handled. -/
def handle (d : Dispatcher α) (response : RpcResponse) : Dispatcher α :=
  let (pending, wakes) := handleResponse d.pending response
  { d with pending, wakes := d.wakes ++ wakes }

/-- The failure for a read error that is not temporary. -/
def readFailure (what : String) : RpcCallResult :=
  .failure .internalError ("dispatcher stopped: " ++ ("recv failed: " ++ what))

/-- The failure for a header that announces an invalid length. -/
def lengthFailure : RpcCallResult := .failure .internalError "invalid response frame length"

/-- The failure for a body that does not parse. -/
def parseFailure : RpcCallResult := .failure .parseError "failed to parse RpcResponse"

/-- The failure for a connection the peer closed. -/
def closedFailure : RpcCallResult :=
  .failure .internalError "dispatcher stopped: peer closed connection"

/-- The loop of `recv` in a readable event; the result is `peer_closed`. -/
def drain (d : Dispatcher α) : Dispatcher α × Bool :=
  match _h : recv 4096 d.inbox with
  | (.data b bs, inbox) => drain { d.touch with inbox, readBuffer := d.readBuffer ++ b :: bs }
  | (.eof, inbox) => ({ d with inbox }, true)
  | (.interrupted, inbox) => drain { d with inbox }
  | (.wouldBlock, inbox) => ({ d with inbox }, false)
  | (.error what, inbox) =>
    if isTemporaryReadFailure ("recv failed: " ++ what) then ({ d with inbox }, false)
    else ({ d.failAll (readFailure what) with inbox, running := false }, false)
termination_by d.inbox.weight
decreasing_by
  · exact Inbox.weight_recv_data _h
  · exact Inbox.weight_recv_interrupted _h

/-- The loop of `HandleReadableFrames` from `offset` on: where it stops, and
whether the stream is still sound there. -/
def handleFrames (d : Dispatcher α) (offset : ℕ) : Dispatcher α × ℕ × Bool :=
  if _h : kFrameHeaderBytes ≤ d.readBuffer.length - offset then
    let bodyLength := decodeLength (d.readBuffer.drop offset)
    if bodyLength = 0 ∨ kMaxFrameSize < bodyLength then (d.failAll lengthFailure, offset, false)
    else if d.readBuffer.length - offset < kFrameHeaderBytes + bodyLength then (d, offset, true)
    else
      let body := (d.readBuffer.drop (offset + kFrameHeaderBytes)).take bodyLength
      match M.parse body with
      | none => (d.failAll parseFailure, offset, false)
      | some response =>
        handleFrames { d.handle response with bodies := d.bodies ++ [body] }
          (offset + (kFrameHeaderBytes + bodyLength))
  else (d, offset, true)
termination_by d.readBuffer.length - offset
decreasing_by
  have : 0 < kFrameHeaderBytes := by decide
  have : (d.handle response).readBuffer = d.readBuffer := rfl
  simp only [this]
  omega

/-- `HandleReadableFrames`. -/
def handleReadableFrames (d : Dispatcher α) : Dispatcher α × Bool :=
  match d.handleFrames M 0 with
  | (d, _, false) => (d, false)
  | (d, offset, true) =>
    if 0 < offset then ({ d.touch with readBuffer := d.readBuffer.drop offset }, true)
    else (d, true)

/-- The case `kReadable` of `DispatcherLoop`. -/
def onReadable (d : Dispatcher α) : Dispatcher α :=
  match d.drain with
  | (d, peerClosed) =>
    if !d.running then d
    else
      match d.handleReadableFrames M with
      | (d, false) => { d with running := false }
      | (d, true) =>
        if peerClosed then
          { (if 0 < d.pending.size then d.failAll closedFailure else d) with running := false }
        else d

/-! ### The event as a drive of the frame splitter -/

/-- What `drain` leaves after the answer that ended it, with the bytes in `d`. -/
def drained (ending : RecvResult) (d : Dispatcher α) : Dispatcher α × Bool :=
  match ending with
  | .eof => (d, true)
  | .error what =>
    if isTemporaryReadFailure ("recv failed: " ++ what) then (d, false)
    else ({ d.failAll (readFailure what) with running := false }, false)
  | _ => (d, false)

theorem drain_data {d : Dispatcher α} {b : UInt8} {bs : Bytes} {i : Inbox}
    (h : recv 4096 d.inbox = (.data b bs, i)) :
    d.drain = drain { d.touch with inbox := i, readBuffer := d.readBuffer ++ b :: bs } := by
  rw [drain]
  split <;> simp_all

theorem drain_interrupted {d : Dispatcher α} {i : Inbox}
    (h : recv 4096 d.inbox = (.interrupted, i)) : d.drain = drain { d with inbox := i } := by
  rw [drain]
  split <;> simp_all

/-- **`drain` appends what arrived** and then looks at the answer that ended the
series. -/
theorem drain_eq (d : Dispatcher α) :
    ∃ lastActivity clock, d.drain = drained d.inbox.ending
      { d with
        readBuffer := d.readBuffer ++ d.inbox.arrived, inbox := d.inbox.afterEnding
        lastActivity, clock } := by
  induction hw : d.inbox.weight using Nat.strongRecOn generalizing d with
  | _ w ih =>
    rcases Inbox.recv_ending 4096 d.inbox with
      ⟨b, bs, i, hr, ha, he, hae⟩ | ⟨i, hr, ha, he, hae⟩ | ⟨hr, ha, hend⟩
    · obtain ⟨activity, clock, heq⟩ := ih _ (hw ▸ Inbox.weight_recv_data hr)
        { d.touch with inbox := i, readBuffer := d.readBuffer ++ b :: bs } rfl
      refine ⟨activity, clock, ?_⟩
      rw [drain_data hr, heq, he, hae, ha, ← List.append_assoc]
      rfl
    · obtain ⟨activity, clock, heq⟩ :=
        ih _ (hw ▸ Inbox.weight_recv_interrupted hr) { d with inbox := i } rfl
      refine ⟨activity, clock, ?_⟩
      rw [drain_interrupted hr, heq, he, hae, ha]
    · refine ⟨d.lastActivity, d.clock, ?_⟩
      rw [drain, ha, List.append_nil]
      rcases hend with he | he | ⟨what, he⟩ <;> rw [he] at hr ⊢ <;>
        split <;> simp_all [drained, failAll]

/-- A read error after which the dispatcher gives the connection up. -/
def IsFatal (ending : RecvResult) (what : String) : Prop :=
  ending = .error what ∧ isTemporaryReadFailure ("recv failed: " ++ what) = false

/-- `e` is `d` with the bytes that arrived. -/
structure Filled (d e : Dispatcher α) : Prop where
  pending : e.pending = d.pending
  wakes : e.wakes = d.wakes
  readBuffer : e.readBuffer = d.readBuffer ++ d.inbox.arrived
  bodies : e.bodies = d.bodies
  running : e.running = d.running

theorem drain_filled {d : Dispatcher α} (h : ∀ what, ¬ IsFatal d.inbox.ending what) :
    ∃ e, Filled d e ∧ d.drain = (e, decide (d.inbox.ending = .eof)) := by
  obtain ⟨activity, clock, hdrain⟩ := d.drain_eq
  refine ⟨{ d with
    readBuffer := d.readBuffer ++ d.inbox.arrived, inbox := d.inbox.afterEnding
    lastActivity := activity, clock }, ⟨rfl, rfl, rfl, rfl, rfl⟩, hdrain.trans ?_⟩
  unfold drained
  split
  · rename_i he
    simp [he]
  · rename_i what he
    have ht : isTemporaryReadFailure ("recv failed: " ++ what) = true := by
      by_contra hf
      exact h what ⟨he, by simpa using hf⟩
    rw [if_pos ht]
    simp [he]
  · rename_i hne _
    exact congrArg _ (decide_eq_false hne).symm

/-- The table and the wake-ups after a response. -/
def respond (s : PendingCalls α × List (Wake α)) (response : RpcResponse) :
    PendingCalls α × List (Wake α) :=
  ((handleResponse s.1 response).1, s.2 ++ (handleResponse s.1 response).2)

/-- The handler of one body. -/
def handleBody (s : PendingCalls α × List (Wake α)) (body : Bytes) :
    (PendingCalls α × List (Wake α)) × Option RpcCallResult :=
  match M.parse body with
  | none => (s, some parseFailure)
  | some response => (respond s response, none)

/-- The failure `HandleReadableFrames` reports for the way a drive stopped. -/
def stopFailure : Option (Stop RpcCallResult) → Option RpcCallResult
  | none => none
  | some .bad => some lengthFailure
  | some (.failed r) => some r

/-- The dispatcher after a drive over its read buffer. -/
def driven (d : Dispatcher α) (q : Progress (PendingCalls α × List (Wake α)) UInt8 RpcCallResult) :
    Dispatcher α :=
  { d with pending := q.state.1, wakes := q.state.2, bodies := d.bodies ++ q.items }

/-- The loop drives the frame splitter over the buffer from `offset` on. -/
theorem handleFrames_eq (d : Dispatcher α) (offset : ℕ) :
    ∃ offset', d.readBuffer.drop offset' = (frameSplitter.drive (handleBody M)
        (d.pending, d.wakes) (d.readBuffer.drop offset)).rest ∧
      d.handleFrames M offset =
        match stopFailure (frameSplitter.drive (handleBody M) (d.pending, d.wakes)
            (d.readBuffer.drop offset)).stop with
        | none => (d.driven (frameSplitter.drive (handleBody M) (d.pending, d.wakes)
            (d.readBuffer.drop offset)), offset', true)
        | some r => ((d.driven (frameSplitter.drive (handleBody M) (d.pending, d.wakes)
            (d.readBuffer.drop offset))).failAll r, offset', false) := by
  induction hn : d.readBuffer.length - offset using Nat.strongRecOn generalizing d offset with
  | _ n ih =>
    have hlen : (d.readBuffer.drop offset).length = d.readBuffer.length - offset :=
      List.length_drop
    rw [handleFrames]
    by_cases hhead : kFrameHeaderBytes ≤ d.readBuffer.length - offset
    swap
    · rw [dif_neg hhead, drive_more (cut_of_short (by omega))]
      exact ⟨offset, rfl, by simp [stopFailure, driven]⟩
    rw [dif_pos hhead]
    by_cases hvalid : ValidLength (decodeLength (d.readBuffer.drop offset))
    swap
    · dsimp only
      rw [if_pos (not_validLength_iff.1 hvalid), drive_bad (cut_of_invalid (by omega) hvalid)]
      exact ⟨offset, rfl, by simp [stopFailure, driven]⟩
    dsimp only
    rw [if_neg fun h => not_validLength_iff.2 h hvalid]
    by_cases hbody : d.readBuffer.length - offset <
        kFrameHeaderBytes + decodeLength (d.readBuffer.drop offset)
    · rw [if_pos hbody, drive_more (cut_of_incomplete (by omega) hvalid (by omega))]
      exact ⟨offset, rfl, by simp [stopFailure, driven]⟩
    rw [if_neg hbody]
    have hcut := cut_of_complete hvalid (by omega)
    rw [List.drop_drop, List.drop_drop] at hcut
    generalize hb : (d.readBuffer.drop (offset + kFrameHeaderBytes)).take
      (decodeLength (d.readBuffer.drop offset)) = body at hcut ⊢
    cases hp : M.parse body with
    | none =>
      rw [drive_failed hcut (show handleBody M (d.pending, d.wakes) body =
        ((d.pending, d.wakes), some parseFailure) by rw [handleBody, hp])]
      exact ⟨offset, rfl, by simp [stopFailure, driven]⟩
    | some response =>
      have hlt : d.readBuffer.length -
          (offset + (kFrameHeaderBytes + decodeLength (d.readBuffer.drop offset))) < n := by
        have : 0 < kFrameHeaderBytes := by decide
        omega
      obtain ⟨offset', hrest, heq⟩ := ih _ hlt
        { d.handle response with bodies := d.bodies ++ [body] } _ rfl
      rw [drive_item hcut (show handleBody M (d.pending, d.wakes) body =
        (respond (d.pending, d.wakes) response, none) by rw [handleBody, hp])]
      refine ⟨offset', hrest, ?_⟩
      dsimp only
      rw [heq]
      simp only [driven, List.append_assoc, List.singleton_append]
      rfl

/-- **`HandleReadableFrames` drives the frame splitter** over the read buffer. -/
theorem handleReadableFrames_eq (d : Dispatcher α) :
    ∃ lastActivity clock, d.handleReadableFrames M =
      match stopFailure (frameSplitter.drive (handleBody M) (d.pending, d.wakes)
          d.readBuffer).stop with
      | none => ({ d.driven (frameSplitter.drive (handleBody M) (d.pending, d.wakes)
            d.readBuffer) with
          readBuffer := (frameSplitter.drive (handleBody M) (d.pending, d.wakes)
            d.readBuffer).rest
          lastActivity, clock }, true)
      | some r => ((d.driven (frameSplitter.drive (handleBody M) (d.pending, d.wakes)
          d.readBuffer)).failAll r, false) := by
  obtain ⟨offset, hrest, heq⟩ := d.handleFrames_eq M 0
  rw [List.drop_zero] at hrest heq
  unfold handleReadableFrames
  rw [heq]
  generalize frameSplitter.drive (handleBody M) (d.pending, d.wakes) d.readBuffer = q at hrest ⊢
  cases stopFailure q.stop with
  | some r => exact ⟨0, [], rfl⟩
  | none =>
    by_cases hpos : 0 < offset
    · refine ⟨d.clock.headD 0, d.clock.tail, ?_⟩
      dsimp only
      rw [if_pos hpos, ← hrest]
      rfl
    · obtain rfl : offset = 0 := by omega
      refine ⟨d.lastActivity, d.clock, ?_⟩
      dsimp only
      rw [if_neg hpos, ← hrest, List.drop_zero]
      rfl

/-! ### What an event does to one pending call -/

variable {M}

/-- The responses of a list of bodies, up to the first that does not parse. -/
def parsed (M : Message RpcResponse) : List Bytes → List RpcResponse
  | [] => []
  | body :: bodies =>
    match M.parse body with
    | none => []
    | some response => response :: parsed M bodies

/-- The complete responses in a byte string, up to the first malformed frame. -/
def responses (M : Message RpcResponse) (xs : Bytes) : List RpcResponse :=
  parsed M (frameSplitter.split xs).items

/-- The result that a response has for the call with this request id. -/
def answers (id : String) (response : RpcResponse) : Option RpcCallResult :=
  if !isHeartbeatId response.requestId && response.requestId = id then some (mapped response)
  else none

/-- What a drive leaves: the table after all the responses. -/
theorem drive_state (s : PendingCalls α × List (Wake α)) (xs : Bytes) :
    (frameSplitter.drive (handleBody M) s xs).state = (responses M xs).foldl respond s := by
  unfold responses split
  induction s, xs using drive_induction frameSplitter (handleBody M) with
  | more s xs hc => rw [drive_more hc, drive_more hc]; rfl
  | bad s xs hc => rw [drive_bad hc, drive_bad hc]; rfl
  | failed s xs body rest s' r hc hh =>
    rw [drive_failed hc hh, drive_item hc rfl]
    cases hp : M.parse body with
    | none =>
      rw [handleBody, hp] at hh
      simp only [parsed, hp, List.foldl_nil]
      exact (Prod.mk.inj hh).1.symm
    | some response =>
      rw [handleBody, hp] at hh
      cases (Prod.mk.inj hh).2
  | item s xs body rest s' hc hh ih =>
    rw [drive_item hc hh, drive_item hc rfl]
    cases hp : M.parse body with
    | none =>
      rw [handleBody, hp] at hh
      cases (Prod.mk.inj hh).2
    | some response =>
      rw [handleBody, hp] at hh
      simp only [parsed, hp, List.foldl_cons]
      rw [(Prod.mk.inj hh).1]
      exact ih

/-- The call with request id `id`, whose slot was `slot` when `woken` had been
woken, has the result `r`: its slot holds `r`, or is gone because its promise was
set to `r`. -/
def Delivered (woken : List (Wake α)) (id : String) (slot : Slot α)
    (s : PendingCalls α × List (Wake α)) (r : RpcCallResult) : Prop :=
  (∃ slot', s.1.slots.lookup id = some slot' ∧ slot'.done = true ∧ slot'.result = r) ∨
    s.1.slots.lookup id = none ∧ ∃ a ws, slot.asyncPromise = some a ∧ s.2 = woken ++ ws ∧
      .setValue a r ∈ ws

/-- Where a call stands: its slot is as it was, or the call has its result. -/
def Fate (woken : List (Wake α)) (id : String) (slot : Slot α)
    (s : PendingCalls α × List (Wake α)) : Option RpcCallResult → Prop
  | none => s.1.slots.lookup id = some slot ∧ ∃ ws, s.2 = woken ++ ws
  | some r => Delivered woken id slot s r

variable {woken : List (Wake α)} {id : String} {slot : Slot α}
  {s : PendingCalls α × List (Wake α)} {o : Option RpcCallResult}

/-- What is done elsewhere in the table changes nothing for the call. -/
theorem Fate.frame (h : Fate woken id slot s o) {t : PendingCalls α × List (Wake α)}
    (hslot : t.1.slots.lookup id = s.1.slots.lookup id) {ws : List (Wake α)}
    (hwakes : t.2 = s.2 ++ ws) : Fate woken id slot t o := by
  cases o with
  | none =>
    obtain ⟨hl, ws', hw⟩ := h
    exact ⟨hslot.trans hl, ws' ++ ws, by rw [hwakes, hw, List.append_assoc]⟩
  | some r =>
    rcases h with ⟨slot', hl, hdone⟩ | ⟨hl, a, ws', ha, hw, hmem⟩
    · exact Or.inl ⟨slot', hslot.trans hl, hdone⟩
    · exact Or.inr ⟨hslot.trans hl, a, ws' ++ ws, ha, by rw [hwakes, hw, List.append_assoc],
        List.mem_append_left _ hmem⟩

/-- **The first answer counts**: a response settles the call it belongs to if
nothing else has. -/
theorem Fate.respond (hopen : slot.done = false) (h : Fate woken id slot s o)
    (response : RpcResponse) :
    Fate woken id slot (respond s response) (o <|> answers id response) := by
  unfold Dispatcher.respond handleResponse answers
  cases hb : isHeartbeatId response.requestId with
  | true => simpa using h
  | false =>
    by_cases hid : response.requestId = id
    swap
    · simp only [hid, decide_false, Bool.and_false, Bool.false_eq_true, if_false]
      rw [show (o <|> none) = o by cases o <;> rfl]
      exact h.frame (PendingCalls.lookup_complete_ne (Ne.symm hid)) rfl
    subst hid
    simp only [Bool.not_false, decide_true, Bool.and_self, Bool.false_eq_true, if_false, if_true]
    cases o with
    | none =>
      obtain ⟨hl, ws, hw⟩ := h
      cases ha : slot.asyncPromise with
      | some a =>
        rw [PendingCalls.complete_async hl hopen ha]
        exact Or.inr ⟨AList.lookup_erase _ _, a, ws ++ [.setValue a (mapped response)], ha,
          by rw [hw, List.append_assoc], by simp⟩
      | none =>
        obtain ⟨hdone, hresult⟩ := slot.done_release_settle (mapped response)
        rw [PendingCalls.complete_other hl hopen ha]
        exact Or.inl ⟨_, AList.lookup_insert _, hdone, by rw [hresult, if_neg (by simp [hopen])]⟩
    | some r =>
      have hsame : s.1.complete response.requestId (mapped response) = (s.1, [], false) := by
        rcases h with ⟨slot', hl, hdone, -⟩ | ⟨hl, -⟩
        · exact PendingCalls.complete_done hl hdone
        · exact PendingCalls.complete_absent hl
      rw [hsame]
      exact h.frame rfl rfl

/-- **A failure of the whole table** settles the call if nothing else has. -/
theorem Fate.failAll (hopen : slot.done = false) (h : Fate woken id slot s o) (r : RpcCallResult) :
    Fate woken id slot ((s.1.failAll r).1, s.2 ++ (s.1.failAll r).2) (o <|> some r) := by
  have hsweep : (s.1.failAll r).1.slots.lookup id =
      (s.1.slots.lookup id).map fun slot => (slot.settle r).release :=
    PendingCalls.lookup_sweep
  cases o with
  | none =>
    obtain ⟨hdone, hresult⟩ := slot.done_release_settle r
    exact Or.inl ⟨_, by rw [hsweep, h.1]; rfl, hdone, by rw [hresult, if_neg (by simp [hopen])]⟩
  | some r' =>
    rcases h with ⟨slot', hl, hdone', hresult'⟩ | ⟨hl, a, ws, ha, hw, hmem⟩
    · obtain ⟨hdone, hresult⟩ := slot'.done_release_settle r
      exact Or.inl ⟨_, by rw [hsweep, hl]; rfl, hdone, by rw [hresult, if_pos hdone', hresult']⟩
    · exact Or.inr ⟨by rw [hsweep, hl]; rfl, a, ws ++ (s.1.failAll r).2, ha,
        by rw [hw, List.append_assoc], List.mem_append_left _ hmem⟩

/-- Responses one after the other settle the call with the first answer. -/
theorem Fate.foldl_respond (hopen : slot.done = false) (h : Fate woken id slot s o)
    (rs : List RpcResponse) :
    Fate woken id slot (rs.foldl Dispatcher.respond s) (o <|> rs.findSome? (answers id)) := by
  induction rs generalizing s o with
  | nil => simpa using h
  | cons response rs ih =>
    have := ih (h.respond hopen response)
    rw [List.foldl_cons, List.findSome?_cons]
    cases o <;> cases ha : answers id response <;> simpa [ha] using this

/-- The answer that the bytes received hold for a call: that of the first
response with its id. -/
def answer (M : Message RpcResponse) (xs : Bytes) (id : String) : Option RpcCallResult :=
  (responses M xs).findSome? (answers id)

/-- After a fatal read error every open call has that failure. -/
theorem onReadable_fatal {d : Dispatcher α} {what : String} (h : IsFatal d.inbox.ending what)
    (hslot : d.pending.slots.lookup id = some slot) (hopen : slot.done = false) :
    ∃ slot', (d.onReadable M).pending.slots.lookup id = some slot' ∧ slot'.done = true ∧
      slot'.result = readFailure what := by
  obtain ⟨activity, clock, hdrain⟩ := d.drain_eq
  rw [h.1, drained, if_neg (by simp [h.2])] at hdrain
  rw [onReadable, hdrain]
  obtain ⟨hdone, hresult⟩ := slot.done_release_settle (readFailure what)
  refine ⟨_, ?_, hdone, by rw [hresult, if_neg (by simp [hopen])]⟩
  exact PendingCalls.lookup_sweep.trans (by rw [hslot]; rfl)

/-- In every other event an open call gets its answer if there is one. -/
theorem onReadable_fate {d : Dispatcher α} (hrun : d.running = true)
    (h : ∀ what, ¬ IsFatal d.inbox.ending what)
    (hslot : d.pending.slots.lookup id = some slot) (hopen : slot.done = false) :
    ∃ f, Fate d.wakes id slot ((d.onReadable M).pending, (d.onReadable M).wakes)
      (answer M (d.readBuffer ++ d.inbox.arrived) id <|> f) := by
  obtain ⟨e, he, hdrain⟩ := drain_filled h
  obtain ⟨activity, clock, hframes⟩ := e.handleReadableFrames_eq M
  -- the call after the responses and before any failure
  have hstart : Fate d.wakes id slot (d.pending, d.wakes) none :=
    ⟨hslot, [], (List.append_nil _).symm⟩
  have hfate := hstart.foldl_respond hopen (responses M (d.readBuffer ++ d.inbox.arrived))
  rw [← drive_state, ← he.pending, ← he.readBuffer] at hfate
  nth_rewrite 2 [← he.wakes] at hfate
  rw [onReadable, hdrain]
  dsimp only
  rw [if_neg (by simp [he.running, hrun]), hframes, ← he.readBuffer]
  generalize frameSplitter.drive (handleBody M) (e.pending, e.wakes) e.readBuffer = q at hfate ⊢
  have hnone : (answer M e.readBuffer id <|> none) = answer M e.readBuffer id := by
    cases answer M e.readBuffer id <;> rfl
  cases stopFailure q.stop with
  | some r => exact ⟨some r, hfate.failAll hopen r⟩
  | none =>
    dsimp only
    split_ifs
    · exact ⟨some closedFailure, hfate.failAll hopen closedFailure⟩
    · exact ⟨none, hnone.symm ▸ hfate⟩
    · exact ⟨none, hnone.symm ▸ hfate⟩

/-- **When every response received is delivered.**  In a readable event, with any
answers of `recv`, every open call whose response is among the bytes received
has that response as its result exactly when the event does not end with a fatal
read error, or no open call had its response (other than one that reads like the
failure itself). -/
theorem delivered_iff (M : Message RpcResponse) (d : Dispatcher α) (hrun : d.running = true) :
    (∀ id slot r, d.pending.slots.lookup id = some slot → slot.done = false →
        answer M (d.readBuffer ++ d.inbox.arrived) id = some r →
        Delivered d.wakes id slot ((d.onReadable M).pending, (d.onReadable M).wakes) r) ↔
      ∀ what, IsFatal d.inbox.ending what → ∀ id slot r, d.pending.slots.lookup id = some slot →
        slot.done = false → answer M (d.readBuffer ++ d.inbox.arrived) id = some r →
        r = readFailure what := by
  constructor
  · intro h what hfatal id slot r hslot hopen hr
    obtain ⟨slot', hslot', -, hresult⟩ := onReadable_fatal (M := M) hfatal hslot hopen
    rcases h id slot r hslot hopen hr with ⟨slot'', hl, -, rfl⟩ | ⟨hl, -⟩
    · obtain rfl := Option.some.inj (hslot'.symm.trans hl)
      exact hresult
    · cases hslot'.symm.trans hl
  · intro h id slot r hslot hopen hr
    by_cases hfatal : ∃ what, IsFatal d.inbox.ending what
    · obtain ⟨what, hfatal⟩ := hfatal
      obtain ⟨slot', hslot', hdone, hresult⟩ := onReadable_fatal (M := M) hfatal hslot hopen
      have hr' : r = readFailure what := h what hfatal id slot r hslot hopen hr
      exact Or.inl ⟨slot', hslot', hdone, hresult.trans hr'.symm⟩
    · obtain ⟨f, hfate⟩ := onReadable_fate (M := M) hrun (not_exists.1 hfatal) hslot hopen
      rw [hr] at hfate
      exact hfate

/-- The body of an `OK` response to request `1`, with no payload. -/
def okBody : Bytes := [0x0A, 1, 0x31]

/-- The response type, as far as this body is concerned. -/
def okMessage : Message RpcResponse := .only ⟨"1", 0, "", []⟩ okBody

/-- A dispatcher with one pending `CallAsync`, whose socket answers as given. -/
def awaiting (inbox : Inbox) : Dispatcher ℕ :=
  { pending := ⟨(∅ : Table String (Slot ℕ)).insert "1"
      { asyncPromise := some 0, asyncBound := true }⟩
    inbox }

theorem answer_okBody (xs : Bytes) (h : xs = frame okBody) :
    answer okMessage xs "1" = some (mapped ⟨"1", 0, "", []⟩) := by
  rw [h, answer, responses, split_frame (by decide)]
  rfl

/-- With EOF after the response, the call gets it. -/
theorem delivered_iff_eof :
    Delivered [] "1" { asyncPromise := some 0, asyncBound := true }
      ((onReadable okMessage (awaiting [.data 0 ([0, 0, 3] ++ okBody), .eof])).pending,
        (onReadable okMessage (awaiting [.data 0 ([0, 0, 3] ++ okBody), .eof])).wakes)
      (mapped ⟨"1", 0, "", []⟩) := by
  refine (delivered_iff okMessage (awaiting [.data 0 ([0, 0, 3] ++ okBody), .eof]) rfl).2 ?_
    "1" _ _ rfl rfl (answer_okBody _ rfl)
  intro what hfatal
  cases hfatal.1

/-- **With a reset after the response, the call fails**: the response in the read
buffer is never looked at. -/
theorem reset_loses_response :
    answer okMessage ((awaiting [.data 0 ([0, 0, 3] ++ okBody),
        .error "Connection reset by peer"]).inbox.arrived) "1" =
      some (mapped ⟨"1", 0, "", []⟩) ∧
    ¬ Delivered [] "1" { asyncPromise := some 0, asyncBound := true }
      ((onReadable okMessage (awaiting [.data 0 ([0, 0, 3] ++ okBody),
          .error "Connection reset by peer"])).pending,
        (onReadable okMessage (awaiting [.data 0 ([0, 0, 3] ++ okBody),
          .error "Connection reset by peer"])).wakes)
      (mapped ⟨"1", 0, "", []⟩) := by
  refine ⟨answer_okBody _ rfl, fun h => ?_⟩
  have hfatal : IsFatal (awaiting [.data 0 ([0, 0, 3] ++ okBody),
      .error "Connection reset by peer"]).inbox.ending "Connection reset by peer" :=
    ⟨rfl, by decide⟩
  have hslot : (awaiting [.data 0 ([0, 0, 3] ++ okBody),
      .error "Connection reset by peer"]).pending.slots.lookup "1" =
        some { asyncPromise := some 0, asyncBound := true } := rfl
  obtain ⟨slot', hslot', -, hresult⟩ := onReadable_fatal (M := okMessage) hfatal hslot rfl
  rcases h with ⟨slot'', hl, -, hr⟩ | ⟨hl, -⟩
  · obtain rfl := Option.some.inj (hslot'.symm.trans hl)
    exact absurd (hresult.symm.trans hr) (by decide)
  · cases hslot'.symm.trans hl

end Dispatcher
end Client
end MiniRpc
