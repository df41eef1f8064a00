/-
# The blocking codec

`src/protocol/codec.cpp`: `ReadN` and `WriteN` call `recv` and `send` until a
buffer is full or empty, `ReadMessage` and `WriteMessage` read and write one
frame around them.  A call that fails part of the way has taken from the script,
or put on the wire, what it did until then.

The text of `strerror(EAGAIN)` is the one the client looks for when it tells
temporary failures apart (`IsTemporaryReadFailure`).  `SerializeToArray` into a
buffer of `ByteSizeLong` bytes of at most 4 MiB does not fail, so the branch for
that is not modelled.
-/

import MiniRpc.Common.Socket
import MiniRpc.Protocol.Frame

namespace MiniRpc

/-- `strerror(EAGAIN)`. -/
def strerrorAgain : String := "Resource temporarily unavailable"

namespace Protocol

/-- `Codec::ReadN`: exactly `left` bytes. -/
def readN (left : ℕ) (i : Inbox) : Except String Bytes × Inbox :=
  if left = 0 then (.ok [], i)
  else
    match _h : recv left i with
    | (.data b bs, i') =>
      match readN (left - (bs.length + 1)) i' with
      | (.ok out, i'') => (.ok (b :: bs ++ out), i'')
      | (.error e, i'') => (.error e, i'')
    | (.eof, i') => (.error "peer closed connection", i')
    | (.interrupted, i') => readN left i'
    | (.wouldBlock, i') => (.error ("recv failed: " ++ strerrorAgain), i')
    | (.error what, i') => (.error ("recv failed: " ++ what), i')
termination_by i.weight
decreasing_by
  · exact Inbox.weight_recv_data _h
  · exact Inbox.weight_recv_interrupted _h

/-- `Codec::WriteN`: the bytes put on the wire, and the error if there was one. -/
def writeN (buf : Bytes) (o : Outbox) : Bytes × Option String × Outbox :=
  if buf = [] then ([], none, o)
  else
    match _h : send buf.length o with
    | (.sent n, o') =>
      let r := writeN (buf.drop n) o'
      (buf.take n ++ r.1, r.2)
    | (.interrupted, o') => writeN buf o'
    | (.wouldBlock, o') => ([], some ("send failed: " ++ strerrorAgain), o')
    | (.error what, o') => ([], some ("send failed: " ++ what), o')
termination_by o.length + buf.length
decreasing_by
  · exact Outbox.length_send_sent _h (by assumption)
  · exact Nat.add_lt_add_right (Outbox.length_send_interrupted _h) _

variable {μ : Type*} (M : Message μ)

/-- `Codec::ReadMessage`. -/
def readMessage (i : Inbox) : Except String μ × Inbox :=
  match readN kFrameHeaderBytes i with
  | (.error e, i) => (.error e, i)
  | (.ok header, i) =>
    if ¬ ValidLength (decodeLength header) then
      (.error ("invalid frame length: " ++ toString (decodeLength header)), i)
    else
      match readN (decodeLength header) i with
      | (.error e, i) => (.error e, i)
      | (.ok body, i) =>
        match M.parse body with
        | none => (.error "failed to parse protobuf body", i)
        | some m => (.ok m, i)

/-- `Codec::WriteMessage`. -/
def writeMessage (m : μ) (o : Outbox) : Bytes × Option String × Outbox :=
  if ¬ ValidLength (M.byteSizeLong m) then
    ([], some ("invalid serialized size: " ++ toString (M.byteSizeLong m)), o)
  else
    match writeN (encodeLength (M.byteSizeLong m)) o with
    | (w, some e, o) => (w, some e, o)
    | (w, none, o) =>
      let r := writeN (M.serialize m) o
      (w ++ r.1, r.2)

/-- `ReadMessage` called `n` times, as long as it succeeds. -/
def readMessages : ℕ → Inbox → Except String (List μ) × Inbox
  | 0, i => (.ok [], i)
  | n + 1, i =>
    match readMessage M i with
    | (.error e, i) => (.error e, i)
    | (.ok m, i) =>
      match readMessages n i with
      | (.error e, i) => (.error e, i)
      | (.ok ms, i) => (.ok (m :: ms), i)

/-- `WriteMessage` called for each message, as long as it succeeds. -/
def writeMessages : List μ → Outbox → Bytes × Option String × Outbox
  | [], o => ([], none, o)
  | m :: ms, o =>
    match writeMessage M m o with
    | (w, some e, o) => (w, some e, o)
    | (w, none, o) =>
      let r := writeMessages ms o
      (w ++ r.1, r.2)

theorem writeN_sent {buf : Bytes} {o o' : Outbox} {k : ℕ} (hb : buf ≠ [])
    (h : send buf.length o = (.sent k, o')) :
    writeN buf o = (buf.take k ++ (writeN (buf.drop k) o').1, (writeN (buf.drop k) o').2) := by
  rw [writeN, if_neg hb]
  split <;> simp_all

theorem writeN_interrupted {buf : Bytes} {o o' : Outbox} (hb : buf ≠ [])
    (h : send buf.length o = (.interrupted, o')) : writeN buf o = writeN buf o' := by
  rw [writeN, if_neg hb]
  split <;> simp_all

theorem writeN_error {buf : Bytes} {o o' : Outbox} {what : String} (hb : buf ≠ [])
    (h : send buf.length o = (.error what, o')) :
    writeN buf o = ([], some ("send failed: " ++ what), o') := by
  rw [writeN, if_neg hb]
  split <;> simp_all

theorem writeN_wouldBlock {buf : Bytes} {o o' : Outbox} (hb : buf ≠ [])
    (h : send buf.length o = (.wouldBlock, o')) :
    writeN buf o = ([], some ("send failed: " ++ strerrorAgain), o') := by
  rw [writeN, if_neg hb]
  split <;> simp_all

theorem readN_data {n : ℕ} {i i' i'' : Inbox} {b : UInt8} {bs out : Bytes} (hn : n ≠ 0)
    (h : recv n i = (.data b bs, i')) (hrest : readN (n - (bs.length + 1)) i' = (.ok out, i'')) :
    readN n i = (.ok (b :: bs ++ out), i'') := by
  rw [readN, if_neg hn]
  split <;> simp_all

theorem readN_interrupted {n : ℕ} {i i' : Inbox} (hn : n ≠ 0)
    (h : recv n i = (.interrupted, i')) : readN n i = readN n i' := by
  rw [readN, if_neg hn]
  split <;> simp_all

/-- **Partial sends lose nothing.**  Whatever the counts, the whole buffer goes
on the wire once `WriteN` returns without an error. -/
theorem writeN_flowing (buf : Bytes) {o : Outbox} (h : o.Flowing) :
    ∃ o', writeN buf o = (buf, none, o') ∧ Outbox.Flowing o' := by
  induction hm : o.length + buf.length using Nat.strongRecOn generalizing buf o with
  | _ m ih =>
    by_cases hb : buf = []
    · exact ⟨o, by rw [writeN, if_pos hb, hb], h⟩
    rcases h.send_cases buf.length with ⟨k, o', hs, ho'⟩ | ⟨o', hs, ho'⟩
    · obtain ⟨o'', hw, ho''⟩ := ih _ (hm ▸ Outbox.length_send_sent hs hb) (buf.drop k) ho' rfl
      refine ⟨o'', ?_, ho''⟩
      rw [writeN_sent hb hs, hw, List.take_append_drop]
    · rw [writeN_interrupted hb hs]
      exact ih _ (hm ▸ Nat.add_lt_add_right (Outbox.length_send_interrupted hs) _) buf ho' rfl

/-- **Partial receives lose nothing.**  On a stream that has `n` bytes, `ReadN`
gets the first `n` and leaves the rest. -/
theorem readN_flowing {n : ℕ} {i : Inbox} (h : i.Flowing) (hn : n ≤ i.arrived.length) :
    ∃ i', readN n i = (.ok (i.arrived.take n), i') ∧ Inbox.Flowing i' ∧
      i'.arrived = i.arrived.drop n := by
  induction hm : i.weight using Nat.strongRecOn generalizing n i with
  | _ m ih =>
    by_cases h0 : n = 0
    · exact ⟨i, by rw [readN, if_pos h0, h0, List.take_zero], h, by rw [h0, List.drop_zero]⟩
    rcases h.recv_cases n with ⟨b, bs, i', hr, hi', hlen, ha⟩ | ⟨i', hr, hi', ha⟩ | rfl
    · have hsub : n = (b :: bs).length + (n - (bs.length + 1)) := by
        rw [List.length_cons]
        omega
      have hcount : n - (bs.length + 1) ≤ i'.arrived.length := by
        rw [ha, List.length_append, List.length_cons] at hn
        omega
      obtain ⟨i'', hrn, hi'', ha''⟩ := ih _ (hm ▸ Inbox.weight_recv_data hr) hi' hcount rfl
      refine ⟨i'', ?_, hi'', ?_⟩
      · rw [readN_data h0 hr hrn, ha]
        nth_rewrite 2 [hsub]
        rw [List.take_length_add_append]
      · rw [ha'', ha]
        nth_rewrite 2 [hsub]
        rw [List.drop_length_add_append]
    · rw [readN_interrupted h0 hr, ha]
      exact ih _ (hm ▸ Inbox.weight_recv_interrupted hr) hi' (ha ▸ hn) rfl
    · exact absurd hn (by simp [Inbox.arrived, h0])

/-- `WriteN` returns without an error once everything was taken. -/
theorem writeN_passes {o o' : Outbox} {buf : Bytes} (h : o.passes buf.length = some o') :
    writeN buf o = (buf, none, o') := by
  induction o generalizing buf with
  | nil =>
    cases buf with
    | nil =>
      obtain rfl := Option.some.inj h
      rw [writeN, if_pos rfl]
    | cons b bs =>
      obtain rfl := Option.some.inj h
      rw [writeN_sent (List.cons_ne_nil b bs) rfl, List.take_length, List.drop_length, writeN,
        if_pos rfl, List.append_nil]
  | cons r rest ih =>
    cases buf with
    | nil =>
      obtain rfl := Option.some.inj h
      rw [writeN, if_pos rfl]
    | cons b bs =>
      have hb := List.cons_ne_nil b bs
      cases r with
      | sent k =>
        have hlen : ((b :: bs).drop (min k (b :: bs).length)).length = (b :: bs).length - k := by
          rw [List.length_drop]
          omega
        rw [writeN_sent hb rfl, ih (hlen ▸ h), List.take_append_drop]
      | interrupted => rw [writeN_interrupted hb rfl, ih h]
      | wouldBlock => cases h
      | error what => cases h

/-- `WriteN` that fails has put a part of the buffer on the wire. -/
theorem writeN_stops {o : Outbox} {buf : Bytes} (h : o.passes buf.length = none) :
    ∃ n e o', n < buf.length ∧ writeN buf o = (buf.take n, some e, o') := by
  induction o generalizing buf with
  | nil => cases buf <;> cases h
  | cons r rest ih =>
    cases buf with
    | nil => cases h
    | cons b bs =>
      have hb := List.cons_ne_nil b bs
      have hpos := List.length_pos_iff.2 hb
      cases r with
      | sent k =>
        have hlen : ((b :: bs).drop (min k (b :: bs).length)).length = (b :: bs).length - k := by
          rw [List.length_drop]
          omega
        have hrest : Outbox.passes ((b :: bs).length - k) rest = none := h
        obtain ⟨n, e, o', hn, hw⟩ := ih (hlen ▸ hrest)
        refine ⟨min k (b :: bs).length + n, e, o', by omega, ?_⟩
        rw [writeN_sent hb rfl, hw, List.take_add]
      | interrupted =>
        have hrest : Outbox.passes (b :: bs).length rest = none := h
        obtain ⟨n, e, o', hn, hw⟩ := ih hrest
        exact ⟨n, e, o', hn, by rw [writeN_interrupted hb rfl, hw]⟩
      | wouldBlock => exact ⟨0, _, rest, hpos, writeN_wouldBlock hb rfl⟩
      | error what => exact ⟨0, _, rest, hpos, writeN_error hb rfl⟩

/-- `WriteN` that is refused has put nothing on the wire. -/
theorem writeN_refused {o : Outbox} {buf : Bytes} (hb : buf ≠ []) (h : o.refuses = true) :
    ∃ e o', writeN buf o = ([], some e, o') := by
  induction o with
  | nil => cases h
  | cons r rest ih =>
    cases r with
    | sent k =>
      cases k with
      | zero =>
        obtain ⟨e, o', hw⟩ := ih h
        refine ⟨e, o', ?_⟩
        rw [writeN_sent hb (by rw [send, Nat.zero_min]), List.take_zero, List.drop_zero, hw]
        rfl
      | succ k => cases h
    | interrupted =>
      obtain ⟨e, o', hw⟩ := ih h
      exact ⟨e, o', by rw [writeN_interrupted hb rfl, hw]⟩
    | wouldBlock => exact ⟨_, rest, writeN_wouldBlock hb rfl⟩
    | error what => exact ⟨_, rest, writeN_error hb rfl⟩

/-- The socket takes a part of a frame with a body of `size` bytes, and then
`send` fails. -/
def cutsFrame (size : ℕ) (o : Outbox) : Bool :=
  decide (ValidLength size) && !o.refuses &&
    ((o.passes kFrameHeaderBytes).bind fun o => o.passes size).isNone

variable {M}

/-- **What `WriteMessage` puts on the wire is a prefix of the frame**, and all of
it if there is no error. -/
theorem writeMessage_frame (m : μ) (o : Outbox) :
    (writeMessage M m o).1 <+: frame (M.serialize m) ∧
      ((writeMessage M m o).2.1 = none → (writeMessage M m o).1 = frame (M.serialize m)) := by
  by_cases hm : ValidLength (M.byteSizeLong m)
  · rw [writeMessage, if_neg (not_not.2 hm)]
    cases hheader : o.passes (encodeLength (M.byteSizeLong m)).length with
    | none =>
      obtain ⟨n, e, o', -, hw⟩ := writeN_stops hheader
      rw [hw]
      exact ⟨(List.take_prefix ..).trans (List.prefix_append ..), fun h => by cases h⟩
    | some o' =>
      rw [writeN_passes hheader]
      cases hbody : o'.passes (M.serialize m).length with
      | none =>
        obtain ⟨n, e, o'', -, hw⟩ := writeN_stops hbody
        simp only [hw]
        exact ⟨(List.prefix_append_right_inj _).2 (List.take_prefix ..), fun h => by cases h⟩
      | some o'' =>
        simp only [writeN_passes hbody]
        exact ⟨List.prefix_rfl, fun _ => rfl⟩
  · rw [writeMessage, if_pos hm]
    exact ⟨List.nil_prefix, fun h => by cases h⟩

/-- A frame that is not cut is written, or nothing is. -/
theorem writeMessage_whole {m : μ} {o : Outbox} (h : cutsFrame (M.byteSizeLong m) o = false) :
    (writeMessage M m o).1 = [] ∨ (writeMessage M m o).1 = frame (M.serialize m) := by
  by_cases hm : ValidLength (M.byteSizeLong m)
  · simp only [cutsFrame, hm, decide_true, Bool.true_and, Bool.and_eq_false_iff,
      Bool.not_eq_false', Option.isNone_eq_false_iff] at h
    rw [writeMessage, if_neg (not_not.2 hm)]
    rcases h with h | h
    · have hne : encodeLength (M.byteSizeLong m) ≠ [] := List.cons_ne_nil _ _
      obtain ⟨e, o', hw⟩ := writeN_refused hne h
      rw [hw]
      exact Or.inl rfl
    · obtain ⟨o'', ho⟩ := Option.isSome_iff_exists.1 h
      obtain ⟨o', hheader, hbody⟩ := Option.bind_eq_some_iff.1 ho
      have hheader : o.passes (encodeLength (M.byteSizeLong m)).length = some o' := hheader
      rw [writeN_passes hheader]
      simp only [writeN_passes hbody]
      exact Or.inr rfl
  · rw [writeMessage, if_pos hm]
    exact Or.inl rfl

/-- **`WriteMessage` puts the frame of the message on the wire**, under every
pattern of partial sends. -/
theorem writeMessage_flowing {m : μ} (hm : ValidLength (M.byteSizeLong m)) {o : Outbox}
    (h : o.Flowing) :
    ∃ o', writeMessage M m o = (frame (M.serialize m), none, o') ∧ Outbox.Flowing o' := by
  obtain ⟨o₁, hw₁, ho₁⟩ := writeN_flowing (encodeLength (M.byteSizeLong m)) h
  obtain ⟨o₂, hw₂, ho₂⟩ := writeN_flowing (M.serialize m) ho₁
  refine ⟨o₂, ?_, ho₂⟩
  rw [writeMessage, if_neg (not_not.2 hm), hw₁]
  simp only [hw₂]
  rfl

/-- On a socket that takes everything. -/
theorem writeMessage_all {m : μ} (hm : ValidLength (M.byteSizeLong m)) :
    writeMessage M m [] = (frame (M.serialize m), none, []) := by
  rw [writeMessage, if_neg (not_not.2 hm), writeN_passes (Outbox.passes_nil _)]
  simp only [writeN_passes (Outbox.passes_nil _)]
  rfl

/-- A send that times out after `n` bytes of the header leaves them on the wire. -/
theorem writeMessage_timeout {m : μ} (hm : ValidLength (M.byteSizeLong m)) {n : ℕ}
    (hn : n < kFrameHeaderBytes) :
    writeMessage M m [.sent n, .wouldBlock] =
      ((frame (M.serialize m)).take n, some ("send failed: " ++ strerrorAgain), []) := by
  have hsend : send (encodeLength (M.byteSizeLong m)).length [.sent n, .wouldBlock] =
      (.sent n, [.wouldBlock]) := by
    rw [length_encodeLength, send, Nat.min_eq_left hn.le]
  have hrest : (encodeLength (M.byteSizeLong m)).drop n ≠ [] := by
    rw [ne_eq, List.drop_eq_nil_iff, length_encodeLength]
    omega
  have htake : (frame (M.serialize m)).take n = (encodeLength (M.byteSizeLong m)).take n := by
    refine List.take_append_of_le_length ?_
    rw [length_encodeLength]
    exact hn.le
  have hheader : encodeLength (M.byteSizeLong m) ≠ [] := List.cons_ne_nil _ _
  rw [writeMessage, if_neg (not_not.2 hm), writeN_sent hheader hsend,
    writeN_wouldBlock hrest rfl, htake, List.append_nil]

/-- A message whose size is out of bounds is refused before anything is sent. -/
theorem writeMessage_refused {m : μ} (hm : ¬ ValidLength (M.byteSizeLong m)) (o : Outbox) :
    ∃ e, writeMessage M m o = ([], some e, o) :=
  ⟨_, by rw [writeMessage, if_pos hm]⟩

/-- The messages written one after the other are the stream of their frames. -/
theorem writeMessages_flowing {ms : List μ} (hms : ∀ m ∈ ms, ValidLength (M.byteSizeLong m))
    {o : Outbox} (h : o.Flowing) :
    ∃ o', writeMessages M ms o = (stream (ms.map M.serialize), none, o') := by
  induction ms generalizing o with
  | nil => exact ⟨o, rfl⟩
  | cons m ms ih =>
    obtain ⟨o₁, hw, ho₁⟩ := writeMessage_flowing (hms m (by simp)) h
    obtain ⟨o₂, hrest⟩ := ih (fun m' hm' => hms m' (by simp [hm'])) ho₁
    refine ⟨o₂, ?_⟩
    simp only [writeMessages, hw, hrest]
    rfl

/-- **`ReadMessage` takes one frame off the stream** and leaves what follows it. -/
theorem readMessage_flowing {m : μ} (hp : M.parse (M.serialize m) = some m)
    (hm : ValidLength (M.byteSizeLong m)) {i : Inbox} (h : i.Flowing) {rest : Bytes}
    (ha : i.arrived = frame (M.serialize m) ++ rest) :
    ∃ i', readMessage M i = (.ok m, i') ∧ Inbox.Flowing i' ∧ i'.arrived = rest := by
  have hlen : kFrameHeaderBytes ≤ i.arrived.length := by
    rw [ha, frame, List.append_assoc, List.length_append]
    exact Nat.le_add_right _ _
  obtain ⟨i₁, hr₁, hi₁, ha₁⟩ := readN_flowing h hlen
  have hheader : i.arrived.take kFrameHeaderBytes = encodeLength (M.byteSizeLong m) := by
    rw [ha]
    rfl
  have hdecode : decodeLength (encodeLength (M.byteSizeLong m)) = M.byteSizeLong m := by
    have := decodeLength_encodeLength (M.byteSizeLong m) []
    rw [List.append_nil] at this
    rw [this, Nat.mod_eq_of_lt (lt_of_le_of_lt hm.2 (by decide))]
  have harr : i₁.arrived = M.serialize m ++ rest := by
    rw [ha₁, ha, frame, List.append_assoc, drop_encodeLength_append]
  have hbody : M.byteSizeLong m ≤ i₁.arrived.length := by
    rw [harr, List.length_append]
    exact Nat.le_add_right _ _
  obtain ⟨i₂, hr₂, hi₂, ha₂⟩ := readN_flowing hi₁ hbody
  refine ⟨i₂, ?_, hi₂, ?_⟩
  · rw [readMessage, hr₁, hheader]
    simp only [hdecode, if_neg (not_not.2 hm), hr₂]
    rw [harr, Message.byteSizeLong, List.take_left, hp]
  · rw [ha₂, harr, Message.byteSizeLong, List.drop_left]

/-- Reading as many messages as were framed gives them back and leaves nothing. -/
theorem readMessages_flowing {ms : List μ} (hinv : M.Inverts ms)
    (hms : ∀ m ∈ ms, ValidLength (M.byteSizeLong m)) {i : Inbox} (h : i.Flowing)
    (ha : i.arrived = stream (ms.map M.serialize)) :
    ∃ i', readMessages M ms.length i = (.ok ms, i') ∧ i'.arrived = [] := by
  induction ms generalizing i with
  | nil => exact ⟨i, rfl, ha⟩
  | cons m ms ih =>
    rw [List.map_cons, stream_cons] at ha
    obtain ⟨i₁, hr, hi₁, ha₁⟩ := readMessage_flowing (hinv m (by simp)) (hms m (by simp)) h ha
    obtain ⟨i₂, hrest, ha₂⟩ := ih (fun m' hm' => hinv m' (by simp [hm']))
      (fun m' hm' => hms m' (by simp [hm'])) hi₁ ha₁
    exact ⟨i₂, by simp only [List.length_cons, readMessages, hr, hrest], ha₂⟩

end Protocol
end MiniRpc
