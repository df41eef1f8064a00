/-
# Frames

The transport format of `src/protocol/codec.h`: a body of 1 byte to 4 MiB behind
its length in four bytes, most significant first.  The same format is written
and read in five places of the repository (`Codec::WriteMessage`,
`Connection::EncodeFrame`; `Codec::ReadMessage`, `Connection::TryParseRequests`,
`HandleReadableFrames`); what they share is said once here, as an instance of
`Splitter`.

`htonl` followed by a copy of the word into the buffer puts the most significant
byte first on every host, and a copy out of the buffer followed by `ntohl`
reverses it, so the pair is modelled by its effect on bytes.
-/

import MiniRpc.Common.RpcError
import MiniRpc.Library.Splitter
import Mathlib.Tactic.Linarith

namespace MiniRpc
namespace Protocol

/-- `kFrameHeaderBytes`. -/
def kFrameHeaderBytes : ℕ := 4

/-- `kMaxFrameSize`. -/
def kMaxFrameSize : ℕ := 4 * 1024 * 1024

/-- A body length the encoders accept and the decoders do not refuse. -/
def ValidLength (n : ℕ) : Prop := 0 < n ∧ n ≤ kMaxFrameSize

instance (n : ℕ) : Decidable (ValidLength n) := inferInstanceAs (Decidable (_ ∧ _))

theorem not_validLength_iff {n : ℕ} : ¬ ValidLength n ↔ n = 0 ∨ kMaxFrameSize < n := by
  unfold ValidLength
  omega

/-- `htonl(static_cast<std::uint32_t>(n))`, as the bytes in memory. -/
def encodeLength (n : ℕ) : Bytes :=
  [UInt8.ofNat (n / 2 ^ 24), UInt8.ofNat (n / 2 ^ 16), UInt8.ofNat (n / 2 ^ 8), UInt8.ofNat n]

/-- `ntohl` of the first four bytes. -/
def decodeLength : Bytes → ℕ
  | b₀ :: b₁ :: b₂ :: b₃ :: _ =>
    b₀.toNat * 2 ^ 24 + b₁.toNat * 2 ^ 16 + b₂.toNat * 2 ^ 8 + b₃.toNat
  | _ => 0

@[simp] theorem length_encodeLength (n : ℕ) : (encodeLength n).length = kFrameHeaderBytes := rfl

@[simp] theorem drop_encodeLength_append (n : ℕ) (xs : Bytes) :
    (encodeLength n ++ xs).drop kFrameHeaderBytes = xs := rfl

/-- The length survives the header, up to the 32 bits of the word. -/
theorem decodeLength_encodeLength (n : ℕ) (xs : Bytes) :
    decodeLength (encodeLength n ++ xs) = n % 2 ^ 32 := by
  simp only [encodeLength, List.cons_append, decodeLength, UInt8.toNat_ofNat']
  omega

theorem decodeLength_append {xs : Bytes} (h : kFrameHeaderBytes ≤ xs.length) (ys : Bytes) :
    decodeLength (xs ++ ys) = decodeLength xs := by
  match xs, h with
  | _ :: _ :: _ :: _ :: _, _ => rfl

/-- The header is determined by the length it announces. -/
theorem encodeLength_decodeLength {xs : Bytes} (h : kFrameHeaderBytes ≤ xs.length) :
    encodeLength (decodeLength xs) = xs.take kFrameHeaderBytes := by
  match xs, h with
  | b₀ :: b₁ :: b₂ :: b₃ :: rest, _ =>
    have h₀ := b₀.toNat_lt
    have h₁ := b₁.toNat_lt
    have h₂ := b₂.toNat_lt
    have h₃ := b₃.toNat_lt
    simp only [decodeLength, encodeLength, kFrameHeaderBytes, List.take_succ_cons, List.take_zero,
      List.cons.injEq, and_true, ← UInt8.toNat_inj, UInt8.toNat_ofNat']
    omega

/-- The frame of a body. -/
def frame (body : Bytes) : Bytes := encodeLength body.length ++ body

/-- The frames of a list of bodies, one after the other. -/
def stream (bodies : List Bytes) : Bytes := bodies.flatMap frame

@[simp] theorem stream_nil : stream [] = [] := rfl

@[simp] theorem stream_cons (body : Bytes) (bodies : List Bytes) :
    stream (body :: bodies) = frame body ++ stream bodies := rfl

/-- The first frame of a buffer, as all three decoders see it: the header is
checked as soon as it is complete, the body taken as soon as it is. -/
def cutFrame (xs : Bytes) : Cut UInt8 :=
  if xs.length < kFrameHeaderBytes then .more
  else if ¬ ValidLength (decodeLength xs) then .bad
  else if xs.length < kFrameHeaderBytes + decodeLength xs then .more
  else .item ((xs.drop kFrameHeaderBytes).take (decodeLength xs))
    (xs.drop (kFrameHeaderBytes + decodeLength xs))

theorem cutFrame_eq_item {xs body rest : Bytes} (h : cutFrame xs = .item body rest) :
    kFrameHeaderBytes ≤ xs.length ∧ ValidLength (decodeLength xs) ∧
      kFrameHeaderBytes + decodeLength xs ≤ xs.length ∧
      body = (xs.drop kFrameHeaderBytes).take (decodeLength xs) ∧
      rest = xs.drop (kFrameHeaderBytes + decodeLength xs) := by
  unfold cutFrame at h
  split_ifs at h with h₁ h₂ h₃
  obtain ⟨rfl, rfl⟩ := Cut.item.inj h
  exact ⟨by omega, h₂, by omega, rfl, rfl⟩

theorem cutFrame_eq_bad {xs : Bytes} (h : cutFrame xs = .bad) :
    kFrameHeaderBytes ≤ xs.length ∧ ¬ ValidLength (decodeLength xs) := by
  unfold cutFrame at h
  split_ifs at h with h₁ h₂ h₃
  exact ⟨by omega, h₂⟩

/-- The framing of the transport. -/
def frameSplitter : Splitter UInt8 where
  cut := cutFrame
  item_append := by
    intro xs body rest h ys
    obtain ⟨h₁, h₂, h₃, rfl, rfl⟩ := cutFrame_eq_item h
    have hl := decodeLength_append h₁ ys
    have ht : decodeLength xs ≤ (xs.drop kFrameHeaderBytes).length := by
      rw [List.length_drop]; omega
    unfold cutFrame
    rw [hl, List.length_append, if_neg (by omega), if_neg (not_not.2 h₂), if_neg (by omega),
      List.drop_append_of_le_length h₁, List.take_append_of_le_length ht,
      List.drop_append_of_le_length h₃]
  bad_append := by
    intro xs h ys
    obtain ⟨h₁, h₂⟩ := cutFrame_eq_bad h
    unfold cutFrame
    rw [decodeLength_append h₁ ys, List.length_append, if_neg (by omega), if_pos h₂]
  rest_lt := by
    intro xs body rest h
    obtain ⟨h₁, ⟨h₂, -⟩, h₃, -, rfl⟩ := cutFrame_eq_item h
    rw [List.length_drop]
    omega

/-! ### The four answers, in the order in which the decoders ask -/

theorem cut_of_short {xs : Bytes} (h : xs.length < kFrameHeaderBytes) :
    frameSplitter.cut xs = .more :=
  if_pos h

theorem cut_of_invalid {xs : Bytes} (h₁ : kFrameHeaderBytes ≤ xs.length)
    (h₂ : ¬ ValidLength (decodeLength xs)) : frameSplitter.cut xs = .bad := by
  change cutFrame xs = .bad
  rw [cutFrame, if_neg (by omega), if_pos h₂]

theorem cut_of_incomplete {xs : Bytes} (h₁ : kFrameHeaderBytes ≤ xs.length)
    (h₂ : ValidLength (decodeLength xs))
    (h₃ : xs.length < kFrameHeaderBytes + decodeLength xs) : frameSplitter.cut xs = .more := by
  change cutFrame xs = .more
  rw [cutFrame, if_neg (by omega), if_neg (not_not.2 h₂), if_pos h₃]

theorem cut_of_complete {xs : Bytes} (h₂ : ValidLength (decodeLength xs))
    (h₃ : kFrameHeaderBytes + decodeLength xs ≤ xs.length) :
    frameSplitter.cut xs = .item ((xs.drop kFrameHeaderBytes).take (decodeLength xs))
      (xs.drop (kFrameHeaderBytes + decodeLength xs)) := by
  change cutFrame xs = .item _ _
  rw [cutFrame, if_neg (by omega), if_neg (not_not.2 h₂), if_neg (by omega)]

/-- The first frame of a buffer is the frame of its body. -/
theorem eq_frame_of_cut {xs body rest : Bytes} (h : frameSplitter.cut xs = .item body rest) :
    ValidLength body.length ∧ xs = frame body ++ rest := by
  obtain ⟨h₁, h₂, h₃, rfl, rfl⟩ := cutFrame_eq_item h
  have hl : ((xs.drop kFrameHeaderBytes).take (decodeLength xs)).length = decodeLength xs := by
    rw [List.length_take, List.length_drop]
    omega
  refine ⟨by rw [hl]; exact h₂, ?_⟩
  rw [frame, hl, encodeLength_decodeLength h₁, List.append_assoc, ← List.drop_drop,
    List.take_append_drop, List.take_append_drop]

theorem cut_nil : frameSplitter.cut [] = .more := rfl

/-- A frame is cut off whole, whatever follows it. -/
theorem cut_frame {body : Bytes} (h : ValidLength body.length) (rest : Bytes) :
    frameSplitter.cut (frame body ++ rest) = .item body rest := by
  have hn : decodeLength (frame body ++ rest) = body.length := by
    rw [frame, List.append_assoc, decodeLength_encodeLength, Nat.mod_eq_of_lt]
    exact lt_of_le_of_lt h.2 (by decide)
  have hl : (frame body ++ rest).length = kFrameHeaderBytes + body.length + rest.length := by
    simp [frame, Nat.add_assoc]
  change cutFrame (frame body ++ rest) = .item body rest
  unfold cutFrame
  rw [hn, hl, if_neg (by omega), if_neg (not_not.2 h), if_neg (by omega), frame]
  simp [List.append_assoc, ← List.drop_drop]

/-- A buffer whose first frame is incomplete is shorter than the longest frame. -/
theorem length_of_cut_more {xs : Bytes} (h : frameSplitter.cut xs = .more) :
    xs.length < kFrameHeaderBytes + kMaxFrameSize := by
  change cutFrame xs = .more at h
  unfold cutFrame at h
  split_ifs at h with h₁ h₂ h₃
  · omega
  · exact lt_of_lt_of_le h₃ (Nat.add_le_add_left h₂.2 _)

/-- A buffer whose first frame is incomplete is a strict prefix of a frame: the
frame its header announces, or one the few bytes of a header leave open. -/
theorem prefix_of_cut_more {xs : Bytes} (h : frameSplitter.cut xs = .more) :
    ∃ body rest, rest ≠ [] ∧ frame body = xs ++ rest := by
  change cutFrame xs = .more at h
  unfold cutFrame at h
  split_ifs at h with h₁ h₂ h₃
  · obtain ⟨pad, hpad⟩ : ∃ pad : Bytes, pad.length = kFrameHeaderBytes - xs.length :=
      ⟨List.replicate _ 0, List.length_replicate⟩
    have hlen : (xs ++ pad).length = kFrameHeaderBytes := by
      rw [List.length_append]
      omega
    have henc := encodeLength_decodeLength hlen.ge
    rw [List.take_of_length_le hlen.le] at henc
    refine ⟨List.replicate (decodeLength (xs ++ pad)) 0,
      pad ++ List.replicate (decodeLength (xs ++ pad)) 0, ?_, ?_⟩
    · intro hnil
      rw [(List.append_eq_nil_iff.1 hnil).1, List.length_nil] at hpad
      omega
    · rw [frame, List.length_replicate, henc, List.append_assoc]
  · refine ⟨xs.drop kFrameHeaderBytes ++
      List.replicate (kFrameHeaderBytes + decodeLength xs - xs.length) 0,
      List.replicate (kFrameHeaderBytes + decodeLength xs - xs.length) 0, ?_, ?_⟩
    · have : 0 < kFrameHeaderBytes + decodeLength xs - xs.length := by omega
      simp [this.ne']
    · have hl : (xs.drop kFrameHeaderBytes ++
          List.replicate (kFrameHeaderBytes + decodeLength xs - xs.length) (0 : UInt8)).length =
            decodeLength xs := by
        simp only [List.length_append, List.length_drop, List.length_replicate]
        omega
      rw [frame, hl, encodeLength_decodeLength (by omega), ← List.append_assoc,
        List.take_append_drop]

open Splitter

/-- **The frames of valid bodies are split into the bodies**, with nothing left. -/
theorem split_stream {bodies : List Bytes} (h : ∀ b ∈ bodies, ValidLength b.length) :
    frameSplitter.split (stream bodies) = ⟨(), bodies, [], none⟩ := by
  induction bodies with
  | nil => exact drive_more cut_nil
  | cons b bs ih =>
    have hb := cut_frame (h b (by simp)) (stream bs)
    rw [stream_cons, split, drive_item hb rfl]
    have := ih fun b' hb' => h b' (by simp [hb'])
    rw [split] at this
    rw [this]

theorem split_frame {body : Bytes} (h : ValidLength body.length) :
    frameSplitter.split (frame body) = ⟨(), [body], [], none⟩ := by
  have hsplit : frameSplitter.split (stream [body]) = ⟨(), [body], [], none⟩ :=
    split_stream (by simpa using h)
  rwa [stream_cons, stream_nil, List.append_nil] at hsplit

/-- What a drive took and what it left make up the stream. -/
theorem stream_items_append_rest {σ ω : Type*} {handle : σ → Bytes → σ × Option ω} (s : σ)
    (xs : Bytes) : stream (frameSplitter.drive handle s xs).items ++
      (frameSplitter.drive handle s xs).rest = xs := by
  induction s, xs using drive_induction frameSplitter handle with
  | more s xs hc => rw [drive_more hc]; rfl
  | bad s xs hc => rw [drive_bad hc]; rfl
  | failed s xs body rest s' why hc hh => rw [drive_failed hc hh]; rfl
  | item s xs body rest s' hc hh ih =>
    rw [drive_item hc hh, stream_cons, List.append_assoc, ih]
    exact (eq_frame_of_cut hc).2.symm

end Protocol
end MiniRpc
