/-
# The reading side of a dispatcher

The buffer of `DispatcherLoop` in `src/client/rpc_client.cpp`, for a dispatcher
that goes step by step (`MiniRpc.Client.Lifecycle`): each `recv` adds to it, and
`HandleReadableFrames` looks at it from an offset on that it keeps for as long as
it runs.  `handleReadableFrames_steps` says that its steps, one after the other,
do what the function does at once (`MiniRpc.Client.Dispatcher`).
-/

import MiniRpc.Client.Lifecycle
import MiniRpc.Protocol.Delivery

namespace MiniRpc
namespace EndToEnd

open Protocol Splitter Client Transition

/-- `read_buffer`, the offset of `HandleReadableFrames`, and the bodies that it
took so far. -/
structure Reader where
  readBuffer : Bytes := []
  offset : ℕ := 0
  bodies : List Bytes := []

namespace Reader

/-- `read_buffer.append` after a `recv`. -/
def recv (r : Reader) (arrived : Bytes) : Reader := { r with readBuffer := r.readBuffer ++ arrived }

/-- What `HandleReadableFrames` looks at next. -/
def unread (r : Reader) : Bytes := r.readBuffer.drop r.offset

/-- What a step of the dispatcher finds in the buffer and does to it, `none` if the
step is not the one that the buffer asks for. -/
def step (M : Message RpcResponse) (r : Reader) : DispatcherStep → Option Reader
  | .response message =>
    match frameSplitter.cut r.unread with
    | .item body _ =>
      if M.parse body = some message then
        some { r with
          offset := r.offset + (kFrameHeaderBytes + body.length), bodies := r.bodies ++ [body] }
      else none
    | _ => none
  | .badLength =>
    match frameSplitter.cut r.unread with
    | .bad => some { r with offset := 0 }
    | _ => none
  | .badBody =>
    match frameSplitter.cut r.unread with
    | .item body _ => if M.parse body = none then some { r with offset := 0 } else none
    | _ => none
  | .framesDone =>
    match frameSplitter.cut r.unread with
    | .more => some { r with readBuffer := r.unread, offset := 0 }
    | _ => none
  | _ => some r

variable {M : Message RpcResponse} {r r' : Reader}

/-- What a step does: it takes a frame, gives up what it took before, or does
nothing.  Only a malformed frame ends the frames anywhere else than where the
unread bytes begin. -/
theorem step_cases {a : DispatcherStep} (h : r.step M a = some r') :
    (∃ message body rest, a = .response message ∧ frameSplitter.cut r.unread = .item body rest ∧
      M.parse body = some message ∧ r'.unread = rest ∧ r'.readBuffer = r.readBuffer ∧
      r'.bodies = r.bodies ++ [body]) ∨
    (a = .badLength ∧ frameSplitter.cut r.unread = .bad ∧ r' = { r with offset := 0 }) ∨
    (∃ body rest, a = .badBody ∧ frameSplitter.cut r.unread = .item body rest ∧
      M.parse body = none ∧ r' = { r with offset := 0 }) ∨
    (r'.unread = r.unread ∧ r'.bodies = r.bodies ∧ a ≠ .badLength ∧ a ≠ .badBody ∧
      ∀ message, a ≠ .response message) := by
  cases a with
  | response message =>
    simp only [step] at h
    cases hcut : frameSplitter.cut r.unread with
    | item body rest =>
      rw [hcut] at h
      dsimp only at h
      split_ifs at h with hparse
      obtain rfl := Option.some.inj h
      refine Or.inl ⟨message, body, rest, rfl, rfl, hparse, ?_, rfl, rfl⟩
      have heq := (eq_frame_of_cut hcut).2
      show r.readBuffer.drop (r.offset + (kFrameHeaderBytes + body.length)) = rest
      rw [← List.drop_drop, show r.readBuffer.drop r.offset = frame body ++ rest from heq]
      exact List.drop_left' (by simp [frame])
    | more => simp [hcut] at h
    | bad => simp [hcut] at h
  | badLength =>
    simp only [step] at h
    cases hcut : frameSplitter.cut r.unread with
    | bad =>
      rw [hcut] at h
      exact Or.inr (Or.inl ⟨rfl, rfl, (Option.some.inj h).symm⟩)
    | more => simp [hcut] at h
    | item body rest => simp [hcut] at h
  | badBody =>
    simp only [step] at h
    cases hcut : frameSplitter.cut r.unread with
    | item body rest =>
      rw [hcut] at h
      dsimp only at h
      split_ifs at h with hparse
      exact Or.inr (Or.inr (Or.inl ⟨body, rest, rfl, rfl, hparse, (Option.some.inj h).symm⟩))
    | more => simp [hcut] at h
    | bad => simp [hcut] at h
  | framesDone =>
    simp only [step] at h
    cases hcut : frameSplitter.cut r.unread with
    | more =>
      rw [hcut] at h
      obtain rfl := Option.some.inj h
      exact Or.inr (Or.inr (Or.inr ⟨rfl, rfl, by simp, by simp, by simp⟩))
    | bad => simp [hcut] at h
    | item body rest => simp [hcut] at h
  | _ =>
    obtain rfl := Option.some.inj h
    exact Or.inr (Or.inr (Or.inr ⟨rfl, rfl, by simp, by simp, by simp⟩))

/-- The offset stays within the buffer. -/
theorem step_offset {a : DispatcherStep} (h : r.step M a = some r')
    (hr : r.offset ≤ r.readBuffer.length) : r'.offset ≤ r'.readBuffer.length := by
  unfold step at h
  split at h
  · split at h
    · rename_i body rest hcut
      split_ifs at h
      obtain rfl := Option.some.inj h
      have hlen := congrArg List.length (eq_frame_of_cut hcut).2
      have hframe : (frame body).length = kFrameHeaderBytes + body.length := by simp [frame]
      rw [unread, List.length_drop, List.length_append, hframe] at hlen
      dsimp only
      have : 0 < kFrameHeaderBytes := by decide
      omega
    · cases h
  · split at h <;> cases h
    exact Nat.zero_le _
  · split at h
    · split_ifs at h
      obtain rfl := Option.some.inj h
      exact Nat.zero_le _
    · cases h
  · split at h <;> cases h
    exact Nat.zero_le _
  · obtain rfl := Option.some.inj h
    exact hr

/-- What is received comes after what was unread. -/
theorem unread_recv (hr : r.offset ≤ r.readBuffer.length) (arrived : Bytes) :
    (r.recv arrived).unread = r.unread ++ arrived :=
  List.drop_append_of_le_length hr

/-- A step that takes the next frame. -/
theorem step_response {body rest : Bytes} {message : RpcResponse}
    (hcut : frameSplitter.cut r.unread = .item body rest) (hparse : M.parse body = some message) :
    ∃ r', r.step M (.response message) = some r' ∧ r'.unread = rest ∧
      r'.readBuffer = r.readBuffer ∧ r'.bodies = r.bodies ++ [body] := by
  have hstep : r.step M (.response message) = some { r with
      offset := r.offset + (kFrameHeaderBytes + body.length), bodies := r.bodies ++ [body] } := by
    simp only [step, hcut, if_pos hparse]
  refine ⟨_, hstep, ?_, rfl, rfl⟩
  rcases step_cases hstep with ⟨_, _, _, ⟨⟩, hcut', -, hunread, -⟩ | ⟨⟨⟩, -⟩ | ⟨_, _, ⟨⟩, -⟩ | h
  · exact hunread.trans (Cut.item.inj (hcut'.symm.trans hcut)).2
  · exact absurd rfl (h.2.2.2.2 message)

/-- The step that ends `HandleReadableFrames` for a drive that stops so. -/
def lastStep : Option (Stop RpcCallResult) → DispatcherStep
  | none => .framesDone
  | some .bad => .badLength
  | some (.failed _) => .badBody

/-- The steps of a dispatcher that drives the frame splitter. -/
theorem exec_drive {α : Type*} (s : PendingCalls α × List (Wake α)) (xs : Bytes) (r : Reader)
    (hr : r.unread = xs) :
    ∃ r', exec (step M) r ((Dispatcher.responses M xs).map .response) = some r' ∧
      r'.unread = (frameSplitter.drive (Dispatcher.handleBody M) s xs).rest ∧
      r'.readBuffer = r.readBuffer ∧
      r'.bodies = r.bodies ++ (frameSplitter.drive (Dispatcher.handleBody M) s xs).items ∧
      r'.step M (lastStep (frameSplitter.drive (Dispatcher.handleBody M) s xs).stop) =
        some { r' with
          offset := 0
          readBuffer := if (frameSplitter.drive (Dispatcher.handleBody M) s xs).stop = none then
            r'.unread else r'.readBuffer } := by
  unfold Dispatcher.responses split
  induction s, xs using drive_induction frameSplitter (Dispatcher.handleBody M) generalizing r with
  | more s xs hc =>
    rw [drive_more hc, drive_more hc]
    refine ⟨r, rfl, hr, rfl, (List.append_nil _).symm, ?_⟩
    simp only [lastStep, step, hr, hc, if_true]
  | bad s xs hc =>
    rw [drive_bad hc, drive_bad hc]
    refine ⟨r, rfl, hr, rfl, (List.append_nil _).symm, ?_⟩
    simp [lastStep, step, hr, hc]
  | failed s xs body rest s' why hc hh =>
    have hparse : M.parse body = none := by
      cases hp : M.parse body with
      | none => rfl
      | some response =>
        rw [Dispatcher.handleBody, hp] at hh
        cases (Prod.mk.inj hh).2
    rw [drive_failed hc hh, drive_item hc rfl]
    refine ⟨r, by simp [Dispatcher.parsed, hparse], hr, rfl, (List.append_nil _).symm, ?_⟩
    simp [lastStep, step, hr, hc, hparse]
  | item s xs body rest s' hc hh ih =>
    cases hp : M.parse body with
    | none =>
      rw [Dispatcher.handleBody, hp] at hh
      cases (Prod.mk.inj hh).2
    | some response =>
      obtain ⟨r₁, hstep, hunread, hbuffer, hbodies⟩ := step_response (hr ▸ hc) hp
      obtain ⟨r₂, hexec, hrest, hbuffer₂, hbodies₂, hlast⟩ := ih r₁ hunread
      rw [drive_item hc hh, drive_item hc rfl]
      refine ⟨r₂, ?_, hrest, hbuffer₂.trans hbuffer, ?_, hlast⟩
      · simp only [Dispatcher.parsed, hp, List.map_cons, exec_cons, hstep, Option.bind_some]
        exact hexec
      · rw [hbodies₂, hbodies, List.append_assoc]
        rfl

/-- **The steps of the reader are `HandleReadableFrames`**: one for each response
in the buffer, up to the first malformed frame, and one for how the function
returns. -/
theorem handleReadableFrames_steps {α : Type*} (d : Dispatcher α) :
    ∃ last, (last = .framesDone ↔ (d.handleReadableFrames M).2 = true) ∧
      exec (step M) ⟨d.readBuffer, 0, d.bodies⟩
        ((Dispatcher.responses M d.readBuffer).map .response ++ [last]) =
        some ⟨(d.handleReadableFrames M).1.readBuffer, 0, (d.handleReadableFrames M).1.bodies⟩ := by
  obtain ⟨r', hexec, hunread, hbuffer, hbodies, hlast⟩ := exec_drive (M := M) (d.pending, d.wakes)
    d.readBuffer ⟨d.readBuffer, 0, d.bodies⟩ rfl
  obtain ⟨activity, clock, hframes⟩ := d.handleReadableFrames_eq M
  rw [hframes]
  generalize frameSplitter.drive (Dispatcher.handleBody M) (d.pending, d.wakes) d.readBuffer = q
    at hunread hbodies hlast
  refine ⟨lastStep q.stop, ?_, ?_⟩
  · rcases q.stop with _ | _ | why <;> simp [lastStep, Dispatcher.stopFailure]
  · refine exec_concat.2 ⟨r', hexec, hlast.trans ?_⟩
    rw [hbodies, hbuffer, hunread]
    rcases q.stop with _ | _ | why <;> rfl

end Reader
end EndToEnd
end MiniRpc
