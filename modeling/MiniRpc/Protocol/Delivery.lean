/-
# A stream of frames on its way

The bytes on a socket are the frames of the messages that were written, and a
part of one that is still being written or was given up (`OnTheWay`).  A reader has
a prefix of them: the frames that it took and some bytes more.
`OnTheWay.taken` says that it took the first of the messages, in their order, and
what the next thing is that it can see.
-/

import MiniRpc.Protocol.Frame

namespace MiniRpc
namespace Protocol

open Splitter

/-- The beginning of a frame is no frame yet. -/
theorem cut_of_prefix {body cut rest : Bytes} (h : ValidLength body.length)
    (he : frame body = cut ++ rest) (hne : rest ≠ []) : frameSplitter.cut cut = .more := by
  have hframe : frameSplitter.cut (cut ++ rest) = .item body [] := by
    rw [← he]
    simpa using cut_frame h []
  cases hc : frameSplitter.cut cut with
  | more => rfl
  | bad =>
    rw [frameSplitter.bad_append hc rest] at hframe
    cases hframe
  | item b r =>
    rw [frameSplitter.item_append hc rest] at hframe
    exact absurd (List.append_eq_nil_iff.1 (Cut.item.inj hframe).2).2 hne

/-- Whole frames come before what follows them. -/
theorem split_stream_items {bodies : List Bytes} (h : ∀ b ∈ bodies, ValidLength b.length)
    (rest : Bytes) :
    (frameSplitter.split (stream bodies ++ rest)).items =
      bodies ++ (frameSplitter.split rest).items := by
  have hsplit := split_stream h
  unfold Splitter.split at hsplit ⊢
  rw [Splitter.drive_append rest (by rw [hsplit]), hsplit]
  rfl

/-- Whole frames and part of another one. -/
theorem split_stream_append {bodies : List Bytes} (h : ∀ b ∈ bodies, ValidLength b.length)
    {rest : Bytes} (hrest : frameSplitter.cut rest = .more) :
    frameSplitter.split (stream bodies ++ rest) = ⟨(), bodies, rest, none⟩ := by
  have hsplit := split_stream h
  unfold Splitter.split at hsplit ⊢
  rw [Splitter.drive_append rest (by rw [hsplit]), hsplit]
  dsimp only
  rw [List.nil_append, Splitter.drive_more hrest, List.append_nil]

/-- The items of a drive are bodies of valid frames. -/
theorem drive_sized {σ ω : Type*} {handle : σ → Bytes → σ × Option ω} (s : σ) (xs : Bytes) :
    ∀ body ∈ (frameSplitter.drive handle s xs).items, ValidLength body.length := by
  induction s, xs using drive_induction frameSplitter handle with
  | more s xs hc => simp [drive_more hc]
  | bad s xs hc => simp [drive_bad hc]
  | failed s xs body rest s' why hc hh => simp [drive_failed hc hh]
  | item s xs body rest s' hc hh ih =>
    rw [drive_item hc hh]
    intro b hb
    rcases List.mem_cons.1 hb with rfl | hb
    · exact (eq_frame_of_cut hc).1
    · exact ih b hb

/-- The frames of `bodies`, and the beginning of another one. -/
structure OnTheWay (bodies : List Bytes) (bytes : Bytes) : Prop where
  sized : ∀ body ∈ bodies, ValidLength body.length
  bytes : ∃ tail, bytes = stream bodies ++ tail ∧ frameSplitter.cut tail = .more

theorem OnTheWay.stream {bodies : List Bytes} (h : ∀ body ∈ bodies, ValidLength body.length) :
    OnTheWay bodies (stream bodies) :=
  ⟨h, [], (List.append_nil _).symm, cut_nil⟩

/-- What a reader that has all the bytes has taken are the first messages, and what
it has not taken are the others. -/
theorem OnTheWay.taken_all {all bodies : List Bytes} {bytes rest : Bytes} (h : OnTheWay all bytes)
    (hsized : ∀ body ∈ bodies, ValidLength body.length)
    (hread : Protocol.stream bodies ++ rest = bytes) :
    ∃ others, all = bodies ++ others ∧ OnTheWay others rest := by
  induction bodies generalizing all bytes with
  | nil => exact ⟨all, rfl, by rwa [show rest = bytes from hread]⟩
  | cons body bodies ih =>
    obtain ⟨hall, tail, rfl, htail⟩ := h
    have hbody := hsized body (List.mem_cons_self ..)
    have hfirst : frameSplitter.cut (frame body ++ (Protocol.stream bodies ++ rest)) =
        .item body (Protocol.stream bodies ++ rest) := cut_frame hbody _
    rw [stream_cons, List.append_assoc] at hread
    cases all with
    | nil =>
      rw [hread] at hfirst
      cases htail.symm.trans hfirst
    | cons a as =>
      rw [hread, stream_cons, List.append_assoc, cut_frame (hall a (List.mem_cons_self ..))]
        at hfirst
      obtain ⟨rfl, hrest⟩ := Cut.item.inj hfirst
      have has : OnTheWay as (Protocol.stream as ++ tail) :=
        ⟨fun b hb => hall b (List.mem_cons_of_mem _ hb), tail, rfl, htail⟩
      obtain ⟨others, rfl, hothers⟩ := ih has
        (fun b hb => hsized b (List.mem_cons_of_mem _ hb)) hrest.symm
      exact ⟨others, rfl, hothers⟩

/-- **What a reader has taken** of the bytes on their way are the first messages,
and what it has not taken continues with the others. -/
theorem OnTheWay.taken {all bodies : List Bytes} {bytes rest : Bytes} (h : OnTheWay all bytes)
    (hsized : ∀ body ∈ bodies, ValidLength body.length)
    (hread : Protocol.stream bodies ++ rest <+: bytes) :
    ∃ others, all = bodies ++ others ∧ ∃ more, OnTheWay others (rest ++ more) := by
  obtain ⟨more, hmore⟩ := hread
  obtain ⟨others, hall, hothers⟩ := h.taken_all hsized ((List.append_assoc ..).symm.trans hmore)
  exact ⟨others, hall, more, hothers⟩

/-- No message is left where no frame can be seen. -/
theorem OnTheWay.eq_nil {all : List Bytes} {bytes : Bytes} (h : OnTheWay all bytes)
    (hcut : frameSplitter.cut bytes = .more) : all = [] := by
  obtain ⟨hall, tail, rfl, -⟩ := h
  cases all with
  | nil => rfl
  | cons a as =>
    rw [stream_cons, List.append_assoc, cut_frame (hall a (List.mem_cons_self ..))] at hcut
    cases hcut

/-- A reader of frames on their way sees no bad one. -/
theorem OnTheWay.not_bad {all : List Bytes} {rest more : Bytes}
    (h : OnTheWay all (rest ++ more)) : frameSplitter.cut rest ≠ .bad := by
  intro hbad
  obtain ⟨hall, tail, heq, htail⟩ := h
  have hlong := frameSplitter.bad_append hbad more
  rw [heq] at hlong
  cases all with
  | nil => cases htail.symm.trans hlong
  | cons a as =>
    rw [stream_cons, List.append_assoc, cut_frame (hall a (List.mem_cons_self ..))] at hlong
    cases hlong

/-- The frame that a reader sees is the next message. -/
theorem OnTheWay.next {all : List Bytes} {rest more body after : Bytes}
    (h : OnTheWay all (rest ++ more)) (hcut : frameSplitter.cut rest = .item body after) :
    ∃ others, all = body :: others := by
  obtain ⟨hall, tail, heq, htail⟩ := h
  have hlong := frameSplitter.item_append hcut more
  rw [heq] at hlong
  cases all with
  | nil => cases htail.symm.trans hlong
  | cons a as =>
    rw [stream_cons, List.append_assoc, cut_frame (hall a (List.mem_cons_self ..))] at hlong
    exact ⟨as, congrArg (· :: as) (Cut.item.inj hlong).1⟩

end Protocol
end MiniRpc
