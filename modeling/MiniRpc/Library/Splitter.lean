/-
# Cutting a stream into items as it arrives

A `Splitter` looks at the front of a buffer and says that the first item is not
complete yet, that the buffer is malformed, or which item comes first and what
is left.  More input never changes an answer already given, which is all the
general theory needs.

`drive` takes items off a buffer and hands each to a handler until the buffer
runs short, is malformed, or the handler gives up; `feed` does so for one more
chunk of input.  `drive_append` is the step lemma and `drive_flatten` the run
lemma: feeding a stream chunk by chunk does what driving the whole stream at
once does, whatever the handler and wherever the chunks are cut.
-/

import Mathlib.Data.List.Basic

namespace MiniRpc

/-- What the front of a buffer holds. -/
inductive Cut (β : Type*) where
  | more
  | bad
  | item (body rest : List β)

/-- A way to cut the first item off a buffer that later input does not change. -/
structure Splitter (β : Type*) where
  cut : List β → Cut β
  item_append : ∀ {xs body rest : List β}, cut xs = .item body rest →
    ∀ ys, cut (xs ++ ys) = .item body (rest ++ ys)
  bad_append : ∀ {xs : List β}, cut xs = .bad → ∀ ys, cut (xs ++ ys) = .bad
  rest_lt : ∀ {xs body rest : List β}, cut xs = .item body rest → rest.length < xs.length

namespace Splitter

/-- Why a drive stopped for good: the buffer is malformed, or the handler failed. -/
inductive Stop (ω : Type*) where
  | bad
  | failed (why : ω)
  deriving DecidableEq

/-- Where a drive stands: the handler's state, the items it took, the bytes it
left and why it stopped, if it did. -/
@[ext] structure Progress (σ β ω : Type*) where
  state : σ
  items : List (List β)
  rest : List β
  stop : Option (Stop ω)

variable {σ β ω : Type*} (S : Splitter β) (handle : σ → List β → σ × Option ω)

/-- Take items off `xs` and hand each to the handler, as long as this works. -/
def drive (s : σ) (xs : List β) : Progress σ β ω :=
  match _h : S.cut xs with
  | .more => ⟨s, [], xs, none⟩
  | .bad => ⟨s, [], xs, some .bad⟩
  | .item body rest =>
    match handle s body with
    | (s', some why) => ⟨s', [], xs, some (.failed why)⟩
    | (s', none) => { drive s' rest with items := body :: (drive s' rest).items }
termination_by xs.length
decreasing_by all_goals exact S.rest_lt _h

variable {S handle} {s : σ} {xs : List β}

theorem drive_more (h : S.cut xs = .more) : S.drive handle s xs = ⟨s, [], xs, none⟩ := by
  rw [drive]
  split <;> simp_all

theorem drive_bad (h : S.cut xs = .bad) : S.drive handle s xs = ⟨s, [], xs, some .bad⟩ := by
  rw [drive]
  split <;> simp_all

theorem drive_failed {body rest : List β} (h : S.cut xs = .item body rest) {s' : σ} {why : ω}
    (hh : handle s body = (s', some why)) :
    S.drive handle s xs = ⟨s', [], xs, some (.failed why)⟩ := by
  rw [drive]
  split <;> simp_all

theorem drive_item {body rest : List β} (h : S.cut xs = .item body rest) {s' : σ}
    (hh : handle s body = (s', none)) :
    S.drive handle s xs =
      { S.drive handle s' rest with items := body :: (S.drive handle s' rest).items } := by
  rw [drive]
  split <;> simp_all

variable (S handle) in
/-- **Induction along a drive.** -/
theorem drive_induction {motive : σ → List β → Prop}
    (more : ∀ s xs, S.cut xs = .more → motive s xs)
    (bad : ∀ s xs, S.cut xs = .bad → motive s xs)
    (failed : ∀ s xs body rest s' why, S.cut xs = .item body rest →
      handle s body = (s', some why) → motive s xs)
    (item : ∀ s xs body rest s', S.cut xs = .item body rest → handle s body = (s', none) →
      motive s' rest → motive s xs) : ∀ s xs, motive s xs := by
  intro s xs
  induction hn : xs.length using Nat.strongRecOn generalizing s xs with
  | _ n ih =>
    cases hc : S.cut xs with
    | more => exact more s xs hc
    | bad => exact bad s xs hc
    | item body rest =>
      rcases hh : handle s body with ⟨s', _ | why⟩
      · exact item s xs body rest s' hc hh (ih _ (hn ▸ S.rest_lt hc) s' rest rfl)
      · exact failed s xs body rest s' why hc hh

/-- **What the handler keeps, a drive keeps.** -/
theorem drive_invariant {P : σ → Prop} (step : ∀ s body, P s → P (handle s body).1) (hs : P s) :
    P (S.drive handle s xs).state := by
  induction s, xs using drive_induction S handle with
  | more s xs hc => rwa [drive_more hc]
  | bad s xs hc => rwa [drive_bad hc]
  | failed s xs body rest s' why hc hh =>
    have hstep := step s body hs
    rw [hh] at hstep
    rwa [drive_failed hc hh]
  | item s xs body rest s' hc hh ih =>
    have hstep := step s body hs
    rw [hh] at hstep
    rw [drive_item hc hh]
    exact ih hstep

/-- A drive that stopped stays as it is when more input follows. -/
theorem drive_append_of_stop (ys : List β) (h : (S.drive handle s xs).stop ≠ none) :
    S.drive handle s (xs ++ ys) =
      { S.drive handle s xs with rest := (S.drive handle s xs).rest ++ ys } := by
  induction s, xs using drive_induction S handle with
  | more s xs hc => simp [drive_more hc] at h
  | bad s xs hc => rw [drive_bad hc, drive_bad (S.bad_append hc ys)]
  | failed s xs body rest s' why hc hh =>
    rw [drive_failed hc hh, drive_failed (S.item_append hc ys) hh]
  | item s xs body rest s' hc hh ih =>
    rw [drive_item hc hh] at h ⊢
    rw [drive_item (S.item_append hc ys) hh, ih h]

/-- **One more chunk.**  A drive that ran short goes on from where it stands:
driving `xs ++ ys` is driving `xs`, then its rest followed by `ys`. -/
theorem drive_append (ys : List β) (h : (S.drive handle s xs).stop = none) :
    S.drive handle s (xs ++ ys) =
      { S.drive handle (S.drive handle s xs).state ((S.drive handle s xs).rest ++ ys) with
        items := (S.drive handle s xs).items ++
          (S.drive handle (S.drive handle s xs).state
            ((S.drive handle s xs).rest ++ ys)).items } := by
  induction s, xs using drive_induction S handle with
  | more s xs hc => simp [drive_more hc]
  | bad s xs hc => simp [drive_bad hc] at h
  | failed s xs body rest s' why hc hh => simp [drive_failed hc hh] at h
  | item s xs body rest s' hc hh ih =>
    rw [drive_item hc hh] at h ⊢
    rw [drive_item (S.item_append hc ys) hh, ih h]
    simp

/-- A drive that did not stop left a buffer whose first item is incomplete. -/
theorem cut_rest (h : (S.drive handle s xs).stop = none) :
    S.cut (S.drive handle s xs).rest = .more := by
  induction s, xs using drive_induction S handle with
  | more s xs hc => rw [drive_more hc]; exact hc
  | bad s xs hc => simp [drive_bad hc] at h
  | failed s xs body rest s' why hc hh => simp [drive_failed hc hh] at h
  | item s xs body rest s' hc hh ih =>
    rw [drive_item hc hh] at h ⊢
    exact ih h

variable (S) in
/-- The items of a stream, with nothing done about them. -/
def split (xs : List β) : Progress Unit β Empty := S.drive (fun _ _ => ((), none)) () xs

/-- **A handler that does not give up is handed the items of the stream**, and
leaves and stops where the stream itself makes it. -/
theorem drive_eq_split (h : ∀ why, (S.drive handle s xs).stop ≠ some (.failed why)) :
    (S.drive handle s xs).items = (S.split xs).items ∧
      (S.drive handle s xs).rest = (S.split xs).rest ∧
      ((S.drive handle s xs).stop = none ↔ (S.split xs).stop = none) := by
  unfold split
  induction s, xs using drive_induction S handle with
  | more s xs hc => simp [drive_more hc]
  | bad s xs hc => simp [drive_bad hc]
  | failed s xs body rest s' why hc hh => exact absurd (by rw [drive_failed hc hh]) (h why)
  | item s xs body rest s' hc hh ih =>
    rw [drive_item hc hh] at h ⊢
    rw [drive_item hc rfl]
    obtain ⟨h₁, h₂, h₃⟩ := ih h
    exact ⟨congrArg _ h₁, h₂, h₃⟩

/-- A drive that stopped because the buffer is malformed left the malformed buffer. -/
theorem cut_rest_bad (h : (S.drive handle s xs).stop = some .bad) :
    S.cut (S.drive handle s xs).rest = .bad := by
  induction s, xs using drive_induction S handle with
  | more s xs hc => simp [drive_more hc] at h
  | bad s xs hc => rw [drive_bad hc]; exact hc
  | failed s xs body rest s' why hc hh => simp [drive_failed hc hh] at h
  | item s xs body rest s' hc hh ih =>
    rw [drive_item hc hh] at h ⊢
    exact ih h

/-- A drive that stopped, and not because of the handler, met a malformed buffer. -/
theorem stop_eq_bad {stop : Option (Stop ω)} (h : stop ≠ none)
    (hfailed : ∀ why, stop ≠ some (.failed why)) : stop = some .bad := by
  rcases stop with _ | _ | why
  · exact absurd rfl h
  · rfl
  · exact absurd rfl (hfailed why)

/-- A split stops only at a malformed buffer. -/
theorem split_stop {xs : List β} (h : (S.split xs).stop ≠ none) : (S.split xs).stop = some .bad :=
  stop_eq_bad h fun why => why.elim

/-- More input only adds items. -/
theorem split_items_le (xs ys : List β) : (S.split xs).items <+: (S.split (xs ++ ys)).items := by
  by_cases h : (S.split xs).stop = none
  · rw [split, split, drive_append ys h]
    exact List.prefix_append _ _
  · have hitems : (S.split (xs ++ ys)).items = (S.split xs).items :=
      (congrArg Progress.items (drive_append_of_stop ys h) :)
    exact hitems ▸ List.prefix_rfl

variable (S handle)

/-- One more chunk arrives; a drive that stopped takes no more input. -/
def feed (p : Progress σ β ω) (chunk : List β) : Progress σ β ω :=
  match p.stop with
  | some _ => p
  | none =>
    { S.drive handle p.state (p.rest ++ chunk) with
      items := p.items ++ (S.drive handle p.state (p.rest ++ chunk)).items }

/-- Feed the chunks in turn, starting with an empty buffer. -/
def feedAll (s : σ) (chunks : List (List β)) : Progress σ β ω :=
  chunks.foldl (S.feed handle) ⟨s, [], [], none⟩

variable {S handle}

theorem foldl_feed_of_stop (chunks : List (List β)) {p : Progress σ β ω} (h : p.stop ≠ none) :
    chunks.foldl (S.feed handle) p = p := by
  induction chunks with
  | nil => rfl
  | cons c cs ih =>
    rw [List.foldl_cons, show S.feed handle p c = p from ?_, ih]
    unfold feed
    split <;> simp_all

variable (handle) in
/-- **Feeding chunk by chunk is driving the whole stream.**  The handler reaches
the same state with the same items, the drive stops for the same reason or not
at all, and what is left of the stream is what is left of the buffer and the
chunks that were not looked at. -/
theorem drive_flatten (hnil : S.cut [] = .more) (s : σ) (chunks : List (List β)) :
    ∃ unread, S.drive handle s chunks.flatten =
        { S.feedAll handle s chunks with rest := (S.feedAll handle s chunks).rest ++ unread } ∧
      ((S.feedAll handle s chunks).stop = none → unread = []) := by
  suffices ∀ p : Progress σ β ω, p.stop = none → S.cut p.rest = .more →
      ∃ unread, { S.drive handle p.state (p.rest ++ chunks.flatten) with
          items := p.items ++ (S.drive handle p.state (p.rest ++ chunks.flatten)).items } =
        { chunks.foldl (S.feed handle) p with
          rest := (chunks.foldl (S.feed handle) p).rest ++ unread } ∧
        ((chunks.foldl (S.feed handle) p).stop = none → unread = []) by
    simpa only [feedAll, List.nil_append] using this ⟨s, [], [], none⟩ rfl hnil
  induction chunks with
  | nil =>
    intro p hp hc
    refine ⟨[], ?_, fun _ => rfl⟩
    rw [List.flatten_nil, List.append_nil, drive_more hc]
    simp [hp]
  | cons c cs ih =>
    intro p hp _
    have hf : S.feed handle p c = { S.drive handle p.state (p.rest ++ c) with
        items := p.items ++ (S.drive handle p.state (p.rest ++ c)).items } := by
      unfold feed
      split <;> simp_all
    rw [List.flatten_cons, ← List.append_assoc, List.foldl_cons]
    by_cases hs : (S.drive handle p.state (p.rest ++ c)).stop = none
    · obtain ⟨unread, he, hu⟩ := ih (S.feed handle p c) (by rw [hf]; exact hs)
        (by rw [hf]; exact cut_rest hs)
      refine ⟨unread, ?_, hu⟩
      rw [← he, drive_append _ hs, hf]
      simp
    · have hs' : (S.feed handle p c).stop ≠ none := by rw [hf]; exact hs
      refine ⟨cs.flatten, ?_, fun h => absurd ?_ hs'⟩
      · rw [foldl_feed_of_stop cs hs', drive_append_of_stop _ hs, hf]
      · rwa [foldl_feed_of_stop cs hs'] at h

end Splitter
end MiniRpc
