/-
# JSON texts

The form of the texts that a JSON serializer writes without blanks, as far as the
bytes go that give a text its structure: quotes and backslashes, brackets, commas and
colons.  What a number looks like is left open.

A text that begins behind a colon of another one does not end where that one ends
(`JsonText.not_colon_suffix`): a reader that counts the open brackets and knows whether it
is in a string cannot come to the same end from both.  So a text can be told from the
name and the colon in front of it, whatever colons the name has.
-/

import Mathlib.Data.List.Basic
import Mathlib.Data.Int.Notation

namespace MiniRpc

namespace Ascii

def quote : UInt8 := 34
def comma : UInt8 := 44
def colon : UInt8 := 58
def openArray : UInt8 := 91
def backslash : UInt8 := 92
def closeArray : UInt8 := 93
def openObject : UInt8 := 123
def closeObject : UInt8 := 125

end Ascii

open Ascii

/-- The bytes that have a meaning where no string is. -/
def structuralBytes : List UInt8 :=
  [quote, colon, openArray, backslash, closeArray, openObject, closeObject]

/-- What stands between the quotes of a string. -/
inductive StringBody : List UInt8 → Prop where
  | nil : StringBody []
  | plain {b : UInt8} {rest : List UInt8} (hquote : b ≠ quote) (hbackslash : b ≠ backslash)
      (hrest : StringBody rest) : StringBody (b :: rest)
  | escape (b : UInt8) {rest : List UInt8} (hrest : StringBody rest) :
      StringBody (backslash :: b :: rest)

/-- A string in its quotes. -/
def quoted (body : List UInt8) : List UInt8 := quote :: (body ++ [quote])

/-- Texts with commas between them. -/
def listed : List (List UInt8) → List UInt8
  | [] => []
  | [text] => text
  | text :: texts => text ++ comma :: listed texts

/-- The text of a JSON value. -/
inductive JsonText : List UInt8 → Prop where
  | scalar {text : List UInt8} (h : ∀ b ∈ text, b ∉ structuralBytes) : JsonText text
  | string {body : List UInt8} (h : StringBody body) : JsonText (quoted body)
  | array {items : List (List UInt8)} (h : ∀ item ∈ items, JsonText item) :
      JsonText (openArray :: (listed items ++ [closeArray]))
  | object {members : List (List UInt8 × List UInt8)}
      (hkeys : ∀ m ∈ members, StringBody m.1) (h : ∀ m ∈ members, JsonText m.2) :
      JsonText (openObject ::
        (listed (members.map fun m => quoted m.1 ++ colon :: m.2) ++ [closeObject]))

/-! ### A reader of texts -/

/-- Where a reader of a text is, with the number of open brackets. -/
inductive Reader where
  | outside (depth : ℕ)
  | inString (depth : ℕ)
  | escaped (depth : ℕ)
  | stuck
  deriving DecidableEq, Repr

namespace Reader

/-- One byte; outside of all brackets there are no colons, and outside of strings no
backslashes. -/
def read : Reader → UInt8 → Reader
  | outside depth, b =>
    if b = quote then inString depth
    else if b = backslash then stuck
    else if b = openArray ∨ b = openObject then outside (depth + 1)
    else if b = closeArray ∨ b = closeObject then
      if depth = 0 then stuck else outside (depth - 1)
    else if b = colon ∧ depth = 0 then stuck
    else outside depth
  | inString depth, b =>
    if b = quote then outside depth else if b = backslash then escaped depth else inString depth
  | escaped depth, _ => inString depth
  | stuck, _ => stuck

/-- A whole text. -/
def readAll (r : Reader) (text : List UInt8) : Reader := text.foldl read r

@[simp] theorem readAll_cons (r : Reader) (b : UInt8) (text : List UInt8) :
    r.readAll (b :: text) = (r.read b).readAll text := rfl

@[simp] theorem readAll_append (r : Reader) (s t : List UInt8) :
    r.readAll (s ++ t) = (r.readAll s).readAll t := List.foldl_append

@[simp] theorem readAll_stuck (text : List UInt8) : stuck.readAll text = stuck := by
  induction text with
  | nil => rfl
  | cons b text ih => exact ih

/-- The reader is in a string, or stuck. -/
def Inside (r : Reader) : Prop := r = stuck ∨ ∃ depth, r = inString depth

/-- The reader is outside of strings, or stuck. -/
def Outside (r : Reader) : Prop := r = stuck ∨ ∃ depth, r = outside depth

/-- A quote leads out of a string, and into one. -/
theorem Inside.quote {r : Reader} (h : r.Inside) : (r.read quote).Outside := by
  rcases h with rfl | ⟨depth, rfl⟩
  · exact Or.inl rfl
  · exact Or.inr ⟨depth, rfl⟩

theorem Outside.quote {r : Reader} (h : r.Outside) : (r.read quote).Inside := by
  rcases h with rfl | ⟨depth, rfl⟩
  · exact Or.inl rfl
  · exact Or.inr ⟨depth, rfl⟩

/-- In a string the other bytes have no meaning. -/
theorem Inside.plain {r : Reader} (h : r.Inside) {b : UInt8} (hquote : b ≠ Ascii.quote)
    (hbackslash : b ≠ backslash) : (r.read b).Inside := by
  rcases h with rfl | ⟨depth, rfl⟩
  · exact Or.inl rfl
  · exact Or.inr ⟨depth, by simp [read, hquote, hbackslash]⟩

/-- No byte but a quote leads into a string. -/
theorem Outside.plain {r : Reader} (h : r.Outside) {b : UInt8} (hquote : b ≠ Ascii.quote) :
    (r.read b).Outside := by
  rcases h with rfl | ⟨depth, rfl⟩
  · exact Or.inl rfl
  · rw [read, if_neg hquote]
    split_ifs
    · exact Or.inl rfl
    · exact Or.inr ⟨depth + 1, rfl⟩
    · exact Or.inl rfl
    · exact Or.inr ⟨depth - 1, rfl⟩
    · exact Or.inl rfl
    · exact Or.inr ⟨depth, rfl⟩

end Reader

/-! ### What a text does to the reader -/

open Reader

/-- The body of a string, read in the string, and read as if it were none. -/
theorem StringBody.readAll {body : List UInt8} (h : StringBody body) :
    (∀ depth, (inString depth).readAll body = inString depth) ∧
      ∀ r : Reader, r.Outside → (r.readAll body).Outside := by
  induction h with
  | nil => exact ⟨fun _ => rfl, fun _ hr => hr⟩
  | plain hquote hbackslash _ ih =>
    constructor
    · intro depth
      simpa [Reader.read, hquote, hbackslash] using ih.1 depth
    · intro r hr
      exact ih.2 _ (hr.plain hquote)
  | escape b _ ih =>
    constructor
    · exact ih.1
    · -- outside of a string, the backslash stops the reader
      rintro r (rfl | ⟨depth, rfl⟩)
      · exact Or.inl (readAll_stuck _)
      · exact Or.inl (readAll_stuck _)

/-- A text leads a reader outside of strings back to where it was, and does not lead a reader
out of a string. -/
structure Steady (text : List UInt8) : Prop where
  outside : ∀ depth, (Reader.outside depth).readAll text = Reader.outside depth
  inside : ∀ r : Reader, r.Inside → (r.readAll text).Inside

theorem steady_quoted {body : List UInt8} (h : StringBody body) : Steady (quoted body) where
  outside := by
    intro depth
    have hbody := h.readAll.1 depth
    rw [quoted, readAll_cons, readAll_append]
    show ((inString depth).readAll body).readAll [quote] = _
    rw [hbody]
    rfl
  inside := by
    intro r hr
    rw [quoted, readAll_cons, readAll_append]
    exact (h.readAll.2 _ hr.quote).quote

/-- What texts with commas between them do to a reader that each of them, and a comma, leaves
as it wants it. -/
theorem readAll_listed {P : Reader → Prop} {texts : List (List UInt8)}
    (htexts : ∀ text ∈ texts, ∀ r, P r → P (r.readAll text))
    (hcomma : ∀ r, P r → P (r.read comma)) {r : Reader} (hr : P r) :
    P (r.readAll (listed texts)) := by
  induction texts using listed.induct generalizing r with
  | case1 => exact hr
  | case2 text => exact htexts text (List.mem_singleton_self _) r hr
  | case3 text texts _ ih =>
    rw [listed, readAll_append, readAll_cons]
    · refine ih (fun t ht => htexts t (List.mem_cons_of_mem _ ht)) (hcomma _ ?_)
      exact htexts text List.mem_cons_self r hr
    · assumption

/-- **Every text is steady.** -/
theorem JsonText.steady {text : List UInt8} (h : JsonText text) : Steady text := by
  induction h with
  | @scalar text hplain =>
    induction text with
    | nil => exact ⟨fun _ => rfl, fun _ hr => hr⟩
    | cons b text ih =>
      have hb := hplain b List.mem_cons_self
      obtain ⟨houtside, hinside⟩ := ih fun c hc => hplain c (List.mem_cons_of_mem _ hc)
      simp only [structuralBytes, List.mem_cons, List.not_mem_nil, or_false, not_or] at hb
      constructor
      · intro depth
        rw [readAll_cons]
        simpa [Reader.read, hb] using houtside depth
      · intro r hr
        exact hinside _ (hr.plain hb.1 hb.2.2.2.1)
  | string h => exact steady_quoted h
  | @array items _ ih =>
    constructor
    · intro depth
      have hitems : (Reader.outside (depth + 1)).readAll (listed items) = .outside (depth + 1) := by
        refine readAll_listed (P := (· = Reader.outside (depth + 1))) ?_ ?_ rfl
        · rintro item hitem _ rfl
          exact (ih item hitem).outside _
        · rintro _ rfl
          rfl
      rw [readAll_cons, readAll_append]
      show ((Reader.outside (depth + 1)).readAll (listed items)).readAll [closeArray] = _
      rw [hitems]
      rfl
    · intro r hr
      rw [readAll_cons, readAll_append]
      refine Inside.plain ?_ (by decide) (by decide)
      refine readAll_listed (fun item hitem => (ih item hitem).inside) ?_
        (hr.plain (by decide) (by decide))
      exact fun r hr => hr.plain (by decide) (by decide)
  | @object members hkeys _ ih =>
    have hmember : ∀ text ∈ members.map fun m => quoted m.1 ++ colon :: m.2,
        ∃ m ∈ members, text = quoted m.1 ++ colon :: m.2 := by
      intro text htext
      obtain ⟨m, hm, rfl⟩ := List.mem_map.1 htext
      exact ⟨m, hm, rfl⟩
    constructor
    · intro depth
      have hmembers : (Reader.outside (depth + 1)).readAll
          (listed (members.map fun m => quoted m.1 ++ colon :: m.2)) = .outside (depth + 1) := by
        refine readAll_listed (P := (· = Reader.outside (depth + 1))) ?_ ?_ rfl
        · rintro text htext _ rfl
          obtain ⟨m, hm, rfl⟩ := hmember text htext
          rw [readAll_append, (steady_quoted (hkeys m hm)).outside, readAll_cons]
          -- inside brackets the colon has its place
          exact (ih m hm).outside _
        · rintro _ rfl
          rfl
      rw [readAll_cons, readAll_append]
      show ((Reader.outside (depth + 1)).readAll _).readAll [closeObject] = _
      rw [hmembers]
      rfl
    · intro r hr
      rw [readAll_cons, readAll_append]
      refine Inside.plain ?_ (by decide) (by decide)
      refine readAll_listed ?_ (fun r hr => hr.plain (by decide) (by decide))
        (hr.plain (by decide) (by decide))
      intro text htext r hr
      obtain ⟨m, hm, rfl⟩ := hmember text htext
      rw [readAll_append, readAll_cons]
      refine (ih m hm).inside _ (Inside.plain ?_ (by decide) (by decide))
      exact (steady_quoted (hkeys m hm)).inside _ hr

/-- **No text ends in another one that stands behind a colon of it.** -/
theorem JsonText.not_colon_suffix {text other before : List UInt8} (h : JsonText text)
    (hother : JsonText other) : text ≠ before ++ colon :: other := by
  intro heq
  have hend := h.steady.outside 0
  rw [heq, readAll_append, readAll_cons] at hend
  have hinside : ∀ depth, ¬ (Reader.inString depth).readAll other = .outside 0 := by
    intro depth hread
    rcases hother.steady.inside _ (Or.inr ⟨depth, rfl⟩) with hstuck | ⟨d, hstring⟩
    · exact absurd (hread.symm.trans hstuck) (by decide)
    · exact absurd (hread.symm.trans hstring) nofun
  -- where the reader is when it comes to the colon
  generalize (Reader.outside 0).readAll before = r at hend
  cases r with
  | outside depth =>
    cases depth with
    | zero => exact absurd ((readAll_stuck other).symm.trans hend) (by decide)
    | succ depth => exact absurd ((hother.steady.outside (depth + 1)).symm.trans hend) nofun
  | inString depth => exact hinside depth hend
  | escaped depth => exact hinside depth hend
  | stuck => exact absurd ((readAll_stuck other).symm.trans hend) (by decide)

/-- So a name without colons can be told from the text behind it. -/
theorem JsonText.append_colon_inj {name name' text text' : List UInt8} (hname : colon ∉ name)
    (h : JsonText text) (h' : JsonText text')
    (heq : name ++ colon :: text = name' ++ colon :: text') : name = name' ∧ text = text' := by
  rcases List.append_eq_append_iff.1 heq with ⟨more, hmore, htext⟩ | ⟨more, hmore, htext⟩
  · cases more with
    | nil =>
      rw [List.append_nil] at hmore
      exact ⟨hmore.symm, (List.cons.inj htext).2⟩
    | cons b more =>
      -- the other name goes on behind the colon, and its own colon is in the text
      obtain ⟨-, htext⟩ := List.cons.inj htext
      exact absurd htext (h.not_colon_suffix h')
  · cases more with
    | nil =>
      rw [List.append_nil] at hmore
      exact ⟨hmore, (List.cons.inj htext).2.symm⟩
    | cons b more =>
      obtain ⟨rfl, -⟩ := List.cons.inj htext
      rw [hmore] at hname
      exact absurd (List.mem_append_right _ List.mem_cons_self) hname

end MiniRpc
