/-
# The operator `LIKE`

Patterns in which one character stands for any run of characters and another for any
one character; every other character stands for itself, whatever the case of an ASCII
letter.

A string between two wildcards for runs is a search for it, as long as there is no wildcard
in the string (`like_between`).  With one in it, the string is not in every text that it
matches: it matches its `sample`, which is shorter or has another letter in the place
(`plain_of_infix_sample`).
-/

import Mathlib.Data.List.Infix

namespace MiniRpc
namespace LikePattern

/-- The wildcard for any run of characters. -/
def anyRun : Char := '%'

/-- The wildcard for any one character. -/
def anyOne : Char := '_'

/-- The ASCII letters in lower case. -/
def fold (s : List Char) : List Char := s.map Char.toLower

/-- The pattern matches the text. -/
def like : List Char → List Char → Bool
  | [], text => text.isEmpty
  | c :: pattern, text =>
    if c = anyRun then text.tails.any (like pattern)
    else
      match text with
      | [] => false
      | d :: text => (c = anyOne || c.toLower = d.toLower) && like pattern text

/-- There are no wildcards in the string. -/
def Plain (s : List Char) : Prop := anyRun ∉ s ∧ anyOne ∉ s

instance (s : List Char) : Decidable (Plain s) := inferInstanceAs (Decidable (_ ∧ _))

variable {pattern text s : List Char} {c d : Char}

theorem like_nil_iff : like [] text = true ↔ text = [] := List.isEmpty_iff

theorem like_anyRun_iff :
    like (anyRun :: pattern) text = true ↔ ∃ rest, rest <:+ text ∧ like pattern rest = true := by
  have h : like (anyRun :: pattern) text = text.tails.any (like pattern) := by
    rw [like.eq_def]
    exact if_pos rfl
  rw [h, List.any_eq_true]
  simp only [List.mem_tails]

theorem not_like_cons_nil (hc : c ≠ anyRun) : ¬ like (c :: pattern) [] = true := by
  rw [like, if_neg hc]
  exact Bool.false_ne_true

theorem like_cons_iff (hc : c ≠ anyRun) :
    like (c :: pattern) (d :: text) = true ↔
      (c = anyOne ∨ c.toLower = d.toLower) ∧ like pattern text = true := by
  rw [like, if_neg hc]
  simp

theorem isUpper_iff : c.isUpper = true ↔ 65 ≤ c.toNat ∧ c.toNat ≤ 90 := decide_eq_true_iff

theorem isLower_iff : c.isLower = true ↔ 97 ≤ c.toNat ∧ c.toNat ≤ 122 :=
  (Bool.and_eq_true _ _).to_iff.trans (and_congr decide_eq_true_iff decide_eq_true_iff)

/-- An upper case letter becomes a lower case one. -/
theorem toNat_toLower (hc : c.isUpper = true) : c.toLower.toNat = c.toNat + 32 := by
  have hrange := isUpper_iff.1 hc
  have hval : c.toLower.val = c.val + 32 := congrArg Char.val (dif_pos (of_decide_eq_true hc))
  change c.toLower.val.toNat = c.val.toNat + 32
  rw [hval, UInt32.toNat_add]
  refine Nat.mod_eq_of_lt ?_
  change c.toNat + 32 < 2 ^ 32
  omega

/-- Every other character stays. -/
theorem toLower_of_isUpper_false (hc : c.isUpper = false) : c.toLower = c :=
  dif_neg (of_decide_eq_false hc)

theorem isUpper_toLower (c : Char) : c.toLower.isUpper = false := by
  cases hc : c.isUpper with
  | true =>
    have hrange := isUpper_iff.1 hc
    have hlower := toNat_toLower hc
    refine Bool.eq_false_iff.2 fun hupper => ?_
    have := isUpper_iff.1 hupper
    omega
  | false => rw [toLower_of_isUpper_false hc, hc]

/-- Only a character that is no letter is the lower case of itself alone. -/
theorem toLower_eq_iff (hd : d.isAlpha = false) : c.toLower = d ↔ c = d := by
  obtain ⟨hupper, hlower⟩ : d.isUpper = false ∧ d.isLower = false := Bool.or_eq_false_iff.1 hd
  constructor
  · rintro rfl
    cases hc : c.isUpper with
    | true =>
      have hrange := isUpper_iff.1 hc
      have hletter : c.toLower.isLower = true := by
        rw [isLower_iff, toNat_toLower hc]
        omega
      cases hletter.symm.trans hlower
    | false => exact (toLower_of_isUpper_false hc).symm
  · rintro rfl
    exact toLower_of_isUpper_false hupper

theorem suffix_fold_iff {tail : List Char} :
    tail <:+ fold text ↔ ∃ rest, rest <:+ text ∧ fold rest = tail := by
  constructor
  · rintro ⟨front, hfront⟩
    obtain ⟨front', rest, rfl, -, hrest⟩ := List.map_eq_append_iff.1 hfront.symm
    exact ⟨rest, List.suffix_append _ _, hrest⟩
  · rintro ⟨rest, hrest, rfl⟩
    exact hrest.map Char.toLower

/-- Case does not matter to a pattern. -/
theorem like_fold : like (fold pattern) (fold text) = true ↔ like pattern text = true := by
  induction pattern generalizing text with
  | nil => simp [like_nil_iff, fold]
  | cons c pattern ih =>
    have hrun := toLower_eq_iff (c := c) (d := anyRun) (by decide)
    have hone := toLower_eq_iff (c := c) (d := anyOne) (by decide)
    show like (c.toLower :: fold pattern) (fold text) = true ↔ _
    by_cases hc : c = anyRun
    · rw [hrun.2 hc, hc, like_anyRun_iff, like_anyRun_iff]
      constructor
      · rintro ⟨tail, htail, hlike⟩
        obtain ⟨rest, hrest, rfl⟩ := suffix_fold_iff.1 htail
        exact ⟨rest, hrest, ih.1 hlike⟩
      · rintro ⟨rest, hrest, hlike⟩
        exact ⟨fold rest, hrest.map Char.toLower, ih.2 hlike⟩
    · have hc' : c.toLower ≠ anyRun := fun h => hc (hrun.1 h)
      cases text with
      | nil =>
        exact iff_of_false (not_like_cons_nil hc') (not_like_cons_nil hc)
      | cons d text =>
        show like (c.toLower :: fold pattern) (d.toLower :: fold text) = true ↔ _
        rw [like_cons_iff hc', like_cons_iff hc, ih, hone,
          toLower_of_isUpper_false (isUpper_toLower c),
          toLower_of_isUpper_false (isUpper_toLower d)]

/-- A string without wildcards and then a wildcard for a run match what begins with the
string. -/
theorem like_concat_anyRun (hs : Plain s) :
    like (s ++ [anyRun]) text = true ↔ fold s <+: fold text := by
  induction s generalizing text with
  | nil =>
    simp only [List.nil_append, like_anyRun_iff]
    exact ⟨fun _ => List.nil_prefix, fun _ => ⟨[], List.nil_suffix, rfl⟩⟩
  | cons c s ih =>
    obtain ⟨hrun, hone⟩ := hs
    rw [List.mem_cons, not_or] at hrun hone
    rw [List.cons_append]
    cases text with
    | nil =>
      constructor
      · exact fun h => absurd h (not_like_cons_nil (Ne.symm hrun.1))
      · intro h
        exact absurd (List.eq_nil_of_prefix_nil h) (List.cons_ne_nil _ _)
    | cons d text =>
      rw [like_cons_iff (Ne.symm hrun.1), ih ⟨hrun.2, hone.2⟩]
      show _ ↔ c.toLower :: fold s <+: d.toLower :: fold text
      rw [List.cons_prefix_cons]
      constructor
      · rintro ⟨hc | hc, hrest⟩
        · exact absurd hc.symm hone.1
        · exact ⟨hc, hrest⟩
      · rintro ⟨hc, hrest⟩
        exact ⟨Or.inr hc, hrest⟩

/-- **A string without wildcards, between two of them**, matches the texts that it is in. -/
theorem like_between (hs : Plain s) :
    like (anyRun :: (s ++ [anyRun])) text = true ↔ fold s <:+: fold text := by
  rw [like_anyRun_iff]
  constructor
  · rintro ⟨rest, hrest, hlike⟩
    exact ((like_concat_anyRun hs).1 hlike).isInfix.trans (hrest.map Char.toLower).isInfix
  · intro h
    obtain ⟨tail, hprefix, hsuffix⟩ := List.infix_iff_prefix_suffix.1 h
    obtain ⟨rest, hrest, rfl⟩ := suffix_fold_iff.1 hsuffix
    exact ⟨rest, hrest, (like_concat_anyRun hs).2 hprefix⟩

/-- A wildcard for a run in front, or at the end, changes nothing for the texts that match. -/
theorem like_anyRun_cons (h : like pattern text = true) : like (anyRun :: pattern) text = true :=
  like_anyRun_iff.2 ⟨text, List.suffix_refl _, h⟩

theorem like_concat_of_like (h : like pattern text = true) :
    like (pattern ++ [anyRun]) text = true := by
  induction pattern generalizing text with
  | nil => exact like_anyRun_iff.2 ⟨text, List.suffix_refl _, h⟩
  | cons c pattern ih =>
    rw [List.cons_append]
    by_cases hc : c = anyRun
    · subst hc
      obtain ⟨rest, hrest, hlike⟩ := like_anyRun_iff.1 h
      exact like_anyRun_iff.2 ⟨rest, hrest, ih hlike⟩
    · cases text with
      | nil => exact absurd h (not_like_cons_nil hc)
      | cons d text =>
        obtain ⟨hcd, hlike⟩ := (like_cons_iff hc).1 h
        exact (like_cons_iff hc).2 ⟨hcd, ih hlike⟩

/-! ### What a string with wildcards matches -/

/-- Something that is not a wildcard. -/
def stranger : Char := 'x'

/-- A text that a string with wildcards matches, with nothing for a run. -/
def sample : List Char → List Char
  | [] => []
  | c :: s =>
    if c = anyRun then sample s
    else if c = anyOne then stranger :: sample s
    else c :: sample s

theorem like_sample (s : List Char) : like s (sample s) = true := by
  induction s with
  | nil => rfl
  | cons c s ih =>
    rw [sample]
    split_ifs with hrun hone
    · exact hrun ▸ like_anyRun_cons ih
    · exact (like_cons_iff hrun).2 ⟨Or.inl hone, ih⟩
    · exact (like_cons_iff hrun).2 ⟨Or.inr rfl, ih⟩

theorem length_sample_le (s : List Char) : (sample s).length ≤ s.length := by
  induction s with
  | nil => exact Nat.le_refl _
  | cons c s ih =>
    rw [sample]
    split_ifs <;> simp only [List.length_cons] <;> omega

/-- Nothing else is new in a sample. -/
theorem mem_of_mem_sample (h : c ∈ sample s) : c = stranger ∨ c ∈ s := by
  induction s with
  | nil => exact absurd h List.not_mem_nil
  | cons d s ih =>
    rw [sample] at h
    split_ifs at h
    · exact (ih h).imp_right (List.mem_cons_of_mem d)
    · exact (List.mem_cons.1 h).elim Or.inl fun h => (ih h).imp_right (List.mem_cons_of_mem d)
    · rcases List.mem_cons.1 h with rfl | h
      · exact Or.inr List.mem_cons_self
      · exact (ih h).imp_right (List.mem_cons_of_mem d)

/-- Only a string without wildcards is its own sample, up to case. -/
theorem plain_of_fold_eq (h : fold s = fold (sample s)) : Plain s := by
  induction s with
  | nil => exact ⟨List.not_mem_nil, List.not_mem_nil⟩
  | cons c s ih =>
    rw [sample] at h
    split_ifs at h with hrun hone
    · have hlen := congrArg List.length h
      simp only [fold, List.length_map, List.length_cons] at hlen
      have := length_sample_le s
      omega
    · have hfold : anyOne.toLower = stranger.toLower := hone ▸ (List.cons.inj h).1
      exact absurd hfold (by decide)
    · obtain ⟨hruns, hones⟩ := ih (List.cons.inj h).2
      constructor
      · exact fun hmem => (List.mem_cons.1 hmem).elim (fun h => hrun h.symm) hruns
      · exact fun hmem => (List.mem_cons.1 hmem).elim (fun h => hone h.symm) hones

/-- **A string with wildcards is not in its sample.** -/
theorem plain_of_infix_sample (h : fold s <:+: fold (sample s)) : Plain s := by
  refine plain_of_fold_eq (h.eq_of_length_le ?_)
  simpa [fold] using length_sample_le s

end LikePattern
end MiniRpc
