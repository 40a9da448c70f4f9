import Mathlib.Data.List.Infix
import Asm8080.Text.Basic

/-!
Contract: occurrences of a pattern in a text, and their replacement.

Owns:
- the occurrences in a text that is put together at a character which the pattern does not have,
  or has only at its end;
- the replacement step by step: an occurrence at the front, a character in front of which there
  is none, and the induction over these steps;
- the texts that a replacement of the same length leaves as they are.

Does not own: any particular pattern.
-/

namespace Asm8080.Text

/-! ### Occurrences -/

theorem holds_iff {pattern text : Text} : holds pattern text = true ↔ pattern <:+: text := by
  induction text with
  | nil => simp [holds]
  | cons head tail inductionHypothesis =>
      rw [holds, Bool.or_eq_true, inductionHypothesis, List.isPrefixOf_iff_prefix,
        List.infix_cons_iff]

/-- A character that can only end the pattern ends every occurrence that reaches it. -/
theorem infix_append_cons_iff {pattern left right : Text} {c : Char}
    (onlyLast : ∀ front back, pattern = front ++ c :: back → back = []) :
    pattern <:+: left ++ c :: right ↔ pattern <:+: left ++ [c] ∨ pattern <:+: right := by
  constructor
  · rintro ⟨before, behind, isText⟩
    rw [List.append_assoc] at isText
    rcases List.append_eq_append_iff.mp isText with
      ⟨reach, isLeft, isRest⟩ | ⟨gap, _, isRest⟩
    · rcases List.append_eq_append_iff.mp isRest with ⟨more, isReach, _⟩ | ⟨more, isPattern, isCut⟩
      · left
        rw [isLeft, isReach]
        exact ⟨before, more ++ [c], by simp⟩
      · left
        rw [isLeft]
        cases more with
        | nil =>
            rw [isPattern, List.append_nil]
            exact ⟨before, [c], rfl⟩
        | cons head tail =>
            obtain ⟨rfl, _⟩ := List.cons.inj isCut
            rw [onlyLast reach tail isPattern] at isPattern
            rw [isPattern, List.append_assoc]
            exact (List.suffix_append _ _).isInfix
    · cases gap with
      | cons head tail =>
          right
          rw [(List.cons.inj isRest).2]
          exact ⟨tail, behind, by simp⟩
      | nil =>
          left
          cases pattern with
          | nil => exact List.nil_infix
          | cons head tail =>
              obtain ⟨rfl, _⟩ := List.cons.inj isRest
              rw [onlyLast [] tail rfl]
              exact (List.suffix_append _ _).isInfix
  · rintro (inLeft | inRight)
    · refine inLeft.trans ?_
      exact ⟨[], right, by simp⟩
    · exact inRight.trans ((List.suffix_cons c right).trans (List.suffix_append left _)).isInfix

/-- No occurrence reaches over a character that the pattern does not have. -/
theorem infix_append_cons_iff_of_not_mem {pattern left right : Text} {c : Char}
    (foreign : c ∉ pattern) :
    pattern <:+: left ++ c :: right ↔ pattern <:+: left ∨ pattern <:+: right := by
  have notInside : ∀ front back, pattern = front ++ c :: back → back = [] := by
    rintro front back rfl
    exact absurd (by simp) foreign
  rw [infix_append_cons_iff notInside]
  apply or_congr_left
  constructor
  · intro occurs
    rcases List.infix_concat_iff.mp occurs with atEnd | inside
    · rcases List.suffix_concat_iff.mp atEnd with rfl | ⟨front, rfl, _⟩
      · exact List.nil_infix
      · exact absurd (by simp) foreign
    · exact inside
  · intro occurs
    exact occurs.trans (List.prefix_append _ _).isInfix

/-! ### Replacement -/

section

variable {pattern replacement : Text}

theorem replaceFrom_skip (skip : Nat) (text : Text) :
    replaceFrom pattern replacement skip text =
      replaceAll pattern replacement (text.drop skip) := by
  induction skip generalizing text with
  | zero => rfl
  | succ skip inductionHypothesis =>
      cases text with
      | nil => simp [replaceFrom, replaceAll]
      | cons head tail => exact inductionHypothesis tail

theorem replaceAll_cons {head : Char} {tail : Text} (plain : ¬pattern <+: head :: tail) :
    replaceAll pattern replacement (head :: tail) =
      head :: replaceAll pattern replacement tail := by
  unfold replaceAll
  rw [replaceFrom, if_neg fun found => plain (List.isPrefixOf_iff_prefix.mp found)]

variable (nonempty : pattern ≠ [])

include nonempty

theorem replaceAll_append (rest : Text) :
    replaceAll pattern replacement (pattern ++ rest) =
      replacement ++ replaceAll pattern replacement rest := by
  obtain ⟨head, tail, rfl⟩ := List.exists_cons_of_ne_nil nonempty
  have found : (head :: tail).isPrefixOf (head :: (tail ++ rest)) = true :=
    List.isPrefixOf_iff_prefix.mpr ⟨rest, rfl⟩
  show replaceFrom (head :: tail) replacement 0 (head :: (tail ++ rest)) = _
  rw [replaceFrom, if_pos found, replaceFrom_skip]
  show replacement ++ replaceAll _ replacement ((tail ++ rest).drop tail.length) = _
  rw [List.drop_left]

/-- Induction along a replacement: over the occurrences, and over the characters between
them. -/
theorem replacement_induction {motive : Text → Prop} (nil : motive [])
    (found : ∀ rest, motive rest → motive (pattern ++ rest))
    (plain : ∀ head tail, ¬pattern <+: head :: tail → motive tail → motive (head :: tail))
    (text : Text) : motive text := by
  induction isLength : text.length using Nat.strong_induction_on generalizing text with
  | h length inductionHypothesis =>
      cases text with
      | nil => exact nil
      | cons head tail =>
          by_cases occurs : pattern <+: head :: tail
          · obtain ⟨rest, isText⟩ := occurs
            have shorter : rest.length < length := by
              have positive := List.length_pos_of_ne_nil nonempty
              rw [← isLength, ← isText, List.length_append]
              omega
            rw [← isText]
            exact found rest (inductionHypothesis rest.length shorter rest rfl)
          · have shorter : tail.length < length := by
              rw [← isLength, List.length_cons]
              omega
            exact plain head tail occurs (inductionHypothesis tail.length shorter tail rfl)

/-- A character that the pattern does not have divides a replacement. -/
theorem replaceAll_append_cons {c : Char} (foreign : c ∉ pattern) (left right : Text) :
    replaceAll pattern replacement (left ++ c :: right) =
      replaceAll pattern replacement left ++ c :: replaceAll pattern replacement right := by
  induction left using replacement_induction nonempty with
  | nil =>
      have plain : ¬pattern <+: c :: right := by
        rintro ⟨rest, isText⟩
        obtain ⟨head, tail, rfl⟩ := List.exists_cons_of_ne_nil nonempty
        rw [(List.cons.inj isText).1] at foreign
        exact foreign List.mem_cons_self
      exact replaceAll_cons plain
  | found rest inductionHypothesis =>
      rw [List.append_assoc, replaceAll_append nonempty, inductionHypothesis,
        replaceAll_append nonempty, List.append_assoc]
  | plain head tail plain inductionHypothesis =>
      have stillPlain : ¬pattern <+: head :: (tail ++ c :: right) := by
        rintro ⟨rest, isText⟩
        rcases List.append_eq_append_iff.mp
            (show pattern ++ rest = (head :: tail) ++ c :: right from isText) with
          ⟨more, isLeft, _⟩ | ⟨more, isPattern, isCut⟩
        · exact plain ⟨more, isLeft.symm⟩
        · cases more with
          | nil => exact plain ⟨[], by rw [isPattern]; simp⟩
          | cons first others =>
              rw [isPattern, ← (List.cons.inj isCut).1] at foreign
              exact foreign (by simp)
      rw [List.cons_append, replaceAll_cons stillPlain, inductionHypothesis, replaceAll_cons plain,
        List.cons_append]

section SameLength

variable (sameLength : replacement.length = pattern.length)

include sameLength

theorem length_replaceAll (text : Text) :
    (replaceAll pattern replacement text).length = text.length := by
  induction text using replacement_induction nonempty with
  | nil => rfl
  | found rest inductionHypothesis =>
      rw [replaceAll_append nonempty, List.length_append, List.length_append, sameLength,
        inductionHypothesis]
  | plain head tail plain inductionHypothesis =>
      rw [replaceAll_cons plain, List.length_cons, List.length_cons, inductionHypothesis]

/-- A text stays as it is just if the pattern does not occur in it. -/
theorem replaceAll_eq_self_iff (different : replacement ≠ pattern) (text : Text) :
    replaceAll pattern replacement text = text ↔ ¬pattern <:+: text := by
  induction text using replacement_induction nonempty with
  | nil => simpa [replaceAll, replaceFrom] using nonempty
  | found rest inductionHypothesis =>
      rw [replaceAll_append nonempty]
      constructor
      · intro unchanged
        exact absurd (List.append_inj_left unchanged sameLength) different
      · intro absent
        exact absurd (List.prefix_append pattern rest).isInfix absent
  | plain head tail plain inductionHypothesis =>
      rw [replaceAll_cons plain, List.cons_inj_right, inductionHypothesis, List.infix_cons_iff]
      simp [plain]

end SameLength

end

end Asm8080.Text
