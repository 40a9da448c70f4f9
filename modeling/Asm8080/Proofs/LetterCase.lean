import Asm8080.Proofs.PlainText
import Asm8080.Text.LowerCase

/-!
Contract: characters that folding to upper or lower case cannot produce.

Owns:
- the check of the case tables for one character;
- that a character which passes the check is in no upper case but its own, and in the
  lower case of a text only if it is in the text;
- that no character vanishes in upper case.

Does not own: which characters the stages of tokenizing rely on.
-/

namespace Asm8080

/-- Whether the character is no capital letter of the tables: no range maps another
character to it, and no expansion holds it. -/
def isUncapital (character : Char) : Bool :=
  !character.isUpper && character.toNat != 0 &&
    (upperExpansions.all fun entry => !(entry.2.map Char.ofNat).contains character) &&
      upperRanges.all fun range => !range.covers (character.toNat - range.shift).toNat

theorem toNat_of_ofNat_eq {code : Nat} {character : Char} (positive : character.toNat ≠ 0)
    (isImage : Char.ofNat code = character) : code = character.toNat := by
  by_cases valid : code.isValidChar
  · have isCode : Char.ofNat code = Char.ofNatAux code valid := dif_pos valid
    exact congrArg Char.toNat (isCode.symm.trans isImage)
  · have isZero : (Char.ofNat code).toNat = 0 := congrArg Char.toNat (dif_neg valid)
    rw [isImage] at isZero
    exact absurd isZero positive

/-- A character to which no range maps another one is in no image but its own. -/
theorem CaseRange.eq_of_apply_eq {ranges : List CaseRange} {image character : Char}
    (positive : image.toNat ≠ 0)
    (unshifted : ∀ range ∈ ranges, range.covers (image.toNat - range.shift).toNat = false)
    (isImage : apply ranges character = image) : character = image := by
  unfold apply at isImage
  split at isImage
  · rename_i range found
    have covered := List.find?_some found
    have isCode := toNat_of_ofNat_eq positive isImage
    have uncovered := unshifted range (List.mem_of_find?_eq_some found)
    have source : (image.toNat - range.shift).toNat = character.toNat := by omega
    rw [source, covered] at uncovered
    cases uncovered
  · exact isImage

/-- A character that is no capital letter is in no upper case but its own. -/
theorem eq_of_mem_upperCase {image character : Char} (uncapital : isUncapital image = true)
    (member : image ∈ upperCase character) : character = image := by
  simp only [isUncapital, Bool.and_eq_true, Bool.not_eq_true', bne_iff_ne, List.all_eq_true]
    at uncapital
  obtain ⟨⟨⟨notUpper, positive⟩, unexpanded⟩, unshifted⟩ := uncapital
  unfold upperCase at member
  split at member
  · rename_i ascii
    rw [List.mem_singleton] at member
    have kept := forall_ascii (fun c => c.toUpper.isUpper = false → c.toUpper = c) (by decide)
      ascii (by rw [← member]; exact notUpper)
    rw [member, kept]
  · split at member
    · rename_i codes found
      obtain ⟨before, behind, isTable, _⟩ := List.lookup_eq_some_iff.mp found
      have absent := unexpanded (character.toNat, codes) (by simp [isTable])
      rw [List.contains_iff_mem.mpr member] at absent
      cases absent
    · rw [List.mem_singleton] at member
      exact CaseRange.eq_of_apply_eq positive unshifted member.symm

theorem upperCase_ne_nil (character : Char) : upperCase character ≠ [] := by
  have table : ∀ entry ∈ upperExpansions, entry.2 ≠ [] := by decide +kernel
  unfold upperCase
  split
  · simp
  · split
    · rename_i codes found
      obtain ⟨before, behind, isTable, _⟩ := List.lookup_eq_some_iff.mp found
      have nonempty := table (character.toNat, codes) (by simp [isTable])
      simpa using nonempty
    · simp

/-! ### Lower case -/

/-- Whether the character is no small letter of the table: no range maps another character to
it, and neither of the special rules writes it. -/
def isUnlowered (character : Char) : Bool :=
  !character.isLower && character.toNat != 0 &&
    !List.contains ['\u0307', '\u03C2', '\u03C3'] character &&
      lowerRanges.all fun range => !range.covers (character.toNat - range.shift).toNat

theorem eq_of_mem_lowerLetter {image character : Char} (unlowered : isUnlowered image = true)
    (member : image ∈ lowerLetter character) : character = image := by
  simp only [isUnlowered, Bool.and_eq_true, Bool.not_eq_true', bne_iff_ne, List.all_eq_true,
    List.contains_eq_mem, decide_eq_false_iff_not] at unlowered
  obtain ⟨⟨⟨notLower, positive⟩, unwritten⟩, unshifted⟩ := unlowered
  unfold lowerLetter at member
  split at member
  · rename_i ascii
    rw [List.mem_singleton] at member
    have kept := forall_ascii (fun c => c.toLower.isLower = false → c.toLower = c) (by decide)
      ascii (by rw [← member]; exact notLower)
    rw [member, kept]
  · split at member
    · simp only [List.mem_cons, List.not_mem_nil, or_false] at member
      rcases member with isLetter | isMark
      · rw [isLetter] at notLower
        exact absurd notLower (by decide)
      · rw [isMark] at unwritten
        exact absurd (by simp) unwritten
    · exact CaseRange.eq_of_apply_eq positive unshifted (List.mem_singleton.mp member).symm

theorem ne_lowerSigma {image : Char} (unlowered : isUnlowered image = true)
    (before after : Text) : image ≠ lowerSigma before after := by
  rintro rfl
  unfold lowerSigma at unlowered
  split at unlowered
  · exact absurd unlowered (by decide)
  · exact absurd unlowered (by decide)

private theorem mem_of_mem_lowerCaseFrom {image : Char} {before text : Text}
    (unlowered : isUnlowered image = true) (member : image ∈ Text.lowerCaseFrom before text) :
    image ∈ text := by
  induction text generalizing before with
  | nil => cases member
  | cons head tail inductionHypothesis =>
      rw [Text.lowerCaseFrom, List.mem_append] at member
      rcases member with inHead | inTail
      · split at inHead
        · exact absurd (List.mem_singleton.mp inHead) (ne_lowerSigma unlowered before tail)
        · rw [eq_of_mem_lowerLetter unlowered inHead]
          exact List.mem_cons_self
      · exact List.mem_cons_of_mem head (inductionHypothesis inTail)

/-- A character that is no small letter is in the lower case of a text only if it is in the
text. -/
theorem mem_of_mem_lowerCase {image : Char} {text : Text}
    (unlowered : isUnlowered image = true) (member : image ∈ Text.lowerCase text) :
    image ∈ text :=
  mem_of_mem_lowerCaseFrom unlowered member

end Asm8080
