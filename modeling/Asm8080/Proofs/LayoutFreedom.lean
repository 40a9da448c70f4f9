import Mathlib.Logic.Relation
import Asm8080.Assembler
import Asm8080.Proofs.LineLocality

/-!
Contract: letter case and blanks outside quotes carry no meaning.

Owns:
- the edits that change the layout of a text, and their equivalence closure;
- what folding and tightening make of a run of blanks;
- the law of masked text under each edit;
- `layout_is_free`: sources of one layout class have the same tokens and the same
  assembly.

Does not own: comments, which are gone before the layout is looked at.
-/

namespace Asm8080

namespace Layout

/-! ### Edits of the layout -/

/-- Blanks side by side, at least one. -/
structure IsRun (run : Text) : Prop where
  nonempty : run ≠ []
  blank : ∀ c ∈ run, isBlank c = true

instance (run : Text) : Decidable (IsRun run) :=
  decidable_of_iff (run ≠ [] ∧ run.all isBlank = true)
    ⟨fun ⟨nonempty, blank⟩ => ⟨nonempty, List.all_eq_true.mp blank⟩,
      fun isRun => ⟨isRun.nonempty, List.all_eq_true.mpr isRun.blank⟩⟩

/-- What folding asks of an ASCII letter. -/
theorem facts_of_isAlpha {letter : Char} (isLetter : letter.isAlpha = true) :
    letter ≠ quoteMark ∧ isBlank letter = false ∧ upperCase letter = [letter.toUpper] := by
  have ascii : letter.toNat < 0x80 := by
    apply toNat_of_isAlphanum
    simp [Char.isAlphanum, isLetter]
  exact forall_ascii
    (fun c => c.isAlpha = true →
      c ≠ quoteMark ∧ isBlank c = false ∧ upperCase c = [c.toUpper]) (by decide) ascii isLetter

theorem IsRun.unquoted {run : Text} (isRun : IsRun run) : quoteMark ∉ run := fun member =>
  absurd (isRun.blank quoteMark member) (by decide)

theorem IsRun.unmarked {run : Text} (isRun : IsRun run) : Quotation.openMark ∉ run :=
  fun member => absurd (isRun.blank Quotation.openMark member) (by decide)

/-- Whether a place between two parts of a text is at the start or the end of a line, or
directly behind a comma. -/
def isLoose (before after : Text) : Bool :=
  before.getLast?.all (fun c => c == '\n' || c == ',') || after.head?.all (· == '\n')

theorem isLoose_cases {before after : Text} (loose : isLoose before after = true) :
    (before = [] ∨ (∃ front, before = front ++ ['\n']) ∨ ∃ front, before = front ++ [',']) ∨
      after = [] ∨ ∃ rest, after = '\n' :: rest := by
  simp only [isLoose, Bool.or_eq_true, Option.all_eq_true, beq_iff_eq] at loose
  rcases loose with atFront | atEnd
  · left
    rcases List.eq_nil_or_concat before with isEmpty | ⟨front, last, isConcat⟩
    · exact Or.inl isEmpty
    · rw [List.concat_eq_append] at isConcat
      right
      rcases atFront last (by simp [isConcat]) with isEnd | isComma
      · exact Or.inl ⟨front, by rw [isConcat, isEnd]⟩
      · exact Or.inr ⟨front, by rw [isConcat, isComma]⟩
  · right
    cases after with
    | nil => exact Or.inl rfl
    | cons head rest => exact Or.inr ⟨rest, by rw [atEnd head rfl]⟩

/-- A change of layout at one place outside quotes. -/
inductive Edit : Text → Text → Prop
  /-- An ASCII letter changes its case. -/
  | recase {before : Text} {letter other : Char} (after : Text) (closed : Quoted.IsClosed before)
      (isLetter : letter.isAlpha = true) (isOther : other.isAlpha = true)
      (same : letter.toUpper = other.toUpper) :
      Edit (before ++ letter :: after) (before ++ other :: after)
  /-- A run of blanks takes the place of another one. -/
  | reblank {before run other : Text} (after : Text) (closed : Quoted.IsClosed before)
      (isRun : IsRun run) (isOther : IsRun other) :
      Edit (before ++ (run ++ after)) (before ++ (other ++ after))
  /-- A run of blanks goes, at the start or the end of a line or behind a comma. -/
  | unpad {before run after : Text} (closed : Quoted.IsClosed before)
      (loose : isLoose before after = true) (isRun : IsRun run) :
      Edit (before ++ (run ++ after)) (before ++ after)

/-- Texts that edits of the layout turn into each other. -/
def Alike : Text → Text → Prop :=
  Relation.EqvGen Edit

/-! ### Folding runs of blanks -/

theorem not_blank_quoteMark {character : Char} (blank : isBlank character = true) :
    character ≠ quoteMark := by
  intro isQuote
  rw [isQuote] at blank
  exact absurd blank (by decide)

/-- A run of blanks leaves one space pending. -/
theorem foldFrom_run {run : Text} (isRun : IsRun run) (pending : Bool) (rest : Text) :
    foldFrom false pending (run ++ rest) = foldFrom false true rest := by
  obtain ⟨nonempty, blank⟩ := isRun
  induction run generalizing pending with
  | nil => exact absurd rfl nonempty
  | cons head tail inductionHypothesis =>
      have headBlank := blank head (by simp)
      have here : foldFrom false pending (head :: tail ++ rest) =
          foldFrom false true (tail ++ rest) := by
        simp [foldFrom, not_blank_quoteMark headBlank, headBlank]
      rw [here]
      cases tail with
      | nil => rfl
      | cons second others =>
          exact inductionHypothesis true (by simp) fun c member => blank c (by simp [member])

/-- Behind text without quotes folding goes on alike where it starts alike. -/
theorem foldFrom_append_congr {text left right : Text} (unquoted : quoteMark ∉ text)
    (same : ∀ pending, foldFrom false pending left = foldFrom false pending right)
    (pending : Bool) :
    foldFrom false pending (text ++ left) = foldFrom false pending (text ++ right) := by
  induction text generalizing pending with
  | nil => exact same pending
  | cons head tail inductionHypothesis =>
      have plain : head ≠ quoteMark := fun isQuote => unquoted (by simp [isQuote])
      have later := inductionHypothesis fun member => unquoted (by simp [member])
      simp only [List.cons_append, foldFrom, plain, ↓reduceIte, later]

theorem head?_fold_of_unblank {head : Char} (unblank : isBlank head = false) (tail : Text) :
    (fold (head :: tail)).head? ≠ some ' ' := by
  intro isSpace
  unfold fold foldFrom at isSpace
  split at isSpace
  · rename_i isQuote
    exact absurd (Option.some.inj isSpace) (by rw [isQuote]; decide)
  · rw [unblank] at isSpace
    obtain ⟨first, others, isUpper⟩ := List.exists_cons_of_ne_nil (upperCase_ne_nil head)
    have isFirst : first = ' ' := by simpa [space, isUpper] using isSpace
    have inUpper : ' ' ∈ upperCase head := by simp [isUpper, isFirst]
    have isBlankHead : head = ' ' := eq_of_mem_upperCase (by decide +kernel) inUpper
    rw [isBlankHead] at unblank
    exact absurd unblank (by decide)

/-- A pending space is written before visible text, and lost in more blanks. -/
theorem foldFrom_pending (text : Text) :
    foldFrom false true text = fold text ∨
      foldFrom false true text = ' ' :: fold text ∧ (fold text).head? ≠ some ' ' := by
  cases text with
  | nil => exact Or.inr ⟨rfl, by simp [fold, foldFrom, space]⟩
  | cons head tail =>
      cases blank : isBlank head with
      | true =>
          left
          simp [fold, foldFrom, not_blank_quoteMark blank, blank]
      | false =>
          refine Or.inr ⟨?_, head?_fold_of_unblank blank tail⟩
          unfold fold foldFrom
          split <;> simp [space, blank]

/-- A run of blanks behind a text adds one space at most. -/
theorem foldFrom_append_run {text run : Text} (unquoted : quoteMark ∉ text) (isRun : IsRun run)
    (pending : Bool) :
    foldFrom false pending (text ++ run) = foldFrom false pending text ∨
      foldFrom false pending (text ++ run) = foldFrom false pending text ++ [' '] := by
  induction text generalizing pending with
  | nil =>
      have folded := foldFrom_run isRun pending []
      rw [List.append_nil] at folded
      cases pending <;> simp [folded, foldFrom, space]
  | cons head tail inductionHypothesis =>
      have plain : head ≠ quoteMark := fun isQuote => unquoted (by simp [isQuote])
      have later := inductionHypothesis fun member => unquoted (by simp [member])
      cases blank : isBlank head with
      | true => simpa [foldFrom, plain, blank] using later true
      | false =>
          rcases later false with same | spaced
          · left
            simp [foldFrom, plain, blank, same]
          · right
            simp [foldFrom, plain, blank, spaced]

theorem tightenCommas_append_space (text : Text) :
    tightenCommas (text ++ [' ']) = tightenCommas text ∨
      tightenCommas (text ++ [' ']) = tightenCommas text ++ [' '] := by
  fun_induction tightenCommas text with
  | case1 tail inductionHypothesis => simpa [tightenCommas] using inductionHypothesis
  | case2 head tail notComma inductionHypothesis =>
      cases tail with
      | nil =>
          by_cases isComma : head = ','
          · left
            rw [isComma]
            rfl
          · right
            rw [List.singleton_append, tightenCommas]
            · rfl
            · exact fun _ same => absurd same isComma
      | cons second others =>
          have here : tightenCommas (head :: second :: others ++ [' ']) =
              head :: tightenCommas (second :: others ++ [' ']) := by
            rw [List.cons_append, tightenCommas]
            intro behind isComma isSpace
            obtain ⟨secondSpace, _⟩ := List.cons.inj isSpace
            exact notComma others isComma (by rw [secondSpace])
          rw [here]
          simpa using inductionHypothesis
  | case3 =>
      right
      rfl

theorem tightenCommas_space (text : Text) :
    tightenCommas (' ' :: text) = ' ' :: tightenCommas text :=
  @tightenCommas_of_noComma [' '] (by decide) text

end Layout

/-! ### Prepared text around runs of blanks -/

section

variable {text run : Text}

/-- Blanks at the start of a line end up as one space at most. -/
theorem prepare_run_append (isRun : Layout.IsRun run) (rest : Text) :
    prepare (run ++ rest) = prepare rest ∨ prepare (run ++ rest) = ' ' :: prepare rest := by
  unfold prepare Layout.fold
  rw [Layout.foldFrom_run isRun]
  rcases Layout.foldFrom_pending rest with same | ⟨spaced, _⟩
  · left
    rw [same, Layout.fold]
  · right
    rw [spaced, Layout.tightenCommas_space, Mnemonic.substitute_space,
      Token.markLabels_blank (Or.inl rfl), Layout.fold]

/-- Blanks at the end of a line end up as one space at most. -/
theorem prepare_append_run (unquoted : quoteMark ∉ text) (isRun : Layout.IsRun run) :
    prepare (text ++ run) = prepare text ∨ prepare (text ++ run) = prepare text ++ [' '] := by
  have spaceAlone : Mnemonic.substitute [' '] = [' '] := Mnemonic.substitute_space []
  unfold prepare Layout.fold
  rcases Layout.foldFrom_append_run unquoted isRun false with folded | folded
  · left
    rw [folded]
  · rw [folded]
    rcases Layout.tightenCommas_append_space (Layout.foldFrom false false text) with same | spaced
    · left
      rw [same]
    · right
      have substituted := Mnemonic.substituteFrom_append true
        (Layout.tightenCommas (Layout.foldFrom false false text)) Mnemonic.parts_space
      rw [spaceAlone] at substituted
      unfold Mnemonic.substitute
      rw [spaced, substituted, Token.markLabels_append]
      rfl

/-- Blanks behind a comma vanish. -/
theorem prepare_comma_run (unquoted : quoteMark ∉ text) (isRun : Layout.IsRun run)
    (rest : Text) : prepare (text ++ ',' :: (run ++ rest)) = prepare (text ++ ',' :: rest) := by
  have tightened : Layout.tightenCommas (',' :: Layout.fold (run ++ rest)) =
      Layout.tightenCommas (',' :: Layout.fold rest) := by
    rw [Layout.fold, Layout.foldFrom_run isRun]
    rcases Layout.foldFrom_pending rest with same | ⟨spaced, visible⟩
    · rw [same]
    · rw [spaced, Layout.tightenCommas_comma, Layout.tightenCommas_comma,
        Layout.withoutSpace_of_head? visible]
      rfl
  have folded (rest : Text) :
      Layout.fold (text ++ ',' :: rest) = Layout.fold text ++ ',' :: Layout.fold rest :=
    Layout.foldFrom_solid Layout.isSolid_comma false unquoted rest
  unfold prepare
  rw [folded, folded, Layout.tightenCommas_append _ (by decide),
    Layout.tightenCommas_append _ (by decide), tightened]

/-- Behind text without quotes, what folds alike is prepared alike. -/
theorem prepare_append_congr {left right : Text} (unquoted : quoteMark ∉ text)
    (same : ∀ pending, Layout.foldFrom false pending left = Layout.foldFrom false pending right) :
    prepare (text ++ left) = prepare (text ++ right) := by
  unfold prepare Layout.fold
  rw [Layout.foldFrom_append_congr unquoted same]

end

/-! ### Tokens under edits -/

namespace Token

variable {quotations : List Text} {before run after : Text}

theorem ofMasked_run_append (isRun : Layout.IsRun run) (rest : Text) :
    ofMasked quotations (run ++ rest) = ofMasked quotations rest := by
  unfold ofMasked
  rcases prepare_run_append isRun rest with same | spaced
  · rw [same]
  · rw [spaced, Quotation.restore_cons _ (by decide), split_break _ (by decide)]

theorem ofMasked_protect_run (closed : Quoted.IsClosed before)
    (unmarked : Quotation.openMark ∉ before) (isRun : Layout.IsRun run) :
    ofMasked (Quoted.quotations before) ((Quotation.protect before).text ++ run) =
      ofMasked (Quoted.quotations before) (Quotation.protect before).text := by
  have unquoted := unquoted_protect closed
  have related := (renumbered_protect unmarked []).prepare
  rw [List.append_nil] at related
  have restored := related.isClosed_restore (Quotation.isClosed_resolve closed)
    (unquoted_prepare unquoted)
  unfold ofMasked
  rcases prepare_append_run unquoted isRun with same | spaced
  · rw [same]
  · rw [spaced, related.restore_append, Quotation.restore_cons _ (by decide),
      split_append_break restored (by decide)]
    exact List.append_nil _

theorem ofCode_recase (closed : Quoted.IsClosed before) {letter other : Char}
    (isLetter : letter.isAlpha = true) (isOther : other.isAlpha = true)
    (same : letter.toUpper = other.toUpper) (after : Text) :
    ofCode (before ++ letter :: after) = ofCode (before ++ other :: after) := by
  have folded {letter : Char} (isLetter : letter.isAlpha = true) (pending : Bool) (rest : Text) :
      Layout.foldFrom false pending ([letter] ++ rest) =
        Layout.space pending ++ [letter.toUpper] ++ Layout.foldFrom false false rest := by
    obtain ⟨plain, unblank, upper⟩ := Layout.facts_of_isAlpha isLetter
    simp [Layout.foldFrom, plain, unblank, upper]
  have unquoted {letter : Char} (isLetter : letter.isAlpha = true) : quoteMark ∉ [letter] := by
    have plain := (Layout.facts_of_isAlpha isLetter).1
    simpa using plain.symm
  rw [← List.singleton_append, ← List.singleton_append (x := other),
    ofCode_eq_ofMasked closed [letter] (unquoted isLetter),
    ofCode_eq_ofMasked closed [other] (unquoted isOther)]
  unfold ofMasked
  rw [prepare_append_congr (unquoted_protect closed)]
  intro pending
  rw [folded isLetter, folded isOther, same]

theorem ofCode_reblank {other : Text} (closed : Quoted.IsClosed before)
    (isRun : Layout.IsRun run) (isOther : Layout.IsRun other) (after : Text) :
    ofCode (before ++ (run ++ after)) = ofCode (before ++ (other ++ after)) := by
  rw [ofCode_eq_ofMasked closed run isRun.unquoted,
    ofCode_eq_ofMasked closed other isOther.unquoted]
  unfold ofMasked
  rw [prepare_append_congr (unquoted_protect closed)]
  intro pending
  rw [Layout.foldFrom_run isRun, Layout.foldFrom_run isOther]

/-- Blanks at the start of a line. -/
theorem ofCode_unpad_lineStart (closed : Quoted.IsClosed before)
    (unmarked : Quotation.openMark ∉ before) (isRun : Layout.IsRun run) (after : Text) :
    ofCode (before ++ ('\n' :: run ++ after)) = ofCode (before ++ (['\n'] ++ after)) := by
  have cut := ofMasked_lineEnd (renumbered_protect unmarked (Quoted.quotations after))
    (Quotation.isClosed_resolve closed) (unquoted_protect closed)
  rw [ofCode_eq_ofMasked closed ('\n' :: run) (by simpa using ⟨by decide, isRun.unquoted⟩),
    ofCode_eq_ofMasked closed ['\n'] (by decide), List.cons_append, List.singleton_append, cut, cut,
    ofMasked_run_append isRun]

/-- Blanks behind a comma. -/
theorem ofCode_unpad_comma (closed : Quoted.IsClosed before) (isRun : Layout.IsRun run)
    (after : Text) :
    ofCode (before ++ (',' :: run ++ after)) = ofCode (before ++ ([','] ++ after)) := by
  rw [ofCode_eq_ofMasked closed (',' :: run) (by simpa using ⟨by decide, isRun.unquoted⟩),
    ofCode_eq_ofMasked closed [','] (by decide)]
  unfold ofMasked
  rw [List.cons_append, List.singleton_append, prepare_comma_run (unquoted_protect closed) isRun]

/-- Blanks at the end of a line. -/
theorem ofCode_unpad_lineEnd (closed : Quoted.IsClosed before)
    (unmarked : Quotation.openMark ∉ before) (isRun : Layout.IsRun run) (after : Text) :
    ofCode (before ++ (run ++ ['\n'] ++ after)) = ofCode (before ++ (['\n'] ++ after)) := by
  have related := renumbered_protect unmarked (Quoted.quotations after)
  have unquoted := unquoted_protect closed
  have resolved := Quotation.isClosed_resolve closed
  have runRelated := related.append (Quotation.Renumbered.append_plain isRun.unmarked .nil)
  rw [List.append_nil] at runRelated
  have runUnquoted : quoteMark ∉ (Quotation.protect before).text ++ run := by
    simpa using ⟨unquoted, isRun.unquoted⟩
  rw [ofCode_eq_ofMasked closed (run ++ ['\n']) (by simpa using ⟨isRun.unquoted, by decide⟩),
    ofCode_eq_ofMasked closed ['\n'] (by decide), List.singleton_append, List.append_assoc,
    List.singleton_append, ← List.append_assoc, ofMasked_lineEnd runRelated resolved runUnquoted,
    ofMasked_lineEnd related resolved unquoted, ofMasked_protect_run closed unmarked isRun]

theorem ofCode_unpad (closed : Quoted.IsClosed before) (unmarked : Quotation.openMark ∉ before)
    (loose : Layout.isLoose before after = true) (isRun : Layout.IsRun run) :
    ofCode (before ++ (run ++ after)) = ofCode (before ++ after) := by
  rcases Layout.isLoose_cases loose with
    (noneBefore | ⟨front, isFront⟩ | ⟨front, isFront⟩) | noneAfter | ⟨rest, isAfter⟩
  · rw [noneBefore, ofCode_eq_ofMasked (by decide) run isRun.unquoted]
    exact ofMasked_run_append isRun _
  · have frontClosed : Quoted.IsClosed front :=
      Quoted.isClosed_of_append (by decide) (isFront ▸ closed)
    have frontUnmarked : Quotation.openMark ∉ front := fun member =>
      unmarked (by simp [isFront, member])
    rw [isFront, List.append_assoc, List.append_assoc, ← List.append_assoc ['\n'] run after]
    exact ofCode_unpad_lineStart frontClosed frontUnmarked isRun after
  · have frontClosed : Quoted.IsClosed front :=
      Quoted.isClosed_of_append (by decide) (isFront ▸ closed)
    rw [isFront, List.append_assoc, List.append_assoc, ← List.append_assoc [','] run after]
    exact ofCode_unpad_comma frontClosed isRun after
  · have noQuotations : Quoted.quotations [] = [] := rfl
    have noMask (index : Nat) : Quotation.maskFrom index (Quoted.spans []) = [] := rfl
    rw [noneAfter, List.append_nil before, ofCode_eq_ofMasked closed run isRun.unquoted,
      noQuotations, noMask, List.append_nil, List.append_nil,
      ofMasked_protect_run closed unmarked isRun, ofCode]
  · rw [isAfter, ← List.singleton_append (l := rest), ← List.append_assoc run]
    exact ofCode_unpad_lineEnd closed unmarked isRun rest

end Token

/-! ### Sources of one layout class -/

namespace Layout

/-- An edit changes neither the tokens nor the private characters. -/
theorem Edit.ofCode_eq {left right : Text} (edit : Edit left right) :
    (Quotation.openMark ∈ left ↔ Quotation.openMark ∈ right) ∧
      (Quotation.openMark ∉ left → Token.ofCode left = Token.ofCode right) := by
  cases edit with
  | recase after closed isLetter isOther same =>
      have visible {letter : Char} (isLetter : letter.isAlpha = true) :
          Quotation.openMark ≠ letter := by
        rintro rfl
        exact absurd isLetter (by decide)
      refine ⟨by simp [visible isLetter, visible isOther], fun _ => ?_⟩
      exact Token.ofCode_recase closed isLetter isOther same after
  | reblank after closed isRun isOther =>
      refine ⟨by simp [isRun.unmarked, isOther.unmarked], fun _ => ?_⟩
      exact Token.ofCode_reblank closed isRun isOther after
  | unpad closed loose isRun =>
      refine ⟨by simp [isRun.unmarked], fun unmarked => ?_⟩
      exact Token.ofCode_unpad closed (fun member => unmarked (by simp [member])) loose isRun

theorem Alike.ofCode_eq {left right : Text} (alike : Alike left right) :
    (Quotation.openMark ∈ left ↔ Quotation.openMark ∈ right) ∧
      (Quotation.openMark ∉ left → Token.ofCode left = Token.ofCode right) := by
  induction alike with
  | rel left right edit => exact edit.ofCode_eq
  | refl text => exact ⟨Iff.rfl, fun _ => rfl⟩
  | symm left right _ inductionHypothesis =>
      obtain ⟨marks, tokens⟩ := inductionHypothesis
      exact ⟨marks.symm, fun unmarked => (tokens (mt marks.mp unmarked)).symm⟩
  | trans left middle right _ _ first second =>
      refine ⟨first.1.trans second.1, fun unmarked => ?_⟩
      exact (first.2 unmarked).trans (second.2 (mt first.1.mpr unmarked))

end Layout

/-- Sources whose code differs in letter case and blanks outside quotes only have the same
tokens, and so the same assembly. Every edit stands outside quotes; a quotation that is left
open behind the last edit does no harm. -/
theorem layout_is_free {source other : Text} (unmarked : Quotation.openMark ∉ source)
    (alike : Layout.Alike (Comment.strip source) (Comment.strip other)) :
    tokenize source = tokenize other ∧ assembleSource source = assembleSource other := by
  have tokens : tokenize source = tokenize other :=
    alike.ofCode_eq.2 (Comment.unmarked_strip unmarked)
  refine ⟨tokens, ?_⟩
  unfold assembleSource
  rw [tokens]

private def sprawling : Text :=
  "\tDb\t1, 'b  B'\r\n; trap\nhlt".toList

private def tidy : Text :=
  "DB 1,'b  B'\nhlt".toList

/-- An indented line with a tab, a lower-case letter, a space behind its comma and a
carriage return at its end. -/
theorem layout_is_free_sprawling :
    tokenize sprawling = tokenize tidy ∧ assembleSource sprawling = assembleSource tidy := by
  have unindented : Layout.Alike (Comment.strip sprawling) "Db\t1, 'b  B'\r\nhlt\n".toList :=
    .rel _ _ (@Layout.Edit.unpad [] "\t".toList "Db\t1, 'b  B'\r\nhlt\n".toList
      (by decide) (by decide) (by decide))
  have capital : Layout.Alike "Db\t1, 'b  B'\r\nhlt\n".toList "DB\t1, 'b  B'\r\nhlt\n".toList :=
    .rel _ _ (@Layout.Edit.recase "D".toList 'b' 'B' "\t1, 'b  B'\r\nhlt\n".toList
      (by decide) (by decide) (by decide) (by decide))
  have spaced : Layout.Alike "DB\t1, 'b  B'\r\nhlt\n".toList "DB 1, 'b  B'\r\nhlt\n".toList :=
    .rel _ _ (@Layout.Edit.reblank "DB".toList "\t".toList " ".toList "1, 'b  B'\r\nhlt\n".toList
      (by decide) (by decide) (by decide))
  have tightened : Layout.Alike "DB 1, 'b  B'\r\nhlt\n".toList "DB 1,'b  B'\r\nhlt\n".toList :=
    .rel _ _ (@Layout.Edit.unpad "DB 1,".toList " ".toList "'b  B'\r\nhlt\n".toList
      (by decide) (by decide) (by decide))
  have trimmed : Layout.Alike "DB 1,'b  B'\r\nhlt\n".toList (Comment.strip tidy) :=
    .rel _ _ (@Layout.Edit.unpad "DB 1,'b  B'".toList "\r".toList "\nhlt\n".toList
      (by decide) (by decide) (by decide))
  exact layout_is_free (by decide) (unindented.trans _ _ _ (capital.trans _ _ _
    (spaced.trans _ _ _ (tightened.trans _ _ _ trimmed))))

end Asm8080
