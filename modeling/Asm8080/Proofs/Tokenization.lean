import Asm8080.Proofs.SourceProgram

/-!
Contract: the tokens of a program's text.

Owns:
- the tokens of a line;
- substitution and cutting of a line, with any text behind it;
- the layout of a line, which no stage changes;
- `tokenize_lines`: the text of a list of lines has the tokens of the lines, whatever
  follows whatever.

Does not own: whether operands have values, which tokenizing never asks.
-/

namespace Asm8080

/-! ### The tokens of a line -/

theorem LabelName.isWord_text (name : LabelName) : IsWord name.text := by
  refine ⟨?_, name.characters⟩
  intro isEmpty
  have starts := name.starts
  rw [isEmpty] at starts
  cases starts

theorem HexNumber.isWord_text (number : HexNumber) : IsWord number.text := by
  refine ⟨by simp [text], ?_⟩
  intro c member
  simp only [text, List.cons_append, List.mem_cons, List.mem_append, List.not_mem_nil,
    or_false] at member
  rcases member with isZero | isDigit | isLetter
  · rw [isZero]
    decide
  · exact isWordCharacter_of_isHexDigit (number.hexadecimal c isDigit)
  · rw [isLetter]
    decide

theorem Argument.isWord_text (argument : Argument) : IsWord argument.text := by
  cases argument with
  | literal number => exact number.isWord_text
  | reference name => exact name.isWord_text

def Argument.token (argument : Argument) : Token :=
  argument.text.map Char.toUpper

theorem Argument.isWord_token (argument : Argument) : IsWord argument.token :=
  argument.isWord_text.toUpper

theorem LabelName.isWord_folded (name : LabelName) : IsWord name.folded :=
  name.isWord_text.toUpper

/-- No operand is a mnemonic: a number starts with a digit, and a label's name is
chosen so. -/
theorem Argument.token_notMnemonic (argument : Argument) : argument.token ∉ Mnemonic.all := by
  cases argument with
  | literal number =>
      intro member
      have starts := (Mnemonic.wellSpelled_of_mem member).starts
      cases starts
  | reference name => exact name.notMnemonic

namespace SourceLine

def instructionTokens (line : SourceLine) : List Token :=
  Mnemonic.byteText line.byte :: (line.argument.map Argument.token).toList

def tokens (line : SourceLine) : List Token :=
  match line.label with
  | some name => (name.folded ++ [':']) :: line.instructionTokens
  | none => line.instructionTokens

def foldedLabel (line : SourceLine) : Text :=
  match line.label with
  | some name => name.folded ++ [':', ' ']
  | none => []

def foldedOperand (line : SourceLine) : Text :=
  match line.argument with
  | some argument => line.gap ++ argument.token ++ ['\n']
  | none => ['\n']

/-- The text of a line with its mnemonic substituted. -/
def substituted (line : SourceLine) : Text :=
  line.foldedLabel ++ Mnemonic.byteText line.byte ++ ' ' :: line.foldedOperand

theorem defined_mem (line : SourceLine) : (line.byte, line.opcode) ∈ Opcode.defined :=
  Opcode.mem_defined_of_lookup? line.defined

theorem wellSpelled (line : SourceLine) : Mnemonic.WellSpelled line.opcode.mnemonic :=
  Mnemonic.wellSpelled_of_mem (Mnemonic.mem_all_of_mem_defined line.defined_mem)

theorem gap_cases (line : SourceLine) :
    (line.gap = [] ∧ (line.argument = none ∨ line.opcode.mnemonic.getLast? = some ',')) ∨
      line.gap = [' '] ∧ line.opcode.mnemonic.getLast? ≠ some ',' := by
  unfold gap
  by_cases needless : line.argument.isNone || line.opcode.mnemonic.getLast? == some ','
  · rw [if_pos needless]
    left
    simpa using needless
  · rw [if_neg needless]
    right
    refine ⟨rfl, ?_⟩
    intro comma
    simp [comma] at needless

theorem endsBefore_foldedOperand (line : SourceLine) (rest : Text) :
    Mnemonic.endsBefore line.opcode.mnemonic (line.foldedOperand ++ rest) = true := by
  have lineEnd : isWhiteSpace '\n' = true := by decide
  have space : isWhiteSpace ' ' = true := by decide
  unfold foldedOperand Mnemonic.endsBefore
  cases argument : line.argument with
  | none => simp [lineEnd]
  | some operand =>
      rcases line.gap_cases with ⟨_, isNone | comma⟩ | ⟨isGap, _⟩
      · rw [argument] at isNone
        cases isNone
      · simp [comma]
      · simp [isGap, space]

theorem substitute_foldedOperand (line : SourceLine) (rest : Text) :
    Mnemonic.substitute (line.foldedOperand ++ rest) =
      line.foldedOperand ++ Mnemonic.substitute rest := by
  unfold foldedOperand
  cases line.argument with
  | none => exact Mnemonic.substituteFrom_lineEnd true rest
  | some argument =>
      have isGap : line.gap = [] ∨ line.gap = [' '] := line.gap_cases.imp And.left And.left
      have kept := Mnemonic.substitute_operand isGap argument.isWord_token
        argument.token_notMnemonic rest
      simpa using kept

/-- The folded text of a line is its label, its mnemonic and its operand. -/
theorem map_toUpper_text (line : SourceLine) :
    line.text.map Char.toUpper =
      line.foldedLabel ++ line.opcode.mnemonic ++ line.foldedOperand := by
  have mnemonic := line.wellSpelled.map_toUpper
  have gap : line.gap.map Char.toUpper = line.gap := by
    rcases line.gap_cases with ⟨isGap, _⟩ | ⟨isGap, _⟩
    · simp [isGap]
    · rw [isGap]
      rfl
  have lineEnd : '\n'.toUpper = '\n' := rfl
  have colon : ':'.toUpper = ':' := rfl
  have space : ' '.toUpper = ' ' := rfl
  unfold text labelText argumentText foldedLabel foldedOperand
  cases line.label with
  | none =>
      cases argument : line.argument with
      | none =>
          have noGap : line.gap = [] := by simp [SourceLine.gap, argument]
          simp [mnemonic, noGap, lineEnd]
      | some operand => simp [mnemonic, gap, lineEnd, Argument.token]
  | some name =>
      cases argument : line.argument with
      | none =>
          have noGap : line.gap = [] := by simp [SourceLine.gap, argument]
          simp [mnemonic, noGap, lineEnd, colon, space, LabelName.folded]
      | some operand =>
          simp [mnemonic, gap, lineEnd, colon, space, LabelName.folded, Argument.token]

/-- Substitution works line by line. -/
theorem substitute_text (line : SourceLine) (rest : Text) :
    Mnemonic.substitute (line.text.map Char.toUpper ++ rest) =
      line.substituted ++ Mnemonic.substitute rest := by
  have instruction : Mnemonic.substitute (line.opcode.mnemonic ++ (line.foldedOperand ++ rest)) =
      Mnemonic.byteText line.byte ++
        ' ' :: (line.foldedOperand ++ Mnemonic.substitute rest) := by
    rw [Mnemonic.substitute_mnemonic line.defined_mem (line.endsBefore_foldedOperand rest),
      line.substitute_foldedOperand rest]
  rw [line.map_toUpper_text]
  unfold substituted foldedLabel
  cases line.label with
  | none => simpa using instruction
  | some name =>
      simp only [List.append_assoc, List.cons_append, List.nil_append]
      rw [Mnemonic.substitute_word name.isWord_folded
        (Mnemonic.match?_word name.isWord_folded name.notMnemonic (by decide)),
        Mnemonic.substituteFrom_colon, Mnemonic.substitute_space, instruction]

theorem split_substituted (line : SourceLine) (rest : Text) :
    Token.split (Token.markLabels (line.substituted ++ rest)) =
      line.tokens ++ Token.split (Token.markLabels rest) := by
  have operand : Token.split (Token.markLabels (line.foldedOperand ++ rest)) =
      (line.argument.map Argument.token).toList ++ Token.split (Token.markLabels rest) := by
    unfold foldedOperand
    cases line.argument with
    | none => exact Token.split_blank (Or.inr rfl) rest
    | some argument =>
        have isGap : line.gap = [] ∨ line.gap = [' '] := line.gap_cases.imp And.left And.left
        have cut := Token.split_operand isGap argument.isWord_token rest
        simpa using cut
  have instruction : Token.split (Token.markLabels
      (Mnemonic.byteText line.byte ++ ' ' :: (line.foldedOperand ++ rest))) =
        line.instructionTokens ++ Token.split (Token.markLabels rest) := by
    rw [Token.split_word (Mnemonic.isWord_byteText line.byte) (Or.inl rfl), operand]
    rfl
  unfold substituted tokens foldedLabel
  cases line.label with
  | none => simpa using instruction
  | some name =>
      simp only [List.append_assoc, List.cons_append, List.nil_append]
      rw [Token.split_label name.isWord_folded, Token.split_blank (Or.inl rfl), instruction]

/-! ### The layout of a line -/

theorem mem_text {line : SourceLine} {c : Char} (member : c ∈ line.text) :
    isWordCharacter c = true ∨ Mnemonic.isSpelling c = true ∨ c = ':' ∨ c = '\n' := by
  simp only [text, List.mem_append, List.mem_singleton] at member
  rcases member with (((inLabel | inMnemonic) | inGap) | inArgument) | isEnd
  · unfold labelText at inLabel
    cases label : line.label with
    | none => simp [label] at inLabel
    | some name =>
        simp only [label, List.mem_append, List.mem_cons, List.not_mem_nil, or_false] at inLabel
        rcases inLabel with inName | isColon | isSpace
        · exact Or.inl (name.characters c inName)
        · exact Or.inr (Or.inr (Or.inl isColon))
        · exact Or.inr (Or.inl (by rw [isSpace]; decide))
  · exact Or.inr (Or.inl (line.wellSpelled.spelling c inMnemonic))
  · rcases line.gap_cases with ⟨isGap, _⟩ | ⟨isGap, _⟩
    · simp [isGap] at inGap
    · rw [isGap] at inGap
      exact Or.inr (Or.inl (by rw [List.mem_singleton.mp inGap]; decide))
  · unfold argumentText at inArgument
    cases argument : line.argument with
    | none => simp [argument] at inArgument
    | some operand =>
        simp only [argument] at inArgument
        exact Or.inl (operand.isWord_text.2 c inArgument)
  · exact Or.inr (Or.inr (Or.inr isEnd))

theorem isPlain_of_mem_text {line : SourceLine} {c : Char} (member : c ∈ line.text) :
    Layout.isPlain c = true := by
  rcases mem_text member with word | spelled | isColon | isEnd
  · exact (unremarkable_of_isWordCharacter word).plain
  · exact Mnemonic.isPlain_of_isSpelling spelled
  · rw [isColon]
    decide
  · rw [isEnd]
    decide

theorem settled_mnemonic (line : SourceLine) :
    Layout.Settled (line.opcode.mnemonic ++ line.gap) := by
  apply line.wellSpelled.settled_append
  rcases line.gap_cases with ⟨isGap, _⟩ | spaced
  · exact Or.inl isGap
  · exact Or.inr spaced

/-- The spaces of a line stand alone, and none of them behind a comma. -/
theorem settled_text (line : SourceLine) : Layout.Settled line.text := by
  have label : Layout.Settled line.labelText := by
    unfold labelText
    cases line.label with
    | none => exact ⟨List.isChain_nil, by simp⟩
    | some name =>
        exact name.isWord_text.settled.append ⟨by decide, by decide⟩
  have argument : Layout.Settled line.argumentText := by
    unfold argumentText
    cases line.argument with
    | none => exact ⟨List.isChain_nil, by simp⟩
    | some operand => exact operand.isWord_text.settled
  have lineEnd : Layout.Settled ['\n'] := ⟨by simp, by decide⟩
  have whole := ((label.append line.settled_mnemonic).append argument).append lineEnd
  unfold text
  rw [← List.append_assoc] at whole
  exact whole

/-! ### The tokens of a list of lines -/

theorem toNat_of_mem_substituted {line : SourceLine} {c : Char}
    (member : c ∈ line.substituted) : c.toNat < 0x80 := by
  have fromText (inFolded : c ∈ line.text.map Char.toUpper) : c.toNat < 0x80 := by
    obtain ⟨own, inText, isUpper⟩ := List.mem_map.mp inFolded
    have plain := isPlain_of_mem_text inText
    simp only [Layout.isPlain, Bool.and_eq_true, decide_eq_true_eq] at plain
    rw [← isUpper]
    exact forall_ascii (fun c => c.toUpper.toNat < 0x80) (by decide) plain.1.1.1.1
  rw [line.map_toUpper_text] at fromText
  simp only [substituted, List.mem_append, List.mem_cons] at member
  rcases member with (inLabel | inByte) | isSpace | inOperand
  · exact fromText (by simp [inLabel])
  · exact toNat_of_isWordCharacter ((Mnemonic.isWord_byteText line.byte).2 c inByte)
  · rw [isSpace]
    decide
  · exact fromText (by simp [inOperand])

theorem settled_lines (lines : List SourceLine) :
    Layout.Settled (lines.flatMap text ++ ['\n']) := by
  induction lines with
  | nil => exact ⟨by simp, by decide⟩
  | cons head tail inductionHypothesis =>
      rw [List.flatMap_cons, List.append_assoc]
      exact head.settled_text.append inductionHypothesis

theorem substitute_lines (lines : List SourceLine) :
    Mnemonic.substitute ((lines.flatMap text ++ ['\n']).map Char.toUpper) =
      lines.flatMap substituted ++ ['\n'] := by
  induction lines with
  | nil => exact Mnemonic.substituteFrom_boundary true [] (by decide) (by decide)
  | cons head tail inductionHypothesis =>
      rw [List.flatMap_cons, List.append_assoc, List.map_append, head.substitute_text,
        inductionHypothesis, List.flatMap_cons, List.append_assoc]

theorem split_lines (lines : List SourceLine) :
    Token.split (Token.markLabels (lines.flatMap substituted ++ ['\n'])) =
      lines.flatMap tokens := by
  induction lines with
  | nil => rfl
  | cons head tail inductionHypothesis =>
      rw [List.flatMap_cons, List.append_assoc, head.split_substituted, inductionHypothesis,
        List.flatMap_cons]

theorem unmarked_lines (lines : List SourceLine) :
    Quotation.openMark ∉ Token.markLabels (lines.flatMap substituted ++ ['\n']) := by
  intro member
  obtain ⟨c, inLines, marks⟩ := List.mem_flatMap.mp member
  have ascii : c.toNat < 0x80 := by
    rcases List.mem_append.mp inLines with inside | isEnd
    · obtain ⟨line, _, inLine⟩ := List.mem_flatMap.mp inside
      exact toNat_of_mem_substituted inLine
    · rw [List.mem_singleton.mp isEnd]
      decide
  split at marks
  · cases marks
  · split at marks
    · exact absurd marks (by decide)
    · rw [← List.mem_singleton.mp marks] at ascii
      exact absurd ascii (by decide)

/-- The text of a list of lines has the tokens of the lines. -/
theorem tokenize_lines (lines : List SourceLine) :
    tokenize (lines.flatMap text) = lines.flatMap tokens := by
  have plain : ∀ c ∈ lines.flatMap text ++ ['\n'], Layout.isPlain c = true := by
    intro c member
    rcases List.mem_append.mp member with inside | isEnd
    · obtain ⟨line, _, inLine⟩ := List.mem_flatMap.mp inside
      exact isPlain_of_mem_text inLine
    · rw [List.mem_singleton.mp isEnd]
      decide
  have free : ∀ c ∈ lines.flatMap text, c ≠ quoteMark ∧ c ≠ ';' := by
    intro c member
    have own := plain c (by simp [member])
    simp only [Layout.isPlain, Bool.and_eq_true, bne_iff_ne] at own
    exact ⟨own.1.1.1.2, own.1.1.2⟩
  have unquoted : quoteMark ∉ lines.flatMap text ++ ['\n'] := by
    intro member
    exact absurd (plain quoteMark member) (by decide)
  have settled := settled_lines lines
  have tightened : Layout.tightenCommas ((lines.flatMap text ++ ['\n']).map Char.toUpper) =
      (lines.flatMap text ++ ['\n']).map Char.toUpper := by
    apply Layout.tightenCommas_of_spaced
    apply (List.isChain_map _).mpr
    exact settled.spaced.imp fun _ _ spaced => spaced.toUpper
  unfold tokenize Tokenized.ofSource prepare
  rw [Comment.strip_of_free free, Quotation.protect_of_unquoted unquoted]
  dsimp only
  rw [Layout.fold_of_spaced plain settled.spaced, tightened, substitute_lines,
    Quotation.restore_of_unmarked _ (unmarked_lines lines), split_lines]

end SourceLine

end Asm8080
