import Asm8080.Proofs.LabelView
import Asm8080.Proofs.LayoutFreedom
import Asm8080.Proofs.Run
import Asm8080.Proofs.SourceStatements

/-!
Contract: an operand that a line leaves out, and when that is noticed.

Owns:
- instructions as lines spell them, with a number or without, and their tokens;
- the walk over such lines, with any tokens behind them;
- the statement that an instruction without its operand becomes: it takes the first
  token of the next lines, which may also turn it into a label;
- `missing_operand_noticed_iff`: the program is refused just if that token has no
  value of the wanted size, or if something else is wrong.

Does not own: what the next lines mean on their own.
-/

namespace Asm8080

/-! ### Lines of instructions -/

/-- A number as an operand spells it, in any radix and letter case. -/
structure NumberWord where
  text : Text
  isWord : IsWord text
  numeric : (Literal.value? (text.map Char.toUpper)).isSome = true

namespace NumberWord

def token (number : NumberWord) : Token :=
  number.text.map Char.toUpper

theorem isWord_token (number : NumberWord) : IsWord number.token :=
  number.isWord.toUpper

theorem token_notMnemonic (number : NumberWord) : number.token ∉ Mnemonic.all := by
  intro member
  have numeric := number.numeric
  rw [show Literal.value? (number.text.map Char.toUpper) = none from
    Mnemonic.value?_of_mem member] at numeric
  cases numeric

theorem ofToken?_ne_equ (number : NumberWord) : Directive.ofToken? number.token ≠ some .equ := by
  intro isEquate
  have numeric := number.numeric
  rw [show number.text.map Char.toUpper = Directive.equ.keyword from
    (Directive.keyword_of_ofToken? isEquate).symm] at numeric
  exact absurd numeric (by decide)

end NumberWord

/-- An instruction of the table as a line spells it, with a number or without. -/
structure InstructionLine where
  byte : UInt8
  opcode : Opcode
  defined : Opcode.lookup? byte.toNat = some opcode
  operand : Option NumberWord

namespace InstructionLine

/-- The line has an operand just where the instruction takes one. -/
def IsComplete (line : InstructionLine) : Prop :=
  line.opcode.operand = .none ↔ line.operand = none

/-- The instruction takes an operand, and the line ends without one. -/
structure IsBare (line : InstructionLine) : Prop where
  takes : line.opcode.operand ≠ .none
  missing : line.operand = none

/-- The space between mnemonic and operand, which a comma at the mnemonic's end makes
needless. -/
def gap (line : InstructionLine) : Text :=
  if line.opcode.mnemonic.getLast? = some ',' then [] else [' ']

def operandText (line : InstructionLine) : Text :=
  match line.operand with
  | some number => line.gap ++ number.text
  | none => []

def body (line : InstructionLine) : Text :=
  line.opcode.mnemonic ++ line.operandText

def text (line : InstructionLine) : Text :=
  line.body ++ ['\n']

def tokens (line : InstructionLine) : List Token :=
  Mnemonic.byteText line.byte :: (line.operand.map NumberWord.token).toList

theorem defined_mem (line : InstructionLine) : (line.byte, line.opcode) ∈ Opcode.defined :=
  Opcode.mem_defined_of_lookup? line.defined

theorem wellSpelled (line : InstructionLine) : Mnemonic.WellSpelled line.opcode.mnemonic :=
  Mnemonic.wellSpelled_of_mem (Mnemonic.mem_all_of_mem_defined line.defined_mem)

theorem gap_cases (line : InstructionLine) :
    (line.gap = [] ∧ line.opcode.mnemonic.getLast? = some ',') ∨
      line.gap = [' '] ∧ line.opcode.mnemonic.getLast? ≠ some ',' := by
  unfold gap
  by_cases comma : line.opcode.mnemonic.getLast? = some ','
  · simp [comma]
  · simp [comma]

/-! ### The layout of a line -/

theorem isPlain_of_mem_text {line : InstructionLine} {c : Char} (member : c ∈ line.text) :
    Layout.isPlain c = true := by
  simp only [text, body, List.mem_append, List.mem_singleton] at member
  rcases member with (inMnemonic | inOperand) | isEnd
  · exact Mnemonic.isPlain_of_isSpelling (line.wellSpelled.spelling c inMnemonic)
  · unfold operandText at inOperand
    cases operand : line.operand with
    | none => simp [operand] at inOperand
    | some number =>
        simp only [operand, List.mem_append] at inOperand
        rcases inOperand with inGap | inNumber
        · rcases line.gap_cases with ⟨isGap, _⟩ | ⟨isGap, _⟩
          · simp [isGap] at inGap
          · rw [isGap] at inGap
            rw [List.mem_singleton.mp inGap]
            decide
        · exact (number.isWord.unremarkable c inNumber).plain
  · rw [isEnd]
    decide

theorem settled_text (line : InstructionLine) : Layout.Settled line.text := by
  have lineEnd : Layout.Settled ['\n'] := ⟨by simp, by decide⟩
  unfold text body operandText
  cases line.operand with
  | none => exact (line.wellSpelled.settled_append (Or.inl rfl)).append lineEnd
  | some number =>
      have front : Layout.Settled (line.opcode.mnemonic ++ line.gap) := by
        apply line.wellSpelled.settled_append
        rcases line.gap_cases with ⟨noGap, _⟩ | spaced
        · exact Or.inl noGap
        · exact Or.inr spaced
      rw [← List.append_assoc]
      exact (front.append number.isWord.settled).append lineEnd

theorem prepare_text (line : InstructionLine) :
    prepare line.text = Token.markLabels (Mnemonic.substitute (line.text.map Char.toUpper)) := by
  have settled := line.settled_text
  have tightened : Layout.tightenCommas (line.text.map Char.toUpper) =
      line.text.map Char.toUpper := by
    apply Layout.tightenCommas_of_spaced
    apply (List.isChain_map _).mpr
    exact settled.spaced.imp fun _ _ spaced => spaced.toUpper
  unfold prepare
  rw [Layout.fold_of_spaced (fun c => isPlain_of_mem_text) settled.spaced, tightened]

/-! ### The tokens of lines -/

theorem split_substitute (line : InstructionLine) :
    Token.split (Token.markLabels (Mnemonic.substitute (line.text.map Char.toUpper))) =
      line.tokens := by
  have lineEnd : '\n'.toUpper = '\n' := rfl
  have behindByte (rest : Text) : Token.split (Token.markLabels
      (Mnemonic.byteText line.byte ++ ' ' :: rest)) =
        Mnemonic.byteText line.byte :: Token.split (Token.markLabels rest) :=
    Token.split_word (Mnemonic.isWord_byteText line.byte) (Or.inl rfl) rest
  unfold text body operandText tokens
  cases line.operand with
  | none =>
      have ends : Mnemonic.endsBefore line.opcode.mnemonic ['\n'] = true := by
        have blank : isWhiteSpace '\n' = true := by decide
        simp [Mnemonic.endsBefore, blank]
      have substituted := Mnemonic.substitute_mnemonic line.defined_mem ends
      have alone : Mnemonic.substitute ['\n'] = ['\n'] := Mnemonic.substituteFrom_lineEnd true []
      rw [List.append_nil, List.map_append, line.wellSpelled.map_toUpper, List.map_singleton,
        lineEnd, substituted, behindByte, alone, Token.split_blank (Or.inr rfl)]
      rfl
  | some number =>
      have isGap : line.gap = [] ∨ line.gap = [' '] := line.gap_cases.imp And.left And.left
      have ends : Mnemonic.endsBefore line.opcode.mnemonic
          (line.gap ++ number.token ++ ['\n']) = true := by
        have blank : isWhiteSpace ' ' = true := by decide
        rcases line.gap_cases with ⟨_, comma⟩ | ⟨isSpace, _⟩
        · simp [Mnemonic.endsBefore, comma]
        · simp [Mnemonic.endsBefore, isSpace, blank]
      have folded : (line.opcode.mnemonic ++ (line.gap ++ number.text) ++ ['\n']).map Char.toUpper =
          line.opcode.mnemonic ++ (line.gap ++ number.token ++ ['\n']) := by
        have gap : line.gap.map Char.toUpper = line.gap := by
          rcases isGap with noGap | isSpace
          · simp [noGap]
          · rw [isSpace]
            rfl
        simp [line.wellSpelled.map_toUpper, gap, lineEnd, NumberWord.token]
      rw [folded, Mnemonic.substitute_mnemonic line.defined_mem ends, behindByte,
        Mnemonic.substitute_operand isGap number.isWord_token number.token_notMnemonic,
        Token.split_operand isGap number.isWord_token]
      rfl

/-- The code of lines has the tokens of the lines. -/
theorem ofCode_lines (lines : List InstructionLine) :
    Token.ofCode (lines.flatMap text) = lines.flatMap tokens := by
  have plain (line : InstructionLine) : quoteMark ∉ line.text ∧ Quotation.openMark ∉ line.text :=
    ⟨fun member => absurd (isPlain_of_mem_text member) (by decide),
      fun member => absurd (isPlain_of_mem_text member) (by decide)⟩
  induction lines with
  | nil => rfl
  | cons head tail inductionHypothesis =>
      have own : Token.ofCode head.text = head.tokens := by
        rw [Token.ofCode_of_unquoted (plain head).1 (plain head).2, head.prepare_text,
          head.split_substitute]
      have unquoted : quoteMark ∉ head.body := fun member => (plain head).1 (by simp [text, member])
      have unmarked : Quotation.openMark ∉ head.body := fun member =>
        (plain head).2 (by simp [text, member])
      have alone : Token.ofCode head.text = Token.ofCode head.body := by
        have cut := Token.ofCode_lineEnd_of_unquoted unquoted unmarked []
        exact cut.trans (List.append_nil _)
      rw [List.flatMap_cons, List.flatMap_cons, text, List.append_assoc, List.singleton_append,
        Token.ofCode_lineEnd_of_unquoted unquoted unmarked, inductionHypothesis, ← alone, own]

/-! ### The walk over complete lines -/

def instruction (line : InstructionLine) : Statement :=
  .instruction line.byte line.opcode (line.operand.map NumberWord.token)

/-- The statements of lines, the first of which starts at token `index`. -/
def statementsFrom : Nat → List InstructionLine → List Located
  | _, [] => []
  | index, line :: tail =>
      ⟨index, line.instruction⟩ :: statementsFrom (index + line.tokens.length) tail

theorem equateFollows_tokens (lines : List InstructionLine) {rest : List Token}
    (noEquate : Statement.equateFollows rest = false) :
    Statement.equateFollows (lines.flatMap tokens ++ rest) = false := by
  cases lines with
  | nil => exact noEquate
  | cons head tail =>
      have notDirective := (Mnemonic.byteText_read head.byte).1
      simp [Statement.equateFollows, tokens, notDirective]

theorem listFrom_tokens {lines : List InstructionLine} (complete : ∀ line ∈ lines, line.IsComplete)
    (index : Nat) {rest : List Token} (noEquate : Statement.equateFollows rest = false) :
    Located.listFrom index 0 (lines.flatMap tokens ++ rest) =
      statementsFrom index lines ++
        Located.listFrom (index + (lines.flatMap tokens).length) 0 rest := by
  induction lines generalizing index with
  | nil => rfl
  | cons head tail inductionHypothesis =>
      have headComplete := complete head (by simp)
      have noEquateBehind : Statement.equateFollows
          ((head.operand.map NumberWord.token).toList ++ (tail.flatMap tokens ++ rest)) =
            false := by
        cases head.operand with
        | none => exact equateFollows_tokens tail noEquate
        | some number => simpa [Statement.equateFollows] using number.ofToken?_ne_equ
      have here := Located.listFrom_byteText head.defined
        (headComplete.trans Option.map_eq_none_iff.symm) index noEquateBehind
      have later := inductionHypothesis (fun line member => complete line (by simp [member]))
        (index + head.tokens.length)
      have width : index + 1 + (head.operand.map NumberWord.token).toList.length =
          index + head.tokens.length := by
        simp only [tokens, List.length_cons]
        omega
      have behind : index + head.tokens.length + (tail.flatMap tokens).length =
          index + ((head :: tail).flatMap tokens).length := by
        rw [List.flatMap_cons, List.length_append]
        omega
      rw [width, later, behind] at here
      rw [List.flatMap_cons, List.append_assoc, tokens, List.cons_append, here]
      rfl

/-! ### The statement of a line without its operand -/

/-- What an instruction without its operand is read as. -/
theorem read_bare {bare : InstructionLine} (isBare : bare.IsBare) (rest : List Token) :
    Statement.read (Mnemonic.byteText bare.byte) rest =
      if Statement.equateFollows rest then
        .equate (Label.fullName (Mnemonic.byteText bare.byte)) rest.tail.head?
      else .instruction bare.byte bare.opcode rest.head? := by
  cases equate : Statement.equateFollows rest with
  | true =>
      have unquoted : Statement.isQuoted (Mnemonic.byteText bare.byte) = false := by
        apply Bool.eq_false_iff.mpr
        intro isQuoted
        have inside := List.mem_of_head? (beq_iff_eq.mp isQuoted)
        exact ((Mnemonic.isWord_byteText bare.byte).unremarkable _ inside).unbroken.1 rfl
      simp [Statement.read, Statement.definesLabel, equate, unquoted]
  | false =>
      rw [Statement.read_byteText bare.defined equate, if_neg isBare.takes]
      rfl

/-- Whether the tokens of the next lines stand in for the operand: the first of them has a
value of the wanted size, or it is an equate with a value. -/
def isCovered (line : InstructionLine) (labels : LabelTable) (rest : List Token) : Bool :=
  if Statement.equateFollows rest then
    rest.tail.head?.any fun token => (Literal.word token).isOk
  else
    rest.head?.any fun token =>
      match line.opcode.operand with
      | .none => false
      | .byte => (Operand.byte labels token).isOk
      | .word => (Operand.word labels token).isOk

end InstructionLine

/-! ### Repetitions -/

namespace Survey

/-- The first definition of a program repeats nothing. -/
theorem repetitions_symbolsAfter_empty (pc : Nat) (located : Located) :
    (symbolsAfter Symbols.empty pc located).repetitions = [] := by
  unfold symbolsAfter
  split
  · rfl
  · split <;> rfl
  · split <;> rfl
  · rfl

end Survey

namespace InstructionLine

/-! ### The passes over a line without its operand -/

theorem symbols_statementsFrom (lines : List InstructionLine) (index : Nat) (survey : Survey) :
    ((statementsFrom index lines).foldl Survey.step survey).symbols = survey.symbols := by
  induction lines generalizing index survey with
  | nil => rfl
  | cons head tail inductionHypothesis => exact inductionHypothesis _ _

variable {lines : List InstructionLine} {bare : InstructionLine}

/-- The walk over complete lines, a line without its operand, and any tokens behind. -/
theorem list_bare (complete : ∀ line ∈ lines, line.IsComplete) (isBare : bare.IsBare)
    (rest : List Token) :
    ∃ behind, Located.list (lines.flatMap tokens ++ Mnemonic.byteText bare.byte :: rest) =
        statementsFrom 0 lines ++
          ⟨(lines.flatMap tokens).length, Statement.read (Mnemonic.byteText bare.byte) rest⟩ ::
            behind ∧
      Located.AdjacentFrom (lines.flatMap tokens).length
        (⟨(lines.flatMap tokens).length, Statement.read (Mnemonic.byteText bare.byte) rest⟩ ::
          behind) := by
  have noEquate : Statement.equateFollows (Mnemonic.byteText bare.byte :: rest) = false := by
    simp [Statement.equateFollows, (Mnemonic.byteText_read bare.byte).1]
  have goesOn : Statement.read (Mnemonic.byteText bare.byte) rest ≠ .finish := by
    rw [read_bare isBare]
    split <;> simp
  have here := listFrom_tokens complete 0 noEquate
  have adjacent := Located.adjacentFrom_listFrom (lines.flatMap tokens).length 0
    (Mnemonic.byteText bare.byte :: rest)
  rw [Nat.zero_add, Located.listFrom, if_neg goesOn] at here
  rw [Nat.add_zero, Located.listFrom, if_neg goesOn] at adjacent
  exact ⟨_, here, adjacent⟩

/-- No label is defined before the line, so that it repeats none and sees none. -/
theorem symbols_bare (complete : ∀ line ∈ lines, line.IsComplete) (isBare : bare.IsBare)
    {rest : List Token} {symbols : Symbols}
    (isSymbols : Symbols.ofTokens (lines.flatMap tokens ++ Mnemonic.byteText bare.byte :: rest) =
      symbols) :
    symbols.isRepetition (lines.flatMap tokens).length = false ∧
      ∀ operand, Counter.operandValue? symbols.labels (lines.flatMap tokens).length operand =
        operand.bind fun token => (Literal.word token).toOption := by
  obtain ⟨behind, walked, adjacent⟩ := list_bare complete isBare rest
  generalize isLocated : (⟨(lines.flatMap tokens).length,
    Statement.read (Mnemonic.byteText bare.byte) rest⟩ : Located) = located at walked adjacent
  have isIndex : located.index = (lines.flatMap tokens).length := by rw [← isLocated]
  generalize isSurvey : (statementsFrom 0 lines).foldl Survey.step ⟨0, Symbols.empty⟩ = survey
  have noSymbols : survey.symbols = Symbols.empty := by
    rw [← isSurvey, symbols_statementsFrom]
  have ran : ((located :: behind).foldl Survey.step survey).symbols = symbols := by
    rw [← isSymbols, Symbols.ofTokens, Survey.run, walked, List.foldl_append, isSurvey]
  constructor
  · have later : ∀ other ∈ behind, other.index ≠ (lines.flatMap tokens).length := by
      intro other member
      have atLeast := adjacent.2.index_le other member
      have positive := (Statement.width_bounds located.statement).1
      omega
    have noneYet : (survey.step located).symbols.repetitions = [] := by
      unfold Survey.step
      rw [noSymbols]
      exact Survey.repetitions_symbolsAfter_empty survey.pc located
    rw [← ran, List.foldl_cons, Survey.isRepetition_foldl _ later, Symbols.isRepetition, noneYet]
    rfl
  · intro operand
    have underway : Survey.Underway symbols.labels (lines.flatMap tokens).length survey
        (located :: behind) := by
      refine ⟨adjacent, ?_, by rw [ran]⟩
      rw [noSymbols]
      intro name label found
      cases found
    rw [← isIndex, underway.operandValue?_eq, noSymbols]
    rfl

theorem isSome_fault_ofInstruction (labels : LabelTable) (takes : bare.opcode.operand ≠ .none)
    (operand : Option Token) :
    (Emission.ofInstruction labels bare.byte bare.opcode operand).fault.isSome =
      !operand.any fun token =>
        match bare.opcode.operand with
        | .none => false
        | .byte => (Operand.byte labels token).isOk
        | .word => (Operand.word labels token).isOk := by
  unfold Emission.ofInstruction
  cases kind : bare.opcode.operand with
  | none => exact absurd kind takes
  | byte =>
      cases operand with
      | none => rfl
      | some token =>
          simp only [Emission.byteOperand, Option.any_some]
          cases Operand.byte labels token with
          | ok value => rfl
          | error fault => rfl
  | word =>
      cases operand with
      | none => rfl
      | some token =>
          simp only [Emission.wordOperand, Option.any_some]
          cases Operand.word labels token with
          | ok value => rfl
          | error fault => rfl

/-- The line is faulty just if the next lines do not stand in for its operand. -/
theorem isSome_fault_bare (complete : ∀ line ∈ lines, line.IsComplete) (isBare : bare.IsBare)
    {rest : List Token} {symbols : Symbols}
    (isSymbols : Symbols.ofTokens (lines.flatMap tokens ++ Mnemonic.byteText bare.byte :: rest) =
      symbols) :
    (Emission.ofStatement symbols
        ⟨(lines.flatMap tokens).length,
          Statement.read (Mnemonic.byteText bare.byte) rest⟩).fault.isSome =
      !bare.isCovered symbols.labels rest := by
  obtain ⟨noRepetition, seesLiterals⟩ := symbols_bare complete isBare isSymbols
  rw [read_bare isBare]
  unfold isCovered Emission.ofStatement
  cases equate : Statement.equateFollows rest with
  | true =>
      simp only [↓reduceIte, noRepetition, Bool.false_eq_true, seesLiterals]
      cases rest.tail.head? with
      | none => rfl
      | some token =>
          rw [Option.bind_some, Option.any_some]
          cases Literal.word token with
          | ok value => rfl
          | error fault => rfl
  | false => exact isSome_fault_ofInstruction symbols.labels isBare.takes rest.head?

end InstructionLine

/-! ### Programs that lack an operand -/

theorem Record.exists_of_mem_list {tokens : List Token} {located : Located}
    (member : located ∈ Located.list tokens) :
    ∃ record ∈ Record.ofTokens tokens, record.located = located := by
  rw [← Record.map_located_list (Symbols.ofTokens tokens) false 0 (Located.list tokens)] at member
  exact List.mem_map.mp member

/-- The statement of a record is read at its token. -/
theorem Record.located_eq_of_drop {tokens : List Token} {record : Record}
    (member : record ∈ Record.ofTokens tokens) {token : Token} {rest : List Token}
    (dropped : tokens.drop record.located.index = token :: rest) :
    record.located = ⟨record.located.index, Statement.read token rest⟩ := by
  obtain ⟨own, ownRest, ownDropped, isRead⟩ :=
    Located.exists_read_of_mem_list (Record.located_mem_of_mem member)
  obtain ⟨isToken, isRest⟩ := List.cons.inj (ownDropped.symm.trans dropped)
  rw [isToken, isRest] at isRead
  rw [← isRead]

/-- Lines of instructions in any layout, the last of which lacks its operand, and anything
behind them. The program is refused just if the next lines do not stand in for the operand, or
if something else is wrong. -/
theorem missing_operand_noticed_iff {front : Text} {lines : List InstructionLine}
    {bare : InstructionLine} (complete : ∀ line ∈ lines, line.IsComplete) (isBare : bare.IsBare)
    (plain : ∀ c ∈ Comment.strip front, c ≠ quoteMark ∧ c ≠ Quotation.openMark)
    (spelled : Layout.Alike (Comment.strip front)
      ((lines ++ [bare]).flatMap InstructionLine.text))
    (rest : Text) :
    (assembleSource (front ++ '\n' :: rest)).success = false ↔
      bare.isCovered (Symbols.ofTokens (tokenize (front ++ '\n' :: rest))).labels
          (tokenize rest) = false ∨
        ∃ record ∈ Record.ofTokens (tokenize (front ++ '\n' :: rest)),
          record.overflows = true ∨
            record.emission.fault.isSome = true ∧
              record.located.index ≠ (lines.flatMap InstructionLine.tokens).length := by
  have unmarked : Quotation.openMark ∉ Comment.strip front := fun member =>
    (plain _ member).2 rfl
  have tokens : tokenize (front ++ '\n' :: rest) =
      lines.flatMap InstructionLine.tokens ++ Mnemonic.byteText bare.byte :: tokenize rest := by
    rw [tokenize_lineEnd_of_unquoted plain, Token.tokenize_eq_ofCode, spelled.ofCode_eq.2 unmarked,
      InstructionLine.ofCode_lines, List.flatMap_append]
    simp [InstructionLine.tokens, isBare.missing]
  unfold assembleSource
  rw [Assembly.success_eq_false_iff, tokens]
  generalize isTokens : lines.flatMap InstructionLine.tokens ++
    Mnemonic.byteText bare.byte :: tokenize rest = whole
  obtain ⟨behind, walked, _⟩ := InstructionLine.list_bare complete isBare (tokenize rest)
  have faulty := @InstructionLine.isSome_fault_bare lines bare complete isBare (tokenize rest)
    (Symbols.ofTokens whole) (by rw [isTokens])
  constructor
  · rintro ⟨record, member, overflows | hasFault⟩
    · exact Or.inr ⟨record, member, Or.inl overflows⟩
    · by_cases atBare : record.located.index = (lines.flatMap InstructionLine.tokens).length
      · have isLocated := Record.located_eq_of_drop member
          (show whole.drop record.located.index = Mnemonic.byteText bare.byte :: tokenize rest by
            rw [atBare, ← isTokens, List.drop_left])
        rw [(Record.eq_of_mem_list member).2, isLocated, atBare, faulty] at hasFault
        exact Or.inl (by simpa using hasFault)
      · exact Or.inr ⟨record, member, Or.inr ⟨hasFault, atBare⟩⟩
  · rintro (uncovered | ⟨record, member, overflows | ⟨hasFault, _⟩⟩)
    · have bareWalked : (⟨(lines.flatMap InstructionLine.tokens).length,
          Statement.read (Mnemonic.byteText bare.byte) (tokenize rest)⟩ : Located) ∈
            Located.list whole := by
        rw [← isTokens, walked]
        exact List.mem_append_right _ List.mem_cons_self
      obtain ⟨record, member, isLocated⟩ := Record.exists_of_mem_list bareWalked
      refine ⟨record, member, Or.inr ?_⟩
      rw [(Record.eq_of_mem_list member).2, isLocated, faulty, uncovered]
      rfl
    · exact ⟨record, member, Or.inl overflows⟩
    · exact ⟨record, member, Or.inr hasFault⟩

private def loadLine : InstructionLine :=
  ⟨0x3E, ⟨"MVI A,".toList, .byte⟩, by decide,
    some ⟨"0fh".toList, ⟨by decide, List.all_eq_true.mp (by decide)⟩, by decide⟩⟩

private def callLine : InstructionLine :=
  ⟨0xCD, ⟨"CALL".toList, .word⟩, by decide, none⟩

/-- A call without its target at the end of a program. -/
theorem missing_operand_noticed_iff_last :
    (assembleSource ("MVI A,0fh ; fifteen\nCALL".toList ++ '\n' :: "; done".toList)).success =
      false := by
  have complete : ∀ line ∈ [loadLine], line.IsComplete := by
    simp [InstructionLine.IsComplete, loadLine]
  have spelled : Layout.Alike (Comment.strip "MVI A,0fh ; fifteen\nCALL".toList)
      (([loadLine] ++ [callLine]).flatMap InstructionLine.text) :=
    .rel _ _ (@Layout.Edit.unpad "MVI A,0fh".toList " ".toList "\nCALL\n".toList
      (by decide) (by decide) (by decide))
  have plain : ∀ c ∈ Comment.strip "MVI A,0fh ; fifteen\nCALL".toList,
      c ≠ quoteMark ∧ c ≠ Quotation.openMark := by
    have checked : (Comment.strip "MVI A,0fh ; fifteen\nCALL".toList).all
        (fun c => c != quoteMark && c != Quotation.openMark) = true := by decide +kernel
    simpa using checked
  have nothing : tokenize "; done".toList = [] := by decide +kernel
  have noticed := missing_operand_noticed_iff complete ⟨by decide, rfl⟩ plain spelled
    "; done".toList
  exact noticed.mpr (Or.inl (by rw [nothing]; rfl))

/-- A jump without its target before another line: the opcode of that line becomes the
target. -/
theorem missing_operand_unnoticed :
    (assembleSource "JMP\nNOP\n".toList).success = true ∧
      (assembleSource "JMP\nNOP\n".toList).bytes = [0xC3, 0x00, 0x00] := by
  have tokens : tokenize "JMP\nNOP\n".toList = ["C3".toList, "00".toList] := by
    simp only [tokenize, Tokenized.ofSource, prepare, Mnemonic.substitute_eq_defined]
    decide +kernel
  unfold assembleSource
  rw [tokens]
  decide +kernel

end Asm8080
