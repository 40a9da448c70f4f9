import Asm8080.Proofs.Tokenization

/-!
Contract: the statements that a program's tokens are read as.

Owns:
- the tokens that opcode bytes become, and that each is read as its instruction;
- that no token of a program is the equate directive, so that no label is taken
  for an equate;
- the statements of a line, and the walk over the tokens of a list of lines.

Does not own: values and addresses.
-/

namespace Asm8080

/-! ### Opcode bytes as tokens -/

/-- The text of an opcode byte is no directive, and reads as the byte. -/
theorem Mnemonic.byteText_read (byte : UInt8) :
    Directive.ofToken? (byteText byte) = none ∧ Literal.isHex (byteText byte) = true ∧
      Statement.hexValue (byteText byte) = byte.toNat := by
  have each : ∀ value < 256, Directive.ofToken? (byteText (UInt8.ofNat value)) = none ∧
      Literal.isHex (byteText (UInt8.ofNat value)) = true ∧
        Statement.hexValue (byteText (UInt8.ofNat value)) = value := by
    decide +kernel
  have atByte := each byte.toNat byte.toNat_lt
  rwa [UInt8.ofNat_toNat] at atByte

theorem IsWord.getLast?_ne_colon {word : Text} (isWord : IsWord word) :
    word.getLast? ≠ some ':' := by
  intro isColon
  exact (isWord.unremarkable ':' (List.mem_of_getLast? isColon)).unmarked.2 rfl

theorem IsWord.fullName {word : Text} (isWord : IsWord word) :
    Label.fullName word = word ++ [':'] :=
  if_neg isWord.getLast?_ne_colon

/-- The text of a defined byte is read as its instruction, unless an equate follows. -/
theorem Statement.read_byteText {byte : UInt8} {opcode : Opcode}
    (defined : Opcode.lookup? byte.toNat = some opcode) {rest : List Token}
    (noEquate : equateFollows rest = false) :
    read (Mnemonic.byteText byte) rest =
      .instruction byte opcode (if opcode.operand = .none then none else rest.head?) := by
  obtain ⟨noDirective, isHex, value⟩ := Mnemonic.byteText_read byte
  have notLabel := (Mnemonic.isWord_byteText byte).getLast?_ne_colon
  unfold read
  rw [if_neg (by simp [definesLabel, noEquate, notLabel]), noDirective]
  dsimp only
  rw [if_pos isHex]
  unfold ofHex
  rw [value, defined]
  dsimp only
  rw [UInt8.ofNat_toNat]

/-- An instruction with just the operand that it takes is a statement, and the walk goes on
behind it. -/
theorem Located.listFrom_byteText {byte : UInt8} {opcode : Opcode}
    (defined : Opcode.lookup? byte.toNat = some opcode) {operand : Option Token}
    (complete : opcode.operand = .none ↔ operand = none) (index : Nat) {rest : List Token}
    (noEquate : Statement.equateFollows (operand.toList ++ rest) = false) :
    listFrom index 0 (Mnemonic.byteText byte :: (operand.toList ++ rest)) =
      ⟨index, .instruction byte opcode operand⟩ ::
        listFrom (index + 1 + operand.toList.length) 0 rest := by
  have taken : (if opcode.operand = .none then none else (operand.toList ++ rest).head?) =
      operand := by
    cases isOperand : operand with
    | none => rw [if_pos (complete.mpr isOperand)]
    | some own =>
        rw [if_neg fun isNone => by simp [complete.mp isNone] at isOperand]
        rfl
  rw [listFrom, Statement.read_byteText defined noEquate, taken, if_neg (by simp), listFrom_skip]
  cases operand with
  | none => simp [Statement.width, Statement.operandWidth]
  | some own => simp [Statement.width, Statement.operandWidth]

/-! ### No equates -/

namespace SourceLine

/-- A token of a line is a label with its colon, an opcode byte or an operand. -/
theorem mem_tokens {line : SourceLine} {token : Token} (member : token ∈ line.tokens) :
    (∃ name : LabelName, token = name.folded ++ [':']) ∨ token = Mnemonic.byteText line.byte ∨
      ∃ argument : Argument, token = argument.token := by
  have ofInstruction (inside : token ∈ line.instructionTokens) :
      token = Mnemonic.byteText line.byte ∨ ∃ argument : Argument, token = argument.token := by
    simp only [instructionTokens, List.mem_cons, Option.mem_toList,
      Option.map_eq_some_iff] at inside
    rcases inside with isByte | ⟨argument, _, isArgument⟩
    · exact Or.inl isByte
    · exact Or.inr ⟨argument, isArgument.symm⟩
  unfold tokens at member
  cases label : line.label with
  | none =>
      simp only [label] at member
      exact Or.inr (ofInstruction member)
  | some name =>
      simp only [label, List.mem_cons] at member
      rcases member with isLabel | inside
      · exact Or.inl ⟨name, isLabel⟩
      · exact Or.inr (ofInstruction inside)

theorem mem_tokens_of_mem_instructionTokens {line : SourceLine} {token : Token}
    (member : token ∈ line.instructionTokens) : token ∈ line.tokens := by
  unfold tokens
  cases line.label with
  | none => exact member
  | some name => exact List.mem_cons_of_mem _ member

/-- No token of a line is the equate directive. -/
theorem ofToken?_ne_equ {line : SourceLine} {token : Token} (member : token ∈ line.tokens) :
    Directive.ofToken? token ≠ some .equ := by
  intro isEquate
  have spelled := Directive.keyword_of_ofToken? isEquate
  rcases mem_tokens member with ⟨name, isLabel⟩ | isByte | ⟨argument, isArgument⟩
  · have ends := congrArg List.getLast? (spelled.trans isLabel)
    rw [List.getLast?_concat] at ends
    exact absurd ends (by decide)
  · rw [isByte, (Mnemonic.byteText_read line.byte).1] at isEquate
    cases isEquate
  · rw [isArgument] at spelled
    cases argument with
    | literal number =>
        have starts := congrArg List.head? spelled
        exact absurd starts (by simp [Argument.token, Argument.text, HexNumber.text]; decide)
    | reference name => exact name.notEquate spelled.symm

theorem equateFollows_of_mem (line : SourceLine) {own rest : List Token}
    (ofLine : ∀ token ∈ own, token ∈ line.tokens)
    (ofLines : ∀ token ∈ rest, ∃ line : SourceLine, token ∈ line.tokens) :
    Statement.equateFollows (own ++ rest) = false := by
  unfold Statement.equateFollows
  cases tokens : own ++ rest with
  | nil => rfl
  | cons head tail =>
      have member : head ∈ own ++ rest := by simp [tokens]
      have notEquate : Directive.ofToken? head ≠ some .equ := by
        rcases List.mem_append.mp member with inOwn | inRest
        · exact ofToken?_ne_equ (ofLine head inOwn)
        · obtain ⟨later, inLater⟩ := ofLines head inRest
          exact ofToken?_ne_equ inLater
      simpa using notEquate

/-! ### Reading a line -/

def instruction (line : SourceLine) : Statement :=
  .instruction line.byte line.opcode (line.argument.map Argument.token)

/-- Whether the line has an operand just where the instruction takes one. -/
def IsComplete (line : SourceLine) : Prop :=
  line.opcode.operand = .none ↔ line.argument = none

theorem isComplete_of_fits {lines : List SourceLine} {line : SourceLine}
    (fits : line.fits lines = true) : line.IsComplete := by
  unfold SourceLine.fits at fits
  unfold IsComplete
  split at fits
  · rename_i kind noArgument
    exact ⟨fun _ => noArgument, fun _ => kind⟩
  · rename_i kind isArgument
    simp [kind, isArgument]
  · rename_i kind isArgument
    simp [kind, isArgument]
  · rename_i kind isArgument
    simp [kind, isArgument]
  · cases fits

theorem read_label (name : LabelName) {rest : List Token}
    (noEquate : Statement.equateFollows rest = false) :
    Statement.read (name.folded ++ [':']) rest = .label (name.folded ++ [':']) := by
  have unquoted : Statement.isQuoted (name.folded ++ [':']) = false := by
    have isWord := name.isWord_folded
    unfold Statement.isQuoted
    cases folded : name.folded with
    | nil => exact absurd folded isWord.1
    | cons head tail =>
        have plain := (isWord.unremarkable head (by simp [folded])).unbroken.1
        simpa using plain
  simp [Statement.read, Statement.definesLabel, noEquate, unquoted, Label.fullName]

/-! ### The walk over lines -/

def statements (index : Nat) (line : SourceLine) : List Located :=
  match line.label with
  | some name => [⟨index, .label (name.folded ++ [':'])⟩, ⟨index + 1, line.instruction⟩]
  | none => [⟨index, line.instruction⟩]

/-- The statements of lines, the first of which starts at token `index`. -/
def statementsFrom : Nat → List SourceLine → List Located
  | _, [] => []
  | index, line :: tail =>
      line.statements index ++ statementsFrom (index + line.tokens.length) tail

theorem listFrom_instruction {line : SourceLine} (complete : line.IsComplete) (index : Nat)
    {rest : List Token}
    (ofLines : ∀ token ∈ rest, ∃ line : SourceLine, token ∈ line.tokens) :
    Located.listFrom index 0 (line.instructionTokens ++ rest) =
      ⟨index, line.instruction⟩ ::
        Located.listFrom (index + line.instructionTokens.length) 0 rest := by
  have noEquate : Statement.equateFollows
      ((line.argument.map Argument.token).toList ++ rest) = false := by
    refine equateFollows_of_mem line ?_ ofLines
    intro token member
    exact mem_tokens_of_mem_instructionTokens (List.mem_cons_of_mem _ member)
  have walked := Located.listFrom_byteText line.defined
    (complete.trans Option.map_eq_none_iff.symm) index noEquate
  have width : index + line.instructionTokens.length =
      index + 1 + (line.argument.map Argument.token).toList.length := by
    simp only [instructionTokens, List.length_cons]
    omega
  rw [width]
  exact walked

theorem listFrom_tokens {line : SourceLine} (complete : line.IsComplete) (index : Nat)
    {rest : List Token}
    (ofLines : ∀ token ∈ rest, ∃ line : SourceLine, token ∈ line.tokens) :
    Located.listFrom index 0 (line.tokens ++ rest) =
      line.statements index ++ Located.listFrom (index + line.tokens.length) 0 rest := by
  unfold tokens statements
  cases line.label with
  | none => exact listFrom_instruction complete index ofLines
  | some name =>
      have noEquate : Statement.equateFollows (line.instructionTokens ++ rest) = false :=
        equateFollows_of_mem line (fun _ => mem_tokens_of_mem_instructionTokens) ofLines
      dsimp only
      rw [List.cons_append, Located.listFrom, read_label name noEquate, if_neg (by simp)]
      have behind := listFrom_instruction complete (index + 1) ofLines
      have width : index + 1 + line.instructionTokens.length =
          index + (line.instructionTokens.length + 1) := by omega
      rw [width] at behind
      simpa [Statement.width] using behind

/-- The walk over the tokens of lines is the statements of the lines. -/
theorem list_tokens {lines : List SourceLine} (complete : ∀ line ∈ lines, line.IsComplete) :
    Located.list (lines.flatMap tokens) = statementsFrom 0 lines := by
  have fromAnywhere (index : Nat) :
      Located.listFrom index 0 (lines.flatMap tokens) = statementsFrom index lines := by
    induction lines generalizing index with
    | nil => rfl
    | cons head tail inductionHypothesis =>
        have ofLines : ∀ token ∈ tail.flatMap tokens,
            ∃ line : SourceLine, token ∈ line.tokens := by
          intro token member
          obtain ⟨line, _, inLine⟩ := List.mem_flatMap.mp member
          exact ⟨line, inLine⟩
        have rest := inductionHypothesis fun line member => complete line (by simp [member])
        rw [List.flatMap_cons, listFrom_tokens (complete head (by simp)) index ofLines, rest]
        rfl
  exact fromAnywhere 0

end SourceLine

end Asm8080
