import Asm8080.Proofs.References
import Asm8080.Proofs.SourceStatements

/-!
Contract: assembling the text of a program gives the code of the program.

Owns:
- hexadecimal numbers as literals;
- the first pass over the statements of lines: every label gets the address of its
  line, and no label is repeated;
- the second pass over the same statements: every line emits its code and has no
  fault;
- `SourceProgram.assembleSource_text`, which puts text and code of a program
  together.

Does not own: directives, comments and strings, which no line here has.
-/

namespace Asm8080

/-! ### Numbers as literals -/

/-- If every character is a digit, the digit values are those of the characters. -/
theorem Numeral.digits?_eq_some {base : Nat} {text : Text}
    (all : ∀ c ∈ text, (digitValue? base c).isSome) :
    digits? base text = some (text.filterMap (digitValue? base)) := by
  unfold digits?
  induction text with
  | nil => rfl
  | cons head tail inductionHypothesis =>
      obtain ⟨value, isValue⟩ := Option.isSome_iff_exists.mp (all head (by simp))
      have rest := inductionHypothesis fun c member => all c (by simp [member])
      simp [List.mapM_cons, isValue, rest]

namespace HexNumber

theorem toNat_of_mem {number : HexNumber} {c : Char} (member : c ∈ number.digits) :
    c.toNat < 0x80 :=
  toNat_of_isWordCharacter (isWordCharacter_of_isHexDigit (number.hexadecimal c member))

theorem digitText_token (number : HexNumber) :
    Literal.digitText .hexadecimal (Argument.literal number).token =
      '0' :: number.digits.map Char.toUpper := by
  have kept : (number.digits.map Char.toUpper).filter
      (fun c => !Radix.hexadecimal.letters.contains c) = number.digits.map Char.toUpper := by
    apply List.filter_eq_self.mpr
    intro c member
    obtain ⟨own, inDigits, isUpper⟩ := List.mem_map.mp member
    rw [← isUpper]
    exact forall_ascii (fun c => Numeral.isHexDigit c = true →
      (!Radix.hexadecimal.letters.contains c.toUpper) = true) (by decide)
      (toNat_of_mem inDigits) (number.hexadecimal own inDigits)
  have zero : (!Radix.hexadecimal.letters.contains '0'.toUpper) = true := by decide
  have letter : (!Radix.hexadecimal.letters.contains 'H'.toUpper) = false := by decide
  simp only [Literal.digitText, Argument.token, Argument.text, HexNumber.text, List.map_append,
    List.map_cons, List.map_nil, List.filter_append, List.filter_cons, zero, letter, kept]
  simp

/-- The token of a number has the value of the number, up to the ceiling of literals. -/
theorem value?_token (number : HexNumber) :
    Literal.value? (Argument.literal number).token = some (min number.value Literal.ceiling) := by
  have radix : Radix.ofToken (Argument.literal number).token = .hexadecimal := by
    have announced : Radix.hexadecimal.announcedBy (Argument.literal number).token = true := by
      apply List.any_eq_true.mpr
      exact ⟨'H', by simp [Argument.token, Argument.text, HexNumber.text], by decide⟩
    simp [Radix.ofToken, announced]
  have sameDigit : ∀ c ∈ number.digits,
      Numeral.digitValue? 16 c.toUpper = Numeral.digitValue? 16 c := by
    intro c member
    exact forall_ascii (fun c => Numeral.digitValue? 16 c.toUpper = Numeral.digitValue? 16 c)
      (by decide) (toNat_of_mem member)
  have all : ∀ c ∈ '0' :: number.digits.map Char.toUpper, (Numeral.digitValue? 16 c).isSome := by
    intro c member
    rcases List.mem_cons.mp member with isZero | inside
    · rw [isZero]
      decide
    · obtain ⟨own, inDigits, isUpper⟩ := List.mem_map.mp inside
      rw [← isUpper, sameDigit own inDigits]
      exact number.hexadecimal own inDigits
  have digits : ('0' :: number.digits.map Char.toUpper).filterMap (Numeral.digitValue? 16) =
      0 :: number.digits.filterMap (Numeral.digitValue? 16) := by
    have zero : Numeral.digitValue? 16 '0' = some 0 := by decide
    rw [List.filterMap_cons_some zero, List.filterMap_map]
    exact congrArg (0 :: ·) (List.filterMap_congr sameDigit)
  unfold Literal.value?
  rw [radix]
  dsimp only
  rw [number.digitText_token]
  unfold Literal.valueOfDigits?
  rw [if_neg (by simp), Radix.base, Numeral.digits?_eq_some all, digits, Option.map_some,
    Numeral.ofDigitsUpTo_eq_min _ _ (by decide)]
  rfl

theorem word_token {number : HexNumber} (small : number.value < 0x10000) :
    Literal.word (Argument.literal number).token = .ok (UInt16.ofNat number.value) := by
  have noColon : ':' ∉ (Argument.literal number).token := fun member =>
    ((Argument.literal number).isWord_token.unremarkable ':' member).unmarked.2 rfl
  have notQuoted : Literal.quotedCharacter? (Argument.literal number).token = none := by
    unfold Literal.quotedCharacter?
    split
    · rename_i opening character closing isToken
      have isZero : opening = '0' := (congrArg List.head? isToken).symm |> Option.some.inj
      rw [if_neg (by rw [isZero]; simp)]
    · rfl
  have inRange : min number.value Literal.ceiling = number.value := by
    unfold Literal.ceiling
    omega
  unfold Literal.word
  rw [if_neg (by simp [noColon]), notQuoted, number.value?_token, inRange]
  simp [Literal.wordOfValue, small]

theorem byte_token {number : HexNumber} (small : number.value < 0x100) :
    Literal.byte (Argument.literal number).token = .ok (UInt8.ofNat number.value) := by
  have inRange : number.value < 0x10000 := by omega
  have value := UInt16.toNat_ofNat_of_lt' inRange
  rw [Literal.byte, word_token inRange]
  simp [Except.bind, Literal.narrow, value, small]

end HexNumber

/-! ### The first pass -/

theorem Symbols.define_of_fresh {symbols : Symbols} {name : Text} (index : Nat) (value : UInt16)
    (fresh : symbols.labels.find? name = none) :
    (symbols.define index name value).repetitions = symbols.repetitions ∧
      (symbols.define index name value).origin = symbols.origin := by
  have absent : symbols.labels.contains name = false := by simp [LabelTable.contains, fresh]
  simp [Symbols.define, LabelTable.define, absent]

namespace SourceLine

/-- Lines with distinct new labels repeat no label and set no origin. -/
theorem foldl_statementsFrom {lines : List SourceLine} (survey : Survey) (index : Nat)
    (distinct : ((lines.filterMap SourceLine.label).map LabelName.folded).Nodup)
    (fresh : ∀ line ∈ lines, ∀ name, line.label = some name →
      survey.symbols.labels.find? (name.folded ++ [':']) = none) :
    ((statementsFrom index lines).foldl Survey.step survey).symbols.repetitions =
        survey.symbols.repetitions ∧
      ((statementsFrom index lines).foldl Survey.step survey).symbols.origin =
        survey.symbols.origin := by
  induction lines generalizing survey index with
  | nil => exact ⟨rfl, rfl⟩
  | cons head tail inductionHypothesis =>
      have later : ∀ line ∈ tail, ∀ name, line.label = some name →
          survey.symbols.labels.find? (name.folded ++ [':']) = none :=
        fun line member => fresh line (by simp [member])
      unfold statementsFrom statements
      cases label : head.label with
      | none =>
          rw [List.filterMap_cons_none label] at distinct
          exact inductionHypothesis (survey.step ⟨index, head.instruction⟩) _ distinct later
      | some name =>
          rw [List.filterMap_cons_some label, List.map_cons, List.nodup_cons] at distinct
          obtain ⟨different, distinct⟩ := distinct
          have new := fresh head (by simp) name label
          obtain ⟨sameRepetitions, sameOrigin⟩ :=
            Symbols.define_of_fresh index (UInt16.ofNat survey.pc) new
          have stillFresh : ∀ line ∈ tail, ∀ other, line.label = some other →
              (survey.symbols.define index (name.folded ++ [':'])
                (UInt16.ofNat survey.pc)).labels.find? (other.folded ++ [':']) = none := by
            intro line member other isLabel
            have notName : name.folded ++ [':'] ≠ other.folded ++ [':'] := by
              intro same
              apply different
              rw [List.append_cancel_right same]
              exact List.mem_map_of_mem (List.mem_filterMap.mpr ⟨line, member, isLabel⟩)
            rw [Symbols.find?_define, later line member other isLabel, if_neg notName]
            rfl
          have rest := inductionHypothesis
            ((survey.step ⟨index, .label (name.folded ++ [':'])⟩).step
              ⟨index + 1, head.instruction⟩) (index + head.tokens.length) distinct stillFresh
          exact ⟨rest.1.trans sameRepetitions, rest.2.trans sameOrigin⟩

/-! ### The records of lines -/

def instructionRecord (symbols : Symbols) (index pc : Nat) (line : SourceLine) : Record where
  located := ⟨index, line.instruction⟩
  start := pc
  next := pc + line.opcode.length
  emission := Emission.ofInstruction symbols.labels line.byte line.opcode
    (line.argument.map Argument.token)
  overflows := false

def labelRecord (index pc : Nat) (name : LabelName) : Record where
  located := ⟨index, .label (name.folded ++ [':'])⟩
  start := pc
  next := pc
  emission := Emission.line (Listing.label (name.folded ++ [':']))
  overflows := false

def records (symbols : Symbols) (index pc : Nat) (line : SourceLine) : List Record :=
  match line.label with
  | some name => [labelRecord index pc name, line.instructionRecord symbols (index + 1) pc]
  | none => [line.instructionRecord symbols index pc]

/-- The records of lines, the first of which starts at token `index` and address `pc`. -/
def recordsFrom (symbols : Symbols) : Nat → Nat → List SourceLine → List Record
  | _, _, [] => []
  | index, pc, line :: tail =>
      line.records symbols index pc ++
        recordsFrom symbols (index + line.tokens.length) (pc + line.opcode.length) tail

/-- The second pass makes these records of the statements of lines that end within the
address space. -/
theorem list_statementsFrom {symbols : Symbols} (unrepeated : symbols.repetitions = [])
    {lines : List SourceLine} (index pc : Nat)
    (bounded : pc + totalLength lines ≤ Record.addressLimit) :
    Record.list symbols false pc (statementsFrom index lines) =
      recordsFrom symbols index pc lines := by
  induction lines generalizing index pc with
  | nil => rfl
  | cons head tail inductionHypothesis =>
      rw [totalLength_cons] at bounded
      have next : Counter.advance pc head.opcode.length = pc + head.opcode.length := by
        unfold Counter.advance Counter.ceiling
        unfold Record.addressLimit at bounded
        omega
      have inside : ¬Record.addressLimit < pc + head.opcode.length := by omega
      have labelInside : ¬Record.addressLimit < pc := by omega
      have rest := inductionHypothesis (index + head.tokens.length) (pc + head.opcode.length)
        (by omega)
      unfold statementsFrom statements recordsFrom records
      cases head.label with
      | none =>
          simp [Record.list, instruction, Counter.after, next, inside, instructionRecord,
            Emission.ofStatement, rest]
      | some name =>
          simp [Record.list, instruction, Counter.after, next, inside, labelInside,
            instructionRecord, labelRecord, Emission.ofStatement, Symbols.isRepetition,
            unrepeated, rest]

/-! ### The value of a label -/

def bindsName (name : Text) (line : SourceLine) : Bool :=
  line.label.any fun label => label.folded ++ [':'] == name

/-- The first record of lines that binds a name belongs to the first line whose label
has that name, and binds the address of the line. -/
theorem findSome?_recordsFrom (symbols : Symbols) (name : Text) (index pc : Nat)
    (lines : List SourceLine) :
    ((recordsFrom symbols index pc lines).findSome? fun record =>
        record.located.bindingOf? symbols.labels record.start name).map Label.value =
      (lines.findIdx? (bindsName name)).map fun position =>
        UInt16.ofNat (pc + totalLength (lines.take position)) := by
  induction lines generalizing index pc with
  | nil => rfl
  | cons head tail inductionHypothesis =>
      have behind : (((tail.findIdx? (bindsName name)).map (· + 1)).map fun position =>
          UInt16.ofNat (pc + totalLength ((head :: tail).take position))) =
            (tail.findIdx? (bindsName name)).map fun position =>
              UInt16.ofNat (pc + head.opcode.length + totalLength (tail.take position)) := by
        rw [Option.map_map]
        apply Option.map_congr
        intro position _
        simp only [Function.comp_apply, List.take_succ_cons, totalLength_cons, Nat.add_assoc]
      have rest := inductionHypothesis (index + head.tokens.length) (pc + head.opcode.length)
      rw [List.findIdx?_cons]
      unfold recordsFrom records
      cases label : head.label with
      | none =>
          have notHere : bindsName name head = false := by simp [bindsName, label]
          rw [if_neg (by simp [notHere]), behind, ← rest]
          rfl
      | some own =>
          by_cases same : own.folded ++ [':'] = name
          · have here : bindsName name head = true := by simp [bindsName, label, same]
            simp [here, same, labelRecord, Located.bindingOf?, Located.binding?, totalLength]
          · have notHere : bindsName name head = false := by simp [bindsName, label, same]
            rw [if_neg (by simp [notHere]), behind, ← rest]
            simp [same, labelRecord, instructionRecord, instruction, Located.bindingOf?,
              Located.binding?, Option.filter_some]

/-- The table knows the labels of the lines by their addresses, and takes no number for
a label. -/
structure Addressed (lines : List SourceLine) (labels : LabelTable) : Prop where
  reference : ∀ name : LabelName,
    labels.resolve? name.folded = (addressOf? lines name).map UInt16.ofNat
  literal : ∀ number : HexNumber, labels.resolve? (Argument.literal number).token = none

theorem bindsName_literal (number : HexNumber) (line : SourceLine) :
    bindsName ((Argument.literal number).token ++ [':']) line = false := by
  unfold bindsName
  cases line.label with
  | none => rfl
  | some label =>
      have different : label.folded ≠ (Argument.literal number).token := by
        intro same
        have starts := label.starts
        have startsZero : label.folded.head? = some '0' := by
          rw [same]
          rfl
        unfold LabelName.folded at startsZero
        cases isText : label.text with
        | nil =>
            rw [isText] at starts
            cases starts
        | cons head tail =>
            rw [isText] at starts startsZero
            have letter : head.isAlpha = true := by simpa using starts
            have ascii : head.toNat < 0x80 :=
              toNat_of_isAlphanum (by simp [Char.isAlphanum, letter])
            have notZero := forall_ascii (fun c => c.isAlpha = true → c.toUpper ≠ '0')
              (by decide) ascii letter
            exact notZero (by simpa using startsZero)
      simpa using different

/-! ### The code of a line -/

/-- The line of a label ends behind its address, so that the address is below the end of
the program. -/
theorem addressOf?_lt {lines : List SourceLine} {name : LabelName} {address : Nat}
    (found : addressOf? lines name = some address) : address < totalLength lines := by
  obtain ⟨position, isPosition, isAddress⟩ := Option.map_eq_some_iff.mp found
  rw [← isAddress]
  clear found isAddress
  induction lines generalizing position with
  | nil => cases isPosition
  | cons head tail inductionHypothesis =>
      have positive : 0 < head.opcode.length := by
        unfold Opcode.length
        omega
      rw [totalLength_cons]
      rw [List.findIdx?_cons] at isPosition
      split at isPosition
      · obtain rfl : 0 = position := Option.some.inj isPosition
        show 0 < _
        omega
      · obtain ⟨before, isBefore, rfl⟩ := Option.map_eq_some_iff.mp isPosition
        have later := inductionHypothesis before isBefore
        rw [List.take_succ_cons, totalLength_cons]
        omega

/-- In a program that ends within the address space, a word operand has a value that two
bytes hold. -/
theorem word_of_fits {lines : List SourceLine} {line : SourceLine}
    (bounded : totalLength lines ≤ Record.addressLimit) (fits : line.fits lines = true)
    (kind : line.opcode.operand = .word) :
    ∃ argument value, line.argument = some argument ∧ valueOf? lines argument = some value ∧
      value < 0x10000 := by
  unfold SourceLine.fits at fits
  rw [kind] at fits
  cases isArgument : line.argument with
  | none => simp [isArgument] at fits
  | some argument =>
      cases argument with
      | literal number =>
          have small : number.value < 0x10000 := by simpa [isArgument] using fits
          exact ⟨.literal number, number.value, rfl, rfl, small⟩
      | reference name =>
          have known : (addressOf? lines name).isSome := by simpa [isArgument] using fits
          obtain ⟨address, found⟩ := Option.isSome_iff_exists.mp known
          have below := addressOf?_lt found
          unfold Record.addressLimit at bounded
          exact ⟨.reference name, address, rfl, found, by omega⟩

theorem byte_of_fits {lines : List SourceLine} {line : SourceLine}
    (fits : line.fits lines = true) (kind : line.opcode.operand = .byte) :
    ∃ argument value, line.argument = some argument ∧ valueOf? lines argument = some value ∧
      value < 0x100 := by
  unfold SourceLine.fits at fits
  rw [kind] at fits
  cases isArgument : line.argument with
  | none => simp [isArgument] at fits
  | some argument =>
      simp only [isArgument, Option.any_eq_true, decide_eq_true_eq] at fits
      obtain ⟨value, isValue, small⟩ := fits
      exact ⟨argument, value, rfl, isValue, small⟩

namespace Addressed

variable {lines : List SourceLine} {labels : LabelTable} {argument : Argument} {value : Nat}

theorem word (addressed : Addressed lines labels) (isValue : valueOf? lines argument = some value)
    (small : value < 0x10000) :
    ∃ shown, Operand.word labels argument.token = .ok ⟨UInt16.ofNat value, shown⟩ := by
  cases argument with
  | literal number =>
      obtain rfl : number.value = value := Option.some.inj isValue
      exact ⟨_, by rw [Operand.word, addressed.literal, HexNumber.word_token small]; rfl⟩
  | reference name =>
      have found : labels.resolve? name.folded = some (UInt16.ofNat value) := by
        rw [addressed.reference, show addressOf? lines name = some value from isValue]
        rfl
      exact ⟨_, Operand.word_of_resolve? found⟩

theorem byte (addressed : Addressed lines labels) (isValue : valueOf? lines argument = some value)
    (small : value < 0x100) :
    ∃ shown, Operand.byte labels argument.token = .ok ⟨UInt8.ofNat value, shown⟩ := by
  cases argument with
  | literal number =>
      obtain rfl : number.value = value := Option.some.inj isValue
      exact ⟨_, by rw [Operand.byte, addressed.literal, HexNumber.byte_token small]; rfl⟩
  | reference name =>
      have found : labels.resolve? name.folded = some (UInt16.ofNat value) := by
        rw [addressed.reference, show addressOf? lines name = some value from isValue]
        rfl
      have inRange : value < 0x10000 := by omega
      have exactly := UInt16.toNat_ofNat_of_lt' inRange
      have narrow := Operand.byte_of_resolve? found (by omega)
      rw [exactly] at narrow
      exact ⟨_, narrow⟩

/-- An instruction with a fitting operand emits the code of its line. -/
theorem emission (addressed : Addressed lines labels)
    (bounded : totalLength lines ≤ Record.addressLimit) {line : SourceLine}
    (fits : line.fits lines = true) :
    (Emission.ofInstruction labels line.byte line.opcode
        (line.argument.map Argument.token)).bytes = line.code lines ∧
      (Emission.ofInstruction labels line.byte line.opcode
        (line.argument.map Argument.token)).fault = none := by
  unfold Emission.ofInstruction code value?
  cases kind : line.opcode.operand with
  | none => exact ⟨rfl, rfl⟩
  | byte =>
      obtain ⟨argument, value, isArgument, isValue, small⟩ := byte_of_fits fits kind
      obtain ⟨shown, isByte⟩ := addressed.byte isValue small
      have low : value % 256 = value := Nat.mod_eq_of_lt small
      have emitted := Emission.byteOperand_of_byte isByte
      simp [isArgument, isValue, emitted, OperandKind.size, littleEndian, low]
  | word =>
      obtain ⟨argument, value, isArgument, isValue, small⟩ := word_of_fits bounded fits kind
      obtain ⟨shown, isWord⟩ := addressed.word isValue small
      have exactly := UInt16.toNat_ofNat_of_lt' small
      have high : value / 256 % 256 = value / 256 := by omega
      have emitted := Emission.wordOperand_of_word isWord
      simp [isArgument, isValue, emitted, OperandKind.size, littleEndian, Emission.wordBytes,
        exactly, high]

/-- The records of lines have no diagnostics and hold the code of the lines. -/
theorem flatMap_recordsFrom {symbols : Symbols} (addressed : Addressed lines symbols.labels)
    (bounded : totalLength lines ≤ Record.addressLimit) (index pc : Nat)
    {part : List SourceLine} (fits : ∀ line ∈ part, line.fits lines = true) :
    (recordsFrom symbols index pc part).flatMap Record.diagnostics = [] ∧
      ((recordsFrom symbols index pc part).flatMap Record.cells).map Cell.byte =
        part.flatMap (code lines) := by
  induction part generalizing index pc with
  | nil => exact ⟨rfl, rfl⟩
  | cons head tail inductionHypothesis =>
      obtain ⟨clean, bytes⟩ := inductionHypothesis (index + head.tokens.length)
        (pc + head.opcode.length) fun line member => fits line (by simp [member])
      obtain ⟨ownBytes, faultless⟩ := addressed.emission bounded (fits head (by simp))
      unfold recordsFrom records
      cases head.label with
      | none =>
          simp [Record.diagnostics, Record.cells, instructionRecord, faultless, ownBytes, clean,
            bytes, Cell.map_byte_place]
      | some name =>
          simp [Record.diagnostics, Record.cells, labelRecord, Emission.line, instructionRecord,
            faultless, ownBytes, clean, bytes, Cell.map_byte_place]

end Addressed

end SourceLine

/-! ### Whole programs -/

namespace SourceProgram

open SourceLine (statementsFrom recordsFrom Addressed)

def tokens (program : SourceProgram) : List Token :=
  program.lines.flatMap SourceLine.tokens

theorem list_tokens (program : SourceProgram) :
    Located.list program.tokens = statementsFrom 0 program.lines :=
  SourceLine.list_tokens fun line member =>
    SourceLine.isComplete_of_fits (program.fitting line member)

/-- The first pass finds no repeated label and no origin. -/
theorem symbols_tokens (program : SourceProgram) :
    (Symbols.ofTokens program.tokens).repetitions = [] ∧
      (Symbols.ofTokens program.tokens).origin = none := by
  unfold Symbols.ofTokens Survey.run
  rw [program.list_tokens]
  exact SourceLine.foldl_statementsFrom ⟨0, Symbols.empty⟩ 0 program.distinct
    fun _ _ _ _ => rfl

theorem records_tokens (program : SourceProgram) :
    Record.ofTokens program.tokens =
      recordsFrom (Symbols.ofTokens program.tokens) 0 0 program.lines := by
  have bounded : 0 + SourceLine.totalLength program.lines ≤ Record.addressLimit := by
    rw [Nat.zero_add]
    exact program.bounded
  unfold Record.ofTokens
  rw [program.list_tokens]
  exact SourceLine.list_statementsFrom program.symbols_tokens.1 0 0 bounded

/-- The finished table has every label at the address of its line. -/
theorem addressed_tokens (program : SourceProgram) :
    Addressed program.lines (Symbols.ofTokens program.tokens).labels := by
  have resolved (reference : Text) (isWord : IsWord reference) :
      (Symbols.ofTokens program.tokens).labels.resolve? reference =
        (program.lines.findIdx? (SourceLine.bindsName (reference ++ [':']))).map fun position =>
          UInt16.ofNat (SourceLine.totalLength (program.lines.take position)) := by
    unfold LabelTable.resolve?
    rw [Symbols.find?_ofTokens, isWord.fullName, program.records_tokens,
      SourceLine.findSome?_recordsFrom]
    simp only [Nat.zero_add]
  constructor
  · intro name
    have sameLines : SourceLine.bindsName (name.folded ++ [':']) = SourceLine.isLabelled name := by
      funext line
      simp [SourceLine.bindsName, SourceLine.isLabelled]
    rw [resolved name.folded name.isWord_folded, sameLines, SourceLine.addressOf?, Option.map_map]
    rfl
  · intro number
    have nowhere : program.lines.findIdx?
        (SourceLine.bindsName ((Argument.literal number).token ++ [':'])) = none := by
      apply List.findIdx?_eq_none_iff.mpr
      intro line _
      exact SourceLine.bindsName_literal number line
    rw [resolved _ (Argument.literal number).isWord_token, nowhere]
    rfl

/-- Compilation is correct. The text of a program assembles without a diagnostic, from
origin zero, to the code of the program: for every line its opcode byte and the value
of its operand, low byte first, where a label stands for the address of its line. -/
theorem assembleSource_text (program : SourceProgram) :
    (assembleSource program.text).success = true ∧
      (assembleSource program.text).diagnostics = [] ∧
      (assembleSource program.text).origin = 0 ∧
      (assembleSource program.text).bytes = program.code := by
  have isTokens : tokenize program.text = program.tokens :=
    SourceLine.tokenize_lines program.lines
  obtain ⟨clean, bytes⟩ :=
    program.addressed_tokens.flatMap_recordsFrom program.bounded 0 0 program.fitting
  have diagnostics : (assembleSource program.text).diagnostics = [] := by
    rw [assembleSource, isTokens, diagnostics_assemble, program.records_tokens, clean]
  refine ⟨?_, diagnostics, ?_, ?_⟩
  · rw [Assembly.success, diagnostics]
    rfl
  · rw [assembleSource, isTokens, origin_assemble, program.symbols_tokens.2]
    rfl
  · have cells : (assembleSource program.text).object.cells =
        (recordsFrom (Symbols.ofTokens program.tokens) 0 0 program.lines).flatMap
          Record.cells := by
      rw [assembleSource, isTokens, cells_assemble, program.records_tokens]
    show ((assembleSource program.text).object.cells.map Cell.byte) = program.code
    rw [cells, bytes]
    rfl

private def loopName : LabelName where
  text := "Loop_1".toList
  starts := by decide
  characters := List.all_eq_true.mp (by decide)
  notMnemonic := fun member =>
    absurd ((Mnemonic.wellSpelled_of_mem member).spelling '_' (by decide)) (by decide)
  notEquate := by decide

private def doneName : LabelName where
  text := "dB".toList
  starts := by decide
  characters := List.all_eq_true.mp (by decide)
  notMnemonic := fun member =>
    absurd (Mnemonic.wellSpelled_of_mem member).undirected (by decide)
  notEquate := by decide

private def tenDigits : HexNumber where
  digits := "0a".toList
  hexadecimal := List.all_eq_true.mp (by decide)

/-- A loop that reads a port, with a jump ahead to a label that is spelled like a
directive. -/
private def portLoop : SourceProgram where
  lines :=
    [⟨none, 0x06, ⟨"MVI B,".toList, .byte⟩, by decide, some (.literal tenDigits)⟩,
      ⟨some loopName, 0xDB, ⟨"IN".toList, .byte⟩, by decide, some (.reference doneName)⟩,
      ⟨none, 0x05, ⟨"DCR B".toList, .none⟩, by decide, none⟩,
      ⟨none, 0xCA, ⟨"JZ".toList, .word⟩, by decide, some (.reference doneName)⟩,
      ⟨none, 0xC3, ⟨"JMP".toList, .word⟩, by decide, some (.reference loopName)⟩,
      ⟨some doneName, 0x76, ⟨"HLT".toList, .none⟩, by decide, none⟩]
  distinct := by decide
  fitting := by decide
  bounded := by decide

theorem assembleSource_portLoop :
    portLoop.text = ("MVI B,00aH\nLoop_1: IN dB\nDCR B\nJZ dB\nJMP Loop_1\n" ++
        "dB: HLT\n").toList ∧
      (assembleSource portLoop.text).bytes =
        [0x06, 0x0A, 0xDB, 0x0B, 0x05, 0xCA, 0x0B, 0x00, 0xC3, 0x02, 0x00, 0x76] :=
  ⟨by decide +kernel, (assembleSource_text portLoop).2.2.2.trans (by decide)⟩

end SourceProgram

end Asm8080
