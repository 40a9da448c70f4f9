import Mathlib.Data.List.Forall2
import Asm8080.Proofs.LetterCase
import Asm8080.Proofs.MnemonicMatch
import Asm8080.Proofs.Run
import Asm8080.Proofs.Walk

/-!
Contract: the listing as rows, one for each statement, and the bytes that the rows show.

Owns:
- texts that do not break a line, the lines of a text, and the digits that follow the
  address column of a line;
- the texts that a statement carries, none of which breaks a line if no token does;
- the row of a statement: the digits of its bytes, then something that is no digit, and
  a line end, which only the end directive lacks;
- `listing_shows_object_code`: the rows of an accepted program without data directives
  hold its object code.

Does not own: data directives, whose rows show values instead of bytes.
-/

namespace Asm8080

/-! ### Texts without line ends -/

/-- The text does not break a line. -/
def Text.Unbroken (text : Text) : Prop :=
  '\n' ∉ text

instance (text : Text) : Decidable text.Unbroken :=
  inferInstanceAs (Decidable ('\n' ∉ text))

namespace Text.Unbroken

theorem append {left right : Text} (leftUnbroken : left.Unbroken)
    (rightUnbroken : right.Unbroken) : Text.Unbroken (left ++ right) := by
  intro member
  rcases List.mem_append.mp member with inLeft | inRight
  · exact leftUnbroken inLeft
  · exact rightUnbroken inRight

theorem lowerCase {text : Text} (unbroken : text.Unbroken) : (Text.lowerCase text).Unbroken :=
  fun member => unbroken (mem_of_mem_lowerCase (by decide) member)

theorem fullName {token : Token} (unbroken : Text.Unbroken token) :
    Text.Unbroken (Label.fullName token) := by
  unfold Label.fullName
  split
  · exact unbroken
  · exact unbroken.append (by decide)

theorem showReference {token : Token} (unbroken : Text.Unbroken token) :
    (Operand.showReference token).Unbroken := by
  apply lowerCase
  intro member
  apply unbroken
  rw [List.mem_reverse] at member
  exact List.mem_reverse.mp ((List.dropWhile_sublist _).subset member)

theorem of_digits {text : Text} (digits : ∀ c ∈ text, Numeral.isHexDigit c = true) :
    text.Unbroken :=
  fun member => absurd (digits '\n' member) (by decide)

theorem beq_lineEnd {text : Text} (unbroken : text.Unbroken) :
    ∀ c ∈ text, (c == '\n') = false := by
  intro c member
  apply beq_eq_false_iff_ne.mpr
  rintro rfl
  exact unbroken member

end Text.Unbroken

/-! ### Digits -/

namespace Numeral

theorem isHexDigit_digit {value : Nat} (small : value < 16) :
    isHexDigit (digit value) = true := by
  have each : ∀ value < 16, isHexDigit (digit value) = true := by decide
  exact each value small

theorem isHexDigit_of_mem_hexByte {byte : UInt8} {c : Char} (member : c ∈ hexByte byte) :
    isHexDigit c = true := by
  have bound := byte.toNat_lt
  simp only [hexByte, List.mem_cons, List.not_mem_nil, or_false] at member
  rcases member with rfl | rfl
  · exact isHexDigit_digit (by omega)
  · exact isHexDigit_digit (by omega)

theorem isHexDigit_of_mem_hexWord {word : UInt16} {c : Char} (member : c ∈ hexWord word) :
    isHexDigit c = true := by
  have bound := word.toNat_lt
  simp only [hexWord, List.mem_cons, List.not_mem_nil, or_false] at member
  rcases member with rfl | rfl | rfl | rfl
  · exact isHexDigit_digit (by omega)
  · exact isHexDigit_digit (by omega)
  · exact isHexDigit_digit (by omega)
  · exact isHexDigit_digit (by omega)

theorem isHexDigit_of_mem_hexBytes {bytes : List UInt8} {c : Char}
    (member : c ∈ bytes.flatMap hexByte) : isHexDigit c = true := by
  obtain ⟨byte, _, inByte⟩ := List.mem_flatMap.mp member
  exact isHexDigit_of_mem_hexByte inByte

end Numeral

/-! ### Operands as the listing shows them -/

namespace Operand

theorem unbroken_showByte (byte : UInt8) : (showByte byte).Unbroken :=
  (Text.Unbroken.of_digits fun _ => Numeral.isHexDigit_of_mem_hexByte).append (by decide)

theorem unbroken_showWord (word : UInt16) : (showWord word).Unbroken :=
  (Text.Unbroken.of_digits fun _ => Numeral.isHexDigit_of_mem_hexWord).append (by decide)

private theorem exists_of_map_eq_ok {α β : Type} {attempt : Except Literal.Fault α} {f : α → β}
    {result : β} (isOk : attempt.map f = .ok result) : ∃ value, f value = result := by
  cases attempt with
  | error fault => cases isOk
  | ok value => exact ⟨value, Except.ok.inj isOk⟩

variable {labels : LabelTable} {token : Token}

theorem unbroken_byte {resolved : Resolved UInt8} (unbroken : Text.Unbroken token)
    (isByte : byte labels token = .ok resolved) : resolved.shown.Unbroken := by
  unfold byte at isByte
  split at isByte
  · obtain ⟨narrowed, rfl⟩ := exists_of_map_eq_ok isByte
    exact unbroken.showReference
  · obtain ⟨value, rfl⟩ := exists_of_map_eq_ok isByte
    exact unbroken_showByte value

theorem unbroken_word {resolved : Resolved UInt16} (unbroken : Text.Unbroken token)
    (isWord : word labels token = .ok resolved) : resolved.shown.Unbroken := by
  unfold word at isWord
  split at isWord
  · rw [← Except.ok.inj isWord]
    exact unbroken.showReference
  · obtain ⟨value, rfl⟩ := exists_of_map_eq_ok isWord
    exact unbroken_showWord value

end Operand

namespace Listing

/-! ### Lines -/

/-- The lines of a text. The last one need not be ended. -/
def lines (text : Text) : List Text :=
  let pieces := text.splitOn '\n'
  if pieces.getLast? = some [] then pieces.dropLast else pieces

/-- The width of the address column. -/
def addressColumn : Nat :=
  6

/-- The hexadecimal digits directly behind the address column of a line. -/
def byteDigits (line : Text) : Text :=
  (line.drop addressColumn).takeWhile Numeral.isHexDigit

theorem lines_cons {row : Text} (unbroken : row.Unbroken) (rest : Text) :
    lines (row ++ '\n' :: rest) = row :: lines rest := by
  have cut : (row ++ '\n' :: rest).splitOn '\n' = row :: rest.splitOn '\n' :=
    List.splitOnP_append_cons_of_forall_mem unbroken.beq_lineEnd '\n' (by simp) rest
  obtain ⟨first, others, isSplit⟩ := List.exists_cons_of_ne_nil (List.splitOn_ne_nil '\n' rest)
  unfold lines
  rw [cut, isSplit]
  dsimp only
  rw [List.getLast?_cons_cons, List.dropLast_cons_cons]
  split <;> rfl

theorem lines_of_unbroken {row : Text} (unbroken : row.Unbroken) (nonempty : row ≠ []) :
    lines row = [row] := by
  have whole : row.splitOn '\n' = [row] := List.splitOnP_eq_singleton unbroken.beq_lineEnd
  unfold lines
  rw [whole]
  simp [nonempty]

theorem length_address (pc : Nat) : (address pc).length = addressColumn :=
  rfl

theorem unbroken_address (pc : Nat) : (address pc).Unbroken :=
  (Text.Unbroken.of_digits fun _ => Numeral.isHexDigit_of_mem_hexWord).append (by decide)

end Listing

/-! ### The texts of statements -/

namespace Statement

/-- The texts that a statement carries. -/
def texts : Statement → List Text
  | .label name => [name]
  | .equate name operand => name :: operand.toList
  | .origin operand => operand.toList
  | .bytes operand => operand.toList
  | .reserve operand => operand.toList
  | .words operand => operand.toList
  | .strayEquate operand => operand.toList
  | .finish => []
  | .instruction _ opcode operand => opcode.mnemonic :: operand.toList
  | .undefined token => [token]
  | .mention token => [token]

/-- Whether a statement is a data directive. -/
def isData : Statement → Bool
  | .bytes _ => true
  | .reserve _ => true
  | .words _ => true
  | _ => false

/-- What ends the row of a statement. The end directive leaves that to the closing remark. -/
def lineEnd : Statement → Text
  | .finish => []
  | _ => ['\n']

theorem lineEnd_of_ne_finish {statement : Statement} (unfinished : statement ≠ .finish) :
    statement.lineEnd = ['\n'] := by
  cases statement with
  | finish => exact absurd rfl unfinished
  | _ => rfl

theorem unbroken_mnemonic {index : Nat} {opcode : Opcode}
    (found : Opcode.lookup? index = some opcode) : opcode.mnemonic.Unbroken := by
  have member := Mnemonic.mem_all_of_mem_defined (Opcode.mem_defined_of_slot found)
  intro broken
  exact absurd ((Mnemonic.wellSpelled_of_mem member).spelling '\n' broken) (by decide)

theorem unbroken_texts_ofHex {token : Token} {rest : List Token}
    (unbroken : ∀ own ∈ token :: rest, Text.Unbroken own) :
    ∀ text ∈ (ofHex token rest).texts, text.Unbroken := by
  intro text member
  unfold ofHex at member
  split at member
  · rename_i opcode found
    rcases List.mem_cons.mp member with isMnemonic | isOperand
    · rw [isMnemonic]
      exact unbroken_mnemonic found
    · split at isOperand
      · cases isOperand
      · apply unbroken
        exact List.mem_cons_of_mem token
          (List.mem_of_mem_head? (Option.mem_toList.mp isOperand))
  · rw [List.mem_singleton.mp member]
    exact unbroken token (by simp)

/-- If no token breaks a line, no text of a statement does. -/
theorem unbroken_texts_read {token : Token} {rest : List Token}
    (unbroken : ∀ own ∈ token :: rest, Text.Unbroken own) :
    ∀ text ∈ (read token rest).texts, text.Unbroken := by
  have name : Text.Unbroken (Label.fullName token) := (unbroken token (by simp)).fullName
  have operand (operand : Option Token) (next : ∀ own ∈ operand, own ∈ rest) :
      ∀ text ∈ operand.toList, Text.Unbroken text := by
    intro text member
    apply unbroken
    exact List.mem_cons_of_mem token (next text (Option.mem_toList.mp member))
  have first := operand rest.head? fun own => List.mem_of_mem_head?
  have second := operand rest.tail.head? fun own isSecond =>
    List.mem_of_mem_tail (List.mem_of_mem_head? isSecond)
  unfold read
  split
  · split
    · simp only [texts, List.forall_mem_cons]
      exact ⟨name, second⟩
    · simp only [texts, List.forall_mem_singleton]
      exact name
  · split
    case h_2 => simp [texts]
    case h_7 =>
      split
      · exact unbroken_texts_ofHex unbroken
      · simp only [texts, List.forall_mem_singleton]
        exact unbroken token (by simp)
    all_goals exact first

/-- A data directive is read only from one of the three keywords. -/
theorem keyword_of_isData {token : Token} {rest : List Token}
    (isData : (read token rest).isData = true) :
    token = Directive.db.keyword ∨ token = Directive.ds.keyword ∨
      token = Directive.dw.keyword := by
  unfold read at isData
  split at isData
  · split at isData <;> cases isData
  · split at isData
    case h_3 isDirective => exact Or.inl (Directive.keyword_of_ofToken? isDirective).symm
    case h_4 isDirective =>
      exact Or.inr (Or.inl (Directive.keyword_of_ofToken? isDirective).symm)
    case h_5 isDirective =>
      exact Or.inr (Or.inr (Directive.keyword_of_ofToken? isDirective).symm)
    case h_7 =>
      split at isData
      · unfold ofHex at isData
        split at isData <;> cases isData
      · cases isData
    all_goals cases isData

end Statement

/-! ### Rows -/

namespace Emission

/-- The entry has the bytes as digits, then a remark that stays on the line and starts with no
digit, and then the line end. -/
def IsRow (emission : Emission) (lineEnd : Text) : Prop :=
  ∃ remark : Text, emission.entry =
      emission.bytes.flatMap Numeral.hexByte ++ remark ++ lineEnd ∧
    remark.takeWhile Numeral.isHexDigit = [] ∧ remark.Unbroken

theorem takeWhile_append_of_head? {lead : Text}
    (opens : lead.head?.any (fun c => !Numeral.isHexDigit c) = true) (rest : Text) :
    (lead ++ rest).takeWhile Numeral.isHexDigit = [] := by
  cases lead with
  | nil => cases opens
  | cons head tail =>
      have noDigit : Numeral.isHexDigit head = false := by simpa using opens
      simp [noDigit]

/-- A line without bytes, behind some tabs. -/
theorem isRow_line {entry lineEnd : Text} (lead body : Text)
    (isEntry : entry = lead ++ body ++ lineEnd)
    (opens : lead.head?.any (fun c => !Numeral.isHexDigit c) = true) (plain : lead.Unbroken)
    (unbroken : body.Unbroken) : (line entry).IsRow lineEnd :=
  ⟨lead ++ body, isEntry, takeWhile_append_of_head? opens body, plain.append unbroken⟩

theorem isRow_instruction (bytes : List UInt8) {mnemonic : Text} {operand : Option Text}
    (unbroken : mnemonic.Unbroken) (unbrokenOperand : ∀ shown ∈ operand, Text.Unbroken shown) :
    IsRow ⟨Listing.instruction bytes mnemonic operand, bytes, none⟩ ['\n'] := by
  have filling (width : Nat) :
      (List.replicate width ' ' ++ "\t\t\t".toList).head?.any
          (fun c => !Numeral.isHexDigit c) = true ∧
        Text.Unbroken (List.replicate width ' ' ++ "\t\t\t".toList) := by
    constructor
    · cases width <;> rfl
    · apply Text.Unbroken.append
      · intro member
        exact absurd (List.eq_of_mem_replicate member) (by decide)
      · decide
  obtain ⟨opens, plain⟩ := filling (Listing.byteColumn - 2 * bytes.length)
  have operandUnbroken : Text.Unbroken ((operand.map fun shown => [' '] ++ shown).getD []) := by
    cases operand with
    | none => decide
    | some shown =>
        have space : Text.Unbroken [' '] := by decide
        exact space.append (unbrokenOperand shown rfl)
  refine ⟨_, ?_, takeWhile_append_of_head? opens _,
    plain.append (unbroken.lowerCase.append operandUnbroken)⟩
  cases operand <;> simp [Listing.instruction]

theorem eq_ok_of_mapError {α : Type} {attempt : Except Literal.Fault α}
    {kind : Literal.Fault → Fault} {result : α} (isOk : attempt.mapError kind = .ok result) :
    attempt = .ok result := by
  cases attempt with
  | error fault => cases isOk
  | ok value => exact congrArg Except.ok (Except.ok.inj isOk)

theorem isRow_ofInstruction {labels : LabelTable} {byte : UInt8} {opcode : Opcode}
    {operand : Option Token} (unbroken : opcode.mnemonic.Unbroken)
    (unbrokenOperand : ∀ token ∈ operand, Text.Unbroken token) :
    (ofInstruction labels byte opcode operand).fault = none →
      (ofInstruction labels byte opcode operand).IsRow ['\n'] := by
  unfold ofInstruction
  cases opcode.operand with
  | none =>
      intro _
      exact isRow_instruction [byte] unbroken (by simp)
  | byte =>
      dsimp only
      split
      · rename_i resolved isValue
        intro _
        apply isRow_instruction _ unbroken
        intro shown isShown
        rw [← Option.some.inj isShown]
        cases operand with
        | none => cases isValue
        | some token =>
            exact Operand.unbroken_byte (unbrokenOperand token rfl) (eq_ok_of_mapError isValue)
      · intro faultless
        cases faultless
  | word =>
      dsimp only
      split
      · rename_i resolved isValue
        intro _
        apply isRow_instruction _ unbroken
        intro shown isShown
        rw [← Option.some.inj isShown]
        cases operand with
        | none => cases isValue
        | some token =>
            exact Operand.unbroken_word (unbrokenOperand token rfl) (eq_ok_of_mapError isValue)
      · intro faultless
        cases faultless

/-- The entry of a faultless statement is a row, unless the statement is a data directive. -/
theorem isRow_ofStatement (symbols : Symbols) (located : Located)
    (unbroken : ∀ text ∈ located.statement.texts, Text.Unbroken text)
    (noData : located.statement.isData = false) :
    (ofStatement symbols located).fault = none →
      (ofStatement symbols located).IsRow located.statement.lineEnd := by
  obtain ⟨index, statement⟩ := located
  unfold ofStatement
  cases statement with
  | label name =>
      dsimp only
      split
      · intro faultless
        cases faultless
      · intro _
        exact isRow_line "\t\t\t".toList (Text.lowerCase name) rfl (by decide) (by decide)
          (unbroken name (by simp [Statement.texts])).lowerCase
  | equate name operand =>
      dsimp only
      split
      · intro faultless
        cases faultless
      · cases Counter.operandValue? symbols.labels index operand with
        | none =>
            intro faultless
            cases faultless
        | some value =>
            intro _
            have own := (unbroken name (by simp [Statement.texts])).lowerCase
            have keyword : Text.Unbroken " equ ".toList := by decide
            refine isRow_line "\t\t\t".toList
              (Text.lowerCase name ++ (" equ ".toList ++ Operand.showWord value)) ?_ (by decide)
              (by decide) (own.append (keyword.append (Operand.unbroken_showWord value)))
            unfold Listing.equate
            simp only [List.append_assoc, Statement.lineEnd]
  | origin operand =>
      dsimp only
      cases Counter.operandValue? symbols.labels index operand with
      | none =>
          intro faultless
          cases faultless
      | some value =>
          intro _
          exact isRow_line "\t\t\t\t\torg ".toList (Operand.showWord value) rfl (by decide) (by decide)
            (Operand.unbroken_showWord value)
  | bytes operand | reserve operand | words operand => cases noData
  | strayEquate operand | undefined token =>
      intro faultless
      cases faultless
  | finish =>
      intro _
      exact isRow_line Listing.finish [] rfl (by decide) (by decide) (by decide)
  | instruction byte opcode operand =>
      apply isRow_ofInstruction
      · exact unbroken opcode.mnemonic (by simp [Statement.texts])
      · intro token isOperand
        exact unbroken token (by simp [Statement.texts, Option.mem_toList.mpr isOperand])
  | mention token =>
      dsimp only [ofMention]
      split
      · intro _
        exact isRow_line "\t\t\t".toList (Text.lowerCase token) rfl (by decide) (by decide)
          (unbroken token (by simp [Statement.texts])).lowerCase
      · intro faultless
        cases faultless

end Emission

namespace Record

/-- The row is what the listing has for the record: its address, the digits of its bytes, and
something else on the same line. -/
structure ShownAs (record : Record) (row : Text) : Prop where
  unbroken : row.Unbroken
  address : row.take Listing.addressColumn = Listing.address record.start
  digits : Listing.byteDigits row = record.emission.bytes.flatMap Numeral.hexByte
  text : record.text = row ++ record.located.statement.lineEnd

theorem exists_shownAs {record : Record} (keepsLimit : record.overflows = false)
    (isRow : record.emission.IsRow record.located.statement.lineEnd) :
    ∃ row, record.ShownAs row := by
  obtain ⟨remark, isEntry, noDigit, unbroken⟩ := isRow
  have digits : ∀ c ∈ record.emission.bytes.flatMap Numeral.hexByte,
      Numeral.isHexDigit c = true := fun _ => Numeral.isHexDigit_of_mem_hexBytes
  have column := Listing.length_address record.start
  refine ⟨Listing.address record.start ++
    (record.emission.bytes.flatMap Numeral.hexByte ++ remark), ?_, ?_, ?_, ?_⟩
  · exact (Listing.unbroken_address record.start).append
      ((Text.Unbroken.of_digits digits).append unbroken)
  · exact List.take_left' column
  · unfold Listing.byteDigits
    rw [List.drop_left' column, List.takeWhile_append_of_pos digits, noDigit, List.append_nil]
  · simp [text, keepsLimit, isEntry]

theorem ShownAs.ne_nil {record : Record} {row : Text} (shown : record.ShownAs row) :
    row ≠ [] := by
  rintro rfl
  cases shown.address

/-- If only the last record can be an end directive, the lines of the texts are the rows. -/
theorem forall₂_shownAs {records : List Record}
    (rows : ∀ record ∈ records, ∃ row, record.ShownAs row)
    (nothingBehind : ∀ before record later, records = before ++ record :: later →
      record.located.statement = .finish → later = []) :
    List.Forall₂ ShownAs records (Listing.lines (records.flatMap text)) := by
  induction records with
  | nil => exact List.Forall₂.nil
  | cons head tail inductionHypothesis =>
      obtain ⟨row, shown⟩ := rows head (by simp)
      have tailRows := inductionHypothesis
        (fun record member => rows record (List.mem_cons_of_mem head member))
        (fun before record later isSplit => nothingBehind (head :: before) record later
          (by rw [isSplit, List.cons_append]))
      rw [List.flatMap_cons, shown.text]
      by_cases finishes : head.located.statement = .finish
      · -- The row of the end directive is not ended, and it is the last one.
        obtain rfl := nothingBehind [] head tail rfl finishes
        rw [finishes]
        simp only [Statement.lineEnd, List.flatMap_nil, List.append_nil]
        rw [Listing.lines_of_unbroken shown.unbroken shown.ne_nil]
        exact List.Forall₂.cons shown List.Forall₂.nil
      · rw [Statement.lineEnd_of_ne_finish finishes, List.append_assoc, List.singleton_append,
          Listing.lines_cons shown.unbroken]
        exact List.Forall₂.cons shown tailRows

/-- What each row tells about its record, all rows tell about all records. -/
theorem map_eq_map_of_forall₂ {records : List Record} {rows : List Text} {read : Text → Text}
    {datum : Record → Text} (shown : List.Forall₂ ShownAs records rows)
    (reads : ∀ {record row}, ShownAs record row → read row = datum record) :
    rows.map read = records.map datum := by
  rw [← List.forall₂_eq_eq_eq, List.forall₂_map_left_iff, List.forall₂_map_right_iff]
  exact shown.flip.imp fun _ _ isRow => reads isRow

variable {tokens : List Token}

/-- Behind an end directive the second pass has no record. -/
theorem eq_nil_of_finish {before later : List Record} {record : Record}
    (isSplit : ofTokens tokens = before ++ record :: later)
    (finishes : record.located.statement = .finish) : later = [] := by
  have walked := map_located_list (Symbols.ofTokens tokens) false 0 (Located.list tokens)
  change (ofTokens tokens).map located = Located.listFrom 0 0 tokens at walked
  rw [isSplit, List.map_append, List.map_cons] at walked
  exact List.map_eq_nil_iff.mp (Located.eq_nil_of_finish walked.symm finishes)

/-- An accepted program without data directives has a row for each of its records. -/
theorem shownAs_of_mem {record : Record} (member : record ∈ ofTokens tokens)
    (unbroken : ∀ token ∈ tokens, Text.Unbroken token)
    (noData : ∀ token ∈ tokens, token ≠ Directive.db.keyword ∧ token ≠ Directive.ds.keyword ∧
      token ≠ Directive.dw.keyword)
    (succeeds : (assemble tokens).success = true) : ∃ row, record.ShownAs row := by
  obtain ⟨keepsLimit, faultless⟩ := (Assembly.success_iff tokens).mp succeeds record member
  obtain ⟨token, rest, dropped, isRead⟩ :=
    Located.exists_read_of_mem_list (located_mem_of_mem member)
  have fromTokens : ∀ own ∈ token :: rest, own ∈ tokens := by
    intro own isOwn
    rw [← dropped] at isOwn
    exact List.mem_of_mem_drop isOwn
  have isEmission := (eq_of_mem_list member).2
  apply exists_shownAs keepsLimit
  rw [isEmission] at faultless ⊢
  refine Emission.isRow_ofStatement _ _ ?_ ?_ faultless
  · rw [isRead]
    exact Statement.unbroken_texts_read fun own isOwn => unbroken own (fromTokens own isOwn)
  · rw [isRead, ← Bool.not_eq_true]
    intro isData
    obtain ⟨noBytes, noSpace, noWords⟩ := noData token (fromTokens token (by simp))
    rcases Statement.keyword_of_isData isData with isBytes | isSpace | isWords
    · exact noBytes isBytes
    · exact noSpace isSpace
    · exact noWords isWords

end Record

/-- Listing and object code agree. Take tokens that do not break a line, among them no data
directive, and suppose that they are accepted. Then the listing, less its closing remark, has a
line for each statement of the walk. The line starts with the address of the statement, and the
hexadecimal digits directly behind the address, taken from all lines, are the object code. -/
theorem listing_shows_object_code {tokens : List Token} (nonempty : tokens ≠ [])
    (unbroken : ∀ token ∈ tokens, '\n' ∉ token)
    (noData : ∀ token ∈ tokens, token ≠ Directive.db.keyword ∧ token ≠ Directive.ds.keyword ∧
      token ≠ Directive.dw.keyword)
    (succeeds : (assemble tokens).success = true) :
    ∃ body, (assemble tokens).listing = body ++ Listing.noErrors ∧
      (Record.ofTokens tokens).map Record.located = Located.list tokens ∧
      (Listing.lines body).map (List.take Listing.addressColumn) =
        (Record.ofTokens tokens).map (fun record =>
          Numeral.hexWord (UInt16.ofNat record.start) ++ ": ".toList) ∧
      (Listing.lines body).flatMap Listing.byteDigits = (assemble tokens).hex := by
  have rows := Record.forall₂_shownAs
    (fun record member => Record.shownAs_of_mem member unbroken noData succeeds)
    (fun _ _ _ isSplit => Record.eq_nil_of_finish isSplit)
  refine ⟨(Record.ofTokens tokens).flatMap Record.text, ?_, Record.map_located_list _ _ _ _,
    ?_, ?_⟩
  · rw [listing_assemble nonempty, if_pos succeeds]
  · exact Record.map_eq_map_of_forall₂ rows fun shown => shown.address
  · have digits := Record.map_eq_map_of_forall₂ rows fun shown => shown.digits
    show _ = (assemble tokens).bytes.flatMap Numeral.hexByte
    rw [List.flatMap_def, digits, ← List.flatMap_def, bytes_assemble, List.flatMap_assoc]

private def pulse : List Token :=
  ["ORG", "100H", "START:", "PORT", "EQU", "0FFH", "D3", "PORT", "2F", "START", "C3", "START",
    "END", "D3"].map String.toList

/-- A row for each kind of statement that can be accepted, data directives aside. The last one
is the end directive, behind which nothing is read. -/
theorem listing_shows_object_code_pulse :
    (∀ token ∈ pulse, '\n' ∉ token) ∧ (assemble pulse).success = true ∧
      ∃ body, (assemble pulse).listing = body ++ Listing.noErrors ∧
        (Listing.lines body).map (List.take Listing.addressColumn) =
          ["0000: ", "0100: ", "0100: ", "0100: ", "0102: ", "0103: ", "0103: ", "0106: "].map
            String.toList ∧
        (Listing.lines body).flatMap Listing.byteDigits = "D3FF2FC30001".toList := by
  have unbroken : ∀ token ∈ pulse, '\n' ∉ token := by decide
  have succeeds : (assemble pulse).success = true := by decide +kernel
  obtain ⟨body, isListing, _, addresses, digits⟩ :=
    listing_shows_object_code (by decide) unbroken (by decide) succeeds
  exact ⟨unbroken, succeeds, body, isListing, addresses.trans (by decide +kernel),
    digits.trans (by decide +kernel)⟩

end Asm8080
