import Asm8080.Proofs.DataLayout
import Asm8080.Proofs.ListingRows
import Asm8080.Proofs.Replacement

/-!
Contract: the address column as a pattern, and the statements whose entries show it.

Owns:
- the text of the address column of an address, and the characters that it never has;
- where the column occurs in a text that is put together from parts;
- `Statement.mentions`: the statements with a name or a quotation that shows a pattern;
- the law that the entry of a faultless statement shows the column just if the statement
  mentions it.

Does not own: what becomes of the occurrences.
-/

namespace Asm8080

/-! ### The address column -/

/-- Whether a character is a digit as the address column has it. -/
def Numeral.isUpperDigit (c : Char) : Bool :=
  List.contains "0123456789ABCDEF".toList c

theorem Numeral.isUpperDigit_digit {value : Nat} (small : value < 16) :
    isUpperDigit (digit value) = true := by
  have each : ∀ value < 16, isUpperDigit (digit value) = true := by decide
  exact each value small

theorem Numeral.isUpperDigit_of_mem_hexWord {word : UInt16} {c : Char}
    (member : c ∈ hexWord word) : isUpperDigit c = true := by
  have bound := word.toNat_lt
  simp only [hexWord, List.mem_cons, List.not_mem_nil, or_false] at member
  rcases member with rfl | rfl | rfl | rfl
  · exact isUpperDigit_digit (by omega)
  · exact isUpperDigit_digit (by omega)
  · exact isUpperDigit_digit (by omega)
  · exact isUpperDigit_digit (by omega)

namespace Listing

/-- The text of the address column at `pc`. -/
def column (pc : UInt16) : Text :=
  Numeral.hexWord pc ++ [':', ' ']

theorem address_eq_column (start : Nat) : address start = column (UInt16.ofNat start) :=
  rfl

variable {pc : UInt16}

theorem column_ne_nil : column pc ≠ [] :=
  List.cons_ne_nil _ _

/-- Whether the address column never has the character. -/
def isForeign (c : Char) : Bool :=
  !Numeral.isUpperDigit c && c != ':' && c != ' '

theorem not_mem_column {c : Char} (foreign : isForeign c = true) : c ∉ column pc := by
  simp only [isForeign, Bool.and_eq_true, Bool.not_eq_true', bne_iff_ne] at foreign
  intro member
  rcases List.mem_append.mp member with inDigits | behind
  · rw [Numeral.isUpperDigit_of_mem_hexWord inDigits] at foreign
    exact absurd foreign.1.1 (by decide)
  · simp [foreign.1.2, foreign.2] at behind

/-- The space of the address column is its last character. -/
theorem space_only_last (front back : Text) (isColumn : column pc = front ++ ' ' :: back) :
    back = [] := by
  by_contra nonempty
  have early : ' ' ∈ (column pc).dropLast := by
    rw [isColumn, List.dropLast_append_of_ne_nil (by simp), List.dropLast_cons_of_ne_nil nonempty]
    simp
  have isDigits : (column pc).dropLast = Numeral.hexWord pc ++ [':'] := rfl
  rw [isDigits, List.mem_append, List.mem_singleton] at early
  rcases early with inDigits | isColon
  · exact absurd (Numeral.isUpperDigit_of_mem_hexWord inDigits) (by decide)
  · exact absurd isColon (by decide)

/-- A text does not start with the address column if one of its first characters is no digit. -/
theorem not_column_prefix_of_noDigit {text : Text} {c : Char} (place : Nat) (early : place < 4)
    (atPlace : text[place]? = some c) (noDigit : Numeral.isUpperDigit c = false) :
    ¬column pc <+: text := by
  rintro ⟨rest, rfl⟩
  have inDigits : place < (Numeral.hexWord pc).length := early
  rw [column, List.append_assoc, List.getElem?_append_left inDigits] at atPlace
  rw [Numeral.isUpperDigit_of_mem_hexWord (List.mem_of_getElem? atPlace)] at noDigit
  cases noDigit

/-! ### Where the column occurs -/

theorem no_column_of_noColon {text : Text} (noColon : ':' ∉ text) : ¬column pc <:+: text :=
  fun occurs => noColon (occurs.subset (by simp [column]))

/-- No occurrence starts before the first digit. -/
theorem column_infix_append_left {lead : Text}
    (noDigits : lead.all (fun c => !Numeral.isUpperDigit c) = true) (rest : Text) :
    column pc <:+: lead ++ rest ↔ column pc <:+: rest := by
  induction lead with
  | nil => rfl
  | cons head tail inductionHypothesis =>
      rw [List.all_cons, Bool.and_eq_true, Bool.not_eq_true'] at noDigits
      have notHere : ¬column pc <+: head :: (tail ++ rest) :=
        not_column_prefix_of_noDigit 0 (by decide) rfl noDigits.1
      rw [List.cons_append, List.infix_cons_iff, inductionHypothesis noDigits.2]
      simp [notHere]

theorem column_infix_break {c : Char} (foreign : isForeign c = true) (left right : Text) :
    column pc <:+: left ++ c :: right ↔ column pc <:+: left ∨ column pc <:+: right :=
  Text.infix_append_cons_iff_of_not_mem (not_mem_column foreign)

theorem column_infix_space (left right : Text) :
    column pc <:+: left ++ ' ' :: right ↔
      column pc <:+: left ++ [' '] ∨ column pc <:+: right :=
  Text.infix_append_cons_iff space_only_last

/-- A line, or a quotation, shows what it has between its lead and its last character. -/
theorem column_infix_enclosed {lead : Text} {last : Char}
    (noDigits : lead.all (fun c => !Numeral.isUpperDigit c) = true)
    (foreign : isForeign last = true) (body : Text) :
    column pc <:+: lead ++ body ++ [last] ↔ column pc <:+: body := by
  rw [column_infix_break foreign, column_infix_append_left noDigits, or_iff_left]
  exact no_column_of_noColon (by simp)

end Listing

/-! ### Operands that show the column -/

namespace Operand

theorem colon_not_mem_showWord (word : UInt16) : ':' ∉ showWord word := by
  intro member
  rcases List.mem_append.mp member with inDigits | behind
  · exact absurd (Numeral.isUpperDigit_of_mem_hexWord inDigits) (by decide)
  · exact absurd (List.mem_singleton.mp behind) (by decide)

theorem colon_not_mem_showByte (byte : UInt8) : ':' ∉ showByte byte := by
  intro member
  rcases List.mem_append.mp member with inDigits | behind
  · exact absurd (Numeral.isHexDigit_of_mem_hexByte inDigits) (by decide)
  · exact absurd (List.mem_singleton.mp behind) (by decide)

theorem colon_mem_of_showReference {reference : Text} (member : ':' ∈ showReference reference) :
    ':' ∈ reference := by
  have trimmed := mem_of_mem_lowerCase (by decide) member
  rw [List.mem_reverse] at trimmed
  exact List.mem_reverse.mp ((List.dropWhile_sublist _).subset trimmed)

theorem colon_not_mem_of_word {token : Text} {value : UInt16}
    (isWord : Literal.word token = .ok value) : ':' ∉ token := by
  intro member
  rw [Literal.word, if_pos (List.contains_iff_mem.mpr member)] at isWord
  cases isWord

variable {labels : LabelTable} {token : Text} {pc : UInt16}

theorem eq_ok_of_toOption {α : Type} {attempt : Except Literal.Fault α} {result : α}
    (isSome : attempt.toOption = some result) : attempt = .ok result := by
  cases attempt with
  | error fault => cases isSome
  | ok value => rw [Option.some.inj isSome]

/-- Neither a literal nor its value has a colon. -/
theorem column_infix_literal {value : UInt16} {shown : Text}
    (isLiteral : Literal.word token = .ok value) (noColon : ':' ∉ shown) :
    Listing.column pc <:+: shown ↔ Listing.column pc <:+: showReference token := by
  have tokenPlain : ':' ∉ showReference token := fun member =>
    colon_not_mem_of_word isLiteral (colon_mem_of_showReference member)
  exact iff_of_false (Listing.no_column_of_noColon noColon)
    (Listing.no_column_of_noColon tokenPlain)

/-- An operand shows the column only as the name of a label. -/
theorem column_infix_word {resolved : Resolved UInt16} (isWord : word labels token = .ok resolved) :
    Listing.column pc <:+: resolved.shown ↔ Listing.column pc <:+: showReference token := by
  unfold word at isWord
  split at isWord
  · rw [← Except.ok.inj isWord]
  · cases isLiteral : Literal.word token with
    | error fault =>
        rw [isLiteral] at isWord
        cases isWord
    | ok value =>
        rw [isLiteral] at isWord
        rw [← Except.ok.inj isWord]
        exact column_infix_literal isLiteral (colon_not_mem_showWord value)

theorem column_infix_byte {resolved : Resolved UInt8} (isByte : byte labels token = .ok resolved) :
    Listing.column pc <:+: resolved.shown ↔ Listing.column pc <:+: showReference token := by
  unfold byte at isByte
  split at isByte
  · rename_i address _
    cases isNarrow : Literal.narrow address with
    | error fault =>
        rw [isNarrow] at isByte
        cases isByte
    | ok narrowed =>
        rw [isNarrow] at isByte
        rw [← Except.ok.inj isByte]
  · cases isLiteral : Literal.word token with
    | error fault =>
        rw [Literal.byte, isLiteral] at isByte
        cases isByte
    | ok value =>
        rw [Literal.byte, isLiteral, Except.bind] at isByte
        cases isNarrow : Literal.narrow value with
        | error fault =>
            rw [isNarrow] at isByte
            cases isByte
        | ok narrowed =>
            rw [isNarrow] at isByte
            rw [← Except.ok.inj isByte]
            exact column_infix_literal isLiteral (colon_not_mem_showByte narrowed)

end Operand

/-! ### Value lists that show the column -/

namespace ValueList

/-- Whether a value of a byte list shows the pattern, as a quotation or as the name of a label. -/
def byteMentions (pattern value : Text) : Bool :=
  match Quoted.body? value with
  | some body => Text.holds pattern body
  | none => Text.holds pattern (Operand.showReference value)

variable {labels : LabelTable} {pc : UInt16}

theorem column_infix_join (shown : List Text) :
    Listing.column pc <:+: join shown ↔ ∃ piece ∈ shown, Listing.column pc <:+: piece := by
  induction shown with
  | nil =>
      have nothing : ¬Listing.column pc <:+: join [] :=
        Listing.no_column_of_noColon (by simp [join])
      simp [nothing]
  | cons head tail inductionHypothesis =>
      cases tail with
      | nil => simp [join]
      | cons next rest =>
          have joined : join (head :: next :: rest) =
              head ++ ',' :: ([' '] ++ join (next :: rest)) := by
            simp [join, List.intercalate_cons_cons]
          rw [joined, Listing.column_infix_break (by decide),
            Listing.column_infix_append_left (by decide), inductionHypothesis]
          exact (List.exists_mem_cons_iff _ _ _).symm

/-- What each result of a list tells about its value, some result tells about some value. -/
theorem exists_mem_iff_of_mapM {α β : Type} {f : α → Option β} {shows : β → Prop}
    {mentions : α → Prop}
    (agree : ∀ value item, f value = some item → (shows item ↔ mentions value))
    {values : List α} {items : List β} (all : values.mapM f = some items) :
    (∃ item ∈ items, shows item) ↔ ∃ value ∈ values, mentions value := by
  induction values generalizing items with
  | nil =>
      cases all
      simp
  | cons head tail inductionHypothesis =>
      obtain ⟨first, rest, isHead, isTail, rfl⟩ := mapM_cons_eq_some all
      rw [List.exists_mem_cons_iff, List.exists_mem_cons_iff, agree head first isHead,
        inductionHypothesis isTail]

/-- A value of a byte list shows the column just if it mentions it. Empty quotations, which are
not shown, mention nothing. -/
theorem column_infix_bytesOfValue? {value : Text} {item : Resolved (List UInt8)}
    (isItem : bytesOfValue? labels value = some item) :
    item.value ≠ [] ∧ Listing.column pc <:+: item.shown ↔
      byteMentions (Listing.column pc) value = true := by
  unfold bytesOfValue? at isItem
  unfold byteMentions
  cases body : Quoted.body? value with
  | some text =>
      simp only [body] at isItem
      split at isItem
      · have shown : Listing.column pc <:+: [quoteMark] ++ text ++ [quoteMark] ↔
            Listing.column pc <:+: text :=
          Listing.column_infix_enclosed (by decide) (by decide) text
        have filled (occurs : Listing.column pc <:+: text) : text ≠ [] := by
          rintro rfl
          exact Listing.column_ne_nil (List.infix_nil.mp occurs)
        rw [← Option.some.inj isItem, Text.holds_iff, ne_eq, List.map_eq_nil_iff]
        exact (and_congr_right' shown).trans (and_iff_right_of_imp filled)
      · cases isItem
  | none =>
      simp only [body, Option.map_eq_some_iff] at isItem
      obtain ⟨byte, isByte, rfl⟩ := isItem
      rw [Text.holds_iff, ← Operand.column_infix_byte (Operand.eq_ok_of_toOption isByte)]
      simp

theorem column_infix_bytes? {list : Text} {data : Resolved (List UInt8)}
    (isData : bytes? labels list = some data) :
    Listing.column pc <:+: data.shown ↔
      (values list).any (byteMentions (Listing.column pc)) = true := by
  unfold bytes? at isData
  split at isData
  · cases isData
  · rename_i items all
    dsimp only at isData
    split at isData
    · cases isData
    · rw [← Option.some.inj isData, column_infix_join, List.any_eq_true,
        ← exists_mem_iff_of_mapM (fun _ _ isItem => column_infix_bytesOfValue? isItem) all]
      simp [and_assoc]

theorem column_infix_words? {list : Text} {data : Resolved (List UInt16)}
    (isData : words? labels list = some data) :
    Listing.column pc <:+: data.shown ↔
      (values list).any (fun value =>
        Text.holds (Listing.column pc) (Operand.showReference value)) = true := by
  have each (value : Text) (item : Resolved UInt16)
      (isItem : (Operand.word labels value).toOption = some item) :
      Listing.column pc <:+: item.shown ↔
        Text.holds (Listing.column pc) (Operand.showReference value) = true := by
    rw [Text.holds_iff]
    exact Operand.column_infix_word (Operand.eq_ok_of_toOption isItem)
  unfold words? at isData
  split at isData
  · cases isData
  · rename_i items all
    split at isData
    · cases isData
    · rw [← Option.some.inj isData, column_infix_join, List.any_eq_true,
        ← exists_mem_iff_of_mapM each all]
      simp

end ValueList

/-! ### Statements that show the column -/

namespace Statement

/-- Whether a statement has a name or a quotation in which the listing shows the pattern. -/
def mentions (pattern : Text) : Statement → Bool
  | .label name => Text.holds pattern (Text.lowerCase name)
  | .equate name _ => Text.holds pattern (Text.lowerCase name ++ [' '])
  | .bytes operand => operand.any fun list =>
      (ValueList.values list).any (ValueList.byteMentions pattern)
  | .words operand => operand.any fun list =>
      (ValueList.values list).any fun value =>
        Text.holds pattern (Operand.showReference value)
  | .instruction _ _ operand => operand.any fun token =>
      Text.holds pattern (Operand.showReference token)
  | .mention token => Text.holds pattern (Text.lowerCase token)
  | .origin _ => false
  | .reserve _ => false
  | .strayEquate _ => false
  | .finish => false
  | .undefined _ => false

/-- What the reading of a statement guarantees about an instruction. -/
def IsSound : Statement → Prop
  | .instruction _ opcode operand =>
      ':' ∉ opcode.mnemonic ∧ (opcode.operand = .none → operand = none)
  | _ => True

theorem isSound_read (token : Token) (rest : List Token) : (read token rest).IsSound := by
  unfold read
  split
  · split <;> trivial
  · split
    case h_7 =>
      split
      · unfold ofHex
        split
        · rename_i opcode found
          constructor
          · have member := Mnemonic.mem_all_of_mem_defined (Opcode.mem_defined_of_slot found)
            intro colon
            exact absurd ((Mnemonic.wellSpelled_of_mem member).spelling ':' colon) (by decide)
          · intro takesNone
            rw [if_pos takesNone]
        · trivial
      · trivial
    all_goals trivial

end Statement

/-! ### Lines that show the column -/

namespace Listing

variable {pc : UInt16}

theorem column_infix_label (name : Text) :
    column pc <:+: label name ↔ column pc <:+: Text.lowerCase name :=
  column_infix_enclosed (by decide) (by decide) _

theorem column_infix_equate (name : Text) (value : UInt16) :
    column pc <:+: equate name value ↔
      column pc <:+: Text.lowerCase name ++ [' '] := by
  have isLine : equate name value = "\t\t\t".toList ++
      (Text.lowerCase name ++ ' ' :: ("equ ".toList ++ Operand.showWord value)) ++ ['\n'] := by
    unfold equate
    simp only [List.append_assoc]
    rfl
  have noColon : ':' ∉ "equ ".toList ++ Operand.showWord value := by
    intro member
    rcases List.mem_append.mp member with inKeyword | inValue
    · exact absurd inKeyword (by decide)
    · exact Operand.colon_not_mem_showWord value inValue
  rw [isLine, column_infix_enclosed (by decide) (by decide), column_infix_space,
    or_iff_left (no_column_of_noColon noColon)]

theorem column_infix_directive {keyword operand : Text}
    (noDigits : (Text.lowerCase keyword).all (fun c => !Numeral.isUpperDigit c) = true) :
    column pc <:+: directive keyword operand ↔
      column pc <:+: operand := by
  have isLine : directive keyword operand =
      ("\t\t\t\t".toList ++ Text.lowerCase keyword ++ [' ']) ++ operand ++ ['\n'] := by
    unfold directive
    simp only [List.append_assoc, List.cons_append, List.nil_append]
  rw [isLine]
  apply column_infix_enclosed _ (by decide)
  rw [List.all_append, List.all_append, noDigits]
  decide

theorem column_infix_instruction (bytes : List UInt8) {mnemonic : Text}
    (noColon : ':' ∉ mnemonic) (operand : Option Text) :
    column pc <:+: instruction bytes mnemonic operand ↔
      operand.any (Text.holds (column pc)) = true := by
  have noColon : ':' ∉ Text.lowerCase mnemonic := fun member =>
    noColon (mem_of_mem_lowerCase (by decide) member)
  have digits : ':' ∉ bytes.flatMap Numeral.hexByte ++
      List.replicate (byteColumn - 2 * bytes.length) ' ' := by
    intro member
    rcases List.mem_append.mp member with inBytes | inFilling
    · exact absurd (Numeral.isHexDigit_of_mem_hexBytes inBytes) (by decide)
    · exact absurd (List.eq_of_mem_replicate inFilling) (by decide)
  have isLine : instruction bytes mnemonic operand =
      (bytes.flatMap Numeral.hexByte ++
        List.replicate (byteColumn - 2 * bytes.length) ' ') ++
        '\t' :: (['\t', '\t'] ++ (Text.lowerCase mnemonic ++
          (operand.map fun shown => ' ' :: shown).getD []) ++ ['\n']) := by
    unfold instruction
    cases operand with
    | none =>
        simp only [List.append_assoc, Option.map_none, Option.getD_none]
        rfl
    | some shown =>
        simp only [List.append_assoc, Option.map_some, Option.getD_some]
        rfl
  rw [isLine, column_infix_break (by decide),
    or_iff_right (no_column_of_noColon digits),
    column_infix_enclosed (by decide) (by decide)]
  -- Neither the bytes nor the mnemonic has a colon; what is left is the operand.
  cases operand with
  | none => simpa using no_column_of_noColon noColon
  | some shown =>
      have noColonBefore : ':' ∉ Text.lowerCase mnemonic ++ [' '] := by simpa using noColon
      rw [Option.map_some, Option.getD_some, column_infix_space,
        or_iff_right (no_column_of_noColon noColonBefore), Option.any_some, Text.holds_iff]

end Listing

/-! ### Entries of faultless statements -/

/-- The entries that a statement can have if it has no fault. -/
inductive Statement.Entry (labels : LabelTable) : Statement → Text → Prop where
  | label (name : Text) : Entry labels (.label name) (Listing.label name)
  | equate (name : Text) (operand : Option Token) (value : UInt16) :
      Entry labels (.equate name operand) (Listing.equate name value)
  | origin (operand : Option Token) (value : UInt16) :
      Entry labels (.origin operand) (Listing.origin value)
  | bytes {list : Token} {data : Resolved (List UInt8)}
      (isData : ValueList.bytes? labels list = some data) :
      Entry labels (.bytes (some list)) (Listing.directive "db".toList data.shown)
  | reserve (operand : Option Token) (count : Nat) :
      Entry labels (.reserve operand) (Listing.directive "ds".toList (Numeral.decimal count))
  | words {list : Token} {data : Resolved (List UInt16)}
      (isData : ValueList.words? labels list = some data) :
      Entry labels (.words (some list)) (Listing.directive "dw".toList data.shown)
  | finish : Entry labels .finish Listing.finish
  | plain {opcode : Opcode} (byte : UInt8) (operand : Option Token)
      (takesNone : opcode.operand = .none) :
      Entry labels (.instruction byte opcode operand)
        (Listing.instruction [byte] opcode.mnemonic none)
  | withByte {token : Token} {resolved : Resolved UInt8} (bytes : List UInt8) (byte : UInt8)
      (opcode : Opcode) (isByte : Operand.byte labels token = .ok resolved) :
      Entry labels (.instruction byte opcode (some token))
        (Listing.instruction bytes opcode.mnemonic (some resolved.shown))
  | withWord {token : Token} {resolved : Resolved UInt16} (bytes : List UInt8) (byte : UInt8)
      (opcode : Opcode) (isWord : Operand.word labels token = .ok resolved) :
      Entry labels (.instruction byte opcode (some token))
        (Listing.instruction bytes opcode.mnemonic (some resolved.shown))
  | mention (token : Token) : Entry labels (.mention token) (Listing.label token)

namespace Emission

theorem entry_ofInstruction {labels : LabelTable} {byte : UInt8} {opcode : Opcode}
    {operand : Option Token} (faultless : (ofInstruction labels byte opcode operand).fault = none) :
    Statement.Entry labels (.instruction byte opcode operand)
      (ofInstruction labels byte opcode operand).entry := by
  unfold ofInstruction at faultless ⊢
  cases isOperand : opcode.operand with
  | none => exact .plain byte operand isOperand
  | byte =>
      simp only [isOperand] at faultless ⊢
      split at faultless
      · rename_i resolved isValue
        cases operand with
        | none => cases isValue
        | some token => exact .withByte _ byte opcode (eq_ok_of_mapError isValue)
      · cases faultless
  | word =>
      simp only [isOperand] at faultless ⊢
      split at faultless
      · rename_i resolved isValue
        cases operand with
        | none => cases isValue
        | some token => exact .withWord _ byte opcode (eq_ok_of_mapError isValue)
      · cases faultless

theorem entry_ofStatement {symbols : Symbols} {located : Located}
    (faultless : (ofStatement symbols located).fault = none) :
    located.statement.Entry symbols.labels (ofStatement symbols located).entry := by
  obtain ⟨index, statement⟩ := located
  unfold ofStatement at faultless ⊢
  cases statement with
  | label name =>
      dsimp only at faultless ⊢
      split at faultless
      · cases faultless
      · rename_i first
        rw [if_neg first]
        exact .label name
  | equate name operand =>
      dsimp only at faultless ⊢
      split at faultless
      · cases faultless
      · rename_i first
        rw [if_neg first]
        cases isValue : Counter.operandValue? symbols.labels index operand with
        | none =>
            rw [isValue] at faultless
            cases faultless
        | some value => exact .equate name operand value
  | origin operand =>
      dsimp only at faultless ⊢
      cases isValue : Counter.operandValue? symbols.labels index operand with
      | none =>
          rw [isValue] at faultless
          cases faultless
      | some value => exact .origin operand value
  | bytes operand =>
      dsimp only [ofBytes] at faultless ⊢
      split at faultless
      · rename_i data isData
        obtain ⟨list, rfl, isList⟩ := Option.bind_eq_some_iff.mp isData
        exact .bytes isList
      · cases faultless
  | reserve operand =>
      dsimp only at faultless ⊢
      cases isValue : Counter.operandValue? symbols.labels index operand with
      | none =>
          rw [isValue] at faultless
          cases faultless
      | some value => exact .reserve operand value.toNat
  | words operand =>
      dsimp only [ofWords] at faultless ⊢
      split at faultless
      · rename_i data isData
        obtain ⟨list, rfl, isList⟩ := Option.bind_eq_some_iff.mp isData
        exact .words isList
      · cases faultless
  | strayEquate operand => cases faultless
  | undefined token => cases faultless
  | finish => exact .finish
  | instruction byte opcode operand => exact entry_ofInstruction faultless
  | mention token =>
      dsimp only [ofMention] at faultless ⊢
      split at faultless
      · rename_i known
        rw [if_pos known]
        exact .mention token
      · cases faultless

end Emission

namespace Statement.Entry

variable {labels : LabelTable} {statement : Statement} {entry : Text} {pc : UInt16}

theorem ended (isEntry : statement.Entry labels entry) :
    ∃ stem, entry = stem ++ statement.lineEnd := by
  cases isEntry with
  | finish => exact ⟨Listing.finish, rfl⟩
  | _ => exact ⟨_, rfl⟩

/-- The entry shows the address column of `pc` just if the statement mentions it. -/
theorem column_infix_iff (isEntry : statement.Entry labels entry) (sound : statement.IsSound) :
    Listing.column pc <:+: entry ↔ statement.mentions (Listing.column pc) = true := by
  cases isEntry with
  | label name =>
      rw [Listing.column_infix_label, mentions, Text.holds_iff]
  | mention token =>
      rw [Listing.column_infix_label, mentions, Text.holds_iff]
  | equate name operand value =>
      rw [Listing.column_infix_equate, mentions, Text.holds_iff]
  | origin operand value =>
      apply iff_of_false _ Bool.false_ne_true
      exact (Listing.column_infix_enclosed (by decide) (by decide) _).not.mpr
        (Listing.no_column_of_noColon (Operand.colon_not_mem_showWord value))
  | bytes isData =>
      exact (Listing.column_infix_directive (by decide)).trans
        (ValueList.column_infix_bytes? isData)
  | reserve operand count =>
      apply iff_of_false _ Bool.false_ne_true
      apply (Listing.column_infix_directive (by decide)).not.mpr
      apply Listing.no_column_of_noColon
      intro member
      exact absurd (Nat.isDigit_of_mem_toDigits (by decide) (by decide) member) (by decide)
  | words isData =>
      exact (Listing.column_infix_directive (by decide)).trans
        (ValueList.column_infix_words? isData)
  | finish =>
      exact iff_of_false (Listing.no_column_of_noColon (by decide)) Bool.false_ne_true
  | plain byte operand takesNone =>
      obtain ⟨noColon, noOperand⟩ := sound
      rw [noOperand takesNone, Listing.column_infix_instruction [byte] noColon]
      rfl
  | withByte bytes byte opcode isByte =>
      rw [Listing.column_infix_instruction bytes sound.1, mentions, Option.any_some,
        Option.any_some, Text.holds_iff, Text.holds_iff]
      exact Operand.column_infix_byte isByte
  | withWord bytes byte opcode isWord =>
      rw [Listing.column_infix_instruction bytes sound.1, mentions, Option.any_some,
        Option.any_some, Text.holds_iff, Text.holds_iff]
      exact Operand.column_infix_word isWord

end Statement.Entry

end Asm8080
