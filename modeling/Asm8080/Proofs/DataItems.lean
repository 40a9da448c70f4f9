import Asm8080.Proofs.Compilation
import Asm8080.Proofs.QuotedLiterals

/-!
Contract: the items of byte lists, from their text to their masked and prepared text.

Owns:
- data items, strings and bytes, each well formed by construction, with text and bytes;
- the scans that know quotes, none of which stops inside an item;
- the text of joined items, and the same text with the quotations set aside;
- the law of each stage on masked items, up to restoring them.

Does not own: the keyword in front of a list, and what the assembler makes of a list.
-/

namespace Asm8080

/-! ### Items -/

/-- Whether a string may hold the character: ASCII, and neither a quote nor a line end. -/
def isDataCharacter (character : Char) : Bool :=
  decide (character.toNat < 0x80) && character != quoteMark && character != '\n'

theorem isDataCharacter_iff {character : Char} :
    isDataCharacter character = true ↔
      character.toNat < 0x80 ∧ character ≠ quoteMark ∧ character ≠ '\n' := by
  simp [isDataCharacter, and_assoc]

/-- A value of a byte list. -/
inductive DataItem where
  /-- A string, which the source puts in quotes. -/
  | string (characters : Text) (nonempty : characters ≠ [])
      (allowed : ∀ c ∈ characters, isDataCharacter c = true)
  /-- A byte, which the source spells by two hexadecimal digits of either letter case. -/
  | byte (value : UInt8) (digits : Text)
      (spelled : Numeral.digits? 16 digits = some [value.toNat / 16, value.toNat % 16])

namespace DataItem

def text : DataItem → Text
  | .string characters _ _ => quoteMark :: characters ++ [quoteMark]
  | .byte _ digits _ => '0' :: digits ++ ['H']

def bytes : DataItem → List UInt8
  | .string characters _ _ => characters.map fun c => UInt8.ofNat c.toNat
  | .byte value _ _ => [value]

/-- The texts of items with a separator between them. -/
def joined (separator : Text) (items : List DataItem) : Text :=
  separator.intercalate (items.map text)

/-- What a list of bytes starts with. -/
def heading : Text :=
  Directive.db.keyword ++ [' ']

def statement (items : List DataItem) : Text :=
  heading ++ joined [',', ' '] items

def line (items : List DataItem) : Text :=
  statement items ++ ['\n']

theorem bytes_ne_nil (item : DataItem) : item.bytes ≠ [] := by
  cases item with
  | string characters nonempty _ => simpa [bytes] using nonempty
  | byte value digits _ => simp [bytes]

end DataItem

/-! ### Digits of a byte -/

theorem Numeral.isHexDigit_of_digits? {text : Text} {digits : List Nat}
    (isDigits : digits? 16 text = some digits) : ∀ c ∈ text, isHexDigit c = true := by
  unfold digits? at isDigits
  induction text generalizing digits with
  | nil => simp
  | cons head tail inductionHypothesis =>
      obtain ⟨first, rest, isFirst, isRest, _⟩ := ValueList.mapM_cons_eq_some isDigits
      intro c member
      rcases List.mem_cons.mp member with isHead | inTail
      · rw [isHead, isHexDigit, isFirst]
        rfl
      · exact inductionHypothesis isRest c inTail

theorem Numeral.digits?_toUpper {text : Text} (hexadecimal : ∀ c ∈ text, isHexDigit c = true) :
    digits? 16 (text.map Char.toUpper) = digits? 16 text := by
  unfold digits?
  induction text with
  | nil => rfl
  | cons head tail inductionHypothesis =>
      have ascii := toNat_of_isWordCharacter
        (isWordCharacter_of_isHexDigit (hexadecimal head (by simp)))
      have same := forall_ascii (fun c => digitValue? 16 c.toUpper = digitValue? 16 c)
        (by decide) ascii
      have later := inductionHypothesis fun c member => hexadecimal c (by simp [member])
      rw [List.map_cons, List.mapM_cons, List.mapM_cons, same, later]

namespace DataItem

/-- The item in capitals, which is what tokens hold: strings stay as they are. -/
def folded : DataItem → DataItem
  | .string characters nonempty allowed => .string characters nonempty allowed
  | .byte value digits spelled =>
      .byte value (digits.map Char.toUpper)
        ((Numeral.digits?_toUpper (Numeral.isHexDigit_of_digits? spelled)).trans spelled)

/-- The number that spells a byte. -/
def number {value : UInt8} {digits : Text}
    (spelled : Numeral.digits? 16 digits = some [value.toNat / 16, value.toNat % 16]) :
    HexNumber :=
  ⟨digits, Numeral.isHexDigit_of_digits? spelled⟩

section Byte

variable {value : UInt8} {digits : Text}
  (spelled : Numeral.digits? 16 digits = some [value.toNat / 16, value.toNat % 16])

theorem value_number : (number spelled).value = value.toNat := by
  have all := Numeral.digits?_eq_some (Numeral.isHexDigit_of_digits? spelled)
  rw [spelled, Option.some.injEq] at all
  unfold HexNumber.value number
  dsimp only
  rw [← all]
  show (0 * 16 + value.toNat / 16) * 16 + value.toNat % 16 = value.toNat
  omega

theorem text_folded_byte : (folded (.byte value digits spelled)).text =
    (Argument.literal (number spelled)).token := by
  simp [folded, text, Argument.token, Argument.text, HexNumber.text, number]

theorem isWord_text_byte : IsWord (text (.byte value digits spelled)) :=
  (number spelled).isWord_text

theorem unquoted_text_byte : quoteMark ∉ text (.byte value digits spelled) := fun member =>
  ((isWord_text_byte spelled).unremarkable quoteMark member).unbroken.1 rfl

end Byte

end DataItem

/-! ### Words in capitals -/

theorem Layout.foldFrom_word {word : Text} (isWord : IsWord word) (pending : Bool) (rest : Text) :
    foldFrom false pending (word ++ rest) =
      space pending ++ (word.map Char.toUpper ++ foldFrom false false rest) := by
  have character {c : Char} (word : isWordCharacter c = true) :
      c ≠ quoteMark ∧ isBlank c = false ∧ upperCase c = [c.toUpper] :=
    forall_ascii (fun c => isWordCharacter c = true →
      c ≠ quoteMark ∧ isBlank c = false ∧ upperCase c = [c.toUpper]) (by decide)
      (toNat_of_isWordCharacter word) word
  have behind (word : Text) (characters : ∀ c ∈ word, isWordCharacter c = true) :
      foldFrom false false (word ++ rest) =
        word.map Char.toUpper ++ foldFrom false false rest := by
    induction word with
    | nil => rfl
    | cons head tail inductionHypothesis =>
        obtain ⟨unquoted, unblank, upper⟩ := character (characters head (by simp))
        have later := inductionHypothesis fun c member => characters c (by simp [member])
        simp [foldFrom, unquoted, unblank, upper, space, later]
  cases word with
  | nil => exact absurd rfl isWord.1
  | cons head tail =>
      obtain ⟨unquoted, unblank, upper⟩ := character (isWord.2 head (by simp))
      have later := behind tail fun c member => isWord.2 c (by simp [member])
      simp [foldFrom, unquoted, unblank, upper, later]

/-! ### Scans that stop outside quotes -/

namespace Quoted

theorem untilStop_closed (isStop : Char → Bool) {body : Text} (unquoted : quoteMark ∉ body)
    (rest : Text) :
    untilStop isStop false ((Span.closed body).text ++ rest) =
      (Span.closed body).text ++ untilStop isStop false rest := by
  have inside (body : Text) (unquoted : quoteMark ∉ body) :
      untilStop isStop true (body ++ quoteMark :: rest) =
        body ++ quoteMark :: untilStop isStop false rest := by
    induction body with
    | nil => simp [untilStop]
    | cons head tail inductionHypothesis =>
        have headPlain : head ≠ quoteMark := fun same => unquoted (by simp [same])
        have later := inductionHypothesis fun member => unquoted (by simp [member])
        simp [untilStop, headPlain, later]
  simp [Span.text, untilStop, inside body unquoted]

end Quoted

namespace DataItem

/-! ### Scans over items -/

theorem unquoted_of_allowed {characters : Text}
    (allowed : ∀ c ∈ characters, isDataCharacter c = true) : quoteMark ∉ characters :=
  fun member => (isDataCharacter_iff.mp (allowed quoteMark member)).2.1 rfl

theorem isClosed_text (item : DataItem) : Quoted.IsClosed item.text := by
  cases item with
  | string characters _ allowed => exact Quoted.isClosed_closed (unquoted_of_allowed allowed)
  | byte value digits spelled => exact Quoted.isClosed_of_unquoted (unquoted_text_byte spelled)

/-- No scan stops inside an item, if it does not stop inside words. -/
theorem untilStop_text (item : DataItem) {isStop : Char → Bool}
    (goesOn : ∀ c, isWordCharacter c = true → isStop c = false) (rest : Text) :
    Quoted.untilStop isStop false (item.text ++ rest) =
      item.text ++ Quoted.untilStop isStop false rest := by
  cases item with
  | string characters _ allowed =>
      exact Quoted.untilStop_closed isStop (unquoted_of_allowed allowed) rest
  | byte value digits spelled =>
      have isWord := isWord_text_byte spelled
      apply Comment.untilStop_append
      intro c member
      exact ⟨(isWord.unremarkable c member).unbroken.1, goesOn c (isWord.2 c member)⟩

theorem mem_text {item : DataItem} {c : Char} (member : c ∈ item.text) :
    c.toNat < 0x80 ∧ c ≠ '\n' := by
  cases item with
  | string characters _ allowed =>
      simp only [text, List.cons_append, List.mem_cons, List.mem_append, List.not_mem_nil,
        or_false] at member
      rcases member with isQuote | inside | isQuote
      · rw [isQuote]
        decide
      · obtain ⟨ascii, _, noEnd⟩ := isDataCharacter_iff.mp (allowed c inside)
        exact ⟨ascii, noEnd⟩
      · rw [isQuote]
        decide
  | byte value digits spelled =>
      have isWord := isWord_text_byte spelled
      have word := isWord.2 c member
      refine ⟨toNat_of_isWordCharacter word, ?_⟩
      intro isEnd
      rw [isEnd] at word
      exact absurd word (by decide)

/-! ### Joined items -/

theorem joined_singleton (separator : Text) (item : DataItem) :
    joined separator [item] = item.text :=
  List.intercalate_singleton

theorem joined_cons (separator : Text) (item next : DataItem) (items : List DataItem) :
    joined separator (item :: next :: items) =
      item.text ++ (separator ++ joined separator (next :: items)) := by
  simp [joined, List.intercalate_cons_cons]

/-- Joined items start with a quote or a zero. -/
theorem head?_joined (separator : Text) {items : List DataItem} (nonempty : items ≠ []) :
    (joined separator items).head? = some quoteMark ∨
      (joined separator items).head? = some '0' := by
  obtain ⟨item, others, rfl⟩ := List.exists_cons_of_ne_nil nonempty
  have start : ∃ rest, joined separator (item :: others) = item.text ++ rest := by
    cases others with
    | nil => exact ⟨[], by rw [joined_singleton, List.append_nil]⟩
    | cons next others => exact ⟨_, joined_cons separator item next others⟩
  obtain ⟨rest, isJoined⟩ := start
  rw [isJoined]
  cases item with
  | string characters _ _ => exact Or.inl rfl
  | byte value digits _ => exact Or.inr rfl

theorem isClosed_joined {separator : Text} (unquoted : quoteMark ∉ separator)
    (items : List DataItem) : Quoted.IsClosed (joined separator items) := by
  induction items with
  | nil => rfl
  | cons item items inductionHypothesis =>
      cases items with
      | nil =>
          rw [joined_singleton]
          exact item.isClosed_text
      | cons next others =>
          rw [joined_cons, Quoted.isClosed_append item.isClosed_text,
            Quoted.isClosed_append (Quoted.isClosed_of_unquoted unquoted)]
          exact inductionHypothesis

theorem untilStop_joined (items : List DataItem) {isStop : Char → Bool}
    (goesOn : ∀ c, isWordCharacter c = true → isStop c = false) {separator : Text}
    (free : ∀ c ∈ separator, c ≠ quoteMark ∧ isStop c = false) :
    Quoted.untilStop isStop false (joined separator items) = joined separator items := by
  induction items with
  | nil => rfl
  | cons item items inductionHypothesis =>
      cases items with
      | nil =>
          have whole := item.untilStop_text goesOn []
          rw [Quoted.untilStop, List.append_nil] at whole
          rw [joined_singleton, whole]
      | cons next others =>
          rw [joined_cons, item.untilStop_text goesOn, Comment.untilStop_append free,
            inductionHypothesis]

theorem mem_joined {separator : Text} {items : List DataItem} {c : Char}
    (member : c ∈ joined separator items) :
    c ∈ separator ∨ c.toNat < 0x80 ∧ c ≠ '\n' := by
  induction items with
  | nil => cases member
  | cons item items inductionHypothesis =>
      cases items with
      | nil => exact Or.inr (mem_text (joined_singleton separator item ▸ member))
      | cons next others =>
          rw [joined_cons, List.mem_append, List.mem_append] at member
          rcases member with inItem | inSeparator | later
          · exact Or.inr (mem_text inItem)
          · exact Or.inl inSeparator
          · exact inductionHypothesis later

/-! ### Masked items -/

/-- The text of an item, with its quotation set aside under the number `index`. -/
def masked (item : DataItem) (index : Nat) : Text :=
  Quotation.maskFrom index (Quoted.spans item.text)

theorem masked_string {characters : Text} (nonempty : characters ≠ [])
    (allowed : ∀ c ∈ characters, isDataCharacter c = true) (index : Nat) :
    (string characters nonempty allowed).masked index =
      Quotation.placeholder (Numeral.decimal index) := by
  have own := Quoted.spans_closed (unquoted_of_allowed allowed)
  have isText : (string characters nonempty allowed).text =
      (Quoted.Span.closed characters).text := rfl
  rw [masked, isText, own, Quotation.maskFrom, Quotation.maskFrom, List.append_nil]

theorem masked_byte {value : UInt8} {digits : Text}
    (spelled : Numeral.digits? 16 digits = some [value.toNat / 16, value.toNat % 16])
    (index : Nat) : (byte value digits spelled).masked index = (byte value digits spelled).text := by
  rw [masked, Quotation.spans_of_unquoted (unquoted_text_byte spelled), Quotation.maskFrom_plain]

/-- The masked texts of items with a separator between them, numbered from `index` on. -/
def maskedFrom (separator : Text) : Nat → List DataItem → Text
  | _, [] => []
  | index, [item] => item.masked index
  | index, item :: next :: items =>
      item.masked index ++ (separator ++
        maskedFrom separator (index + (Quoted.quotations item.text).length) (next :: items))

theorem maskFrom_joined {separator : Text} (unquoted : quoteMark ∉ separator) (index : Nat)
    (items : List DataItem) :
    Quotation.maskFrom index (Quoted.spans (joined separator items)) =
      maskedFrom separator index items := by
  fun_induction maskedFrom separator index items with
  | case1 => rfl
  | case2 index item =>
      rw [joined_singleton]
      rfl
  | case3 index item next items inductionHypothesis =>
      have noQuotations := Quotation.quotations_of_unquoted unquoted
      unfold Quoted.quotations at noQuotations
      rw [joined_cons, Quoted.spans_append item.isClosed_text, Quotation.maskFrom_append,
        Quoted.spans_append (Quoted.isClosed_of_unquoted unquoted), Quotation.maskFrom_append,
        noQuotations, Quotation.spans_of_unquoted unquoted, Quotation.maskFrom_plain,
        ← inductionHypothesis]
      rfl

theorem quotations_joined {separator : Text} (unquoted : quoteMark ∉ separator)
    (items : List DataItem) :
    Quoted.quotations (joined separator items) =
      items.flatMap fun item => Quoted.quotations item.text := by
  induction items with
  | nil => rfl
  | cons item items inductionHypothesis =>
      rw [List.flatMap_cons, ← inductionHypothesis]
      cases items with
      | nil =>
          rw [joined_singleton]
          exact (List.append_nil _).symm
      | cons next others =>
          rw [joined_cons, Quoted.quotations_append item.isClosed_text,
            Quoted.quotations_append (Quoted.isClosed_of_unquoted unquoted),
            Quotation.quotations_of_unquoted unquoted, List.nil_append]

/-! ### The stages on masked items -/

/-- No stage treats a character of a masked item in a way of its own. -/
theorem inert_of_mem_masked {item : DataItem} {index : Nat} {c : Char}
    (member : c ∈ item.masked index) : Mnemonic.isBoundary c = false ∧ c ≠ ',' := by
  cases item with
  | string characters nonempty allowed =>
      rw [masked_string] at member
      simp only [Quotation.placeholder, List.cons_append, List.mem_cons, List.mem_append,
        List.not_mem_nil, or_false] at member
      rcases member with isOpen | inside | isClose
      · rw [isOpen]
        decide
      · have unremarkable := Quotation.unremarkable_of_mem_decimal inside
        exact ⟨unremarkable.inside, unremarkable.notSeparator.2⟩
      · rw [isClose]
        decide
  | byte value digits spelled =>
      rw [masked_byte] at member
      have unremarkable := (isWord_text_byte spelled).unremarkable c member
      exact ⟨unremarkable.inside, unremarkable.notSeparator.2⟩

theorem foldFrom_masked (item : DataItem) (index : Nat) (pending : Bool) (rest : Text) :
    Layout.foldFrom false pending (item.masked index ++ rest) =
      Layout.space pending ++ (item.folded.masked index ++ Layout.foldFrom false false rest) := by
  cases item with
  | string characters nonempty allowed =>
      rw [masked_string, folded, masked_string]
      exact Quotation.foldFrom_placeholder false pending index rest
  | byte value digits spelled =>
      have upper : (folded (byte value digits spelled)).text =
          (text (byte value digits spelled)).map Char.toUpper := text_folded_byte spelled
      rw [masked_byte, Layout.foldFrom_word (isWord_text_byte spelled), ← upper, folded, masked_byte]

theorem fold_masked (item : DataItem) (index : Nat) (rest : Text) :
    Layout.fold (item.masked index ++ rest) = item.folded.masked index ++ Layout.fold rest :=
  item.foldFrom_masked index false rest

theorem tightenCommas_masked (item : DataItem) (index : Nat) (rest : Text) :
    Layout.tightenCommas (item.masked index ++ rest) =
      item.masked index ++ Layout.tightenCommas rest :=
  Layout.tightenCommas_of_noComma (fun member => (inert_of_mem_masked member).2 rfl) rest

/-- A pending space is written before masked items. -/
theorem foldFrom_maskedFrom (separator : Text) (index : Nat) (item : DataItem)
    (items : List DataItem) :
    Layout.foldFrom false true (maskedFrom separator index (item :: items)) =
      ' ' :: Layout.fold (maskedFrom separator index (item :: items)) := by
  unfold Layout.fold
  cases items with
  | nil =>
      have folded (pending : Bool) := item.foldFrom_masked index pending []
      rw [List.append_nil] at folded
      rw [maskedFrom, folded, folded]
      rfl
  | cons next others =>
      rw [maskedFrom, foldFrom_masked, foldFrom_masked]
      rfl

theorem quotations_folded (item : DataItem) :
    Quoted.quotations item.folded.text = Quoted.quotations item.text := by
  cases item with
  | string characters nonempty allowed => rfl
  | byte value digits spelled =>
      rw [folded, Quotation.quotations_of_unquoted (unquoted_text_byte _),
        Quotation.quotations_of_unquoted (unquoted_text_byte spelled)]

/-- Folded, the items are in capitals, and no space stands behind the commas. -/
theorem tightenCommas_maskedFrom (index : Nat) (items : List DataItem) :
    Layout.tightenCommas (Layout.fold (maskedFrom [',', ' '] index items)) =
      maskedFrom [','] index (items.map folded) := by
  fun_induction maskedFrom [',', ' '] index items with
  | case1 => rfl
  | case2 index item =>
      have folded := item.fold_masked index []
      rw [List.append_nil] at folded
      rw [folded, tightenCommas_masked]
      exact List.append_nil _
  | case3 index item next items inductionHypothesis =>
      -- The space stays pending until the next item, so that it stands right behind the comma.
      have comma (rest : Text) :
          Layout.fold ([',', ' '] ++ rest) = ',' :: Layout.foldFrom false true rest := rfl
      rw [fold_masked, comma, foldFrom_maskedFrom, tightenCommas_masked, Layout.tightenCommas,
        inductionHypothesis, ← quotations_folded]
      rfl

theorem inert_maskedFrom (index : Nat) (items : List DataItem) :
    ∀ c ∈ maskedFrom [','] index items, Mnemonic.isBoundary c = false := by
  fun_induction maskedFrom [','] index items with
  | case1 => simp
  | case2 index item => exact fun c member => (inert_of_mem_masked member).1
  | case3 index item next items inductionHypothesis =>
      intro c member
      rw [List.mem_append, List.singleton_append, List.mem_cons] at member
      rcases member with inItem | isComma | later
      · exact (inert_of_mem_masked inItem).1
      · rw [isComma]
        decide
      · exact inductionHypothesis c later

/-- Restoring puts each string back. -/
theorem restore_masked {item : DataItem} {table later : List Text} {index : Nat}
    (fits : table.length ≤ Numeral.wordCeiling)
    (isDrop : table.drop index = Quoted.quotations item.text ++ later) (rest : Text) :
    Quotation.restore table (item.masked index ++ rest) =
      item.text ++ Quotation.restore table rest := by
  cases item with
  | string characters nonempty allowed =>
      have own : Quoted.quotations (string characters nonempty allowed).text =
          [(string characters nonempty allowed).text] :=
        Quoted.quotations_closed (unquoted_of_allowed allowed)
      rw [own, List.singleton_append] at isDrop
      rw [masked_string, Quotation.restore_placeholder,
        (Quotation.resolve_of_drop fits isDrop).1]
  | byte value digits spelled =>
      have unmarked : Quotation.openMark ∉ (byte value digits spelled).text := fun member =>
        absurd ((isWord_text_byte spelled).2 _ member) (by decide)
      rw [masked_byte, Quotation.restore_append table unmarked]

theorem restore_maskedFrom {table : List Text} (fits : table.length ≤ Numeral.wordCeiling)
    (index : Nat) (items : List DataItem)
    (isDrop : table.drop index = items.flatMap fun item => Quoted.quotations item.text) :
    Quotation.restore table (maskedFrom [','] index items) = joined [','] items := by
  fun_induction maskedFrom [','] index items with
  | case1 => rfl
  | case2 index item =>
      have restored := restore_masked fits isDrop []
      rw [List.append_nil] at restored
      rw [restored, joined_singleton]
      exact List.append_nil _
  | case3 index item next items inductionHypothesis =>
      rw [List.flatMap_cons] at isDrop
      have later : table.drop (index + (Quoted.quotations item.text).length) =
          (next :: items).flatMap fun item => Quoted.quotations item.text := by
        rw [← List.drop_drop, isDrop, List.drop_left]
      rw [restore_masked fits isDrop, List.singleton_append, Quotation.restore_cons _ (by decide),
        inductionHypothesis later, joined_cons, List.singleton_append]

end DataItem

end Asm8080
