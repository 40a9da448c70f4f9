import Mathlib.Tactic.SplitIfs
import Asm8080.Text.Json

/-!
Contract: what a JSON text says.

Owns:
- the tokens of JSON, and the tokens that make up a value;
- a reader that goes over a text once and divides it into tokens, with the escapes of
  strings resolved;
- the value that a text denotes, of which there is one at most;
- `denotes_pretty`: the indented text of a value denotes that value.

Does not own: which values are written. Fractions, signs, exponents, null, and escapes for
surrogates are not read.
-/

namespace Asm8080

/-! ### Tokens -/

inductive JsonToken where
  | mark (character : Char)
  | boolean (value : Bool)
  | number (value : Nat)
  | string (content : Text)
deriving DecidableEq, Repr

namespace JsonValue

/-- The comma in front of an item or member, unless it is the first. -/
def comma (first : Bool) : List JsonToken :=
  if first then [] else [.mark ',']

mutual

/-- The tokens of a value: items and members are divided by commas, and a member is a name, a
colon and a value. -/
def tokens : JsonValue → List JsonToken
  | .boolean value => [.boolean value]
  | .number value => [.number value]
  | .string content => [.string content]
  | .array items => .mark '[' :: itemTokens true items ++ [.mark ']']
  | .object members => .mark '\x7b' :: memberTokens true members ++ [.mark '\x7d']

def itemTokens (first : Bool) : List JsonValue → List JsonToken
  | [] => []
  | item :: rest => comma first ++ item.tokens ++ itemTokens false rest

def memberTokens (first : Bool) : List (Text × JsonValue) → List JsonToken
  | [] => []
  | (name, value) :: rest =>
      comma first ++ [.string name, .mark ':'] ++ value.tokens ++ memberTokens false rest

end

/-- No value starts with the bracket that closes an array. -/
theorem tokens_ne_bracket_cons (value : JsonValue) (rest more : List JsonToken) :
    value.tokens ++ rest ≠ .mark ']' :: more := by
  cases value <;> simp [tokens]

theorem bracket_ne_itemTokens (first : Bool) (item : JsonValue) (rest : List JsonValue)
    (more after : List JsonToken) :
    .mark ']' :: more ≠ itemTokens first (item :: rest) ++ after := by
  cases first with
  | false => simp [itemTokens, comma]
  | true =>
    simp only [itemTokens, comma, if_true, List.nil_append, List.append_assoc]
    exact (tokens_ne_bracket_cons item _ _).symm

theorem brace_ne_memberTokens (first : Bool) (member : Text × JsonValue)
    (rest : List (Text × JsonValue)) (more after : List JsonToken) :
    .mark '\x7d' :: more ≠ memberTokens first (member :: rest) ++ after := by
  cases first <;> simp [memberTokens, comma]

mutual

/-- The tokens of a value tell where it ends and which value it is. -/
theorem tokens_append_inj {rest more : List JsonToken} :
    ∀ value other : JsonValue, value.tokens ++ rest = other.tokens ++ more →
      value = other ∧ rest = more
  | .boolean _, other, same => by
      cases other <;> simp_all [tokens]
  | .number _, other, same => by
      cases other <;> simp_all [tokens]
  | .string _, other, same => by
      cases other <;> simp_all [tokens]
  | .array items, other, same => by
      cases other with
      | array others =>
        simp only [tokens, List.cons_append, List.append_assoc, List.cons.injEq, true_and,
          List.nil_append] at same
        obtain ⟨sameItems, sameRest⟩ := itemTokens_append_inj true items others same
        exact ⟨by rw [sameItems], sameRest⟩
      | _ => simp [tokens] at same
  | .object members, other, same => by
      cases other with
      | object others =>
        simp only [tokens, List.cons_append, List.append_assoc, List.cons.injEq, true_and,
          List.nil_append] at same
        obtain ⟨sameMembers, sameRest⟩ := memberTokens_append_inj true members others same
        exact ⟨by rw [sameMembers], sameRest⟩
      | _ => simp [tokens] at same

theorem itemTokens_append_inj {rest more : List JsonToken} (first : Bool) :
    ∀ items others : List JsonValue,
      itemTokens first items ++ .mark ']' :: rest = itemTokens first others ++ .mark ']' :: more →
      items = others ∧ rest = more
  | [], [], same => ⟨rfl, List.tail_eq_of_cons_eq same⟩
  | [], other :: others, same => absurd same (bracket_ne_itemTokens first other others _ _)
  | item :: items, [], same => absurd same.symm (bracket_ne_itemTokens first item items _ _)
  | item :: items, other :: others, same => by
      simp only [itemTokens, List.append_assoc] at same
      obtain ⟨sameItem, sameTail⟩ :=
        tokens_append_inj item other (List.append_cancel_left same)
      obtain ⟨sameItems, sameRest⟩ := itemTokens_append_inj false items others sameTail
      exact ⟨by rw [sameItem, sameItems], sameRest⟩

theorem memberTokens_append_inj {rest more : List JsonToken} (first : Bool) :
    ∀ members others : List (Text × JsonValue),
      memberTokens first members ++ .mark '\x7d' :: rest =
        memberTokens first others ++ .mark '\x7d' :: more →
      members = others ∧ rest = more
  | [], [], same => ⟨rfl, List.tail_eq_of_cons_eq same⟩
  | [], other :: others, same => absurd same (brace_ne_memberTokens first other others _ _)
  | member :: members, [], same =>
      absurd same.symm (brace_ne_memberTokens first member members _ _)
  | (name, value) :: members, (otherName, otherValue) :: others, same => by
      simp only [memberTokens, List.append_assoc] at same
      have sameMember := List.append_cancel_left same
      simp only [List.cons_append, List.nil_append, List.cons.injEq, JsonToken.string.injEq,
        true_and] at sameMember
      obtain ⟨sameName, sameTail⟩ := sameMember
      obtain ⟨sameValue, sameMembersTail⟩ := tokens_append_inj value otherValue sameTail
      obtain ⟨sameMembers, sameRest⟩ := memberTokens_append_inj false members others sameMembersTail
      exact ⟨by rw [sameName, sameValue, sameMembers], sameRest⟩

end

theorem tokens_injective {value other : JsonValue} (same : value.tokens = other.tokens) :
    value = other := by
  have sameEnd : value.tokens ++ [] = other.tokens ++ [] := by rw [same]
  exact (tokens_append_inj value other sameEnd).1

end JsonValue

/-! ### The reader -/

/-- Where a reader stands in a text: between two tokens, or in one. -/
inductive JsonPlace where
  | between
  | number (value : Nat)
  /-- In a word; its letters so far, latest first. -/
  | word (letters : Text)
  /-- In a string; its characters so far, latest first. -/
  | string (content : Text)
  /-- Behind a backslash. -/
  | escape (content : Text)
  /-- In the four digits of a code. -/
  | code (content : Text) (digits : List Nat)
deriving DecidableEq, Repr

/-- A reader: the tokens that it has read, latest first, and where it stands. -/
structure JsonReader where
  tokens : List JsonToken
  place : JsonPlace
deriving DecidableEq, Repr

namespace JsonReader

def blanks : List Char :=
  [' ', '\t', '\n', '\r']

def marks : List Char :=
  ['\x7b', '\x7d', '[', ']', ':', ',']

/-- The characters that stand for others behind a backslash, with what they stand for. -/
def escapes : List (Char × Char) :=
  [('"', '"'), ('\\', '\\'), ('/', '/'), ('b', '\x08'), ('f', '\x0c'), ('n', '\n'), ('r', '\r'),
    ('t', '\t')]

def isLetter (character : Char) : Bool :=
  decide ('a' ≤ character) && decide (character ≤ 'z')

/-- Whether a number or a word goes on with the character. -/
def isWordPart (character : Char) : Bool :=
  (Numeral.digitValue? 10 character).isSome || isLetter character

def wordToken? (letters : Text) : Option JsonToken :=
  if letters = "true".toList then some (.boolean true)
  else if letters = "false".toList then some (.boolean false)
  else none

/-- The tokens with the one at the end, if a text can end there. -/
def settled? (reader : JsonReader) : Option (List JsonToken) :=
  match reader.place with
  | .between => some reader.tokens
  | .number value => some (.number value :: reader.tokens)
  | .word letters => (wordToken? letters.reverse).map (· :: reader.tokens)
  | _ => none

/-- Reads a character between two tokens. -/
def start? (tokens : List JsonToken) (character : Char) : Option JsonReader :=
  if blanks.contains character then some ⟨tokens, .between⟩
  else if marks.contains character then some ⟨.mark character :: tokens, .between⟩
  else if character = '"' then some ⟨tokens, .string []⟩
  else if isLetter character then some ⟨tokens, .word [character]⟩
  else (Numeral.digitValue? 10 character).map fun value => ⟨tokens, .number value⟩

/-- The character that a code of four digits stands for. -/
def codeChar? (digits : List Nat) : Option Char :=
  let code := Numeral.ofDigits 16 digits
  if code.isValidChar then some (Char.ofNat code) else none

/-- Reads a character. A number does not go on behind a zero in front, and a string holds no
control character as it is. -/
def step? (reader : JsonReader) (character : Char) : Option JsonReader :=
  match reader.place with
  | .between => start? reader.tokens character
  | .number value =>
      match Numeral.digitValue? 10 character with
      | some digit => if value = 0 then none else some ⟨reader.tokens, .number (value * 10 + digit)⟩
      | none => reader.settled?.bind (start? · character)
  | .word letters =>
      if isLetter character then some ⟨reader.tokens, .word (character :: letters)⟩
      else reader.settled?.bind (start? · character)
  | .string content =>
      if character = '"' then some ⟨.string content.reverse :: reader.tokens, .between⟩
      else if character = '\\' then some ⟨reader.tokens, .escape content⟩
      else if character.toNat < 0x20 then none
      else some ⟨reader.tokens, .string (character :: content)⟩
  | .escape content =>
      if character = 'u' then some ⟨reader.tokens, .code content []⟩
      else (escapes.lookup character).map fun meant => ⟨reader.tokens, .string (meant :: content)⟩
  | .code content digits =>
      match Numeral.digitValue? 16 character with
      | none => none
      | some digit =>
          if digits.length < 3 then some ⟨reader.tokens, .code content (digits ++ [digit])⟩
          else (codeChar? (digits ++ [digit])).map fun meant =>
            ⟨reader.tokens, .string (meant :: content)⟩

/-- Reads a text, character by character. -/
def run? (reader : JsonReader) (text : Text) : Option JsonReader :=
  text.foldlM step? reader

def initial : JsonReader :=
  ⟨[], .between⟩

end JsonReader

/-- The tokens of a text, if it is one of tokens and blanks. -/
def JsonToken.ofText? (text : Text) : Option (List JsonToken) :=
  ((JsonReader.initial.run? text).bind JsonReader.settled?).map List.reverse

/-- A text denotes a value if it has the tokens of that value. -/
def JsonValue.Denotes (text : Text) (value : JsonValue) : Prop :=
  JsonToken.ofText? text = some value.tokens

instance (text : Text) (value : JsonValue) : Decidable (JsonValue.Denotes text value) :=
  inferInstanceAs (Decidable (JsonToken.ofText? text = some value.tokens))

/-- A text denotes one value at most. -/
theorem JsonValue.Denotes.unique {text : Text} {value other : JsonValue}
    (denotes : Denotes text value) (denotesOther : Denotes text other) : value = other :=
  tokens_injective (Option.some.inj (denotes.symm.trans denotesOther))

/-! ### Reading what was written -/

namespace JsonReader

variable {tokens : List JsonToken} {reader next : JsonReader}

theorem run?_nil (reader : JsonReader) : reader.run? [] = some reader :=
  rfl

theorem run?_cons (character : Char) (rest : Text) :
    reader.run? (character :: rest) = (reader.step? character).bind fun next => next.run? rest :=
  List.foldlM_cons

theorem run?_append (left right : Text) :
    reader.run? (left ++ right) = (reader.run? left).bind fun next => next.run? right :=
  List.foldlM_append

theorem run?_append_of_run? {left : Text} (ran : reader.run? left = some next) (right : Text) :
    reader.run? (left ++ right) = next.run? right := by
  rw [run?_append, ran, Option.bind_some]

/-- A token that can end is ended by a character that does not go on with it. -/
theorem step?_of_settled? (settles : reader.settled? = some tokens) {character : Char}
    (ends : isWordPart character = false) : reader.step? character = start? tokens character := by
  obtain ⟨noDigit, noLetter⟩ := Bool.or_eq_false_iff.mp ends
  have undigit : Numeral.digitValue? 10 character = none := by simpa using noDigit
  unfold step?
  split
  next atPlace =>
    rw [settled?, atPlace] at settles
    rw [Option.some.inj settles]
  next value atPlace =>
    rw [undigit, settles]
    rfl
  next letters atPlace =>
    rw [noLetter, settles]
    rfl
  all_goals
    next atPlace =>
      rw [settled?, atPlace] at settles
      exact nomatch settles

theorem run?_lineStart (settles : reader.settled? = some tokens) (depth : Nat) :
    reader.run? (JsonValue.lineStart depth) = some ⟨tokens, .between⟩ := by
  have blanks (count : Nat) :
      run? ⟨tokens, .between⟩ (List.replicate count ' ') = some ⟨tokens, .between⟩ := by
    induction count with
    | zero => rfl
    | succ count inductionHypothesis =>
      rw [List.replicate_succ, run?_cons]
      exact inductionHypothesis
  rw [JsonValue.lineStart, run?_cons, step?_of_settled? settles (by decide)]
  exact blanks _

theorem run?_separator (settles : reader.settled? = some tokens) (first : Bool) (depth : Nat) :
    reader.run? (JsonValue.separator first depth) =
      some ⟨(JsonValue.comma first).reverse ++ tokens, .between⟩ := by
  cases first with
  | true => exact run?_lineStart settles depth
  | false =>
    rw [JsonValue.separator, if_neg Bool.false_ne_true, run?_cons,
      step?_of_settled? settles (by decide)]
    exact run?_lineStart rfl depth

theorem run?_closing (settles : reader.settled? = some tokens) {bracket : Char}
    (isMark : start? tokens bracket = some ⟨.mark bracket :: tokens, .between⟩)
    (ends : isWordPart bracket = false) (nothing : Bool) (depth : Nat) :
    reader.run? (JsonValue.closing bracket nothing depth) =
      some ⟨.mark bracket :: tokens, .between⟩ := by
  cases nothing with
  | true =>
    rw [JsonValue.closing, if_pos rfl, run?_cons, step?_of_settled? settles ends, isMark]
    rfl
  | false =>
    rw [JsonValue.closing, if_neg Bool.false_ne_true,
      run?_append_of_run? (run?_lineStart settles depth), run?_cons, step?, isMark]
    rfl

/-! ### Strings -/

theorem digitValue?_digitChar_sixteen {value : Nat} (small : value < 16) :
    Numeral.digitValue? 16 (Nat.digitChar value) = some value := by
  have each : ∀ value < 16, Numeral.digitValue? 16 (Nat.digitChar value) = some value := by decide
  exact each value small

/-- A character that is written as a code is read as itself. -/
theorem run?_code {character : Char} (isControl : character.toNat < 0x20) (content : Text) :
    run? ⟨tokens, .string content⟩ ("\\u00".toList ++
        [Nat.digitChar (character.toNat / 16), Nat.digitChar (character.toNat % 16)]) =
      some ⟨tokens, .string (character :: content)⟩ := by
  have upper : Numeral.digitValue? 16 (Nat.digitChar (character.toNat / 16)) =
      some (character.toNat / 16) :=
    digitValue?_digitChar_sixteen (by omega)
  have lower : Numeral.digitValue? 16 (Nat.digitChar (character.toNat % 16)) =
      some (character.toNat % 16) :=
    digitValue?_digitChar_sixteen (by omega)
  have isCode : Numeral.ofDigits 16 [0, 0, character.toNat / 16, character.toNat % 16] =
      character.toNat := by
    simp only [Numeral.ofDigits, List.foldl_cons, List.foldl_nil]
    omega
  have meant : codeChar? [0, 0, character.toNat / 16, character.toNat % 16] = some character := by
    have isValid : character.toNat.isValidChar := character.valid
    rw [codeChar?, isCode, if_pos isValid, Char.ofNat_toNat]
  have zeros : run? ⟨tokens, .string content⟩ "\\u00".toList =
      some ⟨tokens, .code content [0, 0]⟩ := rfl
  rw [run?_append_of_run? zeros, run?_cons]
  simp [step?, upper, lower, run?_cons, run?_nil, meant]

theorem run?_escape (character : Char) (content : Text) :
    run? ⟨tokens, .string content⟩ (JsonValue.escape character) =
      some ⟨tokens, .string (character :: content)⟩ := by
  unfold JsonValue.escape
  split_ifs with isQuote isBackslash _ _ _ _ _ isControl
  -- The seven characters with a letter of their own, then the codes, then the rest.
  iterate 7
    next => subst character; rfl
  · exact run?_code isControl content
  · simp [run?_cons, run?_nil, step?, isQuote, isBackslash, isControl]

theorem run?_quoted (settles : reader.settled? = some tokens) (content : Text) :
    reader.run? (JsonValue.quoted content) = some ⟨.string content :: tokens, .between⟩ := by
  have characters (content latest : Text) :
      run? ⟨tokens, .string latest⟩ (content.flatMap JsonValue.escape) =
        some ⟨tokens, .string (content.reverse ++ latest)⟩ := by
    induction content generalizing latest with
    | nil => rfl
    | cons head tail inductionHypothesis =>
      rw [List.flatMap_cons, run?_append_of_run? (run?_escape head latest), inductionHypothesis]
      simp
  rw [JsonValue.quoted, List.cons_append, run?_cons, step?_of_settled? settles (by decide)]
  show run? ⟨tokens, .string []⟩ _ = _
  rw [run?_append_of_run? (characters content [])]
  simp [run?_cons, run?_nil, step?]

/-! ### Numbers and words -/

theorem start?_digitChar {digit : Nat} (small : digit < 10) :
    start? tokens (Nat.digitChar digit) = some ⟨tokens, .number digit⟩ := by
  have each : ∀ digit < 10,
      blanks.contains (Nat.digitChar digit) = false ∧
        marks.contains (Nat.digitChar digit) = false ∧ Nat.digitChar digit ≠ '"' ∧
        isLetter (Nat.digitChar digit) = false ∧
        Numeral.digitValue? 10 (Nat.digitChar digit) = some digit := by
    decide
  obtain ⟨noBlank, noMark, noQuote, noLetter, isDigit⟩ := each digit small
  rw [start?, noBlank, noMark, noLetter, isDigit]
  simp [noQuote]

theorem step?_digitChar {value digit : Nat} (positive : value ≠ 0) (small : digit < 10) :
    step? ⟨tokens, .number value⟩ (Nat.digitChar digit) =
      some ⟨tokens, .number (value * 10 + digit)⟩ := by
  have each : ∀ digit < 10, Numeral.digitValue? 10 (Nat.digitChar digit) = some digit := by decide
  simp [step?, each digit small, positive]

theorem run?_toDigits (value : Nat) :
    run? ⟨tokens, .between⟩ (Nat.toDigits 10 value) = some ⟨tokens, .number value⟩ := by
  induction value using Nat.strongRecOn with
  | ind value inductionHypothesis =>
    rw [Nat.toDigits_eq_if (by omega)]
    split
    next small =>
      rw [run?_cons, step?, start?_digitChar small]
      rfl
    next large =>
      have ran := inductionHypothesis (value / 10) (by omega)
      rw [run?_append_of_run? ran, run?_cons,
        step?_digitChar (by omega) (Nat.mod_lt value (by omega)), Nat.mul_comm, Nat.div_add_mod]
      rfl

theorem run?_word (value : Bool) :
    ∃ next, run? ⟨tokens, .between⟩ (JsonValue.word value) = some next ∧
      next.settled? = some (.boolean value :: tokens) := by
  cases value with
  | true => exact ⟨_, rfl, rfl⟩
  | false => exact ⟨_, rfl, rfl⟩

/-! ### Values -/

theorem settled?_between (tokens : List JsonToken) :
    settled? ⟨tokens, .between⟩ = some tokens :=
  rfl

mutual

/-- Behind the text of a value the reader has its tokens, of which the last can be one that
the next character ends. -/
theorem run?_pretty (depth : Nat) (tokens : List JsonToken) :
    ∀ value : JsonValue, ∃ next, run? ⟨tokens, .between⟩ (value.pretty depth) = some next ∧
      next.settled? = some (value.tokens.reverse ++ tokens)
  | .boolean value => run?_word value
  | .number value => ⟨_, run?_toDigits value, rfl⟩
  | .string content => ⟨_, run?_quoted (settled?_between tokens) content, rfl⟩
  | .array items => by
      obtain ⟨next, ran, settles⟩ :=
        run?_prettyItems (depth + 1) true (settled?_between (.mark '[' :: tokens)) items
      have opened : step? ⟨tokens, .between⟩ '[' = some ⟨.mark '[' :: tokens, .between⟩ := rfl
      refine ⟨_, ?_, settled?_between _⟩
      rw [JsonValue.pretty, List.cons_append, run?_cons, opened, Option.bind_some,
        run?_append_of_run? ran, run?_closing settles rfl (by decide)]
      simp [JsonValue.tokens]
  | .object members => by
      obtain ⟨next, ran, settles⟩ :=
        run?_prettyMembers (depth + 1) true (settled?_between (.mark '\x7b' :: tokens)) members
      have opened : step? ⟨tokens, .between⟩ '\x7b' = some ⟨.mark '\x7b' :: tokens, .between⟩ := rfl
      refine ⟨_, ?_, settled?_between _⟩
      rw [JsonValue.pretty, List.cons_append, run?_cons, opened, Option.bind_some,
        run?_append_of_run? ran, run?_closing settles rfl (by decide)]
      simp [JsonValue.tokens]

theorem run?_prettyItems (depth : Nat) (first : Bool) {reader : JsonReader}
    {tokens : List JsonToken} (settles : reader.settled? = some tokens) :
    ∀ items : List JsonValue,
      ∃ next, reader.run? (JsonValue.prettyItems depth first items) = some next ∧
        next.settled? = some ((JsonValue.itemTokens first items).reverse ++ tokens)
  | [] => ⟨reader, rfl, settles⟩
  | item :: items => by
      obtain ⟨between, ran, settlesItem⟩ := run?_pretty depth _ item
      obtain ⟨next, ranItems, settlesItems⟩ := run?_prettyItems depth false settlesItem items
      refine ⟨next, ?_, ?_⟩
      · rw [JsonValue.prettyItems, List.append_assoc,
          run?_append_of_run? (run?_separator settles first depth), run?_append_of_run? ran, ranItems]
      · rw [settlesItems, JsonValue.itemTokens]
        simp

theorem run?_prettyMembers (depth : Nat) (first : Bool) {reader : JsonReader}
    {tokens : List JsonToken} (settles : reader.settled? = some tokens) :
    ∀ members : List (Text × JsonValue),
      ∃ next, reader.run? (JsonValue.prettyMembers depth first members) = some next ∧
        next.settled? = some ((JsonValue.memberTokens first members).reverse ++ tokens)
  | [] => ⟨reader, rfl, settles⟩
  | (name, value) :: members => by
      have colon (tokens : List JsonToken) :
          run? ⟨tokens, .between⟩ ": ".toList = some ⟨.mark ':' :: tokens, .between⟩ := rfl
      obtain ⟨between, ran, settlesValue⟩ := run?_pretty depth _ value
      obtain ⟨next, ranMembers, settlesMembers⟩ :=
        run?_prettyMembers depth false settlesValue members
      refine ⟨next, ?_, ?_⟩
      · rw [JsonValue.prettyMembers, List.append_assoc, List.append_assoc, List.append_assoc,
          run?_append_of_run? (run?_separator settles first depth),
          run?_append_of_run? (run?_quoted (settled?_between _) name),
          run?_append_of_run? (colon _), run?_append_of_run? ran, ranMembers]
      · rw [settlesMembers, JsonValue.memberTokens]
        simp

end

end JsonReader

/-- The indented text of a value denotes the value, and by `JsonValue.Denotes.unique` no other. -/
theorem JsonValue.denotes_pretty (value : JsonValue) (depth : Nat) :
    Denotes (value.pretty depth) value := by
  obtain ⟨next, ran, settles⟩ := JsonReader.run?_pretty depth [] value
  rw [Denotes, JsonToken.ofText?, JsonReader.initial, ran, Option.bind_some, settles]
  simp

/-- Blanks, escapes and a code, read from another layout than that of the writer. -/
example : JsonValue.Denotes "[ 10,\t\"a\\u0041\\/\" ]".toList
    (.array [.number 10, .string "aA/".toList]) := by
  decide +kernel

end Asm8080
