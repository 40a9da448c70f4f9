import Asm8080.Proofs.DataLayout
import Asm8080.Proofs.PassAgreement

/-!
Contract: label references mean addresses.

Owns:
- the places of a statement's bytes at which an operand is used as a word or as a
  byte;
- the record that first binds a name, and the value of a reference to it;
- the bytes that stand at a use: the address at which the second pass itself walks
  the definition, or an error where that address does not fit.

Does not own: references to labels that an equate defines.
-/

namespace Asm8080

namespace Statement

/-- The operands that a statement uses as words, each with its place among the bytes
of the statement. -/
def wordUses : Statement → List (Nat × Text)
  | .instruction _ opcode (some operand) =>
      if opcode.operand = .word then [(1, operand)] else []
  | .words (some list) => ValueList.placedFrom (fun _ => 2) 0 (ValueList.values list)
  | _ => []

/-- The operands that a statement uses as bytes, each with its place among the bytes
of the statement. -/
def byteUses : Statement → List (Nat × Text)
  | .instruction _ opcode (some operand) =>
      if opcode.operand = .byte then [(1, operand)] else []
  | .bytes (some list) => ValueList.placedFrom ValueList.byteSize 0 (ValueList.values list)
  | _ => []

end Statement

/-- Whether a record gives the name a value, as the finished symbols tell. -/
def Record.binds (symbols : Symbols) (name : Text) (record : Record) : Bool :=
  (record.located.bindingOf? symbols.labels record.start name).isSome

/-! ### The value of a reference -/

private theorem findSome?_of_find?_isSome {α β : Type} {f : α → Option β} {list : List α}
    {first : α} (isFirst : (list.find? fun item => (f item).isSome) = some first) :
    list.findSome? f = f first := by
  induction list with
  | nil => cases isFirst
  | cons head tail inductionHypothesis =>
      cases value : f head with
      | some result =>
          have isHead : head = first := by simpa [value] using isFirst
          simp [← isHead, value]
      | none =>
          have inTail : (tail.find? fun item => (f item).isSome) = some first := by
            simpa [value] using isFirst
          simp [value, inductionHypothesis inTail]

/-- A name whose first binding is a plain label stands for the low sixteen bits of the
counter at which the second pass walks that label. -/
theorem Symbols.resolve?_of_first_label {tokens : List Token} {operand : Text}
    {definition : Record}
    (first : (Record.ofTokens tokens).find?
      (Record.binds (Symbols.ofTokens tokens) (Label.fullName operand)) = some definition)
    (plain : definition.located.statement = .label (Label.fullName operand)) :
    (Symbols.ofTokens tokens).labels.resolve? operand = some (UInt16.ofNat definition.start) := by
  have binding : definition.located.bindingOf? (Symbols.ofTokens tokens).labels definition.start
      (Label.fullName operand) =
        some ⟨Label.fullName operand, UInt16.ofNat definition.start,
          definition.located.index⟩ := by
    simp [Located.bindingOf?, Located.binding?, plain, Option.filter_some]
  unfold LabelTable.resolve?
  rw [Symbols.find?_ofTokens tokens, findSome?_of_find?_isSome first, binding]
  rfl

theorem Label.head?_fullName {reference : Text} {head : Char}
    (starts : reference.head? = some head) : (Label.fullName reference).head? = some head := by
  unfold Label.fullName
  cases reference with
  | nil => cases starts
  | cons own tail =>
      split
      · exact starts
      · exact starts

theorem Quoted.body?_eq_none_of_defined {tokens : List Token} {located : Located}
    {operand : Text} (member : located ∈ Located.list tokens)
    (defines : located.statement.definedName? = some (Label.fullName operand)) :
    Quoted.body? operand = none := by
  have unquoted := Located.definedName_unquoted member defines
  unfold Quoted.body?
  cases operand with
  | nil => rfl
  | cons head tail =>
      have notQuote : head ≠ quoteMark := by
        intro isQuote
        apply unquoted
        rw [← isQuote]
        exact Label.head?_fullName rfl
      simp [notQuote]

/-! ### Operands that resolve to a label -/

section Resolved

variable {labels : LabelTable} {operand : Text} {value : UInt16}

theorem Operand.word_of_resolve? (found : labels.resolve? operand = some value) :
    Operand.word labels operand = .ok ⟨value, Operand.showReference operand⟩ := by
  simp [Operand.word, found]

theorem Operand.byte_of_resolve? (found : labels.resolve? operand = some value)
    (small : value.toNat < 256) :
    Operand.byte labels operand =
      .ok ⟨UInt8.ofNat value.toNat, Operand.showReference operand⟩ := by
  simp [Operand.byte, found, Literal.narrow, small, Except.map]

theorem Operand.byte_error_of_resolve? (found : labels.resolve? operand = some value)
    (large : 256 ≤ value.toNat) :
    Operand.byte labels operand = .error (.outOfRange value.toNat) := by
  have notSmall : ¬value.toNat < 256 := by omega
  simp [Operand.byte, found, Literal.narrow, notSmall, Except.map]

theorem ValueList.wordChunk?_of_resolve? (found : labels.resolve? operand = some value) :
    wordChunk? labels operand = some (Emission.wordBytes value) := by
  rw [wordChunk?, Operand.word_of_resolve? found]
  rfl

theorem ValueList.byteChunk?_of_resolve? (found : labels.resolve? operand = some value)
    (unquoted : Quoted.body? operand = none) :
    byteChunk? labels operand =
      if value.toNat < 256 then some [UInt8.ofNat value.toNat] else none := by
  unfold byteChunk? bytesOfValue?
  rw [unquoted]
  by_cases small : value.toNat < 256
  · rw [if_pos small, Operand.byte_of_resolve? found small]
    rfl
  · rw [if_neg small, Operand.byte_error_of_resolve? found (by omega)]
    rfl

/-! ### The bytes at a use -/

namespace Emission

theorem wordOperand_of_word {resolved : Resolved UInt16}
    (isWord : Operand.word labels operand = .ok resolved) :
    wordOperand labels (some operand) = .ok resolved := by
  rw [wordOperand, isWord]
  rfl

theorem byteOperand_of_byte {resolved : Resolved UInt8}
    (isByte : Operand.byte labels operand = .ok resolved) :
    byteOperand labels (some operand) = .ok resolved := by
  rw [byteOperand, isByte]
  rfl

theorem byteOperand_of_error {fault : Literal.Fault}
    (faulty : Operand.byte labels operand = .error fault) :
    byteOperand labels (some operand) = .error (byteFault fault) := by
  rw [byteOperand, faulty]
  rfl

theorem take_drop_of_wordUse {symbols : Symbols} {located : Located} {offset : Nat}
    (found : symbols.labels.resolve? operand = some value)
    (use : (offset, operand) ∈ located.statement.wordUses)
    (faultless : (ofStatement symbols located).fault = none) :
    ((ofStatement symbols located).bytes.drop offset).take 2 = wordBytes value := by
  unfold Statement.wordUses at use
  unfold ofStatement at faultless ⊢
  split at use
  · rename_i byte opcode own kind
    split at use
    · rename_i isWord
      obtain ⟨rfl, rfl⟩ : offset = 1 ∧ operand = own := by simpa using use
      have emitted := wordOperand_of_word (Operand.word_of_resolve? found)
      simp [kind, ofInstruction, isWord, emitted, wordBytes]
    · cases use
  · rename_i list kind
    simp only [kind] at faultless ⊢
    rcases ofWords_cases symbols.labels (some list) with
      ⟨own, chunks, isList, all, isFlat, _⟩ | ⟨_, faulty⟩
    · obtain rfl : list = own := Option.some.inj isList
      have placed := ValueList.take_drop_of_placed []
        (ValueList.length_wordChunk? symbols.labels) all use
      rw [ValueList.wordChunk?_of_resolve? found, List.nil_append] at placed
      rw [isFlat]
      exact (Option.some.inj placed).symm
    · rw [faulty] at faultless
      cases faultless
  · cases use

/-- At a use as a byte stands the label's value if it fits; otherwise the statement is
faulty and has a zero there. -/
theorem getElem?_of_byteUse {symbols : Symbols} {located : Located} {offset : Nat}
    (found : symbols.labels.resolve? operand = some value)
    (unquoted : Quoted.body? operand = none)
    (use : (offset, operand) ∈ located.statement.byteUses) :
    ((ofStatement symbols located).fault = none →
      value.toNat < 256 ∧
        (ofStatement symbols located).bytes[offset]? = some (UInt8.ofNat value.toNat)) ∧
      (256 ≤ value.toNat →
        (ofStatement symbols located).fault.isSome ∧
          (ofStatement symbols located).bytes[offset]? = some 0) := by
  unfold Statement.byteUses at use
  unfold ofStatement
  split at use
  · rename_i byte opcode own kind
    split at use
    · rename_i isByte
      obtain ⟨rfl, rfl⟩ : offset = 1 ∧ operand = own := by simpa using use
      by_cases small : value.toNat < 256
      · have notLarge : ¬256 ≤ value.toNat := by omega
        have emitted := byteOperand_of_byte (Operand.byte_of_resolve? found small)
        simp [kind, ofInstruction, isByte, emitted, small, notLarge]
      · have large : 256 ≤ value.toNat := by omega
        have refused := byteOperand_of_error (Operand.byte_error_of_resolve? found large)
        simp [kind, ofInstruction, isByte, refused]
    · cases use
  · rename_i list kind
    simp only [kind]
    obtain ⟨member, bounded⟩ := ValueList.mem_of_placed use
    have chunk := ValueList.byteChunk?_of_resolve? found unquoted
    have single : ValueList.byteSize operand = 1 := by
      simp [ValueList.byteSize, unquoted]
    rcases ofBytes_cases symbols.labels (some list) with
      ⟨own, chunks, isList, all, isFlat, faultless⟩ | ⟨zeros, faulty⟩
    · obtain rfl : list = own := Option.some.inj isList
      have placed := ValueList.take_drop_of_placed []
        (ValueList.length_byteChunk? symbols.labels) all use
      rw [chunk, List.nil_append, single, ← isFlat] at placed
      split at placed
      · rename_i small
        refine ⟨fun _ => ⟨small, ?_⟩, fun large => by omega⟩
        have atOffset := congrArg (fun bytes => bytes[0]?) (Option.some.inj placed)
        simpa using atOffset.symm
      · cases placed
    · rw [zeros, faulty]
      refine ⟨fun faultless => absurd faultless (by simp), fun _ => ⟨rfl, ?_⟩⟩
      have inside : offset < ValueList.bytesSize list := by
        have total : ValueList.bytesSize list =
            ValueList.totalSize ValueList.byteSize (ValueList.values list) := rfl
        omega
      exact List.getElem?_replicate_of_lt inside
  · cases use

end Emission

end Resolved

/-- References mean addresses. The bytes of an assembly are those that its records emit.
Take a name whose first binding in the second pass's walk is a plain label, wherever the
label stands, and let `address` be the low sixteen bits of the counter at which that pass
walks it. Where a statement uses the name as a word and has no fault of its own, it emits
the two bytes of the address, low byte first. Where it uses the name as a byte and has no
fault, the address fits in a byte and is emitted; if the address does not fit, the
statement has a fault and emits a zero in that place. -/
theorem references_mean_addresses {tokens : List Token} {use definition : Record}
    (offset address : Nat) (operand : Text)
    (used : use ∈ Record.ofTokens tokens)
    (first : (Record.ofTokens tokens).find?
      (Record.binds (Symbols.ofTokens tokens) (Label.fullName operand)) = some definition)
    (plain : definition.located.statement = .label (Label.fullName operand))
    (isAddress : address = definition.start % 0x10000) :
    (assemble tokens).object.cells = (Record.ofTokens tokens).flatMap Record.cells ∧
      ((offset, operand) ∈ use.located.statement.wordUses → use.emission.fault = none →
        (use.emission.bytes.drop offset).take 2 =
          [UInt8.ofNat (address % 256), UInt8.ofNat (address / 256)]) ∧
      ((offset, operand) ∈ use.located.statement.byteUses →
        (use.emission.fault = none →
          address < 256 ∧ use.emission.bytes[offset]? = some (UInt8.ofNat address)) ∧
        (256 ≤ address →
          use.emission.fault.isSome ∧ use.emission.bytes[offset]? = some 0)) := by
  have found := Symbols.resolve?_of_first_label first plain
  have value : (UInt16.ofNat definition.start).toNat = address := by
    rw [isAddress]
    exact UInt16.toNat_ofNat'
  have walked := Record.located_mem_of_mem (List.mem_of_find?_eq_some first)
  have unquoted : Quoted.body? operand = none :=
    Quoted.body?_eq_none_of_defined walked (by rw [plain]; rfl)
  rw [(Record.eq_of_mem_list used).2]
  refine ⟨cells_assemble tokens, ?_, ?_⟩
  · intro wordUse faultless
    rw [Emission.take_drop_of_wordUse found wordUse faultless, Emission.wordBytes, value]
  · intro byteUse
    have bytes := Emission.getElem?_of_byteUse found unquoted byteUse
    rw [value] at bytes
    exact bytes

private def farLabel : List Token :=
  ["C3", "FAR", "DB", "1,FAR", "ORG", "1234H", "FAR:"].map String.toList

/-- The jump emits the address of the label, and the byte list, which cannot hold it,
has a fault and a zero. -/
theorem references_mean_addresses_farLabel :
    (((Record.ofTokens farLabel).get ⟨0, by decide +kernel⟩).emission.bytes.drop 1).take 2 =
        [0x34, 0x12] ∧
      ((Record.ofTokens farLabel).get ⟨1, by decide +kernel⟩).emission.fault.isSome ∧
      ((Record.ofTokens farLabel).get ⟨1, by decide +kernel⟩).emission.bytes[1]? = some 0 := by
  have first : (Record.ofTokens farLabel).find?
      (Record.binds (Symbols.ofTokens farLabel) (Label.fullName "FAR".toList)) =
        some ((Record.ofTokens farLabel).get ⟨3, by decide +kernel⟩) := by
    decide +kernel
  have plain : ((Record.ofTokens farLabel).get ⟨3, by decide +kernel⟩).located.statement =
      .label (Label.fullName "FAR".toList) := by
    decide +kernel
  have jump := references_mean_addresses 1 0x1234 "FAR".toList
    (List.get_mem _ ⟨0, by decide +kernel⟩) first plain (by decide +kernel)
  have data := references_mean_addresses 1 0x1234 "FAR".toList
    (List.get_mem _ ⟨1, by decide +kernel⟩) first plain (by decide +kernel)
  exact ⟨jump.2.1 (by decide +kernel) (by decide +kernel),
    (data.2.2 (by decide +kernel)).2 (by decide)⟩

end Asm8080
