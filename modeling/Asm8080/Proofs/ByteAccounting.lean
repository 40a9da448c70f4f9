import Asm8080.Proofs.DataLayout
import Asm8080.Proofs.Run

/-!
Contract: the second pass fills exactly the space that the counter passes over.

Owns:
- the size of a statement, read off its operand list or its opcode alone;
- the number of bytes that a statement emits, which is that size for every
  statement, faulty or not;
- the addresses at which a record places its bytes, and the number of bytes of an
  assembly.

Does not own: which bytes are emitted.
-/

namespace Asm8080

namespace Counter

/-- The number of bytes for which a statement needs room. -/
def size (labels : LabelTable) (located : Located) : Nat :=
  match located.statement with
  | .reserve operand =>
      match operandValue? labels located.index operand with
      | some count => count.toNat
      | none => 0
  | .bytes operand => listSize ValueList.bytesSize operand
  | .words operand => listSize ValueList.wordsSize operand
  | .instruction _ opcode _ => opcode.length
  | _ => 0

/-- The address to which a statement sets the counter: the value of an origin. -/
def target? (labels : LabelTable) (located : Located) : Option UInt16 :=
  match located.statement with
  | .origin operand => operandValue? labels located.index operand
  | _ => none

/-- The counter moves by the size of the statement, unless it is set. -/
theorem after_eq_advance {labels : LabelTable} {pc : Nat} {located : Located}
    (relative : target? labels located = none) (below : pc ≤ ceiling) :
    after labels pc located = advance pc (size labels located) := by
  have stays : advance pc 0 = pc := Nat.min_eq_left below
  unfold target? at relative
  unfold size after
  cases kind : located.statement with
  | origin operand =>
      simp only [kind] at relative
      simp [relative, stays]
  | reserve operand =>
      cases valued : operandValue? labels located.index operand with
      | none => simp [valued, stays]
      | some count => simp [valued]
  | bytes operand | words operand | instruction _ opcode _ => rfl
  | label _ | equate _ _ | strayEquate _ | finish | undefined _ | mention _ => simp [stays]

/-- Below its ceiling the counter never stays behind. -/
theorem after_eq_add {labels : LabelTable} {pc : Nat} {located : Located}
    (relative : target? labels located = none)
    (fits : pc + size labels located ≤ ceiling) :
    after labels pc located = pc + size labels located := by
  rw [after_eq_advance relative (by omega)]
  exact Nat.min_eq_left fits

end Counter

/-- Whether a statement is an origin, with or without a value. -/
def Statement.isOrigin : Statement → Bool
  | .origin _ => true
  | _ => false

theorem Counter.isOrigin_of_target? {labels : LabelTable} {located : Located}
    (set : (target? labels located).isSome) : located.statement.isOrigin = true := by
  unfold target? at set
  split at set
  · rename_i operand kind
    rw [kind]
    rfl
  · cases set

/-- An origin takes no room. -/
theorem Counter.size_of_isOrigin {labels : LabelTable} {located : Located}
    (isOrigin : located.statement.isOrigin = true) : size labels located = 0 := by
  unfold Statement.isOrigin at isOrigin
  split at isOrigin
  · rename_i operand kind
    simp [size, kind]
  · cases isOrigin

theorem Counter.after_of_target? {labels : LabelTable} {pc : Nat} {located : Located}
    {target : UInt16} (sets : target? labels located = some target) :
    after labels pc located = target.toNat := by
  unfold target? at sets
  split at sets
  · rename_i operand kind
    simp [after, kind, sets]
  · cases sets

namespace Emission

/-! ### Bytes that a statement emits -/

theorem length_ofBytes (labels : LabelTable) (operand : Option Token) :
    (ofBytes labels operand).bytes.length = Counter.listSize ValueList.bytesSize operand := by
  rcases ofBytes_cases labels operand with ⟨list, chunks, isList, all, isFlat, _⟩ | ⟨zeros, _⟩
  · rw [isFlat, ValueList.length_flatten (ValueList.length_byteChunk? labels) all, isList]
    rfl
  · rw [zeros, List.length_replicate]

theorem length_ofWords (labels : LabelTable) (operand : Option Token) :
    (ofWords labels operand).bytes.length = Counter.listSize ValueList.wordsSize operand := by
  rcases ofWords_cases labels operand with ⟨list, chunks, isList, all, isFlat, _⟩ | ⟨zeros, _⟩
  · rw [isFlat, ValueList.length_flatten (ValueList.length_wordChunk? labels) all, isList]
    exact (ValueList.wordsSize_eq_totalSize list).symm
  · rw [zeros, List.length_replicate]

theorem length_ofInstruction (labels : LabelTable) (byte : UInt8) (opcode : Opcode)
    (operand : Option Token) :
    (ofInstruction labels byte opcode operand).bytes.length = opcode.length := by
  unfold ofInstruction Opcode.length
  cases opcode.operand with
  | none => rfl
  | byte =>
      dsimp only
      split <;> rfl
  | word =>
      dsimp only
      split <;> rfl

/-- Every statement, faulty or not, emits as many bytes as it has room for. -/
theorem length_ofStatement (symbols : Symbols) (located : Located) :
    (ofStatement symbols located).bytes.length = Counter.size symbols.labels located := by
  unfold ofStatement Counter.size
  cases located.statement with
  | label name =>
      dsimp only
      split <;> rfl
  | equate name operand =>
      dsimp only
      split
      · rfl
      · cases Counter.operandValue? symbols.labels located.index operand <;> rfl
  | origin operand =>
      dsimp only
      cases Counter.operandValue? symbols.labels located.index operand <;> rfl
  | reserve operand =>
      dsimp only
      cases Counter.operandValue? symbols.labels located.index operand with
      | none => rfl
      | some count => exact List.length_replicate
  | bytes operand => exact length_ofBytes symbols.labels operand
  | words operand => exact length_ofWords symbols.labels operand
  | instruction byte opcode operand =>
      exact length_ofInstruction symbols.labels byte opcode operand
  | mention token =>
      dsimp only [ofMention]
      split <;> rfl
  | strayEquate _ | finish | undefined _ => rfl

end Emission

/-! ### Places of the bytes -/

theorem Cell.map_address_place (address : Nat) (bytes : List UInt8) :
    (Cell.place address bytes).map Cell.address = List.range' address bytes.length := by
  unfold Cell.place
  rw [List.map_map, ← List.zipIdx_map_snd]
  rfl

namespace Record

def advance (record : Record) : Nat :=
  record.next - record.start

/-- How far the records move the counter forward, taken together. -/
def totalAdvance (records : List Record) : Nat :=
  records.foldr (fun record total => record.advance + total) 0

/-- The counter has room for the statement below its ceiling. -/
def Fits (symbols : Symbols) (record : Record) : Prop :=
  record.start + Counter.size symbols.labels record.located ≤ Counter.ceiling

instance (symbols : Symbols) (record : Record) : Decidable (record.Fits symbols) := by
  unfold Fits
  infer_instance

variable {symbols : Symbols} {overflowed : Bool} {pc : Nat} {statements : List Located}
  {record : Record}

theorem length_bytes_of_mem (member : record ∈ list symbols overflowed pc statements) :
    record.emission.bytes.length = Counter.size symbols.labels record.located := by
  rw [(eq_of_mem_list member).2]
  exact Emission.length_ofStatement symbols record.located

theorem next_eq_add_of_mem (member : record ∈ list symbols overflowed pc statements)
    (fits : record.Fits symbols)
    (relative : Counter.target? symbols.labels record.located = none) :
    record.next = record.start + record.emission.bytes.length := by
  rw [(eq_of_mem_list member).1, length_bytes_of_mem member]
  exact Counter.after_eq_add relative fits

/-- An origin emits nothing, and any other statement moves the counter by what it
emits. -/
theorem advance_eq_length (member : record ∈ list symbols overflowed pc statements)
    (fits : record.Fits symbols) :
    (if record.located.statement.isOrigin then 0 else record.advance) = record.cells.length := by
  have cellCount : record.cells.length = record.emission.bytes.length := by
    unfold cells Cell.place
    rw [List.length_map, List.length_zipIdx]
  rw [cellCount]
  by_cases isOrigin : record.located.statement.isOrigin
  · rw [if_pos isOrigin, length_bytes_of_mem member, Counter.size_of_isOrigin isOrigin]
  · have relative : Counter.target? symbols.labels record.located = none := by
      apply Option.not_isSome_iff_eq_none.mp
      intro set
      exact isOrigin (Counter.isOrigin_of_target? set)
    rw [if_neg isOrigin, advance, next_eq_add_of_mem member fits relative]
    omega

theorem length_flatMap_cells (records : List Record)
    (accounted : ∀ record ∈ records,
      (if record.located.statement.isOrigin then 0 else record.advance) = record.cells.length) :
    (records.flatMap cells).length =
      totalAdvance (records.filter fun record => !record.located.statement.isOrigin) := by
  induction records with
  | nil => rfl
  | cons head tail inductionHypothesis =>
      have rest := inductionHypothesis fun record member => accounted record (by simp [member])
      have own := accounted head (by simp)
      rw [List.flatMap_cons, List.length_append, ← own, rest]
      by_cases isOrigin : head.located.statement.isOrigin
      · simp [isOrigin]
      · simp [isOrigin, totalAdvance]

end Record

/-- Byte accounting. As long as the counter stays below its ceiling, an origin with a
value emits nothing, and every other statement, faulty or not, emits one byte at each
address from where it starts up to where the next one starts, in that order. So the
number of bytes of an assembly is the sum of what the statements other than origins
add to the counter. -/
theorem bytes_fill_statements (tokens : List Token)
    (fits : ∀ record ∈ Record.ofTokens tokens, record.Fits (Symbols.ofTokens tokens)) :
    (assemble tokens).object.cells = (Record.ofTokens tokens).flatMap Record.cells ∧
      (∀ record ∈ Record.ofTokens tokens,
        if (Counter.target? (Symbols.ofTokens tokens).labels record.located).isSome then
          record.cells = []
        else
          record.start ≤ record.next ∧
            record.cells.map Cell.address =
              List.range' record.start (record.next - record.start)) ∧
      (assemble tokens).bytes.length =
        Record.totalAdvance ((Record.ofTokens tokens).filter fun record =>
          !record.located.statement.isOrigin) := by
  refine ⟨cells_assemble tokens, ?_, ?_⟩
  · intro record member
    have accounted := Record.advance_eq_length member (fits record member)
    split
    · rename_i set
      rw [if_pos (Counter.isOrigin_of_target? set)] at accounted
      exact List.length_eq_zero_iff.mp accounted.symm
    · rename_i notSet
      have relative : Counter.target? (Symbols.ofTokens tokens).labels record.located = none :=
        Option.not_isSome_iff_eq_none.mp notSet
      have next := Record.next_eq_add_of_mem member (fits record member) relative
      refine ⟨by omega, ?_⟩
      rw [Record.cells, Cell.map_address_place, next, Nat.add_sub_cancel_left]
  · show ((assemble tokens).object.cells.map Cell.byte).length = _
    rw [List.length_map, cells_assemble]
    exact Record.length_flatMap_cells _ fun record member =>
      Record.advance_eq_length member (fits record member)

private def faultyProgram : List Token :=
  ["ORG", "20H", "DB", "'','AB',X", "DS", "2", "C3", "NOWHERE"].map String.toList

/-- The zeros of faulty statements are counted like any other bytes. -/
theorem bytes_fill_statements_faultyProgram :
    (∀ record ∈ Record.ofTokens faultyProgram,
        record.Fits (Symbols.ofTokens faultyProgram)) ∧
      (assemble faultyProgram).bytes.length = 8 :=
  ⟨by decide +kernel,
    (bytes_fill_statements _ (by decide +kernel)).2.2.trans (by decide +kernel)⟩

end Asm8080
