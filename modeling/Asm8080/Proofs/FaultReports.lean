import Asm8080.Pass.Emission

/-!
Contract: the fault of a statement and the line that shows it.

Owns:
- the faults that each kind of statement can have;
- a report, an emission whose fault is one of those given and whose line holds the
  wording of the fault;
- the law that every statement's emission is such a report, whatever the symbols are.

Does not own: when a statement is faulty, and where its diagnostic goes.
-/

namespace Asm8080

/-- The faults that a statement can have. Running out of addresses is not among them: that is
found behind the statement, whatever its kind. -/
def Statement.faults : Statement → List Fault
  | .label name => [.duplicateLabel name]
  | .equate name _ => [.duplicateLabel name, .missingEquValue]
  | .origin _ => [.missingOrigin]
  | .bytes _ => [.invalidData]
  | .reserve _ => [.missingCount]
  | .words _ => [.invalidData]
  | .strayEquate _ => [.missingEquLabel]
  | .finish => []
  | .instruction _ _ _ => [.invalidOperand, .outOfRange, .labelNotFound]
  | .undefined token => [.unknownInstruction token]
  | .mention token => [.unknownOpcode token]

namespace Emission

/-- The emission has no fault, or one of those given, which its line then shows. -/
def Reports (emission : Emission) (faults : List Fault) : Prop :=
  ∀ fault ∈ emission.fault, fault ∈ faults ∧ fault.message <:+: emission.entry

theorem reports_of_faultless {emission : Emission} (faultless : emission.fault = none)
    (faults : List Fault) : emission.Reports faults := by
  intro fault isFault
  rw [faultless] at isFault
  cases isFault

theorem reports_of_fault {emission : Emission} {own : Fault} {faults : List Fault}
    (isOwn : emission.fault = some own) (listed : own ∈ faults)
    (shown : own.message <:+: emission.entry) : emission.Reports faults := by
  intro fault isFault
  rw [isOwn, Option.mem_some_iff] at isFault
  rw [← isFault]
  exact ⟨listed, shown⟩

/-! ### Operands without a value -/

theorem exists_of_mapError {α : Type} {attempt : Except Literal.Fault α}
    {kind : Literal.Fault → Fault} {fault : Fault}
    (faulty : attempt.mapError kind = .error fault) : ∃ reason, kind reason = fault := by
  cases attempt with
  | ok value => cases faulty
  | error reason => exact ⟨reason, Except.error.inj faulty⟩

theorem byteOperand_fault {labels : LabelTable} {operand : Option Token} {fault : Fault}
    (faulty : byteOperand labels operand = .error fault) :
    fault = .invalidOperand ∨ fault = .outOfRange := by
  cases operand with
  | none => exact Or.inl (Except.error.inj faulty).symm
  | some token =>
      obtain ⟨reason, rfl⟩ := exists_of_mapError faulty
      cases reason <;> simp [byteFault]

theorem wordOperand_fault {labels : LabelTable} {operand : Option Token} {fault : Fault}
    (faulty : wordOperand labels operand = .error fault) :
    fault = .labelNotFound ∨ fault = .outOfRange := by
  cases operand with
  | none => exact Or.inl (Except.error.inj faulty).symm
  | some token =>
      obtain ⟨reason, rfl⟩ := exists_of_mapError faulty
      cases reason <;> simp [wordFault]

/-! ### Statements -/

theorem reports_ofInstruction (labels : LabelTable) (byte : UInt8) (opcode : Opcode)
    (operand : Option Token) :
    (ofInstruction labels byte opcode operand).Reports
      [.invalidOperand, .outOfRange, .labelNotFound] := by
  unfold ofInstruction
  cases opcode.operand with
  | none => exact reports_of_faultless rfl _
  | byte =>
      dsimp only
      split
      · exact reports_of_faultless rfl _
      · rename_i fault faulty
        apply reports_of_fault rfl
        · rcases byteOperand_fault faulty with isFault | isFault <;> simp [isFault]
        · -- The mnemonic follows the wording here.
          exact (List.infix_append _ _ _).trans (List.prefix_append _ _).isInfix
  | word =>
      dsimp only
      split
      · exact reports_of_faultless rfl _
      · rename_i fault faulty
        apply reports_of_fault rfl
        · rcases wordOperand_fault faulty with isFault | isFault <;> simp [isFault]
        · exact List.infix_append _ _ _

theorem reports_ofRepetition (name : Text) {faults : List Fault}
    (listed : .duplicateLabel name ∈ faults) : (ofRepetition name).Reports faults :=
  reports_of_fault rfl listed (List.infix_append _ _ _)

/-- A statement has only faults of its kind, and its line shows the one that it has. -/
theorem reports_ofStatement (symbols : Symbols) (located : Located) :
    (ofStatement symbols located).Reports located.statement.faults := by
  unfold ofStatement
  cases located.statement with
  | label name =>
      dsimp only
      split
      · exact reports_ofRepetition name (by simp [Statement.faults])
      · exact reports_of_faultless rfl _
  | equate name operand =>
      dsimp only
      split
      · exact reports_ofRepetition name (by simp [Statement.faults])
      · cases Counter.operandValue? symbols.labels located.index operand with
        | some value => exact reports_of_faultless rfl _
        | none =>
            exact reports_of_fault rfl (by simp [Statement.faults]) (List.infix_append _ _ _)
  | origin operand =>
      dsimp only
      cases Counter.operandValue? symbols.labels located.index operand with
      | some value => exact reports_of_faultless rfl _
      | none => exact reports_of_fault rfl (by simp [Statement.faults]) (List.infix_append _ _ _)
  | reserve operand =>
      dsimp only
      cases Counter.operandValue? symbols.labels located.index operand with
      | some count => exact reports_of_faultless rfl _
      | none => exact reports_of_fault rfl (by simp [Statement.faults]) (List.infix_append _ _ _)
  | bytes operand =>
      dsimp only [ofBytes]
      split
      · exact reports_of_faultless rfl _
      · exact reports_of_fault rfl (by simp [Statement.faults]) (List.infix_append _ _ _)
  | words operand =>
      dsimp only [ofWords]
      split
      · exact reports_of_faultless rfl _
      · exact reports_of_fault rfl (by simp [Statement.faults]) (List.infix_append _ _ _)
  | strayEquate operand =>
      exact reports_of_fault rfl (by simp [Statement.faults]) (List.infix_append _ _ _)
  | finish => exact reports_of_faultless rfl _
  | instruction byte opcode operand =>
      exact reports_ofInstruction symbols.labels byte opcode operand
  | undefined token =>
      exact reports_of_fault rfl (by simp [Statement.faults]) (List.infix_append _ _ _)
  | mention token =>
      dsimp only [ofMention]
      split
      · exact reports_of_faultless rfl _
      · exact reports_of_fault rfl (by simp [Statement.faults]) (List.infix_append _ _ _)

end Emission

end Asm8080
