import Mathlib.Data.List.Dedup
import Asm8080.Proofs.Diagnostics

/-!
Contract: the definitions of a program and what becomes of them.

Owns:
- the definitions of a walk as the tokens spell them, each with its value among the
  definitions before it. No label table is needed to say this;
- the value of a name, which is that of its first definition with a value;
- the diagnostics that definitions deserve: a name that has a value already, or a value
  that is missing;
- `Symbols.Tabulates`, the invariant by which the first pass keeps its table in step with
  the definitions that it has walked;
- `first_definition_wins`: table and diagnostics of a run in these terms.

Does not own: how labels are used.
-/

namespace Asm8080

/-- A definition statement of a walk: the counter where it starts, the name, and the value if
it has one. -/
structure Definition where
  pc : Nat
  name : Text
  value : Option UInt16
deriving DecidableEq, Repr

namespace Definition

/-- The value of the first definition of a name that has one. -/
def firstValue? (definitions : List Definition) (name : Text) : Option UInt16 :=
  definitions.findSome? fun definition =>
    if definition.name = name then definition.value else none

/-- The value of an operand behind some definitions: that of the name which it refers to, or
else that of a literal. -/
def operandValue? (earlier : List Definition) (operand : Option Token) : Option UInt16 :=
  operand.bind fun token =>
    (firstValue? earlier (Label.fullName token)).or (Literal.word token).toOption

/-- The definition at the first of the tokens: a token that ends in a colon or has an equate
behind it, and does not start with a quote. An equate gives the value of its operand, a plain
label that of the counter. -/
def read? (earlier : List Definition) (pc : Nat) : List Token → Option Definition
  | [] => none
  | token :: rest =>
      if (token.getLast? = some ':' ∨ rest.head? = some Directive.equ.keyword) ∧
          token.head? ≠ some quoteMark then
        some ⟨pc, Label.fullName token,
          if rest.head? = some Directive.equ.keyword then operandValue? earlier rest.tail.head?
          else some (UInt16.ofNat pc)⟩
      else none

/-- The definitions at the places of a walk, behind earlier ones. -/
def listFrom (tokens : List Token) (earlier : List Definition) : List Record → List Definition
  | [] => []
  | record :: tail =>
      let next := read? earlier record.start (tokens.drop record.located.index)
      next.toList ++ listFrom tokens (earlier ++ next.toList) tail

/-- The definitions of a program, in the order of the walk. -/
def ofTokens (tokens : List Token) : List Definition :=
  listFrom tokens [] (Record.ofTokens tokens)

/-- What is wrong with a definition: its name has a value already, or else it has no value. -/
def fault? (earlier : List Definition) (definition : Definition) : Option Fault :=
  if (firstValue? earlier definition.name).isSome then some (.duplicateLabel definition.name)
  else if definition.value.isNone then some .missingEquValue
  else none

/-- The diagnostics that definitions deserve, behind earlier ones. -/
def diagnosticsFrom (earlier : List Definition) : List Definition → List Diagnostic
  | [] => []
  | definition :: tail =>
      ((definition.fault? earlier).map fun fault => ⟨definition.pc, fault⟩).toList ++
        diagnosticsFrom (earlier ++ [definition]) tail

theorem diagnosticsFrom_append (earlier : List Definition) (next : Option Definition)
    (rest : List Definition) :
    diagnosticsFrom earlier (next.toList ++ rest) =
      diagnosticsFrom earlier next.toList ++
        diagnosticsFrom (earlier ++ next.toList) rest := by
  cases next with
  | none => simp [diagnosticsFrom]
  | some definition => simp [diagnosticsFrom]

/-! ### Values of names -/

/-- One more definition gives a value to its own name only, and only if that has none yet. -/
theorem firstValue?_append (definitions : List Definition) (next : Option Definition)
    (name : Text) :
    firstValue? (definitions ++ next.toList) name =
      (firstValue? definitions name).or
        (next.bind fun definition =>
          if definition.name = name then definition.value else none) := by
  unfold firstValue?
  rw [List.findSome?_append]
  cases next with
  | none => rfl
  | some definition => simp

theorem isSome_firstValue?_iff {definitions : List Definition} {name : Text} :
    (firstValue? definitions name).isSome ↔
      name ∈ (definitions.filter fun definition => definition.value.isSome).map
        Definition.name := by
  unfold firstValue?
  rw [List.findSome?_isSome_iff]
  simp only [List.mem_map, List.mem_filter]
  constructor
  · rintro ⟨definition, member, valued⟩
    split at valued
    · rename_i named
      exact ⟨definition, ⟨member, valued⟩, named⟩
    · cases valued
  · rintro ⟨definition, ⟨member, valued⟩, named⟩
    exact ⟨definition, member, by rw [if_pos named]; exact valued⟩

/-! ### Definitions as statements -/

/-- The definition that a statement makes. -/
def ofStatement? (earlier : List Definition) (pc : Nat) : Statement → Option Definition
  | .label name => some ⟨pc, name, some (UInt16.ofNat pc)⟩
  | .equate name operand => some ⟨pc, name, operandValue? earlier operand⟩
  | _ => none

/-- Tokens start with a definition just if they are read as one. -/
theorem read?_eq_ofStatement? (earlier : List Definition) (pc : Nat) (token : Token)
    (rest : List Token) :
    read? earlier pc (token :: rest) = ofStatement? earlier pc (Statement.read token rest) := by
  have defining : Statement.definesLabel token rest = true ↔
      (token.getLast? = some ':' ∨ Statement.equateFollows rest = true) ∧
        token.head? ≠ some quoteMark := by
    simp [Statement.definesLabel, Statement.isQuoted]
  unfold read? Statement.read
  simp only [← Statement.equateFollows_iff, ← defining]
  by_cases defines : Statement.definesLabel token rest
  · rw [if_pos defines, if_pos defines]
    by_cases equates : Statement.equateFollows rest
    · rw [if_pos equates, if_pos equates]
      rfl
    · rw [if_neg equates, if_neg equates]
      rfl
  · rw [if_neg defines, if_neg defines]
    split
    case h_7 =>
      split
      · unfold Statement.ofHex
        split <;> rfl
      · rfl
    all_goals rfl

theorem read?_of_mem {tokens : List Token} {located : Located}
    (member : located ∈ Located.list tokens) (earlier : List Definition) (pc : Nat) :
    read? earlier pc (tokens.drop located.index) =
      ofStatement? earlier pc located.statement := by
  obtain ⟨token, rest, dropped, isRead⟩ := Located.exists_read_of_mem_list member
  rw [dropped, isRead]
  exact read?_eq_ofStatement? earlier pc token rest

end Definition

/-! ### The table of the first pass -/

theorem Symbols.isRepetition_define_self {symbols : Symbols} {index : Nat}
    (unnoted : symbols.isRepetition index = false) (name : Text) (value : UInt16) :
    (symbols.define index name value).isRepetition index = symbols.labels.contains name := by
  unfold Symbols.define LabelTable.define
  cases symbols.labels.contains name with
  | false => simpa [isRepetition] using unnoted
  | true => simp [isRepetition]

theorem Symbols.isRepetition_defineNothing_self {symbols : Symbols} {index : Nat}
    (unnoted : symbols.isRepetition index = false) (name : Text) :
    (symbols.defineNothing index name).isRepetition index = symbols.labels.contains name := by
  unfold Symbols.defineNothing
  cases symbols.labels.contains name with
  | false => simpa using unnoted
  | true => simp [isRepetition]

/-- The names of a table, each of which it holds once. -/
def LabelTable.names (table : LabelTable) : List Text :=
  table.labels.map Label.name

theorem LabelTable.contains_iff {table : LabelTable} {name : Text} :
    table.contains name = true ↔ name ∈ table.names := by
  simp [contains, find?, names, List.find?_isSome]

/-- A table that holds each name once finds each of its labels. -/
theorem LabelTable.mem_labels_iff {table : LabelTable} (distinct : table.names.Nodup)
    {label : Label} : label ∈ table.labels ↔ table.find? label.name = some label := by
  constructor
  · intro member
    have contained : table.contains label.name = true :=
      contains_iff.mpr (List.mem_map_of_mem member)
    obtain ⟨found, isFound⟩ := Option.isSome_iff_exists.mp contained
    have named : found.name = label.name := by simpa using List.find?_some isFound
    have same : found = label :=
      List.inj_on_of_nodup_map distinct (List.mem_of_find?_eq_some isFound) member named
    rw [← same] at isFound ⊢
    exact isFound
  · intro isFound
    exact List.mem_of_find?_eq_some isFound

theorem Symbols.nodup_define {symbols : Symbols} (distinct : symbols.labels.names.Nodup)
    (index : Nat) (name : Text) (value : UInt16) :
    (symbols.define index name value).labels.names.Nodup := by
  unfold Symbols.define LabelTable.define
  cases contained : symbols.labels.contains name with
  | true => exact distinct
  | false =>
      refine List.nodup_cons.mpr ⟨?_, distinct⟩
      intro member
      rw [LabelTable.contains_iff.mpr member] at contained
      cases contained

/-- No statement puts a name into the table twice. -/
theorem Survey.nodup_symbolsAfter {symbols : Symbols} (distinct : symbols.labels.names.Nodup)
    (pc : Nat) (located : Located) :
    (symbolsAfter symbols pc located).labels.names.Nodup := by
  unfold symbolsAfter
  split
  · exact Symbols.nodup_define distinct _ _ _
  · split
    · exact Symbols.nodup_define distinct _ _ _
    · rw [Symbols.labels_defineNothing]
      exact distinct
  · split <;> exact distinct
  · exact distinct

namespace Symbols

/-- The symbols of a first pass that stands before token `index`, behind the definitions in
`earlier`. -/
structure Tabulates (index : Nat) (earlier : List Definition) (symbols : Symbols) : Prop where
  /-- The table knows the names that have a value, each by its first one. -/
  values : ∀ name, symbols.labels.get? name = Definition.firstValue? earlier name
  distinct : symbols.labels.names.Nodup
  /-- No repetition is noted for a token that is still to come. -/
  unnoted : ∀ later, index ≤ later → symbols.isRepetition later = false

namespace Tabulates

variable {index : Nat} {earlier : List Definition} {symbols : Symbols} {located : Located}

theorem start : Tabulates 0 [] Symbols.empty where
  values _ := rfl
  distinct := List.nodup_nil
  unnoted _ _ := rfl

theorem contains_eq (tabulates : Tabulates index earlier symbols) (name : Text) :
    symbols.labels.contains name = (Definition.firstValue? earlier name).isSome := by
  rw [← tabulates.values name, LabelTable.get?, Option.isSome_map]
  rfl

/-- The table gives the operand of the next statement its value behind the definitions. -/
theorem operandValue?_eq (tabulates : Tabulates index earlier symbols)
    (past : symbols.labels.DefinedBefore index) (operand : Option Token) :
    Counter.operandValue? symbols.labels index operand =
      Definition.operandValue? earlier operand := by
  have resolved (token : Token) : symbols.labels.resolveBefore? token index =
      Definition.firstValue? earlier (Label.fullName token) := by
    rw [LabelTable.resolveBefore?_eq_resolve? past (LabelTable.ExtendsFrom.refl index _)]
    exact tabulates.values (Label.fullName token)
  unfold Counter.operandValue? Definition.operandValue?
  congr 1
  funext token
  unfold Operand.valueBefore?
  rw [resolved token]
  cases Definition.firstValue? earlier (Label.fullName token) <;> rfl

/-- The label that the next statement binds has the value of the definition that it makes. -/
theorem bindingOf?_value (tabulates : Tabulates index earlier symbols)
    (past : symbols.labels.DefinedBefore index) (atIndex : located.index = index) (pc : Nat)
    (name : Text) :
    (located.bindingOf? symbols.labels pc name).map Label.value =
      (Definition.ofStatement? earlier pc located.statement).bind fun definition =>
        if definition.name = name then definition.value else none := by
  unfold Located.bindingOf? Located.binding? Definition.ofStatement?
  rw [atIndex]
  cases located.statement with
  | label own => by_cases same : own = name <;> simp [same, Option.filter_some]
  | equate own operand =>
      dsimp only
      rw [tabulates.operandValue?_eq past operand]
      by_cases same : own = name <;> cases Definition.operandValue? earlier operand <;>
        simp [same, Option.filter_some]
  | origin _ | bytes _ | reserve _ | words _ | strayEquate _ | finish => rfl
  | instruction _ _ _ | undefined _ | mention _ => rfl

theorem step (tabulates : Tabulates index earlier symbols)
    (past : symbols.labels.DefinedBefore index) (atIndex : located.index = index) (pc : Nat) :
    Tabulates (index + located.statement.width)
      (earlier ++ (Definition.ofStatement? earlier pc located.statement).toList)
      (Survey.symbolsAfter symbols pc located) where
  values name := by
    rw [LabelTable.get?, Survey.find?_symbolsAfter, Option.map_or,
      tabulates.bindingOf?_value past atIndex, Definition.firstValue?_append,
      ← tabulates.values name]
    rfl
  distinct := Survey.nodup_symbolsAfter tabulates.distinct pc located
  unnoted later behind := by
    have positive := (Statement.width_bounds located.statement).1
    have different : located.index ≠ later := by omega
    have kept := Survey.isRepetition_step ⟨pc, symbols⟩ different
    exact kept.trans (tabulates.unnoted later (by omega))

/-- The table has as many names as have a value. -/
theorem size_eq (tabulates : Tabulates index earlier symbols) :
    symbols.labels.size =
      ((earlier.filter fun definition => definition.value.isSome).map
        Definition.name).dedup.length := by
  have sameNames : symbols.labels.names.Perm
      ((earlier.filter fun definition => definition.value.isSome).map Definition.name).dedup := by
    apply (List.perm_ext_iff_of_nodup tabulates.distinct (List.nodup_dedup _)).mpr
    intro name
    rw [← LabelTable.contains_iff, tabulates.contains_eq name,
      Definition.isSome_firstValue?_iff, List.mem_dedup]
  rw [← sameNames.length_eq, LabelTable.names, List.length_map]
  rfl

end Tabulates

end Symbols

namespace Survey

namespace Underway

variable {index : Nat} {earlier : List Definition} {survey : Survey} {located : Located}
  {statements : List Located} {final : Symbols}

/-- The second pass finds a repetition where the name had a value already. -/
theorem isRepetition_iff (underway : Underway final.labels index survey (located :: statements))
    (ends : ((located :: statements).foldl Survey.step survey).symbols = final)
    (tabulates : survey.symbols.Tabulates index earlier) {name : Text}
    (defines : located.statement.definedName? = some name) :
    final.isRepetition located.index = (Definition.firstValue? earlier name).isSome := by
  have unnoted : survey.symbols.isRepetition located.index = false :=
    tabulates.unnoted located.index (Nat.le_of_eq underway.adjacent.1.symm)
  rw [underway.isRepetition_eq ends, ← tabulates.contains_eq name]
  show (symbolsAfter survey.symbols survey.pc located).isRepetition located.index = _
  unfold symbolsAfter
  unfold Statement.definedName? at defines
  split at defines
  · rename_i own isLabel
    obtain rfl : own = name := Option.some.inj defines
    rw [isLabel]
    exact Symbols.isRepetition_define_self unnoted own _
  · rename_i own operand isEquate
    obtain rfl : own = name := Option.some.inj defines
    rw [isEquate]
    dsimp only
    split
    · exact Symbols.isRepetition_define_self unnoted own _
    · exact Symbols.isRepetition_defineNothing_self unnoted own
  · cases defines

/-- The second pass finds the fault that a definition has behind those before it. -/
theorem fault_ofDefinition
    (underway : Underway final.labels index survey (located :: statements))
    (ends : ((located :: statements).foldl Survey.step survey).symbols = final)
    (tabulates : survey.symbols.Tabulates index earlier) {definition : Definition}
    (defines : Definition.ofStatement? earlier survey.pc located.statement = some definition) :
    (Emission.ofStatement final located).fault = definition.fault? earlier := by
  have repeats (name : Text) (named : located.statement.definedName? = some name) :=
    underway.isRepetition_iff ends tabulates named
  unfold Emission.ofStatement Definition.fault?
  unfold Definition.ofStatement? at defines
  split at defines
  · rename_i name isLabel
    rw [← Option.some.inj defines, isLabel]
    dsimp only
    rw [repeats name (by rw [isLabel]; rfl)]
    split <;> rfl
  · rename_i name operand isEquate
    have value : Counter.operandValue? final.labels located.index operand =
        Definition.operandValue? earlier operand := by
      rw [underway.operandValue?_eq operand, underway.adjacent.1]
      exact tabulates.operandValue?_eq underway.past operand
    rw [← Option.some.inj defines, isEquate]
    dsimp only
    rw [repeats name (by rw [isEquate]; rfl), value]
    split
    · rfl
    · cases Definition.operandValue? earlier operand <;> rfl
  · cases defines

end Underway

end Survey

/-! ### Diagnostics of definitions -/

/-- Whether a fault is one that only definitions have. -/
def Fault.concernsDefinition : Fault → Bool
  | .duplicateLabel _ => true
  | .missingEquValue => true
  | _ => false

/-- Whether a diagnostic is about a definition. -/
def Diagnostic.concernsDefinition (diagnostic : Diagnostic) : Bool :=
  diagnostic.fault.concernsDefinition

theorem Record.filter_diagnostics (record : Record) :
    record.diagnostics.filter Diagnostic.concernsDefinition =
      record.ownDiagnostic?.toList.filter Diagnostic.concernsDefinition := by
  rw [record.diagnostics_eq_own_append, List.filter_append]
  cases record.overflows <;> simp [Diagnostic.concernsDefinition, Fault.concernsDefinition]

theorem Definition.concernsDefinition_of_fault? {earlier : List Definition}
    {definition : Definition} {fault : Fault} (isFault : definition.fault? earlier = some fault) :
    fault.concernsDefinition = true := by
  unfold Definition.fault? at isFault
  split at isFault
  · rw [← Option.some.inj isFault]
    rfl
  · split at isFault
    · rw [← Option.some.inj isFault]
      rfl
    · cases isFault

theorem Statement.concernsDefinition_of_mem_faults {statement : Statement} {fault : Fault}
    {earlier : List Definition} {pc : Nat}
    (undefining : Definition.ofStatement? earlier pc statement = none)
    (listed : fault ∈ statement.faults) : fault.concernsDefinition = false := by
  cases statement with
  | label _ | equate _ _ => cases undefining
  | finish => cases listed
  | instruction _ _ _ =>
      simp only [Statement.faults, List.mem_cons, List.not_mem_nil, or_false] at listed
      rcases listed with rfl | rfl | rfl <;> rfl
  | origin _ | bytes _ | reserve _ | words _ | strayEquate _ | undefined _ | mention _ =>
      rw [List.mem_singleton.mp listed]
      rfl

namespace Survey.Underway

variable {index : Nat} {earlier : List Definition} {survey : Survey} {statements : List Located}
  {final : Symbols} {tokens : List Token}

/-- A record has the diagnostic of the definition that its statement makes, and if it makes
none, then none about a definition. -/
theorem filter_diagnostics_head {located : Located}
    (underway : Underway final.labels index survey (located :: statements))
    (ends : ((located :: statements).foldl Survey.step survey).symbols = final)
    (tabulates : survey.symbols.Tabulates index earlier) {record : Record}
    (starts : record.start = survey.pc)
    (emits : record.emission = Emission.ofStatement final located) :
    record.diagnostics.filter Diagnostic.concernsDefinition =
      Definition.diagnosticsFrom earlier
        (Definition.ofStatement? earlier survey.pc located.statement).toList := by
  rw [record.filter_diagnostics, Record.ownDiagnostic?, emits, starts]
  cases makes : Definition.ofStatement? earlier survey.pc located.statement with
  | none =>
      rw [Option.toList_none, Definition.diagnosticsFrom, List.filter_eq_nil_iff]
      intro diagnostic isOwn
      obtain ⟨fault, isFault, rfl⟩ := Option.map_eq_some_iff.mp (Option.mem_toList.mp isOwn)
      have listed := (Emission.reports_ofStatement final located fault isFault).1
      have foreign := Statement.concernsDefinition_of_mem_faults makes listed
      simp [Diagnostic.concernsDefinition, foreign]
  | some definition =>
      have atStart : definition.pc = survey.pc := by
        unfold Definition.ofStatement? at makes
        split at makes <;> cases makes <;> rfl
      rw [underway.fault_ofDefinition ends tabulates makes, Option.toList_some,
        Definition.diagnosticsFrom, Definition.diagnosticsFrom, List.append_nil, atStart,
        List.filter_eq_self]
      intro diagnostic isOwn
      obtain ⟨fault, isFault, rfl⟩ := Option.map_eq_some_iff.mp (Option.mem_toList.mp isOwn)
      exact Definition.concernsDefinition_of_fault? isFault

/-- From any point of the walk on, the table ends with the values that the definitions give,
and the definitions have the diagnostics that they deserve. -/
theorem definitions_listFrom (final : Symbols)
    (underway : Underway final.labels index survey statements)
    (ends : (statements.foldl Survey.step survey).symbols = final)
    (tabulates : survey.symbols.Tabulates index earlier)
    (walked : ∀ located ∈ statements, located ∈ Located.list tokens) (overflowed : Bool) :
    (∃ behind, final.Tabulates behind
        (earlier ++ Definition.listFrom tokens earlier
          (Record.list final overflowed survey.pc statements))) ∧
      ((Record.list final overflowed survey.pc statements).flatMap Record.diagnostics).filter
          Diagnostic.concernsDefinition =
        Definition.diagnosticsFrom earlier
          (Definition.listFrom tokens earlier
            (Record.list final overflowed survey.pc statements)) := by
  induction statements generalizing index earlier survey overflowed with
  | nil =>
      rw [Record.list, Definition.listFrom, List.append_nil, ← ends]
      exact ⟨⟨index, tabulates⟩, rfl⟩
  | cons head tail inductionHypothesis =>
      have sameNext : Counter.after final.labels survey.pc head = (survey.step head).pc :=
        underway.after_eq survey.pc
      have stepped := tabulates.step underway.past underway.adjacent.1 survey.pc
      obtain ⟨table, reported⟩ := inductionHypothesis underway.step ends stepped
        (fun located member => walked located (by simp [member]))
        (overflowed || (!overflowed && decide (Record.addressLimit < (survey.step head).pc)))
      have makes := Definition.read?_of_mem (walked head (by simp)) earlier survey.pc
      rw [Record.list, sameNext, Definition.listFrom, makes]
      constructor
      · rw [← List.append_assoc]
        exact table
      · rw [List.flatMap_cons, List.filter_append, reported, Definition.diagnosticsFrom_append]
        rw [underway.filter_diagnostics_head ends tabulates rfl rfl]

end Survey.Underway

/-- The first definition of a name wins, and exactly the others are reported. Behind a run the
table has for each name the value of its first definition with a value, and no other names;
among the diagnostics, those about definitions are, in the order of the walk, one for each
definition of a name that has a value already, and one for each other definition that has no
value. -/
theorem first_definition_wins (assembler : Assembler) (tokens : List Token) :
    (∀ name, (assembler.assemble tokens).2.symbols.labels.get? name =
        Definition.firstValue? (Definition.ofTokens tokens) name) ∧
      (assembler.assemble tokens).2.symbols.labels.size =
        (((Definition.ofTokens tokens).filter fun definition => definition.value.isSome).map
          Definition.name).dedup.length ∧
      (assembler.assemble tokens).1.diagnostics.filter Diagnostic.concernsDefinition =
        Definition.diagnosticsFrom [] (Definition.ofTokens tokens) := by
  obtain ⟨⟨_, tabulates⟩, reported⟩ := (Survey.Underway.start tokens).definitions_listFrom
    (Symbols.ofTokens tokens) rfl Symbols.Tabulates.start (fun _ member => member) false
  rw [Assembler.symbols_assemble]
  refine ⟨tabulates.values, tabulates.size_eq, ?_⟩
  show (assemble tokens).diagnostics.filter Diagnostic.concernsDefinition = _
  rw [diagnostics_assemble]
  exact reported

/-- `A` has no value at first, as `X` is not yet defined; the label then gives it one. -/
example :
    Definition.ofTokens (["A", "EQU", "X", "00", "A:", "X", "EQU", "A", "A", "EQU", "Y"].map
        String.toList) =
      [⟨0, "A:".toList, none⟩, ⟨1, "A:".toList, some 1⟩, ⟨1, "X:".toList, some 1⟩,
        ⟨1, "A:".toList, none⟩] := by
  decide +kernel

end Asm8080
