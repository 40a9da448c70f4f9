import Asm8080.Pass.Survey
import Asm8080.Proofs.Walk

/-!
Contract: what a statement sees of the label table.

Owns:
- the label that a statement binds, and the table behind the statement;
- tables that hold labels of earlier tokens only, and extensions by labels of
  later tokens;
- the view at a token: the finished table, cut at that token, answers every
  reference as the unfinished table did when the first pass stood there;
- the repetitions that the first pass notes, each at its own token;
- `Survey.Underway`, the invariant of the first pass that carries these facts
  from statement to statement.

Does not own: the second pass, which only reads the finished table.
-/

namespace Asm8080

/-! ### The label that a statement binds -/

/-- The label that a statement at `pc` binds: a definition with a value. -/
def Located.binding? (labels : LabelTable) (pc : Nat) (located : Located) : Option Label :=
  match located.statement with
  | .label name => some ⟨name, UInt16.ofNat pc, located.index⟩
  | .equate name operand =>
      (Counter.operandValue? labels located.index operand).map fun value =>
        ⟨name, value, located.index⟩
  | _ => none

def Located.bindingOf? (labels : LabelTable) (pc : Nat) (name : Text) (located : Located) :
    Option Label :=
  (located.binding? labels pc).filter fun label => label.name == name

theorem Located.definedName?_of_binding? {labels : LabelTable} {pc : Nat} {located : Located}
    {label : Label} (binds : located.binding? labels pc = some label) :
    located.statement.definedName? = some label.name ∧ label.definedAt = located.index := by
  unfold binding? at binds
  split at binds
  · rename_i name isLabel
    rw [isLabel, ← Option.some.inj binds]
    exact ⟨rfl, rfl⟩
  · rename_i name operand isEquate
    obtain ⟨value, _, isLabel⟩ := Option.map_eq_some_iff.mp binds
    rw [isEquate, ← isLabel]
    exact ⟨rfl, rfl⟩
  · cases binds

theorem Located.bindingOf?_some {labels : LabelTable} {pc : Nat} {located : Located}
    {name : Text} {label : Label} (binds : located.bindingOf? labels pc name = some label) :
    located.binding? labels pc = some label ∧ label.name = name := by
  obtain ⟨bound, named⟩ := Option.filter_eq_some_iff.mp binds
  exact ⟨bound, by simpa using named⟩

/-! ### The table behind a statement -/

/-- A definition adds its label unless the name has one already. -/
theorem Symbols.find?_define (symbols : Symbols) (index : Nat) (name : Text) (value : UInt16)
    (other : Text) :
    (symbols.define index name value).labels.find? other =
      (symbols.labels.find? other).or
        (if name = other then some ⟨name, value, index⟩ else none) := by
  unfold Symbols.define
  cases attempt : symbols.labels.define name value index with
  | ok defined =>
      have absent : symbols.labels.find? name = none := by
        unfold LabelTable.define at attempt
        split at attempt
        · cases attempt
        · rename_i notContained
          simpa [LabelTable.contains] using notContained
      show defined.find? other = _
      rw [LabelTable.find?_define attempt other]
      by_cases same : name = other
      · subst other
        simp [absent]
      · have different : ¬other = name := fun equal => same equal.symm
        simp [same, different]
  | error fault =>
      have present : (symbols.labels.find? name).isSome := by
        unfold LabelTable.define at attempt
        split at attempt
        · rename_i contained
          exact contained
        · cases attempt
      show symbols.labels.find? other = _
      by_cases same : name = other
      · subst other
        obtain ⟨label, found⟩ := Option.isSome_iff_exists.mp present
        simp [found]
      · simp [same]

theorem Symbols.labels_defineNothing (symbols : Symbols) (index : Nat) (name : Text) :
    (symbols.defineNothing index name).labels = symbols.labels := by
  unfold Symbols.defineNothing
  split <;> rfl

/-- The table behind a statement answers as before, and for a name without a label
by the label that the statement binds. -/
theorem Survey.find?_symbolsAfter (symbols : Symbols) (pc : Nat) (located : Located)
    (name : Text) :
    (symbolsAfter symbols pc located).labels.find? name =
      (symbols.labels.find? name).or (located.bindingOf? symbols.labels pc name) := by
  unfold symbolsAfter Located.bindingOf? Located.binding?
  cases located.statement with
  | label own =>
      simp only [Symbols.find?_define, Option.filter_some, beq_iff_eq]
  | equate own operand =>
      dsimp only
      cases Counter.operandValue? symbols.labels located.index operand with
      | some value => simp [Symbols.find?_define, Option.filter_some]
      | none => simp [Symbols.labels_defineNothing]
  | origin operand =>
      dsimp only
      cases Counter.operandValue? symbols.labels located.index operand with
      | some value => simp [Symbols.originAt]
      | none => simp
  | bytes _ | reserve _ | words _ | strayEquate _ | finish => simp
  | instruction _ _ _ | undefined _ | mention _ => simp

/-! ### Tables cut at a token -/

namespace LabelTable

/-- Every label of the table is defined before the token. -/
def DefinedBefore (table : LabelTable) (index : Nat) : Prop :=
  ∀ name label, table.find? name = some label → label.definedAt < index

/-- The later table keeps every label of the earlier one, and its other labels are
defined at the token or behind it. -/
def ExtendsFrom (index : Nat) (earlier later : LabelTable) : Prop :=
  ∀ name, later.find? name = earlier.find? name ∨
    (earlier.find? name = none ∧
      ∃ label, later.find? name = some label ∧ index ≤ label.definedAt)

theorem ExtendsFrom.refl (index : Nat) (table : LabelTable) : ExtendsFrom index table table :=
  fun _ => Or.inl rfl

theorem ExtendsFrom.trans {index : Nat} {first second third : LabelTable}
    (left : ExtendsFrom index first second) (right : ExtendsFrom index second third) :
    ExtendsFrom index first third := by
  intro name
  rcases right name with kept | ⟨absent, label, found, later⟩
  · rcases left name with keptBefore | ⟨absentBefore, label, found, later⟩
    · exact Or.inl (kept.trans keptBefore)
    · exact Or.inr ⟨absentBefore, label, kept.trans found, later⟩
  · rcases left name with keptBefore | ⟨absentBefore, _, _, _⟩
    · exact Or.inr ⟨keptBefore.symm.trans absent, label, found, later⟩
    · exact Or.inr ⟨absentBefore, label, found, later⟩

/-- The view at a token. A reference read at the token gets from the later table,
cut there, what the earlier table knows of it. -/
theorem resolveBefore?_eq_resolve? {index : Nat} {earlier later : LabelTable}
    (past : earlier.DefinedBefore index) (extends_ : ExtendsFrom index earlier later)
    (reference : Text) :
    later.resolveBefore? reference index = earlier.resolve? reference := by
  unfold resolveBefore? resolve?
  rcases extends_ (Label.fullName reference) with kept | ⟨absent, label, found, atOrLater⟩
  · rw [kept]
    cases found : earlier.find? (Label.fullName reference) with
    | none => rfl
    | some label =>
        have before := past _ label found
        simp [Option.filter_some, before]
  · have notBefore : ¬label.definedAt < index := by omega
    simp [found, absent, Option.filter_some, notBefore]

end LabelTable

theorem Counter.operandValue?_eq {index : Nat} {earlier later : LabelTable}
    (past : earlier.DefinedBefore index) (extends_ : LabelTable.ExtendsFrom index earlier later)
    (operand : Option Token) :
    operandValue? later index operand = operandValue? earlier index operand := by
  have sameView (reference : Text) :
      later.resolveBefore? reference index = earlier.resolveBefore? reference index := by
    rw [LabelTable.resolveBefore?_eq_resolve? past extends_,
      LabelTable.resolveBefore?_eq_resolve? past (LabelTable.ExtendsFrom.refl index earlier)]
  unfold operandValue? Operand.valueBefore?
  cases operand with
  | none => rfl
  | some token => simp only [Option.bind_some, sameView]

namespace Survey

/-! ### What the first pass preserves -/

/-- A step adds at most the label that its statement binds. -/
theorem extendsFrom_step (survey : Survey) (located : Located) {index : Nat}
    (atOrLater : index ≤ located.index) :
    LabelTable.ExtendsFrom index survey.symbols.labels (survey.step located).symbols.labels := by
  intro name
  have behind := find?_symbolsAfter survey.symbols survey.pc located name
  cases known : survey.symbols.labels.find? name with
  | some label =>
      left
      simpa [step, known] using behind
  | none =>
      cases binds : located.bindingOf? survey.symbols.labels survey.pc name with
      | none =>
          left
          simpa [step, known, binds] using behind
      | some label =>
          right
          have bound := (Located.bindingOf?_some binds).1
          have place := (Located.definedName?_of_binding? bound).2
          exact ⟨rfl, label, by simpa [step, known, binds] using behind, by omega⟩

/-- The rest of the walk adds labels of its own tokens only. -/
theorem extendsFrom_foldl (survey : Survey) (statements : List Located) {index : Nat}
    (atOrLater : ∀ located ∈ statements, index ≤ located.index) :
    LabelTable.ExtendsFrom index survey.symbols.labels
      (statements.foldl step survey).symbols.labels := by
  induction statements generalizing survey with
  | nil => exact LabelTable.ExtendsFrom.refl index _
  | cons head tail inductionHypothesis =>
      have first := extendsFrom_step survey head (atOrLater head (by simp))
      have rest := inductionHypothesis (survey.step head)
        (fun located member => atOrLater located (by simp [member]))
      exact first.trans rest

theorem definedBefore_step {survey : Survey} {located : Located}
    (past : survey.symbols.labels.DefinedBefore located.index) :
    (survey.step located).symbols.labels.DefinedBefore
      (located.index + located.statement.width) := by
  intro name label found
  have positive := (Statement.width_bounds located.statement).1
  have behind := find?_symbolsAfter survey.symbols survey.pc located name
  rw [show (symbolsAfter survey.symbols survey.pc located).labels.find? name = some label
    from found] at behind
  cases known : survey.symbols.labels.find? name with
  | some old =>
      have isOld : label = old := by simpa [known] using behind
      have before := past name old known
      rw [isOld]
      omega
  | none =>
      have binds : located.bindingOf? survey.symbols.labels survey.pc name = some label := by
        simpa [known] using behind.symm
      have bound := (Located.bindingOf?_some binds).1
      have place := (Located.definedName?_of_binding? bound).2
      omega

theorem isRepetition_define (symbols : Symbols) (name : Text) (value : UInt16) {own index : Nat}
    (different : own ≠ index) :
    (symbols.define own name value).isRepetition index = symbols.isRepetition index := by
  unfold Symbols.define
  split
  · rfl
  · simp [Symbols.isRepetition, different]

/-- A step notes repetitions of its own token only. -/
theorem isRepetition_step (survey : Survey) {located : Located} {index : Nat}
    (different : located.index ≠ index) :
    (survey.step located).symbols.isRepetition index = survey.symbols.isRepetition index := by
  unfold step symbolsAfter
  dsimp only
  split
  · exact isRepetition_define survey.symbols _ _ different
  · split
    · exact isRepetition_define survey.symbols _ _ different
    · unfold Symbols.defineNothing
      split
      · simp [Symbols.isRepetition, different]
      · rfl
  · split <;> rfl
  · rfl

theorem isRepetition_foldl (survey : Survey) {statements : List Located} {index : Nat}
    (different : ∀ located ∈ statements, located.index ≠ index) :
    (statements.foldl step survey).symbols.isRepetition index =
      survey.symbols.isRepetition index := by
  induction statements generalizing survey with
  | nil => rfl
  | cons head tail inductionHypothesis =>
      have here := isRepetition_step survey (different head (by simp))
      have later := inductionHypothesis (survey.step head) fun located member =>
        different located (by simp [member])
      exact later.trans here

/-- The first pass stands before `statements`, the first of them at token `index`,
and will end with the table `final`. -/
structure Underway (final : LabelTable) (index : Nat) (survey : Survey)
    (statements : List Located) : Prop where
  adjacent : Located.AdjacentFrom index statements
  past : survey.symbols.labels.DefinedBefore index
  ends : (statements.foldl step survey).symbols.labels = final

namespace Underway

variable {final : LabelTable} {index : Nat} {survey : Survey} {located : Located}
  {statements : List Located}

theorem start (tokens : List Token) :
    Underway (run Symbols.empty (Located.list tokens)).symbols.labels 0 ⟨0, Symbols.empty⟩
      (Located.list tokens) where
  adjacent := Located.adjacentFrom_list tokens
  past := by
    intro name label found
    cases found
  ends := rfl

theorem step (underway : Underway final index survey (located :: statements)) :
    Underway final (index + located.statement.width) (survey.step located) statements where
  adjacent := underway.adjacent.2
  past := by
    have past := underway.past
    rw [← underway.adjacent.1] at past ⊢
    exact definedBefore_step past
  ends := underway.ends

theorem extendsFrom (underway : Underway final index survey statements) :
    LabelTable.ExtendsFrom index survey.symbols.labels final := by
  rw [← underway.ends]
  exact extendsFrom_foldl survey statements underway.adjacent.index_le

/-- The next statement's operand has the value that the finished table gives. -/
theorem operandValue?_eq (underway : Underway final index survey (located :: statements))
    (operand : Option Token) :
    Counter.operandValue? final located.index operand =
      Counter.operandValue? survey.symbols.labels located.index operand := by
  rw [underway.adjacent.1]
  exact Counter.operandValue?_eq underway.past underway.extendsFrom operand

theorem after_eq (underway : Underway final index survey (located :: statements)) (pc : Nat) :
    Counter.after final pc located = Counter.after survey.symbols.labels pc located := by
  unfold Counter.after
  simp only [underway.operandValue?_eq]

/-- Whether the next statement repeats a definition is settled when the first pass has walked
it. -/
theorem isRepetition_eq {final : Symbols}
    (underway : Underway final.labels index survey (located :: statements))
    (ends : ((located :: statements).foldl Survey.step survey).symbols = final) :
    final.isRepetition located.index =
      (survey.step located).symbols.isRepetition located.index := by
  have isIndex := underway.adjacent.1
  have later : ∀ other ∈ statements, other.index ≠ located.index := by
    intro other member
    have atLeast := underway.adjacent.2.index_le other member
    have positive := (Statement.width_bounds located.statement).1
    omega
  rw [← ends]
  exact isRepetition_foldl (survey.step located) later

theorem bindingOf?_eq (underway : Underway final index survey (located :: statements)) (pc : Nat)
    (name : Text) :
    located.bindingOf? final pc name = located.bindingOf? survey.symbols.labels pc name := by
  unfold Located.bindingOf? Located.binding?
  simp only [underway.operandValue?_eq]

end Underway

end Survey

end Asm8080
