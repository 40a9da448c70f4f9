import Asm8080.Proofs.FirstDefinition

/-!
Contract: the label table of the first pass at each statement of a walk.

Owns:
- the first pass half way: the state that it has reached before a statement is a run over the
  statements in front;
- the statements that give a name a value, said by the counter and by the table as it stands,
  without the index that a label keeps;
- the labels of a table: one for each name that has been given a value, with the index of the
  first statement that did so;
- `label_view_is_prefix_view`: the table at a statement answers every reference as the finished
  table does when it is cut at that statement.

Does not own: what a statement does with the answer.
-/

namespace Asm8080

namespace Survey

/-! ### The first pass half way -/

theorem run_concat (symbols : Symbols) (before : List Located) (located : Located) :
    run symbols (before ++ [located]) = (run symbols before).step located := by
  unfold run
  rw [List.foldl_append]
  rfl

theorem Underway.foldl {final : LabelTable} {index : Nat} {survey : Survey}
    {before later : List Located} (underway : Underway final index survey (before ++ later)) :
    ∃ reached, Underway final reached (before.foldl Survey.step survey) later := by
  induction before generalizing index survey with
  | nil => exact ⟨index, underway⟩
  | cons head tail inductionHypothesis => exact inductionHypothesis underway.step

/-- The state before a statement of a walk, as the invariant of the first pass describes it. -/
theorem underway_run {tokens : List Token} {before later : List Located} {located : Located}
    (walked : Located.list tokens = before ++ located :: later) :
    Underway (Symbols.ofTokens tokens).labels located.index (run Symbols.empty before)
      (located :: later) := by
  have started := Underway.start tokens
  rw [walked] at started
  obtain ⟨reached, underway⟩ := started.foldl
  rw [← walked] at underway
  rw [underway.adjacent.1]
  exact underway

/-! ### Statements that give a name a value -/

/-- A statement gives a name a value where the pass stands: a plain label gives the low sixteen
bits of the counter, and an equate gives what its operand stands for, a label that is known by
now or else a literal. -/
inductive Gives (survey : Survey) : Statement → Text → UInt16 → Prop where
  | label (name : Text) : Gives survey (.label name) name (UInt16.ofNat survey.pc)
  | reference {name : Text} {operand : Token} {value : UInt16}
      (known : survey.symbols.labels.resolve? operand = some value) :
      Gives survey (.equate name (some operand)) name value
  | literal {name : Text} {operand : Token} {value : UInt16}
      (unknown : survey.symbols.labels.resolve? operand = none)
      (reads : Literal.word operand = .ok value) :
      Gives survey (.equate name (some operand)) name value

/-- The value of an operand that the pass reads where it stands. -/
theorem operandValue?_eq_some_iff {labels : LabelTable} {index : Nat}
    (past : labels.DefinedBefore index) {operand : Option Token} {value : UInt16} :
    Counter.operandValue? labels index operand = some value ↔
      ∃ token, operand = some token ∧ (labels.resolve? token = some value ∨
        labels.resolve? token = none ∧ Literal.word token = .ok value) := by
  have here (token : Token) := LabelTable.resolveBefore?_eq_resolve? past
    (LabelTable.ExtendsFrom.refl index labels) token
  cases operand with
  | none => simp [Counter.operandValue?]
  | some token =>
      simp only [Counter.operandValue?, Option.bind_some, Operand.valueBefore?, here]
      cases known : labels.resolve? token with
      | some address => simp [known]
      | none =>
          cases reads : Literal.word token with
          | ok number => simp [known, reads, Except.toOption]
          | error fault => simp [known, reads, Except.toOption]

/-- A statement binds a label just if it gives its name its value where the pass stands. -/
theorem binding?_eq_some_iff {survey : Survey} {located : Located}
    (past : survey.symbols.labels.DefinedBefore located.index) {label : Label} :
    located.binding? survey.symbols.labels survey.pc = some label ↔
      located.index = label.definedAt ∧
        survey.Gives located.statement label.name label.value := by
  unfold Located.binding?
  constructor
  · intro binds
    split at binds
    · rename_i name isLabel
      rw [isLabel, ← Option.some.inj binds]
      exact ⟨rfl, .label name⟩
    · rename_i name operand isEquate
      obtain ⟨value, valued, isLabel⟩ := Option.map_eq_some_iff.mp binds
      obtain ⟨token, rfl, known | ⟨unknown, reads⟩⟩ := (operandValue?_eq_some_iff past).mp valued
      · rw [isEquate, ← isLabel]
        exact ⟨rfl, .reference known⟩
      · rw [isEquate, ← isLabel]
        exact ⟨rfl, .literal unknown reads⟩
    · cases binds
  · obtain ⟨name, value, definedAt⟩ := label
    rintro ⟨rfl, gives⟩
    generalize located.statement = statement at gives ⊢
    cases gives with
    | label => rfl
    | reference known =>
        have valued := (operandValue?_eq_some_iff past).mpr ⟨_, rfl, Or.inl known⟩
        simp only [valued, Option.map_some]
    | literal unknown reads =>
        have valued := (operandValue?_eq_some_iff past).mpr ⟨_, rfl, Or.inr ⟨unknown, reads⟩⟩
        simp only [valued, Option.map_some]

theorem bindingOf?_eq_some_iff {survey : Survey} {located : Located}
    (past : survey.symbols.labels.DefinedBefore located.index) {name : Text} {label : Label} :
    located.bindingOf? survey.symbols.labels survey.pc name = some label ↔
      label.name = name ∧ located.index = label.definedAt ∧
        survey.Gives located.statement label.name label.value := by
  unfold Located.bindingOf?
  rw [Option.filter_eq_some_iff, binding?_eq_some_iff past, beq_iff_eq, and_comm]

theorem bindingOf?_eq_none_iff {survey : Survey} {located : Located}
    (past : survey.symbols.labels.DefinedBefore located.index) {name : Text} :
    located.bindingOf? survey.symbols.labels survey.pc name = none ↔
      ∀ value, ¬survey.Gives located.statement name value := by
  rw [Option.eq_none_iff_forall_ne_some]
  constructor
  · intro unbound value gives
    exact unbound ⟨name, value, located.index⟩
      ((bindingOf?_eq_some_iff past).mpr ⟨rfl, rfl, gives⟩)
  · intro ungiven label binds
    obtain ⟨rfl, _, gives⟩ := (bindingOf?_eq_some_iff past).mp binds
    exact ungiven label.value gives

/-! ### The first statement that gives a name a value -/

/-- None of the statements gives the name a value. -/
def Ungiven (statements : List Located) (name : Text) : Prop :=
  ∀ before located later, statements = before ++ located :: later →
    ∀ value, ¬(run Symbols.empty before).Gives located.statement name value

/-- The first of the statements that gives the name of a label a value is the one at the label's
index, and gives it the label's value. -/
def FirstGiven (statements : List Located) (label : Label) : Prop :=
  ∃ before located later, statements = before ++ located :: later ∧
    located.index = label.definedAt ∧
    (run Symbols.empty before).Gives located.statement label.name label.value ∧
    Ungiven before label.name

/-- A cut of a walk at a statement: at the last one, or at one further in front. -/
private theorem cut_concat {front before later : List Located} {last located : Located}
    (isCut : front ++ [last] = before ++ located :: later) :
    (before = front ∧ located = last) ∨ ∃ rest, front = before ++ located :: rest := by
  rcases List.eq_nil_or_concat later with isEmpty | ⟨rest, final, isConcat⟩
  · rw [isEmpty] at isCut
    obtain ⟨sameFront, sameLast⟩ := List.append_inj' isCut rfl
    exact Or.inl ⟨sameFront.symm, (List.singleton_inj.mp sameLast).symm⟩
  · rw [isConcat, List.concat_eq_append, ← List.cons_append, ← List.append_assoc] at isCut
    exact Or.inr ⟨rest, (List.append_inj' isCut rfl).1⟩

theorem ungiven_concat {front : List Located} {last : Located} {name : Text} :
    Ungiven (front ++ [last]) name ↔
      Ungiven front name ∧ ∀ value, ¬(run Symbols.empty front).Gives last.statement name value := by
  constructor
  · intro ungiven
    refine ⟨?_, ungiven front last [] rfl⟩
    intro before located later isCut
    exact ungiven before located (later ++ [last]) (by simp [isCut])
  · rintro ⟨ungiven, notLast⟩ before located later isCut
    rcases cut_concat isCut with ⟨rfl, rfl⟩ | ⟨rest, further⟩
    · exact notLast
    · exact ungiven before located rest further

theorem firstGiven_concat {front : List Located} {last : Located} {label : Label} :
    FirstGiven (front ++ [last]) label ↔
      FirstGiven front label ∨ last.index = label.definedAt ∧
        (run Symbols.empty front).Gives last.statement label.name label.value ∧
        Ungiven front label.name := by
  constructor
  · rintro ⟨before, located, later, isCut, given⟩
    rcases cut_concat isCut with ⟨rfl, rfl⟩ | ⟨rest, further⟩
    · exact Or.inr given
    · exact Or.inl ⟨before, located, rest, further, given⟩
  · rintro (⟨before, located, later, isCut, given⟩ | given)
    · exact ⟨before, located, later ++ [last], by simp [isCut], given⟩
    · exact ⟨front, last, [], rfl, given⟩

/-- The table at any point of the first pass: it has a label for a name just if one of the
statements so far gives the name a value, and then it is that of the first such statement. -/
theorem find?_run {tokens : List Token} {before later : List Located}
    (walked : Located.list tokens = before ++ later) (name : Text) :
    ((run Symbols.empty before).symbols.labels.find? name = none ↔ Ungiven before name) ∧
      ∀ label, (run Symbols.empty before).symbols.labels.find? name = some label ↔
        label.name = name ∧ FirstGiven before label := by
  induction before using List.reverseRecOn generalizing later with
  | nil =>
      have nothing : (run Symbols.empty []).symbols.labels.find? name = none := rfl
      rw [nothing]
      simp [Ungiven, FirstGiven]
  | append_singleton front last inductionHypothesis =>
      rw [List.append_assoc, List.singleton_append] at walked
      obtain ⟨unknown, known⟩ := inductionHypothesis walked
      have past := (underway_run walked).past
      have behind : (run Symbols.empty (front ++ [last])).symbols.labels.find? name =
          ((run Symbols.empty front).symbols.labels.find? name).or
            (last.bindingOf? (run Symbols.empty front).symbols.labels
              (run Symbols.empty front).pc name) := by
        rw [run_concat]
        exact find?_symbolsAfter _ _ last name
      rw [behind, ungiven_concat]
      constructor
      · rw [Option.or_eq_none_iff, unknown, bindingOf?_eq_none_iff past]
      · intro label
        rw [firstGiven_concat, Option.or_eq_some_iff, known, unknown, bindingOf?_eq_some_iff past]
        constructor
        · rintro (⟨rfl, given⟩ | ⟨ungiven, rfl, atIndex, gives⟩)
          · exact ⟨rfl, Or.inl given⟩
          · exact ⟨rfl, Or.inr ⟨atIndex, gives, ungiven⟩⟩
        · rintro ⟨rfl, given | ⟨atIndex, gives, ungiven⟩⟩
          · exact Or.inl ⟨rfl, given⟩
          · exact Or.inr ⟨ungiven, rfl, atIndex, gives⟩

theorem nodup_run (statements : List Located) :
    (run Symbols.empty statements).symbols.labels.names.Nodup := by
  induction statements using List.reverseRecOn with
  | nil => exact List.nodup_nil
  | append_singleton front last inductionHypothesis =>
      rw [run_concat]
      exact nodup_symbolsAfter inductionHypothesis _ last

/-- The labels of the table at any point of the first pass. -/
theorem mem_labels_run_iff {tokens : List Token} {before later : List Located}
    (walked : Located.list tokens = before ++ later) (label : Label) :
    label ∈ (run Symbols.empty before).symbols.labels.labels ↔ FirstGiven before label := by
  rw [LabelTable.mem_labels_iff (nodup_run before), (find?_run walked label.name).2 label]
  simp

end Survey

/-- The first pass sees at each statement what the finished table has when it is cut there. The
table that the pass has built when it reaches the statement answers every reference as the
finished table does for labels before that statement, and as it does itself for those; and the
finished table has a label for just the names that are given a value, at the index of the
statement that was the first to do so. -/
theorem label_view_is_prefix_view (assembler : Assembler) (tokens : List Token) :
    (∀ before located later, Located.list tokens = before ++ located :: later →
      ∀ reference,
        (Survey.run Symbols.empty before).symbols.labels.resolve? reference =
            (assembler.assemble tokens).2.symbols.labels.resolveBefore? reference
              located.index ∧
          (Survey.run Symbols.empty before).symbols.labels.resolve? reference =
            (Survey.run Symbols.empty before).symbols.labels.resolveBefore? reference
              located.index) ∧
      ∀ label, label ∈ (assembler.assemble tokens).2.symbols.labels.labels ↔
        Survey.FirstGiven (Located.list tokens) label := by
  rw [Assembler.symbols_assemble]
  constructor
  · intro before located later walked reference
    have underway := Survey.underway_run walked
    have itself := LabelTable.ExtendsFrom.refl located.index
      (Survey.run Symbols.empty before).symbols.labels
    exact ⟨(LabelTable.resolveBefore?_eq_resolve? underway.past underway.extendsFrom
        reference).symm,
      (LabelTable.resolveBefore?_eq_resolve? underway.past itself reference).symm⟩
  · exact Survey.mem_labels_run_iff (List.append_nil _).symm

private def retried : List Token :=
  ["N", "EQU", "M", "M", "EQU", "2", "N", "EQU", "M", "N:", "DS", "N"].map String.toList

private def retriedFront : List Located :=
  [⟨0, .equate "N:".toList (some "M".toList)⟩, ⟨3, .equate "M:".toList (some "2".toList)⟩]

private def retriedBack : List Located :=
  [⟨9, .label "N:".toList⟩, ⟨10, .reserve (some "N".toList)⟩]

/-- `N` has no value at first, as `M` is not yet defined; the second attempt gives it one. Before
that the finished table, which has `N`, does not show it. -/
theorem label_view_is_prefix_view_retried :
    Located.list retried =
        retriedFront ++ ⟨6, .equate "N:".toList (some "M".toList)⟩ :: retriedBack ∧
      (Assembler.initial.assemble retried).2.symbols.labels.resolve? "N".toList = some 2 ∧
      (Assembler.initial.assemble retried).2.symbols.labels.resolveBefore? "N".toList 6 = none ∧
      Survey.FirstGiven (Located.list retried) ⟨"N:".toList, 2, 6⟩ := by
  have walked : Located.list retried =
      retriedFront ++ ⟨6, .equate "N:".toList (some "M".toList)⟩ :: retriedBack := by
    decide +kernel
  obtain ⟨view, labels⟩ := label_view_is_prefix_view Assembler.initial retried
  refine ⟨walked, by decide +kernel, ?_, (labels _).mp (by decide +kernel)⟩
  rw [← (view _ _ _ walked "N".toList).1]
  decide +kernel

end Asm8080
