import Asm8080.Machine.Session
import Asm8080.Proofs.ByteAccounting
import Asm8080.Proofs.HexImage
import Asm8080.Proofs.LabelView
import Asm8080.Proofs.MnemonicMatch

/-!
Contract: the image that a core is given, and the program that was assembled.

Owns:
- the origin of a program: the first origin statement that has a value;
- an image without gaps, and the origin statements that keep it so;
- `loaded_image_iff`: the bytes of the image stand where the program has them just if
  every origin statement before bytes continues the image.

Does not own: what a core does with the image.
-/

namespace Asm8080

/-! ### The origin of a program -/

theorem Symbols.origin_define (symbols : Symbols) (index : Nat) (name : Text) (value : UInt16) :
    (symbols.define index name value).origin = symbols.origin := by
  unfold Symbols.define
  split <;> rfl

theorem Symbols.origin_defineNothing (symbols : Symbols) (index : Nat) (name : Text) :
    (symbols.defineNothing index name).origin = symbols.origin := by
  unfold Symbols.defineNothing
  split <;> rfl

/-- The origin of a program is the value of the first origin statement that has one. -/
theorem Symbols.origin_ofTokens (tokens : List Token) :
    (Symbols.ofTokens tokens).origin =
      (Located.list tokens).findSome? (Counter.target? (Symbols.ofTokens tokens).labels) := by
  have walk {final : LabelTable} {index : Nat} {survey : Survey} {statements : List Located}
      (underway : Survey.Underway final index survey statements) :
      (statements.foldl Survey.step survey).symbols.origin =
        survey.symbols.origin.or (statements.findSome? (Counter.target? final)) := by
    induction statements generalizing index survey with
    | nil => simp
    | cons head tail inductionHypothesis =>
        have here : (survey.step head).symbols.origin =
            survey.symbols.origin.or (Counter.target? final head) := by
          unfold Survey.step Survey.symbolsAfter Counter.target?
          cases head.statement with
          | origin operand =>
              dsimp only
              rw [underway.operandValue?_eq]
              cases Counter.operandValue? survey.symbols.labels head.index operand with
              | none => simp
              | some value => rfl
          | label name => simp [origin_define]
          | equate name operand =>
              dsimp only
              cases Counter.operandValue? survey.symbols.labels head.index operand with
              | none => simp [origin_defineNothing]
              | some value => simp [origin_define]
          | bytes _ | reserve _ | words _ | strayEquate _ | finish => simp
          | instruction _ _ _ | undefined _ | mention _ => simp
        rw [List.foldl_cons, inductionHypothesis underway.step, here, List.findSome?_cons]
        cases Counter.target? final head with
        | none => simp
        | some value => cases survey.symbols.origin <;> simp
  have whole := walk (Survey.Underway.start tokens)
  exact whole

namespace Record

/-! ### Images without gaps -/

/-- Whether bytes are emitted before the next origin statement that has a value. -/
def emitsAhead (labels : LabelTable) (records : List Record) : Bool :=
  (records.takeWhile fun record => (Counter.target? labels record.located).isNone).any
    fun record => !record.emission.bytes.isEmpty

/-- Whether the origin statements continue an image that has come to an address: each one
that bytes follow sets the counter to the address to which the image has come. -/
def continues (labels : LabelTable) : Nat → List Record → Bool
  | _, [] => true
  | image, record :: tail =>
      (match Counter.target? labels record.located with
        | some target => !emitsAhead labels tail || target.toNat == image
        | none => true) &&
        continues labels (image + record.emission.bytes.length) tail

/-- The records emit one byte at each address from `image` on. -/
def IsImage (image : Nat) (records : List Record) : Prop :=
  (records.flatMap cells).map Cell.address =
    List.range' image (records.flatMap cells).length

theorem isImage_cons (image : Nat) (record : Record) (tail : List Record) :
    IsImage image (record :: tail) ↔
      (record.emission.bytes ≠ [] → record.start = image) ∧
        IsImage (image + record.emission.bytes.length) tail := by
  have count : record.cells.length = record.emission.bytes.length := by
    unfold cells Cell.place
    rw [List.length_map, List.length_zipIdx]
  have own : record.cells.map Cell.address =
      List.range' record.start record.emission.bytes.length :=
    Cell.map_address_place record.start record.emission.bytes
  have count' : (record.cells.map Cell.address).length =
      (List.range' image record.emission.bytes.length).length := by
    rw [List.length_map, List.length_range', count]
  unfold IsImage
  rw [List.flatMap_cons, List.map_append, List.length_append, count, ← List.range'_append_1,
    List.append_eq_append_iff_of_size_eq_left count', own, List.range'_inj]
  simp [← List.length_eq_zero_iff, or_iff_not_imp_left]

/-- An image is a list of cells in which each byte stands as far behind the start as there
are bytes before it. -/
theorem isImage_iff_getElem? (image : Nat) (records : List Record) :
    IsImage image records ↔
      ∀ place cell, (records.flatMap cells)[place]? = some cell → cell.address = image + place := by
  unfold IsImage
  generalize records.flatMap cells = placed
  constructor
  · intro isRange place cell found
    obtain ⟨inside, isCell⟩ := List.getElem?_eq_some_iff.mp found
    have atPlace := congrArg (fun addresses => addresses[place]?) isRange
    rw [← isCell]
    simpa [inside] using atPlace
  · intro each
    apply List.ext_getElem (by simp)
    intro place inside _
    have inPlaced : place < placed.length := by simpa using inside
    simpa using each place _ (List.getElem?_eq_getElem inPlaced)

section

variable {labels : LabelTable} {record : Record} {tail : List Record} {image : Nat}

/-- The records continue an image that has come to an address: the counter stands there, as
far as bytes are emitted before it is set, and the origin statements continue the image. -/
def Continue (labels : LabelTable) (image pc : Nat) (records : List Record) : Prop :=
  (emitsAhead labels records = true → pc = image) ∧ continues labels image records = true

/-- The step over an origin statement with a value. -/
theorem continue_of_target? {target : UInt16} (pc : Nat)
    (sets : Counter.target? labels record.located = some target)
    (noBytes : record.emission.bytes = []) :
    Continue labels image pc (record :: tail) ↔ Continue labels image target.toNat tail := by
  have aheadNow : emitsAhead labels (record :: tail) = false := by simp [emitsAhead, sets]
  unfold Continue
  rw [aheadNow, continues]
  simp only [sets, noBytes, List.length_nil, Nat.add_zero, Bool.false_eq_true, false_implies,
    true_and, Bool.and_eq_true, Bool.or_eq_true, Bool.not_eq_true', beq_iff_eq]
  refine and_congr_left fun _ => ?_
  cases emitsAhead labels tail <;> simp

/-- The step over any other statement. -/
theorem continue_of_relative (pc : Nat)
    (relative : Counter.target? labels record.located = none) :
    Continue labels image pc (record :: tail) ↔
      (record.emission.bytes ≠ [] → pc = image) ∧
        Continue labels (image + record.emission.bytes.length)
          (pc + record.emission.bytes.length) tail := by
  have aheadNow : emitsAhead labels (record :: tail) =
      (!record.emission.bytes.isEmpty || emitsAhead labels tail) := by
    simp [emitsAhead, relative]
  unfold Continue
  rw [aheadNow, continues, ← and_assoc]
  simp only [relative, Bool.true_and, Nat.add_right_cancel_iff]
  refine and_congr_left fun _ => ?_
  cases record.emission.bytes <;> cases emitsAhead labels tail <;> simp

end

/-- Records that start at `pc` are an image just if they continue it. -/
theorem isImage_iff_continue {symbols : Symbols} {overflowed : Bool} {pc : Nat}
    {statements : List Located}
    (fits : ∀ record ∈ list symbols overflowed pc statements, record.Fits symbols) (image : Nat) :
    IsImage image (list symbols overflowed pc statements) ↔
      Continue symbols.labels image pc (list symbols overflowed pc statements) := by
  induction statements generalizing overflowed pc image with
  | nil => simp [list, IsImage, Continue, emitsAhead, continues]
  | cons head tail inductionHypothesis =>
      have length := Emission.length_ofStatement symbols head
      have headFits : pc + Counter.size symbols.labels head ≤ Counter.ceiling :=
        fits _ List.mem_cons_self
      have later := fun image => inductionHypothesis
        (fun record member => fits record (List.mem_cons_of_mem _ member)) image
      rw [list, isImage_cons, later]
      cases sets : Counter.target? symbols.labels head with
      | some target =>
          have isOrigin := Counter.isOrigin_of_target? (Option.isSome_of_eq_some sets)
          rw [Counter.size_of_isOrigin isOrigin, List.length_eq_zero_iff] at length
          rw [continue_of_target? pc sets length, Counter.after_of_target? sets]
          simp [length]
      | none =>
          rw [continue_of_relative pc sets, Counter.after_eq_add sets headFits, length]

end Record

/-! ### Programs that are accepted -/

/-- In a program that is accepted the counter never comes near its ceiling. -/
theorem Record.fits_of_not_overflows {symbols : Symbols} {pc : Nat} {statements : List Located}
    (below : pc ≤ addressLimit)
    (none : ∀ record ∈ list symbols false pc statements, record.overflows = false) :
    ∀ record ∈ list symbols false pc statements, record.Fits symbols := by
  have limit : addressLimit < Counter.ceiling := by decide
  induction statements generalizing pc with
  | nil => simp [list]
  | cons head tail inductionHypothesis =>
      have nextBelow : Counter.after symbols.labels pc head ≤ addressLimit := by
        have own := none _ List.mem_cons_self
        simpa using own
      have headFits : pc + Counter.size symbols.labels head ≤ Counter.ceiling := by
        cases sets : Counter.target? symbols.labels head with
        | some target =>
            have isOrigin := Counter.isOrigin_of_target? (Option.isSome_of_eq_some sets)
            rw [Counter.size_of_isOrigin isOrigin]
            omega
        | none =>
            rw [Counter.after_eq_advance sets (by omega), Counter.advance] at nextBelow
            omega
      have goesOn :
          (false || (!false && decide (addressLimit < Counter.after symbols.labels pc head))) =
            false := by
        simpa using nextBelow
      simp only [list, goesOn] at none ⊢
      intro record member
      rcases List.mem_cons.mp member with isHead | inTail
      · rw [isHead]
        exact headFits
      · exact inductionHypothesis nextBelow (fun record member => none record (by simp [member]))
          record inTail

/-- The image that a core is given. Its text stands for the bytes of the program, and a
launch loads it at the program's origin, which is the value of the first origin statement that
has one. The bytes of the image stand at the addresses at which the program has them just if
no byte comes before an origin other than zero, and if every origin statement that bytes
follow sets the counter to where the image has come. -/
theorem loaded_image_iff (source : Text) (succeeds : (assembleSource source).success = true) :
    Hex.decode (assembleSource source).hex = .ok (assembleSource source).bytes ∧
      (∀ (σ : Type) [Core σ] (seat : Seat σ), seat.poisoned = false →
        (assembleSource source).bytes ≠ [] →
          Call.launch (assembleSource source) seat =
            (.ok (), seat.started (assembleSource source))) ∧
      (assembleSource source).origin =
        ((Record.ofTokens (tokenize source)).findSome? fun record =>
          Counter.target? (Symbols.ofTokens (tokenize source)).labels record.located).getD 0 ∧
      ((∀ place cell, (assembleSource source).object.cells[place]? = some cell →
          cell.address = (assembleSource source).origin.toNat + place) ↔
        (Record.emitsAhead (Symbols.ofTokens (tokenize source)).labels
            (Record.ofTokens (tokenize source)) = true → (assembleSource source).origin = 0) ∧
          Record.continues (Symbols.ofTokens (tokenize source)).labels
            (assembleSource source).origin.toNat (Record.ofTokens (tokenize source)) = true) := by
  have accepted := (Assembly.success_iff (tokenize source)).mp succeeds
  have fits := Record.fits_of_not_overflows (Nat.zero_le _)
    fun record member => (accepted record member).1
  refine ⟨Hex.decode_hexBytes _, ?_, ?_, ?_⟩
  · intro σ _ seat unpoisoned nonempty
    have hasText : (assembleSource source).hex.isEmpty = false := by
      obtain ⟨first, rest, isBytes⟩ := List.exists_cons_of_ne_nil nonempty
      show ((assembleSource source).bytes.flatMap Numeral.hexByte).isEmpty = false
      rw [isBytes]
      rfl
    simp [Call.launch, Call.locked, succeeds, hasText, unpoisoned]
  · have walked := Record.map_located_list (Symbols.ofTokens (tokenize source)) false 0
      (Located.list (tokenize source))
    unfold assembleSource
    rw [origin_assemble, Symbols.origin_ofTokens, ← walked, List.findSome?_map]
    rfl
  · have zero :
        (0 = (assembleSource source).origin.toNat) ↔ (assembleSource source).origin = 0 := by
      rw [← UInt16.toNat_inj, eq_comm]
      rfl
    have cells : (assembleSource source).object.cells =
        (Record.ofTokens (tokenize source)).flatMap Record.cells := cells_assemble _
    rw [cells, ← Record.isImage_iff_getElem?, Record.ofTokens, Record.isImage_iff_continue fits,
      Record.Continue, zero]

private def seamlessSource : Text :=
  "ORG 10H\nNOP\nORG 11H\nHLT".toList

private def gappedSource : Text :=
  "ORG 0\nNOP\nORG 4\nHLT".toList

private theorem tokens_sources :
    tokenize seamlessSource = ["ORG", "10H", "00", "ORG", "11H", "76"].map String.toList ∧
      tokenize gappedSource = ["ORG", "0", "00", "ORG", "4", "76"].map String.toList := by
  simp only [tokenize, Tokenized.ofSource, prepare, Mnemonic.substitute_eq_defined]
  decide +kernel

/-- Two origins of which the second one continues the image. -/
theorem loaded_image_iff_seamless :
    (assembleSource seamlessSource).success = true ∧
      ∀ place cell, (assembleSource seamlessSource).object.cells[place]? = some cell →
        cell.address = (assembleSource seamlessSource).origin.toNat + place := by
  have succeeds : (assembleSource seamlessSource).success = true := by
    rw [assembleSource, tokens_sources.1]
    decide +kernel
  refine ⟨succeeds, (loaded_image_iff seamlessSource succeeds).2.2.2.mpr ?_⟩
  rw [assembleSource, tokens_sources.1]
  decide +kernel

/-- Two origins with a gap between them, which the image does not have. -/
theorem loaded_image_gap :
    (assembleSource gappedSource).success = true ∧
      (assembleSource gappedSource).origin = 0 ∧
        (assembleSource gappedSource).object.cells = [⟨0, 0x00⟩, ⟨4, 0x76⟩] ∧
          ¬∀ place cell, (assembleSource gappedSource).object.cells[place]? = some cell →
            cell.address = (assembleSource gappedSource).origin.toNat + place := by
  have facts : (assembleSource gappedSource).success = true ∧
      (assembleSource gappedSource).origin = 0 ∧
        (assembleSource gappedSource).object.cells = [⟨0, 0x00⟩, ⟨4, 0x76⟩] := by
    rw [assembleSource, tokens_sources.2]
    decide +kernel
  refine ⟨facts.1, facts.2.1, facts.2.2, ?_⟩
  rw [facts.2.1, facts.2.2]
  intro seamless
  exact absurd (seamless 1 ⟨4, 0x76⟩ rfl) (by decide)

end Asm8080
