import Asm8080.Proofs.DataLayout
import Asm8080.Proofs.LineSeams

/-!
Contract: the values of a list are read back from every way to write them.

Owns:
- white space, values, and the slots between the commas of a list, each well formed by
  construction;
- the law of cutting and trimming on written slots;
- `written_values_read_back`: the values of written slots are those of the filled ones, and byte
  lists and word lists take each of them once and in order.

Does not own: what a single value stands for.
-/

namespace Asm8080.ValueList

/-! ### Slots -/

/-- White space of any length, also none. -/
structure Space where
  text : Text
  blank : ∀ c ∈ text, isWhiteSpace c = true
deriving DecidableEq, Repr

/-- A value that a list can hold: it is not empty, no white space stands at its ends, its quotes
come in pairs, and each of its commas is quoted, since an odd number of quotes stands before it. -/
structure Value where
  text : Text
  nonempty : text ≠ []
  starts : ∀ c ∈ text.head?, isWhiteSpace c = false
  ends : ∀ c ∈ text.getLast?, isWhiteSpace c = false
  closed : Quoted.IsClosed text
  commas : ∀ index < text.length, text[index]? = some ',' →
    (text.take index).count quoteMark % 2 = 1
deriving DecidableEq, Repr

/-- What can stand between two commas of a list. -/
inductive Slot where
  | blank (space : Space)
  | filled (before : Space) (value : Value) (after : Space)
deriving DecidableEq, Repr

def Slot.text : Slot → Text
  | .blank space => space.text
  | .filled before value after => before.text ++ (value.text ++ after.text)

def Slot.value? : Slot → Option Value
  | .blank _ => none
  | .filled _ value _ => some value

/-- The slots with a comma between them. -/
def written (slots : List Slot) : Text :=
  [','].intercalate (slots.map Slot.text)

/-! ### Cutting at commas -/

def isComma (character : Char) : Bool :=
  character == ','

theorem Space.plain (space : Space) : ∀ c ∈ space.text, c ≠ quoteMark ∧ isComma c = false := by
  intro c member
  have blank := space.blank c member
  constructor
  · intro isQuote
    rw [isQuote] at blank
    exact absurd blank (by decide)
  · apply Bool.eq_false_iff.mpr
    intro comma
    rw [beq_iff_eq.mp comma] at blank
    exact absurd blank (by decide)

theorem Space.isClosed (space : Space) : Quoted.IsClosed space.text :=
  Quoted.isClosed_of_unquoted fun member => (space.plain quoteMark member).1 rfl

/-- A scan for commas passes a value. -/
theorem Value.untilStop_append (value : Value) (rest : Text) :
    Quoted.untilStop isComma false (value.text ++ rest) =
      value.text ++ Quoted.untilStop isComma false rest := by
  have inside : ∀ index c, value.text[index]? = some c → isComma c = true →
      (false.toNat + (value.text.take index).count quoteMark) % 2 = 1 := by
    intro index c isC comma
    obtain ⟨within, _⟩ := List.getElem?_eq_some_iff.mp isC
    rw [beq_iff_eq.mp comma] at isC
    rw [Bool.toNat_false, Nat.zero_add]
    exact value.commas index within isC
  -- The quotes of the value are paired, so that the scan leaves it outside of quotes.
  have even : value.text.count quoteMark % 2 = 0 := value.closed
  rw [Quoted.untilStop_append_of_inside inside rest, even]
  rfl

namespace Slot

theorem isClosed_text (slot : Slot) : Quoted.IsClosed slot.text := by
  cases slot with
  | blank space => exact space.isClosed
  | filled before value after =>
      apply (Quoted.isClosed_append before.isClosed).mpr
      exact (Quoted.isClosed_append value.closed).mpr after.isClosed

theorem untilStop_text (slot : Slot) : Quoted.untilStop isComma false slot.text = slot.text := by
  have blank (space : Space) : Quoted.untilStop isComma false space.text = space.text := by
    have whole := Comment.untilStop_append space.plain []
    rwa [Quoted.untilStop, List.append_nil] at whole
  cases slot with
  | blank space => exact blank space
  | filled before value after =>
      rw [text, Comment.untilStop_append before.plain, value.untilStop_append, blank after]

/-- Trimmed, a slot is its value, and empty if it has none. -/
theorem trim_text (slot : Slot) : Text.trim slot.text = (slot.value?.map Value.text).getD [] := by
  cases slot with
  | blank space => exact Text.trim_blank space.blank
  | filled before value after =>
      exact Text.trim_padded value.nonempty before.blank after.blank value.starts value.ends

end Slot

theorem split_written {slots : List Slot} (nonempty : slots ≠ []) :
    Quoted.split isComma (written slots) = slots.map Slot.text := by
  apply Quoted.split_intercalate rfl (by decide) (by simpa using nonempty)
  · intro piece member
    obtain ⟨slot, _, rfl⟩ := List.mem_map.mp member
    exact slot.isClosed_text
  · intro piece member
    obtain ⟨slot, _, rfl⟩ := List.mem_map.mp member
    exact slot.untilStop_text

/-- Slots without a value leave nothing behind. -/
theorem filter_trim_text (slots : List Slot) :
    ((slots.map Slot.text).map Text.trim).filter (fun value => !value.isEmpty) =
      (slots.filterMap Slot.value?).map Value.text := by
  induction slots with
  | nil => rfl
  | cons slot slots inductionHypothesis =>
      rw [List.map_cons, List.map_cons, slot.trim_text]
      cases slot with
      | blank space => exact inductionHypothesis
      | filled before value after =>
          show (value.text :: (slots.map Slot.text).map Text.trim).filter _ =
            value.text :: (slots.filterMap Slot.value?).map Value.text
          rw [List.filter_cons_of_pos (by simp [value.nonempty]), inductionHypothesis]

theorem values_written (slots : List Slot) :
    values (written slots) = (slots.filterMap Slot.value?).map Value.text := by
  cases slots with
  | nil => rfl -- An empty text is cut into one empty piece, which is left out.
  | cons slot slots =>
      rw [← filter_trim_text, ← split_written (List.cons_ne_nil slot slots)]
      rfl

private def quotedCommas : Value where
  text := "'a, b'-','".toList
  nonempty := by decide
  starts := by
    rintro c ⟨⟩
    decide
  ends := by
    rintro c ⟨⟩
    decide
  closed := by decide
  commas := by decide

/-- Of three slots, one is empty and one is white space. -/
example :
    values (written
      [.blank ⟨[], by simp⟩,
        .filled ⟨"\u3000".toList, List.all_eq_true.mp rfl⟩ quotedCommas
          ⟨"\t ".toList, List.all_eq_true.mp rfl⟩,
        .blank ⟨" ".toList, List.all_eq_true.mp rfl⟩]) =
      ["'a, b'-','".toList] := by decide

/-! ### Data lists -/

theorem mapM_eq_some_iff {α : Type} {f : Text → Option α} {values : List Text}
    {results : List α} : values.mapM f = some results ↔ values.map f = results.map some := by
  induction values generalizing results with
  | nil => cases results <;> simp
  | cons head tail inductionHypothesis =>
      constructor
      · intro all
        obtain ⟨first, rest, isFirst, isRest, rfl⟩ := mapM_cons_eq_some all
        rw [List.map_cons, isFirst, inductionHypothesis.mp isRest, List.map_cons]
      · intro each
        cases results with
        | nil => cases each
        | cons first rest =>
            obtain ⟨isFirst, isRest⟩ := List.cons.inj each
            rw [List.mapM_cons, isFirst, inductionHypothesis.mpr isRest]
            rfl

/-- Splitting inverts joining. However the values of a list are written, with white space around
them and with empty slots before, between and behind, the list is cut into just these values. So
byte lists and word lists take each value once and in order: for the space that they need, and
for the bytes and words that they stand for. -/
theorem written_values_read_back (slots : List Slot) (labels : LabelTable) :
    let list := (slots.filterMap Slot.value?).map Value.text
    values (written slots) = list ∧
    bytesSize (written slots) = totalSize byteSize list ∧
    wordsSize (written slots) = 2 * list.length ∧
    (∀ bytes, (bytes? labels (written slots)).map Resolved.value = some bytes ↔
      bytes ≠ [] ∧ ∃ chunks : List (List UInt8),
        list.map (byteChunk? labels) = chunks.map some ∧ chunks.flatten = bytes) ∧
    ∀ words, (words? labels (written slots)).map Resolved.value = some words ↔
      words ≠ [] ∧ list.map (wordOfValue? labels) = words.map some := by
  have readBack := values_written slots
  dsimp only
  refine ⟨readBack, ?_, ?_, ?_, ?_⟩
  · rw [bytesSize, readBack]
    rfl
  · rw [wordsSize, readBack]
  · intro bytes
    rw [map_value_bytes?, readBack, Option.filter_eq_some_iff, Option.map_eq_some_iff]
    simp only [mapM_eq_some_iff]
    rw [and_comm]
    simp
  · intro words
    rw [map_value_words?, readBack, Option.filter_eq_some_iff, mapM_eq_some_iff, and_comm]
    simp

end Asm8080.ValueList
