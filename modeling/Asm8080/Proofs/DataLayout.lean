import Asm8080.Pass.Emission

/-!
Contract: where the values of a data list stand among the bytes of the list.

Owns:
- the place of each value, computed from the sizes of the values before it;
- the law that a list whose values all have bytes puts the bytes of each value at
  its place, and has the size that was set aside for it;
- the bytes of a byte list and the words of a word list in terms of its values;
- what byte lists and word lists emit, in these terms.

Does not own: what a single value stands for.
-/

namespace Asm8080

namespace ValueList

/-- If all values of a list have a result, so have the first one and the others. -/
theorem mapM_cons_eq_some {α β : Type} {f : α → Option β} {head : α} {tail : List α}
    {results : List β} (all : (head :: tail).mapM f = some results) :
    ∃ first rest, f head = some first ∧ tail.mapM f = some rest ∧ results = first :: rest := by
  simp only [List.mapM_cons, Option.bind_eq_bind, Option.pure_def, Option.bind_eq_some_iff,
    Option.some.injEq] at all
  obtain ⟨first, isFirst, rest, isRest, isResults⟩ := all
  exact ⟨first, rest, isFirst, isRest, isResults.symm⟩

/-! ### Places in a list -/

/-- The values, each with the place of its first byte; the first one stands at
`offset`. -/
def placedFrom (size : Text → Nat) : Nat → List Text → List (Nat × Text)
  | _, [] => []
  | offset, value :: tail => (offset, value) :: placedFrom size (offset + size value) tail

def totalSize (size : Text → Nat) (values : List Text) : Nat :=
  values.foldr (fun value total => size value + total) 0

section Chunks

variable {chunk? : Text → Option (List UInt8)} {size : Text → Nat}

theorem length_flatten
    (sized : ∀ value bytes, chunk? value = some bytes → bytes.length = size value)
    {values : List Text} {chunks : List (List UInt8)} (all : values.mapM chunk? = some chunks) :
    chunks.flatten.length = totalSize size values := by
  induction values generalizing chunks with
  | nil =>
      cases all
      rfl
  | cons head tail inductionHypothesis =>
      obtain ⟨bytes, rest, isHead, isTail, isChunks⟩ := mapM_cons_eq_some all
      rw [isChunks, List.flatten_cons, List.length_append, sized head bytes isHead,
        inductionHypothesis isTail]
      rfl

/-- The bytes of a value stand at the place of the value. -/
theorem take_drop_of_placed (before : List UInt8)
    (sized : ∀ value bytes, chunk? value = some bytes → bytes.length = size value)
    {values : List Text} {chunks : List (List UInt8)} (all : values.mapM chunk? = some chunks)
    {offset : Nat} {value : Text}
    (placed : (offset, value) ∈ placedFrom size before.length values) :
    chunk? value = some (((before ++ chunks.flatten).drop offset).take (size value)) := by
  induction values generalizing chunks before with
  | nil => cases placed
  | cons head tail inductionHypothesis =>
      obtain ⟨bytes, rest, isHead, isTail, isChunks⟩ := mapM_cons_eq_some all
      have length := sized head bytes isHead
      rw [isChunks, List.flatten_cons]
      simp only [placedFrom, List.mem_cons, Prod.mk.injEq] at placed
      rcases placed with ⟨atStart, isValue⟩ | later
      · rw [isValue, atStart, List.drop_left, List.take_left' length]
        exact isHead
      · rw [← List.append_assoc]
        apply inductionHypothesis (before ++ bytes) isTail
        rw [List.length_append, length]
        exact later

/-- A value that has a place takes part in the list. -/
theorem mem_of_placed {base offset : Nat} {value : Text} {values : List Text}
    (placed : (offset, value) ∈ placedFrom size base values) :
    value ∈ values ∧ offset + size value ≤ base + totalSize size values := by
  induction values generalizing base with
  | nil => cases placed
  | cons head tail inductionHypothesis =>
      have total : totalSize size (head :: tail) = size head + totalSize size tail := rfl
      simp only [placedFrom, List.mem_cons, Prod.mk.injEq] at placed
      rcases placed with ⟨atStart, isValue⟩ | later
      · rw [isValue, atStart, total]
        exact ⟨by simp, by omega⟩
      · obtain ⟨member, bounded⟩ := inductionHypothesis later
        rw [total]
        exact ⟨by simp [member], by omega⟩

end Chunks

/-! ### The bytes of single values -/

def byteChunk? (labels : LabelTable) (value : Text) : Option (List UInt8) :=
  (bytesOfValue? labels value).map Resolved.value

def wordOfValue? (labels : LabelTable) (value : Text) : Option UInt16 :=
  (Operand.word labels value).toOption.map Resolved.value

def wordChunk? (labels : LabelTable) (value : Text) : Option (List UInt8) :=
  (Operand.word labels value).toOption.map fun resolved => Emission.wordBytes resolved.value

theorem length_byteChunk? (labels : LabelTable) (value : Text) (bytes : List UInt8)
    (isChunk : byteChunk? labels value = some bytes) : bytes.length = byteSize value := by
  unfold byteChunk? bytesOfValue? at isChunk
  unfold byteSize
  cases body : Quoted.body? value with
  | some text =>
      simp only [body] at isChunk
      split at isChunk
      · rw [← Option.some.inj isChunk]
        exact List.length_map _
      · cases isChunk
  | none =>
      simp only [body, Option.map_map, Option.map_eq_some_iff] at isChunk
      obtain ⟨resolved, _, isBytes⟩ := isChunk
      rw [← isBytes]
      rfl

theorem length_wordChunk? (labels : LabelTable) (value : Text) (bytes : List UInt8)
    (isChunk : wordChunk? labels value = some bytes) : bytes.length = 2 := by
  obtain ⟨resolved, _, isBytes⟩ := Option.map_eq_some_iff.mp isChunk
  rw [← isBytes]
  rfl

theorem wordsSize_eq_totalSize (list : Text) :
    wordsSize list = totalSize (fun _ => 2) (values list) := by
  unfold wordsSize
  induction values list with
  | nil => rfl
  | cons head tail inductionHypothesis =>
      have total : totalSize (fun _ => 2) (head :: tail) =
          2 + totalSize (fun _ => 2) tail := rfl
      rw [total, ← inductionHypothesis, List.length_cons]
      omega

/-! ### The bytes of whole lists -/

theorem mapM_map {α β : Type} {f : Text → Option α} (view : α → β) (values : List Text) :
    values.mapM (fun value => (f value).map view) = (values.mapM f).map (List.map view) := by
  induction values with
  | nil => rfl
  | cons head tail inductionHypothesis =>
      rw [List.mapM_cons, List.mapM_cons, inductionHypothesis]
      cases f head with
      | none => rfl
      | some first => cases tail.mapM f <;> rfl

private theorem flatMap_filter_isEmpty (items : List (Resolved (List UInt8))) :
    (items.filter fun item => !item.value.isEmpty).flatMap Resolved.value =
      items.flatMap Resolved.value := by
  induction items with
  | nil => rfl
  | cons head tail inductionHypothesis =>
      by_cases empty : head.value = []
      · simp [empty, inductionHypothesis]
      · simp [empty, inductionHypothesis]

private theorem flatMap_filter_eq_nil_iff (items : List (Resolved (List UInt8))) :
    (items.filter fun item => !item.value.isEmpty).flatMap Resolved.value = [] ↔
      (items.filter fun item => !item.value.isEmpty) = [] := by
  constructor
  · intro noBytes
    apply List.eq_nil_iff_forall_not_mem.mpr
    intro item member
    have filled := (List.mem_filter.mp member).2
    rw [List.flatMap_eq_nil_iff.mp noBytes item member] at filled
    cases filled
  · intro nothing
    rw [nothing]
    rfl

/-- A byte list has the bytes of its values, if all of them have theirs and any are left. -/
theorem map_value_bytes? (labels : LabelTable) (list : Text) :
    (bytes? labels list).map Resolved.value =
      (((values list).mapM (byteChunk? labels)).map List.flatten).filter fun bytes =>
        !bytes.isEmpty := by
  have chunked : (values list).mapM (byteChunk? labels) =
      ((values list).mapM (bytesOfValue? labels)).map (List.map Resolved.value) :=
    mapM_map Resolved.value (values list)
  rw [chunked]
  unfold bytes?
  cases (values list).mapM (bytesOfValue? labels) with
  | none => rfl
  | some items =>
      have flat : (items.map Resolved.value).flatten = items.flatMap Resolved.value := rfl
      simp only [Option.map_some, flat, ← flatMap_filter_isEmpty items]
      by_cases nothing : (items.filter fun item => !item.value.isEmpty) = []
      · rw [nothing]
        rfl
      · have hasBytes := (not_congr (flatMap_filter_eq_nil_iff items)).mpr nothing
        rw [if_neg (by simpa using nothing), Option.filter_some, if_pos (by simpa using hasBytes)]
        rfl

/-- A word list has the words of its values, if all of them have theirs and there are any. -/
theorem map_value_words? (labels : LabelTable) (list : Text) :
    (words? labels list).map Resolved.value =
      ((values list).mapM (wordOfValue? labels)).filter fun words => !words.isEmpty := by
  have valued : (values list).mapM (wordOfValue? labels) =
      ((values list).mapM fun value => (Operand.word labels value).toOption).map
        (List.map Resolved.value) :=
    mapM_map Resolved.value (values list)
  rw [valued]
  unfold words?
  cases (values list).mapM fun value => (Operand.word labels value).toOption with
  | none => rfl
  | some items =>
      by_cases nothing : items = []
      · rw [nothing]
        rfl
      · simp [Option.filter_some, nothing]

/-- A byte list with bytes consists of the bytes of its values. -/
theorem chunks_of_bytes? {labels : LabelTable} {list : Text} {data : Resolved (List UInt8)}
    (isData : bytes? labels list = some data) :
    ∃ chunks, (values list).mapM (byteChunk? labels) = some chunks ∧
      data.value = chunks.flatten := by
  have ofValues := map_value_bytes? labels list
  rw [isData, Option.map_some] at ofValues
  obtain ⟨chunks, all, isFlat⟩ :=
    Option.map_eq_some_iff.mp (Option.filter_eq_some_iff.mp ofValues.symm).1
  exact ⟨chunks, all, isFlat.symm⟩

theorem chunks_of_words? {labels : LabelTable} {list : Text} {data : Resolved (List UInt16)}
    (isData : words? labels list = some data) :
    ∃ chunks, (values list).mapM (wordChunk? labels) = some chunks ∧
      data.value.flatMap Emission.wordBytes = chunks.flatten := by
  have ofValues := map_value_words? labels list
  rw [isData, Option.map_some] at ofValues
  have all := (Option.filter_eq_some_iff.mp ofValues.symm).1
  refine ⟨data.value.map Emission.wordBytes, ?_, rfl⟩
  have chunked : (values list).mapM (wordChunk? labels) =
      ((values list).mapM (wordOfValue? labels)).map (List.map Emission.wordBytes) := by
    rw [← mapM_map]
    simp only [wordOfValue?, Option.map_map]
    rfl
  rw [chunked, all]
  rfl

end ValueList

namespace Emission

/-- A byte list either emits the bytes of its values or reports a fault and leaves
its space zero. -/
theorem ofBytes_cases (labels : LabelTable) (operand : Option Token) :
    (∃ list chunks, operand = some list ∧
        (ValueList.values list).mapM (ValueList.byteChunk? labels) = some chunks ∧
        (ofBytes labels operand).bytes = chunks.flatten ∧
        (ofBytes labels operand).fault = none) ∨
      ((ofBytes labels operand).bytes =
          List.replicate (Counter.listSize ValueList.bytesSize operand) 0 ∧
        (ofBytes labels operand).fault = some .invalidData) := by
  unfold ofBytes
  cases found : operand.bind (ValueList.bytes? labels) with
  | none => exact Or.inr ⟨rfl, rfl⟩
  | some data =>
      obtain ⟨list, isList, isData⟩ := Option.bind_eq_some_iff.mp found
      obtain ⟨chunks, all, isFlat⟩ := ValueList.chunks_of_bytes? isData
      exact Or.inl ⟨list, chunks, isList, all, isFlat, rfl⟩

/-- A word list either emits the bytes of its values or reports a fault and leaves
its space zero. -/
theorem ofWords_cases (labels : LabelTable) (operand : Option Token) :
    (∃ list chunks, operand = some list ∧
        (ValueList.values list).mapM (ValueList.wordChunk? labels) = some chunks ∧
        (ofWords labels operand).bytes = chunks.flatten ∧
        (ofWords labels operand).fault = none) ∨
      ((ofWords labels operand).bytes =
          List.replicate (Counter.listSize ValueList.wordsSize operand) 0 ∧
        (ofWords labels operand).fault = some .invalidData) := by
  unfold ofWords
  cases found : operand.bind (ValueList.words? labels) with
  | none => exact Or.inr ⟨rfl, rfl⟩
  | some data =>
      obtain ⟨list, isList, isData⟩ := Option.bind_eq_some_iff.mp found
      obtain ⟨chunks, all, isFlat⟩ := ValueList.chunks_of_words? isData
      exact Or.inl ⟨list, chunks, isList, all, isFlat, rfl⟩

end Emission

end Asm8080
