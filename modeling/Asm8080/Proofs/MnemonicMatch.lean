import Mathlib.Data.List.Nodup
import Asm8080.Literal
import Asm8080.Proofs.PlainText

/-!
Contract: at most one mnemonic stands at the start of a text.

Owns:
- the spelling rules that every mnemonic of the table keeps;
- the check of the table: no mnemonic occurs twice, none is what a longer one
  leaves when it is cut before a space or behind a comma, and none reads as a number;
- unambiguity, which follows: a mnemonic that stands at the start of a text is the
  one that matching finds there;
- what every unambiguous table has: matching and substitution do not depend on its order.

Does not own: the boundary in front of a mnemonic.
-/

namespace Asm8080

/-! ### Sets of texts as bits -/

namespace TextSet

/-- A small number for a text. -/
def number (text : Text) : Nat :=
  text.foldl (fun value character => (value * 9 + character.toNat) % 2328) 0

/-- The numbers of the texts, each as one bit. -/
def bits (texts : List Text) : Nat :=
  texts.foldr (fun text set => set ||| 1 <<< number text) 0

/-- Whether the numbers of the texts are new to the set and different from each
other. -/
def spread : Nat → List Text → Bool
  | _, [] => true
  | set, head :: tail =>
      !set.testBit (number head) && spread (set ||| 1 <<< number head) tail

theorem testBit_bits {texts : List Text} {text : Text} (member : text ∈ texts) :
    (bits texts).testBit (number text) = true := by
  induction texts with
  | nil => cases member
  | cons head tail inductionHypothesis =>
      have unfolded : bits (head :: tail) = bits tail ||| 1 <<< number head := rfl
      rw [unfolded, Nat.testBit_or]
      rcases List.mem_cons.mp member with isHead | inTail
      · simp [isHead, Nat.one_shiftLeft]
      · simp [inductionHypothesis inTail]

/-- A spread list repeats nothing, and nothing of it is in the set. -/
theorem nodup_of_spread {set : Nat} {texts : List Text} (isSpread : spread set texts = true) :
    texts.Nodup ∧ ∀ text ∈ texts, set.testBit (number text) = false := by
  induction texts generalizing set with
  | nil => simp
  | cons head tail inductionHypothesis =>
      simp only [spread, Bool.and_eq_true, Bool.not_eq_true'] at isSpread
      obtain ⟨headNew, tailSpread⟩ := isSpread
      obtain ⟨distinct, tailNew⟩ := inductionHypothesis tailSpread
      have headBit : (set ||| 1 <<< number head).testBit (number head) = true := by
        simp [Nat.testBit_or, Nat.one_shiftLeft]
      have different : head ∉ tail := by
        intro repeated
        have unset := tailNew head repeated
        rw [headBit] at unset
        cases unset
      refine ⟨List.nodup_cons.mpr ⟨different, distinct⟩, ?_⟩
      intro text member
      rcases List.mem_cons.mp member with isHead | inTail
      · rw [isHead]
        exact headNew
      · have unset := tailNew text inTail
        rw [Nat.testBit_or, Bool.or_eq_false_iff] at unset
        exact unset.1

end TextSet

/-! ### Bytes and slots -/

theorem Opcode.mem_defined_of_slot {index : Nat} {opcode : Opcode}
    (found : Opcode.lookup? index = some opcode) :
    (UInt8.ofNat index, opcode) ∈ Opcode.defined := by
  have slot : Opcode.slots[index]? = some (some opcode) := Option.join_eq_some_iff.mp found
  unfold Opcode.defined
  apply List.mem_filterMap.mpr
  refine ⟨(some opcode, index), ?_, rfl⟩
  exact List.mem_zipIdx_iff_getElem?.mpr slot

theorem Opcode.mem_defined_of_lookup? {byte : UInt8} {opcode : Opcode}
    (found : Opcode.lookup? byte.toNat = some opcode) : (byte, opcode) ∈ Opcode.defined := by
  have member := mem_defined_of_slot found
  rwa [UInt8.ofNat_toNat] at member

namespace Mnemonic

/-! ### The spelling of mnemonics -/

def isSpelling (character : Char) : Bool :=
  character.isUpper || character.isDigit || character == ' ' || character == ','

/-- The spelling rules of mnemonics: single spaces between words, an upper-case letter
first, no space last, and no directive keyword. -/
structure WellSpelled (mnemonic : Text) : Prop where
  spelling : ∀ c ∈ mnemonic, isSpelling c = true
  spaced : mnemonic.IsChain Layout.Spaced
  starts : mnemonic.head?.any Char.isUpper = true
  ends : mnemonic.getLast? ≠ some ' '
  undirected : Directive.ofToken? mnemonic = none

instance (mnemonic : Text) : Decidable (WellSpelled mnemonic) :=
  decidable_of_iff
    (mnemonic.all isSpelling = true ∧ mnemonic.IsChain Layout.Spaced ∧
      mnemonic.head?.any Char.isUpper = true ∧ mnemonic.getLast? ≠ some ' ' ∧
      Directive.ofToken? mnemonic = none)
    ⟨fun ⟨spelling, spaced, starts, ends, undirected⟩ =>
        ⟨List.all_eq_true.mp spelling, spaced, starts, ends, undirected⟩,
      fun rules =>
        ⟨List.all_eq_true.mpr rules.spelling, rules.spaced, rules.starts, rules.ends,
          rules.undirected⟩⟩

theorem WellSpelled.ne_nil {mnemonic : Text} (rules : WellSpelled mnemonic) : mnemonic ≠ [] := by
  intro isEmpty
  have upper := rules.starts
  rw [isEmpty] at upper
  cases upper

theorem WellSpelled.head?_ne_space {mnemonic : Text} (rules : WellSpelled mnemonic) :
    mnemonic.head? ≠ some ' ' := by
  intro isSpace
  have upper := rules.starts
  rw [isSpace] at upper
  cases upper

theorem toNat_of_isSpelling {character : Char} (spelling : isSpelling character = true) :
    character.toNat < 0x80 := by
  simp only [isSpelling, Bool.or_eq_true, beq_iff_eq] at spelling
  rcases spelling with ((upper | digit) | isSpace) | isComma
  · exact toNat_of_isAlphanum ((isAlphanum_iff character).mpr (Or.inl (Or.inl upper)))
  · exact toNat_of_isAlphanum ((isAlphanum_iff character).mpr (Or.inr digit))
  · rw [isSpace]
    decide
  · rw [isComma]
    decide

theorem isPlain_of_isSpelling {character : Char} (spelling : isSpelling character = true) :
    Layout.isPlain character = true :=
  forall_ascii (fun c => isSpelling c = true → Layout.isPlain c = true) (by decide)
    (toNat_of_isSpelling spelling) spelling

/-- Mnemonics are spelled in upper case. -/
theorem WellSpelled.map_toUpper {mnemonic : Text} (rules : WellSpelled mnemonic) :
    mnemonic.map Char.toUpper = mnemonic := by
  have kept : ∀ c ∈ mnemonic, c.toUpper = id c := by
    intro c member
    have spelled := rules.spelling c member
    exact forall_ascii (fun c => isSpelling c = true → c.toUpper = c) (by decide)
      (toNat_of_isSpelling spelled) spelled
  rw [List.map_congr_left kept, List.map_id]

/-- A space may follow a mnemonic that does not end in a comma. -/
theorem WellSpelled.settled_append {mnemonic gap : Text} (rules : WellSpelled mnemonic)
    (isGap : gap = [] ∨ gap = [' '] ∧ mnemonic.getLast? ≠ some ',') :
    Layout.Settled (mnemonic ++ gap) := by
  have own : Layout.Settled mnemonic := ⟨rules.spaced, rules.head?_ne_space⟩
  rcases isGap with noGap | ⟨isSpace, noComma⟩
  · rw [noGap, List.append_nil]
    exact own
  · rw [isSpace]
    constructor
    · apply List.isChain_append.mpr
      refine ⟨own.spaced, by simp, ?_⟩
      intro last isLast first _ _
      constructor
      · intro isSpace
        rw [isSpace] at isLast
        exact rules.ends isLast
      · intro isComma
        rw [isComma] at isLast
        exact noComma isLast
    · rw [List.head?_append_of_ne_nil _ rules.ne_nil]
      exact own.starts

/-- Of the white space only the space itself occurs in mnemonics. -/
theorem eq_space_of_isWhiteSpace {character : Char} (spelling : isSpelling character = true)
    (blank : isWhiteSpace character = true) : character = ' ' :=
  forall_ascii (fun c => isSpelling c = true → isWhiteSpace c = true → c = ' ') (by decide)
    (toNat_of_isSpelling spelling) spelling blank

/-- Cutting in progress; `done` holds the characters so far, latest first. -/
def cutsFrom (done : Text) : Text → List Text
  | [] => []
  | head :: tail =>
      if head == ' ' || done.head? == some ',' then
        done.reverse :: cutsFrom (head :: done) tail
      else cutsFrom (head :: done) tail

/-- What is left of a mnemonic that is cut before a space or behind a comma. -/
def cuts (mnemonic : Text) : List Text :=
  cutsFrom [] mnemonic

theorem mem_cutsFrom (done part rest : Text) {next : Char}
    (cuttable : next = ' ' ∨ (part.reverse ++ done).head? = some ',') :
    done.reverse ++ part ∈ cutsFrom done (part ++ next :: rest) := by
  induction part generalizing done with
  | nil =>
      have here : (next == ' ' || done.head? == some ',') = true := by simpa using cuttable
      simp [cutsFrom, here]
  | cons head tail inductionHypothesis =>
      have later := inductionHypothesis (head :: done) (by simpa using cuttable)
      rw [List.reverse_cons, List.append_assoc] at later
      simp only [List.cons_append, cutsFrom]
      split
      · exact List.mem_cons_of_mem _ later
      · exact later

def all : List Text :=
  Opcode.defined.map fun entry => entry.2.mnemonic

/-- The check of the whole table, made once. -/
private theorem table_check :
    (∀ mnemonic ∈ all, WellSpelled mnemonic) ∧
      TextSet.spread (TextSet.bits (all.flatMap cuts)) all = true ∧
        ∀ mnemonic ∈ all, Literal.value? mnemonic = none := by
  decide +kernel

theorem wellSpelled_of_mem {mnemonic : Text} (member : mnemonic ∈ all) : WellSpelled mnemonic :=
  table_check.1 mnemonic member

theorem nodup_all : all.Nodup :=
  (TextSet.nodup_of_spread table_check.2.1).1

/-- No mnemonic reads as a number. -/
theorem value?_of_mem {mnemonic : Text} (member : mnemonic ∈ all) :
    Literal.value? mnemonic = none :=
  table_check.2.2 mnemonic member

/-- No mnemonic is a cut of another one. -/
theorem not_mem_cuts {longer shorter : Text} (isLonger : longer ∈ all) (isShorter : shorter ∈ all) :
    shorter ∉ cuts longer := by
  intro isCut
  have inside := TextSet.testBit_bits (List.mem_flatMap.mpr ⟨longer, isLonger, isCut⟩)
  have outside := (TextSet.nodup_of_spread table_check.2.1).2 shorter isShorter
  rw [inside] at outside
  cases outside

/-! ### Matching is unambiguous -/

theorem standsAt_iff {mnemonic text : Text} :
    standsAt mnemonic text = true ↔
      ∃ rest, text = mnemonic ++ rest ∧ endsBefore mnemonic rest = true := by
  unfold standsAt
  constructor
  · intro stands
    split at stands
    · rename_i rest isRest
      exact ⟨rest, (List.isPrefixOf?_eq_some_iff_append_eq.mp isRest).symm, stands⟩
    · cases stands
  · rintro ⟨rest, isText, ends⟩
    rw [List.isPrefixOf?_eq_some_iff_append_eq.mpr isText.symm]
    exact ends

theorem endsBefore_iff {mnemonic rest : Text} :
    endsBefore mnemonic rest = true ↔
      mnemonic.getLast? = some ',' ∨ ∀ next ∈ rest.head?, isWhiteSpace next = true := by
  unfold endsBefore
  cases rest.head? <;> simp

private theorem eq_of_standsAt_of_le {shorter longer text : Text} (isShorter : shorter ∈ all)
    (isLonger : longer ∈ all) (shorterStands : standsAt shorter text = true)
    (longerStands : standsAt longer text = true) (le : shorter.length ≤ longer.length) :
    shorter = longer := by
  obtain ⟨shortRest, isText, shortEnds⟩ := standsAt_iff.mp shorterStands
  obtain ⟨longRest, isText', _⟩ := standsAt_iff.mp longerStands
  have isPrefix : shorter <+: longer :=
    List.prefix_of_prefix_length_le ⟨shortRest, isText.symm⟩ ⟨longRest, isText'.symm⟩ le
  obtain ⟨gap, isLong⟩ := isPrefix
  cases gap with
  | nil => simpa using isLong
  | cons next rest =>
      exfalso
      have behind : shortRest = next :: (rest ++ longRest) := by
        rw [isText, ← isLong, List.append_assoc] at isText'
        simpa using isText'
      have spelled : isSpelling next = true :=
        (wellSpelled_of_mem isLonger).spelling next (by simp [← isLong])
      have cuttable : next = ' ' ∨ (shorter.reverse ++ []).head? = some ',' := by
        rw [behind] at shortEnds
        simp only [endsBefore, Bool.or_eq_true, beq_iff_eq] at shortEnds
        rcases shortEnds with comma | blank
        · right
          simpa using comma
        · left
          exact eq_space_of_isWhiteSpace spelled (by simpa using blank)
      have isCut := mem_cutsFrom [] shorter rest cuttable
      rw [isLong] at isCut
      exact not_mem_cuts isLonger isShorter isCut

/-- At most one mnemonic stands at the start of a text. -/
theorem eq_of_standsAt {first second text : Text} (isFirst : first ∈ all)
    (isSecond : second ∈ all) (firstStands : standsAt first text = true)
    (secondStands : standsAt second text = true) : first = second := by
  rcases Nat.le_total first.length second.length with le | ge
  · exact eq_of_standsAt_of_le isFirst isSecond firstStands secondStands le
  · exact (eq_of_standsAt_of_le isSecond isFirst secondStands firstStands ge).symm

theorem mem_all_of_mem_defined {entry : UInt8 × Opcode} (member : entry ∈ Opcode.defined) :
    entry.2.mnemonic ∈ all :=
  List.mem_map.mpr ⟨entry, member, rfl⟩

theorem mem_candidates_iff {entry : UInt8 × Opcode} :
    entry ∈ candidates ↔ entry ∈ Opcode.defined := by
  unfold candidates Opcode.longestFirst
  rw [List.mem_filter, List.mem_mergeSort]
  constructor
  · exact fun both => both.1
  · intro member
    have undirected := (wellSpelled_of_mem (mem_all_of_mem_defined member)).undirected
    exact ⟨member, by simp [undirected]⟩

/-! ### Unambiguous tables -/

/-- At most one entry of the table stands at the start of a text, whatever the text is. -/
def Unambiguous (table : List (UInt8 × Opcode)) : Prop :=
  ∀ text, ∀ first ∈ table, ∀ second ∈ table,
    standsAt first.2.mnemonic text = true → standsAt second.2.mnemonic text = true →
      first = second

section

variable {table other : List (UInt8 × Opcode)}

theorem Unambiguous.congr (unambiguous : Unambiguous table)
    (sameEntries : ∀ entry, entry ∈ other ↔ entry ∈ table) : Unambiguous other := by
  intro text first isFirst second isSecond
  exact unambiguous text first ((sameEntries first).mp isFirst) second
    ((sameEntries second).mp isSecond)

/-- Matching finds the entry that stands at the start of the text, wherever the table has it. -/
theorem Unambiguous.matchIn?_eq_some_iff (unambiguous : Unambiguous table) {text : Text}
    {entry : UInt8 × Opcode} :
    matchIn? table text = some entry ↔
      entry ∈ table ∧ standsAt entry.2.mnemonic text = true := by
  unfold matchIn?
  constructor
  · intro found
    have stands := List.find?_some found
    exact ⟨List.mem_of_find?_eq_some found, stands⟩
  · rintro ⟨member, stands⟩
    cases found : table.find? fun candidate => standsAt candidate.2.mnemonic text with
    | none => exact absurd stands (List.find?_eq_none.mp found entry member)
    | some first =>
        have firstStands := List.find?_some found
        rw [unambiguous text first (List.mem_of_find?_eq_some found) entry member firstStands stands]

theorem Unambiguous.matchIn?_congr (unambiguous : Unambiguous table)
    (sameEntries : ∀ entry, entry ∈ other ↔ entry ∈ table) (text : Text) :
    matchIn? other text = matchIn? table text := by
  have otherUnambiguous := unambiguous.congr sameEntries
  apply Option.ext
  intro entry
  rw [otherUnambiguous.matchIn?_eq_some_iff, unambiguous.matchIn?_eq_some_iff, sameEntries entry]

/-- Substitution knows the table by what matching finds in it. -/
theorem substituteFrom_congr (same : ∀ text, matchIn? other text = matchIn? table text)
    (atBoundary : Bool) (skip : Nat) (text : Text) :
    substituteFrom other atBoundary skip text = substituteFrom table atBoundary skip text := by
  induction text generalizing atBoundary skip with
  | nil => cases skip <;> rfl
  | cons head tail inductionHypothesis =>
      cases skip with
      | succ skip => exact inductionHypothesis atBoundary skip
      | zero => simp only [substituteFrom, same, inductionHypothesis]

end

/-! ### The table of mnemonics -/

theorem unambiguous_defined : Unambiguous Opcode.defined := by
  intro text first isFirst second isSecond firstStands secondStands
  have sameMnemonic := eq_of_standsAt (mem_all_of_mem_defined isFirst)
    (mem_all_of_mem_defined isSecond) firstStands secondStands
  exact List.inj_on_of_nodup_map nodup_all isFirst isSecond sameMnemonic

theorem unambiguous_candidates : Unambiguous candidates :=
  unambiguous_defined.congr fun _ => mem_candidates_iff

theorem match?_eq_some_iff {entry : UInt8 × Opcode} {text : Text} :
    match? text = some entry ↔
      entry ∈ Opcode.defined ∧ standsAt entry.2.mnemonic text = true := by
  rw [← mem_candidates_iff]
  exact unambiguous_candidates.matchIn?_eq_some_iff

/-- A mnemonic that stands at the start of a text is the one that matching finds. -/
theorem match?_eq_some {entry : UInt8 × Opcode} {text : Text} (member : entry ∈ Opcode.defined)
    (stands : standsAt entry.2.mnemonic text = true) : match? text = some entry :=
  match?_eq_some_iff.mpr ⟨member, stands⟩

theorem match?_eq_none {text : Text} (none : ∀ mnemonic ∈ all, standsAt mnemonic text = false) :
    match? text = Option.none := by
  unfold match? matchIn?
  apply List.find?_eq_none.mpr
  intro entry member
  have refused := none _ (mem_all_of_mem_defined (mem_candidates_iff.mp member))
  simp [refused]

/-- The form of substitution that computes: the sorted table does not. -/
theorem substitute_eq_defined (text : Text) :
    substitute text = substituteFrom Opcode.defined true 0 text := by
  have same := unambiguous_defined.matchIn?_congr fun _ => mem_candidates_iff
  exact substituteFrom_congr same true 0 text

/-- The text starts with the mnemonic as a whole word: the mnemonic ends in a comma, or white
space or the end of the text follows it. -/
def Opens (mnemonic text : Text) : Prop :=
  ∃ rest, text = mnemonic ++ rest ∧
    (mnemonic.getLast? = some ',' ∨ ∀ next ∈ rest.head?, isWhiteSpace next = true)

theorem standsAt_iff_opens {mnemonic text : Text} :
    standsAt mnemonic text = true ↔ Opens mnemonic text := by
  rw [standsAt_iff]
  exact exists_congr fun rest => and_congr_right fun _ => endsBefore_iff

/-- No text starts with two mnemonics. So matching finds the one with which a text starts, and
finds one if there is one. In whatever order the candidates are searched, matching and
substitution give the same. -/
theorem matching_needs_no_order {table : List (UInt8 × Opcode)}
    (reordered : table.Perm candidates) (text : Text) :
    (∀ first ∈ Opcode.defined, ∀ second ∈ Opcode.defined,
      Opens first.2.mnemonic text → Opens second.2.mnemonic text → first = second) ∧
    (∀ entry, match? text = some entry ↔
      entry ∈ Opcode.defined ∧ Opens entry.2.mnemonic text) ∧
    matchIn? table text = match? text ∧
    substituteFrom table true 0 text = substitute text := by
  have same := unambiguous_candidates.matchIn?_congr fun _ => reordered.mem_iff
  refine ⟨?_, ?_, same text, substituteFrom_congr same true 0 text⟩
  · intro first isFirst second isSecond firstOpens secondOpens
    exact unambiguous_defined text first isFirst second isSecond
      (standsAt_iff_opens.mpr firstOpens) (standsAt_iff_opens.mpr secondOpens)
  · intro entry
    rw [match?_eq_some_iff, standsAt_iff_opens]

/-- Shortest first, the search comes to a mnemonic that only begins like the one in the text; an
em space ends the word. -/
theorem matching_needs_no_order_shortestFirst :
    candidates.reverse.Perm candidates ∧
      matchIn? candidates.reverse "STAX B\u2003MVI A,B".toList =
        some (0x02, ⟨"STAX B".toList, .none⟩) ∧
      substituteFrom candidates.reverse true 0 "STAX B\u2003MVI A,B".toList =
        "02 \u20033E B".toList := by
  have reordered := List.reverse_perm candidates
  obtain ⟨_, found, sameMatch, sameText⟩ :=
    matching_needs_no_order reordered "STAX B\u2003MVI A,B".toList
  refine ⟨reordered, ?_, ?_⟩
  · rw [sameMatch, found]
    refine ⟨Opcode.mem_defined_of_lookup? rfl, "\u2003MVI A,B".toList, rfl, Or.inr ?_⟩
    rintro next ⟨⟩
    decide
  · rw [sameText, substitute_eq_defined]
    decide +kernel

end Mnemonic

end Asm8080
