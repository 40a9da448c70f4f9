import Asm8080.Proofs.LineSeams

/-!
Contract: where mnemonics are replaced.

Owns:
- a text cut into stretches, each a character that is copied or a mnemonic that is replaced;
- a scan, which goes over the stretches from left to right by a rule for the places where a
  mnemonic may start; a text has one scan by each rule;
- word starts, the rule of the language: the start of the text, white space and colons;
- the rule of substitution, which also looks directly behind a replaced mnemonic;
- `substitute_scans_words_iff`: substitution is a scan by its own rule, and goes by word starts
  just if it never finds two mnemonics without anything between them.

Does not own: which mnemonics there are.
-/

namespace Asm8080.Mnemonic

/-! ### Stretches -/

/-- A stretch of text as substitution treats it. -/
inductive Stretch where
  | copied (character : Char)
  | replaced (byte : UInt8) (opcode : Opcode)
deriving DecidableEq, Repr

/-- The text that a stretch is read from. -/
def Stretch.source : Stretch → Text
  | .copied character => [character]
  | .replaced _ opcode => opcode.mnemonic

/-- The text that is written for a stretch: the byte of a mnemonic and a space. -/
def Stretch.result : Stretch → Text
  | .copied character => [character]
  | .replaced byte _ => byteText byte ++ [' ']

def sources (stretches : List Stretch) : Text :=
  stretches.flatMap Stretch.source

def results (stretches : List Stretch) : Text :=
  stretches.flatMap Stretch.result

theorem sources_cons (stretch : Stretch) (later : List Stretch) :
    sources (stretch :: later) = stretch.source ++ sources later :=
  List.flatMap_cons

theorem results_cons (stretch : Stretch) (later : List Stretch) :
    results (stretch :: later) = stretch.result ++ results later :=
  List.flatMap_cons

/-! ### Scans -/

/-- A word may start behind the stretches: the text starts there, or white space or a colon
stands before. -/
def WordStart (before : List Stretch) : Prop :=
  ∀ character ∈ (sources before).getLast?, isBoundary character = true

/-- Substitution looks for a mnemonic behind the stretches: at the start of a word, and directly
behind a mnemonic. -/
def ScanStart (before : List Stretch) : Prop :=
  WordStart before ∨ ∃ byte opcode, before.getLast? = some (.replaced byte opcode)

/-- How a stretch is to be treated, where `starts` says whether a mnemonic may start there. A
mnemonic is replaced if it ends in a comma, or before white space or the end of the text, and a
character is copied if there is no such mnemonic. -/
def Stretch.IsLawful (starts : Prop) (later : List Stretch) : Stretch → Prop
  | .copied character => starts →
      ∀ entry ∈ Opcode.defined, standsAt entry.2.mnemonic (character :: sources later) = false
  | .replaced byte opcode => starts ∧ (byte, opcode) ∈ Opcode.defined ∧
      (opcode.mnemonic.getLast? = some ',' ∨
        ∀ next ∈ (sources later).head?, isWhiteSpace next = true)

/-- A scan of the text from left to right, by a rule for the places where a mnemonic may
start. -/
structure Scans (starts : List Stretch → Prop) (text : Text) (stretches : List Stretch) :
    Prop where
  whole : sources stretches = text
  lawful : ∀ before stretch later, stretches = before ++ stretch :: later →
    stretch.IsLawful (starts before) later

/-- A scan in progress, with the stretches that are done. -/
def ScansBehind (starts : List Stretch → Prop) (done stretches : List Stretch) : Prop :=
  ∀ before stretch later, stretches = before ++ stretch :: later →
    stretch.IsLawful (starts (done ++ before)) later

theorem scansBehind_cons_iff {starts : List Stretch → Prop} {done later : List Stretch}
    {stretch : Stretch} :
    ScansBehind starts done (stretch :: later) ↔
      stretch.IsLawful (starts done) later ∧ ScansBehind starts (done ++ [stretch]) later := by
  constructor
  · intro scans
    refine ⟨?_, fun before next behind isLater => ?_⟩
    · have here := scans [] stretch later rfl
      rwa [List.append_nil] at here
    · have there := scans (stretch :: before) next behind (by rw [isLater]; rfl)
      rwa [List.append_assoc]
  · rintro ⟨here, scans⟩ before next behind isSplit
    cases before with
    | nil =>
        obtain ⟨rfl, rfl⟩ := List.cons.inj isSplit
        rwa [List.append_nil]
    | cons first others =>
        obtain ⟨rfl, isLater⟩ := List.cons.inj isSplit
        have there := scans others next behind isLater
        rwa [List.append_assoc] at there

theorem Stretch.IsLawful.match? {starts : Prop} {later : List Stretch} {byte : UInt8}
    {opcode : Opcode} (lawful : (Stretch.replaced byte opcode).IsLawful starts later) :
    Mnemonic.match? (opcode.mnemonic ++ sources later) = some (byte, opcode) := by
  obtain ⟨_, isDefined, ends⟩ := lawful
  exact match?_eq_some isDefined
    (standsAt_iff.mpr ⟨sources later, rfl, endsBefore_iff.mpr ends⟩)

/-- Where a mnemonic may start, a mnemonic that stands there is not copied. -/
theorem Stretch.IsLawful.match?_eq_none {starts : Prop} {later : List Stretch} {character : Char}
    (lawful : (Stretch.copied character).IsLawful starts later) (mayStart : starts) :
    Mnemonic.match? (character :: sources later) = none := by
  apply Mnemonic.match?_eq_none
  intro mnemonic member
  obtain ⟨entry, isEntry, isMnemonic⟩ := List.mem_map.mp member
  rw [← isMnemonic]
  exact lawful mayStart entry isEntry

theorem Stretch.IsLawful.wellSpelled {starts : Prop} {later : List Stretch} {byte : UInt8}
    {opcode : Opcode} (lawful : (Stretch.replaced byte opcode).IsLawful starts later) :
    WellSpelled opcode.mnemonic :=
  wellSpelled_of_mem (mem_all_of_mem_defined lawful.2.1)

/-! ### One scan for each text -/

theorem isBoundary_of_isUpper {character : Char} (upper : character.isUpper = true) :
    isBoundary character = false := by
  apply Bool.eq_false_iff.mpr
  intro bounds
  rcases Bool.or_eq_true_iff.mp bounds with blank | isColon
  · rw [isUpper_of_isWhiteSpace blank] at upper
    cases upper
  · rw [beq_iff_eq.mp isColon] at upper
    exact absurd upper (by decide)

theorem wordStart_nil : WordStart [] :=
  fun _ isLast => nomatch isLast

theorem wordStart_copied_iff {done : List Stretch} {character : Char} :
    WordStart (done ++ [.copied character]) ↔ isBoundary character = true := by
  simp [WordStart, sources, Stretch.source]

theorem scanStart_copied_iff {done : List Stretch} {character : Char} :
    ScanStart (done ++ [.copied character]) ↔ isBoundary character = true := by
  rw [ScanStart, wordStart_copied_iff]
  simp

theorem scanStart_replaced {done : List Stretch} {byte : UInt8} {opcode : Opcode} :
    ScanStart (done ++ [.replaced byte opcode]) :=
  Or.inr ⟨byte, opcode, List.getLast?_concat⟩

theorem of_match? {text : Text} {entry : UInt8 × Opcode} (found : match? text = some entry) :
    entry ∈ Opcode.defined ∧
      ∃ rest, text = entry.2.mnemonic ++ rest ∧ endsBefore entry.2.mnemonic rest = true := by
  have stands : standsAt entry.2.mnemonic text = true := by
    have holds := List.find?_some found
    exact holds
  exact ⟨mem_candidates_iff.mp (List.mem_of_find?_eq_some found), standsAt_iff.mp stands⟩

/-- A step of substitution that finds a mnemonic: it writes the byte and goes on behind the
mnemonic, where another one may start. -/
theorem of_found {atBoundary : Bool} {text : Text} {byte : UInt8} {opcode : Opcode}
    (found : (if atBoundary then matchIn? candidates text else none) = some (byte, opcode)) :
    atBoundary = true ∧ (byte, opcode) ∈ Opcode.defined ∧
      ∃ rest, text = opcode.mnemonic ++ rest ∧ endsBefore opcode.mnemonic rest = true ∧
        rest.length < text.length ∧
        substituteFrom candidates atBoundary 0 text =
          byteText byte ++ ' ' :: substituteFrom candidates true 0 rest := by
  have isBoundary : atBoundary = true := by
    cases atBoundary with
    | true => rfl
    | false => cases found
  obtain ⟨isDefined, rest, isText, ends⟩ := of_match? (match?_of_found found)
  have nonempty := List.length_pos_iff.mpr
    (wellSpelled_of_mem (mem_all_of_mem_defined isDefined)).ne_nil
  have written := substitute_mnemonic isDefined ends
  unfold substitute at written
  refine ⟨isBoundary, isDefined, rest, isText, ends, ?_, ?_⟩
  · rw [isText, List.length_append]
    omega
  · rw [isBoundary, isText, written]

/-- Substitution scans by its own rule: its flag tells whether the rule lets a mnemonic
start. -/
theorem exists_scansBehind (text : Text) (done : List Stretch) (atBoundary : Bool)
    (isFlag : atBoundary = true ↔ ScanStart done) :
    ∃ stretches, sources stretches = text ∧ ScansBehind ScanStart done stretches ∧
      results stretches = substituteFrom candidates atBoundary 0 text := by
  -- A mnemonic takes several characters at once, so the induction is on the length.
  induction isSize : text.length using Nat.strong_induction_on
    generalizing text done atBoundary with
  | _ size inductionHypothesis =>
    cases text with
    | nil =>
        refine ⟨[], rfl, ?_, rfl⟩
        intro before stretch later isSplit
        simp at isSplit
    | cons head tail =>
        cases found : if atBoundary then matchIn? candidates (head :: tail) else none with
        | some entry =>
            obtain ⟨byte, opcode⟩ := entry
            obtain ⟨isBoundary, isDefined, rest, isText, ends, shorter, written⟩ := of_found found
            obtain ⟨stretches, isRest, scans, isResult⟩ := inductionHypothesis rest.length
              (isSize ▸ shorter) rest (done ++ [.replaced byte opcode]) true
              (iff_of_true rfl scanStart_replaced) rfl
            refine ⟨.replaced byte opcode :: stretches, ?_, ?_, ?_⟩
            · rw [sources_cons, isRest, isText]
              rfl
            · refine scansBehind_cons_iff.mpr ⟨⟨isFlag.mp isBoundary, isDefined, ?_⟩, scans⟩
              rw [isRest]
              exact endsBefore_iff.mp ends
            · rw [results_cons, isResult, written]
              simp [Stretch.result]
        | none =>
            obtain ⟨stretches, isTail, scans, isResult⟩ := inductionHypothesis tail.length
              (by rw [← isSize]; exact Nat.lt_succ_self _) tail (done ++ [.copied head])
              (isBoundary head) scanStart_copied_iff.symm rfl
            refine ⟨.copied head :: stretches, ?_, ?_, ?_⟩
            · rw [sources_cons, isTail]
              rfl
            · refine scansBehind_cons_iff.mpr ⟨?_, scans⟩
              intro mayStart entry isDefined
              rw [isFlag.mpr mayStart, if_pos rfl] at found
              rw [isTail]
              exact Bool.eq_false_iff.mpr
                (List.find?_eq_none.mp found entry (mem_candidates_iff.mpr isDefined))
            · rw [results_cons, isResult, substituteFrom, found]
              rfl

theorem Stretch.IsLawful.source_ne_nil {starts : Prop} {later : List Stretch} {stretch : Stretch}
    (lawful : stretch.IsLawful starts later) : stretch.source ≠ [] := by
  cases stretch with
  | copied character => exact List.cons_ne_nil _ _
  | replaced byte opcode => exact lawful.wellSpelled.ne_nil

theorem ScansBehind.eq_nil_of_sources {starts : List Stretch → Prop} {done stretches : List Stretch}
    (scans : ScansBehind starts done stretches) (noText : sources stretches = []) :
    stretches = [] := by
  cases stretches with
  | nil => rfl
  | cons stretch later =>
      obtain ⟨lawful, _⟩ := scansBehind_cons_iff.mp scans
      exact absurd (List.append_eq_nil_iff.mp noText).1 lawful.source_ne_nil

/-- What may start at a place of a text, and the text from there on, decide the stretch. -/
theorem Stretch.IsLawful.eq {starts : Prop} {left right : Stretch}
    {leftLater rightLater : List Stretch} (isLeft : left.IsLawful starts leftLater)
    (isRight : right.IsLawful starts rightLater)
    (sameText : sources (left :: leftLater) = sources (right :: rightLater)) : left = right := by
  rw [sources_cons, sources_cons] at sameText
  cases left with
  | copied character =>
      cases right with
      | copied other => rw [(List.cons.inj sameText).1]
      | replaced byte opcode =>
          have found := isRight.match?
          have none := isLeft.match?_eq_none isRight.1
          exact absurd (none.symm.trans ((congrArg Mnemonic.match? sameText).trans found)) (by simp)
  | replaced byte opcode =>
      have found := isLeft.match?
      cases right with
      | copied other =>
          have none := isRight.match?_eq_none isLeft.1
          exact absurd (found.symm.trans ((congrArg Mnemonic.match? sameText).trans none)) (by simp)
      | replaced otherByte otherOpcode =>
          have same := found.symm.trans ((congrArg Mnemonic.match? sameText).trans isRight.match?)
          obtain ⟨rfl, rfl⟩ := Prod.mk.inj (Option.some.inj same)
          rfl

/-- Two scans of a text by one rule are the same. -/
theorem ScansBehind.eq {starts : List Stretch → Prop} {done left right : List Stretch}
    (isLeft : ScansBehind starts done left) (isRight : ScansBehind starts done right)
    (sameText : sources left = sources right) : left = right := by
  induction left generalizing done right with
  | nil => exact (isRight.eq_nil_of_sources sameText.symm).symm
  | cons stretch later inductionHypothesis =>
      obtain ⟨lawful, scans⟩ := scansBehind_cons_iff.mp isLeft
      cases right with
      | nil => exact isLeft.eq_nil_of_sources sameText
      | cons other otherLater =>
          obtain ⟨otherLawful, otherScans⟩ := scansBehind_cons_iff.mp isRight
          have same := lawful.eq otherLawful sameText
          subst same
          rw [sources_cons, sources_cons, List.append_cancel_left_eq] at sameText
          rw [inductionHypothesis scans otherScans sameText]

/-! ### Scans by word starts -/

theorem ScanStart.of_wordStart {before : List Stretch} (isStart : WordStart before) :
    ScanStart before :=
  Or.inl isStart

theorem Stretch.IsLawful.mono_replaced {narrow wide : Prop} (widens : narrow → wide)
    {later : List Stretch} {byte : UInt8} {opcode : Opcode}
    (lawful : (Stretch.replaced byte opcode).IsLawful narrow later) :
    (Stretch.replaced byte opcode).IsLawful wide later :=
  ⟨widens lawful.1, lawful.2⟩

theorem Stretch.IsLawful.anti_copied {narrow wide : Prop} (widens : narrow → wide)
    {later : List Stretch} {character : Char}
    (lawful : (Stretch.copied character).IsLawful wide later) :
    (Stretch.copied character).IsLawful narrow later :=
  fun mayStart => lawful (widens mayStart)

/-- No mnemonic begins like the text of its own byte. -/
theorem take_byteText_ne : ∀ entry ∈ Opcode.defined,
    2 ≤ entry.2.mnemonic.length ∧ 2 ≤ (byteText entry.1).length ∧
      (byteText entry.1).take 2 ≠ entry.2.mnemonic.take 2 := by
  decide +kernel

/-- A scan by word starts that copies the first letter of a mnemonic copies the second one as
well. -/
theorem take_results_of_copied {done later : List Stretch} {character : Char} {mnemonic rest : Text}
    (scans : ScansBehind WordStart done (.copied character :: later))
    (isText : sources (.copied character :: later) = mnemonic ++ rest)
    (starts : mnemonic.head?.any Char.isUpper = true) (long : 2 ≤ mnemonic.length) :
    (results (.copied character :: later)).take 2 = mnemonic.take 2 := by
  obtain ⟨first, second, others, rfl⟩ :
      ∃ first second others, mnemonic = first :: second :: others :=
    match mnemonic, long with
    | first :: second :: others, _ => ⟨first, second, others, rfl⟩
  obtain ⟨isFirst, isLater⟩ := List.cons.inj isText
  subst isFirst
  obtain ⟨_, scansLater⟩ := scansBehind_cons_iff.mp scans
  cases later with
  | nil => cases isLater
  | cons stretch behind =>
      cases stretch with
      | copied next =>
          obtain ⟨isSecond, _⟩ := List.cons.inj isLater
          rw [results_cons, results_cons, isSecond]
          rfl
      | replaced byte opcode =>
          obtain ⟨lawful, _⟩ := scansBehind_cons_iff.mp scansLater
          have bounds := wordStart_copied_iff.mp lawful.1
          rw [isBoundary_of_isUpper (by simpa using starts)] at bounds
          cases bounds

/-- A scan by word starts writes what substitution writes only if it is the same scan. -/
theorem ScansBehind.eq_of_results {done left right : List Stretch}
    (isLeft : ScansBehind ScanStart done left) (isRight : ScansBehind WordStart done right)
    (sameText : sources left = sources right) (sameResult : results left = results right) :
    left = right := by
  induction left generalizing done right with
  | nil => exact (isRight.eq_nil_of_sources sameText.symm).symm
  | cons stretch later inductionHypothesis =>
      obtain ⟨lawful, scans⟩ := scansBehind_cons_iff.mp isLeft
      cases right with
      | nil => exact isLeft.eq_nil_of_sources sameText
      | cons other otherLater =>
          obtain ⟨otherLawful, otherScans⟩ := scansBehind_cons_iff.mp isRight
          have same : stretch = other := by
            cases other with
            | replaced byte opcode =>
                exact lawful.eq (otherLawful.mono_replaced ScanStart.of_wordStart) sameText
            | copied character =>
                cases stretch with
                | copied _ =>
                    exact (lawful.anti_copied ScanStart.of_wordStart).eq otherLawful sameText
                | replaced byte opcode =>
                    -- The letters of the mnemonic are copied on the one side only.
                    obtain ⟨long, enough, differs⟩ := take_byteText_ne _ lawful.2.1
                    have copied := take_results_of_copied isRight sameText.symm
                      lawful.wellSpelled.starts long
                    rw [← sameResult, results_cons] at copied
                    rw [Stretch.result, List.append_assoc,
                      List.take_append_of_le_length enough] at copied
                    exact absurd copied differs
          subst same
          rw [sources_cons, sources_cons, List.append_cancel_left_eq] at sameText
          rw [results_cons, results_cons, List.append_cancel_left_eq] at sameResult
          rw [inductionHypothesis scans otherScans sameText sameResult]

/-! ### Mnemonics without anything between them -/

theorem not_isWhiteSpace_of_isUpper {character : Char} (upper : character.isUpper = true) :
    ¬isWhiteSpace character = true := by
  intro blank
  rw [isUpper_of_isWhiteSpace blank] at upper
  cases upper

/-- No word starts directly behind a mnemonic. -/
theorem not_wordStart_replaced {before : List Stretch} {byte : UInt8} {opcode : Opcode}
    (rules : WellSpelled opcode.mnemonic) : ¬WordStart (before ++ [.replaced byte opcode]) := by
  intro starts
  obtain ⟨last, isLast⟩ : ∃ last, opcode.mnemonic.getLast? = some last :=
    ⟨_, List.getLast?_eq_some_getLast rules.ne_nil⟩
  have isEnd : last ∈ (sources (before ++ [.replaced byte opcode])).getLast? := by
    simp [sources, Stretch.source, isLast]
  have spelled := rules.spelling last (List.mem_of_getLast? isLast)
  rcases Bool.or_eq_true_iff.mp (starts last isEnd) with blank | isColon
  · rw [eq_space_of_isWhiteSpace spelled blank] at isLast
    exact rules.ends isLast
  · rw [beq_iff_eq.mp isColon] at spelled
    exact absurd spelled (by decide)

namespace Scans

variable {text : Text} {stretches : List Stretch}

/-- A mnemonic that another one follows at once ends in a comma. -/
theorem comma_of_adjacent (scans : Scans ScanStart text stretches) {before later : List Stretch}
    {first second : UInt8} {firstOpcode secondOpcode : Opcode}
    (isSplit : stretches =
      before ++ .replaced first firstOpcode :: .replaced second secondOpcode :: later) :
    firstOpcode.mnemonic.getLast? = some ',' := by
  have firstLawful := scans.lawful _ _ _ isSplit
  have secondLawful := scans.lawful (before ++ [.replaced first firstOpcode]) _ later
    (by rw [isSplit, List.append_assoc]; rfl)
  have rules := secondLawful.wellSpelled
  rcases firstLawful.2.2 with isComma | blank
  · exact isComma
  · exfalso
    obtain ⟨head, tail, isMnemonic⟩ := List.exists_cons_of_ne_nil rules.ne_nil
    have upper := rules.starts
    rw [isMnemonic] at upper
    refine not_isWhiteSpace_of_isUpper (by simpa using upper) (blank head ?_)
    rw [sources_cons, Stretch.source, isMnemonic]
    rfl

/-- A mnemonic is replaced at the start of a word, or directly behind one that ends in a
comma. -/
theorem start_of_replaced (scans : Scans ScanStart text stretches) {before later : List Stretch}
    {byte : UInt8} {opcode : Opcode}
    (isSplit : stretches = before ++ .replaced byte opcode :: later) :
    WordStart before ∨ ∃ front previous previousOpcode,
      before = front ++ [.replaced previous previousOpcode] ∧
        previousOpcode.mnemonic.getLast? = some ',' := by
  rcases (scans.lawful _ _ _ isSplit).1 with isStart | ⟨previous, previousOpcode, isLast⟩
  · exact Or.inl isStart
  · obtain ⟨front, isBefore⟩ := List.getLast?_eq_some_iff.mp isLast
    refine Or.inr ⟨front, previous, previousOpcode, isBefore, ?_⟩
    exact scans.comma_of_adjacent (by rw [isSplit, isBefore, List.append_assoc]; rfl)

/-- The scan of substitution goes by word starts, unless it finds two mnemonics without anything
between them. -/
theorem wordStart_iff (scans : Scans ScanStart text stretches) :
    Scans WordStart text stretches ↔
      ∀ before first firstOpcode second secondOpcode later, stretches ≠
        before ++ .replaced first firstOpcode :: .replaced second secondOpcode :: later := by
  constructor
  · intro words before first firstOpcode second secondOpcode later isSplit
    have firstLawful := words.lawful _ _ _ isSplit
    have secondLawful := words.lawful (before ++ [.replaced first firstOpcode]) _ later
      (by rw [isSplit, List.append_assoc]; rfl)
    exact not_wordStart_replaced firstLawful.wellSpelled secondLawful.1
  · intro apart
    refine ⟨scans.whole, fun before stretch later isSplit => ?_⟩
    have lawful := scans.lawful before stretch later isSplit
    cases stretch with
    | copied character => exact lawful.anti_copied ScanStart.of_wordStart
    | replaced byte opcode =>
        refine ⟨?_, lawful.2⟩
        rcases scans.start_of_replaced isSplit with isStart | ⟨front, _, _, isBefore, _⟩
        · exact isStart
        · exact absurd (by rw [isSplit, isBefore, List.append_assoc]; rfl)
            (apart front _ _ byte opcode later)

end Scans

/-- Where mnemonics are replaced. Each text has one scan by the rule of substitution, and
substitution writes the byte of each mnemonic of the scan and copies every other character. A
mnemonic of the scan stands at the start of a word or directly behind a mnemonic that ends in a
comma. What substitution writes is what a scan by word starts writes, just if the scan has no two
mnemonics without anything between them. -/
theorem substitute_scans_words_iff (text : Text) :
    ∃ stretches, Scans ScanStart text stretches ∧
      (∀ other, Scans ScanStart text other → other = stretches) ∧
      results stretches = substitute text ∧
      (∀ before byte opcode later, stretches = before ++ .replaced byte opcode :: later →
        WordStart before ∨ ∃ front previous previousOpcode,
          before = front ++ [.replaced previous previousOpcode] ∧
            previousOpcode.mnemonic.getLast? = some ',') ∧
      ((∃ words, Scans WordStart text words ∧ results words = substitute text) ↔
        ∀ before first firstOpcode second secondOpcode later, stretches ≠
          before ++ .replaced first firstOpcode :: .replaced second secondOpcode :: later) := by
  obtain ⟨stretches, isText, scansBehind, isResult⟩ :=
    exists_scansBehind text [] true (iff_of_true rfl (Or.inl wordStart_nil))
  have scans : Scans ScanStart text stretches := ⟨isText, scansBehind⟩
  refine ⟨stretches, scans, ?_, isResult, fun _ _ _ _ => scans.start_of_replaced, ?_⟩
  · intro other otherScans
    have otherBehind : ScansBehind ScanStart [] other := otherScans.lawful
    exact otherBehind.eq scansBehind (otherScans.whole.trans isText.symm)
  · rw [← scans.wordStart_iff]
    constructor
    · rintro ⟨words, wordScans, sameResult⟩
      have wordsBehind : ScansBehind WordStart [] words := wordScans.lawful
      rwa [scansBehind.eq_of_results wordsBehind (isText.trans wordScans.whole.symm)
        (isResult.trans sameResult.symm)]
    · intro wordScans
      exact ⟨stretches, wordScans, isResult⟩

/-- The scan by word starts of a text in which one mnemonic directly follows another. -/
private def wordsOfPair : List Stretch :=
  [.replaced 0x3E ⟨"MVI A,".toList, .byte⟩, .copied 'N', .copied 'O', .copied 'P']

private theorem scans_wordsOfPair : ScansBehind WordStart [] wordsOfPair := by
  have inside (front : List Stretch) {character : Char} (upper : character.isUpper = true) :
      ¬WordStart (front ++ [.copied character]) := by
    rw [wordStart_copied_iff, isBoundary_of_isUpper upper]
    exact Bool.false_ne_true
  have mnemonic : WellSpelled "MVI A,".toList := by decide
  simp only [wordsOfPair, scansBehind_cons_iff]
  refine ⟨⟨wordStart_nil, by decide +kernel, Or.inl rfl⟩,
    fun starts => absurd starts (not_wordStart_replaced mnemonic),
    fun starts => absurd starts (inside _ rfl), fun starts => absurd starts (inside _ rfl), ?_⟩
  intro before stretch later isSplit
  simp at isSplit

/-- The operand of the first mnemonic spells another one: it is replaced, although no word starts
behind the comma. -/
theorem substitute_behind_comma :
    substitute "MVI A,NOP".toList = "3E 00 ".toList ∧
      Scans WordStart "MVI A,NOP".toList wordsOfPair ∧
      results wordsOfPair = "3E NOP".toList ∧
      ¬∃ words, Scans WordStart "MVI A,NOP".toList words ∧
        results words = substitute "MVI A,NOP".toList := by
  have substituted : substitute "MVI A,NOP".toList = "3E 00 ".toList := by
    rw [substitute_eq_defined]
    decide +kernel
  have isText : sources wordsOfPair = "MVI A,NOP".toList := by decide
  have written : results wordsOfPair = "3E NOP".toList := by decide
  refine ⟨substituted, ⟨isText, scans_wordsOfPair⟩, written, ?_⟩
  rintro ⟨words, scans, isResult⟩
  have wordsBehind : ScansBehind WordStart [] words := scans.lawful
  rw [wordsBehind.eq scans_wordsOfPair (scans.whole.trans isText.symm), written,
    substituted] at isResult
  exact absurd isResult (by decide)

end Asm8080.Mnemonic
