import Mathlib.Data.List.DropRight
import Asm8080.Report
import Asm8080.Proofs.Diagnostics
import Asm8080.Proofs.JsonText
import Asm8080.Proofs.ListingRows
import Asm8080.Proofs.OctalDump

/-!
Contract: what a report says of an assembly.

Owns:
- a reader of plain reports, which takes them apart from the end and is not told which
  sections there are;
- a serializer that is to be relied on: it takes every report, and its text denotes it;
- `Report.Presents`, what a reader finds in a report of either form, and that the report of
  every assembly presents it.

Does not own: the wording of listings and dumps.
-/

namespace Asm8080

/-! ### The characters of dumps -/

/-- Whether a dump can hold the character. A listing ends in a remark with a comma or a full
stop. -/
def isDumpCharacter (character : Char) : Bool :=
  character != ';' && character != ',' && character != '.'

/-- A class without a semicolon, a comma and a full stop is one of dumps. -/
theorem isDumpCharacter_of_excluded {isMember : Char → Bool} (noSemicolon : isMember ';' = false)
    (noComma : isMember ',' = false) (noStop : isMember '.' = false) {c : Char}
    (member : isMember c = true) : isDumpCharacter c = true := by
  have differs {mark : Char} (excluded : isMember mark = false) : c ≠ mark := by
    rintro rfl
    exact Bool.false_ne_true (excluded.symm.trans member)
  simp [isDumpCharacter, differs noSemicolon, differs noComma, differs noStop]

theorem isDumpCharacter_of_isHexDigit {c : Char} (isDigit : Numeral.isHexDigit c = true) :
    isDumpCharacter c = true :=
  isDumpCharacter_of_excluded (by decide) (by decide) (by decide) isDigit

theorem all_isDumpCharacter_hex (object : ObjectCode) :
    object.hex.all isDumpCharacter = true :=
  List.all_eq_true.mpr fun _ member =>
    isDumpCharacter_of_isHexDigit (Numeral.isHexDigit_of_mem_hexBytes member)

theorem all_isDumpCharacter_toDigits (value : Nat) :
    (Nat.toDigits 8 value).all isDumpCharacter = true := by
  refine List.all_eq_true.mpr fun c member => ?_
  have isDigit : c.isDigit = true := Nat.isDigit_of_mem_toDigits (by decide) (by decide) member
  exact isDumpCharacter_of_excluded rfl rfl rfl isDigit

theorem all_isDumpCharacter_octalByte (byte : UInt8) :
    (Numeral.octalByte byte).all isDumpCharacter = true := by
  have bound := byte.toNat_lt
  have each : ∀ value < 8, isDumpCharacter (Numeral.digit value) = true := by decide
  simp [Numeral.octalByte, each (byte.toNat / 64) (by omega),
    each (byte.toNat / 8 % 8) (by omega), each (byte.toNat % 8) (by omega)]

theorem all_isDumpCharacter_group (next? : Option Nat) (cell : Cell) :
    (ObjectCode.group next? cell).all isDumpCharacter = true := by
  have start (address : Nat) : (ObjectCode.lineStart address).all isDumpCharacter = true := by
    simp only [ObjectCode.lineStart, Numeral.octalAddress, List.all_append, List.all_cons,
      all_isDumpCharacter_toDigits, List.all_replicate]
    simp [isDumpCharacter]
  unfold ObjectCode.group
  rw [List.all_append, List.all_append, all_isDumpCharacter_octalByte]
  split
  · rw [start]
    rfl
  · rfl

theorem all_isDumpCharacter_dumpFrom (next? : Option Nat) (cells : List Cell) :
    (OctalDump.dumpFrom next? cells).all isDumpCharacter = true := by
  induction cells generalizing next? with
  | nil => rfl
  | cons cell rest inductionHypothesis =>
    rw [OctalDump.dumpFrom, List.all_append, all_isDumpCharacter_group, inductionHypothesis]
    rfl

theorem all_isDumpCharacter_octal (tokens : List Token) :
    (assemble tokens).octal.all isDumpCharacter = true := by
  rw [octal_assemble, OctalDump.octal_append, List.all_append, List.all_append,
    all_isDumpCharacter_dumpFrom]
  split <;> rfl

/-- A listing ends in a remark with a character that no dump holds, and with no semicolon behind
it. -/
theorem listing_assemble_eq_append (tokens : List Token) :
    ∃ front mark rest, (assemble tokens).listing = front ++ mark :: rest ∧
      isDumpCharacter mark = false ∧ mark ≠ ';' ∧ ';' ∉ rest := by
  have closing (front remark rest : Text) (mark : Char) :
      front ++ (remark ++ mark :: rest) = (front ++ remark) ++ mark :: rest :=
    (List.append_assoc front remark (mark :: rest)).symm
  by_cases isEmpty : tokens = []
  · subst isEmpty
    exact ⟨"\n\nNo code to assemble".toList, '.', [], rfl, rfl, by decide, by decide⟩
  · rw [listing_assemble isEmpty]
    split
    · exact ⟨_, '.', [], closing _ "\n\n; No errors found".toList [] '.', rfl, by decide,
        by decide⟩
    · exact ⟨_, ',', _, closing _ "\n\nWarning".toList " contains error(s)".toList ',', rfl,
        by decide, by decide⟩

/-! ### The reader of plain reports -/

/-- What a plain report holds: the sections that it shows, and the origin. -/
structure PlainReport where
  listing : Option Text
  octal : Option Text
  hex : Option Text
  origin : Nat
deriving DecidableEq, Repr

namespace PlainReport

/-- The text of a remark, which starts a paragraph. -/
def remark (heading content : Text) : Text :=
  "\n\n;".toList ++ heading ++ content

/-- Whether a remark can hold the character behind the semicolon that it starts with. -/
def isBody (character : Char) : Bool :=
  character != ';'

/-- The last remark of a text, if it has the heading and its content is that of a dump: the
text in front of it, and the content. -/
def remark? (heading text : Text) : Option (Text × Text) :=
  ((text.rdropWhile isBody).dropSuffix? "\n\n;".toList).bind fun front =>
    (((text.rtakeWhile isBody).dropPrefix? heading).filter fun content =>
      content.all isDumpCharacter).map fun content => (front, content)

/-- The text in front of the last remark, and its content, if that remark is there. -/
def peel (heading text : Text) : Text × Option Text :=
  match remark? heading text with
  | some (front, content) => (front, some content)
  | none => (text, none)

/-- A word as four hexadecimal digits, a letter and a line end. -/
def word? (text : Text) : Option Nat :=
  (text.dropSuffix? "h\n".toList).bind fun digits =>
    if digits.length = 4 then (Numeral.digits? 16 digits).map (Numeral.ofDigits 16) else none

/-- The listing, if what is in front of all remarks is one or nothing. -/
def listing? (text : Text) : Option (Option Text) :=
  if text.isEmpty then some none else (text.dropPrefix? "; Assembled code\n\n".toList).map some

/-- Reads a report from the end: the origin, the dumps that are there, and the listing. -/
def read? (text : Text) : Option PlainReport :=
  (remark? " ORG address: ".toList text).bind fun (body, closing) =>
    let (body, hex) := peel " Hex\n".toList body
    let (body, octal) := peel " Octal".toList body
    (word? closing).bind fun origin =>
      (listing? body).map fun listing => ⟨listing, octal, hex, origin⟩

/-! ### Remarks -/

theorem isBody_of_mem_reverse {content : Text} (isContent : content.all isBody = true) :
    ∀ c ∈ content.reverse, isBody c = true := fun c member =>
  List.all_eq_true.mp isContent c (List.mem_reverse.mp member)

theorem rtakeWhile_append {text content : Text} (isContent : content.all isBody = true) :
    (text ++ content).rtakeWhile isBody = text.rtakeWhile isBody ++ content := by
  unfold List.rtakeWhile
  rw [List.reverse_append, List.takeWhile_append_of_pos (isBody_of_mem_reverse isContent),
    List.reverse_append, List.reverse_reverse]

theorem rdropWhile_append {text content : Text} (isContent : content.all isBody = true) :
    (text ++ content).rdropWhile isBody = text.rdropWhile isBody := by
  unfold List.rdropWhile
  rw [List.reverse_append, List.dropWhile_append_of_pos (isBody_of_mem_reverse isContent)]

theorem isBody_of_isDumpCharacter {c : Char} (isDump : isDumpCharacter c = true) :
    isBody c = true := by
  simp only [isDumpCharacter, Bool.and_eq_true] at isDump
  exact isDump.1.1

variable {heading content front text : Text}

theorem all_isBody (isHeading : heading.all isDumpCharacter = true)
    (isDump : content.all isDumpCharacter = true) : (heading ++ content).all isBody = true := by
  rw [List.all_append, Bool.and_eq_true]
  exact ⟨List.all_eq_true.mpr fun c member =>
      isBody_of_isDumpCharacter (List.all_eq_true.mp isHeading c member),
    List.all_eq_true.mpr fun c member =>
      isBody_of_isDumpCharacter (List.all_eq_true.mp isDump c member)⟩

/-- The text behind the last semicolon is that of the remark, and the text up to it ends in the
start of the remark. -/
theorem cut_remark (front : Text) (isHeading : heading.all isDumpCharacter = true)
    (isDump : content.all isDumpCharacter = true) :
    (front ++ remark heading content).rtakeWhile isBody = heading ++ content ∧
      (front ++ remark heading content).rdropWhile isBody = front ++ "\n\n;".toList := by
  have isContent := all_isBody isHeading isDump
  have regroup : front ++ remark heading content =
      (front ++ ['\n', '\n'] ++ [';']) ++ (heading ++ content) := by
    simp [remark]
  rw [regroup, rtakeWhile_append isContent, rdropWhile_append isContent,
    List.rtakeWhile_concat_neg _ _ _ (by decide), List.rdropWhile_concat_neg _ _ _ (by decide)]
  simp

theorem remark?_append (isHeading : heading.all isDumpCharacter = true)
    (isDump : content.all isDumpCharacter = true) :
    remark? heading (front ++ remark heading content) = some (front, content) := by
  obtain ⟨behind, upTo⟩ := cut_remark front isHeading isDump
  have isFront : (front ++ "\n\n;".toList).dropSuffix? "\n\n;".toList = some front :=
    List.dropSuffix?_eq_some_iff.mpr ⟨_, rfl, BEq.rfl⟩
  have isContent : (heading ++ content).dropPrefix? heading = some content :=
    List.dropPrefix?_append_of_beq content BEq.rfl
  rw [remark?, behind, upTo, isFront, isContent, Option.bind_some, Option.filter_some,
    if_pos isDump, Option.map_some]

/-- A text is no remark of a dump if a character that no dump holds is behind its last
semicolon. -/
theorem remark?_eq_none_of_mem (isHeading : heading.all isDumpCharacter = true) {mark : Char}
    (noDump : isDumpCharacter mark = false) (member : mark ∈ text.rtakeWhile isBody) :
    remark? heading text = none := by
  have refused : (((text.rtakeWhile isBody).dropPrefix? heading).filter fun content =>
      content.all isDumpCharacter) = none := by
    refine Option.filter_eq_none_iff.mpr fun content isRest => ?_
    obtain ⟨own, isText, isOwn⟩ := List.dropPrefix?_eq_some_iff.mp isRest
    rw [isText, eq_of_beq isOwn, List.mem_append] at member
    rcases member with inHeading | inContent
    · exact absurd (List.all_eq_true.mp isHeading mark inHeading) (by simp [noDump])
    · exact fun isDump => absurd (List.all_eq_true.mp isDump mark inContent) (by simp [noDump])
  rw [remark?, refused]
  cases (text.rdropWhile isBody).dropSuffix? "\n\n;".toList <;> rfl

theorem peel_append (isHeading : heading.all isDumpCharacter = true)
    (isDump : content.all isDumpCharacter = true) (isFront : remark? heading front = none)
    (shown : Bool) :
    peel heading (front ++ Report.whenShown shown (remark heading content)) =
      (front, if shown then some content else none) := by
  cases shown with
  | true =>
    show peel heading (front ++ remark heading content) = _
    rw [peel, remark?_append isHeading isDump]
    rfl
  | false =>
    show peel heading (front ++ []) = _
    rw [List.append_nil, peel, isFront]
    rfl

/-- A remark under one heading is none under another. -/
theorem remark?_eq_none_of_heading {other : Text} (isHeading : heading.all isDumpCharacter = true)
    (isDump : content.all isDumpCharacter = true)
    (differs : (heading ++ content).dropPrefix? other = none) :
    remark? other (front ++ remark heading content) = none := by
  obtain ⟨behind, upTo⟩ := cut_remark front isHeading isDump
  rw [remark?, behind, upTo, differs]
  cases (front ++ "\n\n;".toList).dropSuffix? "\n\n;".toList <;> rfl

/-! ### The parts of a report -/

/-- The part of a report in front of all remarks. -/
def opening (shown : Bool) (listing : Text) : Text :=
  Report.whenShown shown ("; Assembled code\n\n".toList ++ listing)

/-- A listing holds no remark of a dump, whatever it lists. -/
theorem remark?_opening (isHeading : heading.all isDumpCharacter = true) (shown : Bool)
    (tokens : List Token) : remark? heading (opening shown (assemble tokens).listing) = none := by
  cases shown with
  | false => rfl
  | true =>
    obtain ⟨front, mark, rest, isListing, noDump, noRemark, plain⟩ :=
      listing_assemble_eq_append tokens
    have isRest : (mark :: rest).all isBody = true := by
      refine List.all_eq_true.mpr fun c member => bne_iff_ne.mpr ?_
      rintro rfl
      exact (List.mem_cons.mp member).elim (noRemark ·.symm) plain
    refine remark?_eq_none_of_mem isHeading noDump ?_
    show mark ∈ ("; Assembled code\n\n".toList ++ (assemble tokens).listing).rtakeWhile isBody
    rw [isListing, ← List.append_assoc, rtakeWhile_append isRest]
    simp

theorem listing?_opening (shown : Bool) (listing : Text) :
    listing? (opening shown listing) = some (if shown then some listing else none) := by
  cases shown with
  | false => rfl
  | true =>
    have isListing : ("; Assembled code\n\n".toList ++ listing).dropPrefix?
        "; Assembled code\n\n".toList = some listing :=
      List.dropPrefix?_append_of_beq listing BEq.rfl
    show listing? ("; Assembled code\n\n".toList ++ listing) = _
    rw [listing?, isListing]
    rfl

theorem digits?_hexWord (word : UInt16) :
    Numeral.digits? 16 (Numeral.hexWord word) = some [word.toNat / 4096, word.toNat / 256 % 16,
      word.toNat / 16 % 16, word.toNat % 16] := by
  have each : ∀ value < 16, Numeral.digitValue? 16 (Numeral.digit value) = some value := by decide
  have bound := word.toNat_lt
  simp [Numeral.digits?, Numeral.hexWord, each (word.toNat / 4096) (by omega),
    each (word.toNat / 256 % 16) (by omega), each (word.toNat / 16 % 16) (by omega),
    each (word.toNat % 16) (by omega)]

theorem word?_hexWord (word : UInt16) :
    word? (Numeral.hexWord word ++ "h\n".toList) = some word.toNat := by
  have isDigits : (Numeral.hexWord word ++ "h\n".toList).dropSuffix? "h\n".toList =
      some (Numeral.hexWord word) :=
    List.dropSuffix?_eq_some_iff.mpr ⟨_, rfl, BEq.rfl⟩
  have isValue : Numeral.ofDigits 16 [word.toNat / 4096, word.toNat / 256 % 16,
      word.toNat / 16 % 16, word.toNat % 16] = word.toNat := by
    simp only [Numeral.ofDigits, List.foldl_cons, List.foldl_nil]
    omega
  have four : (Numeral.hexWord word).length = 4 := rfl
  rw [word?, isDigits, Option.bind_some, if_pos four, digits?_hexWord, Option.map_some, isValue]

theorem plain_eq_remarks (sections : Sections) (assembly : Assembly) :
    Report.plain sections assembly =
      opening sections.listing assembly.listing ++
        Report.whenShown sections.octal (remark " Octal".toList assembly.octal) ++
        Report.whenShown sections.hex (remark " Hex\n".toList assembly.hex) ++
        remark " ORG address: ".toList (Numeral.hexWord assembly.origin ++ "h\n".toList) := by
  rw [Report.plain, List.append_assoc _ (Numeral.hexWord assembly.origin),
    List.append_assoc _ "\n\n; ORG address: ".toList]
  rfl

theorem read?_of_parts {body closing image dump : Text} {listing octal hex : Option Text}
    {origin : Nat} (isClosing : remark? " ORG address: ".toList text = some (body, closing))
    (isHex : peel " Hex\n".toList body = (image, hex))
    (isOctal : peel " Octal".toList image = (dump, octal))
    (isOrigin : word? closing = some origin) (isListing : listing? dump = some listing) :
    read? text = some ⟨listing, octal, hex, origin⟩ := by
  rw [read?, isClosing]
  simp only [Option.bind_some, isHex, isOctal, isOrigin, isListing, Option.map_some]

/-- A plain report is read back as the sections that are chosen, and as no others. -/
theorem read?_plain (sections : Sections) (tokens : List Token) :
    read? (Report.plain sections (assemble tokens)) =
      some { listing := if sections.listing then some (assemble tokens).listing else none
             octal := if sections.octal then some (assemble tokens).octal else none
             hex := if sections.hex then some (assemble tokens).hex else none
             origin := (assemble tokens).origin.toNat } := by
  have closing : (Numeral.hexWord (assemble tokens).origin ++ "h\n".toList).all isDumpCharacter =
      true := by
    have digits : (Numeral.hexWord (assemble tokens).origin).all isDumpCharacter = true :=
      List.all_eq_true.mpr fun _ member =>
        isDumpCharacter_of_isHexDigit (Numeral.isHexDigit_of_mem_hexWord member)
    rw [List.all_append, digits]
    rfl
  have octal := all_isDumpCharacter_octal tokens
  have hex : (assemble tokens).hex.all isDumpCharacter = true := all_isDumpCharacter_hex _
  -- Where the octal dump ends, no hexadecimal image is found.
  have noImage : remark? " Hex\n".toList (opening sections.listing (assemble tokens).listing ++
      Report.whenShown sections.octal (remark " Octal".toList (assemble tokens).octal)) = none := by
    cases sections.octal with
    | true => exact remark?_eq_none_of_heading rfl octal rfl
    | false =>
      rw [Report.whenShown, if_neg Bool.false_ne_true, List.append_nil]
      exact remark?_opening rfl _ tokens
  rw [plain_eq_remarks]
  exact read?_of_parts (remark?_append rfl closing) (peel_append rfl hex noImage _)
    (peel_append rfl octal (remark?_opening rfl _ tokens) _) (word?_hexWord _)
    (listing?_opening _ _)

end PlainReport

/-! ### Reports of both forms -/

/-- A serializer to rely on: it takes every report, and its text denotes the value of the
report. -/
def Serializer.Faithful (serialize : Serializer) : Prop :=
  ∀ report, ∃ text, serialize report = .ok text ∧ JsonValue.Denotes text report.value

theorem AssemblyReport.faithful_text : Serializer.Faithful fun report => .ok report.text :=
  fun report => ⟨report.text, rfl, report.value.denotes_pretty 0⟩

namespace Report

/-- The member of an object, if it is to be there. -/
def memberIf (chosen : Bool) (name : String) (content : Text) : List (Text × JsonValue) :=
  if chosen then [(name.toList, .string content)] else []

/-- The object that a JSON report denotes. It tells the outcome, the number of bytes and the
diagnostics in any case. -/
def object (sections : Sections) (assembly : Assembly) : JsonValue :=
  .object <|
    [("origin".toList, .number assembly.origin.toNat),
      ("success".toList, .boolean assembly.diagnostics.isEmpty),
      ("size".toList, .number assembly.bytes.length)] ++
    memberIf sections.hex "hex" assembly.hex ++
    memberIf sections.octal "octal" assembly.octal ++
    memberIf sections.listing "listing" assembly.listing ++
    [("errors".toList, .array (assembly.diagnostics.map fun diagnostic =>
      .string (Numeral.hexWord diagnostic.address ++ "h: ".toList ++ diagnostic.fault.message)))]

/-- The text presents an assembly: a reader finds the sections that are chosen in it, each with
its content, and no others, and it finds the origin. A plain report tells of the diagnostics in
its listing. A JSON report ends its line. -/
def Presents (sections : Sections) (assembly : Assembly) : ReportFormat → Text → Prop
  | .text, text =>
      PlainReport.read? text =
          some { listing := if sections.listing then some assembly.listing else none
                 octal := if sections.octal then some assembly.octal else none
                 hex := if sections.hex then some assembly.hex else none
                 origin := assembly.origin.toNat } ∧
        (sections.listing = true → ∀ diagnostic ∈ assembly.diagnostics,
          diagnostic.fault.message <:+: text)
  | .json, text =>
      ∃ body, text = body ++ ['\n'] ∧ JsonValue.Denotes body (object sections assembly)

theorem listing_infix_plain {sections : Sections} (chosen : sections.listing = true)
    (assembly : Assembly) : assembly.listing <:+: plain sections assembly := by
  unfold plain whenShown
  rw [if_pos chosen]
  simp only [List.append_assoc]
  exact List.infix_append' _ _ _

theorem value_ofAssembly (sections : Sections) (assembly : Assembly) :
    (AssemblyReport.ofAssembly sections assembly).value = object sections assembly := by
  have member (chosen : Bool) (name : String) (content : Text) :
      AssemblyReport.sectionMember name (if chosen then some content else none) =
        memberIf chosen name content := by
    cases chosen <;> rfl
  simp only [AssemblyReport.value, AssemblyReport.ofAssembly, member, List.map_map]
  rfl

/-- Every assembly has a report of either form, and the report presents it. -/
theorem exists_render_presents {serialize : Serializer} (faithful : serialize.Faithful)
    (format : ReportFormat) (sections : Sections) (tokens : List Token) :
    ∃ text, render serialize format sections (assemble tokens) = .ok text ∧
      Presents sections (assemble tokens) format text := by
  cases format with
  | text =>
    refine ⟨plain sections (assemble tokens), rfl, PlainReport.read?_plain sections tokens, ?_⟩
    intro chosen diagnostic reported
    exact (message_infix_listing reported).trans (listing_infix_plain chosen _)
  | json =>
    obtain ⟨body, isText, denotes⟩ :=
      faithful (AssemblyReport.ofAssembly sections (assemble tokens))
    refine ⟨body ++ ['\n'], ?_, body, rfl, ?_⟩
    · rw [render, json, isText]
      rfl
    · rw [← value_ofAssembly]
      exact denotes

end Report

/-- A listing that quotes the heading of a section, which it does not hold. -/
example : PlainReport.read? ("; Assembled code\n\n'\n\n; Hex\n00'\n\nWarning, contains error(s)" ++
      "\n\n; Octal\n000: 000 \n\n; ORG address: 0100h\n").toList =
    some ⟨some "'\n\n; Hex\n00'\n\nWarning, contains error(s)".toList,
      some "\n000: 000 ".toList, none, 256⟩ := by
  decide +kernel

end Asm8080
