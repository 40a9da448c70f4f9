import Asm8080.Proofs.LoadedImage

/-!
Contract: the octal dump read back as bytes at their addresses.

Owns:
- the lines of a dump, and a reader that knows the format only: a line end, an octal
  address, a colon and a space, then groups of three octal digits and a space, where
  each group belongs to the address behind the one before it;
- the lines that a sequence of placed bytes falls into, which are the lines that its
  dump spells;
- `octal_dump_recovers_cells`: reading the dump gives the placed bytes back, and no
  line passes a multiple of eight.

Does not own: the hexadecimal text, which has no addresses.
-/

namespace Asm8080

/-! ### Octal numerals -/

namespace Numeral

theorem digits?_append {base : Nat} {left right : Text} {leftDigits rightDigits : List Nat}
    (isLeft : digits? base left = some leftDigits)
    (isRight : digits? base right = some rightDigits) :
    digits? base (left ++ right) = some (leftDigits ++ rightDigits) := by
  unfold digits? at isLeft isRight ⊢
  simp [List.mapM_append, isLeft, isRight]

theorem ofDigits_concat (base : Nat) (digits : List Nat) (last : Nat) :
    ofDigits base (digits ++ [last]) = ofDigits base digits * base + last := by
  unfold ofDigits
  rw [List.foldl_append]
  rfl

theorem ofDigits_zeros (base count : Nat) (digits : List Nat) :
    ofDigits base (List.replicate count 0 ++ digits) = ofDigits base digits := by
  induction count with
  | zero => rfl
  | succ count inductionHypothesis =>
      rw [List.replicate_succ, List.cons_append, ← inductionHypothesis]
      simp [ofDigits]

theorem digitValue?_digitChar {value : Nat} (small : value < 8) :
    digitValue? 8 (Nat.digitChar value) = some value := by
  have each : ∀ value < 8, digitValue? 8 (Nat.digitChar value) = some value := by decide
  exact each value small

/-- Octal digits are read back as the number that they were written for. -/
theorem digits?_toDigits (value : Nat) :
    ∃ digits, digits? 8 (Nat.toDigits 8 value) = some digits ∧ ofDigits 8 digits = value := by
  have single {digit : Nat} (small : digit < 8) :
      digits? 8 [Nat.digitChar digit] = some [digit] := by
    simp [digits?, digitValue?_digitChar small]
  induction value using Nat.strong_induction_on with
  | _ value inductionHypothesis =>
    rw [Nat.toDigits_eq_if (by omega)]
    split
    · rename_i small
      refine ⟨[value], single small, ?_⟩
      simp [ofDigits]
    · rename_i large
      obtain ⟨digits, isRead, isValue⟩ := inductionHypothesis (value / 8) (by omega)
      refine ⟨digits ++ [value % 8], digits?_append isRead (single (by omega)), ?_⟩
      rw [ofDigits_concat, isValue]
      omega

/-- The zeros in front of a short address do not change it. -/
theorem digits?_octalAddress (address : Nat) :
    ∃ digits, digits? 8 (octalAddress address) = some digits ∧ ofDigits 8 digits = address := by
  obtain ⟨digits, isRead, isValue⟩ := digits?_toDigits address
  have zeros (count : Nat) :
      digits? 8 (List.replicate count '0') = some (List.replicate count 0) := by
    have isZero : digitValue? 8 '0' = some 0 := rfl
    induction count with
    | zero => rfl
    | succ count inductionHypothesis =>
        unfold digits? at inductionHypothesis ⊢
        simp [List.replicate_succ, isZero, inductionHypothesis]
  refine ⟨_, digits?_append (zeros _) isRead, ?_⟩
  rw [ofDigits_zeros, isValue]

theorem digits?_octalByte (byte : UInt8) :
    ∃ digits, digits? 8 (octalByte byte) = some digits ∧ ofDigits 8 digits = byte.toNat := by
  have octal : ∀ value < 8, digitValue? 8 (digit value) = some value := by decide
  have bound := byte.toNat_lt
  refine ⟨[byte.toNat / 64, byte.toNat / 8 % 8, byte.toNat % 8], ?_, ?_⟩
  · simp [digits?, octalByte, octal (byte.toNat / 64) (by omega),
      octal (byte.toNat / 8 % 8) (by omega), octal (byte.toNat % 8) (by omega)]
  · show (((0 * 8 + byte.toNat / 64) * 8 + byte.toNat / 8 % 8) * 8 + byte.toNat % 8) = byte.toNat
    omega

/-- What is read as octal digits holds no other character. -/
theorem not_mem_of_digits? {text : Text} {digits : List Nat} (isRead : digits? 8 text = some digits)
    {character : Char} (noDigit : digitValue? 8 character = none) : character ∉ text := by
  induction text generalizing digits with
  | nil => simp
  | cons head tail inductionHypothesis =>
      obtain ⟨first, rest, isFirst, isRest, _⟩ := ValueList.mapM_cons_eq_some isRead
      rw [List.mem_cons, not_or]
      refine ⟨?_, inductionHypothesis isRest⟩
      rintro rfl
      rw [noDigit] at isFirst
      cases isFirst

end Numeral

/-! ### The reader -/

namespace OctalDump

/-- A line of a dump: the address of its first byte, and its bytes. -/
structure Line where
  address : Nat
  bytes : List UInt8
deriving DecidableEq, Repr

namespace Line

/-- The bytes of a line at their addresses, one behind the other. -/
def cells (line : Line) : List Cell :=
  Cell.place line.address line.bytes

/-- A line holds a byte, and ends before the next multiple of eight. -/
structure WithinRow (line : Line) : Prop where
  filled : line.bytes ≠ []
  short : line.bytes.length ≤ 8
  bounded : line.address % 8 + line.bytes.length ≤ 8

end Line

/-- The bytes of groups of three octal digits, each with a space behind it. -/
def bytes? : Text → Option (List UInt8)
  | [] => some []
  | high :: middle :: low :: ' ' :: rest =>
      match Numeral.digits? 8 [high, middle, low], bytes? rest with
      | some digits, some bytes =>
          if Numeral.ofDigits 8 digits < 0x100 then
            some (UInt8.ofNat (Numeral.ofDigits 8 digits) :: bytes)
          else none
      | _, _ => none
  | _ => none

/-- A line without its line end: octal digits, at least one, a colon and a space, then
groups. -/
def line? (text : Text) : Option Line :=
  match text.takeWhile (· != ':'), text.dropWhile (· != ':') with
  | first :: others, ':' :: ' ' :: groups =>
      match Numeral.digits? 8 (first :: others), bytes? groups with
      | some digits, some bytes => some ⟨Numeral.ofDigits 8 digits, bytes⟩
      | _, _ => none
  | _, _ => none

/-- The lines of a dump. Each one starts with a line end, so that nothing stands before
the first of them. -/
def read? (text : Text) : Option (List Line) :=
  match text.splitOn '\n' with
  | [] :: lines => lines.mapM line?
  | _ => none

/-! ### Lines that are read back -/

namespace Line

def groups (line : Line) : Text :=
  line.bytes.flatMap fun byte => Numeral.octalByte byte ++ [' ']

/-- The spelling of a line behind its line end. -/
def body (line : Line) : Text :=
  Numeral.octalAddress line.address ++ ':' :: ' ' :: line.groups

def text (line : Line) : Text :=
  '\n' :: line.body

end Line

theorem bytes?_groups (bytes : List UInt8) :
    bytes? (bytes.flatMap fun byte => Numeral.octalByte byte ++ [' ']) = some bytes := by
  induction bytes with
  | nil => rfl
  | cons head tail inductionHypothesis =>
      obtain ⟨digits, isRead, isValue⟩ := Numeral.digits?_octalByte head
      have small : Numeral.ofDigits 8 digits < 0x100 := by
        have bound := head.toNat_lt
        omega
      rw [List.flatMap_cons]
      simp only [Numeral.octalByte, List.cons_append, List.nil_append] at isRead ⊢
      rw [bytes?, isRead]
      simp only [Numeral.octalByte, List.cons_append, List.nil_append] at inductionHypothesis
      rw [inductionHypothesis]
      dsimp only
      rw [if_pos small, isValue, UInt8.ofNat_toNat]

theorem octalAddress_ne_nil (address : Nat) : Numeral.octalAddress address ≠ [] := by
  unfold Numeral.octalAddress
  simp [Nat.toDigits_ne_nil]

theorem line?_body (line : Line) : line? line.body = some line := by
  obtain ⟨digits, isRead, isValue⟩ := Numeral.digits?_octalAddress line.address
  have noColon : ∀ c ∈ Numeral.octalAddress line.address, (c != ':') = true := by
    intro c member
    rw [bne_iff_ne]
    rintro rfl
    exact Numeral.not_mem_of_digits? isRead rfl member
  obtain ⟨first, others, isAddress⟩ := List.exists_cons_of_ne_nil (octalAddress_ne_nil line.address)
  unfold line? Line.body
  rw [List.takeWhile_append_of_pos noColon, List.dropWhile_append_of_pos noColon]
  rw [isAddress] at isRead ⊢
  simp only [List.takeWhile_cons, List.dropWhile_cons, bne_self_eq_false, Bool.false_eq_true,
    ↓reduceIte, List.append_nil, isRead]
  rw [Line.groups, bytes?_groups]
  dsimp only
  rw [isValue]

theorem lineEnd_not_mem_body (line : Line) : '\n' ∉ line.body := by
  obtain ⟨_, addressRead, _⟩ := Numeral.digits?_octalAddress line.address
  have inAddress := @Numeral.not_mem_of_digits? _ _ addressRead '\n' rfl
  have inGroups : '\n' ∉ line.groups := by
    intro member
    obtain ⟨byte, _, inGroup⟩ := List.mem_flatMap.mp member
    obtain ⟨_, byteRead, _⟩ := Numeral.digits?_octalByte byte
    rcases List.mem_append.mp inGroup with inByte | isSpace
    · exact Numeral.not_mem_of_digits? byteRead rfl inByte
    · exact absurd (List.mem_singleton.mp isSpace) (by decide)
  simp only [Line.body, List.mem_append, List.mem_cons, not_or]
  exact ⟨inAddress, by decide, by decide, inGroups⟩

/-- A dump is cut at its line ends, and each line is read back as it was. -/
theorem read?_text (lines : List Line) : read? (lines.flatMap Line.text) = some lines := by
  have joined : lines.flatMap Line.text = ['\n'].intercalate ([] :: lines.map Line.body) := by
    induction lines with
    | nil => rfl
    | cons head tail inductionHypothesis =>
        rw [List.flatMap_cons, inductionHypothesis]
        cases tail <;> simp [Line.text, List.intercalate_cons_cons, List.intercalate_singleton]
  have whole : ∀ line ∈ [] :: lines.map Line.body, '\n' ∉ line := by
    intro line member
    rcases List.mem_cons.mp member with isEmpty | inLines
    · simp [isEmpty]
    · obtain ⟨own, _, isBody⟩ := List.mem_map.mp inLines
      rw [← isBody]
      exact lineEnd_not_mem_body own
  have each : (lines.map Line.body).mapM line? = some lines := by
    clear joined whole
    induction lines with
    | nil => rfl
    | cons head tail inductionHypothesis =>
        simp [List.mapM_cons, line?_body, inductionHypothesis]
  unfold read?
  rw [joined, List.splitOn_intercalate _ whole (by simp)]
  exact each

/-! ### The lines of placed bytes -/

/-- A placed byte in front of lines. It joins the first of them if that line starts right
behind it and not at a multiple of eight. -/
def join (cell : Cell) : List Line → List Line
  | [] => [⟨cell.address, [cell.byte]⟩]
  | first :: others =>
      if first.address % 8 = 0 ∨ some (cell.address + 1) ≠ some first.address then
        ⟨cell.address, [cell.byte]⟩ :: first :: others
      else ⟨cell.address, cell.byte :: first.bytes⟩ :: others

/-- The lines that placed bytes fall into. -/
def linesOf (cells : List Cell) : List Line :=
  cells.foldr join []

theorem flatMap_cells_join (cell : Cell) (lines : List Line) :
    (join cell lines).flatMap Line.cells = cell :: lines.flatMap Line.cells := by
  have single : Cell.place cell.address [cell.byte] = [cell] := rfl
  cases lines with
  | nil => simp [join, Line.cells, single]
  | cons first others =>
      rw [join]
      split
      · simp [Line.cells, single]
      · rename_i goesOn
        have behind : cell.address + 1 = first.address := by
          simpa using (not_or.mp goesOn).2
        simp [Line.cells, Cell.place, behind]

/-- Nothing is lost: the lines put together are the placed bytes. -/
theorem flatMap_cells_linesOf (cells : List Cell) :
    (linesOf cells).flatMap Line.cells = cells := by
  induction cells with
  | nil => rfl
  | cons head tail inductionHypothesis =>
      show (join head (linesOf tail)).flatMap Line.cells = head :: tail
      rw [flatMap_cells_join, inductionHypothesis]

theorem withinRow_join (cell : Cell) {lines : List Line}
    (within : ∀ line ∈ lines, line.WithinRow) : ∀ line ∈ join cell lines, line.WithinRow := by
  have alone : Line.WithinRow ⟨cell.address, [cell.byte]⟩ := by
    refine ⟨by simp, by simp, ?_⟩
    show cell.address % 8 + 1 ≤ 8
    omega
  cases lines with
  | nil => simpa [join] using alone
  | cons first others =>
      have firstWithin := within first (by simp)
      have othersWithin : ∀ line ∈ others, line.WithinRow := fun line member =>
        within line (by simp [member])
      rw [join]
      split
      · simpa [alone, firstWithin] using othersWithin
      · rename_i goesOn
        obtain ⟨notRow, notApart⟩ := not_or.mp goesOn
        have behind : cell.address + 1 = first.address := by simpa using notApart
        have bounded := firstWithin.bounded
        have joined : Line.WithinRow ⟨cell.address, cell.byte :: first.bytes⟩ := by
          refine ⟨by simp, ?_, ?_⟩
          · show first.bytes.length + 1 ≤ 8
            omega
          · show cell.address % 8 + (first.bytes.length + 1) ≤ 8
            omega
        simpa [joined] using othersWithin

theorem withinRow_linesOf (cells : List Cell) : ∀ line ∈ linesOf cells, line.WithinRow := by
  induction cells with
  | nil => simp [linesOf]
  | cons head tail inductionHypothesis => exact withinRow_join head inductionHypothesis

/-! ### The dump of placed bytes -/

/-- The dump of bytes behind a byte whose next address is `next?`. -/
def dumpFrom : Option Nat → List Cell → Text
  | _, [] => []
  | next?, cell :: tail => ObjectCode.group next? cell ++ dumpFrom (some (cell.address + 1)) tail

theorem octal_append (object : ObjectCode) (cells : List Cell) :
    (object.append cells).octal = object.octal ++ dumpFrom object.next? cells := by
  induction cells generalizing object with
  | nil => simp [ObjectCode.append, dumpFrom]
  | cons head tail inductionHypothesis =>
      have pushed : (object.push head).octal =
          object.octal ++ ObjectCode.group object.next? head := by
        simp [ObjectCode.octal, ObjectCode.push]
      calc
        (object.append (head :: tail)).octal = ((object.push head).append tail).octal := rfl
        _ = (object.push head).octal ++ dumpFrom (object.push head).next? tail :=
          inductionHypothesis (object.push head)
        _ = object.octal ++ dumpFrom object.next? (head :: tail) := by
          rw [pushed, List.append_assoc]
          rfl

/-- What is left to dump of lines, where the first of them may go on with the line that
is being written. -/
def dumpLines (next? : Option Nat) : List Line → Text
  | [] => []
  | first :: others =>
      (if first.address % 8 = 0 ∨ next? ≠ some first.address then
        ObjectCode.lineStart first.address else []) ++
        first.groups ++ others.flatMap Line.text

/-- The dump starts a line just where one of the lines does. -/
theorem dumpFrom_eq_dumpLines (next? : Option Nat) (cells : List Cell) :
    dumpFrom next? cells = dumpLines next? (linesOf cells) := by
  induction cells generalizing next? with
  | nil => rfl
  | cons head tail inductionHypothesis =>
      show ObjectCode.group next? head ++ dumpFrom (some (head.address + 1)) tail =
        dumpLines next? (join head (linesOf tail))
      rw [inductionHypothesis]
      cases linesOf tail with
      | nil => simp [join, dumpLines, ObjectCode.group, Line.groups]
      | cons first others =>
          rw [join, dumpLines]
          by_cases starts :
              first.address % 8 = 0 ∨ some (head.address + 1) ≠ some first.address
          · rw [if_pos starts, if_pos starts, dumpLines, List.flatMap_cons]
            simp [ObjectCode.group, Line.groups, Line.text, Line.body, ObjectCode.lineStart]
          · rw [if_neg starts, if_neg starts, dumpLines]
            simp [ObjectCode.group, Line.groups]

theorem octal_eq_flatMap_text (cells : List Cell) :
    (ObjectCode.empty.append cells).octal = (linesOf cells).flatMap Line.text := by
  have nothing : ObjectCode.empty.octal = [] := rfl
  rw [octal_append, nothing, List.nil_append, dumpFrom_eq_dumpLines]
  cases linesOf cells with
  | nil => rfl
  | cons first others =>
      simp [dumpLines, ObjectCode.empty, ObjectCode.next?, Line.text, Line.body,
        ObjectCode.lineStart]

end OctalDump

/-- The octal text of an assembly is the dump of what the records emit, with a remark behind
it if the program is refused. -/
theorem octal_assemble (tokens : List Token) :
    (assemble tokens).octal =
      (ObjectCode.empty.append ((Record.ofTokens tokens).flatMap Record.cells)).octal ++
        if (assemble tokens).success then [] else Assembly.octalWarning := by
  by_cases isEmpty : tokens = []
  · rw [isEmpty]
    rfl
  · rw [assemble_eq_ofOutput isEmpty]
    unfold Assembly.ofOutput
    split
    · show (ObjectCode.empty.append _).octal = (ObjectCode.empty.append _).octal ++ []
      rw [List.append_nil]
    · rename_i faulty
      have refused : (Output.empty.append (Record.ofTokens tokens)).diagnostics.isEmpty = false :=
        Bool.eq_false_iff.mpr faulty
      simp only [Assembly.octal, Assembly.success, refused, Bool.false_eq_true, ↓reduceIte]
      simp [ObjectCode.octal, ObjectCode.annotate, Output.append, Output.empty]

/-- The octal dump determines the image with its addresses. Reading the dump of placed bytes
gives the bytes back at their addresses and in their order; each line holds one to eight bytes
and ends before the next multiple of eight; and the byte list and the hexadecimal text hold
the same bytes in the same order. So the octal text of an assembly, less the remark that it
ends in if the program is refused, tells every byte that the second pass emits, and where. -/
theorem octal_dump_recovers_cells :
    (∀ cells : List Cell, ∃ lines,
      OctalDump.read? (ObjectCode.empty.append cells).octal = some lines ∧
        lines.flatMap OctalDump.Line.cells = cells ∧
        (∀ line ∈ lines, line.WithinRow) ∧
        (ObjectCode.empty.append cells).bytes = cells.map Cell.byte ∧
        Hex.decode (ObjectCode.empty.append cells).hex = .ok (cells.map Cell.byte)) ∧
      ∀ tokens, ∃ dump lines,
        (assemble tokens).octal =
            dump ++ (if (assemble tokens).success then [] else Assembly.octalWarning) ∧
          OctalDump.read? dump = some lines ∧
          lines.flatMap OctalDump.Line.cells = (Record.ofTokens tokens).flatMap Record.cells := by
  have recovered (cells : List Cell) :
      OctalDump.read? (ObjectCode.empty.append cells).octal = some (OctalDump.linesOf cells) := by
    rw [OctalDump.octal_eq_flatMap_text, OctalDump.read?_text]
  constructor
  · intro cells
    have bytes : (ObjectCode.empty.append cells).bytes = cells.map Cell.byte := by
      rw [ObjectCode.bytes, ObjectCode.cells_append]
      rfl
    refine ⟨OctalDump.linesOf cells, recovered cells, OctalDump.flatMap_cells_linesOf cells,
      OctalDump.withinRow_linesOf cells, bytes, ?_⟩
    rw [ObjectCode.hex, bytes, Hex.decode_hexBytes]
  · intro tokens
    exact ⟨_, _, octal_assemble tokens, recovered _, OctalDump.flatMap_cells_linesOf _⟩

/-- A dump that passes a multiple of eight and then goes back. -/
example : OctalDump.read? "\n006: 001 002 \n010: 003 \n005: 377 ".toList =
    some [⟨6, [1, 2]⟩, ⟨8, [3]⟩, ⟨5, [255]⟩] := by
  decide +kernel

end Asm8080
