import Asm8080.Assembler
import Asm8080.Text.Json

/-!
Contract: an assembly as text for a reader or a program.

Owns:
- the choice of sections;
- the plain report;
- the report for other programs, as data and as a JSON value with the members of the
  chosen sections only;
- the JSON report, whose text a serializer writes.

Does not own: where a report is sent.
-/

namespace Asm8080

/-- Which parts of an assembly a report shows. -/
structure Sections where
  listing : Bool
  octal : Bool
  hex : Bool
deriving DecidableEq, Repr

namespace Sections

def all : Sections :=
  ⟨true, true, true⟩

def any (sections : Sections) : Bool :=
  sections.listing || sections.octal || sections.hex

end Sections

/-- The form of a report. -/
inductive ReportFormat where
  | text
  | json
deriving DecidableEq, Repr

/-- The parts of an assembly that a report for other programs shows. A section that is
not chosen has no content. -/
structure AssemblyReport where
  origin : UInt16
  success : Bool
  /-- The number of bytes emitted. -/
  size : Nat
  hex : Option Text
  octal : Option Text
  listing : Option Text
  errors : List Text
deriving DecidableEq, Repr

namespace AssemblyReport

def ofAssembly (sections : Sections) (assembly : Assembly) : AssemblyReport where
  origin := assembly.origin
  success := assembly.success
  size := assembly.bytes.length
  hex := if sections.hex then some assembly.hex else none
  octal := if sections.octal then some assembly.octal else none
  listing := if sections.listing then some assembly.listing else none
  errors := assembly.diagnostics.map Diagnostic.message

/-- The member of a section, if it is chosen. -/
def sectionMember (name : String) : Option Text → List (Text × JsonValue)
  | some content => [(name.toList, .string content)]
  | none => []

/-- The report as an object, its members in the order of the fields. -/
def value (report : AssemblyReport) : JsonValue :=
  .object <|
    [("origin".toList, .number report.origin.toNat),
      ("success".toList, .boolean report.success),
      ("size".toList, .number report.size)] ++
    sectionMember "hex" report.hex ++
    sectionMember "octal" report.octal ++
    sectionMember "listing" report.listing ++
    [("errors".toList, .array (report.errors.map .string))]

/-- The text of the object, indented by two spaces. -/
def text (report : AssemblyReport) : Text :=
  report.value.pretty 0

end AssemblyReport

/-- Writes a report as JSON, or tells why it cannot. -/
abbrev Serializer := AssemblyReport → Except Text Text

namespace Report

/-- The text, if the section that it belongs to is chosen. -/
def whenShown (chosen : Bool) (content : Text) : Text :=
  if chosen then content else []

/-- The plain report. The origin closes it in any case. -/
def plain (sections : Sections) (assembly : Assembly) : Text :=
  whenShown sections.listing ("; Assembled code\n\n".toList ++ assembly.listing) ++
    whenShown sections.octal ("\n\n; Octal".toList ++ assembly.octal) ++
    whenShown sections.hex ("\n\n; Hex\n".toList ++ assembly.hex) ++
    "\n\n; ORG address: ".toList ++ Numeral.hexWord assembly.origin ++ "h\n".toList

/-- The JSON report, with a line end behind the text of the serializer. -/
def json (serialize : Serializer) (sections : Sections) (assembly : Assembly) :
    Except Text Text :=
  (serialize (AssemblyReport.ofAssembly sections assembly)).map (· ++ ['\n'])

/-- The report in a form, or the reason why there is none. -/
def render (serialize : Serializer) :
    ReportFormat → Sections → Assembly → Except Text Text
  | .text, sections, assembly => .ok (plain sections assembly)
  | .json, sections, assembly => json serialize sections assembly

end Report

end Asm8080
