import Asm8080.Command.Journal
import Asm8080.Report

/-!
Contract: the words of a command line read as a request.

Owns:
- the request: source or sample, form and sections of the report, output file and
  journal level;
- the spelling of options, with values behind a space, an equals sign or directly
  behind a short option;
- the order in which faults are found. The value of an option is judged when the
  next argument that is no value settles it, so that an unknown argument is found
  before a bad value in front of it.

Does not own: what is done with a request.
-/

namespace Asm8080

/-- Why a command line is no request, or asks for information only. -/
inductive UsageFault where
  | unknownArgument
  | invalidValue
  | tooManyValues
  | valueValidation
  | argumentConflict
  | missingRequiredArgument
  | displayHelp (long : Bool)
  | displayVersion
deriving DecidableEq, Repr

/-- A request. Exactly one of source and sample is given. -/
structure Arguments where
  source : Option Text
  sample : Option Text
  format : ReportFormat
  flags : Sections
  output : Option Text
  level : Level
deriving DecidableEq, Repr

namespace Arguments

/-- The sections that a request asks for: every one if it names none. -/
def sections (arguments : Arguments) : Sections :=
  if arguments.flags.any then arguments.flags else Sections.all

end Arguments

namespace CommandLine

/-- A part of a request that has a value. -/
inductive Slot where
  | source
  | sample
  | format
  | output
  | level
deriving DecidableEq, Repr

/-- A part of a request that is there or not. -/
inductive Flag where
  | listing
  | octal
  | hex
deriving DecidableEq, Repr

/-- What an option is for. -/
inductive Switch where
  | flag (flag : Flag)
  | value (slot : Slot)
  | help (long : Bool)
  | version
deriving DecidableEq, Repr

def longSwitches : List (Text × Switch) :=
  [("sample".toList, .value .sample), ("format".toList, .value .format),
    ("listing".toList, .flag .listing), ("octal".toList, .flag .octal),
    ("hex".toList, .flag .hex), ("output".toList, .value .output),
    ("log-level".toList, .value .level), ("help".toList, .help true),
    ("version".toList, .version)]

def shortSwitches : List (Char × Switch) :=
  [('s', .value .sample), ('l', .flag .listing), ('x', .flag .hex), ('o', .value .output),
    ('h', .help false), ('V', .version)]

/-- The parts of a request that are settled so far. -/
structure Settings where
  source : Option Text
  sample : Option Text
  format : Option ReportFormat
  flags : Sections
  output : Option Text
  level : Option Level
deriving DecidableEq, Repr

namespace Settings

def empty : Settings :=
  ⟨none, none, none, ⟨false, false, false⟩, none, none⟩

def has (settings : Settings) : Slot → Bool
  | .source => settings.source.isSome
  | .sample => settings.sample.isSome
  | .format => settings.format.isSome
  | .output => settings.output.isSome
  | .level => settings.level.isSome

def raised (settings : Settings) : Flag → Bool
  | .listing => settings.flags.listing
  | .octal => settings.flags.octal
  | .hex => settings.flags.hex

/-- Raises a flag, which can be done once. -/
def raise (settings : Settings) (flag : Flag) : Except UsageFault Settings :=
  if settings.raised flag then .error .argumentConflict
  else
    .ok { settings with
      flags := match flag with
        | .listing => { settings.flags with listing := true }
        | .octal => { settings.flags with octal := true }
        | .hex => { settings.flags with hex := true } }

/-- A path, which is not empty. -/
def path (value : Text) : Except UsageFault Text :=
  if value.isEmpty then .error .invalidValue else .ok value

/-- The form that a text names, letter for letter. -/
def formatOf (value : Text) : Except UsageFault ReportFormat :=
  if value = "text".toList then .ok .text
  else if value = "json".toList then .ok .json
  else .error .invalidValue

def levelOf (value : Text) : Except UsageFault Level :=
  match Level.ofText? value with
  | some level => .ok level
  | none => .error .valueValidation

def put (settings : Settings) (slot : Slot) (value : Text) : Except UsageFault Settings :=
  match slot with
  | .source => (path value).map fun checked => { settings with source := some checked }
  | .sample => .ok { settings with sample := some value }
  | .format => (formatOf value).map fun checked => { settings with format := some checked }
  | .output => (path value).map fun checked => { settings with output := some checked }
  | .level => (levelOf value).map fun checked => { settings with level := some checked }

/-- Settles a slot. A missing value is found first, then a second value for the
same slot, then a bad value. -/
def settle (settings : Settings) (slot : Slot) : Option Text → Except UsageFault Settings
  | none => .error .invalidValue
  | some value => if settings.has slot then .error .argumentConflict else settings.put slot value

end Settings

/-- The state of reading: the settled parts, the slot that is being filled with
the value it may have got, and whether only positional arguments follow. -/
structure Reading where
  settings : Settings
  pending : Option (Slot × Option Text)
  trailing : Bool
deriving DecidableEq, Repr

namespace Reading

def initial : Reading :=
  ⟨Settings.empty, none, false⟩

def resolve (reading : Reading) : Except UsageFault Reading :=
  match reading.pending with
  | none => .ok reading
  | some (slot, value) =>
      (reading.settings.settle slot value).map fun settings =>
        { reading with settings := settings, pending := none }

def readFlag (reading : Reading) (flag : Flag) : Except UsageFault Reading := do
  let resolved ← reading.resolve
  let settings ← resolved.settings.raise flag
  return { resolved with settings := settings }

def readAttached (reading : Reading) (slot : Slot) (value : Text) :
    Except UsageFault Reading := do
  let resolved ← reading.resolve
  let settings ← resolved.settings.settle slot (some value)
  return { resolved with settings := settings }

def awaitValue (reading : Reading) (slot : Slot) : Except UsageFault Reading := do
  let resolved ← reading.resolve
  return { resolved with pending := some (slot, none) }

def readInformation (reading : Reading) (request : UsageFault) : Except UsageFault Reading := do
  let _ ← reading.resolve
  throw request

/-- Reads an option of two dashes; `attached` is the text behind its equals sign.
A name that is no option, and a value for an option that has none, are found
before any fault of the pending slot. -/
def readLong (reading : Reading) (name : Text) (attached : Option Text) :
    Except UsageFault Reading :=
  match longSwitches.lookup name, attached with
  | none, _ => .error .unknownArgument
  | some (.value slot), some value => reading.readAttached slot value
  | some (.value slot), none => reading.awaitValue slot
  | some _, some _ => .error .tooManyValues
  | some (.flag flag), none => reading.readFlag flag
  | some (.help long), none => reading.readInformation (.displayHelp long)
  | some .version, none => reading.readInformation .displayVersion

/-- The value behind a short option: an equals sign in front does not count. -/
def attachedValue : Text → Text
  | '=' :: value => value
  | value => value

/-- Reads the letters behind one dash. Flags can follow each other; the rest
behind an option with a value is that value. -/
def readShort (reading : Reading) : Text → Except UsageFault Reading
  | [] => .ok reading
  | letter :: rest =>
      match shortSwitches.lookup letter with
      | none => .error .unknownArgument
      | some (.flag flag) =>
          match reading.readFlag flag with
          | .ok next => readShort next rest
          | .error fault => .error fault
      | some (.value slot) =>
          if rest.isEmpty then reading.awaitValue slot
          else reading.readAttached slot (attachedValue rest)
      | some (.help long) => reading.readInformation (.displayHelp long)
      | some .version => reading.readInformation .displayVersion

def hasSource (reading : Reading) : Bool :=
  reading.settings.has .source || reading.pending.any fun pending => pending.1 == .source

/-- Reads a positional argument. There is place for one. -/
def readPositional (reading : Reading) (argument : Text) : Except UsageFault Reading :=
  if reading.hasSource then .error .unknownArgument
  else do
    let resolved ← reading.resolve
    return { resolved with pending := some (.source, some argument) }

/-- Reads an argument that is no option: the value that an option waits for, or a
positional argument. -/
def readPlain (reading : Reading) (argument : Text) : Except UsageFault Reading :=
  match reading.pending with
  | some (slot, none) => .ok { reading with pending := some (slot, some argument) }
  | _ => reading.readPositional argument

/-- The name of an option of two dashes, and the text behind its equals sign. -/
def splitLong (argument : Text) : Text × Option Text :=
  let name := argument.takeWhile fun character => character != '='
  match argument.dropWhile fun character => character != '=' with
  | [] => (name, none)
  | _ :: value => (name, some value)

def readArgument (reading : Reading) (argument : Text) : Except UsageFault Reading :=
  if reading.trailing then reading.readPositional argument
  else
    match argument with
    | ['-', '-'] => .ok { reading with trailing := true }
    | '-' :: '-' :: option =>
        let (name, attached) := splitLong option
        reading.readLong name attached
    | '-' :: letter :: letters => reading.readShort (letter :: letters)
    | _ => reading.readPlain argument

/-- The request, once all arguments are read. -/
def finish (reading : Reading) : Except UsageFault Arguments := do
  let resolved ← reading.resolve
  let settings := resolved.settings
  if settings.has .source && settings.has .sample then throw .argumentConflict
  if !settings.has .source && !settings.has .sample then throw .missingRequiredArgument
  return {
    source := settings.source
    sample := settings.sample
    format := settings.format.getD .text
    flags := settings.flags
    output := settings.output
    level := settings.level.getD .warn }

end Reading

end CommandLine

/-- Reads the words of a command line, the program's own name left out. -/
def Arguments.parse (words : List Text) : Except UsageFault Arguments := do
  let reading ← words.foldlM CommandLine.Reading.readArgument CommandLine.Reading.initial
  reading.finish

end Asm8080
