import Asm8080.Command.Arguments
import Asm8080.Command.FileTree
import Asm8080.Command.Help
import Asm8080.Sample

/-!
Contract: one invocation of the program.

Owns:
- the host, the few things that an invocation asks of its surroundings;
- loading the source, assembling it, rendering the report and sending it to its
  destination;
- the faults of an invocation, and the exit status.

Does not own: the surroundings. A world of files in memory serves as one host, the
operating system as another.
-/

namespace Asm8080

/-- What an invocation asks of its surroundings. -/
structure Host (m : Type → Type) where
  /-- The bytes of a file. -/
  readFile : Text → m (Except FileFault (List UInt8))
  /-- Replaces or creates a file. -/
  writeFile : Text → Text → m (Except FileFault Unit)
  /-- Writes to the standard output, to the end of the text or to a fault. -/
  print : Text → m (Except FileFault Unit)
  /-- Writes an event to the journal. -/
  record : Event → m Unit
  /-- Tells the user that the command line is no request. -/
  complain : UsageFault → m Unit
  /-- Writes the JSON text of a report. -/
  serialize : Serializer

/-- Why an invocation fails. -/
inductive InvocationFault where
  | read (path : Text) (fault : FileFault)
  | write (path : Text) (fault : FileFault)
  | unknownSample (name : Text)
  | print (fault : FileFault)
  | serialize (reason : Text)
  | assemblyFailed (count : Nat) (name : Text)
deriving DecidableEq, Repr

def InvocationFault.message : InvocationFault → Text
  | .read path fault => "cannot read ".toList ++ path ++ ": ".toList ++ fault.message
  | .write path fault => "cannot write ".toList ++ path ++ ": ".toList ++ fault.message
  | .unknownSample name =>
      "unknown sample `".toList ++ name ++ "` (available: ".toList ++
        ", ".toList.intercalate Sample.names ++ ")".toList
  | .print fault => "failed to write output: ".toList ++ fault.message
  | .serialize reason => "failed to serialize report: ".toList ++ reason
  | .assemblyFailed count name =>
      Numeral.decimal count ++ " error(s) in ".toList ++ name

namespace Invocation

/-- A source with the name by which messages call it. -/
structure Loaded where
  name : Text
  source : Text
deriving DecidableEq, Repr

def decode (path : Text) (bytes : List UInt8) : Except InvocationFault Loaded :=
  match Utf8.decode? bytes with
  | some source => .ok ⟨path, source⟩
  | none => .error (.read path .notText)

def loadSample (name : Text) : Except InvocationFault Loaded :=
  match Sample.find? name with
  | some sample => .ok ⟨sample.name, sample.source⟩
  | none => .error (.unknownSample name)

/-- What the run over a source shows: the events up to the report, the report
itself or the reason why there is none, and the assembly. -/
structure Outcome where
  events : List Event
  report : Except Text Text
  assembly : Assembly

def outcome (serialize : Serializer) (arguments : Arguments) (loaded : Loaded) : Outcome :=
  let tokenized := Tokenized.ofSource loaded.source
  let (assembly, state) := Assembler.initial.assemble tokenized.tokens
  { events :=
      Journal.command .info ("assembling ".toList ++ loaded.name) [] ::
        Journal.ofTokenized tokenized :: Journal.ofAssembler state ++
        assembly.diagnostics.map fun diagnostic =>
          Journal.command .warn (loaded.name ++ ": ".toList ++ diagnostic.message) []
    report := Report.render serialize arguments.format arguments.sections assembly
    assembly := assembly }

def verdict (loaded : Loaded) (assembly : Assembly) : Except InvocationFault Unit :=
  if assembly.success then .ok ()
  else .error (.assemblyFailed assembly.diagnostics.length loaded.name)

/-- The event between the rendering of a report and its sending. -/
def writingEvent : Event :=
  Journal.command .trace "writing".toList []

def successEvent (loaded : Loaded) (assembly : Assembly) : Event :=
  Journal.command .debug ("assembled ".toList ++ loaded.name)
    [.count "bytes" assembly.bytes.length]

section

variable {m : Type → Type} [Monad m]

/-- Loads the source that a request names: a sample, or else a file. -/
def load (host : Host m) (arguments : Arguments) : m (Except InvocationFault Loaded) :=
  match arguments.sample with
  | some name => pure (loadSample name)
  | none => do
      let path := arguments.source.getD []
      match ← host.readFile path with
      | .ok bytes => pure (decode path bytes)
      | .error fault => pure (.error (.read path fault))

/-- Sends a report to the output file, or to the standard output if there is
none. -/
def deliver (host : Host m) (output : Option Text) (report : Text) :
    m (Except InvocationFault Unit) :=
  match output with
  | none => do
      match ← host.print report with
      | .ok () => pure (.ok ())
      | .error fault => pure (.error (.print fault))
  | some path => do
      match ← host.writeFile path report with
      | .ok () => pure (.ok ())
      | .error fault => pure (.error (.write path fault))

/-- Writes an event if the request's journal shows its level. -/
def note (host : Host m) (arguments : Arguments) (event : Event) : m Unit :=
  if arguments.level.shows event.level then host.record event else pure ()

def noteAll (host : Host m) (arguments : Arguments) : List Event → m Unit
  | [] => pure ()
  | event :: rest => do
      note host arguments event
      noteAll host arguments rest

/-- Sends a report and tells how the request went: a report that could not be sent is
a fault before any fault of the program. -/
def conclude (host : Host m) (arguments : Arguments) (loaded : Loaded) (assembly : Assembly)
    (report : Text) : m (Except InvocationFault Unit) := do
  note host arguments writingEvent
  match ← deliver host arguments.output report with
  | .error fault => pure (.error fault)
  | .ok () =>
      if assembly.success then note host arguments (successEvent loaded assembly)
      pure (verdict loaded assembly)

/-- Carries out a request. The report is sent even if the program has faults. -/
def execute (host : Host m) (arguments : Arguments) : m (Except InvocationFault Unit) := do
  match ← load host arguments with
  | .error fault => pure (.error fault)
  | .ok loaded =>
      let outcome := outcome host.serialize arguments loaded
      noteAll host arguments outcome.events
      match outcome.report with
      | .error reason => pure (.error (.serialize reason))
      | .ok report => conclude host arguments loaded outcome.assembly report

/-- Runs the program on the words of its command line. The result is the exit
status: zero for success and for information, even if that cannot be printed, one
for a fault, two for a command line that is no request. -/
def run (host : Host m) (words : List Text) : m UInt32 := do
  match Arguments.parse words with
  | .error (.displayHelp long) =>
      let _ ← host.print (Help.text long)
      pure 0
  | .error .displayVersion =>
      let _ ← host.print Help.version
      pure 0
  | .error fault =>
      host.complain fault
      pure 2
  | .ok arguments =>
      match ← execute host arguments with
      | .ok () => pure 0
      | .error fault =>
          note host arguments (Journal.program .error fault.message)
          pure 1

end

end Invocation

/-- A standard output in memory: what was printed, and the fault with which it refuses
every text, if it does. -/
structure Printer where
  printed : Text
  refusal : Option FileFault
deriving DecidableEq, Repr

namespace Printer

def print (printer : Printer) (text : Text) : Except FileFault Unit × Printer :=
  match printer.refusal with
  | some fault => (.error fault, printer)
  | none => (.ok (), { printer with printed := printer.printed ++ text })

end Printer

/-- Surroundings in memory: the files, the standard output, and the journal. -/
structure World where
  files : FileTree
  printer : Printer
  journal : List Event
  complaints : List UsageFault
deriving DecidableEq, Repr

namespace World

/-- A world with files and an empty standard output that takes every text. -/
def ofFiles (files : FileTree) : World :=
  ⟨files, ⟨[], none⟩, [], []⟩

def printed (world : World) : Text :=
  world.printer.printed

/-- The world as a host. A failed write leaves the files as they were. -/
def host : Host (StateM World) where
  readFile path := do
    return (← get).files.read path
  writeFile path text := do
    let world ← get
    match world.files.write path (Utf8.encode text) with
    | .ok files =>
        set { world with files := files }
        return .ok ()
    | .error fault => return .error fault
  print text := do
    let world ← get
    let (result, printer) := world.printer.print text
    set { world with printer := printer }
    return result
  record event := modify fun world => { world with journal := world.journal ++ [event] }
  complain fault := modify fun world => { world with complaints := world.complaints ++ [fault] }
  serialize report := .ok report.text

end World

end Asm8080
