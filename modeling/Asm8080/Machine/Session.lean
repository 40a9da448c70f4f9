import Asm8080.Assembler
import Asm8080.Machine.Core
import Asm8080.Machine.Panel
import Asm8080.Text.Utf8

/-!
Contract: sessions, each of which drives a program on a core that others may
share.

Owns:
- the session's own state, the launched listing and the console text;
- the calls of a session, each as one whole operation. A call that needs a launched
  program checks that before the core's lock;
- the bound on the console text.

Does not own: the order in which several sessions call, and what could happen inside
a call. A step and a batch of instructions take the core's lock a second time to
collect the console text; no other session is let in between the two.
-/

namespace Asm8080

/-- Why a call fails. -/
inductive SessionFault where
  | assemblyFailed
  | emptyProgram
  | notLaunched
  | poisoned
deriving DecidableEq, Repr

def SessionFault.message : SessionFault → Text
  | .assemblyFailed => "assembly contains errors".toList
  | .emptyProgram => "no code to run".toList
  | .notLaunched => "no program launched".toList
  | .poisoned => "machine lock poisoned".toList

/-- What a session keeps for itself. -/
structure Session where
  listing : Option Text
  console : Text
deriving DecidableEq, Repr

namespace Session

def initial : Session :=
  ⟨none, []⟩

def isLaunched (session : Session) : Bool :=
  session.listing.isSome

end Session

/-- Whether a batch of instructions left the program running. -/
inductive RunState where
  | running
  | stopped
deriving DecidableEq, Repr

/-- The console text that is kept before it is trimmed. -/
def consoleLimit : Nat :=
  5000

/-- The console text that remains when it is trimmed. -/
def consoleKeep : Nat :=
  4000

/-- The console text cut to its end, once it is too long. -/
def trimConsole (console : Text) : Text :=
  if consoleLimit < console.length then console.drop (console.length - consoleKeep) else console

/-- The character of a console byte: the code point of the same number. -/
def consoleChar (byte : UInt8) : Char :=
  Char.ofNat byte.toNat

/-- A session at its core. The lock is poisoned once a holder of it failed. -/
structure Seat (σ : Type) where
  core : σ
  poisoned : Bool
  session : Session
deriving DecidableEq, Repr

/-- A call of a session: it answers or fails, and leaves a seat behind. -/
abbrev Call (σ α : Type) := Seat σ → Except SessionFault α × Seat σ

namespace Seat

variable {σ : Type} [Core σ]

def change (seat : Seat σ) (update : σ → σ) : Seat σ :=
  { seat with core := update seat.core }

/-- Moves the pending output of the core to the console. -/
def collect (seat : Seat σ) : Seat σ :=
  let (bytes, dry) := Core.drain seat.core
  { seat with
    core := dry
    session := { seat.session with
      console := trimConsole (seat.session.console ++ bytes.map consoleChar) } }

def counter (seat : Seat σ) : Nat :=
  Core.currentAddress seat.core

/-- The seat with a program loaded and started. -/
def started (seat : Seat σ) (assembly : Assembly) : Seat σ :=
  { seat with
    core := Core.reset (Core.load assembly.hex assembly.origin seat.core)
    session := ⟨some assembly.listing, []⟩ }

end Seat

namespace Call

variable {σ α : Type} [Core σ]

/-- Fails and leaves the seat as it was. -/
def fail (fault : SessionFault) : Call σ α :=
  fun seat => (.error fault, seat)

/-- Carries out an action that needs the core's lock. -/
def locked (action : Seat σ → α × Seat σ) : Call σ α :=
  fun seat =>
    if seat.poisoned then fail .poisoned seat
    else
      let (answer, left) := action seat
      (.ok answer, left)

/-- Carries out an action that needs a launched program and the core's lock. -/
def launched (action : Seat σ → α × Seat σ) : Call σ α :=
  fun seat =>
    if seat.session.isLaunched then locked action seat else fail .notLaunched seat

/-- Loads a program and starts at its origin. An assembly with faults or without
bytes is refused. -/
def launch (assembly : Assembly) : Call σ Unit :=
  if !assembly.success then fail .assemblyFailed
  else if assembly.hex.isEmpty then fail .emptyProgram
  else locked fun seat => ((), seat.started assembly)

/-- Executes one instruction; the answer is the program counter behind it. -/
def step : Call σ Nat :=
  launched fun seat =>
    let stepped := seat.change Core.step
    (stepped.counter, stepped.collect)

/-- Returns the core to its origin. -/
def reset : Call σ Unit :=
  launched fun seat => ((), seat.change Core.reset)

/-- The highest program counter at which a program still counts as running. -/
def counterLimit : Nat :=
  0x10000

/-- The outcome of a batch of instructions. The program has stopped if its counter
did not move or has left the address space. -/
def runState (before after : Nat) : RunState :=
  if before = after ∨ counterLimit < after then .stopped else .running

def runSlice : Call σ RunState :=
  launched fun seat =>
    let batch := seat.change Core.run
    (runState seat.counter batch.counter, batch.collect)

/-- Takes the console text. No program need be launched. -/
def drainConsole : Call σ Text :=
  locked fun seat =>
    let collected := seat.collect
    (collected.session.console,
      { collected with session := { collected.session with console := [] } })

/-- Queues text as console input, byte by byte. -/
def sendInput (text : Text) : Call σ Unit :=
  launched fun seat => ((), seat.change (Core.putAll (Utf8.encode text)))

def waitingForInput : Call σ Bool :=
  launched fun seat => (Core.waitingForInput seat.core, seat)

def currentAddress : Call σ Nat :=
  launched fun seat => (seat.counter, seat)

/-- The front panel. The address lamps of a running program follow the address
bus, those of a stopped one show the program counter. -/
def panel (running : Bool) : Call σ Panel :=
  launched fun seat =>
    ({ address := if running then Core.addressBus seat.core else UInt16.ofNat seat.counter
       data := Core.dataBus seat.core }, seat)

/-- The launched listing with the lines at the program counter marked. -/
def highlightedListing : Call σ Text :=
  launched fun seat =>
    (highlight (seat.session.listing.getD []) (UInt16.ofNat seat.counter), seat)

end Call

end Asm8080
