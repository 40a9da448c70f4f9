import Asm8080.Machine.Core
import Asm8080.Object.Hex

/-!
Contract: a small core that stands in for a processor.

Owns: a core that walks through memory one byte at a time, stops at a halt
instruction, and sends each byte of console input back as output.

Does not own: the meaning of any instruction but the halt.
-/

namespace Asm8080

/-- The state of the stand-in core. -/
structure EchoCore where
  memory : List UInt8
  origin : UInt16
  pc : Nat
  bus : UInt16
  input : List UInt8
  output : List UInt8
  loads : Nat
  resets : Nat
deriving DecidableEq, Repr

namespace EchoCore

def initial : EchoCore :=
  ⟨[], 0, 0, 0, [], [], 0, 0⟩

def halt : UInt8 :=
  0x76

/-- The byte at the program counter, if it is inside the loaded image. -/
def opcode? (core : EchoCore) : Option UInt8 :=
  if core.origin.toNat ≤ core.pc then core.memory[core.pc - core.origin.toNat]? else none

/-- Loads an image. A text that is no image loads nothing. -/
def load (hex : Text) (origin : UInt16) (core : EchoCore) : EchoCore :=
  { core with
    memory := (Hex.decode hex).toOption.getD []
    origin := origin
    loads := core.loads + 1 }

/-- Returns to the origin. -/
def reset (core : EchoCore) : EchoCore :=
  { core with pc := core.origin.toNat, resets := core.resets + 1 }

/-- Moves to the next byte, unless at a halt. -/
def move (core : EchoCore) : EchoCore :=
  if core.opcode? = some halt then core else { core with pc := core.pc + 1 }

def echo (core : EchoCore) : EchoCore :=
  match core.input with
  | [] => core
  | byte :: rest => { core with input := rest, output := core.output ++ [byte] }

def step (core : EchoCore) : EchoCore :=
  core.move.echo

def run (core : EchoCore) : EchoCore :=
  core.step.step.step.step

def takeChar (core : EchoCore) : Option (UInt8 × EchoCore) :=
  match core.output with
  | [] => none
  | byte :: rest => some (byte, { core with output := rest })

/-- Each byte taken leaves one less. -/
theorem output_length_takeChar (core : EchoCore) (byte : UInt8) (rest : EchoCore)
    (taken : core.takeChar = some (byte, rest)) :
    rest.output.length < core.output.length := by
  unfold takeChar at taken
  split at taken
  · cases taken
  · rename_i head tail outputEq
    cases taken
    simp [outputEq]

end EchoCore

instance : Core EchoCore where
  load := EchoCore.load
  reset := EchoCore.reset
  step := EchoCore.step
  run := EchoCore.run
  currentAddress := EchoCore.pc
  addressBus := EchoCore.bus
  dataBus := fun core => core.opcode?.getD 0
  putChar := fun byte core => { core with input := core.input ++ [byte] }
  takeChar := EchoCore.takeChar
  waitingForInput := fun core => core.input.isEmpty
  pending := fun core => core.output.length
  pending_takeChar := EchoCore.output_length_takeChar

end Asm8080
