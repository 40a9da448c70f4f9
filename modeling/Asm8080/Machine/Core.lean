import Asm8080.Text.Basic

/-!
Contract: the outside processor core that runs a program.

Owns: the calls that a core offers, with the law that its console output runs
dry, and the taking of all pending output.

Does not own: fetching, decoding and executing instructions.
-/

namespace Asm8080

/-- The calls of a processor core with states in `σ`. `pending` bounds how many
characters can be taken before the core has none left. -/
class Core (σ : Type) where
  /-- Loads an image in hexadecimal at an origin. -/
  load : Text → UInt16 → σ → σ
  /-- Returns to the origin. -/
  reset : σ → σ
  /-- Executes one instruction. -/
  step : σ → σ
  /-- Executes a batch of instructions. -/
  run : σ → σ
  /-- The program counter, which may exceed sixteen bits once a program runs off
  the end. -/
  currentAddress : σ → Nat
  /-- The value on the address bus. -/
  addressBus : σ → UInt16
  /-- The value on the data bus. -/
  dataBus : σ → UInt8
  /-- Queues one byte of console input. -/
  putChar : UInt8 → σ → σ
  /-- Takes one byte of console output, if there is one. -/
  takeChar : σ → Option (UInt8 × σ)
  /-- Whether no console input is queued. -/
  waitingForInput : σ → Bool
  /-- A bound on the characters that can still be taken. -/
  pending : σ → Nat
  pending_takeChar : ∀ core byte rest, takeChar core = some (byte, rest) →
    pending rest < pending core

namespace Core

variable {σ : Type} [Core σ]

/-- Takes all console output, in order. -/
def drain (core : σ) : List UInt8 × σ :=
  match _taken : takeChar core with
  | none => ([], core)
  | some (byte, rest) =>
      let (bytes, dry) := drain rest
      (byte :: bytes, dry)
termination_by pending core
decreasing_by exact pending_takeChar core byte rest _taken

/-- Queues bytes of console input, in order. -/
def putAll (bytes : List UInt8) (core : σ) : σ :=
  bytes.foldl (fun state byte => putChar byte state) core

end Core

end Asm8080
