import Asm8080.Machine.Session

/-!
Contract: several sessions around one core.

Owns:
- the calls of a session as values, and their replies;
- the workbench, a core with its lock and the sessions that share it;
- what can happen at a workbench: a whole call of one session, a change of the core
  from outside, and the poisoning of the lock;
- the run over a history of such events.

Does not own: what a call does.
-/

namespace Asm8080

/-- A call of a session. -/
inductive Command where
  | launch (assembly : Assembly)
  | step
  | reset
  | runSlice
  | drainConsole
  | sendInput (text : Text)
  | waitingForInput
  | currentAddress
  | panel (running : Bool)
  | highlightedListing
deriving DecidableEq, Repr

/-- What a call answers. -/
inductive Reply where
  | done
  | counter (pc : Nat)
  | state (value : RunState)
  | text (content : Text)
  | flag (value : Bool)
  | panel (value : Panel)
deriving DecidableEq, Repr

def Call.replying {σ α : Type} (call : Call σ α) (reply : α → Reply) : Call σ Reply :=
  fun seat =>
    match call seat with
    | (.ok answer, left) => (.ok (reply answer), left)
    | (.error fault, left) => (.error fault, left)

def Command.call {σ : Type} [Core σ] : Command → Call σ Reply
  | .launch assembly => (Call.launch assembly).replying fun _ => .done
  | .step => Call.step.replying .counter
  | .reset => Call.reset.replying fun _ => .done
  | .runSlice => Call.runSlice.replying .state
  | .drainConsole => Call.drainConsole.replying .text
  | .sendInput text => (Call.sendInput text).replying fun _ => .done
  | .waitingForInput => Call.waitingForInput.replying .flag
  | .currentAddress => Call.currentAddress.replying .counter
  | .panel running => (Call.panel running).replying .panel
  | .highlightedListing => Call.highlightedListing.replying .text

/-- A core, its lock, and the sessions that share them. -/
structure Workbench (σ : Type) where
  core : σ
  poisoned : Bool
  sessions : List Session
deriving DecidableEq, Repr

namespace Workbench

variable {σ : Type} [Core σ]

def initial (core : σ) (count : Nat) : Workbench σ :=
  ⟨core, false, List.replicate count Session.initial⟩

def seat (bench : Workbench σ) (session : Session) : Seat σ :=
  ⟨bench.core, bench.poisoned, session⟩

/-- The workbench after the session at `index` has left its seat. -/
def leave (bench : Workbench σ) (index : Nat) (seat : Seat σ) : Workbench σ where
  core := seat.core
  poisoned := seat.poisoned
  sessions := bench.sessions.set index seat.session

/-- Lets the session at `index` carry out a command. There is no reply if there is
no such session. -/
def carryOut (bench : Workbench σ) (index : Nat) (command : Command) :
    Option (Except SessionFault Reply) × Workbench σ :=
  match bench.sessions[index]? with
  | none => (none, bench)
  | some session =>
      let (reply, seat) := command.call (bench.seat session)
      (some reply, bench.leave index seat)

/-- Changes the core from outside, which needs its lock. -/
def disturb (bench : Workbench σ) (update : σ → σ) : Workbench σ :=
  if bench.poisoned then bench else { bench with core := update bench.core }

def poison (bench : Workbench σ) : Workbench σ :=
  { bench with poisoned := true }

/-- What can happen at a workbench. -/
inductive Event (σ : Type) where
  | call (index : Nat) (command : Command)
  | disturbance (update : σ → σ)
  | poisoning

def after (bench : Workbench σ) : Event σ → Workbench σ
  | .call index command => (bench.carryOut index command).2
  | .disturbance update => bench.disturb update
  | .poisoning => bench.poison

def run (bench : Workbench σ) (history : List (Event σ)) : Workbench σ :=
  history.foldl after bench

end Workbench

end Asm8080
