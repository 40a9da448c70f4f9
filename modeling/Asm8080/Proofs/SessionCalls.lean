import Mathlib.Logic.Basic
import Asm8080.Machine.Workbench

/-!
Contract: what a call of a session does, said once for all calls.

Owns:
- the fault for which a call is refused, if there is one;
- the work that a call has the core do, and whether it then collects the output;
- what a call leaves of session and core, and what it answers;
- `Command.call_eq_guarded`: a call is refused and changes nothing, or does just this;
- the same for a session at a workbench.

Does not own: what the core does.
-/

namespace Asm8080

/-! ### Refusals -/

namespace Seat

variable {σ : Type}

/-- What keeps a session from taking the core's lock. -/
def lockFault? (seat : Seat σ) : Option SessionFault :=
  if seat.poisoned then some .poisoned else none

/-- What keeps a session from using a launched program. -/
def launchedFault? (seat : Seat σ) : Option SessionFault :=
  if seat.session.isLaunched then seat.lockFault? else some .notLaunched

end Seat

/-- What keeps an assembly from being launched. -/
def Assembly.launchFault? (assembly : Assembly) : Option SessionFault :=
  if !assembly.success then some .assemblyFailed
  else if assembly.hex.isEmpty then some .emptyProgram
  else none

namespace Call

variable {σ α : Type}

/-- Carries out an action unless there is a fault, which leaves the seat as it was. -/
def guarded (fault? : Seat σ → Option SessionFault) (action : Seat σ → α × Seat σ) : Call σ α :=
  fun seat =>
    match fault? seat with
    | some fault => (.error fault, seat)
    | none => (.ok (action seat).1, (action seat).2)

theorem replying_guarded (fault? : Seat σ → Option SessionFault) (action : Seat σ → α × Seat σ)
    (reply : α → Reply) :
    (guarded fault? action).replying reply =
      guarded fault? fun seat => (reply (action seat).1, (action seat).2) := by
  funext seat
  unfold replying guarded
  cases fault? seat <;> rfl

theorem replying_locked (action : Seat σ → α × Seat σ) (reply : α → Reply) :
    (locked action).replying reply =
      guarded Seat.lockFault? fun seat => (reply (action seat).1, (action seat).2) := by
  have isGuarded : locked action = guarded Seat.lockFault? action := by
    funext seat
    unfold locked guarded Seat.lockFault?
    split <;> rfl
  rw [isGuarded, replying_guarded]

theorem replying_launched (action : Seat σ → α × Seat σ) (reply : α → Reply) :
    (launched action).replying reply =
      guarded Seat.launchedFault? fun seat => (reply (action seat).1, (action seat).2) := by
  have isGuarded : launched action = guarded Seat.launchedFault? action := by
    funext seat
    simp only [launched, locked, guarded, Seat.launchedFault?, Seat.lockFault?]
    split
    · split <;> rfl
    · rfl
  rw [isGuarded, replying_guarded]

theorem replying_launch [Core σ] (assembly : Assembly) (reply : Unit → Reply) :
    (launch assembly).replying reply =
      guarded (fun seat : Seat σ => assembly.launchFault?.or seat.lockFault?)
        fun seat => (reply (), seat.started assembly) := by
  unfold launch Assembly.launchFault?
  split
  · rfl
  · split
    · rfl
    · exact replying_locked _ reply

end Call

/-! ### Accepted calls -/

/-- The console text of a session that has collected some bytes. -/
def Session.gathered (session : Session) (bytes : List UInt8) : Text :=
  trimConsole (session.console ++ bytes.map consoleChar)

namespace Command

/-- Whether a call collects the output of the core, once its work is done. -/
def collects : Command → Bool
  | .step => true
  | .runSlice => true
  | .drainConsole => true
  | _ => false

/-- What a call leaves of its session, given the bytes that it collects. -/
def sessionAfter : Command → Session → List UInt8 → Session
  | .launch assembly, _, _ => ⟨some assembly.listing, []⟩
  | .step, session, bytes => { session with console := session.gathered bytes }
  | .runSlice, session, bytes => { session with console := session.gathered bytes }
  | .drainConsole, session, _ => { session with console := [] }
  | _, session, _ => session

variable {σ : Type}

/-- The fault for which a call is refused. -/
def fault? : Command → Seat σ → Option SessionFault
  | .launch assembly, seat => assembly.launchFault?.or seat.lockFault?
  | .drainConsole, seat => seat.lockFault?
  | _, seat => seat.launchedFault?

variable [Core σ]

/-- What a call has the core do before any output is collected. -/
def work : Command → σ → σ
  | .launch assembly, core => Core.reset (Core.load assembly.hex assembly.origin core)
  | .step, core => Core.step core
  | .reset, core => Core.reset core
  | .runSlice, core => Core.run core
  | .sendInput text, core => Core.putAll (Utf8.encode text) core
  | _, core => core

/-- The bytes that a call collects, and the core that it leaves. -/
def collected (command : Command) (core : σ) : List UInt8 × σ :=
  if command.collects then Core.drain (command.work core) else ([], command.work core)

def seatAfter (command : Command) (seat : Seat σ) : Seat σ where
  core := (command.collected seat.core).2
  poisoned := seat.poisoned
  session := command.sessionAfter seat.session (command.collected seat.core).1

/-- What a call answers if it is not refused. -/
def answer : Command → Seat σ → Reply
  | .launch _, _ => .done
  | .step, seat => .counter (Core.currentAddress (Core.step seat.core))
  | .reset, _ => .done
  | .runSlice, seat =>
      .state (Call.runState (Core.currentAddress seat.core)
        (Core.currentAddress (Core.run seat.core)))
  | .drainConsole, seat => .text (seat.session.gathered (Core.drain seat.core).1)
  | .sendInput _, _ => .done
  | .waitingForInput, seat => .flag (Core.waitingForInput seat.core)
  | .currentAddress, seat => .counter (Core.currentAddress seat.core)
  | .panel running, seat =>
      .panel ⟨if running then Core.addressBus seat.core
          else UInt16.ofNat (Core.currentAddress seat.core), Core.dataBus seat.core⟩
  | .highlightedListing, seat =>
      .text (highlight (seat.session.listing.getD [])
        (UInt16.ofNat (Core.currentAddress seat.core)))

/-- A call is refused and leaves the seat as it was, or it answers and leaves the seat behind
that its command says. -/
theorem call_eq_guarded (command : Command) :
    command.call =
      Call.guarded command.fault? fun seat : Seat σ =>
        (command.answer seat, command.seatAfter seat) := by
  cases command with
  | launch assembly => exact Call.replying_launch assembly _
  | drainConsole => exact Call.replying_locked _ _
  | step => exact Call.replying_launched _ _
  | reset => exact Call.replying_launched _ _
  | runSlice => exact Call.replying_launched _ _
  | sendInput text => exact Call.replying_launched _ _
  | waitingForInput => exact Call.replying_launched _ _
  | currentAddress => exact Call.replying_launched _ _
  | panel running => exact Call.replying_launched _ _
  | highlightedListing => exact Call.replying_launched _ _

theorem call_of_fault {command : Command} {seat : Seat σ} {fault : SessionFault}
    (isFault : command.fault? seat = some fault) : command.call seat = (.error fault, seat) := by
  rw [call_eq_guarded, Call.guarded, isFault]

theorem call_of_faultless {command : Command} {seat : Seat σ}
    (faultless : command.fault? seat = none) :
    command.call seat = (.ok (command.answer seat), command.seatAfter seat) := by
  rw [call_eq_guarded, Call.guarded, faultless]

end Command

/-! ### Calls at a workbench -/

namespace Workbench

variable {σ : Type} {bench : Workbench σ} {index : Nat} {command : Command}

/-- The session at `index`, if there is one and its call is not refused. -/
def admitted? (bench : Workbench σ) (index : Nat) (command : Command) : Option Session :=
  bench.sessions[index]?.filter fun session => (command.fault? (bench.seat session)).isNone

theorem getElem?_of_admitted? {session : Session}
    (admitted : bench.admitted? index command = some session) :
    bench.sessions[index]? = some session :=
  (Option.filter_eq_some_iff.mp admitted).1

theorem leave_seat {session : Session} (isSession : bench.sessions[index]? = some session) :
    bench.leave index (bench.seat session) = bench := by
  obtain ⟨inside, atIndex⟩ := List.getElem?_eq_some_iff.mp isSession
  unfold leave seat
  rw [← atIndex, List.set_getElem_self]

variable [Core σ]

theorem carryOut_of_admitted {session : Session}
    (admitted : bench.admitted? index command = some session) :
    bench.carryOut index command =
      (some (.ok (command.answer (bench.seat session))),
        bench.leave index (command.seatAfter (bench.seat session))) := by
  obtain ⟨isSession, faultless⟩ := Option.filter_eq_some_iff.mp admitted
  unfold carryOut
  rw [isSession]
  dsimp only
  rw [Command.call_of_faultless (Option.isNone_iff_eq_none.mp faultless)]

/-- A refused call, or one of a session that does not exist, leaves the workbench as it was. -/
theorem carryOut_of_not_admitted (refused : bench.admitted? index command = none) :
    (bench.carryOut index command).2 = bench := by
  unfold carryOut
  cases isSession : bench.sessions[index]? with
  | none => rfl
  | some session =>
      have faulty : ∃ fault, command.fault? (bench.seat session) = some fault := by
        simpa [admitted?, isSession, Option.filter_some, Option.ne_none_iff_exists'] using refused
      obtain ⟨fault, isFault⟩ := faulty
      dsimp only
      rw [Command.call_of_fault isFault]
      exact leave_seat isSession

end Workbench

end Asm8080
