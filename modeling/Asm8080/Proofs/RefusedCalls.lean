import Asm8080.Proofs.SessionHistory

/-!
Contract: the calls that are refused, and why.

Owns:
- the commands that need a launched program;
- the fault for which a call is refused;
- `Refusals`, the rules by which sessions refuse, in terms of what happened before;
- `refused_calls_change_nothing`: every history leads to a workbench that keeps these rules.

Does not own: what accepted calls do.
-/

namespace Asm8080

/-- Whether a command needs a launched program. -/
def Command.needsLaunch : Command → Bool
  | .launch _ => false
  | .drainConsole => false
  | _ => true

theorem Command.fault?_of_needsLaunch {σ : Type} {command : Command}
    (needs : command.needsLaunch = true) (seat : Seat σ) :
    command.fault? seat = seat.launchedFault? := by
  cases command with
  | launch assembly | drainConsole => cases needs
  | _ => rfl

namespace Workbench

variable {σ : Type} [Core σ]

/-- The fault for which the workbench refuses a command of the session at `index`. -/
def refusal? (bench : Workbench σ) (index : Nat) (command : Command) : Option SessionFault :=
  match (bench.carryOut index command).1 with
  | some (.error fault) => some fault
  | _ => none

theorem refusal?_of_session {bench : Workbench σ} {index : Nat} {session : Session}
    (isSession : bench.sessions[index]? = some session) (command : Command) :
    bench.refusal? index command = command.fault? (bench.seat session) := by
  unfold refusal?
  rw [reply_of_session isSession]
  cases command.fault? (bench.seat session) <;> rfl

/-- The rules by which the session at `index` refuses, where `launched` says whether it has
launched a program, and `poisoned` whether the lock is poisoned. -/
structure Refusals (bench : Workbench σ) (index : Nat) (launched poisoned : Bool) : Prop where
  /-- A refused command changes nothing, of no session and of the core. -/
  unchanged : ∀ command fault, (bench.carryOut index command).1 = some (.error fault) →
    (bench.carryOut index command).2 = bench
  /-- A command that is not refused is answered. -/
  answered : ∀ command, bench.refusal? index command = none →
    ∃ reply, (bench.carryOut index command).1 = some (.ok reply)
  launch : ∀ assembly, bench.refusal? index (.launch assembly) =
    if assembly.success = false then some .assemblyFailed
    else if assembly.hex = [] then some .emptyProgram
    else if poisoned then some .poisoned
    else none
  drainConsole : bench.refusal? index .drainConsole =
    if poisoned then some .poisoned else none
  others : ∀ command, command.needsLaunch = true → bench.refusal? index command =
    if launched = false then some .notLaunched
    else if poisoned then some .poisoned
    else none

theorem refusals_of_session {bench : Workbench σ} {index : Nat} {session : Session}
    (isSession : bench.sessions[index]? = some session) :
    bench.Refusals index session.isLaunched bench.poisoned where
  unchanged command fault isRefused := by
    apply carryOut_of_not_admitted
    have unanswered : bench.succeeds index command = false := by
      rw [succeeds, isRefused]
      rfl
    rw [succeeds_eq] at unanswered
    exact Option.not_isSome_iff_eq_none.mp (by simp [unanswered])
  answered command unrefused := by
    rw [refusal?_of_session isSession] at unrefused
    exact ⟨_, by rw [reply_of_session isSession, unrefused]⟩
  launch assembly := by
    rw [refusal?_of_session isSession, Command.fault?, Assembly.launchFault?, Seat.lockFault?]
    cases assembly.success with
    | false => rfl
    | true =>
        cases assembly.hex with
        | nil => rfl
        | cons digit digits => rfl
  drainConsole := refusal?_of_session isSession .drainConsole
  others command needs := by
    rw [refusal?_of_session isSession, Command.fault?_of_needsLaunch needs, Seat.launchedFault?]
    show (if session.isLaunched = true then _ else _) = _
    cases session.isLaunched with
    | false => rfl
    | true => rfl

end Workbench

/-- Refused calls change nothing. Take any core, any number of sessions that share it, and any
history, in which the lock may be poisoned. A call that fails leaves the core and every session
as they were. A launch fails if its assembly failed, else if it has no code, else if the lock is
poisoned. Draining the console fails just if the lock is poisoned. Every other call fails if the
session itself never launched a program, else if the lock is poisoned. And once the lock is
poisoned the core stays as it is. -/
theorem refused_calls_change_nothing {σ : Type} [Core σ] (core : σ) {count index : Nat}
    (inside : index < count) (history : List (Workbench.Event σ)) :
    ((Workbench.initial core count).run history).Refusals index
        (!((Workbench.initial core count).launchesOf index history).isEmpty)
        (history.any Workbench.Event.isPoisoning) ∧
      ∀ later, (((Workbench.initial core count).run history).run (.poisoning :: later)).core =
        ((Workbench.initial core count).run history).core := by
  have stays := Workbench.isSome_sessions_run (Workbench.initial core count) history index
  have atStart : (Workbench.initial core count).sessions[index]? = some Session.initial :=
    List.getElem?_replicate_of_lt inside
  rw [atStart] at stays
  obtain ⟨session, isSession⟩ := Option.isSome_iff_exists.mp stays
  have refusals := Workbench.refusals_of_session isSession
  rw [Workbench.isLaunched_run isSession, Workbench.poisoned_run] at refusals
  refine ⟨refusals, fun later => ?_⟩
  have poisoned : (((Workbench.initial core count).run history).after .poisoning).poisoned =
      true := rfl
  exact Workbench.core_run_of_poisoned poisoned later

private def shortProgram : Assembly :=
  assemble (["00", "76"].map String.toList)

private def brokenHistory : List (Workbench.Event EchoCore) :=
  [.call 1 (.launch shortProgram), .call 0 (.launch (assemble ["?".toList])), .call 1 .step,
    .poisoning, .call 0 .drainConsole, .disturbance EchoCore.reset]

/-- Session 0 launched a faulty program only, and session 1 a good one before the lock was
poisoned. -/
theorem refused_calls_change_nothing_broken :
    ((Workbench.initial EchoCore.initial 2).run brokenHistory).refusal? 0 .step =
        some .notLaunched ∧
      ((Workbench.initial EchoCore.initial 2).run brokenHistory).refusal? 1 .step =
        some .poisoned ∧
      ((Workbench.initial EchoCore.initial 2).run brokenHistory).refusal? 1
        (.launch (assemble [])) = some .emptyProgram := by
  have refusals (index : Nat) (inside : index < 2) :=
    (refused_calls_change_nothing EchoCore.initial inside brokenHistory).1
  refine ⟨?_, ?_, ?_⟩
  · exact ((refusals 0 (by decide)).others .step rfl).trans (by decide +kernel)
  · exact ((refusals 1 (by decide)).others .step rfl).trans (by decide +kernel)
  · exact ((refusals 1 (by decide)).launch (assemble [])).trans (by decide +kernel)

end Asm8080
