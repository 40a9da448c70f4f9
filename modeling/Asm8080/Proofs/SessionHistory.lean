import Asm8080.Proofs.SharedConsole

/-!
Contract: what a history of events leaves of the sessions at a workbench and of its lock.

Owns:
- the calls that succeed, and among them the launches of a history;
- the sessions that an event leaves, one equation for all events;
- the listing of a session as that of its last launch;
- the lock as poisoned once an event poisoned it, and the core that it then keeps.

Does not own: the console text, and what the calls do to the core.
-/

namespace Asm8080

/-- A program that a session launched. -/
structure Launch where
  session : Nat
  assembly : Assembly
deriving DecidableEq, Repr

namespace Workbench

variable {σ : Type}

/-- Whether an event poisons the lock. -/
def Event.isPoisoning : Event σ → Bool
  | .poisoning => true
  | _ => false

variable [Core σ]

/-- Whether the session at `index` gets an answer to a command. -/
def succeeds (bench : Workbench σ) (index : Nat) (command : Command) : Bool :=
  (bench.carryOut index command).1.any fun reply => reply.isOk

/-- The launch that an event is, if it is one and succeeds. -/
def launch? (bench : Workbench σ) : Event σ → Option Launch
  | .call index (.launch assembly) =>
      if bench.succeeds index (.launch assembly) then some ⟨index, assembly⟩ else none
  | _ => none

/-- The launches of a history that succeed, in order. -/
def launches (bench : Workbench σ) : List (Event σ) → List Launch
  | [] => []
  | event :: later => (bench.launch? event).toList ++ (bench.after event).launches later

/-! ### Calls that succeed -/

/-- The reply to a session that exists: the fault for which its call is refused, or an answer. -/
theorem reply_of_session {bench : Workbench σ} {index : Nat} {session : Session}
    (isSession : bench.sessions[index]? = some session) (command : Command) :
    (bench.carryOut index command).1 =
      some (match command.fault? (bench.seat session) with
        | some fault => .error fault
        | none => .ok (command.answer (bench.seat session))) := by
  unfold carryOut
  rw [isSession]
  dsimp only
  cases isFault : command.fault? (bench.seat session) with
  | some fault => rw [Command.call_of_fault isFault]
  | none => rw [Command.call_of_faultless isFault]

theorem succeeds_eq (bench : Workbench σ) (index : Nat) (command : Command) :
    bench.succeeds index command = (bench.admitted? index command).isSome := by
  unfold succeeds admitted?
  cases isSession : bench.sessions[index]? with
  | none =>
      unfold carryOut
      rw [isSession]
      rfl
  | some session =>
      rw [reply_of_session isSession, Option.any_some, Option.filter_some]
      cases command.fault? (bench.seat session) <;> rfl

/-! ### The sessions -/

/-- What an event leaves of the session at `index`. -/
def sessionAfter (bench : Workbench σ) (event : Event σ) (index : Nat) (session : Session) :
    Session :=
  match event with
  | .call caller command =>
      if caller = index ∧ bench.succeeds caller command = true then
        command.sessionAfter session (command.collected bench.core).1
      else session
  | _ => session

theorem sessionAfter_of_succeeds {bench : Workbench σ} {index : Nat} {command : Command}
    (answered : bench.succeeds index command = true) (session : Session) :
    bench.sessionAfter (.call index command) index session =
      command.sessionAfter session (command.collected bench.core).1 :=
  if_pos ⟨rfl, answered⟩

theorem sessionAfter_of_other {bench : Workbench σ} {caller index : Nat} {command : Command}
    (other : ¬(caller = index ∧ bench.succeeds caller command = true)) (session : Session) :
    bench.sessionAfter (.call caller command) index session = session :=
  if_neg other

theorem sessions_after (bench : Workbench σ) (event : Event σ) (index : Nat) :
    (bench.after event).sessions[index]? =
      bench.sessions[index]?.map (bench.sessionAfter event index) := by
  cases event with
  | poisoning => exact Option.map_id'.symm
  | disturbance update =>
      have unchanged : (bench.disturb update).sessions = bench.sessions := by
        unfold disturb
        split <;> rfl
      rw [after, unchanged]
      exact Option.map_id'.symm
  | call caller command =>
      have answer := bench.succeeds_eq caller command
      cases admission : bench.admitted? caller command with
      | none =>
          rw [admission] at answer
          rw [after, carryOut_of_not_admitted admission,
            funext (sessionAfter_of_other (by simp [answer])), Option.map_id']
      | some session =>
          rw [admission] at answer
          rw [sessions_of_admitted admission]
          split
          · rename_i isCaller
            subst isCaller
            rw [getElem?_of_admitted? admission, Option.map_some,
              sessionAfter_of_succeeds answer]
          · rename_i notCaller
            rw [funext (sessionAfter_of_other fun own => notCaller own.1), Option.map_id']

theorem isSome_sessions_run (bench : Workbench σ) (history : List (Event σ)) (index : Nat) :
    (bench.run history).sessions[index]?.isSome = bench.sessions[index]?.isSome := by
  induction history generalizing bench with
  | nil => rfl
  | cons event later inductionHypothesis =>
      have stepped := inductionHypothesis (bench.after event)
      rw [sessions_after, Option.isSome_map] at stepped
      exact stepped

/-- A session that a history leaves at a fresh workbench was there from the start, with nothing
launched and an empty console. -/
theorem initial_of_session {core : σ} {count : Nat} {history : List (Event σ)} {index : Nat}
    {session : Session}
    (isSession : ((initial core count).run history).sessions[index]? = some session) :
    ∃ first, (initial core count).sessions[index]? = some first ∧ first = Session.initial := by
  have stays := isSome_sessions_run (initial core count) history index
  rw [isSession] at stays
  obtain ⟨first, isFirst⟩ := Option.isSome_iff_exists.mp stays.symm
  exact ⟨first, isFirst, List.eq_of_mem_replicate (List.mem_of_getElem? isFirst)⟩

/-! ### Listings -/

/-- The launches of a history by the session at `index`. -/
def launchesOf (bench : Workbench σ) (index : Nat) (history : List (Event σ)) : List Launch :=
  (bench.launches history).filter fun launch => launch.session == index

theorem listing_sessionAfter (bench : Workbench σ) (event : Event σ) (index : Nat)
    (session : Session) :
    (bench.sessionAfter event index session).listing =
      (((bench.launch? event).filter fun launch => launch.session == index).map
        fun launch => launch.assembly.listing).or session.listing := by
  cases event with
  | poisoning | disturbance update => rfl
  | call caller command =>
      by_cases own : caller = index ∧ bench.succeeds caller command = true
      · obtain ⟨rfl, answered⟩ := own
        rw [sessionAfter_of_succeeds answered]
        cases command with
        | launch assembly => simp [launch?, answered, Command.sessionAfter, Option.filter_some]
        | _ => rfl
      · rw [sessionAfter_of_other own]
        cases command with
        | launch assembly =>
            have noOwnLaunch : (bench.launch? (.call caller (.launch assembly))).filter
                (fun launch => launch.session == index) = none := by
              simp only [launch?, Option.filter_eq_none_iff]
              intro launch isLaunch
              split at isLaunch
              · rename_i answered
                rw [← Option.some.inj isLaunch]
                simpa [answered] using own
              · cases isLaunch
            rw [noOwnLaunch]
            rfl
        | _ => rfl

/-- The listing of a session is that of its last launch. -/
theorem listing_run (bench : Workbench σ) (history : List (Event σ)) {index : Nat}
    {first last : Session} (isFirst : bench.sessions[index]? = some first)
    (isLast : (bench.run history).sessions[index]? = some last) :
    last.listing =
      ((bench.launchesOf index history).getLast?.map fun launch => launch.assembly.listing).or
        first.listing := by
  induction history generalizing bench first with
  | nil =>
      rw [Option.some.inj (isFirst.symm.trans isLast)]
      rfl
  | cons event later inductionHypothesis =>
      have stepped := bench.sessions_after event index
      rw [isFirst, Option.map_some] at stepped
      rw [inductionHypothesis (bench.after event) stepped isLast, listing_sessionAfter]
      unfold launchesOf
      rw [launches, List.filter_append, List.getLast?_append, ← Option.or_assoc]
      congr 1
      cases bench.launch? event with
      | none => simp
      | some launch =>
          by_cases own : launch.session = index
          · simp [own, Option.filter_some]
          · simp [own, Option.filter_some]

/-- A session of a fresh workbench is launched once it has launched a program. -/
theorem isLaunched_run {core : σ} {count : Nat} {history : List (Event σ)} {index : Nat}
    {session : Session}
    (isSession : ((initial core count).run history).sessions[index]? = some session) :
    session.isLaunched = !((initial core count).launchesOf index history).isEmpty := by
  obtain ⟨first, isFirst, isFresh⟩ := initial_of_session isSession
  rw [Session.isLaunched, listing_run _ history isFirst isSession, isFresh]
  cases (initial core count).launchesOf index history with
  | nil => rfl
  | cons launch others => simp [List.getLast?_cons]

/-! ### The lock -/

theorem poisoned_after (bench : Workbench σ) (event : Event σ) :
    (bench.after event).poisoned = (bench.poisoned || event.isPoisoning) := by
  cases event with
  | poisoning => exact (Bool.or_true _).symm
  | disturbance update =>
      rw [after, disturb]
      split <;> exact (Bool.or_false _).symm
  | call index command =>
      rw [after]
      cases admission : bench.admitted? index command with
      | none =>
          rw [carryOut_of_not_admitted admission]
          exact (Bool.or_false _).symm
      | some session =>
          rw [carryOut_of_admitted admission]
          exact (Bool.or_false _).symm

theorem poisoned_run (bench : Workbench σ) (history : List (Event σ)) :
    (bench.run history).poisoned = (bench.poisoned || history.any Event.isPoisoning) := by
  induction history generalizing bench with
  | nil => exact (Bool.or_false _).symm
  | cons event later inductionHypothesis =>
      have stepped := inductionHypothesis (bench.after event)
      rw [poisoned_after, Bool.or_assoc] at stepped
      exact stepped

omit [Core σ] in
theorem admitted?_of_poisoned {bench : Workbench σ} (poisoned : bench.poisoned = true)
    (index : Nat) (command : Command) : bench.admitted? index command = none := by
  have locked (session : Session) : (bench.seat session).lockFault? = some .poisoned :=
    if_pos poisoned
  have faulty (session : Session) : command.fault? (bench.seat session) ≠ none := by
    cases command with
    | launch assembly => simp [Command.fault?, locked]
    | drainConsole => simp [Command.fault?, locked]
    | _ =>
        simp only [Command.fault?, Seat.launchedFault?, locked]
        split <;> simp
  unfold admitted?
  cases bench.sessions[index]? with
  | none => rfl
  | some session => simp [Option.filter_some, faulty session]

/-- A poisoned lock keeps the core as it is. -/
theorem core_after_of_poisoned {bench : Workbench σ} (poisoned : bench.poisoned = true)
    (event : Event σ) : (bench.after event).core = bench.core := by
  cases event with
  | poisoning => rfl
  | disturbance update => rw [after, disturb, if_pos poisoned]
  | call index command =>
      rw [after, carryOut_of_not_admitted (admitted?_of_poisoned poisoned index command)]

theorem core_run_of_poisoned {bench : Workbench σ} (poisoned : bench.poisoned = true)
    (history : List (Event σ)) : (bench.run history).core = bench.core := by
  induction history generalizing bench with
  | nil => rfl
  | cons event later inductionHypothesis =>
      have stillPoisoned : (bench.after event).poisoned = true := by
        rw [poisoned_after, poisoned, Bool.true_or]
      exact (inductionHypothesis stillPoisoned).trans (core_after_of_poisoned poisoned event)

end Workbench

end Asm8080
