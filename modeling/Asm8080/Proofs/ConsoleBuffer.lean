import Asm8080.Proofs.SessionHistory

/-!
Contract: the console text of a session, against what the session collected.

Owns:
- the events that empty the console of a session;
- the characters that a session collected since then;
- `Recent`, how a console text stands to these characters, which collecting and trimming keep;
- `console_is_recent_output`: the console of every session is recent after every history.

Does not own: where the output comes from.
-/

namespace Asm8080

/-! ### Recent text -/

/-- The console text is the end of what was heard. It is short enough, it is not shorter than
what trimming leaves, and as long as that fits it is everything. -/
structure Recent (heard console : Text) : Prop where
  suffix : console <:+ heard
  bounded : console.length ≤ consoleLimit
  kept : min heard.length consoleKeep ≤ console.length
  whole : heard.length ≤ consoleLimit → console = heard

namespace Recent

theorem nothing : Recent [] [] :=
  ⟨List.suffix_rfl, Nat.zero_le _, Nat.min_le_left _ _, fun _ => rfl⟩

/-- More text stays recent when it is trimmed. -/
theorem gather {heard console : Text} (recent : Recent heard console) (more : Text) :
    Recent (heard ++ more) (trimConsole (console ++ more)) := by
  have keepsLess : consoleKeep ≤ consoleLimit := by decide
  have joined : console ++ more <:+ heard ++ more := by
    obtain ⟨forgotten, isHeard⟩ := recent.suffix
    exact ⟨forgotten, by rw [← List.append_assoc, isHeard]⟩
  have shorter : console.length ≤ heard.length := recent.suffix.length_le
  have kept := recent.kept
  unfold trimConsole
  split
  · rename_i tooLong
    have length : ((console ++ more).drop ((console ++ more).length - consoleKeep)).length =
        consoleKeep := by
      rw [List.length_drop]
      omega
    refine ⟨(List.drop_suffix _ _).trans joined, by omega, by omega, ?_⟩
    -- What was heard does not fit any more, since a part of it is already too long.
    intro fits
    have bound := joined.length_le
    omega
  · rename_i fits
    refine ⟨joined, by omega, ?_, ?_⟩
    · simp only [List.length_append] at fits ⊢
      omega
    · intro heardFits
      rw [recent.whole (by simp only [List.length_append] at heardFits; omega)]

end Recent

/-! ### What a session hears -/

/-- Whether a command empties the console, if it succeeds. -/
def Command.empties : Command → Bool
  | .launch _ => true
  | .drainConsole => true
  | _ => false

namespace Workbench

variable {σ : Type} [Core σ]

/-- Whether an event empties the console of the session at `index`: a launch or a drain by that
session, which succeeds. -/
def empties (bench : Workbench σ) (index : Nat) : Event σ → Bool
  | .call caller command => caller == index && command.empties && bench.succeeds caller command
  | _ => false

/-- The characters of the chunk that the session at `index` collects in an event. -/
def hears (bench : Workbench σ) (index : Nat) (event : Event σ) : Text :=
  (((bench.chunk? event).filter fun chunk => chunk.session == index).elim [] Chunk.bytes).map
    consoleChar

/-- The characters that the session at `index` has collected since its console was last emptied.
Before the history these were `heard`. -/
def heardFrom (bench : Workbench σ) (index : Nat) (heard : Text) : List (Event σ) → Text
  | [] => heard
  | event :: later =>
      (bench.after event).heardFrom index
        (if bench.empties index event then [] else heard ++ bench.hears index event) later

/-- The characters that the session at `index` has collected in a history since it last launched
a program or drained its console. -/
def heard (bench : Workbench σ) (index : Nat) (history : List (Event σ)) : Text :=
  bench.heardFrom index [] history

theorem hears_of_succeeds {bench : Workbench σ} {index : Nat} {command : Command}
    (answered : bench.succeeds index command = true) :
    bench.hears index (.call index command) =
      (command.collected bench.core).1.map consoleChar := by
  rw [succeeds_eq] at answered
  rw [hears, chunk?, Command.collected, answered, Bool.true_and]
  cases command.collects with
  | true => simp [Option.filter_some]
  | false => rfl

theorem hears_of_other {bench : Workbench σ} {caller index : Nat} {command : Command}
    (other : ¬(caller = index ∧ bench.succeeds caller command = true)) :
    bench.hears index (.call caller command) = [] := by
  have noChunk : (bench.chunk? (.call caller command)).filter
      (fun chunk => chunk.session == index) = none := by
    rw [Option.filter_eq_none_iff]
    intro chunk isChunk
    obtain ⟨asked, session, isEvent, admission, _⟩ := call_of_chunk? isChunk
    obtain ⟨isCaller, rfl⟩ := Event.call.inj isEvent
    intro isIndex
    apply other
    rw [succeeds_eq, isCaller, admission]
    exact ⟨beq_iff_eq.mp isIndex, rfl⟩
  rw [hears, noChunk]
  rfl

/-- What an accepted command leaves of a console that was recent, given the bytes that it
collects. -/
theorem recent_of_command {heard : Text} {session : Session}
    (recent : Recent heard session.console) (command : Command) (core : σ) :
    Recent
      (if command.empties then [] else heard ++ (command.collected core).1.map consoleChar)
      (command.sessionAfter session (command.collected core).1).console := by
  cases command with
  | launch assembly | drainConsole => exact Recent.nothing
  | step | runSlice => exact recent.gather _
  | _ =>
      show Recent (heard ++ []) session.console
      rw [List.append_nil]
      exact recent

/-- One event keeps the console recent. -/
theorem recent_sessionAfter {bench : Workbench σ} {index : Nat} {heard : Text} {session : Session}
    (recent : Recent heard session.console) (event : Event σ) :
    Recent (if bench.empties index event then [] else heard ++ bench.hears index event)
      (bench.sessionAfter event index session).console := by
  have unchanged : Recent (heard ++ []) session.console := by
    rw [List.append_nil]
    exact recent
  cases event with
  | poisoning | disturbance update => exact unchanged
  | call caller command =>
      by_cases own : caller = index ∧ bench.succeeds caller command = true
      · obtain ⟨rfl, answered⟩ := own
        have kind : bench.empties caller (.call caller command) = command.empties := by
          simp [empties, answered]
        rw [kind, hears_of_succeeds answered, sessionAfter_of_succeeds answered]
        exact recent_of_command recent command bench.core
      · have stays : bench.empties index (.call caller command) = false := by
          rw [empties, ← Bool.not_eq_true]
          intro isEmptied
          simp only [Bool.and_eq_true, beq_iff_eq] at isEmptied
          exact own ⟨isEmptied.1.1, isEmptied.2⟩
        rw [stays, hears_of_other own, sessionAfter_of_other own]
        exact unchanged

theorem recent_run {bench : Workbench σ} {index : Nat} {heard : Text} {first last : Session}
    (recent : Recent heard first.console) {history : List (Event σ)}
    (isFirst : bench.sessions[index]? = some first)
    (isLast : (bench.run history).sessions[index]? = some last) :
    Recent (bench.heardFrom index heard history) last.console := by
  induction history generalizing bench heard first with
  | nil =>
      rw [← Option.some.inj (isFirst.symm.trans isLast)]
      exact recent
  | cons event later inductionHypothesis =>
      have stepped := bench.sessions_after event index
      rw [isFirst, Option.map_some] at stepped
      exact inductionHypothesis (recent_sessionAfter recent event) stepped isLast

end Workbench

/-- The console of a session holds its recent output. Take any core, any number of sessions that
share it and any history. Then the console text of a session is a suffix of the characters that
the session collected since it last launched a program or drained its console. It has at most
5000 characters, and at least 4000 unless fewer were collected. As long as no more than 5000 were
collected, it has them all. -/
theorem console_is_recent_output {σ : Type} [Core σ] (core : σ) (count : Nat)
    (history : List (Workbench.Event σ)) {index : Nat} {session : Session}
    (isSession :
      ((Workbench.initial core count).run history).sessions[index]? = some session) :
    session.console <:+ (Workbench.initial core count).heard index history ∧
      session.console.length ≤ 5000 ∧
      min ((Workbench.initial core count).heard index history).length 4000 ≤
        session.console.length ∧
      (((Workbench.initial core count).heard index history).length ≤ 5000 →
        session.console = (Workbench.initial core count).heard index history) := by
  obtain ⟨first, isFirst, isFresh⟩ := Workbench.initial_of_session isSession
  have fresh : Recent [] first.console := by
    rw [isFresh]
    exact Recent.nothing
  obtain ⟨suffix, bounded, kept, whole⟩ := Workbench.recent_run fresh isFirst isSession
  exact ⟨suffix, bounded, kept, whole⟩

private def waitingProgram : Assembly :=
  assemble (["00", "00", "76"].map String.toList)

/-- A program is launched, output comes all at once, and the next step collects it. -/
private def floodedHistory (bytes : List UInt8) : List (Workbench.Event EchoCore) :=
  [.call 0 (.launch waitingProgram),
    .disturbance fun core => { core with output := core.output ++ bytes }, .call 0 .step]

private theorem heard_floodedHistory (bytes : List UInt8) :
    (Workbench.initial EchoCore.initial 1).heard 0 (floodedHistory bytes) =
      bytes.map consoleChar := by
  let flooded := (Workbench.initial EchoCore.initial 1).run ((floodedHistory bytes).take 2)
  have answered : flooded.succeeds 0 .step = true := rfl
  have isHeard : (Workbench.initial EchoCore.initial 1).heard 0 (floodedHistory bytes) =
      flooded.hears 0 (.call 0 .step) := rfl
  rw [isHeard, Workbench.hears_of_succeeds answered]
  have isQueue : (Core.drain (Core.step flooded.core)).1 = bytes :=
    (EchoCore.queuesOutput.drain _).1
  exact congrArg (List.map consoleChar) isQueue

/-- A character more than the console can hold. -/
theorem console_is_recent_output_flooded :
    ∃ session,
      ((Workbench.initial EchoCore.initial 1).run
          (floodedHistory (List.replicate 5001 0xE9))).sessions[0]? = some session ∧
        session.console <:+ List.replicate 5001 'é' ∧
        session.console.length ≤ 5000 ∧ 4000 ≤ session.console.length := by
  have stays := Workbench.isSome_sessions_run (Workbench.initial EchoCore.initial 1)
    (floodedHistory (List.replicate 5001 0xE9)) 0
  obtain ⟨session, isSession⟩ := Option.isSome_iff_exists.mp (stays.trans rfl)
  obtain ⟨suffix, bounded, kept, _⟩ := console_is_recent_output _ _ _ isSession
  have letter : consoleChar 0xE9 = 'é' := by decide
  rw [heard_floodedHistory, List.map_replicate, letter] at suffix kept
  rw [List.length_replicate] at kept
  exact ⟨session, isSession, suffix, bounded, kept⟩

end Asm8080
