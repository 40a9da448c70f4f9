import Asm8080.Machine.EchoCore
import Asm8080.Proofs.SessionCalls

/-!
Contract: the console output of a core that several sessions share.

Owns:
- cores whose output is a queue, and the taking of all of it;
- the chunks that the calls of a history collect, each with the session that collects it,
  and the bytes that the core puts in its queue meanwhile;
- the balance of one event, and from it that of a history;
- the delivery of a chunk to the session that collects it;
- `console_output_conserved`: both together, for every history.

Does not own: how much of what it received a session keeps.
-/

namespace Asm8080

namespace Core

variable {σ : Type} [Core σ]

/-! ### Taking the output -/

theorem drain_of_none {core : σ} (isDry : takeChar core = none) : drain core = ([], core) := by
  rw [drain]
  split
  · rfl
  · rename_i byte rest taken
    rw [isDry] at taken
    cases taken

theorem drain_of_some {core rest : σ} {byte : UInt8} (takes : takeChar core = some (byte, rest)) :
    drain core = (byte :: (drain rest).1, (drain rest).2) := by
  rw [drain]
  split
  · rename_i taken
    rw [takes] at taken
    cases taken
  · rename_i first left taken
    rw [takes] at taken
    cases taken
    rfl

/-- The console output of a core is a queue. Whatever the core is told to do, it only puts bytes
at the end of the queue, and the bytes are taken from the front. -/
structure QueuesOutput (queue : σ → List UInt8) : Prop where
  load : ∀ hex origin core, queue core <+: queue (Core.load hex origin core)
  reset : ∀ core, queue core <+: queue (Core.reset core)
  step : ∀ core, queue core <+: queue (Core.step core)
  run : ∀ core, queue core <+: queue (Core.run core)
  putChar : ∀ byte core, queue core <+: queue (Core.putChar byte core)
  takeChar_nil : ∀ core, queue core = [] → Core.takeChar core = none
  takeChar_cons : ∀ core byte later, queue core = byte :: later →
    ∃ rest, Core.takeChar core = some (byte, rest) ∧ queue rest = later

namespace QueuesOutput

variable {queue : σ → List UInt8} (queues : QueuesOutput queue)

include queues

/-- The output taken is the whole queue, in its order, and nothing remains. -/
theorem drain (core : σ) : (Core.drain core).1 = queue core ∧ queue (Core.drain core).2 = [] := by
  induction isQueue : queue core generalizing core with
  | nil =>
      rw [drain_of_none (queues.takeChar_nil core isQueue)]
      exact ⟨rfl, isQueue⟩
  | cons byte later inductionHypothesis =>
      obtain ⟨rest, takes, isRest⟩ := queues.takeChar_cons core byte later isQueue
      obtain ⟨bytes, dry⟩ := inductionHypothesis rest isRest
      rw [drain_of_some takes]
      exact ⟨congrArg (byte :: ·) bytes, dry⟩

theorem putAll (bytes : List UInt8) (core : σ) : queue core <+: queue (Core.putAll bytes core) := by
  induction bytes generalizing core with
  | nil => exact List.prefix_rfl
  | cons byte later inductionHypothesis =>
      exact (queues.putChar byte core).trans (inductionHypothesis (Core.putChar byte core))

/-- No command takes bytes from the queue before it collects. -/
theorem work (command : Command) (core : σ) : queue core <+: queue (command.work core) := by
  cases command with
  | launch assembly => exact (queues.load _ _ core).trans (queues.reset _)
  | step => exact queues.step core
  | reset => exact queues.reset core
  | runSlice => exact queues.run core
  | sendInput text => exact queues.putAll _ core
  | _ => exact List.prefix_rfl

end QueuesOutput

end Core

/-! ### Chunks -/

/-- Bytes that a session collected in one go. -/
structure Chunk where
  session : Nat
  bytes : List UInt8
deriving DecidableEq, Repr

namespace Workbench

variable {σ : Type}

/-- The core as an event leaves it, or in the case of a call as the call finds it when it comes
to collect the output. -/
def worked [Core σ] (bench : Workbench σ) : Event σ → σ
  | .call index command =>
      if (bench.admitted? index command).isSome then command.work bench.core else bench.core
  | .disturbance update => if bench.poisoned then bench.core else update bench.core
  | .poisoning => bench.core

/-- The chunk that an event collects. -/
def chunk? [Core σ] (bench : Workbench σ) : Event σ → Option Chunk
  | .call index command =>
      if (bench.admitted? index command).isSome && command.collects then
        some ⟨index, (Core.drain (command.work bench.core)).1⟩
      else none
  | _ => none

/-- The chunks that a history collects, in that order. -/
def chunks [Core σ] (bench : Workbench σ) : List (Event σ) → List Chunk
  | [] => []
  | event :: later => (bench.chunk? event).toList ++ (bench.after event).chunks later

/-- The bytes that the core puts in its queue during a history: for each event, those by which
the queue is longer when the work is done. -/
def produced [Core σ] (queue : σ → List UInt8) (bench : Workbench σ) :
    List (Event σ) → List UInt8
  | [] => []
  | event :: later =>
      (queue (bench.worked event)).drop (queue bench.core).length ++
        produced queue (bench.after event) later

/-- From outside, bytes are only put in the queue. -/
def Event.OnlyPuts (queue : σ → List UInt8) : Event σ → Prop
  | .disturbance update => ∀ core, queue core <+: queue (update core)
  | _ => True

variable [Core σ] {bench : Workbench σ} {event : Event σ}

/-- A chunk is all of the output that there is when the work is done. -/
theorem core_after (bench : Workbench σ) (event : Event σ) :
    (bench.after event).core =
      match bench.chunk? event with
      | some _ => (Core.drain (bench.worked event)).2
      | none => bench.worked event := by
  cases event with
  | poisoning => rfl
  | disturbance update =>
      simp only [after, disturb, worked, chunk?]
      split <;> rfl
  | call index command =>
      cases admission : bench.admitted? index command with
      | none =>
          simp only [after, worked, chunk?, admission, carryOut_of_not_admitted admission]
          rfl
      | some session =>
          simp only [after, worked, chunk?, admission, carryOut_of_admitted admission]
          show (command.collected bench.core).2 = _
          unfold Command.collected
          cases command.collects <;> rfl

/-- A chunk is collected by a call of its session, which is not refused. -/
theorem call_of_chunk? {chunk : Chunk} (isChunk : bench.chunk? event = some chunk) :
    ∃ command session, event = .call chunk.session command ∧
      bench.admitted? chunk.session command = some session ∧ command.collects = true ∧
      chunk.bytes = (Core.drain (command.work bench.core)).1 := by
  cases event with
  | poisoning | disturbance update => cases isChunk
  | call index command =>
      simp only [chunk?, Option.ite_none_right_eq_some, Bool.and_eq_true,
        Option.some.injEq] at isChunk
      obtain ⟨⟨isAdmitted, isCollecting⟩, rfl⟩ := isChunk
      obtain ⟨session, admission⟩ := Option.isSome_iff_exists.mp isAdmitted
      exact ⟨command, session, rfl, admission, isCollecting, rfl⟩

theorem bytes_of_chunk? {chunk : Chunk} (isChunk : bench.chunk? event = some chunk) :
    chunk.bytes = (Core.drain (bench.worked event)).1 := by
  obtain ⟨command, session, rfl, admission, _, isBytes⟩ := call_of_chunk? isChunk
  rw [isBytes, worked, admission]
  rfl

/-! ### The balance -/

section Balance

variable {queue : σ → List UInt8} (queues : Core.QueuesOutput queue)

include queues

theorem queue_prefix_worked (bench : Workbench σ) (onlyPuts : event.OnlyPuts queue) :
    queue bench.core <+: queue (bench.worked event) := by
  cases event with
  | poisoning => exact List.prefix_rfl
  | disturbance update =>
      rw [worked]
      split
      · exact List.prefix_rfl
      · exact onlyPuts bench.core
  | call index command =>
      rw [worked]
      split
      · exact queues.work command bench.core
      · exact List.prefix_rfl

/-- What an event collects and what it leaves in the queue were there before or were put there
during the event. -/
theorem chunk_balance (bench : Workbench σ) (onlyPuts : event.OnlyPuts queue) :
    (bench.chunk? event).toList.flatMap Chunk.bytes ++ queue (bench.after event).core =
      queue bench.core ++ (queue (bench.worked event)).drop (queue bench.core).length := by
  rw [List.prefix_iff_eq_append.mp (queue_prefix_worked queues bench onlyPuts), core_after]
  cases isChunk : bench.chunk? event with
  | none => rfl
  | some chunk =>
      obtain ⟨isQueue, isDry⟩ := queues.drain (bench.worked event)
      simp only [Option.toList_some, List.flatMap_singleton]
      rw [bytes_of_chunk? isChunk, isQueue, isDry, List.append_nil]

theorem chunks_balance (bench : Workbench σ) {history : List (Event σ)}
    (onlyPuts : ∀ event ∈ history, event.OnlyPuts queue) :
    (bench.chunks history).flatMap Chunk.bytes ++ queue (bench.run history).core =
      queue bench.core ++ produced queue bench history := by
  induction history generalizing bench with
  | nil => simp [chunks, produced, run]
  | cons event later inductionHypothesis =>
      have now := chunk_balance queues bench (onlyPuts event (by simp))
      have afterwards := inductionHypothesis (bench.after event)
        fun other member => onlyPuts other (List.mem_cons_of_mem event member)
      calc
        (bench.chunks (event :: later)).flatMap Chunk.bytes ++
              queue (bench.run (event :: later)).core =
            (bench.chunk? event).toList.flatMap Chunk.bytes ++
              (((bench.after event).chunks later).flatMap Chunk.bytes ++
                queue ((bench.after event).run later).core) := by
          simp only [chunks, List.flatMap_append, List.append_assoc]
          rfl
        _ = (bench.chunk? event).toList.flatMap Chunk.bytes ++
              (queue (bench.after event).core ++ produced queue (bench.after event) later) := by
          rw [afterwards]
        _ = queue bench.core ++ produced queue bench (event :: later) := by
          rw [← List.append_assoc, now, List.append_assoc]
          rfl

end Balance

/-! ### Delivery -/

/-- The session at `index` receives bytes from an event: they join its console, or they are in
the text that it takes from there. -/
def Receives (bench : Workbench σ) (event : Event σ) (index : Nat) (bytes : List UInt8) : Prop :=
  ∃ session, bench.sessions[index]? = some session ∧
    ((bench.after event).sessions[index]? =
        some { session with console := session.gathered bytes } ∨
      (event = .call index .drainConsole ∧
        (bench.carryOut index .drainConsole).1 =
          some (.ok (.text (session.gathered bytes))) ∧
        (bench.after event).sessions[index]? = some { session with console := [] }))

/-- The session at `index` receives nothing from an event: its console stays, or is cleared
for a new program. -/
def ReceivesNothing (bench : Workbench σ) (event : Event σ) (index : Nat) : Prop :=
  (bench.after event).sessions[index]?.map Session.console =
      bench.sessions[index]?.map Session.console ∨
    ∃ assembly, event = .call index (.launch assembly) ∧
      (bench.after event).sessions[index]?.map Session.console = some []

theorem sessions_of_admitted {index : Nat} {command : Command} {session : Session}
    (admission : bench.admitted? index command = some session) (other : Nat) :
    (bench.after (.call index command)).sessions[other]? =
      if index = other then
        some (command.sessionAfter session (command.collected bench.core).1)
      else bench.sessions[other]? := by
  have inside := (List.getElem?_eq_some_iff.mp (getElem?_of_admitted? admission)).1
  rw [after, carryOut_of_admitted admission]
  show (bench.sessions.set index _)[other]? = _
  rw [List.getElem?_set, if_pos inside]
  rfl

/-- The session that collects a chunk receives it, and no other session notices. -/
theorem receives_of_chunk? {chunk : Chunk} (isChunk : bench.chunk? event = some chunk) :
    bench.Receives event chunk.session chunk.bytes ∧
      ∀ other ≠ chunk.session,
        (bench.after event).sessions[other]? = bench.sessions[other]? := by
  obtain ⟨command, session, rfl, admission, isCollecting, isBytes⟩ := call_of_chunk? isChunk
  have sessions := sessions_of_admitted admission
  have isCollected : (command.collected bench.core).1 = chunk.bytes := by
    rw [Command.collected, if_pos isCollecting, isBytes]
  constructor
  · refine ⟨session, getElem?_of_admitted? admission, ?_⟩
    rw [sessions chunk.session, if_pos rfl, isCollected]
    cases command with
    | step | runSlice => exact Or.inl rfl
    | drainConsole =>
        refine Or.inr ⟨rfl, ?_, rfl⟩
        rw [carryOut_of_admitted admission, isBytes]
        rfl
    | _ => cases isCollecting
  · intro other isOther
    rw [sessions other, if_neg isOther.symm]

/-- Without a chunk, no session receives anything. -/
theorem receivesNothing_of_no_chunk (noChunk : bench.chunk? event = none) (index : Nat) :
    bench.ReceivesNothing event index := by
  cases event with
  | poisoning => exact Or.inl rfl
  | disturbance update =>
      apply Or.inl
      rw [after, disturb]
      split <;> rfl
  | call caller command =>
      cases admission : bench.admitted? caller command with
      | none =>
          apply Or.inl
          rw [after, carryOut_of_not_admitted admission]
      | some session =>
          have isSession := getElem?_of_admitted? admission
          have sessions := sessions_of_admitted admission index
          by_cases isCaller : caller = index
          · subst isCaller
            rw [if_pos rfl] at sessions
            unfold ReceivesNothing
            rw [sessions, isSession]
            cases command with
            | launch assembly => exact Or.inr ⟨assembly, rfl, rfl⟩
            | step | runSlice | drainConsole =>
                simp [chunk?, admission, Command.collects] at noChunk
            | _ => exact Or.inl rfl
          · apply Or.inl
            rw [sessions, if_neg isCaller]

/-- The event takes all output that there is when its work is done. The chunk goes to the session
of that number, and no other session changes. -/
structure Delivers (bench : Workbench σ) (event : Event σ) (chunk : Chunk) : Prop where
  taken : Core.drain (bench.worked event) = (chunk.bytes, (bench.after event).core)
  received : bench.Receives event chunk.session chunk.bytes
  others : ∀ other ≠ chunk.session,
    (bench.after event).sessions[other]? = bench.sessions[other]?

/-- The event takes no output, and no session receives any. -/
structure DeliversNothing (bench : Workbench σ) (event : Event σ) : Prop where
  untaken : (bench.after event).core = bench.worked event
  unreceived : ∀ index, bench.ReceivesNothing event index

theorem delivers_of_chunk? {chunk : Chunk} (isChunk : bench.chunk? event = some chunk) :
    bench.Delivers event chunk := by
  obtain ⟨received, others⟩ := receives_of_chunk? isChunk
  have core := core_after bench event
  rw [isChunk] at core
  refine ⟨?_, received, others⟩
  rw [bytes_of_chunk? isChunk, core]

theorem deliversNothing_of_no_chunk (noChunk : bench.chunk? event = none) :
    bench.DeliversNothing event := by
  have core := core_after bench event
  rw [noChunk] at core
  exact ⟨core, receivesNothing_of_no_chunk noChunk⟩

end Workbench

/-- No byte of console output is lost, duplicated or reordered. Take a core whose output is a
queue, any number of sessions that share it, and any history of calls, of output from elsewhere
and of failures that poison the lock. Then the chunks that the sessions collect, in the order in
which they do so, followed by what remains in the queue, are what was in the queue and what the
core put there. Each chunk is delivered to the session that collects it, and to no other. -/
theorem console_output_conserved {σ : Type} [Core σ] {queue : σ → List UInt8}
    (queues : Core.QueuesOutput queue) (bench : Workbench σ) {history : List (Workbench.Event σ)}
    (onlyPuts : ∀ event ∈ history, event.OnlyPuts queue) :
    (bench.chunks history).flatMap Chunk.bytes ++ queue (bench.run history).core =
        queue bench.core ++ Workbench.produced queue bench history ∧
      ∀ before event later, history = before ++ event :: later →
        (∀ chunk, (bench.run before).chunk? event = some chunk →
          (bench.run before).Delivers event chunk) ∧
        ((bench.run before).chunk? event = none → (bench.run before).DeliversNothing event) :=
  ⟨Workbench.chunks_balance queues bench onlyPuts,
    fun _ _ _ _ => ⟨fun _ => Workbench.delivers_of_chunk?,
      Workbench.deliversNothing_of_no_chunk⟩⟩

/-! ### The stand-in core -/

namespace EchoCore

theorem output_move (core : EchoCore) : core.move.output = core.output := by
  unfold move
  split <;> rfl

theorem output_prefix_step (core : EchoCore) : core.output <+: core.step.output := by
  rw [← output_move core]
  unfold step echo
  split
  · exact List.prefix_rfl
  · exact List.prefix_append _ _

/-- The output of the stand-in core is a queue. -/
theorem queuesOutput : Core.QueuesOutput EchoCore.output where
  load _ _ _ := List.prefix_rfl
  reset _ := List.prefix_rfl
  step := output_prefix_step
  run core :=
    (output_prefix_step core).trans <| (output_prefix_step _).trans <|
      (output_prefix_step _).trans (output_prefix_step _)
  putChar _ _ := List.prefix_rfl
  takeChar_nil core isEmpty := by
    show core.takeChar = none
    rw [takeChar, isEmpty]
  takeChar_cons core byte later isQueue := by
    refine ⟨{ core with output := later }, ?_, rfl⟩
    show core.takeChar = _
    rw [takeChar, isQueue]

end EchoCore

private def idleProgram : Assembly :=
  assemble (["00", "00", "00", "00", "00", "00", "76"].map String.toList)

/-- Output from elsewhere. -/
private def burst (bytes : List UInt8) : Workbench.Event EchoCore :=
  .disturbance fun core => { core with output := core.output ++ bytes }

private def crowdedHistory : List (Workbench.Event EchoCore) :=
  [.call 0 (.launch idleProgram), .call 0 (.sendInput "AB".toList), burst [0x21],
    .call 1 .step, .call 1 .drainConsole, .call 0 .step, .call 2 (.launch (assemble [])),
    .call 2 (.launch idleProgram), burst [0x3F, 0x3F], .call 0 .reset, .call 2 .runSlice,
    .call 7 .drainConsole, burst [0x2E], .poisoning, .call 1 .drainConsole, burst [0x2E]]

/-- Session 1 was never launched and still collects. Session 2 collects the echo of what session
0 sent. What comes shortly before the failure stays in the queue. -/
theorem console_output_conserved_crowded :
    ((Workbench.initial EchoCore.initial 3).chunks crowdedHistory).flatMap Chunk.bytes ++
        ((Workbench.initial EchoCore.initial 3).run crowdedHistory).core.output =
      [0x21, 0x41, 0x3F, 0x3F, 0x42, 0x2E] ∧
    (Workbench.initial EchoCore.initial 3).chunks crowdedHistory =
      [⟨1, [0x21]⟩, ⟨0, [0x41]⟩, ⟨2, [0x3F, 0x3F, 0x42]⟩] := by
  have onlyPuts : ∀ event ∈ crowdedHistory, event.OnlyPuts EchoCore.output := by
    simp [crowdedHistory, burst, Workbench.Event.OnlyPuts]
  have conserved := console_output_conserved EchoCore.queuesOutput
    (Workbench.initial EchoCore.initial 3) onlyPuts
  refine ⟨conserved.1.trans (by decide +kernel), by decide +kernel⟩

end Asm8080
