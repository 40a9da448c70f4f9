import Asm8080.Proofs.LoadedImage
import Asm8080.Proofs.SessionHistory

/-!
Contract: what reaches the core, and the program that it then holds.

Owns:
- the calls of a core that change it, and a core that keeps a record of them. Without the record
  it is the core that it was, so that a recorded run is the run;
- the calls that each event makes;
- cores that store the image that they are given, and the image after a history;
- `launch_gate`: only launched programs are loaded and run, for every history.

Does not own: what a core does with its program.
-/

namespace Asm8080

/-! ### A core that keeps a record -/

/-- A call that may change a core, the taking of its output aside. -/
inductive CoreCall where
  | load (hex : Text) (origin : UInt16)
  | reset
  | step
  | run
  | putChar (byte : UInt8)
deriving DecidableEq, Repr

namespace CoreCall

/-- The image and the origin that a call loads. -/
def load? : CoreCall → Option (Text × UInt16)
  | .load hex origin => some (hex, origin)
  | _ => none

/-- Whether a call runs a program or feeds it. -/
def drives : CoreCall → Bool
  | .step => true
  | .run => true
  | .putChar _ => true
  | _ => false

end CoreCall

/-- A core with the calls that were made to it. -/
structure Recorded (σ : Type) where
  core : σ
  calls : List CoreCall
deriving DecidableEq, Repr

namespace Recorded

variable {σ : Type}

/-- The recorded core after a call that turns the core into `core`. -/
def note (recorded : Recorded σ) (call : CoreCall) (core : σ) : Recorded σ :=
  ⟨core, recorded.calls ++ [call]⟩

variable [Core σ]

instance : Core (Recorded σ) where
  load hex origin recorded := recorded.note (.load hex origin) (Core.load hex origin recorded.core)
  reset recorded := recorded.note .reset (Core.reset recorded.core)
  step recorded := recorded.note .step (Core.step recorded.core)
  run recorded := recorded.note .run (Core.run recorded.core)
  currentAddress recorded := Core.currentAddress recorded.core
  addressBus recorded := Core.addressBus recorded.core
  dataBus recorded := Core.dataBus recorded.core
  putChar byte recorded := recorded.note (.putChar byte) (Core.putChar byte recorded.core)
  takeChar recorded :=
    (Core.takeChar recorded.core).map fun taken => (taken.1, ⟨taken.2, recorded.calls⟩)
  waitingForInput recorded := Core.waitingForInput recorded.core
  pending recorded := Core.pending recorded.core
  pending_takeChar recorded byte rest taken := by
    obtain ⟨⟨first, left⟩, isTaken, isRest⟩ := Option.map_eq_some_iff.mp taken
    obtain ⟨rfl, rfl⟩ := Prod.mk.inj isRest
    exact Core.pending_takeChar recorded.core first left isTaken

theorem drain_eq (core : σ) (calls : List CoreCall) :
    Core.drain (⟨core, calls⟩ : Recorded σ) =
      ((Core.drain core).1, ⟨(Core.drain core).2, calls⟩) := by
  induction isPending : Core.pending core using Nat.strong_induction_on generalizing core with
  | h bound inductionHypothesis =>
      cases taken : Core.takeChar core with
      | none =>
          have isDry : Core.takeChar (⟨core, calls⟩ : Recorded σ) = none :=
            Option.map_eq_none_iff.mpr taken
          rw [Core.drain_of_none taken, Core.drain_of_none isDry]
      | some pair =>
          obtain ⟨byte, rest⟩ := pair
          have takes : Core.takeChar (⟨core, calls⟩ : Recorded σ) = some (byte, ⟨rest, calls⟩) :=
            Option.map_eq_some_iff.mpr ⟨(byte, rest), taken, rfl⟩
          have fewer := Core.pending_takeChar core byte rest taken
          rw [Core.drain_of_some taken, Core.drain_of_some takes,
            inductionHypothesis (Core.pending rest) (by omega) rest rfl]

theorem putAll_eq (bytes : List UInt8) (core : σ) (calls : List CoreCall) :
    Core.putAll bytes (⟨core, calls⟩ : Recorded σ) =
      ⟨Core.putAll bytes core, calls ++ bytes.map CoreCall.putChar⟩ := by
  induction bytes generalizing core calls with
  | nil => simp [Core.putAll]
  | cons byte later inductionHypothesis =>
      have rest := inductionHypothesis (Core.putChar byte core) (calls ++ [.putChar byte])
      rw [List.append_assoc] at rest
      exact rest

end Recorded

/-! ### The calls of a history -/

namespace Command

/-- The calls that a command makes to the core. -/
def coreCalls : Command → List CoreCall
  | .launch assembly => [.load assembly.hex assembly.origin, .reset]
  | .step => [.step]
  | .reset => [.reset]
  | .runSlice => [.run]
  | .sendInput text => (Utf8.encode text).map .putChar
  | _ => []

variable {σ : Type} [Core σ]

theorem work_recorded (command : Command) (core : σ) (calls : List CoreCall) :
    command.work (⟨core, calls⟩ : Recorded σ) =
      ⟨command.work core, calls ++ command.coreCalls⟩ := by
  cases command with
  | launch assembly =>
      show Recorded.mk _ (calls ++ [_] ++ [_]) = _
      rw [List.append_assoc]
      rfl
  | sendInput text => exact Recorded.putAll_eq _ core calls
  | step | reset | runSlice => rfl
  | _ =>
      show Recorded.mk core calls = ⟨core, calls ++ []⟩
      rw [List.append_nil]

theorem collected_recorded (command : Command) (core : σ) (calls : List CoreCall) :
    command.collected (⟨core, calls⟩ : Recorded σ) =
      ((command.collected core).1, ⟨(command.collected core).2, calls ++ command.coreCalls⟩) := by
  unfold collected
  rw [work_recorded, Recorded.drain_eq]
  split <;> rfl

omit [Core σ] in
/-- What drives a program needs one that is launched. -/
theorem fault?_of_drives {command : Command} {call : CoreCall}
    (member : call ∈ command.coreCalls) (drives : call.drives = true) (seat : Seat σ) :
    command.fault? seat = seat.launchedFault? := by
  cases command with
  | launch assembly =>
      simp only [coreCalls, List.mem_cons, List.not_mem_nil, or_false] at member
      rcases member with rfl | rfl
      · cases drives
      · cases drives
  | drainConsole => cases member
  | _ => rfl

end Command

namespace Workbench

variable {σ : Type}

/-- An event at a workbench whose core keeps a record. What others do to the core is not
recorded. -/
def Event.recorded : Event σ → Event (Recorded σ)
  | .call index command => .call index command
  | .disturbance update => .disturbance fun recorded => ⟨update recorded.core, recorded.calls⟩
  | .poisoning => .poisoning

/-- The workbench with a record of earlier calls. -/
def recording (bench : Workbench σ) (calls : List CoreCall) : Workbench (Recorded σ) :=
  ⟨⟨bench.core, calls⟩, bench.poisoned, bench.sessions⟩

variable [Core σ]

/-- The calls to the core that an event makes. -/
def coreCalls (bench : Workbench σ) : Event σ → List CoreCall
  | .call index command => if bench.succeeds index command then command.coreCalls else []
  | _ => []

omit [Core σ] in
theorem admitted?_recording (bench : Workbench σ) (calls : List CoreCall) (index : Nat)
    (command : Command) :
    (bench.recording calls).admitted? index command = bench.admitted? index command := by
  cases command <;> rfl

theorem after_recorded (bench : Workbench σ) (calls : List CoreCall) (event : Event σ) :
    (bench.recording calls).after event.recorded =
      (bench.after event).recording (calls ++ bench.coreCalls event) := by
  cases event with
  | poisoning =>
      show (bench.poison).recording calls = bench.poison.recording (calls ++ [])
      rw [List.append_nil]
  | disturbance update =>
      simp only [Event.recorded, after, disturb, coreCalls, List.append_nil]
      show (if bench.poisoned = true then _ else _) = _
      split <;> rfl
  | call index command =>
      show (bench.recording calls).after (.call index command) = _
      have sameAdmission := bench.admitted?_recording calls index command
      rw [after, after, coreCalls, succeeds_eq]
      cases admission : bench.admitted? index command with
      | none =>
          rw [admission] at sameAdmission
          rw [carryOut_of_not_admitted admission, carryOut_of_not_admitted sameAdmission]
          simp
      | some session =>
          rw [admission] at sameAdmission
          rw [carryOut_of_admitted admission, carryOut_of_admitted sameAdmission]
          simp [leave, Command.seatAfter, seat, recording, Command.collected_recorded]

/-- The calls to the core that a history makes. -/
def allCoreCalls (bench : Workbench σ) : List (Event σ) → List CoreCall
  | [] => []
  | event :: later => bench.coreCalls event ++ (bench.after event).allCoreCalls later

theorem allCoreCalls_append (bench : Workbench σ) (before later : List (Event σ)) :
    bench.allCoreCalls (before ++ later) =
      bench.allCoreCalls before ++ (bench.run before).allCoreCalls later := by
  induction before generalizing bench with
  | nil => rfl
  | cons event rest inductionHypothesis =>
      simp only [List.cons_append, allCoreCalls, inductionHypothesis, List.append_assoc]
      rfl

/-- A recorded run is the run, together with the calls of its events. -/
theorem run_recorded (bench : Workbench σ) (calls : List CoreCall) (history : List (Event σ)) :
    (bench.recording calls).run (history.map Event.recorded) =
      (bench.run history).recording (calls ++ bench.allCoreCalls history) := by
  induction history generalizing bench calls with
  | nil =>
      show bench.recording calls = bench.recording (calls ++ [])
      rw [List.append_nil]
  | cons event later inductionHypothesis =>
      calc
        (bench.recording calls).run ((event :: later).map Event.recorded) =
            ((bench.recording calls).after event.recorded).run (later.map Event.recorded) := rfl
        _ = ((bench.after event).recording (calls ++ bench.coreCalls event)).run
              (later.map Event.recorded) := by
          rw [after_recorded]
        _ = (bench.run (event :: later)).recording
              (calls ++ bench.allCoreCalls (event :: later)) := by
          rw [inductionHypothesis, List.append_assoc]
          rfl

/-! ### Loads and launches -/

theorem loads_coreCalls (bench : Workbench σ) (event : Event σ) :
    (bench.coreCalls event).filterMap CoreCall.load? =
      (bench.launch? event).toList.map fun launch =>
        (launch.assembly.hex, launch.assembly.origin) := by
  cases event with
  | poisoning | disturbance update => rfl
  | call index command =>
      rw [coreCalls]
      cases command with
      | launch assembly =>
          rw [launch?]
          split <;> rfl
      | sendInput text =>
          have noLoad (bytes : List UInt8) :
              (bytes.map CoreCall.putChar).filterMap CoreCall.load? = [] := by
            rw [List.filterMap_map]
            exact List.filterMap_eq_nil_iff.mpr fun _ _ => rfl
          split
          · exact noLoad _
          · rfl
      | _ => split <;> rfl

/-- The core is given the programs that are launched, each once and in that order. -/
theorem loads_allCoreCalls (bench : Workbench σ) (history : List (Event σ)) :
    (bench.allCoreCalls history).filterMap CoreCall.load? =
      (bench.launches history).map fun launch =>
        (launch.assembly.hex, launch.assembly.origin) := by
  induction history generalizing bench with
  | nil => rfl
  | cons event later inductionHypothesis =>
      rw [allCoreCalls, launches, List.filterMap_append, List.map_append, loads_coreCalls,
        inductionHypothesis]

theorem launchFault?_of_succeeds {bench : Workbench σ} {index : Nat} {assembly : Assembly}
    (answered : bench.succeeds index (.launch assembly) = true) :
    assembly.launchFault? = none := by
  rw [succeeds_eq] at answered
  obtain ⟨session, admission⟩ := Option.isSome_iff_exists.mp answered
  have faultless := (Option.filter_eq_some_iff.mp admission).2
  exact (Option.or_eq_none_iff.mp (Option.isNone_iff_eq_none.mp faultless)).1

end Workbench

/-- An assembly that can be launched succeeded, and it has bytes. -/
theorem Assembly.of_launchFault? {assembly : Assembly} (faultless : assembly.launchFault? = none) :
    assembly.success = true ∧ assembly.bytes ≠ [] := by
  unfold launchFault? at faultless
  cases succeeds : assembly.success with
  | false => simp [succeeds] at faultless
  | true =>
      refine ⟨rfl, fun noBytes => ?_⟩
      have noText : assembly.hex = [] := by
        show assembly.bytes.flatMap Numeral.hexByte = []
        rw [noBytes]
        rfl
      simp [succeeds, noText] at faultless

namespace Workbench

variable {σ : Type} [Core σ]

theorem accepted_of_mem_launches {bench : Workbench σ} {history : List (Event σ)}
    {launch : Launch} (member : launch ∈ bench.launches history) :
    launch.assembly.success = true ∧ launch.assembly.bytes ≠ [] := by
  induction history generalizing bench with
  | nil => cases member
  | cons event later inductionHypothesis =>
      rw [launches, List.mem_append, Option.mem_toList] at member
      rcases member with now | afterwards
      · unfold launch? at now
        split at now
        · split at now
          · rename_i answered
            rw [← Option.some.inj now]
            exact Assembly.of_launchFault? (launchFault?_of_succeeds answered)
          · cases now
        · cases now
      · exact inductionHypothesis afterwards

/-- A call that drives a program comes from a session that has launched one. -/
theorem launched_of_drives {core : σ} {count : Nat} {before : List (Event σ)} {event : Event σ}
    {call : CoreCall}
    (member : call ∈ ((initial core count).run before).coreCalls event)
    (drives : call.drives = true) :
    ∃ index command, event = .call index command ∧
      (initial core count).launchesOf index before ≠ [] := by
  cases event with
  | poisoning | disturbance update => cases member
  | call index command =>
      refine ⟨index, command, rfl, fun noLaunch => ?_⟩
      rw [coreCalls] at member
      split at member
      · rename_i answered
        rw [succeeds_eq] at answered
        obtain ⟨session, admission⟩ := Option.isSome_iff_exists.mp answered
        obtain ⟨isSession, faultless⟩ := Option.filter_eq_some_iff.mp admission
        have isIdle := isLaunched_run isSession
        rw [noLaunch] at isIdle
        rw [Command.fault?_of_drives member drives, Seat.launchedFault?] at faultless
        simp [seat, isIdle] at faultless
      · cases member

end Workbench

/-! ### The stored image -/

/-- The core stores the bytes of an image that is loaded, with their origin, and nothing else
changes these. -/
structure Core.StoresImage {σ : Type} [Core σ] (image : σ → List UInt8 × UInt16) : Prop where
  load : ∀ hex bytes origin core, Hex.decode hex = .ok bytes →
    image (Core.load hex origin core) = (bytes, origin)
  reset : ∀ core, image (Core.reset core) = image core
  step : ∀ core, image (Core.step core) = image core
  run : ∀ core, image (Core.run core) = image core
  putChar : ∀ byte core, image (Core.putChar byte core) = image core
  takeChar : ∀ core byte rest, Core.takeChar core = some (byte, rest) → image rest = image core

namespace Core.StoresImage

variable {σ : Type} [Core σ] {image : σ → List UInt8 × UInt16} (stores : StoresImage image)

include stores

theorem putAll (bytes : List UInt8) (core : σ) : image (Core.putAll bytes core) = image core := by
  induction bytes generalizing core with
  | nil => rfl
  | cons byte later inductionHypothesis =>
      exact (inductionHypothesis (Core.putChar byte core)).trans (stores.putChar byte core)

theorem drain (core : σ) : image (Core.drain core).2 = image core := by
  induction isPending : Core.pending core using Nat.strong_induction_on generalizing core with
  | h bound inductionHypothesis =>
      cases taken : Core.takeChar core with
      | none => rw [Core.drain_of_none taken]
      | some pair =>
          obtain ⟨byte, rest⟩ := pair
          have fewer := Core.pending_takeChar core byte rest taken
          rw [Core.drain_of_some taken,
            inductionHypothesis (Core.pending rest) (by omega) rest rfl]
          exact stores.takeChar core byte rest taken

theorem work_launch (assembly : Assembly) (core : σ) :
    image ((Command.launch assembly).work core) = (assembly.bytes, assembly.origin) := by
  show image (Core.reset (Core.load assembly.hex assembly.origin core)) = _
  rw [stores.reset]
  exact stores.load _ _ _ core (Hex.decode_hexBytes assembly.bytes)

theorem work_of_ne_launch {command : Command} (notLaunch : ∀ assembly, command ≠ .launch assembly)
    (core : σ) : image (command.work core) = image core := by
  cases command with
  | launch assembly => exact absurd rfl (notLaunch assembly)
  | step => exact stores.step core
  | reset => exact stores.reset core
  | runSlice => exact stores.run core
  | sendInput text => exact stores.putAll _ core
  | _ => rfl

end Core.StoresImage

namespace Workbench

variable {σ : Type}

/-- From outside, the stored image is left alone. -/
def Event.Keeps (image : σ → List UInt8 × UInt16) : Event σ → Prop
  | .disturbance update => ∀ core, image (update core) = image core
  | _ => True

variable [Core σ] {image : σ → List UInt8 × UInt16}

/-- The image behind a launch, if there is one, where `last` was the image before. -/
def imageAfter (last : List UInt8 × UInt16) (launch? : Option Launch) : List UInt8 × UInt16 :=
  (launch?.map fun launch => (launch.assembly.bytes, launch.assembly.origin)).getD last

theorem imageAfter_imageAfter (last : List UInt8 × UInt16) (first second : Option Launch) :
    imageAfter (imageAfter last first) second = imageAfter last (second.or first) := by
  cases second <;> rfl

section Image

variable (stores : Core.StoresImage image)

include stores

theorem image_worked (bench : Workbench σ) {event : Event σ} (keeps : event.Keeps image) :
    image (bench.worked event) = imageAfter (image bench.core) (bench.launch? event) := by
  cases event with
  | poisoning => rfl
  | disturbance update =>
      rw [worked]
      split
      · rfl
      · exact keeps bench.core
  | call index command =>
      by_cases isLaunch : ∃ assembly, command = .launch assembly
      · obtain ⟨assembly, rfl⟩ := isLaunch
        rw [worked, launch?, succeeds_eq]
        split
        · exact stores.work_launch assembly bench.core
        · rfl
      · have notLaunch := not_exists.mp isLaunch
        have noLaunch : bench.launch? (.call index command) = none := by
          cases command with
          | launch assembly => exact absurd rfl (notLaunch assembly)
          | _ => rfl
        rw [worked, noLaunch]
        split
        · exact stores.work_of_ne_launch notLaunch bench.core
        · rfl

theorem image_after (bench : Workbench σ) {event : Event σ} (keeps : event.Keeps image) :
    image (bench.after event).core = imageAfter (image bench.core) (bench.launch? event) := by
  rw [← image_worked stores bench keeps, core_after]
  split
  · exact stores.drain _
  · rfl

/-- The core holds the program of the last launch, whoever launched it. -/
theorem image_run (bench : Workbench σ) {history : List (Event σ)}
    (keeps : ∀ event ∈ history, event.Keeps image) :
    image (bench.run history).core =
      imageAfter (image bench.core) (bench.launches history).getLast? := by
  induction history generalizing bench with
  | nil => rfl
  | cons event later inductionHypothesis =>
      have afterwards := inductionHypothesis (bench.after event)
        fun other member => keeps other (List.mem_cons_of_mem event member)
      have now := image_after stores bench (keeps event List.mem_cons_self)
      rw [now, imageAfter_imageAfter] at afterwards
      rw [launches, List.getLast?_append]
      cases launch : bench.launch? event with
      | none =>
          rw [launch] at afterwards
          exact afterwards
      | some own =>
          rw [launch] at afterwards
          exact afterwards

end Image

/-- The calls that the sessions of a fresh workbench make to its core in a history. -/
def record (core : σ) (count : Nat) (history : List (Event σ)) : List CoreCall :=
  ((initial (⟨core, []⟩ : Recorded σ) count).run (history.map Event.recorded)).core.calls

theorem record_eq (core : σ) (count : Nat) (history : List (Event σ)) :
    record core count history = (initial core count).allCoreCalls history := by
  have recorded := run_recorded (initial core count) [] history
  exact congrArg (fun bench => bench.core.calls) recorded

end Workbench

/-- The launch gate. Take any core, any number of sessions that share it, and any history. A core
that keeps a record of the calls made to it behaves like the core without. By this record, the
core is given an image once for each launch that succeeds, which is that of an assembly without
faults and with at least one byte. A session makes no call that drives a program unless it has
launched one itself. If the core stores the image that it is given, it holds at all times the
bytes and the origin of the last launch by any session, while the listing of a session is that
of its own last launch. -/
theorem launch_gate {σ : Type} [Core σ] (core : σ) (count : Nat)
    (history : List (Workbench.Event σ)) :
    (Workbench.initial (⟨core, []⟩ : Recorded σ) count).run
          (history.map Workbench.Event.recorded) =
        ((Workbench.initial core count).run history).recording
          (Workbench.record core count history) ∧
      (Workbench.record core count history).filterMap CoreCall.load? =
        ((Workbench.initial core count).launches history).map (fun launch =>
          (launch.assembly.hex, launch.assembly.origin)) ∧
      (∀ launch ∈ (Workbench.initial core count).launches history,
        launch.assembly.success = true ∧ launch.assembly.bytes ≠ []) ∧
      (∀ before event later, history = before ++ event :: later →
        ∃ made,
          Workbench.record core count (before ++ [event]) =
            Workbench.record core count before ++ made ∧
          ∀ call ∈ made, call.drives = true → ∃ index command, event = .call index command ∧
            (Workbench.initial core count).launchesOf index before ≠ []) ∧
      (∀ image : σ → List UInt8 × UInt16, Core.StoresImage image →
        (∀ event ∈ history, event.Keeps image) →
          image ((Workbench.initial core count).run history).core =
            (((Workbench.initial core count).launches history).getLast?.map fun launch =>
              (launch.assembly.bytes, launch.assembly.origin)).getD (image core)) ∧
      (∀ index session,
        ((Workbench.initial core count).run history).sessions[index]? = some session →
          session.listing = ((Workbench.initial core count).launchesOf index history).getLast?.map
            fun launch => launch.assembly.listing) := by
  refine ⟨?_, ?_, fun _ => Workbench.accepted_of_mem_launches, ?_, ?_, ?_⟩
  · rw [Workbench.record_eq]
    exact Workbench.run_recorded (Workbench.initial core count) [] history
  · rw [Workbench.record_eq, Workbench.loads_allCoreCalls]
  · intro before event later _
    refine ⟨((Workbench.initial core count).run before).coreCalls event, ?_,
      fun _ => Workbench.launched_of_drives⟩
    simp only [Workbench.record_eq, Workbench.allCoreCalls_append, Workbench.allCoreCalls,
      List.append_nil]
  · intro image stores keeps
    exact Workbench.image_run stores (Workbench.initial core count) keeps
  · intro index session isSession
    obtain ⟨first, isFirst, isFresh⟩ := Workbench.initial_of_session isSession
    rw [Workbench.listing_run _ history isFirst isSession, isFresh]
    exact Option.or_none

/-! ### The stand-in core -/

namespace EchoCore

/-- The stored image of the stand-in core. -/
def image (core : EchoCore) : List UInt8 × UInt16 :=
  (core.memory, core.origin)

theorem image_step (core : EchoCore) : core.step.image = core.image := by
  have moved : core.move.image = core.image := by
    unfold move
    split <;> rfl
  rw [← moved]
  unfold step echo
  split <;> rfl

theorem storesImage : Core.StoresImage image where
  load hex bytes origin core isImage := by
    show ((Hex.decode hex).toOption.getD [], origin) = (bytes, origin)
    rw [isImage]
    rfl
  reset _ := rfl
  step := image_step
  run core := by
    show core.step.step.step.step.image = core.image
    simp only [image_step]
  putChar _ _ := rfl
  takeChar core byte rest taken := by
    change core.takeChar = some (byte, rest) at taken
    unfold takeChar at taken
    split at taken
    · cases taken
    · rw [← (Prod.mk.inj (Option.some.inj taken)).2]
      rfl

end EchoCore

private def haltProgram : Assembly :=
  assemble (["ORG", "10H", "76"].map String.toList)

private def loopProgram : Assembly :=
  assemble (["LOOP:", "C3", "LOOP"].map String.toList)

private def rivalHistory : List (Workbench.Event EchoCore) :=
  [.call 0 .step, .call 0 (.launch haltProgram), .call 1 (.sendInput "A".toList),
    .call 1 (.launch (assemble [])), .call 1 (.launch loopProgram), .call 0 .step, .poisoning,
    .call 0 (.launch haltProgram)]

/-- Two sessions launch programs of their own. The core has the second one when the first
session steps, and the lock is poisoned before it can go back. -/
theorem launch_gate_rivals :
    ((Workbench.initial EchoCore.initial 2).run rivalHistory).core.image =
        ([0xC3, 0x00, 0x00], 0) ∧
      (Workbench.record EchoCore.initial 2 rivalHistory).filterMap CoreCall.load? =
        [("76".toList, 0x10), ("C30000".toList, 0)] := by
  obtain ⟨_, loads, _, _, images, _⟩ := launch_gate EchoCore.initial 2 rivalHistory
  have keeps : ∀ event ∈ rivalHistory, event.Keeps EchoCore.image := by
    simp [rivalHistory, Workbench.Event.Keeps]
  exact ⟨(images EchoCore.image EchoCore.storesImage keeps).trans (by decide +kernel),
    loads.trans (by decide +kernel)⟩

end Asm8080
