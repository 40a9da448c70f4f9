import Asm8080.Proofs.SessionHistory

/-!
Contract: what a session reports of a batch of instructions.

Owns:
- a slice, a batch that a session had the core run, with the counter on either side of it and
  the report;
- the slices of a history, in order;
- the rule by which every slice is reported, over one event and over a history;
- the address behind the last one, which the rule takes for an address;
- `running_reports_iff`: a report is right unless the counter came to stand there.

Does not own: what the core does in a batch.
-/

namespace Asm8080

/-- A batch of instructions that a session had its core run: the program counter before and
behind it, and what the session reported. -/
structure Slice where
  session : Nat
  before : Nat
  after : Nat
  report : RunState
deriving DecidableEq, Repr

namespace Slice

/-- A program is running after a slice that moved the counter to an address. -/
def IsRight (slice : Slice) : Prop :=
  slice.report = .running ↔ slice.after ≠ slice.before ∧ slice.after ≤ 0xFFFF

instance (slice : Slice) : Decidable slice.IsRight := by
  unfold IsRight
  infer_instance

/-- The slice moved the counter to the place directly behind the last address. -/
def LeavesByOne (slice : Slice) : Prop :=
  slice.after ≠ slice.before ∧ slice.after = 0x10000

instance (slice : Slice) : Decidable slice.LeavesByOne := by
  unfold LeavesByOne
  infer_instance

/-- The rule by which a session reports. -/
def IsReported (slice : Slice) : Prop :=
  slice.report = Call.runState slice.before slice.after

theorem IsReported.running_iff {slice : Slice} (reported : slice.IsReported) :
    slice.report = .running ↔ slice.after ≠ slice.before ∧ slice.after ≤ 0x10000 := by
  have limit : Call.counterLimit = 0x10000 := rfl
  rw [reported, Call.runState]
  split
  · rename_i stopped
    constructor
    · intro running
      cases running
    · rintro ⟨moved, inside⟩
      rcases stopped with unmoved | outside
      · exact absurd unmoved.symm moved
      · omega
  · rename_i goesOn
    rw [not_or] at goesOn
    exact ⟨fun _ => ⟨Ne.symm goesOn.1, by omega⟩, fun _ => rfl⟩

/-- The rule and what it is meant to say part at one place only. -/
theorem IsReported.isRight_iff {slice : Slice} (reported : slice.IsReported) :
    slice.IsRight ↔ ¬slice.LeavesByOne := by
  unfold IsRight LeavesByOne
  rw [reported.running_iff]
  constructor
  · rintro right ⟨moved, atLimit⟩
    have inside := (right.mp ⟨moved, by omega⟩).2
    omega
  · intro elsewhere
    refine and_congr_right fun moved => ?_
    have notLimit : slice.after ≠ 0x10000 := fun atLimit => elsewhere ⟨moved, atLimit⟩
    omega

theorem IsReported.running_inside_iff {slice : Slice} (reported : slice.IsReported) :
    (slice.report = .running → slice.after ≤ 0xFFFF) ↔ ¬slice.LeavesByOne := by
  rw [← reported.isRight_iff, IsRight]
  constructor
  · intro inside
    refine ⟨fun running => ⟨(reported.running_iff.mp running).1, inside running⟩, ?_⟩
    rintro ⟨moved, atAddress⟩
    exact reported.running_iff.mpr ⟨moved, by omega⟩
  · intro right running
    exact (right.mp running).2

end Slice

/-! ### The slices of a history -/

namespace Workbench

variable {σ : Type} [Core σ]

/-- The slice that an event is, if it is one and succeeds. -/
def slice? (bench : Workbench σ) : Event σ → Option Slice
  | .call index .runSlice =>
      match (bench.carryOut index .runSlice).1 with
      | some (.ok (.state report)) =>
          some ⟨index, Core.currentAddress bench.core,
            Core.currentAddress (Core.run bench.core), report⟩
      | _ => none
  | _ => none

/-- The slices of a history that succeed, in order. -/
def slices (bench : Workbench σ) : List (Event σ) → List Slice
  | [] => []
  | event :: later => (bench.slice? event).toList ++ (bench.after event).slices later

/-- A launched session gets its slice, as long as the lock is sound. -/
theorem slice?_of_launched {bench : Workbench σ} {index : Nat} {session : Session}
    (isSession : bench.sessions[index]? = some session) (launched : session.isLaunched = true)
    (sound : bench.poisoned = false) :
    bench.slice? (.call index .runSlice) =
      some ⟨index, Core.currentAddress bench.core, Core.currentAddress (Core.run bench.core),
        Call.runState (Core.currentAddress bench.core)
          (Core.currentAddress (Core.run bench.core))⟩ := by
  have faultless : Command.runSlice.fault? (bench.seat session) = none := by
    simp [Command.fault?, Seat.launchedFault?, Seat.lockFault?, seat, launched, sound]
  dsimp only [slice?]
  rw [reply_of_session isSession, faultless]
  rfl

theorem isReported_of_slice? {bench : Workbench σ} {event : Event σ} {slice : Slice}
    (isSlice : bench.slice? event = some slice) : slice.IsReported := by
  unfold slice? at isSlice
  split at isSlice
  · rename_i index
    split at isSlice
    · rename_i report answered
      cases admission : bench.admitted? index .runSlice with
      | none =>
          have unanswered := bench.succeeds_eq index .runSlice
          rw [admission, succeeds, answered] at unanswered
          cases unanswered
      | some session =>
          rw [carryOut_of_admitted admission] at answered
          cases answered
          cases isSlice
          rfl
    · cases isSlice
  · cases isSlice

theorem isReported_of_mem_slices (bench : Workbench σ) (history : List (Event σ)) :
    ∀ slice ∈ bench.slices history, slice.IsReported := by
  induction history generalizing bench with
  | nil => exact fun _ member => nomatch member
  | cons event later inductionHypothesis =>
      intro slice member
      rw [slices, List.mem_append, Option.mem_toList] at member
      rcases member with isSlice | inLater
      · exact isReported_of_slice? isSlice
      · exact inductionHypothesis (bench.after event) slice inLater

end Workbench

/-- What a run slice reports. Take any core and any state in which a session has launched a
program and the lock is sound. The slice succeeds, and it reports a running program just if the
counter moved and stands at 10000h at most. The last address is FFFFh, so that the report is
right just if the slice did not move the counter to 10000h. In every history from there a running
program stands at 10000h at most, and always at an address just if no slice moved the counter to
10000h. -/
theorem running_reports_iff {σ : Type} [Core σ] (bench : Workbench σ) {index : Nat}
    {session : Session} (isSession : bench.sessions[index]? = some session)
    (launched : session.isLaunched = true) (sound : bench.poisoned = false) :
    (∃ slice, bench.slice? (.call index .runSlice) = some slice ∧
      slice.before = Core.currentAddress bench.core ∧
      slice.after = Core.currentAddress (Core.run bench.core) ∧
      (slice.report = .running ↔ slice.after ≠ slice.before ∧ slice.after ≤ 0x10000) ∧
      (slice.IsRight ↔ ¬slice.LeavesByOne)) ∧
    ∀ history,
      (∀ slice ∈ bench.slices history, slice.report = .running → slice.after ≤ 0x10000) ∧
      ((∀ slice ∈ bench.slices history, slice.report = .running → slice.after ≤ 0xFFFF) ↔
        ∀ slice ∈ bench.slices history, ¬slice.LeavesByOne) := by
  have isSlice := Workbench.slice?_of_launched isSession launched sound
  have reported := Workbench.isReported_of_slice? isSlice
  refine ⟨⟨_, isSlice, rfl, rfl, reported.running_iff, reported.isRight_iff⟩, fun history => ?_⟩
  have allReported := Workbench.isReported_of_mem_slices bench history
  constructor
  · intro slice member running
    exact ((allReported slice member).running_iff.mp running).2
  · exact forall₂_congr fun slice member => (allReported slice member).running_inside_iff

/-- A program of one instruction at the given origin, launched at a core that goes on behind the
end of the image. -/
private def launchedAt (origin : String) : Workbench EchoCore :=
  (Workbench.initial EchoCore.initial 1).run
    [.call 0 (.launch (assemble (["ORG", origin, "00"].map String.toList)))]

/-- The second slice leaves the address space and steps over the place behind its end. -/
theorem running_reports_iff_stepsOver :
    (launchedAt "0FFFAH").slices [.call 0 .runSlice, .call 0 .runSlice] =
        [⟨0, 0xFFFA, 0xFFFE, .running⟩, ⟨0, 0xFFFE, 0x10002, .stopped⟩] ∧
      ∀ slice ∈ (launchedAt "0FFFAH").slices [.call 0 .runSlice, .call 0 .runSlice],
        slice.report = .running → slice.after ≤ 0xFFFF := by
  have slices : (launchedAt "0FFFAH").slices [.call 0 .runSlice, .call 0 .runSlice] =
      [⟨0, 0xFFFA, 0xFFFE, .running⟩, ⟨0, 0xFFFE, 0x10002, .stopped⟩] := by decide +kernel
  have isSession : (launchedAt "0FFFAH").sessions[0]? =
      some ⟨some (assemble (["ORG", "0FFFAH", "00"].map String.toList)).listing, []⟩ := by
    decide +kernel
  have reports := (running_reports_iff (launchedAt "0FFFAH") isSession rfl (by decide +kernel)).2
    [.call 0 .runSlice, .call 0 .runSlice]
  refine ⟨slices, reports.2.mpr ?_⟩
  rw [slices]
  decide

/-- The slice ends directly behind the last address, and the program counts as running. -/
theorem running_behind_last_address :
    (launchedAt "0FFFCH").slices [.call 0 .runSlice] = [⟨0, 0xFFFC, 0x10000, .running⟩] ∧
      ¬∀ slice ∈ (launchedAt "0FFFCH").slices [.call 0 .runSlice], slice.IsRight := by
  have slices : (launchedAt "0FFFCH").slices [.call 0 .runSlice] =
      [⟨0, 0xFFFC, 0x10000, .running⟩] := by decide +kernel
  refine ⟨slices, ?_⟩
  rw [slices]
  decide

end Asm8080
