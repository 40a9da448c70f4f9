import Mathlib.Logic.ExistsUnique
import Asm8080.Proofs.MnemonicMatch
import Asm8080.Proofs.ReportContents
import Asm8080.Proofs.Surroundings

/-!
Contract: what one invocation does to the files and to the standard output.

Owns:
- the sources that a request can find, and the ways in which a report can be sent;
- the sections that a request asks for;
- `one_invocation_one_output`: without a source nothing is sent, and with one the report of its
  assembly is sent once, to one destination, whether or not the assembly has faults.

Does not own: the laws of files and outputs, what is read in a report, the journal, and the exit
status.
-/

namespace Asm8080

theorem run_bind_of_run {σ α β : Type} {computation : StateM σ α} {rest : α → StateM σ β}
    {state next : σ} {value : α} (ran : computation.run state = (value, next)) :
    (computation >>= rest).run state = (rest value).run next := by
  rw [StateT.run_bind, ran]
  rfl

namespace Invocation

/-! ### The source of a request -/

/-- What loading the source of a request comes to: the sample that it names, and if it names none
the file at its path, which has to be readable and text. -/
inductive Loads {φ : Type} (store : FileStore φ) (files : φ) (arguments : Arguments) :
    Except InvocationFault Loaded → Prop where
  | sample {name : Text} {sample : Sample} (named : arguments.sample = some name)
      (found : Sample.find? name = some sample) :
      Loads store files arguments (.ok ⟨sample.name, sample.source⟩)
  | unknownSample {name : Text} (named : arguments.sample = some name)
      (missing : Sample.find? name = none) :
      Loads store files arguments (.error (.unknownSample name))
  | file {source : Text} (unnamed : arguments.sample = none)
      (read : store.read files (arguments.source.getD []) = .ok (Utf8.encode source)) :
      Loads store files arguments (.ok ⟨arguments.source.getD [], source⟩)
  | unreadable {fault : FileFault} (unnamed : arguments.sample = none)
      (refused : store.read files (arguments.source.getD []) = .error fault) :
      Loads store files arguments (.error (.read (arguments.source.getD []) fault))
  | notText {bytes : List UInt8} (unnamed : arguments.sample = none)
      (read : store.read files (arguments.source.getD []) = .ok bytes)
      (garbled : ∀ text, bytes ≠ Utf8.encode text) :
      Loads store files arguments (.error (.read (arguments.source.getD []) .notText))

section

variable {φ : Type} {store : FileStore φ} {files : φ} {arguments : Arguments}

theorem Loads.unique {outcome other : Except InvocationFault Loaded}
    (loads : Loads store files arguments outcome)
    (loadsOther : Loads store files arguments other) : outcome = other := by
  cases loads with
  | sample named found => cases loadsOther <;> simp_all
  | unknownSample named missing => cases loadsOther <;> simp_all
  | unreadable unnamed refused => cases loadsOther <;> simp_all
  | file unnamed read =>
    cases loadsOther with
    | file _ readOther =>
      have same := Except.ok.inj (read.symm.trans readOther)
      rw [Utf8.encode_injective same]
    | notText _ readOther garbled =>
      exact absurd (Except.ok.inj (readOther.symm.trans read)) (garbled _)
    | _ => simp_all
  | notText unnamed read garbled =>
    cases loadsOther with
    | file _ readOther => exact absurd (Except.ok.inj (read.symm.trans readOther)) (garbled _)
    | notText _ _ _ => rfl
    | _ => simp_all

theorem Loads.fault_cases {fault : InvocationFault}
    (fails : Loads store files arguments (.error fault)) :
    (∃ path why, fault = .read path why) ∨ ∃ name, fault = .unknownSample name := by
  cases fails with
  | unknownSample _ _ => exact .inr ⟨_, rfl⟩
  | unreadable _ _ => exact .inl ⟨_, _, rfl⟩
  | notText _ _ _ => exact .inl ⟨_, _, rfl⟩

/-- A source that is no sample is the content of the place that its path leads to. -/
theorem Loads.content? {loaded : Loaded} (loads : Loads store files arguments (.ok loaded))
    (unnamed : arguments.sample = none) :
    ∃ place, store.place? files (arguments.source.getD []) = some place ∧
      store.content? files place = some (Utf8.encode loaded.source) := by
  cases loads with
  | sample named found => exact nomatch unnamed.symm.trans named
  | file _ read => exact store.content?_read read

theorem loads_loadSample {name : Text} (named : arguments.sample = some name) :
    Loads store files arguments (loadSample name) := by
  unfold loadSample
  split
  next sample found => exact .sample named found
  next missing => exact .unknownSample named missing

theorem loads_decode {bytes : List UInt8} (unnamed : arguments.sample = none)
    (read : store.read files (arguments.source.getD []) = .ok bytes) :
    Loads store files arguments (decode (arguments.source.getD []) bytes) := by
  unfold decode
  split
  next source decoded =>
    rw [Utf8.decode?_eq_some_iff.mp decoded] at read
    exact .file unnamed read
  next undecoded =>
    refine .notText unnamed read ?_
    intro text isText
    rw [Utf8.decode?_eq_some_iff.mpr isText] at undecoded
    exact nomatch undecoded

end

/-! ### The way of a report -/

/-- The ways in which a text can be sent: it is printed, the standard output refuses it or the
rest of it, it becomes the output file, or that file refuses it. -/
inductive Sends {φ ω : Type} (store : FileStore φ) (outlet : Outlet ω) (before : Surface φ ω)
    (text : Text) : Option Text → Surface φ ω → Except InvocationFault Unit → Prop where
  | printed {output : ω} (succeeds : outlet.write before.output text = (.ok (), output)) :
      Sends store outlet before text none { before with output := output } (.ok ())
  | unprinted {fault : FileFault} {output : ω}
      (refuses : outlet.write before.output text = (.error fault, output)) :
      Sends store outlet before text none { before with output := output } (.error (.print fault))
  | written {path : Text} {files : φ}
      (succeeds : store.write before.files path (Utf8.encode text) = .ok files) :
      Sends store outlet before text (some path) { before with files := files } (.ok ())
  | refused {path : Text} {fault : FileFault}
      (refuses : store.write before.files path (Utf8.encode text) = .error fault) :
      Sends store outlet before text (some path) before (.error (.write path fault))

section

variable {φ ω : Type} {store : FileStore φ} {outlet : Outlet ω} {before after : Surface φ ω}
  {text : Text} {output : Option Text} {delivery : Except InvocationFault Unit}

/-- What is there before decides how a text is sent. -/
theorem Sends.unique {other : Surface φ ω} {otherDelivery : Except InvocationFault Unit}
    (sends : Sends store outlet before text output after delivery)
    (sendsOther : Sends store outlet before text output other otherDelivery) :
    after = other ∧ delivery = otherDelivery := by
  cases sends <;> cases sendsOther <;> simp_all

theorem Sends.content? (sends : Sends store outlet before text output after delivery)
    {path : Text} {place : store.Place} (isOutput : output = some path)
    (delivered : delivery = .ok ()) (leads : store.place? before.files path = some place) :
    store.content? after.files place = some (Utf8.encode text) := by
  cases sends with
  | printed => exact nomatch isOutput
  | unprinted => exact nomatch isOutput
  | refused => exact nomatch delivered
  | written succeeds =>
    cases isOutput
    exact store.content?_write succeeds leads

theorem Sends.content?_of_ne (sends : Sends store outlet before text output after delivery)
    {place : store.Place}
    (elsewhere : ∀ path, output = some path → store.place? before.files path ≠ some place) :
    store.content? after.files place = store.content? before.files place := by
  cases sends with
  | printed => rfl
  | unprinted => rfl
  | refused => rfl
  | written succeeds => exact store.content?_write_of_ne succeeds (elsewhere _ rfl)

theorem Sends.written_eq (sends : Sends store outlet before text output after delivery)
    (noFile : output = none) (delivered : delivery = .ok ()) :
    outlet.written after.output = outlet.written before.output ++ Utf8.encode text := by
  cases sends with
  | printed succeeds => exact outlet.written_write_ok succeeds
  | unprinted => exact nomatch delivered
  | written => exact nomatch noFile
  | refused => exact nomatch noFile

theorem Sends.output_eq (sends : Sends store outlet before text output after delivery)
    {path : Text} (isOutput : output = some path) : after.output = before.output := by
  cases sends with
  | printed => exact nomatch isOutput
  | unprinted => exact nomatch isOutput
  | written => rfl
  | refused => rfl

/-- A fault of sending is one of the destination. A file that refuses the text leaves everything
as it was; a standard output can have put out a part of it. -/
theorem Sends.fault_cases {fault : InvocationFault}
    (sends : Sends store outlet before text output after (.error fault)) :
    (∃ path why, output = some path ∧ fault = .write path why ∧ after = before) ∨
      output = none ∧ (∃ why, fault = .print why) ∧
        ∃ part, part <+: Utf8.encode text ∧
          outlet.written after.output = outlet.written before.output ++ part := by
  cases sends with
  | unprinted refuses => exact .inr ⟨rfl, ⟨_, rfl⟩, outlet.written_write_error refuses⟩
  | refused _ => exact .inl ⟨_, _, rfl, rfl, rfl⟩

end

/-! ### The parts of an invocation -/

theorem outcome_report (serialize : Serializer) (arguments : Arguments) (loaded : Loaded) :
    (outcome serialize arguments loaded).report =
      Report.render serialize arguments.format arguments.sections
        (assembleSource loaded.source) := by
  simp only [outcome, assembleSource, assemble, Assembler.assemble, tokenize]

theorem outcome_assembly (serialize : Serializer) (arguments : Arguments) (loaded : Loaded) :
    (outcome serialize arguments loaded).assembly = assembleSource loaded.source := by
  simp only [outcome, assembleSource, assemble, Assembler.assemble, tokenize]

theorem verdict_of_faultless {loaded : Loaded} {assembly : Assembly}
    (faultless : assembly.diagnostics = []) : verdict loaded assembly = .ok () := by
  simp [verdict, Assembly.success, faultless]

theorem verdict_of_faulty {loaded : Loaded} {assembly : Assembly}
    (faulty : assembly.diagnostics ≠ []) :
    verdict loaded assembly = .error (.assemblyFailed assembly.diagnostics.length loaded.name) := by
  simp [verdict, Assembly.success, faulty]

/-- Whether a request asks for a section: it names it, or it names none. -/
def asksFor (arguments : Arguments) (part : Sections → Bool) : Bool :=
  part arguments.flags ||
    !(arguments.flags.listing || arguments.flags.octal || arguments.flags.hex)

/-- The sections that a request asks for. -/
def asked (arguments : Arguments) : Sections where
  listing := asksFor arguments Sections.listing
  octal := asksFor arguments Sections.octal
  hex := asksFor arguments Sections.hex

theorem sections_eq_asked (arguments : Arguments) : arguments.sections = asked arguments := by
  obtain ⟨_, _, _, ⟨listing, octal, hex⟩, _, _⟩ := arguments
  cases listing <;> cases octal <;> cases hex <;> rfl

section

variable {σ φ ω : Type} {host : Host (StateM σ)} {store : FileStore φ} {outlet : Outlet ω}
  {surface : σ → Surface φ ω}

theorem run_load (serves : host.Serves store outlet surface) (arguments : Arguments) (state : σ) :
    ∃ outcome next, (load host arguments).run state = (outcome, next) ∧
      Loads store (surface state).files arguments outcome ∧ surface next = surface state := by
  unfold load
  cases named : arguments.sample with
  | some name => exact ⟨loadSample name, state, rfl, loads_loadSample named, rfl⟩
  | none =>
    obtain ⟨next, ran, kept⟩ := serves.readFile (arguments.source.getD []) state
    rw [run_bind_of_run ran]
    cases read : store.read (surface state).files (arguments.source.getD []) with
    | ok bytes => exact ⟨_, next, rfl, loads_decode named read, kept⟩
    | error fault => exact ⟨_, next, rfl, .unreadable named read, kept⟩

theorem run_deliver (serves : host.Serves store outlet surface) (output : Option Text)
    (report : Text) (state : σ) :
    ∃ delivery next, (deliver host output report).run state = (delivery, next) ∧
      Sends store outlet (surface state) report output (surface next) delivery := by
  unfold deliver
  cases output with
  | none =>
    cases attempt : outlet.write (surface state).output report with
    | mk result printed =>
      obtain ⟨next, ran, shown⟩ := serves.print attempt
      cases result with
      | ok =>
        refine ⟨.ok (), next, ?_, ?_⟩
        · rw [run_bind_of_run ran]
          rfl
        · rw [shown]
          exact .printed attempt
      | error fault =>
        refine ⟨.error (.print fault), next, ?_, ?_⟩
        · rw [run_bind_of_run ran]
          rfl
        · rw [shown]
          exact .unprinted attempt
  | some path =>
    cases attempt : store.write (surface state).files path (Utf8.encode report) with
    | ok written =>
      obtain ⟨next, ran, shown⟩ := serves.writeFile_ok attempt
      refine ⟨.ok (), next, ?_, ?_⟩
      · rw [run_bind_of_run ran]
        rfl
      · rw [shown]
        exact .written attempt
    | error fault =>
      obtain ⟨next, ran, kept⟩ := serves.writeFile_error attempt
      refine ⟨.error (.write path fault), next, ?_, ?_⟩
      · rw [run_bind_of_run ran]
        rfl
      · rw [kept]
        exact .refused attempt

theorem run_note (serves : host.Serves store outlet surface) (arguments : Arguments)
    (event : Event) (state : σ) :
    ∃ next, (note host arguments event).run state = ((), next) ∧ surface next = surface state := by
  unfold note
  split
  · exact ⟨_, rfl, serves.record event state⟩
  · exact ⟨state, rfl, rfl⟩

theorem run_noteAll (serves : host.Serves store outlet surface) (arguments : Arguments)
    (events : List Event) (state : σ) :
    ∃ next, (noteAll host arguments events).run state = ((), next) ∧
      surface next = surface state := by
  induction events generalizing state with
  | nil => exact ⟨state, rfl, rfl⟩
  | cons event rest inductionHypothesis =>
    obtain ⟨noted, ran, kept⟩ := run_note serves arguments event state
    obtain ⟨next, ranRest, keptRest⟩ := inductionHypothesis noted
    refine ⟨next, ?_, keptRest.trans kept⟩
    rw [noteAll, run_bind_of_run ran]
    exact ranRest

theorem run_conclude (serves : host.Serves store outlet surface) (arguments : Arguments)
    (loaded : Loaded) (assembly : Assembly) (report : Text) (state : σ) :
    ∃ delivery next,
      (conclude host arguments loaded assembly report).run state =
        (delivery.bind fun _ => verdict loaded assembly, next) ∧
      Sends store outlet (surface state) report arguments.output (surface next) delivery := by
  obtain ⟨noted, ranNoted, keptNoted⟩ := run_note serves arguments writingEvent state
  obtain ⟨delivery, sent, ranSent, sends⟩ := run_deliver serves arguments.output report noted
  rw [keptNoted] at sends
  rw [conclude, run_bind_of_run ranNoted, run_bind_of_run ranSent]
  cases delivery with
  | error fault => exact ⟨.error fault, sent, rfl, sends⟩
  | ok =>
    simp only
    by_cases faultless : assembly.success = true
    · rw [if_pos faultless]
      obtain ⟨final, ranFinal, keptFinal⟩ :=
        run_note serves arguments (successEvent loaded assembly) sent
      refine ⟨.ok (), final, ?_, ?_⟩
      · rw [run_bind_of_run ranFinal]
        rfl
      · rw [keptFinal]
        exact sends
    · rw [if_neg faultless]
      exact ⟨.ok (), sent, rfl, sends⟩

/-! ### A whole invocation -/

theorem run_execute_of_error (serves : host.Serves store outlet surface) {arguments : Arguments}
    {state : σ} {fault : InvocationFault}
    (fails : Loads store (surface state).files arguments (.error fault)) :
    ∃ next, (execute host arguments).run state = (.error fault, next) ∧
      surface next = surface state := by
  obtain ⟨outcome, next, ran, loads, kept⟩ := run_load serves arguments state
  cases fails.unique loads
  refine ⟨next, ?_, kept⟩
  rw [execute, run_bind_of_run ran]
  rfl

theorem run_execute_of_ok (serves : host.Serves store outlet surface) {arguments : Arguments}
    {state : σ} {loaded : Loaded}
    (succeeds : Loads store (surface state).files arguments (.ok loaded)) {report : Text}
    (rendered : Report.render host.serialize arguments.format arguments.sections
      (assembleSource loaded.source) = .ok report) :
    ∃ delivery next,
      (execute host arguments).run state =
        (delivery.bind fun _ => verdict loaded (assembleSource loaded.source), next) ∧
      Sends store outlet (surface state) report arguments.output (surface next) delivery := by
  obtain ⟨_, read, ran, loads, kept⟩ := run_load serves arguments state
  cases succeeds.unique loads
  rw [← outcome_report] at rendered
  rw [← outcome_assembly host.serialize arguments, execute, run_bind_of_run ran]
  simp only
  -- What follows is the same for every outcome, which no step below has to look into.
  generalize outcome host.serialize arguments loaded = shown at rendered ⊢
  obtain ⟨noted, ranNoted, keptNoted⟩ := run_noteAll serves arguments shown.events read
  rw [run_bind_of_run ranNoted, rendered, ← kept, ← keptNoted]
  exact run_conclude serves arguments loaded shown.assembly report noted

/-- For every host that keeps its files in a store and prints to an outlet, every state of it and
every request, loading comes to exactly one outcome. Without a source its fault, of reading or of
a sample's name, is the result, and neither the files nor the standard output change. With one,
which is a sample or the content of the place that the path leads to, the report of its assembly
is rendered: it presents the assembly in the form and with the sections that are asked for, and
no others. It is sent once, in a way that what is there before decides: behind what was printed,
or as the whole content of the place that the output path leads to. Every other place keeps its
content, and so does the standard output if there is an output path. A destination that refuses
the report gives its fault as the result; a file is then as it was, and the standard output can
have put out a part. The result is success exactly if the report was sent and the assembly has no
diagnostics; else a report that was sent is followed by their number. -/
theorem one_invocation_one_output (serves : host.Serves store outlet surface)
    (faithful : host.serialize.Faithful) (arguments : Arguments) (state : σ) :
    let before := surface state
    let result := ((execute host arguments).run state).1
    let after := surface ((execute host arguments).run state).2
    (∃! outcome, Loads store before.files arguments outcome) ∧
      (∀ fault, Loads store before.files arguments (.error fault) →
        ((∃ path why, fault = .read path why) ∨ ∃ name, fault = .unknownSample name) ∧
          result = .error fault ∧ after = before) ∧
      ∀ loaded, Loads store before.files arguments (.ok loaded) →
        let assembly := assembleSource loaded.source
        (arguments.sample = none →
          ∃ place, store.place? before.files (arguments.source.getD []) = some place ∧
            store.content? before.files place = some (Utf8.encode loaded.source)) ∧
        ∃ report delivery,
          Report.render host.serialize arguments.format arguments.sections assembly = .ok report ∧
          Report.Presents (asked arguments) assembly arguments.format report ∧
          Sends store outlet before report arguments.output after delivery ∧
          (∀ reached other, Sends store outlet before report arguments.output reached other →
            reached = after ∧ other = delivery) ∧
          (∀ path place, arguments.output = some path → delivery = .ok () →
            store.place? before.files path = some place →
            store.content? after.files place = some (Utf8.encode report)) ∧
          (∀ place, (∀ path, arguments.output = some path →
              store.place? before.files path ≠ some place) →
            store.content? after.files place = store.content? before.files place) ∧
          (arguments.output = none → delivery = .ok () →
            outlet.written after.output =
              outlet.written before.output ++ Utf8.encode report) ∧
          (∀ path, arguments.output = some path → after.output = before.output) ∧
          (∀ fault, delivery = .error fault → result = .error fault ∧
            ((∃ path why, arguments.output = some path ∧ fault = .write path why ∧
                after = before) ∨
              arguments.output = none ∧ (∃ why, fault = .print why) ∧
                ∃ part, part <+: Utf8.encode report ∧
                  outlet.written after.output = outlet.written before.output ++ part)) ∧
          (delivery = .ok () → assembly.diagnostics ≠ [] →
            result = .error (.assemblyFailed assembly.diagnostics.length loaded.name)) ∧
          (result = .ok () ↔ delivery = .ok () ∧ assembly.diagnostics = []) := by
  refine ⟨?_, ?_, ?_⟩
  · obtain ⟨outcome, _, _, loads, _⟩ := run_load serves arguments state
    exact ⟨outcome, loads, fun other loadsOther => loadsOther.unique loads⟩
  · intro fault fails
    obtain ⟨next, ran, kept⟩ := run_execute_of_error serves fails
    rw [ran]
    exact ⟨fails.fault_cases, rfl, kept⟩
  · intro loaded succeeds
    obtain ⟨report, rendered, presents⟩ :=
      Report.exists_render_presents faithful arguments.format arguments.sections
        (tokenize loaded.source)
    obtain ⟨delivery, next, ran, sends⟩ := run_execute_of_ok serves succeeds rendered
    rw [ran]
    refine ⟨succeeds.content?, report, delivery, rendered, ?_, sends,
      fun _ _ sendsOther => sendsOther.unique sends, fun _ _ => sends.content?,
      fun _ => sends.content?_of_ne, sends.written_eq, fun _ => sends.output_eq, ?_, ?_, ?_⟩
    · rw [← sections_eq_asked]
      exact presents
    · rintro fault rfl
      exact ⟨rfl, sends.fault_cases⟩
    · rintro rfl faulty
      simp only [Except.bind, verdict_of_faulty faulty]
    · cases delivery with
      | error fault => simp [Except.bind]
      | ok =>
        by_cases faultless : (assembleSource loaded.source).diagnostics = []
        · simp [Except.bind, verdict_of_faultless, faultless]
        · simp [Except.bind, verdict_of_faulty, faultless]

end

/-- A program with a fault. -/
private def draft : Text :=
  "JUNK\n".toList

private def full : FileFault :=
  .other "No space left on device (os error 28)".toList

/-- Two files, and a standard output that takes no more. -/
private def draftWorld : World where
  files := ⟨[(["draft".toList], Utf8.encode draft), (["notes".toList], [7])], []⟩
  printer := ⟨"so far".toList, some full⟩
  journal := []
  complaints := []

/-- A request for the hexadecimal image of the program. -/
private def requesting (format : ReportFormat) (output : Option Text) : Arguments where
  source := some "draft".toList
  sample := none
  format := format
  flags := ⟨false, false, true⟩
  output := output
  level := .warn

private theorem tokenize_draft : tokenize draft = ["JUNK".toList] := by
  simp only [tokenize, Tokenized.ofSource, prepare, Mnemonic.substitute_eq_defined]
  decide +kernel

/-- The plain report is written over the source, although the program has a fault. The JSON
report does not get to the standard output, and that is the fault of the request. -/
theorem one_invocation_one_output_draft :
    let overwriting := (execute World.host (requesting .text (some "./draft".toList))).run draftWorld
    let printing := (execute World.host (requesting .json none)).run draftWorld
    (overwriting.1 = .error (.assemblyFailed 1 "draft".toList) ∧
      overwriting.2.files.content? ["draft".toList] =
        some (Utf8.encode "\n\n; Hex\n\n\n; ORG address: 0000h\n".toList) ∧
      overwriting.2.files.content? ["notes".toList] = some [7] ∧
      overwriting.2.printer = draftWorld.printer) ∧
      printing.1 = .error (.print full) ∧ printing.2.files = draftWorld.files ∧
        printing.2.printer = draftWorld.printer := by
  have readable : draftWorld.files.read "draft".toList = .ok (Utf8.encode draft) := rfl
  constructor
  · have assembled : (assembleSource draft).diagnostics.length = 1 ∧
        Report.plain ⟨false, false, true⟩ (assembleSource draft) =
          "\n\n; Hex\n\n\n; ORG address: 0000h\n".toList := by
      rw [assembleSource, tokenize_draft]
      decide +kernel
    have faulty : (assembleSource draft).diagnostics ≠ [] :=
      List.ne_nil_of_length_pos (by rw [assembled.1]; decide)
    have here : draftWorld.files.place? "./draft".toList = some ["draft".toList] := rfl
    have writable (bytes : List UInt8) : draftWorld.files.write "./draft".toList bytes =
        .ok (draftWorld.files.put ["draft".toList] bytes) := rfl
    obtain ⟨_, _, withSource⟩ := one_invocation_one_output World.serves
      AssemblyReport.faithful_text (requesting .text (some "./draft".toList)) draftWorld
    obtain ⟨_, report, delivery, rendered, _, _, decided, content, kept, _, unprinted, _, failed, _⟩ :=
      withSource ⟨"draft".toList, draft⟩ (.file rfl readable)
    have isReport : report = "\n\n; Hex\n\n\n; ORG address: 0000h\n".toList :=
      (Except.ok.inj rendered).symm.trans assembled.2
    have delivered : delivery = .ok () := (decided _ _ (.written (writable _))).2.symm
    refine ⟨?_, ?_, ?_, unprinted _ rfl⟩
    · rw [← assembled.1]
      exact failed delivered faulty
    · rw [← isReport]
      exact content _ _ rfl delivered here
    · refine kept ["notes".toList] ?_
      rintro path ⟨⟩ leads
      have differ : (["draft".toList] : TreePath) ≠ ["notes".toList] := by decide
      exact differ (Option.some.inj (here.symm.trans leads))
  · obtain ⟨_, _, withSource⟩ := one_invocation_one_output World.serves
      AssemblyReport.faithful_text (requesting .json none) draftWorld
    obtain ⟨_, report, delivery, _, _, sends, _, _, _, _, _, refused, _⟩ :=
      withSource ⟨"draft".toList, draft⟩ (.file rfl readable)
    have way : Sends FileTree.store Printer.outlet ⟨draftWorld.files, draftWorld.printer⟩ report none
        ⟨draftWorld.files, draftWorld.printer⟩ (.error (.print full)) :=
      .unprinted rfl
    obtain ⟨same, isRefused⟩ := sends.unique way
    exact ⟨(refused _ isRefused).1, congrArg Surface.files same, congrArg Surface.output same⟩

end Invocation

end Asm8080
