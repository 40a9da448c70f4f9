import Mathlib.Tactic.SplitIfs
import Asm8080.Command.Invocation

/-!
Contract: the surroundings of an invocation, by their laws.

Owns:
- the texts that byte lists stand for;
- a store of files, as far as an invocation can tell one from another, and the tree of files
  below a working directory as such a store;
- a standard output, whose writes can fail before the end of a text, and the printer in memory
  as such an output;
- a host that keeps its files in a store and prints to an output, and the world as such a host.

Does not own: what an invocation asks of its surroundings.
-/

namespace Asm8080

namespace Utf8

theorem toByteArray_encode (text : Text) :
    ByteArray.mk (encode text).toArray = (String.ofList text).toByteArray := by
  rw [String.toByteArray_ofList]
  exact ByteArray.ext List.data_toByteArray.symm

theorem decode?_encode (text : Text) : decode? (encode text) = some text := by
  have valid := (String.ofList text).isValidUTF8
  rw [decode?, toByteArray_encode, String.fromUTF8?, dif_pos valid]
  exact congrArg some String.toList_ofList

/-- Bytes decode to the one text that they encode. -/
theorem decode?_eq_some_iff {bytes : List UInt8} {text : Text} :
    decode? bytes = some text ↔ bytes = encode text := by
  constructor
  · intro decoded
    unfold decode? String.fromUTF8? at decoded
    split at decoded
    next valid =>
      have read : (String.fromUTF8 ⟨bytes.toArray⟩ valid).toList = text := Option.some.inj decoded
      have same : ByteArray.mk bytes.toArray = ByteArray.mk (encode text).toArray := by
        rw [toByteArray_encode, ← read, String.ofList_toList]
        rfl
      exact List.toArray_inj (congrArg ByteArray.data same)
    next => exact nomatch decoded
  · rintro rfl
    exact decode?_encode text

theorem encode_append (text other : Text) :
    encode (text ++ other) = encode text ++ encode other :=
  List.flatMap_append

theorem encode_injective {text other : Text} (same : encode text = encode other) :
    text = other :=
  Option.some.inj ((decode?_encode text).symm.trans (decode?_eq_some_iff.mpr same))

end Utf8

/-! ### Stores of files -/

/-- A store of files. Several paths can lead to one place, and a path can lead to none that
the store shows. Which paths can be read and written is the store's affair, and so is what else
it keeps, such as the number of its writes. -/
structure FileStore (φ : Type) where
  Place : Type
  place? : φ → Text → Option Place
  content? : φ → Place → Option (List UInt8)
  read : φ → Text → Except FileFault (List UInt8)
  write : φ → Text → List UInt8 → Except FileFault φ
  /-- What is read is the content of the place that the path leads to. -/
  content?_read : ∀ {files path bytes}, read files path = .ok bytes →
    ∃ place, place? files path = some place ∧ content? files place = some bytes
  /-- A write replaces the content of the place that the path leads to. -/
  content?_write : ∀ {files path bytes written place}, write files path bytes = .ok written →
    place? files path = some place → content? written place = some bytes
  /-- A write keeps the content of every other place. -/
  content?_write_of_ne : ∀ {files path bytes written place}, write files path bytes = .ok written →
    place? files path ≠ some place → content? written place = content? files place

namespace FileTree

def Target.place? : Target → Option TreePath
  | .directory => none
  | .outside => none
  | .file place _ => some place
  | .vacant place => some place

/-- The place that a path leads to, if there is a file or can be one. -/
def place? (tree : FileTree) (path : Text) : Option TreePath :=
  (tree.locate false path).toOption.bind Target.place?

theorem lookup_cons_of_ne {place other : TreePath} (differ : other ≠ place) (bytes : List UInt8)
    (files : List (TreePath × List UInt8)) :
    ((place, bytes) :: files).lookup other = files.lookup other := by
  rw [List.lookup_cons, beq_eq_false_iff_ne.mpr differ]

theorem lookup_replaced (files : List (TreePath × List UInt8)) (place other : TreePath)
    (bytes : List UInt8) :
    (files.map fun file => if file.1 = place then (place, bytes) else file).lookup other =
      if other = place then (files.lookup place).map fun _ => bytes else files.lookup other := by
  induction files with
  | nil => simp
  | cons file rest inductionHypothesis =>
    obtain ⟨name, content⟩ := file
    rw [List.map_cons]
    by_cases isPlace : name = place
    · subst isPlace
      by_cases isOther : other = name
      · simp [isOther]
      · rw [if_pos rfl, lookup_cons_of_ne isOther, lookup_cons_of_ne isOther, inductionHypothesis,
          if_neg isOther, if_neg isOther]
    · rw [if_neg isPlace, lookup_cons_of_ne (Ne.symm isPlace)]
      by_cases isOther : other = name
      · simp [isOther, isPlace]
      · rw [lookup_cons_of_ne isOther, lookup_cons_of_ne isOther, inductionHypothesis]

theorem content?_put (tree : FileTree) (place other : TreePath) (bytes : List UInt8) :
    (tree.put place bytes).content? other =
      if other = place then some bytes else tree.content? other := by
  unfold put
  split
  next present =>
    obtain ⟨former, isFormer⟩ := Option.isSome_iff_exists.mp present
    have found : tree.files.lookup place = some former := isFormer
    rw [content?, lookup_replaced, found]
    rfl
  next absent =>
    have vacant : tree.files.lookup place = none := Option.not_isSome_iff_eq_none.mp absent
    rw [content?, List.lookup_append]
    by_cases same : other = place
    · simp [same, vacant]
    · rw [if_neg same, lookup_cons_of_ne same]
      exact Option.or_none

/-- Whether a file is to be created decides about faults only. -/
theorem toOption_follow (tree : FileTree) (creating : Bool) (reached : Option TreePath)
    (components : List Text) :
    (tree.follow creating reached components).toOption =
      (tree.follow false reached components).toOption := by
  induction components generalizing reached with
  | nil => rfl
  | cons component rest inductionHypothesis =>
    unfold follow
    split_ifs
    · exact inductionHypothesis reached
    · exact inductionHypothesis (parent reached)
    · rfl
    -- What is left is a name, at the end of the path and before it.
    all_goals
      cases reached with
      | none => rfl
      | some above =>
        by_cases isDirectory : tree.hasDirectory (above ++ [component]) = true
        · simpa only [isDirectory, if_true] using inductionHypothesis (some (above ++ [component]))
        · simp only [isDirectory]
          cases tree.content? (above ++ [component]) <;> rfl

theorem toOption_locate (tree : FileTree) (creating : Bool) (path : Text) :
    (tree.locate creating path).toOption = (tree.locate false path).toOption := by
  unfold locate
  split
  · rfl
  · split
    · rfl
    · exact toOption_follow tree creating _ _

theorem place?_of_locate {tree : FileTree} {creating : Bool} {path : Text} {target : Target}
    (leads : tree.locate creating path = .ok target) : tree.place? path = target.place? := by
  rw [place?, ← toOption_locate tree creating, leads]
  rfl

theorem content?_of_follow {tree : FileTree} {creating : Bool} {reached : Option TreePath}
    {components : List Text} {place : TreePath} {bytes : List UInt8}
    (leads : tree.follow creating reached components = .ok (.file place bytes)) :
    tree.content? place = some bytes := by
  fun_induction follow tree creating reached components <;> simp_all

theorem content?_of_locate {tree : FileTree} {creating : Bool} {path : Text} {place : TreePath}
    {bytes : List UInt8} (leads : tree.locate creating path = .ok (.file place bytes)) :
    tree.content? place = some bytes := by
  unfold locate at leads
  split at leads
  · exact nomatch leads
  · split at leads
    · exact nomatch leads
    · exact content?_of_follow leads

theorem content?_read {tree : FileTree} {path : Text} {bytes : List UInt8}
    (succeeds : tree.read path = .ok bytes) :
    ∃ place, tree.place? path = some place ∧ tree.content? place = some bytes := by
  rw [FileTree.read] at succeeds
  cases located : tree.locate false path with
  | error fault =>
    rw [located] at succeeds
    exact nomatch succeeds
  | ok target =>
    rw [located] at succeeds
    cases target with
    | directory => exact nomatch succeeds
    | outside => exact nomatch succeeds
    | vacant place => exact nomatch succeeds
    | file place content =>
      cases succeeds
      exact ⟨place, place?_of_locate located, content?_of_locate located⟩

theorem content?_write {tree written : FileTree} {path : Text} {bytes : List UInt8}
    (succeeds : tree.write path bytes = .ok written) (place : TreePath) :
    written.content? place =
      if tree.place? path = some place then some bytes else tree.content? place := by
  rw [FileTree.write] at succeeds
  cases located : tree.locate true path with
  | error fault =>
    rw [located] at succeeds
    exact nomatch succeeds
  | ok target =>
    rw [located] at succeeds
    rw [place?_of_locate located]
    cases target with
    | directory => exact nomatch succeeds
    | outside =>
      cases succeeds
      rfl
    | vacant found =>
      cases succeeds
      simp only [content?_put, Target.place?, Option.some.injEq, eq_comm]
    | file found content =>
      cases succeeds
      simp only [content?_put, Target.place?, Option.some.injEq, eq_comm]

def store : FileStore FileTree where
  Place := TreePath
  place? := place?
  content? := content?
  read := FileTree.read
  write := FileTree.write
  content?_read := content?_read
  content?_write succeeds leads := by rw [content?_write succeeds, if_pos leads]
  content?_write_of_ne succeeds differs := by rw [content?_write succeeds, if_neg differs]

end FileTree

/-! ### Standard outputs -/

/-- A standard output. A write puts out the whole text, or it fails and may have put out a part
of it, which need not end with a character. -/
structure Outlet (ω : Type) where
  written : ω → List UInt8
  write : ω → Text → Except FileFault Unit × ω
  written_write_ok : ∀ {output text next}, write output text = (.ok (), next) →
    written next = written output ++ Utf8.encode text
  written_write_error : ∀ {output text fault next}, write output text = (.error fault, next) →
    ∃ part, part <+: Utf8.encode text ∧ written next = written output ++ part

def Printer.outlet : Outlet Printer where
  written printer := Utf8.encode printer.printed
  write := Printer.print
  written_write_ok {printer text next} succeeds := by
    unfold print at succeeds
    split at succeeds
    · exact nomatch succeeds
    · cases succeeds
      exact Utf8.encode_append _ _
  written_write_error {printer text fault next} refuses := by
    unfold print at refuses
    split at refuses
    · cases refuses
      exact ⟨[], List.nil_prefix, (List.append_nil _).symm⟩
    · exact nomatch refuses

/-! ### Hosts -/

/-- What is seen of an invocation from outside: the files, and the standard output. -/
structure Surface (φ ω : Type) where
  files : φ
  output : ω

/-- A host keeps its files in a store and prints to an output, and its state shows both. A file
operation that fails changes neither, and the journal is no part of them. -/
structure Host.Serves {σ φ ω : Type} (host : Host (StateM σ)) (store : FileStore φ)
    (outlet : Outlet ω) (surface : σ → Surface φ ω) : Prop where
  readFile : ∀ path state, ∃ next,
    (host.readFile path).run state = (store.read (surface state).files path, next) ∧
      surface next = surface state
  writeFile_ok : ∀ {path text state written},
    store.write (surface state).files path (Utf8.encode text) = .ok written →
      ∃ next, (host.writeFile path text).run state = (.ok (), next) ∧
        surface next = { surface state with files := written }
  writeFile_error : ∀ {path text state fault},
    store.write (surface state).files path (Utf8.encode text) = .error fault →
      ∃ next, (host.writeFile path text).run state = (.error fault, next) ∧
        surface next = surface state
  print : ∀ {text state result output},
    outlet.write (surface state).output text = (result, output) →
      ∃ next, (host.print text).run state = (result, next) ∧
        surface next = { surface state with output := output }
  record : ∀ event state, surface ((host.record event).run state).2 = surface state

theorem World.serves :
    World.host.Serves FileTree.store Printer.outlet fun world => ⟨world.files, world.printer⟩ where
  readFile path world := ⟨world, rfl, rfl⟩
  writeFile_ok {path text world written} succeeds := by
    have writes : world.files.write path (Utf8.encode text) = .ok written := succeeds
    refine ⟨{ world with files := written }, ?_, rfl⟩
    simp only [World.host, StateT.run_bind, StateT.run_get, pure_bind, writes]
    rfl
  writeFile_error {path text world fault} refuses := by
    have refused : world.files.write path (Utf8.encode text) = .error fault := refuses
    refine ⟨world, ?_, rfl⟩
    simp only [World.host, StateT.run_bind, StateT.run_get, pure_bind, refused]
    rfl
  print {text world result printer} prints := by
    have printed : world.printer.print text = (result, printer) := prints
    refine ⟨{ world with printer := printer }, ?_, rfl⟩
    simp only [World.host, StateT.run_bind, StateT.run_get, pure_bind, printed]
    rfl
  record event world := rfl

end Asm8080
