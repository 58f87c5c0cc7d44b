import SecureChannel.FileStore
import SecureChannel.Proofs.Checked
import SecureChannel.Proofs.FileStore.Paths

/-!
# Names of files

`Names s path before dir name` says that in a store a name leads to the place of a file, whether
there is a file or not. Only directories decide that, so writing files leaves all names as they are.
`place?` computes the place, and two names with one place are names of one file. A name to which
octets were written is such a name, and with another extension it is that of a file in the same
directory. `Holds` says in addition what is in the file: what was written last to that place, under
whichever name.
-/

namespace SecureChannel.FileStore

variable {s t : FileStore} {path : String} {before : List (List Char)} {place dir : Place}
  {name component : List Char} {file : StoredFile} {contents : Bytes}

/-! ### Places -/

@[simp] theorem file?_put (s : FileStore) (place : Place) (file : StoredFile) :
    (s.put place file).file? place = some file := by
  simp [file?, put]

theorem file?_put_of_ne {other : Place} (distinct : other ≠ place) :
    (s.put place file).file? other = s.file? other := by
  rw [file?, file?, put, List.find?_cons_of_neg (by simpa using Ne.symm distinct),
    List.find?_filter]
  congr 2
  funext f
  simp only [Bool.decide_and, decide_eq_true_eq]
  by_cases here : f.1 = other
  · simp [here, distinct]
  · simp [here]

/-- What stands at a place that is no directory. -/
def leaf (s : FileStore) (place : Place) : Entry :=
  match s.file? place with
  | some found => .file place found
  | none => .vacant place

@[simp] theorem leaf_ne_directory : s.leaf place ≠ .directory dir := by
  rw [leaf]
  split <;> simp

theorem enter_eq (s : FileStore) (place : Place) (component : List Char) :
    s.enter place component =
      if Path.isSame component then .ok (.directory place)
      else if component = Path.above then .ok (.directory place.dropLast)
      else if maxComponent < (String.ofList component).utf8ByteSize then .error .nameTooLong
      else if place ++ [component] ∈ s.directories then .ok (.directory (place ++ [component]))
      else .ok (s.leaf (place ++ [component])) := by
  simp only [enter, leaf]
  cases s.file? (place ++ [component]) <;> rfl

/-- One component leads to a directory wherever the files are. -/
theorem enter_directory_congr (same : t.directories = s.directories) :
    t.enter place component = .ok (.directory dir) ↔
      s.enter place component = .ok (.directory dir) := by
  simp only [enter_eq, same]
  split
  · rfl
  · split
    · rfl
    · split
      · rfl
      · split <;> simp

/-- Everything in front of a last component has to be a directory. -/
theorem walk_cons_ok_iff {rest : List (List Char)} (more : rest ≠ []) {entry : Entry} :
    s.walk place (component :: rest) = .ok entry ↔
      ∃ next, s.enter place component = .ok (.directory next) ∧ s.walk next rest = .ok entry := by
  rw [walk, bind_eq_ok_iff]
  · constructor
    · rintro ⟨between, entered, walked⟩
      cases between with
      | directory next => exact ⟨next, entered, walked⟩
      | file _ _ | vacant _ => cases walked
    · rintro ⟨next, entered, walked⟩
      exact ⟨_, entered, walked⟩
  · exact more

theorem walk_cons_directory_iff {rest : List (List Char)} :
    s.walk place (component :: rest) = .ok (.directory dir) ↔
      ∃ next, s.enter place component = .ok (.directory next) ∧
        s.walk next rest = .ok (.directory dir) := by
  cases rest with
  | nil => simp [walk]
  | cons _ _ => exact walk_cons_ok_iff (by simp)

/-- The last of several components is entered from the directory that the others lead to. -/
theorem walk_concat_ok_iff {entry : Entry} :
    s.walk place (before ++ [component]) = .ok entry ↔
      ∃ dir, s.walk place before = .ok (.directory dir) ∧ s.enter dir component = .ok entry := by
  induction before generalizing place with
  | nil => simp [walk]
  | cons first rest ih =>
    simp only [List.cons_append, walk_cons_ok_iff (List.append_ne_nil_of_right_ne_nil rest
      (List.cons_ne_nil component [])), walk_cons_directory_iff, ih]
    constructor
    · rintro ⟨next, entered, dir, walked, last⟩
      exact ⟨dir, ⟨next, entered, walked⟩, last⟩
    · rintro ⟨dir, ⟨next, entered, walked⟩, last⟩
      exact ⟨next, entered, dir, walked, last⟩

/-- Components lead to a directory wherever the files are. -/
theorem walk_directory_congr (same : t.directories = s.directories) :
    t.walk place before = .ok (.directory dir) ↔ s.walk place before = .ok (.directory dir) := by
  induction before generalizing place with
  | nil => rfl
  | cons first rest ih => simp only [walk_cons_directory_iff, enter_directory_congr same, ih]

/-! ### Names of files -/

/-- The directory where the components of a name begin. -/
def origin (s : FileStore) (path : String) : Place :=
  if path.startsWith "/" then [] else s.current

/-- The name, whose last component is `name`, is that of a file in the directory `dir`, be there a
file or not. -/
structure Names (s : FileStore) (path : String) (before : List (List Char)) (dir : Place)
    (name : List Char) : Prop where
  written : Path.components path = before ++ [name]
  proper : Path.isSame name = false
  below : name ≠ Path.above
  short : path.utf8ByteSize < maxName
  walked : s.walk (s.origin path) before = .ok (.directory dir)
  fits : (String.ofList name).utf8ByteSize ≤ maxComponent
  free : dir ++ [name] ∉ s.directories

theorem enter_leaf_iff {entry : Entry} (file : ∀ d, entry ≠ .directory d) :
    s.enter dir name = .ok entry ↔ Path.isSame name = false ∧ name ≠ Path.above ∧
      (String.ofList name).utf8ByteSize ≤ maxComponent ∧ dir ++ [name] ∉ s.directories ∧
        s.leaf (dir ++ [name]) = entry := by
  have directory : ∀ d, .directory d ≠ entry := fun d => (file d).symm
  rw [enter_eq]
  split
  · next same => simp [same, directory]
  · next other =>
    split
    · next up => simp [up, directory]
    · next down =>
      split
      · next long => simp [Nat.not_le.mpr long]
      · next fits =>
        split
        · next taken => simp [taken, directory]
        · next free => simp [other, down, Nat.not_lt.mp fits, free]

/-- Slashes at the end of a name are only noted. -/
theorem locate_ok_iff {entry : Entry} {slash : Bool} :
    s.locate path = .ok (entry, slash) ↔ path.isEmpty = false ∧ path.utf8ByteSize < maxName ∧
      s.walk (s.origin path) ((Path.components path).reverse.dropWhile (· = [])).reverse =
        .ok entry ∧
      decide (((Path.components path).reverse.dropWhile (· = [])).reverse.length <
        (Path.components path).length) = slash := by
  have start : (if path.startsWith "/" then [] else s.current) = s.origin path := rfl
  simp only [locate, start]
  cases path.isEmpty with
  | true => simp [bind, Except.bind, throw, throwThe, MonadExceptOf.throw]
  | false =>
    by_cases long : maxName ≤ path.utf8ByteSize
    · simp [long, Nat.not_lt.mpr long, bind, Except.bind, throw, throwThe, MonadExceptOf.throw]
    · simp only [long, Nat.not_le.mp long, Bool.false_eq_true, if_false, true_and]
      cases s.walk (s.origin path) ((Path.components path).reverse.dropWhile (· = [])).reverse with
      | error e => simp [bind, Except.bind]
      | ok reached => simp [bind, Except.bind, pure, Except.pure]

theorem Names.locate (names : s.Names path before dir name) :
    s.locate path = .ok (s.leaf (dir ++ [name]), false) := by
  have last : name ≠ [] := by
    rintro rfl
    cases names.proper
  -- An empty name has one component, which is empty, and a file's own name is not.
  have nonempty : path.isEmpty = false := by
    rw [Bool.eq_false_iff]
    intro empty
    have written := names.written
    rw [String.isEmpty_iff.mp empty] at written
    have ends : some [] = (before ++ [name]).getLast? := congrArg List.getLast? written
    rw [List.getLast?_concat] at ends
    exact last (Option.some.inj ends).symm
  have named : ((Path.components path).reverse.dropWhile (· = [])).reverse =
      Path.components path := by
    rw [names.written, List.reverse_append]
    simp [last]
  rw [locate_ok_iff, named]
  refine ⟨nonempty, names.short, ?_, by simp⟩
  rw [names.written, walk_concat_ok_iff]
  exact ⟨dir, names.walked,
    (enter_leaf_iff fun _ => leaf_ne_directory).mpr
      ⟨names.proper, names.below, names.fits, names.free, rfl⟩⟩

/-- What is found without a slash behind it, and is no directory, has a name of a file. -/
theorem names_of_locate {entry : Entry} (found : s.locate path = .ok (entry, false))
    (file : ∀ d, entry ≠ .directory d) :
    ∃ before dir name, s.Names path before dir name ∧ entry = s.leaf (dir ++ [name]) := by
  obtain ⟨-, short, walked, whole⟩ := locate_ok_iff.mp found
  -- Nothing was cut off behind the last component.
  have all : (Path.components path).reverse.dropWhile (· = []) =
      (Path.components path).reverse := by
    apply (List.dropWhile_suffix _).eq_of_length_le
    simpa using whole
  rw [all, List.reverse_reverse] at walked
  obtain none | ⟨before, name, written⟩ := List.eq_nil_or_concat (Path.components path)
  · exact absurd none (List.splitOn_ne_nil '/' path.toList)
  · rw [List.concat_eq_append] at written
    rw [written, walk_concat_ok_iff] at walked
    obtain ⟨dir, walked, entered⟩ := walked
    obtain ⟨proper, below, fits, free, rfl⟩ := (enter_leaf_iff file).mp entered
    exact ⟨before, dir, name, ⟨written, proper, below, short, walked, fits, free⟩, rfl⟩

/-- The place of the file that a name stands for, be there a file or not. -/
def place? (s : FileStore) (path : String) : Option Place :=
  match s.locate path with
  | .ok (.file place _, false) | .ok (.vacant place, false) => some place
  | _ => none

theorem Names.place? (names : s.Names path before dir name) :
    s.place? path = some (dir ++ [name]) := by
  rw [FileStore.place?, names.locate, leaf]
  cases s.file? (dir ++ [name]) <;> rfl

theorem place?_eq_some_iff : s.place? path = some place ↔
    ∃ before dir name, s.Names path before dir name ∧ dir ++ [name] = place := by
  constructor
  · intro placed
    rw [FileStore.place?] at placed
    have found : ∃ entry, s.locate path = .ok (entry, false) ∧ ∀ d, entry ≠ .directory d := by
      split at placed
      · next found => exact ⟨_, found, by simp⟩
      · next found => exact ⟨_, found, by simp⟩
      · cases placed
    obtain ⟨entry, found, file⟩ := found
    obtain ⟨before, dir, name, names, -⟩ := names_of_locate found file
    exact ⟨before, dir, name, names, Option.some.inj (names.place?.symm.trans placed)⟩
  · rintro ⟨before, dir, name, names, rfl⟩
    exact names.place?

theorem isSome_place?_iff : (s.place? path).isSome = true ↔
    ∃ before dir name, s.Names path before dir name := by
  rw [Option.isSome_iff_exists]
  constructor
  · rintro ⟨place, placed⟩
    obtain ⟨before, dir, name, names, -⟩ := place?_eq_some_iff.mp placed
    exact ⟨before, dir, name, names⟩
  · rintro ⟨before, dir, name, names⟩
    exact ⟨_, names.place?⟩

/-- A name without slashes is that of a file in the current directory. -/
theorem names_of_undivided (undivided : '/' ∉ path.toList)
    (proper : Path.isSame path.toList = false) (below : path.toList ≠ Path.above)
    (fits : path.utf8ByteSize ≤ maxComponent) (free : s.current ++ [path.toList] ∉ s.directories) :
    s.Names path [] s.current path.toList := by
  have written : Path.components (String.ofList (['/'].intercalate [path.toList])) =
      [path.toList] := Path.components_ofList (by simpa using undivided) (by simp)
  rw [List.intercalate_singleton, String.ofList_toList] at written
  have relative : path.startsWith "/" = false := by
    rw [Bool.eq_false_iff, ne_eq, Path.startsWith_iff, written]
    simp
  refine ⟨written, proper, below, Nat.lt_of_le_of_lt fits (by decide), ?_, ?_, free⟩
  · rw [origin, relative]
    rfl
  · rwa [String.ofList_toList]

/-- What the files are does not matter to names. -/
theorem Names.congr (names : s.Names path before dir name)
    (directories : t.directories = s.directories) (current : t.current = s.current) :
    t.Names path before dir name :=
  { names with
    walked := by
      rw [walk_directory_congr directories, origin, current]
      exact names.walked
    free := by
      rw [directories]
      exact names.free }

theorem Names.put (names : s.Names path before dir name) :
    (s.put place file).Names path before dir name :=
  names.congr rfl rfl

@[simp] theorem place?_put : (s.put place file).place? path = s.place? path := by
  apply Option.ext
  intro other
  rw [place?_eq_some_iff, place?_eq_some_iff]
  constructor
  · rintro ⟨before, dir, name, names, here⟩
    exact ⟨before, dir, name, names.congr rfl rfl, here⟩
  · rintro ⟨before, dir, name, names, here⟩
    exact ⟨before, dir, name, names.put, here⟩

/-- With another extension a name is that of a file in the same directory. -/
theorem Names.withExtension {extension : String} (undivided : '/' ∉ extension.toList)
    {before' : List (List Char)} {dir' : Place} {name' : List Char}
    (names : s.Names path before dir name)
    (names' : s.Names (Path.withExtension path extension) before' dir' name') :
    dir' = dir ∧ name' = (Path.divide name).1 ++ '.' :: extension.toList := by
  have written := Path.components_withExtension names.written names.proper names.below undivided
  have same := names'.written.symm.trans written
  obtain ⟨rfl, rfl⟩ := List.append_singleton_inj.mp same
  have start : s.origin (Path.withExtension path extension) = s.origin path := by
    rw [origin, origin, Path.startsWith_congr written names.written]
  have walked := names'.walked
  rw [start, names.walked] at walked
  cases walked
  exact ⟨rfl, rfl⟩

/-! ### Reading and writing -/

/-- The name is that of a file with the given contents. -/
structure Holds (s : FileStore) (path : String) (before : List (List Char)) (dir : Place)
    (name : List Char) (contents : Bytes) : Prop extends s.Names path before dir name where
  stored : ∃ mode, s.file? (dir ++ [name]) = some ⟨contents, mode⟩

theorem Holds.read (holds : s.Holds path before dir name contents) :
    s.read path = .ok contents := by
  obtain ⟨mode, stored⟩ := holds.stored
  rw [FileStore.read, holds.locate, leaf, stored]
  rfl

/-- A program that reads a text gets the text that the file holds. -/
theorem readText_of_read {text : String} (read : s.read path = .ok (Bytes.ofText text)) :
    access.readText path s = (.ok text, s) := by
  simp only [FileAccess.readText, access, bind, StateT.bind, read, Bytes.toText?_ofText]
  rfl

theorem Names.isPresent_eq (names : s.Names path before dir name) :
    s.isPresent path = (s.file? (dir ++ [name])).isSome := by
  rw [isPresent, names.locate, leaf]
  cases s.file? (dir ++ [name]) <;> rfl

theorem Holds.isPresent (holds : s.Holds path before dir name contents) :
    s.isPresent path = true := by
  obtain ⟨mode, stored⟩ := holds.stored
  rw [holds.isPresent_eq, stored]
  rfl

theorem Names.write (names : s.Names path before dir name) (contents : Bytes) :
    ∃ mode, s.write path contents = .ok (s.put (dir ++ [name]) ⟨contents, mode⟩) := by
  rw [FileStore.write, names.locate, leaf]
  cases s.file? (dir ++ [name]) with
  | some found => exact ⟨found.mode, rfl⟩
  | none => exact ⟨defaultMode, rfl⟩

/-- What can be written to has the name of a file. -/
theorem names_of_write (done : s.write path contents = .ok t) :
    ∃ before dir name, s.Names path before dir name := by
  rw [write, bind_eq_ok_iff] at done
  obtain ⟨⟨entry, slash⟩, found, stored⟩ := done
  cases slash with
  | true => cases entry <;> cases stored
  | false =>
    have file : ∀ d, entry ≠ .directory d := by
      rintro d rfl
      cases stored
    obtain ⟨before, dir, name, names, -⟩ := names_of_locate found file
    exact ⟨before, dir, name, names⟩

theorem Names.holds_put (names : s.Names path before dir name) (contents : Bytes) (mode : Nat) :
    (s.put (dir ++ [name]) ⟨contents, mode⟩).Holds path before dir name contents :=
  ⟨names.put, mode, file?_put ..⟩

theorem Names.holds_of_write (names : s.Names path before dir name)
    (done : s.write path contents = .ok t) : t.Holds path before dir name contents := by
  obtain ⟨mode, stored⟩ := names.write contents
  cases stored.symm.trans done
  exact names.holds_put contents mode

/-- To keep a file from others does not change what it holds. -/
theorem Holds.restrict (holds : s.Holds path before dir name contents) :
    s.restrict path = .ok (s.put (dir ++ [name]) ⟨contents, ownerOnly⟩) := by
  obtain ⟨mode, stored⟩ := holds.stored
  rw [FileStore.restrict, holds.locate, leaf, stored]
  rfl

/-- A file that is written leaves another one as it is, unless both names are those of one file. -/
theorem Holds.write_other {other : String} {octets : Bytes} {before' : List (List Char)}
    {dir' : Place} {name' : List Char} (holds : s.Holds path before dir name contents)
    (names' : s.Names other before' dir' name') (done : s.write other octets = .ok t) :
    t.Holds path before dir name
      (if s.place? path = s.place? other then octets else contents) := by
  obtain ⟨mode, written⟩ := names'.write octets
  cases written.symm.trans done
  have places : s.place? path = s.place? other ↔ dir ++ [name] = dir' ++ [name'] := by
    rw [holds.place?, names'.place?, Option.some.injEq]
  refine ⟨holds.put, ?_⟩
  split
  · next same =>
    rw [places.mp same]
    exact ⟨mode, file?_put ..⟩
  · next distinct =>
    rw [file?_put_of_ne (mt places.mpr distinct)]
    exact holds.stored

/-- A file with another extension is another one, unless the name has that extension already. -/
theorem Names.place?_withExtension_iff {extension : String} (undivided : '/' ∉ extension.toList)
    {before' : List (List Char)} {dir' : Place} {name' : List Char}
    (names : s.Names path before dir name)
    (names' : s.Names (Path.withExtension path extension) before' dir' name') :
    s.place? path = s.place? (Path.withExtension path extension) ↔
      Path.extension? path = some extension := by
  obtain ⟨rfl, renamed⟩ := names.withExtension undivided names'
  rw [Path.extension?_eq_some_iff names.written names.proper names.below, ← renamed, names.place?,
    names'.place?, Option.some.injEq, List.append_cancel_left_eq, List.cons.injEq]
  simp [eq_comm]

end SecureChannel.FileStore
