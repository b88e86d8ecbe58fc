import CostWatch.Folder
import CostWatch.Proofs.Path

/-!
What the removal of a folder takes away: nothing but what stands at the place of the folder and
below it. A folder that is named by a path and one name more has its place in the folder that the
path names.

And what is read after a file has been written: the file as it was written, and all other files as
before, since no way through folders changes with it. Folders that are made stand where nothing
stood.
-/

set_option autoImplicit false

namespace CostWatch.Files

variable {α : Type} (f : Files α)

/-! Removals -/

theorem node?_filter (keep : List String → Bool) (place : List String)
    (changed : { f with nodes := f.nodes.filter keep }.node? place ≠ f.node? place) :
    keep place = false := by
  by_contra kept
  rw [Bool.not_eq_false] at kept
  apply changed
  simp only [node?, Table.find?_filter, kept, if_true]

theorem isPrefix_of_removeFolder {directory place : List String} {path : String}
    (changed : (f.removeFolder directory path).2.node? place ≠ f.node? place) :
    ∃ names, f.locate directory path = .ok names ∧ names <+: place := by
  rw [removeFolder, find?] at changed
  cases located : f.locate directory path with
  | error fault =>
    rw [located] at changed
    exact absurd rfl changed
  | ok names =>
    refine ⟨names, rfl, ?_⟩
    rw [located] at changed
    dsimp only at changed
    cases stands : f.node? names with
    | none =>
      rw [stands] at changed
      exact absurd rfl changed
    | some node =>
      rw [stands, Option.map_some] at changed
      cases node with
      | file content => exact absurd rfl changed
      | folder =>
        dsimp only at changed
        split at changed
        · have below := f.node?_filter _ place changed
          simpa using below
        · have below := f.node?_filter _ place changed
          simp only [decide_eq_false_iff_not, not_or, not_not] at below
          simpa using below.2

/-! Paths with one name more -/

/-- The folder that a path names. An empty path names the one that it is seen from. -/
def folderAt (directory : List String) (path : String) : Except IoFault (List String) :=
  if path = "" then .ok directory else f.locate directory path

theorem walk_cons (names : List String) (folder : String) {rest : List String}
    (further : rest ≠ []) :
    f.walk names (folder :: rest) =
      match f.enter names folder with
      | .ok names => f.walk names rest
      | .error fault => .error fault := by
  cases rest with
  | nil => exact absurd rfl further
  | cons next others => rfl

theorem walk_concat (names folders : List String) (last : String) :
    f.walk names (folders ++ [last]) =
      match folders.foldlM f.enter names with
      | .ok names => f.arrive names last
      | .error fault => .error fault := by
  induction folders generalizing names with
  | nil => rfl
  | cons folder rest ih =>
    rw [List.cons_append, f.walk_cons names folder (by simp), List.foldlM_cons]
    cases f.enter names folder with
    | error fault => rfl
    | ok names => exact ih names

section
variable {f} {names place : List String}

theorem arrive_of_enter {segment : String} (entered : f.enter names segment = .ok place) :
    f.node? place = some .folder ∧ f.arrive names segment = .ok place := by
  have folder : f.node? place = some .folder ∧ place = f.follow names segment ∧
      ¬nameLimit < segment.utf8ByteSize := by
    rw [enter] at entered
    split at entered
    · cases entered
    · next short =>
      dsimp only at entered
      split at entered
      · next stands =>
        cases entered
        exact ⟨stands, rfl, short⟩
      · cases entered
      · cases entered
  obtain ⟨stands, rfl, short⟩ := folder
  refine ⟨stands, ?_⟩
  rw [arrive]
  cases named : isName segment with
  | false => exact entered
  | true =>
    -- A name leads to its place in the folder, entered or not.
    simp only [isName, Bool.and_eq_true, bne_iff_ne, ne_eq] at named
    rw [follow, if_neg (not_or.mpr named.1), if_neg named.2]
    exact if_neg short

theorem walk_of_foldlM {folders : List String} (nonempty : folders ≠ [])
    (passed : folders.foldlM f.enter names = .ok place) :
    f.node? place = some .folder ∧ f.walk names folders = .ok place := by
  obtain ⟨front, last, rfl⟩ := (List.eq_nil_or_concat folders).resolve_left nonempty
  rw [List.concat_eq_append] at passed ⊢
  rw [walk_concat]
  rw [List.foldlM_append] at passed
  cases way : front.foldlM f.enter names with
  | error fault =>
    rw [way] at passed
    cases passed
  | ok names =>
    rw [way] at passed
    simp only [List.foldlM_cons, List.foldlM_nil, bind_pure] at passed
    exact arrive_of_enter passed

end

section
variable {f} {directory place : List String} {base name : String}

theorem append_eq (base : String) (single : '/' ∉ name.toList) :
    ∃ between, Path.append base name = base ++ between ++ name := by
  rw [Path.append, Path.join_eq base.toList (Path.isAbsolute_eq_false single)]
  split
  · exact ⟨"", by simp⟩
  · refine ⟨"/", ?_⟩
    rw [String.ext_iff]
    simp

theorem pathFault?_of_append (nonempty : base ≠ "") (single : '/' ∉ name.toList)
    (sound : pathFault? (Path.append base name) = none) : pathFault? base = none := by
  obtain ⟨between, whole⟩ := append_eq base single
  rw [whole] at sound
  simp only [pathFault?, String.toList_append, List.contains_append, Bool.or_eq_true,
    String.utf8ByteSize_append] at sound
  split at sound
  · cases sound
  · next noNul =>
    split at sound
    · cases sound
    · split at sound
      · cases sound
      · next short =>
        simp only [not_or] at noNul
        rw [pathFault?, if_neg noNul.1.1, if_neg nonempty]
        exact if_neg (by omega)

theorem locate_append (single : '/' ∉ name.toList) (named : isName name = true)
    (located : f.locate directory (Path.append base name) = .ok place) :
    ∃ parent, f.folderAt directory base = .ok parent ∧ place = parent ++ [name] := by
  have segmented : segmentsOf (Path.append base name) =
      (Path.folders base.toList).map String.ofList ++ [name] := by
    rw [segmentsOf, Path.append, String.toList_ofList,
      Path.segments_join _ (Path.isAbsolute_eq_false single), Path.segments_eq_singleton single,
      List.map_append]
    simp
  have begins : origin directory (Path.append base name) = origin directory base := by
    rw [origin, Path.append, String.toList_ofList,
      Path.isAbsolute_join _ (Path.isAbsolute_eq_false single), origin]
  rw [locate] at located
  split at located
  · cases located
  · next sound =>
    rw [segmented, begins, walk_concat] at located
    cases way : ((Path.folders base.toList).map String.ofList).foldlM f.enter
        (origin directory base) with
    | error fault =>
      rw [way] at located
      cases located
    | ok parent =>
      rw [way] at located
      have below : place = parent ++ [name] := by
        simp only [arrive, named, Bool.not_true, Bool.false_eq_true, if_false] at located
        split at located
        · cases located
        · exact (Except.ok.inj located).symm
      refine ⟨parent, ?_, below⟩
      rw [folderAt]
      split
      · next empty =>
        subst empty
        exact way
      · next nonempty =>
        have some : base.toList ≠ [] := by simpa using nonempty
        obtain ⟨further, whole⟩ := Path.segments_eq_folders some
        obtain ⟨stands, walked⟩ := walk_of_foldlM (by simpa using further) way
        rw [locate, pathFault?_of_append nonempty single sound, segmentsOf]
        rcases whole with same | more
        · rw [same]
          exact walked
        · -- What follows the last slash stays in the folder.
          rw [more, List.map_append, show [[]].map String.ofList = [""] from rfl]
          dsimp only
          rw [walk_concat, way]
          simp [arrive, isName, enter, follow, stands]

end

/-! Making folders -/

/-- Folders are made where nothing stands, and all else stays as it is. -/
theorem node?_makeWay (names segments : List String) (made : Bool) (place : List String) :
    (f.makeWay names made segments).2.node? place = f.node? place ∨
      f.node? place = none ∧ (f.makeWay names made segments).2.node? place = some .folder := by
  induction segments generalizing f names made with
  | nil => exact .inl rfl
  | cons segment rest ih =>
    rw [makeWay]
    split
    · exact .inl rfl
    · dsimp only
      split
      · exact ih ..
      · exact .inl rfl
      · next free =>
        have below : (f.follow names segment).all (· == "..") = false := by
          rw [Bool.eq_false_iff]
          intro above
          rw [node?, if_pos above] at free
          cases free
        have later := ih (f.put (f.follow names segment) .folder) (f.follow names segment) true
        rw [f.node?_put _ place _ below] at later
        -- What is made on the rest of the way leaves the folder that is made here.
        by_cases here : place = f.follow names segment
        · subst here
          rw [if_pos rfl] at later
          exact .inr ⟨free, later.elim id And.right⟩
        · rw [if_neg here] at later
          exact later

theorem node?_makeFolder (directory : List String) (path : String) (place : List String) :
    (f.makeFolder directory path).2.node? place = f.node? place ∨
      f.node? place = none ∧ (f.makeFolder directory path).2.node? place = some .folder := by
  rw [makeFolder]
  split
  · exact .inl rfl
  · split
    · exact .inl rfl
    · exact f.node?_makeWay ..

/-! Writing -/

section
variable {f} {names : List String} {content : α}

theorem below_of_not_folder (free : f.node? names ≠ some .folder) :
    names.all (· == "..") = false := by
  rw [Bool.eq_false_iff]
  intro above
  exact free (by rw [node?, if_pos above])

theorem folder_put_iff (free : f.node? names ≠ some .folder) (place : List String) :
    (f.put names (.file content)).node? place = some .folder ↔ f.node? place = some .folder := by
  rw [f.node?_put names place _ (below_of_not_folder free)]
  split
  · next same =>
    subst same
    simp [free]
  · rfl

theorem enter_eq_ok_iff {place entered : List String} {segment : String} :
    f.enter place segment = .ok entered ↔
      segment.utf8ByteSize ≤ nameLimit ∧ entered = f.follow place segment ∧
        f.node? entered = some .folder := by
  rw [enter]
  split
  · next long => simp [Nat.not_le.mpr long]
  · next short =>
    dsimp only
    cases stands : f.node? (f.follow place segment) with
    | none =>
      simp only [reduceCtorEq, false_iff]
      rintro ⟨_, rfl, folder⟩
      cases stands.symm.trans folder
    | some node =>
      cases node with
      | file content =>
        simp only [reduceCtorEq, false_iff]
        rintro ⟨_, rfl, folder⟩
        cases stands.symm.trans folder
      | folder =>
        constructor
        · rintro ⟨⟩
          exact ⟨Nat.not_lt.mp short, rfl, stands⟩
        · rintro ⟨_, rfl, _⟩
          rfl

theorem enter_put_iff (free : f.node? names ≠ some .folder) {place entered : List String}
    {segment : String} :
    (f.put names (.file content)).enter place segment = .ok entered ↔
      f.enter place segment = .ok entered := by
  rw [enter_eq_ok_iff, enter_eq_ok_iff, folder_put_iff free]
  rfl

theorem walk_put_iff (free : f.node? names ≠ some .folder) {place arrived : List String}
    {segments : List String} :
    (f.put names (.file content)).walk place segments = .ok arrived ↔
      f.walk place segments = .ok arrived := by
  induction segments generalizing place with
  | nil => rfl
  | cons segment rest ih =>
    cases rest with
    | nil =>
      simp only [walk, arrive]
      cases isName segment with
      | true => rfl
      | false => exact enter_put_iff free
    | cons next others =>
      rw [walk_cons _ _ _ (List.cons_ne_nil next others),
        walk_cons _ _ _ (List.cons_ne_nil next others)]
      constructor
      · intro walked
        split at walked
        · next entered inside =>
          rw [(enter_put_iff free).mp inside]
          exact ih.mp walked
        · cases walked
      · intro walked
        split at walked
        · next entered inside =>
          rw [(enter_put_iff free).mpr inside]
          exact ih.mpr walked
        · cases walked

theorem locate_put_iff (free : f.node? names ≠ some .folder) {directory place : List String}
    {path : String} :
    (f.put names (.file content)).locate directory path = .ok place ↔
      f.locate directory path = .ok place := by
  rw [locate, locate]
  cases pathFault? path with
  | some fault => rfl
  | none => exact walk_put_iff free

theorem write_eq_ok_iff {g : Files α} {directory : List String} {path : String} :
    f.write directory path content = .ok g ↔
      ∃ names, f.locate directory path = .ok names ∧ f.node? names ≠ some .folder ∧
        g = f.put names (.file content) := by
  rw [write]
  cases f.locate directory path with
  | error fault => simp
  | ok names =>
    dsimp only
    split
    · next folder => simp [folder]
    · next free =>
      constructor
      · rintro ⟨⟩
        exact ⟨names, rfl, free, rfl⟩
      · rintro ⟨_, ⟨⟩, _, rfl⟩
        rfl

/-- A file that is written changes nothing but what stands at its place. -/
theorem locate_of_write {g : Files α} {directory place : List String} {path : String}
    (wrote : f.write directory path content = .ok g) (changed : g.node? place ≠ f.node? place) :
    g.locate directory path = .ok place := by
  obtain ⟨names, located, free, rfl⟩ := write_eq_ok_iff.mp wrote
  have here : place = names := by
    by_contra elsewhere
    rw [f.node?_put names place _ (below_of_not_folder free), if_neg elsewhere] at changed
    exact changed rfl
  rw [here]
  exact (locate_put_iff free).mpr located

theorem read_eq_ok_iff {directory : List String} {path : String} :
    f.read directory path = .ok content ↔
      ∃ names, f.locate directory path = .ok names ∧ f.node? names = some (.file content) := by
  rw [read]
  cases f.locate directory path with
  | error fault => simp
  | ok names =>
    dsimp only
    split
    · next stored stands => simp [stands]
    · next stands => simp [stands]
    · next stands => simp [stands]

theorem locate_name {directory place : List String} {name : String} (single : '/' ∉ name.toList)
    (named : isName name = true) (located : f.locate directory name = .ok place) :
    place = directory ++ [name] := by
  have alone : Path.append "" name = name := by
    simp [Path.append, Path.join]
  rw [← alone] at located
  obtain ⟨parent, here, below⟩ := locate_append single named located
  cases here
  exact below

/-- What is read after a file was written: its content at its place, and elsewhere what was read
before. -/
theorem read_put_iff (free : f.node? names ≠ some .folder) {directory : List String}
    {path : String} {read : α} :
    (f.put names (.file content)).read directory path = .ok read ↔
      ∃ place, f.locate directory path = .ok place ∧
        if place = names then read = content else f.node? place = some (.file read) := by
  rw [read_eq_ok_iff]
  refine exists_congr fun place => and_congr (locate_put_iff free) ?_
  rw [f.node?_put names place _ (below_of_not_folder free)]
  split
  · simp [eq_comm]
  · rfl

end

end CostWatch.Files

namespace CostWatch.Folder

variable {folder : Folder} {path : String} {bytes : List UInt8}

theorem read_made {files : Files (List UInt8)} (made : folder.made = .ok files) {path : String}
    {bytes : List UInt8} : (holding files).read path = .ok bytes ↔ folder.read path = .ok bytes := by
  cases folder with
  | absent =>
    cases made
    refine iff_of_false (fun found => ?_) nofun
    obtain ⟨names, _, stands⟩ := Files.read_eq_ok_iff.mp found
    rw [Files.node?] at stands
    split at stands <;> cases stands
  | plainFile => cases made
  | holding files =>
    cases made
    rfl

theorem write_cases (folder : Folder) (path : String) (bytes : List UInt8) :
    (∃ fault, (folder.write path bytes).1 = some fault ∧ ∀ other content,
        (folder.write path bytes).2.read other = .ok content ↔
          folder.read other = .ok content) ∨
      ∃ files written, folder.made = .ok files ∧ files.write [] path bytes = .ok written ∧
        folder.write path bytes = (none, holding written) := by
  rw [write]
  cases made : folder.made with
  | error fault => exact .inl ⟨fault, rfl, fun _ _ => .rfl⟩
  | ok files =>
    dsimp only
    cases wrote : files.write [] path bytes with
    | error fault => exact .inl ⟨fault, rfl, fun _ _ => read_made made⟩
    | ok written => exact .inr ⟨files, written, rfl, wrote, rfl⟩

theorem read_write (wrote : (folder.write path bytes).1 = none) :
    (folder.write path bytes).2.read path = .ok bytes := by
  rcases folder.write_cases path bytes with ⟨fault, failed, _⟩ | ⟨files, written, _, done, same⟩
  · cases wrote.symm.trans failed
  · obtain ⟨names, located, free, rfl⟩ := Files.write_eq_ok_iff.mp done
    rw [same]
    exact (Files.read_put_iff free).mpr ⟨names, located, by rw [if_pos rfl]⟩

/-- Whatever is read from a folder after a write is what was written, or could be read before. -/
theorem read_of_write {other : String} {content : List UInt8}
    (found : (folder.write path bytes).2.read other = .ok content) :
    content = bytes ∨ folder.read other = .ok content := by
  rcases folder.write_cases path bytes with ⟨fault, _, kept⟩ | ⟨files, written, made, done, same⟩
  · exact .inr ((kept other content).mp found)
  · obtain ⟨names, _, free, rfl⟩ := Files.write_eq_ok_iff.mp done
    rw [same] at found
    obtain ⟨place, located, stands⟩ := (Files.read_put_iff free).mp found
    split at stands
    · exact .inl stands
    · exact .inr ((read_made made).mp (Files.read_eq_ok_iff.mpr ⟨place, located, stands⟩))

theorem read_write_other {other : String} (single : '/' ∉ path.toList)
    (otherSingle : '/' ∉ other.toList) (named : Files.isName path = true)
    (otherNamed : Files.isName other = true) (apart : other ≠ path) (content : List UInt8) :
    (folder.write path bytes).2.read other = .ok content ↔ folder.read other = .ok content := by
  rcases folder.write_cases path bytes with ⟨fault, _, kept⟩ | ⟨files, written, made, done, same⟩
  · exact kept other content
  · obtain ⟨names, located, free, rfl⟩ := Files.write_eq_ok_iff.mp done
    rw [same, ← read_made made]
    refine (Files.read_put_iff free).trans (Iff.trans ?_ Files.read_eq_ok_iff.symm)
    refine exists_congr fun place => and_congr_right fun otherLocated => ?_
    have different : place ≠ names := by
      rw [Files.locate_name single named located, Files.locate_name otherSingle otherNamed otherLocated]
      simpa using apart
    rw [if_neg different]

end CostWatch.Folder
