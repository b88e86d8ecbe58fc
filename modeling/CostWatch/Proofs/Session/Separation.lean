import CostWatch.Proofs.Session.Reloading

/-!
Where the caches of files are, and that none of them stands in the way of another.

A cache is named after the stem of its file, with text before it and behind it, so that it is right in
the folder of the caches whatever the stem looks like. Nothing but the stem decides which cache a file
has, and what is written into one cache changes no other one.
-/

set_option autoImplicit false

namespace CostWatch

/-- Whether two texts are the same path: a path is no more than its components. -/
def Path.Same (path other : String) : Prop :=
  components path.toList = components other.toList

/-! Paths of caches -/

namespace Cache

theorem Direct.same_append_iff {name other : String} (direct : Direct name)
    (otherDirect : Direct other) (folder : String) :
    Path.Same (Path.append folder name) (Path.append folder other) ↔ name = other := by
  rw [Path.Same, direct.components_append, otherDirect.components_append, List.append_right_inj,
    List.singleton_inj, Path.Component.name.injEq, String.toList_inj]

end Cache

/-! Caches on a disk -/

/-- Whether two disks differ in a file right in a folder and in nothing else, but for folders that are
made where nothing stood. -/
def Disk.DiffersBy (before after : Disk) (folder name : String) : Prop :=
  ∀ place, after.files.node? place ≠ before.files.node? place →
    before.files.node? place = none ∧ after.files.node? place = some .folder ∨
      ∃ parent, after.files.folderAt before.directory folder = .ok parent ∧ place = parent ++ [name]

theorem Disk.differsBy_writeInto {name : String} (single : '/' ∉ name.toList)
    (named : Files.isName name = true) (disk : Disk) (folder : String) (file : DiskFile) :
    disk.DiffersBy (disk.writeInto folder name file).2 folder name := by
  intro place
  have made := disk.files.node?_makeFolder disk.directory folder place
  rw [writeInto, makeFolder]
  generalize disk.files.makeFolder disk.directory folder = result at made ⊢
  obtain ⟨fault, files⟩ := result
  dsimp only at made
  cases fault with
  | some fault => exact fun changed => .inl (made.resolve_left changed)
  | none =>
    dsimp only
    cases wrote : files.write disk.directory (Path.append folder name) file with
    | error fault => exact fun changed => .inl (made.resolve_left changed)
    | ok written =>
      intro changed
      dsimp only at changed ⊢
      by_cases same : written.node? place = files.node? place
      · rw [same] at changed ⊢
        exact .inl (made.resolve_left changed)
      · exact .inr (Files.locate_append single named (Files.locate_of_write wrote same))

/-! Caches of analyses -/

namespace Session

theorem cache_complete (s : Session) (a : Analysis) (result : Except Failure (List UInt8))
    (c : Circumstances) :
    (s.complete a result c).2.cache = s.cache ∨
      ∃ documents, (s.complete a result c).2.cache =
        (Cache.store s.cache (cacheName a) documents).2 := by
  have step := s.step_complete a result c
  generalize Except.ok (s.complete a result c).1 = answer at step
  generalize (s.complete a result c).2 = next at step ⊢
  cases step with
  | late | discarded | failed => exact .inl rfl
  | takenUp => exact .inr ⟨_, rfl⟩

theorem load?_complete {name : String} {a : Analysis} (direct : Cache.Direct name)
    (own : Cache.Direct (cacheName a)) (apart : name ≠ cacheName a) (s : Session)
    (result : Except Failure (List UInt8)) (c : Circumstances) :
    Cache.load? (s.complete a result c).2.cache name = Cache.load? s.cache name := by
  rcases s.cache_complete a result c with same | ⟨documents, wrote⟩
  · rw [same]
  · ext loaded
    rw [wrote, Cache.load?_eq_some_iff, Cache.load?_eq_some_iff]
    exact exists_congr fun bytes =>
      and_congr_left fun _ => Cache.read_store_other own direct apart bytes

theorem cacheName_ne {b : Analysis} {stem : String}
    (other : ∀ e, b.document = some e → e.stem ≠ stem) : cacheName b ≠ Cache.fileName stem := by
  unfold cacheName
  split
  · next e analysed => exact fun same => other e analysed (Cache.fileName_inj.mp same)
  · exact (Cache.fileName_ne_projectName stem).symm

end Session

/-- The cache of a Java file is named after the file name without its extension, which is neither
empty nor more than one name. It is right in the folder of the caches, and when it is written, nothing
else that stands on the disk is changed. It is never the cache of the project, and two Java files have
one cache exactly if they have one stem. So an analysis leaves the caches of all others as they are. -/
theorem caches_apart {d : Document} (java : d.isJava = true) (folder : String) :
    (d.fileName = d.stem ++ ".java" ∧ d.stem ≠ "" ∧ '/' ∉ d.stem.toList) ∧
      Path.components (Path.append folder (Cache.fileName d.stem)).toList =
        Path.components folder.toList ++ [.name (Cache.fileName d.stem).toList] ∧
      (∀ (disk : Disk) (bytes : List UInt8), disk.DiffersBy
        (disk.change folder (.written (Cache.fileName d.stem) bytes)) folder
        (Cache.fileName d.stem)) ∧
      ¬Path.Same (Path.append folder (Cache.fileName d.stem))
        (Path.append folder Cache.projectName) ∧
      (∀ e : Document, e.isJava = true →
        (Path.Same (Path.append folder (Cache.fileName d.stem))
          (Path.append folder (Cache.fileName e.stem)) ↔ d.stem = e.stem)) ∧
      ∀ a b : Analysis, a.document = some d →
        (∀ e, b.document = some e → e.isJava = true ∧ e.stem ≠ d.stem) →
        ∀ (s : Session) (result : Except Failure (List UInt8)) (c : Circumstances),
          Cache.load? (s.complete a result c).2.cache (Session.cacheName b) =
              Cache.load? s.cache (Session.cacheName b) ∧
            Cache.load? (s.complete b result c).2.cache (Session.cacheName a) =
              Cache.load? s.cache (Session.cacheName a) := by
  have direct := Cache.direct_of_isJava java
  refine ⟨Document.fileName_eq_of_isJava java, direct.components_append folder,
    ?onDisk, ?notProject, ?shared, ?kept⟩
  case onDisk =>
    exact fun disk bytes => Disk.differsBy_writeInto direct.single direct.named disk folder _
  case notProject =>
    rw [direct.same_append_iff Cache.direct_projectName]
    exact Cache.fileName_ne_projectName d.stem
  case shared =>
    intro e otherJava
    rw [direct.same_append_iff (Cache.direct_of_isJava otherJava), Cache.fileName_inj]
  case kept =>
    intro a b analysed other s result c
    have own : Session.cacheName a = Cache.fileName d.stem := by
      rw [Session.cacheName, analysed]
    have otherDirect := Session.direct_of_isJava fun e found => (other e found).1
    have apart := Session.cacheName_ne fun e found => (other e found).2
    rw [← own] at direct apart
    exact ⟨Session.load?_complete otherDirect direct apart s result c,
      Session.load?_complete direct otherDirect apart.symm s result c⟩

namespace Sample

def upwards : Document := ⟨"/work/b//...java/."⟩

def upwardsAnalysis : Analysis :=
  ⟨1, .enable .file, some upwards, ⟨.file upwards.path, "/tmp/infer-out/..", "/work"⟩⟩

def besides : Session :=
  { (traced session (asked upwards.path)).2 with
    cache := (Cache.store .absent (Cache.fileName document.stem) [⟨document, []⟩]).2 }

def cachedUpwards : Disk :=
  Disk.empty.change "/work/caches" (.written (Cache.fileName upwards.stem) [])

end Sample

theorem caches_apart_upwards :
    Sample.upwards.isJava = true ∧ Sample.upwards.stem = ".." ∧
      Path.Same (Path.append "/work/caches" (Cache.fileName Sample.upwards.stem))
        (Path.append "/work/caches" (Cache.fileName (Document.stem ⟨"...java"⟩))) ∧
      (∃ place parent, Sample.cachedUpwards.files.node? place ≠ Disk.empty.files.node? place ∧
        Sample.cachedUpwards.files.folderAt [] "/work/caches" = .ok parent ∧
        place = parent ++ [Cache.fileName Sample.upwards.stem]) ∧
      ∃ s, s = (Sample.besides.complete Sample.upwardsAnalysis (.ok [91, 93])
          Sample.circumstances).2 ∧
        Cache.load? s.cache (Cache.fileName "..") = some [⟨Sample.upwards, []⟩] ∧
        Cache.load? s.cache (Cache.fileName "A") = some [⟨Sample.document, []⟩] := by
  have java : Sample.upwards.isJava = true := by decide +kernel
  have stem : Sample.upwards.stem = ".." := by decide +kernel
  obtain ⟨_, _, onDisk, _, shared, kept⟩ := caches_apart java "/work/caches"
  refine ⟨java, stem, (shared _ (by decide +kernel)).mpr (by decide +kernel), ?onDisk,
    _, rfl, by decide +kernel, ?kept⟩
  case onDisk =>
    have read : Sample.cachedUpwards.read "/work/caches/file-..-costs.json" = .ok [] := by
      decide +kernel
    rw [Disk.read] at read
    cases found : Sample.cachedUpwards.files.read Sample.cachedUpwards.directory
        "/work/caches/file-..-costs.json" with
    | error fault =>
      rw [found] at read
      cases read
    | ok content =>
      obtain ⟨place, _, stands⟩ := Files.read_eq_ok_iff.mp found
      have changed : Sample.cachedUpwards.files.node? place ≠ Disk.empty.files.node? place := by
        intro same
        rw [stands, Files.node?] at same
        split at same <;> cases same
      rcases onDisk Disk.empty [] place changed with ⟨_, folder⟩ | ⟨parent, folderAt, below⟩
      · cases stands.symm.trans folder
      · exact ⟨place, parent, changed, folderAt, below⟩
  case kept =>
    have other : ∀ e, (Sample.analysis 2 .reExecute).document = some e →
        e.isJava = true ∧ e.stem ≠ Sample.upwards.stem := by
      rintro _ ⟨⟩
      decide +kernel
    exact (kept _ _ rfl other Sample.besides _ _).1.trans (by decide +kernel)

end CostWatch
