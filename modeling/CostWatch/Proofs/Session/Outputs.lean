import CostWatch.Disk
import CostWatch.Proofs.Files
import CostWatch.Proofs.Session.Flight

/-!
Where the analyses of files put their output, and what goes with it when it is removed.

The output directory of a run is named after the stem of the analysed file, in the directory of the
configuration. It lies in there unless the stem is a dot or two dots, which name no file: then it is
that directory, or the one above it.
-/

set_option autoImplicit false

namespace CostWatch

/-! What is configured -/

theorem Session.config_step {s s' : Session} {o : Occurrence} {answer : Except Failure Outcome}
    (step : s.Step o answer s') : s'.config = s.config := by
  cases step <;> rfl

theorem config_run {start s : Session} {history : List Episode} (run : Run start history s) :
    s.config = start.config :=
  run.keeps (·.config = start.config) rfl fun s o same => (Session.config_step (s.step_meet o)).trans same

theorem Session.Starts.fileJob {s : Session} {r : Request} {purpose : Purpose} {d : Document}
    {job : Job} (starts : s.Starts r purpose (some d) job) :
    d.isJava = true ∧ job = s.fileJob d := by
  have active (java : s.activeJava = .ok d) : d.isJava = true := by
    unfold activeJava at java
    split at java
    · cases java
    · split at java
      · next isJava =>
        cases java
        exact isJava
      · cases java
  cases starts with
  | file other java => exact ⟨active java, rfl⟩
  | fileAgain file java => exact ⟨active java, rfl⟩
  | fileInProject project java => exact ⟨active java, rfl⟩

theorem fileJob_of_handedOut {start s : Session} {history : List Episode}
    (run : Run start history s) {a : Analysis} (handed : a ∈ handedOut history) {d : Document}
    (analysed : a.document = some d) :
    d.isJava = true ∧
      a.job.outputDir = Path.append start.config.analyzer.outputDir d.stem := by
  obtain ⟨e, member, handedNow⟩ := List.mem_filterMap.mp handed
  obtain ⟨earlier, later, rfl⟩ := List.append_of_mem member
  have before := (run.of_suffix (List.suffix_append _ _)).1
  obtain ⟨t, r, config, _, _, starts, _⟩ := starts_of_handedOut handedNow
  rw [analysed] at starts
  obtain ⟨java, job⟩ := starts.fileJob
  rw [job, Session.fileJob, config, config_run before]
  exact ⟨java, rfl⟩

theorem Document.stem_eq_iff {d : Document} (java : d.isJava = true) (stem : String) :
    d.stem = stem ↔ d.fileName = stem ++ ".java" := by
  rw [(fileName_eq_of_isJava java).1, String.append_left_inj]

theorem Disk.files_removeFolder (disk : Disk) (path : String) :
    (disk.removeFolder path).2.files = (disk.files.removeFolder disk.directory path).2 :=
  rfl

/-- The output directory of the analysis of a file lies below the configured one unless the file is
called `..java` or `...java`. Then what its removal takes away from a disk stands at the place that
the stem has in the configured directory, or below that place. -/
theorem output_below_iff {config : Config} {directory : String} {extract : Extractor}
    {ledger : Ledger} {cache output : Folder} {history : List Episode} {s : Session}
    (run : Run (.new config directory extract ledger cache output) history s) {a : Analysis}
    (handed : a ∈ handedOut history) {d : Document} (analysed : a.document = some d) :
    ((Path.placeOf a.job.outputDir.toList).Below (Path.placeOf config.analyzer.outputDir.toList) ↔
        d.fileName ≠ "..java" ∧ d.fileName ≠ "...java") ∧
      (d.fileName ≠ "..java" → d.fileName ≠ "...java" → ∀ (disk : Disk) (place : List String),
        (disk.removeFolder a.job.outputDir).2.files.node? place ≠ disk.files.node? place →
        ∃ parent, disk.files.folderAt disk.directory config.analyzer.outputDir = .ok parent ∧
          parent ++ [d.stem] <+: place) := by
  obtain ⟨java, _⟩ := fileJob_of_handedOut run handed analysed
  have named : a.job.outputDir = Path.append config.analyzer.outputDir d.stem :=
    (fileJob_of_handedOut run handed analysed).2
  obtain ⟨_, nonempty, single⟩ := Document.fileName_eq_of_isJava java
  have here := Document.stem_eq_iff java "."
  have up := Document.stem_eq_iff java ".."
  rw [named]
  constructor
  · rw [Path.append, String.toList_ofList, Path.below_join_iff _ single (by simpa using nonempty)]
    have stems (stem : String) : d.stem.toList = stem.toList ↔ d.stem = stem := String.toList_inj
    refine and_congr (not_congr ?_) (not_congr ?_)
    · exact (stems ".").trans here
    · exact (stems "..").trans up
  · intro notHere notUp disk place changed
    have isName : Files.isName d.stem = true := by
      simp only [Files.isName, Bool.and_eq_true, bne_iff_ne, ne_eq]
      exact ⟨⟨nonempty, fun dot => notHere (here.mp dot)⟩, fun dots => notUp (up.mp dots)⟩
    rw [Disk.files_removeFolder] at changed
    obtain ⟨names, located, below⟩ := Files.isPrefix_of_removeFolder _ changed
    obtain ⟨parent, folder, rfl⟩ := Files.locate_append single isName located
    exact ⟨parent, folder, below⟩

namespace Sample

def asked (path : String) : List Occurrence :=
  [request .enableForFile, request (.documentActivated ⟨path⟩ "")]

end Sample

theorem output_below_sample :
    ∃ history s a, Run Sample.session history s ∧ a ∈ handedOut history ∧
      a.job.outputDir = "/tmp/infer-out/.A" ∧
      (Path.placeOf a.job.outputDir.toList).Below (Path.placeOf "/tmp/infer-out".toList) := by
  have run := run_traced (show Feasible Sample.session (Sample.asked "/work/b/../.A.java/.") by
    decide +kernel)
  refine ⟨_, _, ⟨1, .enable .file, some ⟨"/work/b/../.A.java/."⟩,
    ⟨.file "/work/b/../.A.java/.", "/tmp/infer-out/.A", "/work"⟩⟩, run, by decide +kernel, rfl, ?_⟩
  exact (output_below_iff run (by decide +kernel) rfl).1.mpr (by decide +kernel)

def Sample.shared : Disk :=
  ((Disk.empty.writeInto "/tmp" "notes" (.plain [])).2.makeFolder "/tmp/infer-out").2

/-- The output directory of a file called `...java` is the one above the configured directory, and
its removal takes away what else stands there. -/
theorem output_above :
    ∃ history s a, Run Sample.session history s ∧ a ∈ handedOut history ∧
      a.document = some ⟨"/work/...java"⟩ ∧ a.job.outputDir = "/tmp/infer-out/.." ∧
      ¬(Path.placeOf a.job.outputDir.toList).Below (Path.placeOf "/tmp/infer-out".toList) ∧
      Sample.shared.holds "/tmp/notes" = true ∧
      (Sample.shared.removeFolder a.job.outputDir).2.holds "/tmp/notes" = false := by
  have run := run_traced (show Feasible Sample.session (Sample.asked "/work/...java") by
    decide +kernel)
  let job : Job := ⟨.file "/work/...java", "/tmp/infer-out/..", "/work"⟩
  refine ⟨_, _, ⟨1, .enable .file, some ⟨"/work/...java"⟩, job⟩, run, by decide +kernel, rfl, rfl,
    ?outside, by decide +kernel, by decide +kernel⟩
  case outside =>
    have joined : "/tmp/infer-out/..".toList = Path.join "/tmp/infer-out".toList ['.', '.'] := by
      decide +kernel
    rw [show job.outputDir.toList = _ from joined]
    exact fun below => ((Path.below_join_iff _ (by decide) (by decide)).mp below).2 rfl

end CostWatch
