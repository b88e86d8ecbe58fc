import CostWatch.Proofs.Session.Reports
import CostWatch.Proofs.Session.Screen
import CostWatch.Proofs.Source.Binding

/-!
Which costs a session has at hand, and which of them it shows.

Costs come from reports, or from caches that sessions have written; either way each list belongs to
its document, in the order of the lines. What is shown in a document are costs from the list of that
document, at declarations of its text.
-/

set_option autoImplicit false

namespace CostWatch

/-- Records of a document, as a report brings them. -/
structure WellFormed (d : Document) (records : List Record) : Prop where
  own : ∀ r ∈ records, r.id = .of d r.method
  untimed : ∀ r ∈ records, r.timestamp = none
  inOrder : records.Pairwise fun r later => r.location.line ≤ later.location.line

/-! Costs of reports -/

namespace Session
variable {s : Session} {a : Analysis} {report : List UInt8} {records : List Record}

theorem wellFormed_belonging (read : readReport (s.reportedDocument a) report = .ok records)
    (d : Document) : WellFormed d (s.belonging a records d) := by
  obtain ⟨_, _, _, _, _, sorted, ids⟩ := readReport_cases _ read
  constructor
  case own =>
    intro r member
    obtain ⟨among, here⟩ := List.mem_filter.mp member
    rw [ids r among, of_decide_eq_true here]
  case untimed =>
    intro r member
    obtain ⟨item, same⟩ := toRecord_of_mem _ read (List.mem_of_mem_filter member)
    obtain ⟨_, _, _, _, _, _, _, rfl⟩ := (toRecord_eq_ok_iff _).mp same
    rfl
  case inOrder => exact sorted.filter _

theorem wellFormed_byDocument (read : readReport (s.reportedDocument a) report = .ok records) :
    ∀ c ∈ s.byDocument a records, WellFormed c.document c.records := by
  intro c member
  have found := recordsIn?_of_mem (s.increasing_byDocument a records) member
  rw [recordsIn?_byDocument] at found
  split at found
  · exact Option.some.inj found ▸ wellFormed_belonging read c.document
  · cases found

end Session

/-! Costs of caches -/

inductive Cache.IsName : String → Prop where
  | project : IsName projectName
  | file (stem : String) : IsName (fileName stem)

def Cached (documents : List CachedDocument) : Prop :=
  ∃ config directory extract ledger cache output history s,
    Run (.new config directory extract ledger cache output) history s ∧
      ∃ e ∈ history, ∃ name, e.caches? = some (name, documents)

/-- All that can be loaded from the caches of a folder was cached by sessions. -/
def OwnCaches (folder : Folder) : Prop :=
  ∀ name documents, Cache.IsName name → Cache.load? folder name = some documents → Cached documents

theorem ownCaches_absent : OwnCaches .absent := by
  intro name documents _ loaded
  cases (Cache.load?_absent name).symm.trans loaded

theorem wellFormed_of_cached {documents : List CachedDocument} (cached : Cached documents) :
    ∀ c ∈ documents, WellFormed c.document c.records := by
  obtain ⟨_, _, _, _, _, _, _, _, _, ⟨s, o⟩, _, name, wrote⟩ := cached
  cases o with
  | completion a result c =>
    obtain ⟨records, taken, same⟩ := Option.map_eq_some_iff.mp wrote
    cases same
    obtain ⟨_, report, _, _, _, read, _⟩ := Session.takesUp?_eq_some_iff.mp taken
    exact Session.wellFormed_byDocument read
  | _ => cases wrote

section
variable {config : Config} {directory : String} {extract : Extractor} {ledger : Ledger}
  {cache output : Folder} {history : List Episode} {s : Session}

/-- A session keeps to caches of sessions, if nobody else brings others. -/
theorem ownCaches_run (run : Run (.new config directory extract ledger cache output) history s)
    (own : OwnCaches cache)
    (kept : ∀ e ∈ history, ∀ cache output, e.occurrence = .folders cache output →
      OwnCaches cache) : OwnCaches s.cache := by
  induction run with
  | start => exact own
  | @next history s o run follows ih =>
    obtain ⟨now, before⟩ := List.forall_mem_cons.mp kept
    have own := ih before
    have again := run.next follows
    have step := s.step_meet o
    generalize (s.meet o).1 = answer at step
    generalize (s.meet o).2 = next at step again ⊢
    -- Caches are written with an analysis, and all of them are removed when a session cleans.
    cases step with
    | cleanedInPart | cleaned => exact ownCaches_absent
    | @takenUp a result c records ids ledger message running taken recorded =>
      intro name documents isName loaded
      rcases Cache.load?_of_store loaded with rfl | before
      · refine ⟨_, _, _, _, _, _, _, _, again, _, List.mem_cons_self, Session.cacheName a, ?_⟩
        simp [Episode.caches?, taken]
      · exact own name documents isName before
    | folders => exact now _ _ rfl
    | _ => exact own

theorem wellFormed_loads {r : Request} {documents : List CachedDocument} (own : OwnCaches s.cache)
    (loads : s.loads? r = some documents) : ∀ c ∈ documents, WellFormed c.document c.records := by
  cases r with
  | enableForFile =>
    obtain ⟨d, all, entry, _, loaded, member, _, rfl⟩ := Session.loads?_enableForFile loads
    intro c single
    cases List.mem_singleton.mp single
    exact wellFormed_of_cached (own _ _ (.file d.stem) loaded) entry member
  | enableForProject command =>
    exact wellFormed_of_cached (own _ _ .project (Session.loads?_enableForProject loads))
  | _ => cases loads

theorem wellFormed_setAll {store : Store} {documents : List CachedDocument}
    (each : ∀ c ∈ documents, WellFormed c.document c.records)
    (others : ∀ d records, store.get? d = some records → WellFormed d records) :
    ∀ d records, (store.setAll documents).get? d = some records → WellFormed d records := by
  induction documents generalizing store with
  | nil => exact others
  | cons c rest ih =>
    obtain ⟨first, later⟩ := List.forall_mem_cons.mp each
    refine @ih (store.set c.document c.records) later fun d records found => ?_
    rw [Store.get?_set] at found
    split at found
    · next same =>
      cases found
      exact same ▸ first
    · exact others d records found

theorem wellFormed_run (run : Run (.new config directory extract ledger cache output) history s)
    (own : OwnCaches cache)
    (kept : ∀ e ∈ history, ∀ cache output, e.occurrence = .folders cache output →
      OwnCaches cache) :
    ∀ d records, s.store.get? d = some records → WellFormed d records := by
  induction run with
  | start => exact nofun
  | @next history s o run follows ih =>
    obtain ⟨_, before⟩ := List.forall_mem_cons.mp kept
    have own := ownCaches_run run own before
    have sound := ih before
    have step := s.step_meet o
    generalize (s.meet o).1 = answer at step
    generalize (s.meet o).2 = next at step ⊢
    cases step with
    | loadedFile idle loads => exact wellFormed_setAll (wellFormed_loads own loads) sound
    | loadedProject idle words loads => exact wellFormed_setAll (wellFormed_loads own loads) sound
    | cleaned => exact nofun
    | @activated d text c =>
      -- Another list may be displayed, but the lists are the same.
      have lists : (s.activated d text).store.lists = s.store.lists := by
        unfold Session.activated
        split <;> rfl
      intro document records found
      rw [Store.get?, lists] at found
      exact sound document records found
    | takenUp running taken recorded =>
      obtain ⟨_, report, _, _, _, read, _⟩ := Session.takesUp?_eq_some_iff.mp taken
      exact wellFormed_setAll (Session.wellFormed_byDocument read) sound
    | _ => exact sound

/-! Decorations -/

structure ShowsRecord (threshold : UInt32) (r : Record) (declaration : Declaration)
    (item : Decoration) : Prop where
  named : declaration.name = r.method
  method : item.method = r.id
  name : item.name = r.method
  range : item.range = declaration.range
  nameRange : item.nameRange = declaration.nameRange
  hover : item.hover =
    "Execution cost: " ++ r.execution.polynomial ++ " -- " ++ r.execution.bigO
  expensive : item.expensive = true ↔ ∀ degree, r.execution.degree = some degree → threshold ≤ degree

theorem showsRecord_of_mem {threshold : UInt32} {ds : List Declaration} {records : List Record}
    {b : Binding} (bound : b ∈ bindDeclarations ds records) :
    b.record ∈ records ∧ b.declaration ∈ ds ∧
      ShowsRecord threshold b.record b.declaration (Session.decorationOf threshold b) := by
  obtain ⟨declared, listed, named⟩ := mem_of_mem_bindDeclarations bound
  refine ⟨listed, declared, named, rfl, rfl, rfl, rfl, rfl, ?_⟩
  change b.isExpensive threshold = true ↔ _
  unfold Binding.isExpensive
  cases b.record.execution.degree <;> simp

def Session.ShowsCosts (s : Session) (d : Document) (items : List Decoration) : Prop :=
  ∃ text ds, s.active = some ⟨d, text⟩ ∧ s.extract text = .ok ds ∧
    ∀ item ∈ items, ∃ records, s.store.get? d = some records ∧ ∃ r ∈ records, ∃ declaration ∈ ds,
      ShowsRecord s.config.display.expensiveDegree r declaration item

theorem showsCosts_of_decorations {d : Document} {stale : Bool} {items : List Decoration}
    (displays : s.store.shown = s.active.bind fun a => s.store.get? a.document)
    (sent : .decorations d stale items ∈ s.decorations) : s.ShowsCosts d items := by
  obtain ⟨a, ds, active, found, same⟩ := Session.mem_decorations.mp sent
  cases same
  refine ⟨a.text, ds, active, found, fun item member => ?_⟩
  obtain ⟨b, bound, rfl⟩ := List.mem_map.mp member
  obtain ⟨listed, declared, shows⟩ := showsRecord_of_mem bound
  rw [Store.displayed, displays, active, Option.bind_some] at listed
  cases stored : s.store.get? a.document with
  | none =>
    rw [stored] at listed
    cases listed
  | some records =>
    rw [stored] at listed
    exact ⟨records, rfl, b.record, listed, b.declaration, declared, shows⟩

/-- If all caches are written by sessions, each list of costs belongs to its document, in the order
of the lines. And whatever is shown, is shown in the active document: costs from its list, at
declarations of its text. -/
theorem costs_shown (run : Run (.new config directory extract ledger cache output) history s)
    (own : OwnCaches cache)
    (kept : ∀ e ∈ history, ∀ cache output, e.occurrence = .folders cache output →
      OwnCaches cache) :
    (∀ d records, s.store.get? d = some records → WellFormed d records) ∧
      ∀ e ∈ history, ∀ d stale items, .decorations d stale items ∈ e.events →
        e.next.ShowsCosts d items := by
  refine ⟨wellFormed_run run own kept, fun e member d stale items sent => ?_⟩
  obtain ⟨later, earlier, rfl⟩ := List.append_of_mem member
  obtain ⟨before, follows⟩ := run.of_suffix (List.suffix_append later (e :: earlier))
  obtain ⟨shown, sent⟩ := decorations_mem_events.mp sent
  have enabled := enabled_of_shows follows (coherent_of_run before).2 shown
  have coherent : e.next.Coherent := (coherent_of_run (before.next follows)).1
  exact showsCosts_of_decorations (coherent.displays enabled) sent

end

namespace Sample

def analysedProject : List Occurrence :=
  [.completion (projectAnalysis 1 (.enable .project)) (.ok report) circumstances,
    request (.enableForProject "make")]

def reader : Session :=
  .new { workspace := { root := "/work" } } "/" extract (.new none) .absent .absent

def readerShown : List Occurrence :=
  analysedProject ++ [request (.documentActivated document "f")]

end Sample

theorem costs_shown_project :
    ∃ cache history s, OwnCaches cache ∧
      Run Sample.reader (⟨s, .folders cache .absent⟩ :: history) { s with cache, output := .absent } ∧
      (∀ d records, s.store.get? d = some records → WellFormed d records) ∧
      ∃ e ∈ history, ∃ items, .decorations Sample.document false items ∈ e.events ∧
        items.length = 1 ∧ e.next.ShowsCosts Sample.document items := by
  -- What nobody else touches has the caches of sessions only.
  have undisturbed (start : Session) {occurrences : List Occurrence}
      (none : ∀ cache output, Occurrence.folders cache output ∉ occurrences) :
      ∀ e ∈ (traced start occurrences).1, ∀ cache output,
        e.occurrence = .folders cache output → OwnCaches cache :=
    fun e member cache output same =>
      absurd (same ▸ occurrence_mem_of_traced member) (none cache output)
  have other := run_traced (show Feasible Sample.session Sample.analysedProject by decide +kernel)
  obtain ⟨cache, isCache⟩ :
    ∃ cache, cache = (traced Sample.session Sample.analysedProject).2.cache := ⟨_, rfl⟩
  have own : OwnCaches cache := by
    rw [isCache]
    exact ownCaches_run other ownCaches_absent
      (undisturbed _ (by simp [Sample.analysedProject, Sample.request]))
  obtain ⟨past, isPast⟩ : ∃ past, past = traced Sample.reader Sample.readerShown := ⟨_, rfl⟩
  have before : Run Sample.reader past.1 past.2 := by
    rw [isPast]
    exact run_traced (by decide +kernel)
  have kept := undisturbed Sample.reader (show ∀ cache output,
      Occurrence.folders cache output ∉ Sample.readerShown by
    simp [Sample.readerShown, Sample.analysedProject, Sample.request])
  rw [← isPast] at kept
  have run := before.next (o := .folders cache .absent) trivial
  obtain ⟨sound, shows⟩ := costs_shown run ownCaches_absent
    (List.forall_mem_cons.mpr ⟨by rintro _ _ ⟨⟩; exact own, kept⟩)
  have sent : (past.1.any fun e => e.events.any fun
      | .decorations d stale items => d = Sample.document && !stale && items.length = 1
      | _ => false) = true := by
    rw [isPast]
    decide +kernel
  obtain ⟨e, member, event, among, shown⟩ := by simpa only [List.any_eq_true] using sent
  cases event with
  | decorations d stale items =>
    simp only [Bool.and_eq_true, decide_eq_true_eq, Bool.not_eq_true'] at shown
    obtain ⟨⟨rfl, rfl⟩, single⟩ := shown
    exact ⟨cache, past.1, past.2, own, run, sound, e, member, items, among, single,
      shows e (List.mem_cons_of_mem _ member) _ _ _ among⟩
  | _ => cases shown

end CostWatch
