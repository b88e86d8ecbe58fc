import CostWatch.Proofs.Session.Documents

/-!
When a document is stale: since a significant save, its costs have not been replaced and the session
has not been disabled.

It does not matter when an analysis was started. So a save is lost if the analysis that was running
then is taken up afterwards, and so it is if a cache is loaded that was written before.
-/

set_option autoImplicit false

namespace CostWatch

/-! Which documents get new costs -/

theorem mem_addRecord {d e : Document} {r : Record} {documents : List CachedDocument} :
    covers (Session.addRecord e r documents) d = true ↔ e = d ∨ covers documents d = true := by
  induction documents with
  | nil => simp [Session.addRecord, covers]
  | cons c rest ih =>
    rw [Session.addRecord]
    split
    · next same => simp [covers, same]
    · split
      · simp [covers]
      · simp only [covers, List.any_cons, Bool.or_eq_true] at ih ⊢
        rw [ih, or_left_comm]

namespace Session
variable {s : Session} {a : Analysis} {d : Document}

theorem covers_byDocument (records : List Record) :
    covers (s.byDocument a records) d = true ↔
      a.document = some d ∨ ∃ r ∈ records, s.reportedDocument a r.location.file = d := by
  have grouped (documents : List CachedDocument) :
      covers (records.foldl
          (fun grouped r => addRecord (s.reportedDocument a r.location.file) r grouped)
          documents) d = true ↔
        covers documents d = true ∨ ∃ r ∈ records, s.reportedDocument a r.location.file = d := by
    induction records generalizing documents with
    | nil => simp
    | cons r rest ih =>
      rw [List.foldl_cons, ih, mem_addRecord]
      simp [or_assoc, or_left_comm]
  rw [byDocument, grouped]
  cases a.document <;> simp [covers]

end Session

namespace Episode
variable (e : Episode) (d : Document)

def Marks : Prop :=
  ∃ text, e.save? = some (d, text) ∧ e.session.savesSignificantly d text = true

/-- The document is not stale any more: the session is disabled, or the document gets new costs. -/
def Clears : Prop :=
  e.disables = true ∨ ∃ documents, e.renewed? = some documents ∧ covers documents d = true

/-- An analysis is taken up: one of the document, or one of the project with records of it. -/
def Analyses (a : Analysis) : Prop :=
  ∃ result c records, e.occurrence = .completion a result c ∧
    e.session.takesUp? a result c = some records ∧
    (a.document = some d ∨ ∃ r ∈ records, e.session.reportedDocument a r.location.file = d)

def Loads : Prop :=
  ∃ r c documents, e.occurrence = .request r c ∧ e.session.loads? r = some documents ∧
    ∃ entry ∈ documents, entry.document = d

end Episode

section
variable {e : Episode} {s : Session} {d : Document}

theorem covers_iff {documents : List CachedDocument} :
    covers documents d = true ↔ ∃ entry ∈ documents, entry.document = d := by
  simp [covers]

theorem clears_iff : e.Clears d ↔ e.disables = true ∨ (∃ a, e.Analyses d a) ∨ e.Loads d := by
  refine or_congr_right ?_
  constructor
  · rintro ⟨documents, renewed, covered⟩
    obtain ⟨s, o⟩ := e
    cases o with
    | request r c =>
      rw [renewed?_of_request rfl] at renewed
      exact .inr ⟨r, c, documents, rfl, renewed, covers_iff.mp covered⟩
    | completion a result c =>
      rw [renewed?_of_completion rfl] at renewed
      obtain ⟨records, taken, rfl⟩ := Option.map_eq_some_iff.mp renewed
      exact .inl ⟨a, result, c, records, rfl, taken, (Session.covers_byDocument records).mp covered⟩
    | folders cache output => cases renewed
  · rintro (⟨a, result, c, records, ended, taken, covered⟩ | ⟨r, c, documents, asked, loads, entry⟩)
    · refine ⟨e.session.byDocument a records, ?_, (Session.covers_byDocument records).mpr covered⟩
      rw [renewed?_of_completion ended, taken]
      rfl
    · exact ⟨documents, (renewed?_of_request asked).trans loads, covers_iff.mpr entry⟩

theorem stale_next (e : Episode) (d : Document) :
    d ∈ e.next.stale ↔ e.Marks d ∨ d ∈ e.session.stale ∧ ¬e.Clears d := by
  unfold Episode.Marks Episode.Clears
  cases bearing e with
  | none edit save renewed enabled mode active baselines stale =>
    simp [save, renewed, enabled, stale]
  | renewed documents edit save renewed enabled active baselines stale =>
    simp [save, renewed, enabled, stale]
  | changed document text edit save renewed enabled mode active baselines stale =>
    simp [save, renewed, enabled, stale]
  | saved document text edit save renewed enabled mode active baselines stale =>
    rw [stale, Session.mem_stale_saved]
    simp only [save, renewed, enabled, Option.some.injEq, Prod.mk.injEq, reduceCtorEq, false_and,
      exists_const, or_self, Bool.false_eq_true, not_false_eq_true, and_true]
    refine or_congr_left ?_
    constructor
    · rintro ⟨rfl, significant⟩
      exact ⟨text, ⟨rfl, rfl⟩, significant⟩
    · rintro ⟨_, ⟨rfl, rfl⟩, significant⟩
      exact ⟨rfl, significant⟩
  | activated now save renewed enabled stale => simp [save, renewed, enabled, stale]
  | disabled disables save stale => simp [save, disables, stale]

theorem stale_iff_marked_since {start : Session} {history : List Episode}
    (fresh : start.stale = []) (run : Run start history s) :
    d ∈ s.stale ↔ ∃ after m before, history = after ++ m :: before ∧ m.Marks d ∧
      ∀ f ∈ after, ¬f.Clears d := by
  induction run with
  | start => simp [fresh]
  | @next history s o run follows ih =>
    have law := stale_next ⟨s, o⟩ d
    rw [show d ∈ (s.meet o).2.stale ↔ _ from law, ih]
    -- The last mark is this episode, or an earlier one whose effect this episode lets stand.
    constructor
    · rintro (marks | ⟨⟨after, m, before, rfl, marks, kept⟩, notCleared⟩)
      · exact ⟨[], _, history, rfl, marks, by simp⟩
      · exact ⟨_ :: after, m, before, rfl, marks, List.forall_mem_cons.mpr ⟨notCleared, kept⟩⟩
    · rintro ⟨after, m, before, split, marks, kept⟩
      cases after with
      | nil =>
        cases split
        exact .inl marks
      | cons f after =>
        cases split
        obtain ⟨notCleared, kept⟩ := List.forall_mem_cons.mp kept
        exact .inr ⟨⟨after, m, before, rfl, marks, kept⟩, notCleared⟩

/-! Saves while an analysis is running -/

theorem handedOut_append (later earlier : List Episode) :
    handedOut (later ++ earlier) = handedOut later ++ handedOut earlier :=
  List.filterMap_append

theorem completed_append (later earlier : List Episode) :
    completed (later ++ earlier) = completed later ++ completed earlier :=
  List.filterMap_append

theorem outstanding_of_analyses {since earlier : List Episode} {f : Episode} {a : Analysis}
    (tracked : Tracked (since ++ earlier) f.session)
    (follows : f.occurrence.Follows (since ++ earlier)) (analyses : f.Analyses d a)
    (old : a ∉ handedOut since) : a ∈ outstanding earlier := by
  obtain ⟨result, c, records, ended, taken, _⟩ := analyses
  have handed : a ∈ handedOut (since ++ earlier) :=
    known_of_follows follows (by rw [Episode.completed, ended])
  have running : f.session.running = some ⟨a.id, false⟩ := by
    by_contra other
    cases (Session.takesUp?_eq_none other result c).symm.trans taken
  have awaited := (tracked.mem_outstanding_iff handed).mpr (by rw [running]; rfl)
  have notEnded := (mem_outstanding.mp awaited).2
  rw [completed_append, List.mem_append, not_or] at notEnded
  rw [handedOut_append, List.mem_append] at handed
  exact mem_outstanding.mpr ⟨handed.resolve_left old, notEnded.2⟩

end

/-- A significant save, after which the session is not disabled and no analysis of the document that
was started since is taken up. The document is stale at the end exactly if, since this save or a
later significant one, no analysis of it has been taken up that was outstanding at this save, and
none of its costs have been loaded from a cache. -/
theorem stale_after_save_iff {config : Config} {directory : String} {extract : Extractor}
    {ledger : Ledger} {cache output : Folder} {later earlier : List Episode} {e : Episode}
    {s : Session} {d : Document}
    (run : Run (.new config directory extract ledger cache output) (later ++ e :: earlier) s)
    (marks : e.Marks d) (enabled : ∀ f ∈ later, f.disables = false)
    (old : ∀ f ∈ later, ∀ a, f.Analyses d a → a ∉ handedOut (later ++ [e])) :
    d ∈ s.stale ↔ ∃ after m before, later ++ [e] = after ++ m :: before ∧ m.Marks d ∧
      ∀ f ∈ after, (∀ a ∈ outstanding earlier, ¬f.Analyses d a) ∧ ¬f.Loads d := by
  have fresh := tracked_new config directory extract ledger cache output
  -- Under the hypotheses, only those analyses and caches clear the document.
  have clears : ∀ f ∈ later, (f.Clears d ↔
      (∃ a ∈ outstanding earlier, f.Analyses d a) ∨ f.Loads d) := by
    intro f member
    rw [clears_iff]
    constructor
    · rintro (disables | ⟨a, analyses⟩ | loads)
      · cases (enabled f member).symm.trans disables
      · obtain ⟨after, before, rfl⟩ := List.append_of_mem member
        have within :
            f :: ((before ++ [e]) ++ earlier) <:+ (after ++ f :: before) ++ e :: earlier :=
          ⟨after, by simp⟩
        obtain ⟨past, follows⟩ := run.of_suffix within
        have notSince : a ∉ handedOut (before ++ [e]) := by
          have notHanded := old f member a analyses
          simp only [handedOut_append, handedOut_cons, List.mem_append, not_or] at notHanded ⊢
          exact ⟨notHanded.1.2.2, notHanded.2⟩
        exact .inl ⟨a, outstanding_of_analyses (tracked_of_run fresh past) follows analyses
          notSince, analyses⟩
      · exact .inr loads
    · rintro (⟨a, _, analyses⟩ | loads)
      · exact .inr (.inl ⟨a, analyses⟩)
      · exact .inr (.inr loads)
  have spared {f : Episode} (member : f ∈ later) (kept : ¬f.Clears d) :
      (∀ a ∈ outstanding earlier, ¬f.Analyses d a) ∧ ¬f.Loads d := by
    rw [clears f member, not_or] at kept
    exact ⟨fun a held analyses => kept.1 ⟨a, held, analyses⟩, kept.2⟩
  rw [stale_iff_marked_since rfl run]
  constructor
  · rintro ⟨after, m, before, split, marked, kept⟩
    rcases List.append_eq_append_iff.mp split with ⟨more, rfl, _⟩ | ⟨rest, rfl, tail⟩
    · -- The document was marked before this save, which marks it again.
      exact ⟨later, e, [], rfl, marks, fun f member =>
        spared member (kept f (List.mem_append_left more member))⟩
    · have kept : ∀ f ∈ after, _ := fun f member =>
        spared (List.mem_append_left rest member) (kept f member)
      cases rest with
      | nil =>
        obtain ⟨rfl, rfl⟩ := List.cons.inj tail
        exact ⟨after, m, [], by simp, marked, kept⟩
      | cons n rest =>
        obtain ⟨rfl, rfl⟩ := List.cons.inj tail
        exact ⟨after, m, rest ++ [e], by simp, marked, kept⟩
  · rintro ⟨after, m, before, split, marked, kept⟩
    refine ⟨after, m, before ++ earlier, ?_, marked, fun f member clear => ?_⟩
    · have whole := congrArg (· ++ earlier) split
      simpa using whole
    · have among : f ∈ later := by
        rcases List.append_eq_append_iff.mp split with ⟨more, rfl, tail⟩ | ⟨rest, rfl, _⟩
        · have short := congrArg List.length tail
          simp only [List.length_append, List.length_cons, List.length_nil] at short
          have none : more = [] := List.eq_nil_of_length_eq_zero (by omega)
          simpa [none] using member
        · exact List.mem_append_left rest member
      rcases (clears f among).mp clear with ⟨a, held, analyses⟩ | loads
      · exact (kept f member).1 a held analyses
      · exact (kept f member).2 loads

namespace Sample

def analysedAgain : List Occurrence :=
  [request .reExecute, completion (analysis 1 (.enable .file)), request .enableForFile,
    request (.documentActivated document "class A \x7b")]

def significantSave : Occurrence := request (.documentSaved document "class B \x7b")

end Sample

theorem stale_after_save_failed :
    ∃ later e earlier s, Run Sample.session (later ++ e :: earlier) s ∧
      e.Marks Sample.document ∧ Sample.analysis 2 .reExecute ∈ outstanding earlier ∧
      completed later = [Sample.analysis 2 .reExecute] ∧ Sample.document ∈ s.stale := by
  let failure := Failure.analysisFailed (.exited "infer" "exit status: 1" "")
  let ended : Occurrence := .completion (Sample.analysis 2 .reExecute) (.error failure)
    Sample.circumstances
  -- The trace has a name, so that only the closed facts below evaluate it.
  obtain ⟨past, isPast⟩ : ∃ past, past = traced Sample.session Sample.analysedAgain := ⟨_, rfl⟩
  have before : Run Sample.session past.1 past.2 := by
    rw [isPast]
    exact run_traced (by decide +kernel)
  have outstanding : Sample.analysis 2 .reExecute ∈ outstanding past.1 := by
    rw [isPast]
    decide +kernel
  have follows : ended.Follows (⟨past.2, Sample.significantSave⟩ :: past.1) := by
    rw [isPast]
    decide +kernel
  have significant : past.2.savesSignificantly Sample.document "class B \x7b" = true := by
    rw [isPast]
    decide +kernel
  let e := Episode.mk past.2 Sample.significantSave
  let f := Episode.mk e.next ended
  have saved : Run Sample.session (e :: past.1) e.next :=
    before.next (o := Sample.significantSave) trivial
  have run : Run Sample.session ([f] ++ e :: past.1) f.next := saved.next follows
  have marks : e.Marks Sample.document := ⟨_, rfl, significant⟩
  have notTaken : e.next.takesUp? (Sample.analysis 2 .reExecute) (.error failure)
      Sample.circumstances = none := Session.takesUp?_of_failure _ _ _
  have notAnalysed (a : Analysis) : ¬f.Analyses Sample.document a := by
    rintro ⟨_, _, records, same, taken, _⟩
    cases same
    cases notTaken.symm.trans taken
  have stale := stale_after_save_iff run marks
    (fun g member => by cases List.mem_singleton.mp member; rfl)
    (fun g member a analyses => by
      cases List.mem_singleton.mp member
      exact absurd analyses (notAnalysed a))
  refine ⟨[f], e, past.1, f.next, run, marks, outstanding, rfl,
    stale.mpr ⟨[f], e, [], rfl, marks, fun g member => ?_⟩⟩
  cases List.mem_singleton.mp member
  refine ⟨fun a _ => notAnalysed a, ?_⟩
  rintro ⟨_, _, _, asked, _⟩
  cases asked

/-- The document is saved while it is analysed again. The analysis is taken up, and the document is
not stale any more, though no analysis was started since and the session was not disabled. -/
theorem save_lost_to_running_analysis :
    ∃ later e earlier s, Run Sample.session (later ++ e :: earlier) s ∧
      e.Marks Sample.document ∧ Sample.analysis 2 .reExecute ∈ outstanding earlier ∧
      takenUp later = [Sample.analysis 2 .reExecute] ∧ (∀ f ∈ later, f.disables = false) ∧
      handedOut (later ++ [e]) = [] ∧ Sample.document ∈ e.next.stale ∧
      Sample.document ∉ s.stale := by
  let ended := Sample.completion (Sample.analysis 2 .reExecute)
  obtain ⟨past, isPast⟩ : ∃ past, past = traced Sample.session Sample.analysedAgain := ⟨_, rfl⟩
  have before : Run Sample.session past.1 past.2 := by
    rw [isPast]
    exact run_traced (by decide +kernel)
  have follows : ended.Follows (⟨past.2, Sample.significantSave⟩ :: past.1) := by
    rw [isPast]
    decide +kernel
  let e := Episode.mk past.2 Sample.significantSave
  let f := Episode.mk e.next ended
  have saved : Run Sample.session (e :: past.1) e.next :=
    before.next (o := Sample.significantSave) trivial
  have run : Run Sample.session ([f] ++ e :: past.1) f.next := saved.next follows
  have significant : past.2.savesSignificantly Sample.document "class B \x7b" = true := by
    rw [isPast]
    decide +kernel
  refine ⟨[f], e, past.1, f.next, run, ⟨_, rfl, significant⟩, ?_⟩
  subst isPast
  decide +kernel

end CostWatch
