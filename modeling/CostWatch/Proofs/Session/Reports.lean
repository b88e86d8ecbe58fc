import CostWatch.Proofs.Ledger.Agreement
import CostWatch.Proofs.Session.Coherence
import CostWatch.Proofs.Session.Completion

/-!
What a report that is taken up brings into a session, and what it leaves as it was.

The lists of the documents that it covers are its records, each of them once; the histories of the
methods that it names show the costs that it found. All other lists, marks and histories stay. A
history never loses its last entry, so that what has been found for a method can be shown from then
on, in any mode that shows costs.
-/

set_option autoImplicit false

namespace CostWatch

/-! Histories over a run -/

theorem Session.book_step {s s' : Session} {o : Occurrence} {answer : Except Failure Outcome}
    (step : s.Step o answer s') :
    s'.ledger.book = s.ledger.book ∨ ∃ p, s'.ledger.book = s.ledger.book.recordPass p := by
  cases step with
  | takenUp running taken recorded => exact .inr ⟨_, Ledger.book_record recorded⟩
  | exempted exempts book => exact .inl book
  | _ => exact .inl rfl

theorem limit_run {start s : Session} {history : List Episode} (run : Run start history s) :
    s.ledger.book.limit = start.ledger.book.limit := by
  apply run.keeps (·.ledger.book.limit = start.ledger.book.limit) rfl
  intro s o same
  rcases Session.book_step (s.step_meet o) with book | ⟨p, book⟩
  · rw [book, same]
  · rw [book, HistoryBook.limit_recordPass, same]

theorem nonempty_since {start s : Session} {later earlier : List Episode} {e : Episode}
    {limit : Option Nat} (run : Run start (later ++ e :: earlier) s)
    (limited : e.next.ledger.book.limit = limit.map (max · 1)) {id : MethodId}
    (found : ∃ latest older, e.next.ledger.history? id = some (latest :: older)) :
    ∃ latest older, s.ledger.history? id = some (latest :: older) := by
  -- That no limit cuts off all entries is kept along with the entries.
  let Lasting (t : Session) : Prop := t.ledger.book.limit = limit.map (max · 1) ∧
    ∃ latest older, t.ledger.history? id = some (latest :: older)
  have lasting : Lasting s := by
    apply run.keeps_since Lasting ⟨limited, found⟩
    rintro t o ⟨limited, found⟩
    rcases Session.book_step (t.step_meet o) with book | ⟨p, book⟩
    · simp only [Lasting, Ledger.history?, book]
      exact ⟨limited, found⟩
    · simp only [Lasting, Ledger.history?, book, HistoryBook.limit_recordPass]
      exact ⟨limited, HistoryBook.nonempty_recordPass limited p found⟩
  exact lasting.2

namespace Session

theorem openDetail_of_nonempty {s : Session} {id : MethodId} (enabled : s.mode ≠ .disabled)
    (found : ∃ latest older, s.ledger.history? id = some (latest :: older)) :
    ∃ outcome, (s.openDetail id).1 = .ok outcome := by
  obtain ⟨latest, older, found⟩ := found
  have shows : s.mode.requireEnabled = .ok () := if_neg enabled
  have opens : s.openDetail id = _ := require_ok shows
  rw [opens, found]
  exact ⟨_, rfl⟩

/-! What is taken up -/

/-- The documents whose lists an analysis replaces: the one that it is about, or those that the
records of a project name. -/
def Renews (s : Session) (a : Analysis) (records : List Record) (d : Document) : Prop :=
  match a.document with
  | some document => d = document
  | none => ∃ r ∈ records, d = ⟨Path.resolve s.config.workspace.root r.location.file⟩

structure Installed (s : Session) (a : Analysis) (records : List Record) (t : Session) : Prop where
  analysed : ∀ d, a.document = some d → t.store.get? d = some records
  reported : a.document = none → ∀ r ∈ records,
    t.store.get? ⟨Path.resolve s.config.workspace.root r.location.file⟩ =
      some (records.filter fun other =>
        Path.resolve s.config.workspace.root other.location.file =
          Path.resolve s.config.workspace.root r.location.file)
  others : ∀ d, ¬s.Renews a records d → t.store.get? d = s.store.get? d
  /-- The new lists are the records, of which none is lost and none comes twice. -/
  whole : ∃ documents : List Document, documents.Nodup ∧
    (∀ d, d ∈ documents ↔ s.Renews a records d) ∧
    (documents.flatMap fun d => (t.store.get? d).getD []).Perm records
  stale : ∀ d, t.isStale d = true ↔ s.isStale d = true ∧ ¬s.Renews a records d
  /-- Of the records of a method, the first one counts. -/
  latest : ∀ id r, records.find? (·.id = id) = some r →
    ∃ latest older, t.ledger.history? id = some (latest :: older) ∧
      latest.execution.polynomial = r.execution.polynomial
  unchanged : ∀ id, (∀ r ∈ records, r.id ≠ id) → t.ledger.history? id = s.ledger.history? id
  enabled : t.mode ≠ .disabled

variable {s : Session} {a : Analysis} {records : List Record}

theorem covers_iff_renews {d : Document} :
    covers (s.byDocument a records) d = true ↔ s.Renews a records d := by
  rw [covers_byDocument, Renews]
  cases analysed : a.document with
  | some document =>
    simp only [s.reportedDocument_of_document analysed, Option.some.injEq]
    constructor
    · rintro (same | ⟨_, _, same⟩) <;> exact same.symm
    · exact fun same => .inl same.symm
  | none =>
    simp only [s.reportedDocument_of_project analysed, reduceCtorEq, false_or]
    exact exists_congr fun r => and_congr_right fun _ => eq_comm

theorem takesUp?_of_read {report : List UInt8} {c : Circumstances}
    (running : s.running = some ⟨a.id, false⟩)
    (read : readReport (s.reportedDocument a) report = .ok records)
    (written : c.ledgerWrite = .succeeds) : s.takesUp? a (.ok report) c = some records := by
  rw [takesUp?_eq_some_iff, written]
  exact ⟨running, report, _, _, rfl, read, Ledger.record_succeeds _ _ _⟩

theorem perm_settled (s : Session) (a : Analysis) (records : List Record) (ledger : Ledger) :
    (((s.byDocument a records).map CachedDocument.document).flatMap fun d =>
      ((s.settled a records ledger).store.get? d).getD []).Perm records := by
  have increasing := s.increasing_byDocument a records
  have each : ∀ c ∈ s.byDocument a records,
      ((s.settled a records ledger).store.get? c.document).getD [] = c.records := by
    intro c member
    have stored : (s.settled a records ledger).store.get? c.document =
        (s.store.setAll (s.byDocument a records)).get? c.document := rfl
    rw [stored, Store.get?_setAll increasing, recordsIn?_of_mem increasing member]
    rfl
  rw [List.flatMap_map, List.flatMap_congr each]
  exact s.perm_byDocument a records

theorem installed_settled {limit : Option Nat} {ids : List MethodId} {ledger : Ledger}
    {now : Moment} {attempt : Attempt} (limited : s.ledger.book.limit = limit.map (max · 1))
    (recorded : s.ledger.record records now attempt = .ok (ids, ledger))
    (enabled : s.modeAfter a ≠ .disabled) :
    s.Installed a records (s.settled a records ledger) where
  analysed d analysed := by
    rw [get?_settled, if_pos (.inl analysed), s.belonging_of_document analysed]
  reported project r member := by
    have own := s.reportedDocument_of_project project
    have some := (s.belonging_ne_nil a).mpr ⟨r, member, own r.location.file⟩
    rw [get?_settled, if_pos (.inr some)]
    simp only [belonging, own, Document.mk.injEq]
  others d other := by
    have left : ¬(a.document = some d ∨ s.belonging a records d ≠ []) := by
      rwa [belonging_ne_nil, ← covers_byDocument, covers_iff_renews]
    rw [get?_settled, if_neg left]
  whole := by
    refine ⟨(s.byDocument a records).map CachedDocument.document,
      (s.increasing_byDocument a records).nodup, ?_, s.perm_settled a records ledger⟩
    intro d
    rw [← covers_iff_renews, covers_iff, List.mem_map]
  stale d := by
    rw [isStale, isStale, List.contains_iff_mem, List.contains_iff_mem, ← covers_iff_renews]
    have filtered : d ∈ (s.settled a records ledger).stale ↔
        d ∈ s.stale.filter fun d => !covers (s.byDocument a records) d := Iff.rfl
    rw [filtered, List.mem_filter, Bool.not_eq_true', Bool.not_eq_true]
  latest id r first := by
    have book : (s.settled a records ledger).ledger.book = _ := Ledger.book_record recorded
    rw [Ledger.history?, book]
    exact HistoryBook.latest_recordPass limited first
  unchanged id absent := by
    have book : (s.settled a records ledger).ledger.book = _ := Ledger.book_record recorded
    rw [Ledger.history?, book]
    apply HistoryBook.history?_recordPass_of_none
    apply List.find?_eq_none.mpr
    intro r member same
    exact absent r member (of_decide_eq_true same)
  enabled := enabled

end Session

/-- A report that can be read, and that the ledger records, is installed as a whole. Its records, in
the order of their lines, are those of its items and have the keys of their methods. From then on,
the history of each of them can be shown in any mode that shows costs. -/
theorem report_installed {storage : Storage} {limit : Option Nat} {ledger : Ledger}
    (loads : Ledger.load storage limit = .ok ledger) {config : Config} {directory : String}
    {extract : Extractor} {cache output : Folder} {history : List Episode} {s t : Session}
    {a : Analysis} {report : List UInt8} {c : Circumstances} {records : List Record}
    (run : Run (.new config directory extract ledger cache output)
      (⟨s, .completion a (.ok report) c⟩ :: history) t)
    (running : s.running = some ⟨a.id, false⟩)
    (read : readReport (s.reportedDocument a) report = .ok records)
    (written : c.ledgerWrite = .succeeds) :
    (∃ items found, decodeReport report = .ok items ∧
      items.mapM (ReportItem.toRecord (s.reportedDocument a)) = .ok found ∧ records.Perm found ∧
      records.Pairwise (fun r later => r.location.line ≤ later.location.line) ∧
      ∀ r ∈ records, r.id = .of (s.reportedDocument a r.location.file) r.method) ∧
    s.Installed a records t ∧
    ∀ later u, Run (.new config directory extract ledger cache output)
        (later ++ ⟨s, .completion a (.ok report) c⟩ :: history) u →
      u.mode ≠ .disabled → ∀ r ∈ records, ∃ outcome, (u.openDetail r.id).1 = .ok outcome := by
  have limited : t.ledger.book.limit = limit.map (max · 1) :=
    (limit_run run).trans (Ledger.limit_load loads)
  cases run with
  | next before handed =>
    have taken := Session.takesUp?_of_read running read written
    rcases Session.complete_cases running (.ok report) c with ⟨none, _⟩ |
      ⟨_, ids, next, message, some, recorded, completed⟩
    · cases none.symm.trans taken
    cases some.symm.trans taken
    have after : (s.meet (.completion a (.ok report) c)).2 = s.settled a records next :=
      congrArg Prod.snd completed
    have enabled : s.modeAfter a ≠ .disabled := ((coherent_of_run before).2 a handed running).1
    have installed : s.Installed a records (s.meet (.completion a (.ok report) c)).2 := by
      rw [after]
      exact Session.installed_settled ((limit_run before).trans (Ledger.limit_load loads)) recorded
        enabled
    refine ⟨readReport_cases _ read, installed, ?_⟩
    intro later u run shows r member
    apply Session.openDetail_of_nonempty shows
    apply nonempty_since run limited
    -- Should the method have overloads, another record of it comes first.
    have some : (records.find? (·.id = r.id)).isSome = true :=
      List.find?_isSome.mpr ⟨r, member, decide_eq_true rfl⟩
    obtain ⟨first, isFirst⟩ := Option.isSome_iff_exists.mp some
    obtain ⟨latest, older, found, _⟩ := installed.latest r.id first isFirst
    exact ⟨latest, older, found⟩

namespace Sample

def report : List UInt8 :=
  Text.Utf8.encode ("[[\"g\",[\"B.java\",2],[[\"0\",0,\"\"]],[[\"n\",1,\"\"]]]," ++
    "[\"f\",[\"A.java\",1],[[\"0\",0,\"\"]],[[\"2\",0,\"\"]]]]")

end Sample

theorem report_installed_project :
    ∃ history s t records,
      Run Sample.session (⟨s, .completion (Sample.projectAnalysis 1 (.enable .project))
        (.ok Sample.report) Sample.circumstances⟩ :: history) t ∧
      records.map (·.id.key) = ["/work/A.java:f", "/work/B.java:g"] ∧
      s.Installed (Sample.projectAnalysis 1 (.enable .project)) records t ∧
      ∀ r ∈ records, ∃ outcome, (t.openDetail r.id).1 = .ok outcome := by
  let ended : Occurrence := .completion (Sample.projectAnalysis 1 (.enable .project))
    (.ok Sample.report) Sample.circumstances
  obtain ⟨past, isPast⟩ :
    ∃ past, past = traced Sample.session [Sample.request (.enableForProject "make")] := ⟨_, rfl⟩
  have before : Run Sample.session past.1 past.2 := by
    rw [isPast]
    exact run_traced (by decide +kernel)
  have follows : ended.Follows past.1 := by
    rw [isPast]
    decide +kernel
  have running : past.2.running = some ⟨1, false⟩ := by
    rw [isPast]
    decide +kernel
  have keys : (readReport (past.2.reportedDocument (Sample.projectAnalysis 1 (.enable .project)))
      Sample.report).toOption.map (List.map (·.id.key)) =
        some ["/work/A.java:f", "/work/B.java:g"] := by
    rw [isPast]
    decide +kernel
  cases read : readReport (past.2.reportedDocument (Sample.projectAnalysis 1 (.enable .project)))
      Sample.report with
  | error fault =>
    rw [read] at keys
    cases keys
  | ok records =>
    rw [read] at keys
    have run : Run Sample.session (⟨past.2, ended⟩ :: past.1) (past.2.meet ended).2 :=
      before.next follows
    have loads : Ledger.load .empty none = .ok (.new none) := rfl
    obtain ⟨_, installed, shown⟩ := report_installed loads run running read rfl
    exact ⟨past.1, past.2, _, records, run, Option.some.inj keys, installed,
      shown [] _ run installed.enabled⟩

end CostWatch
