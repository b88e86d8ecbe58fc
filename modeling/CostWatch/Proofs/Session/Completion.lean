import CostWatch.Proofs.Cost.Reports
import CostWatch.Proofs.Session.Costs

/-!
What the end of an analysis changes: all that its report brings, or nothing.

An analysis fails if it ends with an error, if its bytes are no report, if one item of the report
cannot be read or is no record, or if the ledger cannot be written. Only then, or if the session has
been disabled since the start, is nothing taken up. A cache that cannot be written is no such
reason.
-/

set_option autoImplicit false

namespace CostWatch

namespace Session

/-- Why the result of an analysis cannot be taken up: the first reason counts. -/
def failure? (s : Session) (a : Analysis) (c : Circumstances) :
    Except Failure (List UInt8) → Option Failure
  | .error f => some f
  | .ok report =>
    match decodeReport report with
    | .error fault => some (.ofReport fault)
    | .ok items =>
      match faultOf? (s.reportedDocument a) items, c.ledgerWrite with
      | some fault, _ => some (.ofReport fault)
      | none, .fails reason => some (.ledger (.database reason))
      | none, .succeeds => none

inductive Fails (s : Session) (a : Analysis) (c : Circumstances) :
    Except Failure (List UInt8) → Prop where
  | ended (f : Failure) : Fails s a c (.error f)
  | notReport {report : List UInt8} {fault : ReportFault} :
      decodeReport report = .error fault → Fails s a c (.ok report)
  | unreadable {report : List UInt8} : HasUnreadable report → Fails s a c (.ok report)
  | badItem {report : List UInt8} {items : List ReportItem} {item : ReportItem}
      {fault : ReportFault} :
      decodeReport report = .ok items → item ∈ items →
      item.toRecord (s.reportedDocument a) = .error fault → Fails s a c (.ok report)
  | notWritten {report : List UInt8} {reason : String} :
      c.ledgerWrite = .fails reason → Fails s a c (.ok report)

variable {s : Session} {a : Analysis} {c : Circumstances}

theorem fails_iff {result : Except Failure (List UInt8)} :
    s.Fails a c result ↔ (s.failure? a c result).isSome = true := by
  constructor
  · intro fails
    cases fails with
    | ended f => rfl
    | notReport undecoded =>
      rw [failure?, undecoded]
      rfl
    | unreadable unreadable =>
      obtain ⟨fault, undecoded⟩ := decodeReport_of_unreadable unreadable
      rw [failure?, undecoded]
      rfl
    | badItem decoded member bad =>
      have faulty := (faultOf?_isSome _ _).mpr ⟨_, member, _, bad⟩
      obtain ⟨fault, found⟩ := Option.isSome_iff_exists.mp faulty
      simp [failure?, decoded, found]
    | @notWritten report reason refused =>
      -- The reason may as well be one that comes before.
      rw [failure?, refused]
      cases decodeReport report with
      | error fault => rfl
      | ok items =>
        dsimp only
        cases faultOf? (s.reportedDocument a) items <;> rfl
  · intro reason
    cases result with
    | error f => exact .ended f
    | ok report =>
      cases decoded : decodeReport report with
      | error fault => exact .notReport decoded
      | ok items =>
        cases found : faultOf? (s.reportedDocument a) items with
        | some fault =>
          have faulty := (faultOf?_isSome (s.reportedDocument a) items).mp (by simp [found])
          obtain ⟨item, member, fault, bad⟩ := faulty
          exact .badItem decoded member bad
        | none =>
          cases writing : c.ledgerWrite with
          | fails reason => exact .notWritten writing
          | succeeds => simp [failure?, decoded, found, writing] at reason

/-! Reports that are applied, or not -/

theorem applyReport_cases (s : Session) (a : Analysis) (report : List UInt8) (c : Circumstances) :
    (∃ f, s.failure? a c (.ok report) = some f ∧ s.applyReport a report c = .error f) ∨
      s.failure? a c (.ok report) = none ∧
        ∃ records ids ledger, readReport (s.reportedDocument a) report = .ok records ∧
          s.ledger.record records c.now c.ledgerWrite = .ok (ids, ledger) ∧
          s.applyReport a report c =
            .ok (({ s with ledger }.takeUp a records).decorations ++
              [.info s!"Cost analysis finished. Methods analyzed: {records.length}"],
              { s with ledger }.takeUp a records) := by
  rw [applyReport, failure?, readReport_eq]
  cases decodeReport report with
  | error fault => exact .inl ⟨_, rfl, rfl⟩
  | ok items =>
    simp only [recordsOf_eq]
    cases faultOf? (s.reportedDocument a) items with
    | some fault => exact .inl ⟨_, rfl, rfl⟩
    | none =>
      cases c.ledgerWrite with
      | fails reason => exact .inl ⟨_, rfl, rfl⟩
      | succeeds => exact .inr ⟨rfl, _, _, _, rfl, rfl, rfl⟩

/-! What becomes of the session -/

theorem complete_of_discard (running : s.running = some ⟨a.id, true⟩)
    (result : Except Failure (List UInt8)) (c : Circumstances) :
    s.complete a result c =
      (.ofEvents [.progress false a.title,
        .info "Analysis result discarded: costlens was disabled"], { s with running := none }) := by
  unfold complete
  rw [running]
  exact if_pos rfl

theorem complete_of_use (running : s.running = some ⟨a.id, false⟩)
    (result : Except Failure (List UInt8)) (c : Circumstances) :
    (∃ f, s.failure? a c result = some f ∧ s.complete a result c =
        (.ofEvents [.progress false a.title, .ofFailure f], { s with running := none })) ∨
      s.failure? a c result = none ∧
        ∃ report records ids ledger, result = .ok report ∧
          readReport (s.reportedDocument a) report = .ok records ∧
          s.ledger.record records c.now c.ledgerWrite = .ok (ids, ledger) ∧
          s.complete a result c =
            (.ofEvents (.progress false a.title :: ((s.settled a records ledger).decorations ++
              [.info s!"Cost analysis finished. Methods analyzed: {records.length}"])),
              s.settled a records ledger) := by
  unfold complete
  simp only [running, if_true, Bool.false_eq_true, if_false]
  cases result with
  | error f => exact .inl ⟨f, rfl, rfl⟩
  | ok report =>
    -- What can fail does not depend on what is running.
    rcases applyReport_cases { s with running := none } a report c with
      ⟨f, failure, refused⟩ | ⟨success, records, ids, ledger, read, recorded, applied⟩
    · exact .inl ⟨f, failure, by simp only [refused]⟩
    · refine .inr ⟨success, report, records, ids, ledger, rfl, read, recorded, ?_⟩
      simp only [applied, takeUp_eq]

theorem settled_cache (s : Session) (a : Analysis) (records : List Record) (ledger : Ledger)
    (cache : Folder) :
    { s with cache }.settled a records ledger =
      { s.settled a records ledger with
        cache := (Cache.store cache (cacheName a) (s.byDocument a records)).2 } :=
  rfl

end Session

open Session

/-- The end of the running analysis changes all or nothing. If it fails, the session stays as it
was, except that nothing is running; two events tell so, of which the second one is a notice of the
first reason or of the discarded result. If it does not fail and is not discarded, its records are
taken up whatever stands in the folder of the caches, a cache that cannot be written included. -/
theorem completion_all_or_nothing {s : Session} {a : Analysis} {discard : Bool}
    (running : s.running = some ⟨a.id, discard⟩) (result : Except Failure (List UInt8))
    (c : Circumstances) :
    (s.Fails a c result → ∃ f, s.failure? a c result = some f ∧ s.complete a result c =
        (.ofEvents [.progress false a.title,
          if discard then .info "Analysis result discarded: costlens was disabled"
          else .ofFailure f], { s with running := none })) ∧
      (¬s.Fails a c result → discard = false →
        ∃ report records ids ledger, result = .ok report ∧
          readReport (s.reportedDocument a) report = .ok records ∧
          s.ledger.record records c.now c.ledgerWrite = .ok (ids, ledger) ∧
          (∀ cache : Folder, { s with cache }.complete a result c =
            (.ofEvents (.progress false a.title :: ((s.settled a records ledger).decorations ++
              [.info s!"Cost analysis finished. Methods analyzed: {records.length}"])),
              { s.settled a records ledger with
                cache := (Cache.store cache (cacheName a) (s.byDocument a records)).2 })) ∧
          ∀ d, (s.settled a records ledger).store.get? d =
            if a.document = some d ∨ s.belonging a records d ≠ [] then
              some (s.belonging a records d)
            else s.store.get? d) := by
  constructor
  · intro fails
    obtain ⟨f, failure⟩ := Option.isSome_iff_exists.mp (fails_iff.mp fails)
    refine ⟨f, failure, ?_⟩
    cases discard with
    | true => exact complete_of_discard running result c
    | false =>
      rcases complete_of_use running result c with ⟨g, other, completed⟩ | ⟨success, _⟩
      · cases failure.symm.trans other
        exact completed
      · cases failure.symm.trans success
  · rintro useful rfl
    have success : s.failure? a c result = none := by
      cases failure : s.failure? a c result with
      | none => rfl
      | some f => exact absurd (fails_iff.mpr (by simp [failure])) useful
    rcases complete_of_use running result c with ⟨f, failure, _⟩ |
      ⟨_, report, records, ids, ledger, rfl, read, recorded, _⟩
    · cases success.symm.trans failure
    · refine ⟨report, records, ids, ledger, rfl, read, recorded, fun cache => ?_,
        s.get?_settled a records ledger⟩
      have running : { s with cache }.running = some ⟨a.id, false⟩ := running
      rcases complete_of_use running (.ok report) c with ⟨f, failure, _⟩ |
        ⟨_, _, others, _, other, ⟨⟩, readAgain, recordedAgain, completed⟩
      · cases success.symm.trans failure
      · -- The other folder changes neither the records nor the ledger.
        cases read.symm.trans readAgain
        cases recorded.symm.trans recordedAgain
        rw [completed, settled_cache]
        rfl

namespace Sample

def waiting : Session :=
  (traced session [request .enableForFile, request (.documentActivated document "")]).2

def refusing : Circumstances :=
  { circumstances with ledgerWrite := .fails "disk full" }

end Sample

open Json Json.Reader in
theorem completion_all_or_nothing_refused :
    Sample.waiting.complete (Sample.analysis 1 (.enable .file)) (.ok [91, 93]) Sample.refusing =
        (.ofEvents [.progress false "Running cost analysis on A.java",
          .ofFailure (.ledger (.database "disk full"))], { Sample.waiting with running := none }) ∧
      (∃ f, Sample.waiting.complete (Sample.analysis 1 (.enable .file))
          (.ok (Text.Utf8.encode "[\x7b\x7d]")) Sample.circumstances =
        (.ofEvents [.progress false "Running cost analysis on A.java", .ofFailure f],
          { Sample.waiting with running := none })) ∧
      (Cache.store .plainFile "file-A-costs.json" [⟨Sample.document, []⟩]).1 = some .exists ∧
      ({ Sample.waiting with cache := .plainFile }.complete (Sample.analysis 1 (.enable .file))
        (.ok [91, 93]) Sample.circumstances).2.mode = .file := by
  have running :
      Sample.waiting.running = some ⟨(Sample.analysis 1 (.enable .file)).id, false⟩ := by
    decide +kernel
  refine ⟨?refused, ?unread, rfl, ?taken⟩
  case refused =>
    obtain ⟨f, failure, completed⟩ :=
      (completion_all_or_nothing running (.ok [91, 93]) Sample.refusing).1 (.notWritten rfl)
    cases failure
    exact completed
  case unread =>
    have unreadable : HasUnreadable (Text.Utf8.encode "[\x7b\x7d]") := by
      have refuses : RefusesItem ReportItem.schema.read 127 ['\x7b', '\x7d'] :=
        Schema.refusesItem_record _ (.nil _) rfl (.empty blank_nil)
      have text : "[\x7b\x7d]" = String.ofList ([] ++ '[' :: (['\x7b', '\x7d'] ++ ']' :: [])) := rfl
      rw [text]
      exact .item .nil refuses (.items blank_nil (.done blank_nil)) blank_nil
    obtain ⟨f, _, completed⟩ := (completion_all_or_nothing running
      (.ok (Text.Utf8.encode "[\x7b\x7d]")) Sample.circumstances).1 (.unreadable unreadable)
    exact ⟨f, completed⟩
  case taken =>
    have useful : ¬Sample.waiting.Fails (Sample.analysis 1 (.enable .file)) Sample.circumstances
        (.ok [91, 93]) := by
      rw [fails_iff]
      decide +kernel
    obtain ⟨_, records, ids, ledger, _, _, _, completed, _⟩ :=
      (completion_all_or_nothing running (.ok [91, 93]) Sample.circumstances).2 useful rfl
    rw [completed .plainFile]
    rfl

end CostWatch
