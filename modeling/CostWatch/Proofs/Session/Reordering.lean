import CostWatch.Proofs.Session.Display

/-!
That the order of the items of a report does not matter.

Records are sorted by their lines, and those of one line keep the order of the report. So two orders
of the same items may give different lists of records. But of the records of one document, and of
those of one method, no two stand on one line; so each document gets the same list, and each history
the same entry.
-/

set_option autoImplicit false

namespace CostWatch

namespace Session

/-- Sessions that show the same: all is equal but the ledgers, and those show the same. -/
structure Alike (s t : Session) : Prop where
  equal : t = { s with ledger := t.ledger }
  ledger : s.ledger.Alike t.ledger

variable {s : Session} {a : Analysis} {c : Circumstances}

theorem Alike.refl (s : Session) : s.Alike s :=
  ⟨rfl, rfl, rfl, rfl, fun _ => rfl⟩

theorem complete_of_useless (useless : s.running ≠ some ⟨a.id, false⟩)
    (result other : Except Failure (List UInt8)) (c : Circumstances) :
    s.complete a result c = s.complete a other c := by
  unfold complete
  cases running : s.running with
  | none => rfl
  | some r =>
    obtain ⟨id, discard⟩ := r
    dsimp only
    split
    · next same =>
      cases discard with
      | true => rfl
      | false => exact absurd (by rw [running, same]) useless
    · rfl

theorem failure?_of_valid {report : List UInt8} {items : List ReportItem}
    (decoded : decodeReport report = .ok items)
    (valid : ∀ item ∈ items, ∃ r, item.toRecord (s.reportedDocument a) = .ok r) :
    s.failure? a c (.ok report) =
      match c.ledgerWrite with
      | .fails reason => some (.ledger (.database reason))
      | .succeeds => none := by
  rw [failure?, decoded]
  dsimp only
  rw [faultOf?_eq_none valid]
  cases c.ledgerWrite <;> rfl

theorem alike_settled {records others : List Record} {ids otherIds : List MethodId}
    {ledger otherLedger : Ledger}
    (belonging : ∀ d, s.belonging a records d = s.belonging a others d)
    (counts : ∀ id, records.find? (·.id = id) = others.find? (·.id = id))
    (recorded : s.ledger.record records c.now c.ledgerWrite = .ok (ids, ledger))
    (othersRecorded : s.ledger.record others c.now c.ledgerWrite = .ok (otherIds, otherLedger)) :
    (s.settled a records ledger).Alike (s.settled a others otherLedger) where
  equal := by
    unfold settled
    rw [s.byDocument_eq a belonging]
  ledger := by
    cases written : c.ledgerWrite with
    | fails reason =>
      rw [written] at recorded
      cases recorded
    | succeeds =>
      rw [written, Ledger.record_succeeds] at recorded othersRecorded
      cases recorded
      cases othersRecorded
      exact s.ledger.alike_recorded counts c.now

end Session

/-- Two reports have the same items in different orders, and all items are records of which no two
of one document, and no two of one method, stand on one line. Whatever the session waits for, it
answers the same when the analysis ends with the one or with the other, and shows the same
afterwards. -/
theorem complete_reordered {s : Session} {a : Analysis} {first second : List UInt8}
    {items others : List ReportItem} (decoded : decodeReport first = .ok items)
    (alsoDecoded : decodeReport second = .ok others) (perm : items.Perm others)
    (valid : ∀ item ∈ items, ∃ r, item.toRecord (s.reportedDocument a) = .ok r)
    (apart : LinesApart (s.reportedDocument a) items) (c : Circumstances) :
    (s.complete a (.ok first) c).1 = (s.complete a (.ok second) c).1 ∧
      (s.complete a (.ok first) c).2.Alike (s.complete a (.ok second) c).2 := by
  by_cases running : s.running = some ⟨a.id, false⟩
  case neg =>
    rw [Session.complete_of_useless running (.ok first) (.ok second) c]
    exact ⟨rfl, .refl _⟩
  have failure := Session.failure?_of_valid (c := c) decoded valid
  have otherFailure := Session.failure?_of_valid (c := c) alsoDecoded
    fun item member => valid item (perm.symm.subset member)
  have same := failure.trans otherFailure.symm
  obtain ⟨records, found, read, alsoRead, reordered, belonging, counts⟩ :=
    readReport_of_perm decoded alsoDecoded perm valid apart
  rcases Session.complete_of_use running (.ok first) c with ⟨f, fails, completed⟩ |
    ⟨succeeds, _, _, ids, ledger, ⟨⟩, readAgain, recorded, completed⟩
  · rcases Session.complete_of_use running (.ok second) c with ⟨g, alsoFails, alsoCompleted⟩ |
      ⟨alsoSucceeds, _⟩
    · cases (fails.symm.trans same).trans alsoFails
      rw [completed, alsoCompleted]
      exact ⟨rfl, .refl _⟩
    · cases (fails.symm.trans same).trans alsoSucceeds
  · rcases Session.complete_of_use running (.ok second) c with ⟨g, alsoFails, _⟩ |
      ⟨_, _, _, otherIds, otherLedger, ⟨⟩, alsoReadAgain, alsoRecorded, alsoCompleted⟩
    · cases (succeeds.symm.trans same).trans alsoFails
    · cases read.symm.trans readAgain
      cases alsoRead.symm.trans alsoReadAgain
      have alike := Session.alike_settled belonging counts recorded alsoRecorded
      -- Decorations do not depend on the ledger.
      have decorations : (s.settled a records ledger).decorations =
          (s.settled a found otherLedger).decorations := by
        rw [alike.equal]
        rfl
      rw [completed, alsoCompleted, decorations, reordered.length_eq]
      exact ⟨rfl, alike⟩

namespace Sample

deriving instance DecidableEq for ReportedDegree, ReportedCost, ReportItem

def item (name file : String) : ReportItem :=
  ⟨name, file, 1, ⟨"0", .number 0, ""⟩, ⟨"2", .number 0, ""⟩⟩

def twoFiles : List UInt8 :=
  Text.Utf8.encode ("[[\"g\",[\"B.java\",1],[[\"0\",0,\"\"]],[[\"2\",0,\"\"]]]," ++
    "[\"f\",[\"A.java\",1],[[\"0\",0,\"\"]],[[\"2\",0,\"\"]]]]")

def twoFilesReordered : List UInt8 :=
  Text.Utf8.encode ("[[\"f\",[\"A.java\",1],[[\"0\",0,\"\"]],[[\"2\",0,\"\"]]]," ++
    "[\"g\",[\"B.java\",1],[[\"0\",0,\"\"]],[[\"2\",0,\"\"]]]]")

def methodsOf (s : Session) (a : Analysis) (report : List UInt8) : Option (List String) :=
  (readReport (s.reportedDocument a) report).toOption.map (List.map Record.method)

end Sample

theorem complete_reordered_two_files :
    ∃ history s a, Run Sample.reader history s ∧ s.running = some ⟨a.id, false⟩ ∧
      a ∈ handedOut history ∧ Sample.methodsOf s a Sample.twoFiles = some ["g", "f"] ∧
      Sample.methodsOf s a Sample.twoFilesReordered = some ["f", "g"] ∧
      (s.complete a (.ok Sample.twoFiles) Sample.circumstances).1 =
        (s.complete a (.ok Sample.twoFilesReordered) Sample.circumstances).1 ∧
      (s.complete a (.ok Sample.twoFiles) Sample.circumstances).2.Alike
        (s.complete a (.ok Sample.twoFilesReordered) Sample.circumstances).2 := by
  let a := Sample.projectAnalysis 1 (.enable .project)
  obtain ⟨past, isPast⟩ : ∃ past, past = traced Sample.reader
    [Sample.request (.enableForProject "make"),
      Sample.request (.documentActivated Sample.document "f")] := ⟨_, rfl⟩
  have run : Run Sample.reader past.1 past.2 := by
    rw [isPast]
    exact run_traced (by decide +kernel)
  have facts : past.2.running = some ⟨1, false⟩ ∧ a ∈ handedOut past.1 ∧
      Sample.methodsOf past.2 a Sample.twoFiles = some ["g", "f"] ∧
      Sample.methodsOf past.2 a Sample.twoFilesReordered = some ["f", "g"] ∧
      LinesApart (past.2.reportedDocument a)
        [Sample.item "g" "B.java", Sample.item "f" "A.java"] := by
    subst isPast
    decide +kernel
  obtain ⟨running, handed, sorted, sortedOtherwise, apart⟩ := facts
  have decoded : decodeReport Sample.twoFiles =
      .ok [Sample.item "g" "B.java", Sample.item "f" "A.java"] :=
    Session.toOption_eq_some_iff.mp (by decide +kernel)
  have alsoDecoded : decodeReport Sample.twoFilesReordered =
      .ok [Sample.item "f" "A.java", Sample.item "g" "B.java"] :=
    Session.toOption_eq_some_iff.mp (by decide +kernel)
  have valid : ∀ item ∈ [Sample.item "g" "B.java", Sample.item "f" "A.java"],
      ∃ r, item.toRecord (past.2.reportedDocument a) = .ok r := by
    simp only [List.forall_mem_cons, List.not_mem_nil, false_implies, implies_true, and_true]
    exact ⟨⟨_, rfl⟩, ⟨_, rfl⟩⟩
  obtain ⟨answers, alike⟩ :=
    complete_reordered decoded alsoDecoded (.swap _ _ []) valid apart Sample.circumstances
  exact ⟨past.1, past.2, a, run, running, handed, sorted, sortedOtherwise, answers, alike⟩

end CostWatch
