import CostWatch.Cost.Report
import CostWatch.Proofs.Json.Refusals
import CostWatch.Proofs.Text.Utf8
import Mathlib.Data.List.Pairwise
import Mathlib.Data.List.Sort

/-!
When a report is refused: an item that cannot be read, or that is no record, is enough, wherever it
stands. Of items that are no records, the first one is the reason. Otherwise each item gives one
record, and the records stand in the order of their lines.
-/

set_option autoImplicit false

namespace CostWatch

def ReportItem.fault? (documentOf : String → Document) (item : ReportItem) : Option ReportFault :=
  match item.toRecord documentOf with
  | .ok _ => none
  | .error fault => some fault

def faultOf? (documentOf : String → Document) (items : List ReportItem) : Option ReportFault :=
  items.findSome? (ReportItem.fault? documentOf)

variable (documentOf : String → Document) (items : List ReportItem)

theorem faultOf?_cons (item : ReportItem) (rest : List ReportItem) :
    faultOf? documentOf (item :: rest) =
      (item.fault? documentOf).or (faultOf? documentOf rest) := by
  rw [faultOf?, List.findSome?_cons]
  cases item.fault? documentOf <;> rfl

theorem mapM_toRecord :
    items.mapM (ReportItem.toRecord documentOf) =
      match faultOf? documentOf items with
      | some fault => .error fault
      | none => .ok (items.filterMap fun item => (item.toRecord documentOf).toOption) := by
  induction items with
  | nil => rfl
  | cons item rest ih =>
    rw [List.mapM_cons, ih, faultOf?_cons, ReportItem.fault?, List.filterMap_cons]
    cases item.toRecord documentOf with
    | error fault => rfl
    | ok r => cases faultOf? documentOf rest <;> rfl

theorem recordsOf_eq :
    recordsOf documentOf items =
      match faultOf? documentOf items with
      | some fault => .error fault
      | none =>
        .ok (sortByLine (items.filterMap fun item => (item.toRecord documentOf).toOption)) := by
  rw [recordsOf, mapM_toRecord]
  cases faultOf? documentOf items <;> rfl

theorem faultOf?_isSome :
    (faultOf? documentOf items).isSome = true ↔
      ∃ item ∈ items, ∃ fault, item.toRecord documentOf = .error fault := by
  rw [faultOf?, List.findSome?_isSome_iff]
  refine exists_congr fun item => and_congr_right fun _ => ?_
  rw [ReportItem.fault?]
  cases item.toRecord documentOf <;> simp

theorem faultOf?_eq_none {documentOf : String → Document} {items : List ReportItem}
    (valid : ∀ item ∈ items, ∃ r, item.toRecord documentOf = .ok r) :
    faultOf? documentOf items = none := by
  rw [← Option.not_isSome_iff_eq_none, faultOf?_isSome]
  rintro ⟨item, member, fault, bad⟩
  obtain ⟨r, read⟩ := valid item member
  cases read.symm.trans bad

/-! Reports that are read -/

theorem sortByLine_eq (records : List Record) :
    sortByLine records =
      records.insertionSort fun r later => r.location.line ≤ later.location.line := by
  have inserted (r : Record) (others : List Record) :
      insertByLine r others =
        others.orderedInsert (fun r later => r.location.line ≤ later.location.line) r := by
    induction others with
    | nil => rfl
    | cons other rest ih => rw [insertByLine, List.orderedInsert_cons, ih]
  induction records with
  | nil => rfl
  | cons r rest ih => rw [sortByLine, ih, inserted, List.insertionSort_cons]

theorem perm_sortByLine (records : List Record) : (sortByLine records).Perm records := by
  rw [sortByLine_eq]
  exact List.perm_insertionSort _ records

theorem pairwise_sortByLine (records : List Record) :
    (sortByLine records).Pairwise fun r later => r.location.line ≤ later.location.line := by
  have total : Std.Total fun r later : Record => r.location.line ≤ later.location.line :=
    ⟨fun _ _ => UInt32.le_total _ _⟩
  have trans : IsTrans Record fun r later => r.location.line ≤ later.location.line :=
    ⟨fun _ _ _ first second => UInt32.le_trans first second⟩
  rw [sortByLine_eq]
  exact List.pairwise_insertionSort _ records

theorem toRecord_eq_ok_iff {item : ReportItem} {r : Record} :
    item.toRecord documentOf = .ok r ↔
      Text.trim item.name ≠ "" ∧ 0 ≤ item.line ∧ item.line ≤ Int.ofNat Text.maxWord32 ∧
        ∃ allocation execution, item.allocation.resolve = .ok allocation ∧
          item.execution.resolve = .ok execution ∧
          r =
            { id := .of (documentOf item.file) item.name
              method := item.name
              location := ⟨item.file, UInt32.ofNat item.line.toNat⟩
              allocation
              execution
              timestamp := none } := by
  rw [ReportItem.toRecord]
  by_cases blank : Text.trim item.name = ""
  · simp [blank]
  by_cases misplaced : item.line < 0 ∨ Int.ofNat Text.maxWord32 < item.line
  · rw [if_neg blank, if_pos misplaced]
    refine iff_of_false nofun ?_
    rintro ⟨_, least, greatest, _⟩
    omega
  · rw [if_neg blank, if_neg misplaced]
    rw [not_or, Int.not_lt, Int.not_lt] at misplaced
    cases item.allocation.resolve with
    | error fault => simp [bind, Except.bind]
    | ok allocation =>
      cases item.execution.resolve with
      | error fault => simp [bind, Except.bind]
      | ok execution =>
        constructor
        · rintro ⟨⟩
          exact ⟨blank, misplaced.1, misplaced.2, allocation, execution, rfl, rfl, rfl⟩
        · rintro ⟨_, _, _, _, _, ⟨⟩, ⟨⟩, rfl⟩
          rfl

theorem id_of_toRecord {item : ReportItem} {r : Record}
    (read : item.toRecord documentOf = .ok r) :
    r.id = .of (documentOf r.location.file) r.method := by
  obtain ⟨_, _, _, _, _, _, _, rfl⟩ := (toRecord_eq_ok_iff documentOf).mp read
  rfl

/-- The line of a record is the one of its item, not another number of the same word. -/
theorem line_of_toRecord {item : ReportItem} {r : Record}
    (read : item.toRecord documentOf = .ok r) : (r.location.line.toNat : Int) = item.line := by
  obtain ⟨_, least, greatest, _, _, _, _, rfl⟩ := (toRecord_eq_ok_iff documentOf).mp read
  have small : item.line.toNat < 2 ^ 32 := by
    rw [Int.toNat_lt least]
    exact Int.lt_of_le_of_lt greatest (by decide)
  rw [UInt32.toNat_ofNat_of_lt' small]
  exact Int.toNat_of_nonneg least

theorem readReport_eq (report : List UInt8) :
    readReport documentOf report =
      match decodeReport report with
      | .ok items => recordsOf documentOf items
      | .error fault => .error fault := by
  rw [readReport]
  cases decodeReport report <;> rfl

theorem readReport_eq_ok_iff {report : List UInt8} {records : List Record} :
    readReport documentOf report = .ok records ↔
      ∃ items found, decodeReport report = .ok items ∧
        items.mapM (ReportItem.toRecord documentOf) = .ok found ∧ records = sortByLine found := by
  rw [readReport_eq]
  cases decodeReport report with
  | error fault => simp
  | ok items =>
    dsimp only
    rw [recordsOf]
    cases converted : items.mapM (ReportItem.toRecord documentOf) with
    | error fault =>
      refine iff_of_false nofun ?_
      rintro ⟨_, _, ⟨⟩, other, _⟩
      cases converted.symm.trans other
    | ok found =>
      constructor
      · rintro ⟨⟩
        exact ⟨items, found, rfl, converted, rfl⟩
      · rintro ⟨_, _, ⟨⟩, same, rfl⟩
        cases converted.symm.trans same
        rfl

theorem toRecord_of_mem {report : List UInt8} {records : List Record}
    (read : readReport documentOf report = .ok records) {r : Record} (member : r ∈ records) :
    ∃ item : ReportItem, item.toRecord documentOf = .ok r := by
  obtain ⟨items, found, _, converted, rfl⟩ := (readReport_eq_ok_iff documentOf).mp read
  rw [mapM_toRecord] at converted
  split at converted
  · cases converted
  · cases converted
    obtain ⟨item, _, converts⟩ := List.mem_filterMap.mp ((perm_sortByLine _).subset member)
    cases same : item.toRecord documentOf with
    | error fault =>
      rw [same] at converts
      cases converts
    | ok other =>
      rw [same] at converts
      cases converts
      exact ⟨item, same⟩

/-- What is read from a report: a record for each of its items, in the order of the lines and each
with the key of its method. -/
theorem readReport_cases {report : List UInt8} {records : List Record}
    (read : readReport documentOf report = .ok records) :
    ∃ items found, decodeReport report = .ok items ∧
      items.mapM (ReportItem.toRecord documentOf) = .ok found ∧ records.Perm found ∧
      records.Pairwise (fun r later => r.location.line ≤ later.location.line) ∧
      ∀ r ∈ records, r.id = .of (documentOf r.location.file) r.method := by
  have ids : ∀ r ∈ records, r.id = .of (documentOf r.location.file) r.method := by
    intro r member
    obtain ⟨item, same⟩ := toRecord_of_mem documentOf read member
    exact id_of_toRecord documentOf same
  obtain ⟨items, found, decoded, converted, rfl⟩ := (readReport_eq_ok_iff documentOf).mp read
  exact ⟨items, found, decoded, converted, perm_sortByLine _, pairwise_sortByLine _, ids⟩

theorem filter_toRecord (valid : ∀ item ∈ items, ∃ r, item.toRecord documentOf = .ok r)
    (name : String) :
    (((items.filterMap fun item => (item.toRecord documentOf).toOption).filter
        (·.method = name)).map fun r => (r.location.line.toNat : Int)) =
      (items.filter (·.name = name)).map ReportItem.line := by
  induction items with
  | nil => rfl
  | cons item rest ih =>
    obtain ⟨⟨r, read⟩, others⟩ := List.forall_mem_cons.mp valid
    have line := line_of_toRecord documentOf read
    have method : r.method = item.name := by
      obtain ⟨_, _, _, _, _, _, _, rfl⟩ := (toRecord_eq_ok_iff documentOf).mp read
      rfl
    have first : (item.toRecord documentOf).toOption = some r := by
      rw [read]
      rfl
    rw [List.filterMap_cons, first]
    by_cases own : item.name = name
    · simp [method, own, line, ih others]
    · simp [method, own, ih others]

theorem readReport_of_valid {report : List UInt8} (decoded : decodeReport report = .ok items)
    (valid : ∀ item ∈ items, ∃ r, item.toRecord documentOf = .ok r) :
    ∃ records, readReport documentOf report = .ok records ∧
      records.Pairwise (fun r later => r.location.line ≤ later.location.line) ∧
      ∀ name, ((records.filter (·.method = name)).map fun r => (r.location.line.toNat : Int)).Perm
        ((items.filter (·.name = name)).map ReportItem.line) := by
  refine ⟨sortByLine (items.filterMap fun item => (item.toRecord documentOf).toOption), ?_,
    pairwise_sortByLine _, fun name => ?_⟩
  · rw [readReport_eq, decoded]
    dsimp only
    rw [recordsOf_eq, faultOf?_eq_none valid]
  · rw [← filter_toRecord documentOf items valid]
    exact ((perm_sortByLine _).filter _).map _

/-! Reports in another order -/

/-- Items of one document, and items with one key, stand on different lines. -/
def LinesApart (items : List ReportItem) : Prop :=
  items.Pairwise fun item other =>
    documentOf item.file = documentOf other.file ∨
        MethodId.of (documentOf item.file) item.name =
          .of (documentOf other.file) other.name →
      item.line ≠ other.line

instance : Decidable (LinesApart documentOf items) :=
  inferInstanceAs (Decidable (List.Pairwise _ items))

theorem filter_sortByLine {records others : List Record} (perm : records.Perm others)
    {p : Record → Bool} (apart : records.Pairwise fun r other =>
      p r = true → p other = true → r.location.line ≠ other.location.line) :
    (sortByLine records).filter p = (sortByLine others).filter p := by
  have sorted (found : List Record) :
      ((sortByLine found).filter p).Pairwise fun r later => r.location.line ≤ later.location.line :=
    (pairwise_sortByLine found).filter p
  have same : ((sortByLine records).filter p).Perm ((sortByLine others).filter p) :=
    (((perm_sortByLine records).trans perm).trans (perm_sortByLine others).symm).filter p
  refine same.eq_of_pairwise (fun r other left right before after => ?_) (sorted _) (sorted _)
  -- Two records on one line are one record.
  obtain ⟨among, own⟩ := List.mem_filter.mp left
  obtain ⟨also, its⟩ := List.mem_filter.mp (same.symm.subset right)
  have symm : Std.Symm fun r other : Record =>
      p r = true → p other = true → r.location.line ≠ other.location.line :=
    ⟨fun _ _ differ own its => (differ its own).symm⟩
  by_contra different
  exact apart.forall ((perm_sortByLine records).subset among)
    ((perm_sortByLine records).subset also) different own its (UInt32.le_antisymm before after)

variable {documentOf items}

theorem LinesApart.records (apart : LinesApart documentOf items) :
    (items.filterMap fun item => (item.toRecord documentOf).toOption).Pairwise fun r other =>
      documentOf r.location.file = documentOf other.location.file ∨ r.id = other.id →
        r.location.line ≠ other.location.line := by
  have read {item : ReportItem} {r : Record} (found : (item.toRecord documentOf).toOption = some r) :
      item.toRecord documentOf = .ok r := by
    cases same : item.toRecord documentOf with
    | error fault => simp [same, Except.toOption] at found
    | ok other => simpa [same, Except.toOption] using found
  refine List.pairwise_filterMap.mpr (apart.imp fun {item other} differ r first s second => ?_)
  have line := line_of_toRecord documentOf (read first)
  have otherLine := line_of_toRecord documentOf (read second)
  obtain ⟨_, _, _, _, _, _, _, rfl⟩ := (toRecord_eq_ok_iff documentOf).mp (read first)
  obtain ⟨_, _, _, _, _, _, _, rfl⟩ := (toRecord_eq_ok_iff documentOf).mp (read second)
  intro shared sameLine
  refine differ shared ?_
  rw [← line, ← otherLine, sameLine]

/-- A report whose items are all records, and another one with the same items in another order. Both
are read, and their records of a document or of a method are the same, in the same order. -/
theorem readReport_of_perm {first second : List UInt8} {others : List ReportItem}
    (decoded : decodeReport first = .ok items) (alsoDecoded : decodeReport second = .ok others)
    (perm : items.Perm others) (valid : ∀ item ∈ items, ∃ r, item.toRecord documentOf = .ok r)
    (apart : LinesApart documentOf items) :
    ∃ records found, readReport documentOf first = .ok records ∧
      readReport documentOf second = .ok found ∧ records.Perm found ∧
      (∀ d, records.filter (fun r => documentOf r.location.file = d) =
        found.filter fun r => documentOf r.location.file = d) ∧
      ∀ id, records.find? (·.id = id) = found.find? (·.id = id) := by
  have converted := perm.filterMap fun item => (item.toRecord documentOf).toOption
  have records := apart.records
  refine ⟨_, _, ?_, ?_, (perm_sortByLine _).trans (converted.trans (perm_sortByLine _).symm),
    fun d => ?_, fun id => ?_⟩
  · rw [readReport_eq, decoded]
    dsimp only
    rw [recordsOf_eq, faultOf?_eq_none valid]
  · rw [readReport_eq, alsoDecoded]
    dsimp only
    rw [recordsOf_eq, faultOf?_eq_none fun item member => valid item (perm.symm.subset member)]
  · refine filter_sortByLine converted (records.imp fun differ own its => differ (.inl ?_))
    exact (of_decide_eq_true own).trans (of_decide_eq_true its).symm
  · rw [← List.head?_filter, ← List.head?_filter]
    refine congrArg _ (filter_sortByLine converted (records.imp fun differ own its =>
      differ (.inr ?_)))
    exact (of_decide_eq_true own).trans (of_decide_eq_true its).symm

/-! Items that cannot be read -/

open Json Json.Reader

/-- A report with an item that cannot be read. What stands before the item can be read, and anything
may come after it. -/
inductive HasUnreadable : List UInt8 → Prop where
  | item {values : List ReportItem.schema.Data} {before after : List (List Char)}
      {bad cs blanks rest : List Char} :
      List.Forall₂ (ReadsItem ReportItem.schema.read 127) values before →
      RefusesItem ReportItem.schema.read 127 bad → Row (before ++ bad :: after) cs →
      Blank blanks →
      HasUnreadable (Text.Utf8.encode (String.ofList (blanks ++ '[' :: (cs ++ ']' :: rest))))

theorem decodeReport_of_unreadable {report : List UInt8} (unreadable : HasUnreadable report) :
    ∃ fault, decodeReport report = .error fault := by
  obtain @⟨_, _, _, _, cs, blanks, rest, each, refuses, row, blank⟩ := unreadable
  obtain ⟨fault, failed⟩ := Schema.decode_list_of_refused each refuses row blank (symbols rest)
  refine ⟨.notJson fault, ?_⟩
  have text : symbolsOfBytes
      (Text.Utf8.encode (String.ofList (blanks ++ '[' :: (cs ++ ']' :: rest)))) =
        symbols blanks ++ .char '[' :: (symbols cs ++ .char ']' :: symbols rest) := by
    rw [symbolsOfBytes_encode, symbolsOfText, String.toList_ofList]
    simp [symbols]
  rw [decodeReport, text, failed]

end CostWatch
