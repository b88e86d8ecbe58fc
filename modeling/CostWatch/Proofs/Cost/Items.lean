import CostWatch.Proofs.Cost.Reports
import CostWatch.Proofs.Text.Decimal
import CostWatch.Proofs.Traversal

/-!
Which items of a report are records, and how the records of a report stand.

An item is a record if it has a name, a line that fits and two degrees that say something; what each
of these means is said of the text of the report. A report has a record for each of its items, by
line and otherwise in the order of the items, or the first item that is no record is the reason why
it has none.
-/

set_option autoImplicit false

namespace CostWatch

/-! What a report means -/

/-- The degree that is meant, if any: a number, or none for a cost without bound. -/
inductive ReportedDegree.Means : ReportedDegree → Option UInt32 → Prop where
  | number (n : UInt32) : Means (.number n) (some n)
  | unbounded {s : String} : Text.Trims s.toList "Top".toList → Means (.text s) none
  | written {s t : String} {n : UInt32} : Text.Trims s.toList t.toList →
      Text.Writes t.toList n.toNat → Means (.text s) (some n)

/-- A text that says no degree, without the white space around it. -/
inductive ReportedDegree.Garbled : ReportedDegree → String → Prop where
  | text {s t : String} : Text.Trims s.toList t.toList → t ≠ "Top" →
      (∀ n, Text.Writes t.toList n → UInt32.size ≤ n) → Garbled (.text s) t

structure ReportedCost.Means (c : ReportedCost) (cost : Cost) : Prop where
  polynomial : cost.polynomial = c.polynomial
  bigO : cost.bigO = c.bigO
  degree : c.degree.Means cost.degree

namespace ReportItem

def Named (item : ReportItem) : Prop :=
  ¬Text.IsBlank item.name.toList

def LineFits (item : ReportItem) : Prop :=
  0 ≤ item.line ∧ item.line < UInt32.size

structure Valid (item : ReportItem) : Prop where
  named : item.Named
  line : item.LineFits
  allocation : ∃ degree, item.allocation.degree.Means degree
  execution : ∃ degree, item.execution.degree.Means degree

structure Gives (documentOf : String → Document) (item : ReportItem) (r : Record) : Prop where
  id : r.id = .of (documentOf item.file) item.name
  method : r.method = item.name
  file : r.location.file = item.file
  line : (r.location.line.toNat : Int) = item.line
  allocation : item.allocation.Means r.allocation
  execution : item.execution.Means r.execution
  timestamp : r.timestamp = none

/-- Why an item is no record. Of several reasons the one that comes first here counts. -/
inductive Fails (item : ReportItem) : ReportFault → Prop where
  | name : ¬item.Named → Fails item .emptyName
  | line : item.Named → ¬item.LineFits → Fails item (.invalidLine item.line item.name)
  | allocation {t : String} : item.Named → item.LineFits → item.allocation.degree.Garbled t →
      Fails item (.invalidDegree t)
  | execution {degree : Option UInt32} {t : String} : item.Named → item.LineFits →
      item.allocation.degree.Means degree → item.execution.degree.Garbled t →
      Fails item (.invalidDegree t)

end ReportItem

/-! Items -/

section
variable {s t : String} {degree : Option UInt32}

theorem not_writes_unboundedMark (n : Nat) : ¬Text.Writes unboundedMark.toList n := by
  rintro (⟨_, digits⟩ | _)
  cases digits 'T' (by decide)

theorem ReportedDegree.means_text_iff :
    Means (.text s) degree ↔
      if Text.trim s = unboundedMark then degree = none
      else ∃ n : UInt32, degree = some n ∧
        Text.natural? Text.maxWord32 (Text.trim s) = some n.toNat := by
  have fits (n : UInt32) : n.toNat ≤ Text.maxWord32 := Nat.le_sub_one_of_lt n.toNat_lt
  simp only [Text.natural?_eq_some_iff, fits, and_true]
  split
  · next unbounded =>
    constructor
    · rintro (_ | _ | ⟨trims, writes⟩)
      · rfl
      · rw [← Text.trims_iff.mp trims, unbounded] at writes
        exact absurd writes (not_writes_unboundedMark _)
    · rintro rfl
      exact .unbounded (Text.trims_iff.mpr unbounded)
  · next bounded =>
    constructor
    · rintro (_ | trims | ⟨trims, writes⟩)
      · exact absurd (Text.trims_iff.mp trims) bounded
      · exact ⟨_, rfl, Text.trims_iff.mp trims ▸ writes⟩
    · rintro ⟨n, rfl, writes⟩
      exact .written (Text.trims_iff.mpr rfl) writes

theorem ReportedDegree.garbled_text_iff :
    Garbled (.text s) t ↔ Text.trim s = t ∧ t ≠ unboundedMark ∧
      Text.natural? Text.maxWord32 t = none := by
  rw [Text.natural?_eq_none_iff, ← Text.trims_iff]
  constructor
  · rintro ⟨trims, bounded, tooGreat⟩
    exact ⟨trims, bounded, tooGreat⟩
  · rintro ⟨trims, bounded, tooGreat⟩
    exact .text trims bounded tooGreat

end

theorem ReportedDegree.resolve_text (s : String) :
    (text s).resolve =
      if Text.trim s = unboundedMark then .ok none
      else match Text.natural? Text.maxWord32 (Text.trim s) with
        | some n => .ok (some (UInt32.ofNat n))
        | none => .error (.invalidDegree (Text.trim s)) :=
  rfl

theorem ReportedDegree.resolve_eq_ok_iff {d : ReportedDegree} {degree : Option UInt32} :
    d.resolve = .ok degree ↔ d.Means degree := by
  cases d with
  | number n =>
    constructor
    · rintro ⟨⟩
      exact .number n
    · rintro ⟨⟩
      rfl
  | text s =>
    rw [means_text_iff, resolve_text]
    split
    · simp [eq_comm]
    · cases read : Text.natural? Text.maxWord32 (Text.trim s) with
      | none => simp
      | some n =>
        have word : n < UInt32.size :=
          Nat.lt_of_le_of_lt (Text.natural?_eq_some_iff.mp read).2 (by decide)
        constructor
        · rintro ⟨⟩
          exact ⟨_, rfl, congrArg some (UInt32.toNat_ofNat_of_lt' word).symm⟩
        · rintro ⟨m, rfl, same⟩
          cases same
          simp

theorem ReportedDegree.resolve_eq_error_iff {d : ReportedDegree} {fault : ReportFault} :
    d.resolve = .error fault ↔ ∃ t, fault = .invalidDegree t ∧ d.Garbled t := by
  cases d with
  | number n => exact iff_of_false nofun (by rintro ⟨_, _, ⟨⟩⟩)
  | text s =>
    simp only [garbled_text_iff, resolve_text]
    split
    · next unbounded =>
      refine iff_of_false nofun ?_
      rintro ⟨_, _, rfl, bounded, _⟩
      exact bounded unbounded
    · next bounded =>
      cases read : Text.natural? Text.maxWord32 (Text.trim s) with
      | none =>
        constructor
        · rintro ⟨⟩
          exact ⟨_, rfl, rfl, bounded, read⟩
        · rintro ⟨_, rfl, rfl, _⟩
          rfl
      | some n =>
        refine iff_of_false nofun ?_
        rintro ⟨_, _, rfl, _, none⟩
        cases read.symm.trans none

theorem ReportedCost.resolve_eq_ok_iff {c : ReportedCost} {cost : Cost} :
    c.resolve = .ok cost ↔ c.Means cost := by
  obtain ⟨polynomial, degree, bigO⟩ := cost
  have same : c.resolve = .ok ⟨polynomial, degree, bigO⟩ ↔
      polynomial = c.polynomial ∧ bigO = c.bigO ∧ c.degree.resolve = .ok degree := by
    rw [resolve]
    cases c.degree.resolve with
    | error fault => simp [Except.map]
    | ok found => simp [Except.map, eq_comm, and_comm]
  rw [same, ReportedDegree.resolve_eq_ok_iff]
  exact ⟨fun ⟨polynomial, bigO, degree⟩ => ⟨polynomial, bigO, degree⟩,
    fun ⟨polynomial, bigO, degree⟩ => ⟨polynomial, bigO, degree⟩⟩

theorem ReportedCost.resolve_eq_error_iff {c : ReportedCost} {fault : ReportFault} :
    c.resolve = .error fault ↔ ∃ t, fault = .invalidDegree t ∧ c.degree.Garbled t := by
  rw [← ReportedDegree.resolve_eq_error_iff, resolve]
  cases c.degree.resolve <;> simp [Except.map]

namespace ReportItem
variable {documentOf : String → Document} {item : ReportItem}

theorem named_iff : item.Named ↔ Text.trim item.name ≠ "" :=
  not_congr Text.trim_eq_empty_iff.symm

theorem lineFits_iff :
    item.LineFits ↔ 0 ≤ item.line ∧ item.line ≤ Int.ofNat Text.maxWord32 := by
  have greatest : Int.ofNat Text.maxWord32 = UInt32.size - 1 := by decide
  rw [LineFits, greatest]
  omega

theorem toRecord_eq_ok {r : Record} :
    item.toRecord documentOf = .ok r ↔ item.Valid ∧ item.Gives documentOf r := by
  constructor
  · intro read
    have line := line_of_toRecord documentOf read
    obtain ⟨named, least, greatest, allocation, execution, readAllocation, readExecution, rfl⟩ :=
      (toRecord_eq_ok_iff documentOf).mp read
    have allocation := ReportedCost.resolve_eq_ok_iff.mp readAllocation
    have execution := ReportedCost.resolve_eq_ok_iff.mp readExecution
    exact ⟨⟨named_iff.mpr named, lineFits_iff.mpr ⟨least, greatest⟩, ⟨_, allocation.degree⟩,
      ⟨_, execution.degree⟩⟩, rfl, rfl, rfl, line, allocation, execution, rfl⟩
  · rintro ⟨valid, id, method, file, line, allocation, execution, timestamp⟩
    obtain ⟨least, greatest⟩ := lineFits_iff.mp valid.line
    have word : r.location.line = UInt32.ofNat item.line.toNat := by
      rw [← line, Int.toNat_natCast, UInt32.ofNat_toNat]
    refine (toRecord_eq_ok_iff documentOf).mpr ⟨named_iff.mp valid.named, least, greatest,
      r.allocation, r.execution, ReportedCost.resolve_eq_ok_iff.mpr allocation,
      ReportedCost.resolve_eq_ok_iff.mpr execution, ?_⟩
    rw [← id, ← method, ← file, ← word, ← timestamp]

theorem lineFits_iff_not :
    item.LineFits ↔ ¬(item.line < 0 ∨ Int.ofNat Text.maxWord32 < item.line) := by
  rw [lineFits_iff, not_or, Int.not_lt, Int.not_lt]

theorem toRecord_of_fails {fault : ReportFault} (fails : item.Fails fault) :
    item.toRecord documentOf = .error fault := by
  rw [toRecord]
  cases fails with
  | name blank => rw [if_pos (not_not.mp (named_iff.not.mp blank))]
  | line named misplaced =>
    rw [if_neg (named_iff.mp named), if_pos (not_not.mp (lineFits_iff_not.not.mp misplaced))]
  | allocation named fits garbled =>
    have failed := ReportedCost.resolve_eq_error_iff.mpr ⟨_, rfl, garbled⟩
    rw [if_neg (named_iff.mp named), if_neg (lineFits_iff_not.mp fits), failed]
    rfl
  | @execution degree t named fits means garbled =>
    have read : item.allocation.resolve = .ok ⟨_, degree, _⟩ :=
      ReportedCost.resolve_eq_ok_iff.mpr ⟨rfl, rfl, means⟩
    have failed := ReportedCost.resolve_eq_error_iff.mpr ⟨_, rfl, garbled⟩
    rw [if_neg (named_iff.mp named), if_neg (lineFits_iff_not.mp fits), read, failed]
    rfl

theorem valid_or_fails (item : ReportItem) : item.Valid ∨ ∃ fault, item.Fails fault := by
  by_cases named : item.Named
  case neg => exact .inr ⟨_, .name named⟩
  by_cases fits : item.LineFits
  case neg => exact .inr ⟨_, .line named fits⟩
  cases allocation : item.allocation.degree.resolve with
  | error fault =>
    obtain ⟨t, rfl, garbled⟩ := ReportedDegree.resolve_eq_error_iff.mp allocation
    exact .inr ⟨_, .allocation named fits garbled⟩
  | ok degree =>
    have means := ReportedDegree.resolve_eq_ok_iff.mp allocation
    cases execution : item.execution.degree.resolve with
    | error fault =>
      obtain ⟨t, rfl, garbled⟩ := ReportedDegree.resolve_eq_error_iff.mp execution
      exact .inr ⟨_, .execution named fits means garbled⟩
    | ok degree' =>
      exact .inl ⟨named, fits, ⟨_, means⟩, ⟨_, ReportedDegree.resolve_eq_ok_iff.mp execution⟩⟩

theorem exists_toRecord (documentOf : String → Document) (valid : item.Valid) :
    ∃ r, item.toRecord documentOf = .ok r ∧ item.Gives documentOf r := by
  obtain ⟨named, fits, ⟨degree, means⟩, ⟨degree', means'⟩⟩ := valid
  obtain ⟨least, greatest⟩ := lineFits_iff.mp fits
  have allocation : item.allocation.resolve = .ok ⟨_, degree, _⟩ :=
    ReportedCost.resolve_eq_ok_iff.mpr ⟨rfl, rfl, means⟩
  have execution : item.execution.resolve = .ok ⟨_, degree', _⟩ :=
    ReportedCost.resolve_eq_ok_iff.mpr ⟨rfl, rfl, means'⟩
  have read := (toRecord_eq_ok_iff documentOf).mpr
    ⟨named_iff.mp named, least, greatest, _, _, allocation, execution, rfl⟩
  exact ⟨_, read, (toRecord_eq_ok.mp read).2⟩

theorem toRecord_eq_error_iff {fault : ReportFault} :
    item.toRecord documentOf = .error fault ↔ item.Fails fault := by
  refine ⟨fun failed => ?_, toRecord_of_fails⟩
  rcases item.valid_or_fails with valid | ⟨other, fails⟩
  · obtain ⟨r, read, _⟩ := exists_toRecord documentOf valid
    cases read.symm.trans failed
  · cases (toRecord_of_fails fails).symm.trans failed
    exact fails

end ReportItem

/-! Records by line -/

theorem filter_line_sortByLine (records : List Record) (line : UInt32) :
    (sortByLine records).filter (·.location.line = line) =
      records.filter (·.location.line = line) := by
  -- Those of one line are in order already, so that sorting leaves them a part of the whole.
  have ordered : (records.filter (·.location.line = line)).Pairwise
      fun r later => r.location.line ≤ later.location.line := by
    refine List.pairwise_of_forall_mem_list fun r member other member' => ?_
    have own := of_decide_eq_true (List.mem_filter.mp member).2
    have its := of_decide_eq_true (List.mem_filter.mp member').2
    exact own ▸ its ▸ UInt32.le_refl line
  have part := (List.sublist_insertionSort ordered List.filter_sublist).filter
    (·.location.line = line)
  rw [← sortByLine_eq, List.filter_filter] at part
  simp only [Bool.and_self] at part
  exact (part.eq_of_length ((perm_sortByLine records).filter _).length_eq.symm).symm

theorem line_le_of_mem {r other : Record} {rest : List Record}
    (ordered : (r :: rest).Pairwise fun r later => r.location.line ≤ later.location.line)
    (member : other ∈ r :: rest) : r.location.line ≤ other.location.line := by
  rcases List.mem_cons.mp member with rfl | later
  · exact UInt32.le_refl _
  · exact List.rel_of_pairwise_cons ordered later

/-- Records that stand by line are known from those of each line. -/
theorem eq_of_filter_line {records others : List Record}
    (ordered : records.Pairwise fun r later => r.location.line ≤ later.location.line)
    (ordered' : others.Pairwise fun r later => r.location.line ≤ later.location.line)
    (same : ∀ line, records.filter (·.location.line = line) =
      others.filter (·.location.line = line)) : records = others := by
  induction records generalizing others with
  | nil =>
    cases others with
    | nil => rfl
    | cons other rest => simpa using same other.location.line
  | cons r rest ih =>
    have mem_iff (s : Record) : s ∈ r :: rest ↔ s ∈ others := by
      have own := congrArg (s ∈ ·) (same s.location.line)
      simpa only [List.mem_filter, decide_true, and_true, eq_iff_iff] using own
    cases others with
    | nil => cases (mem_iff r).mp List.mem_cons_self
    | cons other rest' =>
      -- The first records are both on the least line, of which they are the first.
      have line : r.location.line = other.location.line :=
        UInt32.le_antisymm (line_le_of_mem ordered ((mem_iff other).mpr List.mem_cons_self))
          (line_le_of_mem ordered' ((mem_iff r).mp List.mem_cons_self))
      have first := same r.location.line
      rw [List.filter_cons_of_pos (by simp), List.filter_cons_of_pos (by simp [line])] at first
      obtain ⟨rfl, _⟩ := List.cons.inj first
      refine congrArg (r :: ·) (ih ordered.of_cons ordered'.of_cons fun line => ?_)
      have both := same line
      rw [List.filter_cons, List.filter_cons] at both
      split at both
      · exact (List.cons.inj both).2
      · exact both

/-! Reports -/

section
variable {documentOf : String → Document} {items : List ReportItem}

theorem exists_toRecord_iff {item : ReportItem} :
    (∃ r, item.toRecord documentOf = .ok r) ↔ item.Valid :=
  ⟨fun ⟨_, read⟩ => (ReportItem.toRecord_eq_ok.mp read).1, fun valid =>
    (ReportItem.exists_toRecord documentOf valid).imp fun _ => And.left⟩

theorem mapM_toRecord_eq_ok_iff {found : List Record} :
    items.mapM (ReportItem.toRecord documentOf) = .ok found ↔
      (∀ item ∈ items, item.Valid) ∧ List.Forall₂ (ReportItem.Gives documentOf) items found := by
  simp only [mapM_eq_ok_iff_forall₂, ReportItem.toRecord_eq_ok, List.forall₂_and_left]

theorem recordsOf_eq_ok_iff {records : List Record} :
    recordsOf documentOf items = .ok records ↔
      ∃ found, items.mapM (ReportItem.toRecord documentOf) = .ok found ∧
        records = sortByLine found := by
  rw [recordsOf]
  cases items.mapM (ReportItem.toRecord documentOf) <;> simp [Except.map, eq_comm]

theorem recordsOf_eq_error_iff {fault : ReportFault} :
    recordsOf documentOf items = .error fault ↔
      items.mapM (ReportItem.toRecord documentOf) = .error fault := by
  rw [recordsOf]
  cases items.mapM (ReportItem.toRecord documentOf) <;> simp [Except.map]

end

/-- Items become records all together or not at all. They do exactly if all are valid; then there is
one record for each item, with what the item says, and the records stand by line and otherwise in
the order of the items. If they do not, the first item that is not valid is the reason. -/
theorem recordsOf_exact (documentOf : String → Document) (items : List ReportItem) :
    ((∃ records, recordsOf documentOf items = .ok records) ↔ ∀ item ∈ items, item.Valid) ∧
    (∀ records, recordsOf documentOf items = .ok records ↔ (∀ item ∈ items, item.Valid) ∧
      ∃ found, List.Forall₂ (ReportItem.Gives documentOf) items found ∧ records.Perm found ∧
        records.Pairwise (fun r later => r.location.line ≤ later.location.line) ∧
        ∀ line, records.filter (·.location.line = line) =
          found.filter (·.location.line = line)) ∧
    (∀ fault, recordsOf documentOf items = .error fault ↔
      ∃ before item after, items = before ++ item :: after ∧
        (∀ earlier ∈ before, earlier.Valid) ∧ item.Fails fault) ∧
    ∀ report, readReport documentOf report = decodeReport report >>= recordsOf documentOf := by
  refine ⟨?_, fun records => ?_, fun fault => ?_, fun report => rfl⟩
  · constructor
    · rintro ⟨records, read⟩
      obtain ⟨found, converted, _⟩ := recordsOf_eq_ok_iff.mp read
      exact (mapM_toRecord_eq_ok_iff.mp converted).1
    · intro valid
      have each : ∀ item ∈ items, ∃ r, item.toRecord documentOf = .ok r :=
        fun item member => exists_toRecord_iff.mpr (valid item member)
      obtain ⟨found, converted⟩ := mapM_eq_ok_iff.mpr each
      exact ⟨_, recordsOf_eq_ok_iff.mpr ⟨found, converted, rfl⟩⟩
  · rw [recordsOf_eq_ok_iff]
    simp only [mapM_toRecord_eq_ok_iff]
    constructor
    · rintro ⟨found, ⟨valid, gives⟩, rfl⟩
      exact ⟨valid, found, gives, perm_sortByLine found, pairwise_sortByLine found,
        filter_line_sortByLine found⟩
    · rintro ⟨valid, found, gives, _, ordered, same⟩
      refine ⟨found, ⟨valid, gives⟩, eq_of_filter_line ordered (pairwise_sortByLine found) ?_⟩
      exact fun line => (same line).trans (filter_line_sortByLine found line).symm
  · simp only [recordsOf_eq_error_iff, mapM_eq_error_iff, exists_toRecord_iff,
      ReportItem.toRecord_eq_error_iff]

end CostWatch
