import CostWatch.Proofs.Cost.Reports
import CostWatch.Source.Binding
import Mathlib.Data.List.Forall2

/-!
Records on the declarations they belong to. Bindings never look at lines: of one name, the first
record gets the first declaration, and so on. That each record stands on its own declaration comes
from the order of the records in a report and the order of the declarations in the text.
-/

set_option autoImplicit false

namespace CostWatch

def bindingOf (d : Declaration × Nat) (r : Record × Nat) : Binding :=
  ⟨d.1, d.2, r.1, r.2⟩

/-- The first declaration of a name is claimed, and what is left are all others in their order. -/
theorem claim?_cases (name : String) (unclaimed : List (Declaration × Nat)) :
    (claim? name unclaimed = none ∧ unclaimed.filter (·.1.name = name) = []) ∨
      ∃ entry left, claim? name unclaimed = some (entry, left) ∧ entry.1.name = name ∧
        unclaimed.filter (·.1.name = name) = entry :: left.filter (·.1.name = name) ∧
        (∀ other, other ≠ name →
          unclaimed.filter (·.1.name = other) = left.filter (·.1.name = other)) ∧
        unclaimed.Perm (entry :: left) := by
  induction unclaimed with
  | nil => exact .inl ⟨rfl, rfl⟩
  | cons first rest ih =>
    by_cases own : first.1.name = name
    · refine .inr ⟨first, rest, by simp [claim?, own], own, by simp [own], ?_, .refl _⟩
      intro other different
      simp [own, Ne.symm different]
    · rcases ih with ⟨none, noneNamed⟩ | ⟨entry, left, some, named, same, others, perm⟩
      · exact .inl ⟨by simp [claim?, own, none], by simp [own, noneNamed]⟩
      · refine .inr ⟨entry, first :: left, by simp [claim?, own, some], named,
          by simp [own, same], ?_, ?_⟩
        · intro other different
          simp only [List.filter_cons, others other different]
        · exact (perm.cons first).trans (.swap entry first left)

/-- Of one name, the first record gets the first declaration, the second one the second, and so
on. -/
theorem filter_bindUnclaimed (name : String) (unclaimed : List (Declaration × Nat))
    (records : List (Record × Nat)) :
    (bindUnclaimed unclaimed records).filter (·.record.method = name) =
      List.zipWith bindingOf (unclaimed.filter (·.1.name = name))
        (records.filter (·.1.method = name)) := by
  induction records generalizing unclaimed with
  | nil => simp [bindUnclaimed]
  | cons entry rest ih =>
    obtain ⟨r, i⟩ := entry
    rw [bindUnclaimed]
    -- A record of the name takes the first declaration of it, and any other record takes none.
    rcases claim?_cases r.method unclaimed with
      ⟨none, noneNamed⟩ | ⟨⟨d, j⟩, left, some, named, same, others, _⟩
    · rw [none]
      by_cases own : r.method = name
      · subst own
        simp [ih, noneNamed]
      · simp [ih, own]
    · rw [some]
      by_cases own : r.method = name
      · subst own
        simp [ih, same, bindingOf]
      · simp [ih, own, others name (Ne.symm own)]

theorem bindUnclaimed_of_perm {unclaimed : List (Declaration × Nat)} {records : List (Record × Nat)}
    (names : (unclaimed.map (·.1.name)).Perm (records.map (·.1.method))) :
    (bindUnclaimed unclaimed records).map (fun b => (b.record, b.recordIndex)) = records ∧
      ((bindUnclaimed unclaimed records).map fun b => (b.declaration, b.declarationIndex)).Perm
        unclaimed := by
  induction records generalizing unclaimed with
  | nil =>
    have none : unclaimed = [] := by simpa using names
    simp [none, bindUnclaimed]
  | cons entry rest ih =>
    obtain ⟨r, i⟩ := entry
    rw [bindUnclaimed]
    rcases claim?_cases r.method unclaimed with
      ⟨_, noneNamed⟩ | ⟨⟨d, j⟩, left, some, named, _, _, perm⟩
    · -- There is a declaration of the name, so that the record cannot stay unbound.
      have listed : r.method ∈ unclaimed.map (·.1.name) := names.mem_iff.mpr (by simp)
      obtain ⟨entry, member, own⟩ := List.mem_map.mp listed
      have among : entry ∈ unclaimed.filter (·.1.name = r.method) := by simp [member, own]
      rw [noneNamed] at among
      cases among
    · have others : (left.map (·.1.name)).Perm (rest.map (·.1.method)) := by
        have both := ((perm.map (·.1.name)).symm.trans names)
        simp only [List.map_cons] at both
        rw [named] at both
        exact both.cons_inv
      obtain ⟨bound, claimed⟩ := ih others
      rw [some]
      exact ⟨by simp [bound], by simpa using (claimed.cons (d, j)).trans perm.symm⟩

/-! Bindings of lists -/

section
variable {α β : Type} (items : List α) (f : α → β)

theorem map_zipIdx : (items.zipIdx.map fun entry => f entry.1) = items.map f := by
  rw [← Function.comp_def, ← List.map_map]
  exact congrArg (List.map f) (List.zipIdx_map_fst 0 items)

theorem map_filter_zipIdx (p : α → Bool) :
    ((items.zipIdx.filter fun entry => p entry.1).map fun entry => f entry.1) =
      (items.filter p).map f := by
  have entries : items.filter p = (items.zipIdx.map Prod.fst).filter p := by
    rw [List.zipIdx_map_fst]
  rw [entries, List.filter_map, List.map_map]
  rfl

end

section
variable {ds : List Declaration} {records : List Record}

structure BindsAll (ds : List Declaration) (records : List Record) (bindings : List Binding) :
    Prop where
  inOrder : bindings.map Binding.recordIndex = List.range records.length
  complete : (bindings.map Binding.declarationIndex).Perm (List.range ds.length)
  places : ∀ b ∈ bindings, records[b.recordIndex]? = some b.record ∧
    ds[b.declarationIndex]? = some b.declaration

theorem bindsAll_of_perm (names : (ds.map Declaration.name).Perm (records.map Record.method)) :
    BindsAll ds records (bindDeclarations ds records) := by
  have entries : (ds.zipIdx.map (·.1.name)).Perm (records.zipIdx.map (·.1.method)) := by
    rwa [map_zipIdx, map_zipIdx]
  obtain ⟨bound, claimed⟩ := bindUnclaimed_of_perm entries
  have indices := congrArg (List.map Prod.snd) bound
  have places := claimed.map Prod.snd
  rw [List.map_map, List.zipIdx_map_snd] at indices places
  refine ⟨?_, ?_, ?_⟩
  · rw [List.range_eq_range']
    exact indices
  · rw [List.range_eq_range']
    exact places
  · intro b member
    constructor
    · apply List.mk_mem_zipIdx_iff_getElem?.mp
      rw [← bound]
      exact List.mem_map_of_mem member
    · apply List.mk_mem_zipIdx_iff_getElem?.mp
      apply claimed.subset
      exact List.mem_map_of_mem member

theorem exists_zip_of_mem {b : Binding} (bound : b ∈ bindDeclarations ds records) :
    ∃ d r, b = bindingOf d r ∧ (d, r) ∈ (ds.zipIdx.filter (·.1.name = b.record.method)).zip
      (records.zipIdx.filter (·.1.method = b.record.method)) := by
  have among : b ∈ (bindDeclarations ds records).filter (·.record.method = b.record.method) := by
    simp [bound]
  rw [bindDeclarations, filter_bindUnclaimed, ← List.map_uncurry_zip_eq_zipWith] at among
  obtain ⟨⟨d, r⟩, pair, same⟩ := List.mem_map.mp among
  exact ⟨d, r, same.symm, pair⟩

theorem mem_of_mem_bindDeclarations {b : Binding} (bound : b ∈ bindDeclarations ds records) :
    b.declaration ∈ ds ∧ b.record ∈ records ∧ b.declaration.name = b.record.method := by
  obtain ⟨⟨d, j⟩, ⟨r, i⟩, rfl, pair⟩ := exists_zip_of_mem bound
  obtain ⟨declared, listed⟩ := List.of_mem_zip pair
  obtain ⟨declared, named⟩ := List.mem_filter.mp declared
  exact ⟨List.fst_mem_of_mem_zipIdx declared,
    List.fst_mem_of_mem_zipIdx (List.mem_of_mem_filter listed), of_decide_eq_true named⟩

/-- What is the same for the first, the second, and every further declaration and record of a name
is the same for the two of a binding. -/
theorem of_mem_bindDeclarations {α : Type} {f : Declaration → α} {g : Record → α}
    (same : ∀ name,
      (ds.filter (·.name = name)).map f = (records.filter (·.method = name)).map g)
    {b : Binding} (bound : b ∈ bindDeclarations ds records) : f b.declaration = g b.record := by
  obtain ⟨d, r, own, pair⟩ := exists_zip_of_mem bound
  have along : List.Forall₂ (fun d r => f d.1 = g r.1)
      (ds.zipIdx.filter (·.1.name = b.record.method))
      (records.zipIdx.filter (·.1.method = b.record.method)) := by
    have lists := same b.record.method
    rw [← map_filter_zipIdx, ← map_filter_zipIdx records, ← List.forall₂_eq_eq_eq] at lists
    rwa [List.forall₂_map_left_iff, List.forall₂_map_right_iff] at lists
  rw [own]
  exact List.forall₂_zip along pair

end

/-! Overloads -/

def Declaration.nameLine (d : Declaration) : Nat :=
  d.nameRange.start.line.toNat + 1

section
variable {documentOf : String → Document} {report : List UInt8} {items : List ReportItem}
  {ds : List Declaration}

theorem perm_names {records : List Record}
    (lengths : ∀ name, (ds.filter (·.name = name)).length =
      (records.filter (·.method = name)).length) :
    (ds.map Declaration.name).Perm (records.map Record.method) := by
  rw [List.perm_iff_count]
  intro name
  rw [List.count_eq_countP, List.count_eq_countP, List.countP_map, List.countP_map,
    List.countP_eq_length_filter, List.countP_eq_length_filter]
  exact lengths name

/-- The costs of overloads are shown on the right ones. Items that are records, in any order, with
the lines of the declarations give bindings of all records and of all declarations, and each record
is bound to the declaration of its name on its line. -/
theorem overloads_bound (decoded : decodeReport report = .ok items)
    (valid : ∀ item ∈ items, ∃ r, item.toRecord documentOf = .ok r)
    (ordered : ds.Pairwise fun d later => d.name = later.name → d.nameLine < later.nameLine)
    (lines : ∀ name, ((items.filter (·.name = name)).map ReportItem.line).Perm
      ((ds.filter (·.name = name)).map fun d => (d.nameLine : Int))) :
    ∃ records, readReport documentOf report = .ok records ∧
      BindsAll ds records (bindDeclarations ds records) ∧
      ∀ b ∈ bindDeclarations ds records, b.declaration.name = b.record.method ∧
        b.record.location.line.toNat = b.declaration.nameLine := by
  obtain ⟨records, read, sorted, found⟩ := readReport_of_valid documentOf items decoded valid
  -- Two sorted lists with the same members are the same list.
  have same (name : String) : ((ds.filter (·.name = name)).map fun d => (d.nameLine : Int)) =
      (records.filter (·.method = name)).map fun r => (r.location.line.toNat : Int) := by
    have perm := ((found name).trans (lines name)).symm
    refine perm.eq_of_pairwise (fun line other _ _ (before : line ≤ other) after =>
      Int.le_antisymm before after) ?_ ?_
    · rw [List.pairwise_map]
      refine (ordered.filter _).imp_of_mem fun first second before => ?_
      have own := of_decide_eq_true (List.mem_filter.mp first).2
      have other := of_decide_eq_true (List.mem_filter.mp second).2
      exact Int.ofNat_le.mpr (before (own.trans other.symm)).le
    · rw [List.pairwise_map]
      exact (sorted.filter _).imp fun before => Int.ofNat_le.mpr before
  refine ⟨records, read, bindsAll_of_perm (perm_names fun name => ?_), fun b bound => ?_⟩
  · simpa using congrArg List.length (same name)
  · obtain ⟨_, _, named⟩ := mem_of_mem_bindDeclarations bound
    exact ⟨named, (Int.ofNat_inj.mp (of_mem_bindDeclarations same bound)).symm⟩

end

namespace Sample

def overloads : List UInt8 :=
  Text.Utf8.encode ("[[\"f\",[\"A.java\",5],[[\"0\",0,\"\"]],[[\"n\",1,\"\"]]]," ++
    "[\"g\",[\"A.java\",3],[[\"0\",0,\"\"]],[[\"2\",0,\"\"]]]," ++
    "[\"f\",[\"A.java\",2],[[\"0\",0,\"\"]],[[\"1\",0,\"\"]]]]")

def declarationAt (name : String) (line : UInt32) : Declaration :=
  ⟨name, ⟨⟨line, 0⟩, ⟨line, 9⟩⟩, ⟨⟨line, 4⟩, ⟨line, 5⟩⟩, none⟩

def overloaded : List Declaration :=
  [declarationAt "f" 1, declarationAt "g" 2, declarationAt "f" 4]

end Sample

theorem overloads_bound_later_first :
    ∃ items records, decodeReport Sample.overloads = .ok items ∧
      items.map (fun item => (item.name, item.line)) = [("f", 5), ("g", 3), ("f", 2)] ∧
      readReport Document.mk Sample.overloads = .ok records ∧
      BindsAll Sample.overloaded records (bindDeclarations Sample.overloaded records) ∧
      ∀ b ∈ bindDeclarations Sample.overloaded records, b.declaration.name = b.record.method ∧
        b.record.location.line.toNat = b.declaration.nameLine := by
  have facts : (decodeReport Sample.overloads).toOption.map
      (List.map fun item => ((item.name, item.line), (item.toRecord Document.mk).toBool)) =
        some [(("f", 5), true), (("g", 3), true), (("f", 2), true)] := by
    decide +kernel
  cases decoded : decodeReport Sample.overloads with
  | error fault =>
    rw [decoded] at facts
    cases facts
  | ok items =>
    rw [decoded] at facts
    have entries := Option.some.inj facts
    have pairs : items.map (fun item => (item.name, item.line)) =
        [("f", 5), ("g", 3), ("f", 2)] := by
      simpa [Function.comp_def] using congrArg (List.map Prod.fst) entries
    have valid : ∀ item ∈ items, ∃ r, item.toRecord Document.mk = .ok r := by
      intro item member
      have among := List.mem_map_of_mem member
        (f := fun item => ((item.name, item.line), (item.toRecord Document.mk).toBool))
      rw [entries] at among
      cases read : item.toRecord Document.mk with
      | error fault => simp [read, Except.toBool] at among
      | ok r => exact ⟨r, rfl⟩
    have lines (name : String) : ((items.filter (·.name = name)).map ReportItem.line).Perm
        ((Sample.overloaded.filter (·.name = name)).map fun d => (d.nameLine : Int)) := by
      have listed : (items.filter (·.name = name)).map ReportItem.line =
          ([("f", 5), ("g", 3), ("f", 2)].filter (·.1 = name)).map Prod.snd := by
        rw [← pairs, List.filter_map, List.map_map]
        rfl
      rw [listed]
      by_cases f : "f" = name
      · subst f
        decide +kernel
      by_cases g : "g" = name
      · subst g
        decide +kernel
      simp [Sample.overloaded, Sample.declarationAt, f, g]
    obtain ⟨records, read, all, each⟩ :=
      overloads_bound decoded valid (by decide +kernel) lines
    exact ⟨items, records, rfl, pairs, read, all, each⟩

end CostWatch
