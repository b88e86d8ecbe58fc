import CostWatch.Proofs.Source.Binding
import Mathlib.Data.List.Perm.Subperm

/-!
What bindings are there.

Records take declarations one after the other, the first free one of their name. Seen from a name
this is a list of pairs, the first record with the first declaration and so on, whatever stands
between them under other names. All bindings together come in the order of the records, and no
declaration is taken twice.
-/

set_option autoImplicit false

namespace CostWatch

def Declaration.places (name : String) (ds : List Declaration) : List (Declaration × Nat) :=
  ds.zipIdx.filter (·.1.name = name)

def Record.places (name : String) (records : List Record) : List (Record × Nat) :=
  records.zipIdx.filter (·.1.method = name)

def Binding.ofName (name : String) (bindings : List Binding) : List Binding :=
  bindings.filter (·.record.method = name)

/-! Records in order, declarations once -/

theorem recordIndex_sublist (unclaimed : List (Declaration × Nat)) (records : List (Record × Nat)) :
    ((bindUnclaimed unclaimed records).map Binding.recordIndex).Sublist (records.map Prod.snd) := by
  induction records generalizing unclaimed with
  | nil => exact .slnil
  | cons entry rest ih =>
    obtain ⟨r, i⟩ := entry
    rw [bindUnclaimed]
    cases claim? r.method unclaimed with
    | none => exact (ih unclaimed).cons i
    | some claimed => exact (ih claimed.2).cons_cons i

/-- The declarations that are bound are some of those that are free, each of them once. -/
theorem declarationIndex_subperm (unclaimed : List (Declaration × Nat))
    (records : List (Record × Nat)) :
    ((bindUnclaimed unclaimed records).map Binding.declarationIndex).Subperm
      (unclaimed.map Prod.snd) := by
  induction records generalizing unclaimed with
  | nil => exact List.nil_subperm
  | cons entry rest ih =>
    obtain ⟨r, i⟩ := entry
    rw [bindUnclaimed]
    rcases claim?_cases r.method unclaimed with
      ⟨none, _⟩ | ⟨⟨d, j⟩, left, some, _, _, _, perm⟩
    · rw [none]
      exact ih unclaimed
    · rw [some]
      exact ((List.subperm_cons j).mpr (ih left)).trans (perm.map Prod.snd).symm.subperm

section
variable (ds : List Declaration) (records : List Record)

theorem recordIndex_increases :
    (bindDeclarations ds records).Pairwise fun b later => b.recordIndex < later.recordIndex := by
  have indices := recordIndex_sublist ds.zipIdx records.zipIdx
  rw [List.zipIdx_map_snd] at indices
  exact List.pairwise_map.mp (List.Pairwise.sublist indices List.pairwise_lt_range')

theorem declarationIndex_nodup :
    ((bindDeclarations ds records).map Binding.declarationIndex).Nodup := by
  have indices := declarationIndex_subperm ds.zipIdx records.zipIdx
  rw [List.zipIdx_map_snd] at indices
  obtain ⟨some, perm, sublist⟩ := indices
  exact perm.nodup_iff.mp (sublist.nodup List.nodup_range')

theorem getElem?_ofName (name : String) (k : Nat) (b : Binding) :
    (Binding.ofName name (bindDeclarations ds records))[k]? = some b ↔
      ∃ d r, (Declaration.places name ds)[k]? = some d ∧ (Record.places name records)[k]? = some r ∧
        b = bindingOf d r := by
  rw [Binding.ofName, bindDeclarations, filter_bindUnclaimed, List.getElem?_zipWith_eq_some]
  exact exists_congr fun d => exists_congr fun r =>
    and_congr_right fun _ => and_congr_right fun _ => eq_comm

theorem ofName_bindDeclarations (name : String) :
    (Binding.ofName name (bindDeclarations ds records)).map (fun b => (b.declaration, b.record)) =
      (ds.filter (·.name = name)).zip (records.filter (·.method = name)) := by
  rw [Binding.ofName, bindDeclarations, filter_bindUnclaimed, List.map_zipWith]
  have declared := map_filter_zipIdx ds id (·.name = name)
  have listed := map_filter_zipIdx records id (·.method = name)
  rw [List.map_id] at declared listed
  rw [← declared, ← listed, List.zip_eq_zipWith, List.zipWith_map]
  rfl

end

/-- Of each name the first record has the first declaration, the second one the second, and so on as
long as there are both. These are all bindings, in the order of the records, with no declaration
twice; and those of a name are the same for any two lists of declarations and of records in which
the name stands for the same. -/
theorem bindings_exact (ds : List Declaration) (records : List Record) :
    (∀ (name : String) (k : Nat) b,
      (Binding.ofName name (bindDeclarations ds records))[k]? = some b ↔
      ∃ d r, (Declaration.places name ds)[k]? = some d ∧ (Record.places name records)[k]? = some r ∧
        b = bindingOf d r) ∧
    (bindDeclarations ds records).Pairwise (fun b later => b.recordIndex < later.recordIndex) ∧
    ((bindDeclarations ds records).map Binding.declarationIndex).Nodup ∧
    (∀ b ∈ bindDeclarations ds records, ds[b.declarationIndex]? = some b.declaration ∧
      records[b.recordIndex]? = some b.record ∧ b.declaration.name = b.record.method) ∧
    ∀ name ds' records', ds'.filter (·.name = name) = ds.filter (·.name = name) →
      records'.filter (·.method = name) = records.filter (·.method = name) →
        (Binding.ofName name (bindDeclarations ds' records')).map
            (fun b => (b.declaration, b.record)) =
          (Binding.ofName name (bindDeclarations ds records)).map
            fun b => (b.declaration, b.record) := by
  refine ⟨getElem?_ofName ds records, recordIndex_increases ds records,
    declarationIndex_nodup ds records, fun b bound => ?_,
    fun name ds' records' sameDeclared sameListed => ?_⟩
  · obtain ⟨⟨d, j⟩, ⟨r, i⟩, same, pair⟩ := exists_zip_of_mem bound
    have ⟨declared, listed⟩ := List.of_mem_zip pair
    subst same
    exact ⟨List.mk_mem_zipIdx_iff_getElem?.mp (List.mem_of_mem_filter declared),
      List.mk_mem_zipIdx_iff_getElem?.mp (List.mem_of_mem_filter listed),
      of_decide_eq_true (List.mem_filter.mp declared).2⟩
  · rw [ofName_bindDeclarations, ofName_bindDeclarations, sameDeclared, sameListed]

end CostWatch
