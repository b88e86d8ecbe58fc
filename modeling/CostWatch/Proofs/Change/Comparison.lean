import CostWatch.Proofs.Change.Fingerprints

/-!
What a comparison of two texts reports.

The fingerprints of a text are kept by name and position. Seen from a name they are a list, one
fingerprint for each of its declarations, and a comparison reports each place at which the lists of
the two texts differ: as changed where both have a fingerprint, and else as removed or added.
-/

set_option autoImplicit false

namespace CostWatch

def Declaration.prints (text name : String) (ds : List Declaration) : List (Option Fingerprint) :=
  (named name ds).map fun d => (d.bodyText text).map fingerprint

theorem Declaration.prints_cons (text name : String) (d : Declaration) (ds : List Declaration) :
    prints text name (d :: ds) =
      if d.name = name then (d.bodyText text).map fingerprint :: prints text name ds
      else prints text name ds := by
  by_cases own : d.name = name <;> simp [prints, named, own]

theorem Declaration.prints_append (text name : String) (ds es : List Declaration) :
    prints text name (ds ++ es) = prints text name ds ++ prints text name es := by
  simp only [prints, named, List.filter_append, List.map_append]

/-! Lists side by side -/

section
variable {α β : Type}

/-- At how many of the places that they share two lists differ. -/
def differences [DecidableEq α] (as bs : List α) : Nat :=
  (as.zip bs).countP fun (a, b) => a ≠ b

theorem differences_cons [DecidableEq α] (a b : α) (as bs : List α) :
    differences (a :: as) (b :: bs) = differences as bs + if a ≠ b then 1 else 0 := by
  simp only [differences, List.zip_cons_cons, List.countP_cons, decide_eq_true_eq]

theorem eq_iff_differences [DecidableEq α] (as bs : List α) :
    as = bs ↔ differences as bs = 0 ∧ as.length = bs.length := by
  induction as generalizing bs with
  | nil => cases bs <;> simp [differences]
  | cons a as ih =>
    cases bs with
    | nil => simp
    | cons b bs =>
      rw [differences_cons, List.cons.injEq, ih]
      by_cases same : a = b <;> simp [same]

theorem some_bne_some [BEq α] [LawfulBEq α] [DecidableEq α] (a b : α) :
    (some b != some a) = decide (a ≠ b) := by
  rcases Decidable.em (a = b) with rfl | differ
  · simp
  · simp [differ, Ne.symm differ]

theorem countP_zipIdx (holds : α → Option β → Bool) (as : List α) (bs : List β) :
    as.zipIdx.countP (fun (a, i) => holds a bs[i]?) =
      (as.zip bs).countP (fun (a, b) => holds a (some b)) +
        (as.drop bs.length).countP (holds · none) := by
  induction as generalizing bs with
  | nil => simp
  | cons a as ih =>
    rw [List.zipIdx_cons, List.zipIdx_succ, List.countP_cons, List.countP_map]
    cases bs with
    | nil =>
      have others := ih []
      simp only [List.getElem?_nil, List.zip_nil_right, List.countP_nil, List.length_nil,
        List.drop_zero, Nat.zero_add] at others
      simp only [Function.comp_def, List.getElem?_nil, List.zip_nil_right, List.countP_nil,
        List.length_nil, List.drop_zero, Nat.zero_add, List.countP_cons, others]
    | cons b bs =>
      simp only [Function.comp_def, List.getElem?_cons_succ, List.getElem?_cons_zero, ih bs,
        List.zip_cons_cons, List.countP_cons, List.length_cons, List.drop_succ_cons]
      omega

end

/-! The order of fingerprints -/

theorem MethodKey.name_le_of_before {a b : MethodKey} (before : a.before b = true) :
    a.name ≤ b.name := by
  simp only [MethodKey.before, Bool.or_eq_true, decide_eq_true_eq, Bool.and_eq_true,
    beq_iff_eq] at before
  rcases before with less | ⟨same, _⟩
  · exact Std.le_of_lt less
  · exact same ▸ String.le_refl _

theorem MethodKey.name_le_of_not_before {a b : MethodKey} (after : ¬ a.before b = true) :
    b.name ≤ a.name := by
  simp only [MethodKey.before, Bool.or_eq_true, decide_eq_true_eq, not_or] at after
  exact String.not_lt.mp after.1

namespace Fingerprints

theorem perm_insert (key : MethodKey) (print : Option Fingerprint) (prints : Fingerprints) :
    (insert key print prints).Perm ((key, print) :: prints) := by
  induction prints with
  | nil => exact .refl _
  | cons entry rest ih =>
    rw [insert]
    split
    · exact .refl _
    · exact (ih.cons entry).trans (.swap _ _ rest)

def Ordered (prints : Fingerprints) : Prop :=
  prints.Pairwise fun entry other => entry.1.name ≤ other.1.name

theorem ordered_insert {key : MethodKey} {print : Option Fingerprint} {prints : Fingerprints}
    (ordered : Ordered prints) : Ordered (insert key print prints) := by
  induction prints with
  | nil => exact .cons (by simp) .nil
  | cons entry rest ih =>
    have ⟨least, tail⟩ := List.pairwise_cons.mp ordered
    rw [insert]
    split
    · next first =>
      have lower := MethodKey.name_le_of_before first
      refine .cons (fun other member => ?_) ordered
      rcases List.mem_cons.mp member with rfl | later
      · exact lower
      · exact String.le_trans lower (least other later)
    · next notFirst =>
      refine .cons (fun other member => ?_) (ih tail)
      rcases List.mem_cons.mp ((perm_insert key print rest).mem_iff.mp member) with rfl | later
      · exact MethodKey.name_le_of_not_before notFirst
      · exact least other later

theorem ordered_ofDeclarationsAfter (text : String) (names : List String)
    (ds : List Declaration) : Ordered (ofDeclarationsAfter text names ds) := by
  induction ds generalizing names with
  | nil => exact .nil
  | cons d rest ih => exact ordered_insert (ih (d.name :: names))

theorem ordered_ofDeclarations (text : String) (ds : List Declaration) :
    Ordered (ofDeclarations text ds) :=
  ordered_ofDeclarationsAfter text [] ds

theorem ordered_namesWhere {prints : Fingerprints} (ordered : Ordered prints)
    (condition : MethodKey → Option Fingerprint → Bool) :
    (prints.namesWhere condition).Pairwise (· ≤ ·) :=
  List.pairwise_map.mpr (ordered.filter _)

/-! The fingerprints of a name -/

/-- The declarations of a name are numbered on from those that came before. -/
theorem filter_ofDeclarationsAfter (text name : String) (names : List String)
    (ds : List Declaration) :
    ((ofDeclarationsAfter text names ds).filter (·.1.name == name)).Perm
      (((Declaration.prints text name ds).zipIdx (names.count name)).map
        fun (print, i) => (⟨name, i⟩, print)) := by
  induction ds generalizing names with
  | nil => exact .nil
  | cons d rest ih =>
    have inserted := (perm_insert ⟨d.name, names.count d.name⟩ ((d.bodyText text).map fingerprint)
      (ofDeclarationsAfter text (d.name :: names) rest)).filter (·.1.name == name)
    have others := ih (d.name :: names)
    rw [Declaration.prints_cons]
    by_cases own : d.name = name
    · subst own
      rw [List.count_cons_self] at others
      rw [List.filter_cons_of_pos (by simp)] at inserted
      rw [if_pos rfl, List.zipIdx_cons, List.map_cons]
      exact inserted.trans (others.cons _)
    · rw [List.count_cons_of_ne own] at others
      rw [List.filter_cons_of_neg (by simpa using own)] at inserted
      rw [if_neg own]
      exact inserted.trans others

/-- How often a name is among those with a condition: at how many of its places that holds. -/
theorem count_namesWhere (text name : String) (ds : List Declaration)
    (condition : MethodKey → Option Fingerprint → Bool) :
    ((ofDeclarations text ds).namesWhere condition).count name =
      (Declaration.prints text name ds).zipIdx.countP
        fun (print, i) => condition ⟨name, i⟩ print := by
  have own := (filter_ofDeclarationsAfter text name [] ds).countP_eq
    fun entry => condition entry.1 entry.2
  rw [List.countP_filter, List.countP_map] at own
  rw [namesWhere, List.count_eq_countP, List.countP_map, List.countP_filter]
  refine Eq.trans (List.countP_congr fun entry _ => ?_) own
  simp [and_comm]

theorem lookup_eq_prints (text : String) (ds : List Declaration) (name : String) (k : Nat) :
    (ofDeclarations text ds).lookup ⟨name, k⟩ = (Declaration.prints text name ds)[k]? := by
  rw [lookup_ofDeclarations, Declaration.prints, List.getElem?_map]

end Fingerprints

namespace Change

theorem isSignificant_iff {c : Change} (fault : c.fault = Option.none) :
    c.isSignificant = true ↔
      ∃ name, c.changed.count name ≠ 0 ∨ c.added.count name ≠ 0 ∨ c.removed.count name ≠ 0 := by
  have reported (names : List String) : names ≠ [] ↔ ∃ name, names.count name ≠ 0 := by
    simp only [ne_eq, List.count_eq_zero, Decidable.not_not]
    exact ⟨List.exists_mem_of_ne_nil names, fun ⟨_, member⟩ => List.ne_nil_of_mem member⟩
  simp only [isSignificant, fault, Option.isSome_none, Bool.false_or, Bool.not_eq_true',
    Bool.and_eq_false_iff, List.isEmpty_eq_false_iff, reported, exists_or, or_assoc]

/-! What is reported of a name -/

section
variable (text other : String) (ds es : List Declaration) (whitelist : Whitelist) (name : String)

theorem count_admitted (admits : String → Bool)
    (holds : Option Fingerprint → Option (Option Fingerprint) → Bool) :
    ((Fingerprints.ofDeclarations text ds).namesWhere fun key print =>
        admits key.name && holds print ((Fingerprints.ofDeclarations other es).lookup key)).count
      name =
      if admits name then
        ((Declaration.prints text name ds).zip (Declaration.prints other name es)).countP
            (fun (print, new) => holds print (some new)) +
          ((Declaration.prints text name ds).drop (Declaration.prints other name es).length).countP
            (holds · Option.none)
      else 0 := by
  rw [Fingerprints.count_namesWhere, ← countP_zipIdx]
  simp only [Fingerprints.lookup_eq_prints]
  cases admits name <;> simp

theorem count_changed :
    (between (.ofDeclarations text ds) (.ofDeclarations other es) whitelist).changed.count name =
      if !whitelist.contains name then
        differences (Declaration.prints text name ds) (Declaration.prints other name es)
      else 0 := by
  refine (count_admitted text other ds es name (!whitelist.contains ·)
    fun print new? => !new?.isNone && new? != some print).trans ?_
  simp [differences, some_bne_some]

theorem count_missing :
    ((Fingerprints.ofDeclarations text ds).namesWhere fun key _ =>
        !whitelist.contains key.name &&
          ((Fingerprints.ofDeclarations other es).lookup key).isNone).count name =
      if !whitelist.contains name then
        (Declaration.prints text name ds).length - (Declaration.prints other name es).length
      else 0 := by
  refine (count_admitted text other ds es name (!whitelist.contains ·)
    fun _ new? => new?.isNone).trans ?_
  simp

theorem count_exempted :
    (between (.ofDeclarations text ds) (.ofDeclarations other es) whitelist).exempted.count name =
      if whitelist.contains name then
        differences (Declaration.prints text name ds) (Declaration.prints other name es) +
          ((Declaration.prints text name ds).length - (Declaration.prints other name es).length) +
          ((Declaration.prints other name es).length - (Declaration.prints text name ds).length)
      else 0 := by
  have old := count_admitted text other ds es name (fun name => !!whitelist.contains name)
    fun print new? => !new?.isNone && new? != some print || new?.isNone
  have new := count_admitted other text es ds name (fun name => !!whitelist.contains name)
    fun _ old? => old?.isNone
  refine List.count_append.trans ((congr (congrArg (· + ·) old) new).trans ?_)
  cases whitelist.contains name <;> simp [differences, some_bne_some]

end

/-- What a comparison reports, given the fingerprints of each name in the one text and in the
other. A name is reported once for each place at which it has changed, has gone or is new. -/
structure Reports (before after : String → List (Option Fingerprint)) (whitelist : Whitelist)
    (c : Change) : Prop where
  fault : c.fault = Option.none
  counted : ∀ name, whitelist.contains name = false →
    c.changed.count name = differences (before name) (after name) ∧
    c.removed.count name = (before name).length - (after name).length ∧
    c.added.count name = (after name).length - (before name).length ∧
    c.exempted.count name = 0
  exempt : ∀ name, whitelist.contains name = true →
    c.changed.count name = 0 ∧ c.removed.count name = 0 ∧ c.added.count name = 0 ∧
    c.exempted.count name =
      differences (before name) (after name) + ((before name).length - (after name).length) +
        ((after name).length - (before name).length)
  ordered : c.changed.Pairwise (· ≤ ·) ∧ c.removed.Pairwise (· ≤ ·) ∧ c.added.Pairwise (· ≤ ·)
  significant : c.isSignificant = true ↔
    ∃ name, whitelist.contains name = false ∧ before name ≠ after name

theorem reports_between (text other : String) (ds es : List Declaration) (whitelist : Whitelist) :
    Reports (Declaration.prints text · ds) (Declaration.prints other · es) whitelist
      (between (.ofDeclarations text ds) (.ofDeclarations other es) whitelist) := by
  have changed := count_changed text other ds es whitelist
  have removed := count_missing text other ds es whitelist
  have added := count_missing other text es ds whitelist
  have exempted := count_exempted text other ds es whitelist
  constructor
  case fault => rfl
  case counted =>
    intro name counts
    refine ⟨(changed name).trans ?_, (removed name).trans ?_, (added name).trans ?_,
      (exempted name).trans ?_⟩ <;> simp [counts]
  case exempt =>
    intro name exempt
    refine ⟨(changed name).trans ?_, (removed name).trans ?_, (added name).trans ?_,
      (exempted name).trans ?_⟩ <;> simp [exempt]
  case ordered =>
    have old := Fingerprints.ordered_namesWhere (Fingerprints.ordered_ofDeclarations text ds)
    have new := Fingerprints.ordered_namesWhere (Fingerprints.ordered_ofDeclarations other es)
    simp only [between]
    exact ⟨old _, old _, new _⟩
  case significant =>
    rw [isSignificant_iff rfl]
    refine exists_congr fun name => ?_
    rw [changed name, show List.count name (between _ _ whitelist).added = _ from added name,
      show List.count name (between _ _ whitelist).removed = _ from removed name,
      ne_eq (Declaration.prints text name ds), eq_iff_differences]
    cases whitelist.contains name
    · simp; omega
    · simp

theorem Reports.mem_exempted {before after : String → List (Option Fingerprint)}
    {whitelist : Whitelist} {c : Change} (reports : Reports before after whitelist c)
    (name : String) :
    name ∈ c.exempted ↔ whitelist.contains name = true ∧ before name ≠ after name := by
  rw [← List.count_pos_iff, ne_eq, eq_iff_differences]
  cases listed : whitelist.contains name with
  | false =>
    have ⟨_, _, _, none⟩ := reports.counted name listed
    simp [none]
  | true =>
    have ⟨_, _, _, all⟩ := reports.exempt name listed
    rw [all]
    simp
    omega

theorem reports_check {extract : Extractor} {baseline current : String} {whitelist : Whitelist}
    {ds es : List Declaration} (old : extract baseline = .ok ds) (new : extract current = .ok es) :
    Reports (Declaration.prints baseline · ds) (Declaration.prints current · es) whitelist
      (check extract baseline current whitelist) := by
  by_cases same : baseline = current
  · -- equal texts have the same declarations, and nothing is reported of them
    subst same
    cases old.symm.trans new
    have checked : check extract baseline baseline whitelist = none := if_pos rfl
    have equal (prints : List (Option Fingerprint)) : differences prints prints = 0 :=
      ((eq_iff_differences prints prints).mp rfl).1
    rw [checked]
    constructor <;> simp [none, equal, isSignificant]
  · have checked : check extract baseline current whitelist =
        between (.ofDeclarations baseline ds) (.ofDeclarations current es) whitelist := by
      simp only [check, same, if_false, old, new]
    rw [checked]
    exact reports_between baseline current ds es whitelist

/-- The answer to every check. Equal texts have not changed, whether or not they can be read. Of
other texts, one that cannot be read makes the change significant, the baseline first. -/
theorem check_exact (extract : Extractor) (baseline current : String) (whitelist : Whitelist) :
    (baseline = current →
      check extract baseline current whitelist = none ∧
        (check extract baseline current whitelist).isSignificant = false) ∧
    (baseline ≠ current →
      (∀ fault, extract baseline = .error fault →
        check extract baseline current whitelist = unknown (.baseline fault) ∧
          (check extract baseline current whitelist).isSignificant = true) ∧
      (∀ ds fault, extract baseline = .ok ds → extract current = .error fault →
        check extract baseline current whitelist = unknown (.current fault) ∧
          (check extract baseline current whitelist).isSignificant = true) ∧
      ∀ ds es, extract baseline = .ok ds → extract current = .ok es →
        Reports (Declaration.prints baseline · ds) (Declaration.prints current · es) whitelist
          (check extract baseline current whitelist)) := by
  refine ⟨fun same => ?_, fun edited => ⟨fun fault old => ?_, fun ds fault old new => ?_,
    fun ds es old new => ?_⟩⟩
  · have checked : check extract baseline current whitelist = none := if_pos same
    exact ⟨checked, checked ▸ rfl⟩
  · have checked : check extract baseline current whitelist = unknown (.baseline fault) := by
      simp only [check, edited, if_false, old]
    exact ⟨checked, checked ▸ rfl⟩
  · have checked : check extract baseline current whitelist = unknown (.current fault) := by
      simp only [check, edited, if_false, old, new]
    exact ⟨checked, checked ▸ rfl⟩
  · exact reports_check old new

end Change

namespace Sample

def declared (name : String) (body : Option Span) : Declaration :=
  ⟨name, ⟨⟨0, 0⟩, ⟨0, 0⟩⟩, ⟨⟨0, 0⟩, ⟨0, 0⟩⟩, body⟩

def methods : String := "f{1} f{2} g; h{3} log{4}"

def methodsEdited : String := "f{1} f{5} f{6} g{7} log{8}"

def extractMethods : Extractor := fun text =>
  if text = methods then
    .ok [declared "f" (some ⟨1, 4⟩), declared "f" (some ⟨6, 9⟩), declared "g" none,
      declared "h" (some ⟨14, 17⟩), declared "log" (some ⟨21, 24⟩)]
  else if text = methodsEdited then
    .ok [declared "f" (some ⟨1, 4⟩), declared "f" (some ⟨6, 9⟩), declared "f" (some ⟨11, 14⟩),
      declared "g" (some ⟨16, 19⟩), declared "log" (some ⟨23, 26⟩)]
  else .error .noTree

end Sample

open Sample

theorem check_exact_overloads :
    methods ≠ methodsEdited ∧ (extractMethods methods).isOk = true ∧
      (extractMethods methodsEdited).isOk = true ∧
      (Change.check extractMethods methods methodsEdited (.ofNames ["log"])).isSignificant =
        true ∧
      (Change.check extractMethods methods methodsEdited (.ofNames ["log"])).changed.count
        "f" = 1 ∧
      (Change.check extractMethods methods methodsEdited (.ofNames ["log"])).added.count
        "f" = 1 ∧
      (Change.check extractMethods methods methodsEdited (.ofNames ["log"])).exempted.count
        "log" = 1 := by
  have edited : methods ≠ methodsEdited := by decide
  have reports := ((Change.check_exact extractMethods methods methodsEdited
    (.ofNames ["log"])).2 edited).2.2 _ _ rfl rfl
  have counts : (Whitelist.ofNames ["log"]).contains "f" = false := by decide
  have ⟨changed, _, added, _⟩ := reports.counted "f" counts
  have ⟨_, _, _, exempted⟩ := reports.exempt "log" (by decide)
  refine ⟨edited, rfl, rfl, reports.significant.mpr ⟨"f", counts, ?_⟩, changed.trans ?_,
    added.trans ?_, exempted.trans ?_⟩ <;> decide +kernel

end CostWatch
