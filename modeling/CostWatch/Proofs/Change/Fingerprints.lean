import CostWatch.Change.Significance
import CostWatch.Proofs.Text.Utf8

/-!
Fingerprints of methods by name and position, and methods that a comparison reports as changed.
-/

set_option autoImplicit false

namespace CostWatch

def Declaration.named (name : String) (ds : List Declaration) : List Declaration :=
  ds.filter (·.name == name)

/-- A text has a certain body for the method that is declared after `k` others of its name. -/
def Extractor.HasBody (extract : Extractor) (text name : String) (k : Nat) (body : String) : Prop :=
  ∃ ds d, extract text = .ok ds ∧ (Declaration.named name ds)[k]? = some d ∧
    d.bodyText text = some body

def Digest.Collision (message other : List UInt8) : Prop :=
  message ≠ other ∧ digest message = digest other

theorem collision_of_fingerprint_eq {body other : String}
    (differ : Normal.normalize body ≠ Normal.normalize other)
    (same : fingerprint body = fingerprint other) :
    Digest.Collision (Text.Utf8.encode (Normal.normalize body))
      (Text.Utf8.encode (Normal.normalize other)) :=
  ⟨fun equal => differ (Text.Utf8.encode_injective equal), same⟩

namespace Fingerprints

theorem lookup_insert {key other : MethodKey} {print : Option Fingerprint} {prints : Fingerprints}
    (fresh : prints.lookup key = none) :
    (insert key print prints).lookup other =
      if other = key then some print else prints.lookup other := by
  induction prints with
  | nil =>
    rw [insert, List.lookup_cons]
    split <;> simp_all
  | cons entry rest ih =>
    rw [List.lookup_cons] at fresh
    split at fresh
    · cases fresh
    · next different =>
      rw [insert]
      split
      · rw [List.lookup_cons]
        split <;> simp_all
      · rw [List.lookup_cons, List.lookup_cons, ih fresh]
        split
        · next found =>
          have noKey : other ≠ key := fun same => by simp_all
          rw [if_neg noKey]
        · rfl

/-- Declarations of a name are numbered on from those that came before. -/
theorem lookup_ofDeclarationsAfter (text : String) (names : List String) (ds : List Declaration)
    (name : String) (k : Nat) :
    (ofDeclarationsAfter text names ds).lookup ⟨name, k⟩ =
      if k < names.count name then none
      else ((Declaration.named name ds)[k - names.count name]?).map
        fun d => (d.bodyText text).map fingerprint := by
  induction ds generalizing names name k with
  | nil => simp [ofDeclarationsAfter, Declaration.named]
  | cons d rest ih =>
    have fresh : (ofDeclarationsAfter text (d.name :: names) rest).lookup
        ⟨d.name, names.count d.name⟩ = none := by
      rw [ih, List.count_cons_self, if_pos (Nat.lt_succ_self _)]
    rw [ofDeclarationsAfter, lookup_insert fresh, ih]
    by_cases own : d.name = name
    · subst own
      have named : Declaration.named d.name (d :: rest) = d :: Declaration.named d.name rest := by
        simp [Declaration.named]
      rw [named, List.count_cons_self]
      by_cases here : k = names.count d.name
      · simp [here]
      · rw [if_neg (by simpa using here)]
        by_cases before : k < names.count d.name
        · rw [if_pos before, if_pos (Nat.lt_succ_of_lt before)]
        · obtain ⟨i, rfl⟩ : ∃ i, k = names.count d.name + 1 + i :=
            Nat.exists_eq_add_of_le (by omega)
          rw [if_neg before, if_neg (by omega)]
          congr 1
          rw [show names.count d.name + 1 + i - names.count d.name = i + 1 by omega,
            List.getElem?_cons_succ, Nat.add_sub_cancel_left]
    · have named : Declaration.named name (d :: rest) = Declaration.named name rest := by
        simp [Declaration.named, own]
      have other : (⟨name, k⟩ : MethodKey) ≠ ⟨d.name, names.count d.name⟩ :=
        fun same => own (MethodKey.mk.inj same).1.symm
      rw [named, List.count_cons_of_ne own, if_neg other]

theorem lookup_ofDeclarations (text : String) (ds : List Declaration) (name : String) (k : Nat) :
    (ofDeclarations text ds).lookup ⟨name, k⟩ =
      ((Declaration.named name ds)[k]?).map fun d => (d.bodyText text).map fingerprint := by
  rw [ofDeclarations, lookup_ofDeclarationsAfter]
  rfl

end Fingerprints

namespace Change

theorem mem_changed_between {before after : Fingerprints} {whitelist : Whitelist}
    {print other : Option Fingerprint} (key : MethodKey)
    (counts : whitelist.contains key.name = false) (old : before.lookup key = some print)
    (new : after.lookup key = some other) (differ : print ≠ other) :
    key.name ∈ (between before after whitelist).changed := by
  obtain ⟨front, back, split, _⟩ := List.lookup_eq_some_iff.mp old
  refine List.mem_map.mpr ⟨(key, print), List.mem_filter.mpr ⟨?_, ?_⟩, rfl⟩
  · rw [split]
    exact List.mem_append_right front List.mem_cons_self
  · simp [counts, new, Ne.symm differ]

theorem isSignificant_of_mem_changed {c : Change} {name : String} (member : name ∈ c.changed) :
    c.isSignificant = true := by
  have some : c.changed.isEmpty = false := by
    rw [List.isEmpty_eq_false_iff]
    exact List.ne_nil_of_mem member
  simp [isSignificant, some]

theorem mem_changed_check {extract : Extractor} {baseline current name body other : String}
    {k : Nat} {whitelist : Whitelist} (counts : whitelist.contains name = false)
    (old : Extractor.HasBody extract baseline name k body)
    (new : Extractor.HasBody extract current name k other)
    (differ : fingerprint body ≠ fingerprint other) :
    name ∈ (check extract baseline current whitelist).changed := by
  obtain ⟨ds, d, found, nth, text⟩ := old
  obtain ⟨es, e, found', nth', text'⟩ := new
  have edited : baseline ≠ current := by
    rintro rfl
    obtain rfl : ds = es := Except.ok.inj (found.symm.trans found')
    obtain rfl : d = e := Option.some.inj (nth.symm.trans nth')
    exact differ (congrArg fingerprint (Option.some.inj (text.symm.trans text')))
  have lookup : (Fingerprints.ofDeclarations baseline ds).lookup ⟨name, k⟩ =
      some (some (fingerprint body)) := by
    rw [Fingerprints.lookup_ofDeclarations, nth, Option.map_some, text, Option.map_some]
  have lookup' : (Fingerprints.ofDeclarations current es).lookup ⟨name, k⟩ =
      some (some (fingerprint other)) := by
    rw [Fingerprints.lookup_ofDeclarations, nth', Option.map_some, text', Option.map_some]
  have compared : check extract baseline current whitelist =
      between (.ofDeclarations baseline ds) (.ofDeclarations current es) whitelist := by
    simp only [check, edited, if_false, found, found']
  rw [compared]
  have changed := mem_changed_between ⟨name, k⟩ counts lookup lookup'
    fun same => differ (Option.some.inj same)
  exact changed

end Change

end CostWatch
