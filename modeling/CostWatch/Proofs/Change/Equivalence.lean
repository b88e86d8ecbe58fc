import CostWatch.Proofs.Change.Comparison

/-!
Changes that do not count.

Two texts are alike where a change from one to the other is not significant: they are the same text,
or both can be read and their methods have the same fingerprints, apart from those on the whitelist.
This is an equivalence, so that a baseline may move along with each text that is saved: as long as
no save counts, nothing has been lost since the first one.
-/

set_option autoImplicit false

namespace CostWatch

def Extractor.Counts (extract : Extractor) (whitelist : Whitelist) (text : String)
    (prints : String → List (Option Fingerprint)) : Prop :=
  ∃ ds, extract text = .ok ds ∧
    ∀ name, whitelist.contains name = false → Declaration.prints text name ds = prints name

namespace Change

def Ignorable (extract : Extractor) (whitelist : Whitelist) (baseline current : String) : Prop :=
  (check extract baseline current whitelist).isSignificant = false

/-- The changes that are found while a text is saved again and again: each save is compared with the
baseline and then becomes the baseline. -/
def ofSaves (extract : Extractor) (whitelist : Whitelist) : String → List String → List Change
  | _, [] => []
  | baseline, text :: later =>
    check extract baseline text whitelist :: ofSaves extract whitelist text later

section

variable {extract : Extractor} {whitelist : Whitelist} {a b c : String}

theorem ignorable_iff :
    Ignorable extract whitelist a b ↔
      a = b ∨ ∃ prints, extract.Counts whitelist a prints ∧ extract.Counts whitelist b prints := by
  have ⟨equal, edited⟩ := check_exact extract a b whitelist
  by_cases same : a = b
  · exact iff_of_true (equal same).2 (.inl same)
  have ⟨noBaseline, noCurrent, compared⟩ := edited same
  have unreadable (significant : (check extract a b whitelist).isSignificant = true)
      (none : ¬ ∃ prints, extract.Counts whitelist a prints ∧ extract.Counts whitelist b prints) :
      Ignorable extract whitelist a b ↔ a = b ∨
        ∃ prints, extract.Counts whitelist a prints ∧ extract.Counts whitelist b prints :=
    iff_of_false (by rw [Ignorable, significant]; decide) (not_or.mpr ⟨same, none⟩)
  cases before : extract a with
  | error fault =>
    refine unreadable (noBaseline fault before).2 fun ⟨_, ⟨_, read, _⟩, _⟩ => ?_
    cases before.symm.trans read
  | ok ds =>
    cases after : extract b with
    | error fault =>
      refine unreadable (noCurrent ds fault before after).2 fun ⟨_, _, _, read, _⟩ => ?_
      cases after.symm.trans read
    | ok es =>
      rw [Ignorable, ← Bool.not_eq_true, (compared ds es before after).significant]
      simp only [not_exists, not_and, Decidable.not_not, same, false_or]
      constructor
      · intro alike
        exact ⟨(Declaration.prints a · ds), ⟨ds, before, fun _ _ => rfl⟩, es, after,
          fun name counts => (alike name counts).symm⟩
      · rintro ⟨prints, ⟨_, read, old⟩, _, read', new⟩ name counts
        cases before.symm.trans read
        cases after.symm.trans read'
        exact (old name counts).trans (new name counts).symm

theorem Ignorable.refl (a : String) : Ignorable extract whitelist a a :=
  ignorable_iff.mpr (.inl rfl)

theorem Ignorable.symm (alike : Ignorable extract whitelist a b) :
    Ignorable extract whitelist b a := by
  rcases ignorable_iff.mp alike with rfl | ⟨prints, before, after⟩
  · exact .refl a
  · exact ignorable_iff.mpr (.inr ⟨prints, after, before⟩)

theorem Ignorable.trans (first : Ignorable extract whitelist a b)
    (second : Ignorable extract whitelist b c) : Ignorable extract whitelist a c := by
  rcases ignorable_iff.mp first with rfl | ⟨prints, before, ds, read, old⟩
  · exact second
  rcases ignorable_iff.mp second with rfl | ⟨prints', ⟨es, read', old'⟩, fs, read'', new⟩
  · exact first
  cases read.symm.trans read'
  refine ignorable_iff.mpr (.inr ⟨prints, before, fs, read'', fun name counts => ?_⟩)
  calc Declaration.prints c name fs
      _ = prints' name := new name counts
      _ = Declaration.prints b name ds := (old' name counts).symm
      _ = prints name := old name counts

theorem Ignorable.widen {wider : Whitelist}
    (more : ∀ name, whitelist.contains name = true → wider.contains name = true)
    (alike : Ignorable extract whitelist a b) : Ignorable extract wider a b := by
  have counts {name : String} (counted : wider.contains name = false) :
      whitelist.contains name = false :=
    Bool.eq_false_iff.mpr fun listed => Bool.eq_false_iff.mp counted (more name listed)
  rcases ignorable_iff.mp alike with rfl | ⟨prints, ⟨ds, before, old⟩, es, after, new⟩
  · exact .refl a
  · exact ignorable_iff.mpr (.inr ⟨prints, ⟨ds, before, fun name h => old name (counts h)⟩,
      es, after, fun name h => new name (counts h)⟩)

theorem ignorable_of_saves {first : String} {saves : List String}
    (none : ∀ change ∈ ofSaves extract whitelist first saves, change.isSignificant = false) :
    Ignorable extract whitelist first (saves.getLastD first) := by
  induction saves generalizing first with
  | nil => exact .refl first
  | cons text later ih =>
    have ⟨step, others⟩ := List.forall_mem_cons.mp none
    have further : Ignorable extract whitelist first (later.getLastD text) :=
      Ignorable.trans step (ih others)
    rwa [List.getLastD_cons]

end

/-- Not to count is an equivalence of texts, which holds over any number of saves while the baseline
moves along with them, and a longer whitelist keeps it. -/
theorem ignorable_equivalence (extract : Extractor) (whitelist : Whitelist) :
    Equivalence (Ignorable extract whitelist) ∧
      (∀ first saves,
        (∀ change ∈ ofSaves extract whitelist first saves, change.isSignificant = false) →
          Ignorable extract whitelist first (saves.getLastD first)) ∧
      ∀ wider : Whitelist,
        (∀ name, whitelist.contains name = true → wider.contains name = true) →
          ∀ a b, Ignorable extract whitelist a b → Ignorable extract wider a b :=
  ⟨⟨.refl, .symm, .trans⟩, fun _ _ => ignorable_of_saves, fun _ more _ _ => .widen more⟩

end Change

end CostWatch
