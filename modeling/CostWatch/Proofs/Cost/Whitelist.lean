import CostWatch.Cost.Whitelist
import Mathlib.Data.List.DropRight
import Mathlib.Data.List.Sort

/-!
Whitelists as sets of names. A name that has been trimmed is left as it is, so that names can be
taken from a whitelist and put back.
-/

set_option autoImplicit false

namespace CostWatch

theorem dropWhile_of_prefix {α : Type} {p : α → Bool} {part whole : List α}
    (isPrefix : part <+: whole) (kept : whole.dropWhile p = whole) : part.dropWhile p = part := by
  obtain ⟨rest, rfl⟩ := isPrefix
  cases part with
  | nil => rfl
  | cons a part => exact List.dropWhile_cons_of_neg (List.dropWhile_eq_self_iff.mp kept (by simp))

theorem Text.trimList_trimList (cs : List Char) : trimList (trimList cs) = trimList cs := by
  have front : (trimList cs).dropWhile isWhiteSpace = trimList cs :=
    dropWhile_of_prefix (List.rdropWhile_prefix _ _) (List.dropWhile_idempotent _ cs)
  rw [trimList, front]
  exact List.rdropWhile_idempotent _ (cs.dropWhile isWhiteSpace)

theorem Text.trim_trim (s : String) : trim (trim s) = trim s := by
  rw [trim, trim, String.toList_ofList, trimList_trimList]

namespace Whitelist

theorem nameOf?_of_nameOf? {name trimmed : String}
    (valid : nameOf? name = some trimmed) : nameOf? trimmed = some trimmed := by
  simp only [nameOf?] at valid ⊢
  split at valid
  · cases valid
  · next notBlank =>
    cases valid
    rw [Text.trim_trim, if_neg notBlank]

theorem eq_of_has {v w : Whitelist} (same : ∀ name, v.has name = w.has name) :
    v = w := by
  obtain ⟨names, increasing⟩ := v
  obtain ⟨others, increasing'⟩ := w
  have members (name : String) : name ∈ names ↔ name ∈ others := by
    have equal := same name
    rwa [has, has, Bool.eq_iff_iff, List.contains_iff_mem, List.contains_iff_mem] at equal
  have equal : names = others := increasing.eq_of_mem_iff increasing' members
  subst equal
  rfl

theorem has_foldl (w : Whitelist) (names : List String) (name : String) :
    (names.foldl insert w).has name = true ↔ name ∈ names ∨ w.has name = true := by
  induction names generalizing w with
  | nil => simp
  | cons first rest ih =>
    rw [List.foldl_cons, ih, has_insert, List.mem_cons, Bool.or_eq_true, decide_eq_true_iff]
    tauto

theorem has_ofNames {names : List String}
    (trimmed : ∀ name ∈ names, nameOf? name = some name) (name : String) :
    (ofNames names).has name = true ↔ name ∈ names := by
  have kept : names.filterMap nameOf? = names := by
    rw [List.filterMap_congr trimmed, List.filterMap_some]
  rw [ofNames, kept, has_foldl]
  exact or_iff_left nofun

end Whitelist

end CostWatch
