import CostWatch.Table
import Mathlib.Data.List.Nodup

/-!
Looking things up in lists of entries with different keys, and putting such entries into a map.
-/

set_option autoImplicit false

namespace CostWatch.Table

section
variable {κ α : Type} [BEq κ] [LawfulBEq κ] [DecidableEq κ] {entries others : List (κ × α)}

theorem lookup_of_mem (distinct : (entries.map (·.1)).Nodup) {entry : κ × α}
    (member : entry ∈ entries) : entries.lookup entry.1 = some entry.2 := by
  induction entries with
  | nil => cases member
  | cons first rest ih =>
    obtain ⟨other, a⟩ := first
    obtain ⟨new, distinct⟩ := List.nodup_cons.mp distinct
    rw [lookup_cons_ite]
    rcases List.mem_cons.mp member with rfl | later
    · exact if_pos rfl
    · have apart : entry.1 ≠ other := fun same =>
        new (List.mem_map.mpr ⟨entry, later, same⟩)
      rw [if_neg apart]
      exact ih distinct later

theorem mem_iff_lookup (distinct : (entries.map (·.1)).Nodup) {entry : κ × α} :
    entry ∈ entries ↔ entries.lookup entry.1 = some entry.2 := by
  refine ⟨lookup_of_mem distinct, fun found => ?_⟩
  obtain ⟨before, after, rfl, _⟩ := List.lookup_eq_some_iff.mp found
  exact List.mem_append_right before List.mem_cons_self

/-- Lists of entries with different keys that stand for the same map have the same entries. -/
theorem perm_of_lookup (distinct : (entries.map (·.1)).Nodup)
    (othersDistinct : (others.map (·.1)).Nodup)
    (same : ∀ key, entries.lookup key = others.lookup key) : entries.Perm others := by
  refine (List.perm_ext_iff_of_nodup (distinct.of_map _) (othersDistinct.of_map _)).mpr fun e => ?_
  rw [mem_iff_lookup distinct, mem_iff_lookup othersDistinct, same]

end

theorem size_eq {κ α : Type} [DecidableEq κ] {t u : Table κ α}
    (same : ∀ key, t.find? key = u.find? key) : t.size = u.size :=
  (perm_of_lookup t.distinct u.distinct same).length_eq

theorem putEntry_of_lookup {κ α : Type} [DecidableEq κ] {key : κ} {value : α}
    {entries : List (κ × α)} (found : entries.lookup key = some value) :
    putEntry key value entries = entries := by
  induction entries with
  | nil => cases found
  | cons entry rest ih =>
    obtain ⟨other, a⟩ := entry
    rw [lookup_cons_ite] at found
    rw [putEntry]
    by_cases same : key = other
    · rw [if_pos same] at found
      rw [if_pos same.symm, same, Option.some.inj found]
    · rw [if_neg same] at found
      rw [if_neg (Ne.symm same), ih found]

theorem put_of_find? {κ α : Type} [DecidableEq κ] {t : Table κ α} {key : κ} {value : α}
    (found : t.find? key = some value) : t.put key value = t := by
  obtain ⟨entries, distinct⟩ := t
  rw [put]
  congr 1
  exact putEntry_of_lookup found

theorem lookup_map {κ α β : Type} [DecidableEq κ] (f : α → β) (entries : List (κ × α))
    (key : κ) :
    (entries.map fun entry => (entry.1, f entry.2)).lookup key = (entries.lookup key).map f := by
  induction entries with
  | nil => rfl
  | cons entry rest ih =>
    obtain ⟨other, a⟩ := entry
    rw [List.map_cons, lookup_cons_ite, lookup_cons_ite, ih]
    split <;> rfl

/-- What becomes of a map when entries with different keys are put into it one by one. -/
theorem get_foldl {σ κ α β : Type} [DecidableEq κ] (get : σ → κ → Option β)
    (put : σ → κ → α → σ) (f : α → β)
    (law : ∀ s key a other,
      get (put s key a) other = if other = key then some (f a) else get s other)
    {entries : List (κ × α)} (distinct : (entries.map (·.1)).Nodup) (s : σ) (key : κ) :
    get (entries.foldl (fun s entry => put s entry.1 entry.2) s) key =
      ((entries.lookup key).map f).or (get s key) := by
  induction entries generalizing s with
  | nil => rfl
  | cons entry rest ih =>
    obtain ⟨other, a⟩ := entry
    obtain ⟨new, distinct⟩ := List.nodup_cons.mp distinct
    rw [List.foldl_cons, ih distinct, law, lookup_cons_ite]
    by_cases same : key = other
    · have absent : rest.lookup other = none := List.lookup_eq_none_iff.mpr fun later member =>
        bne_iff_ne.mpr fun equal => new (List.mem_map.mpr ⟨later, member, equal.symm⟩)
      simp [same, absent]
    · simp [same]

end CostWatch.Table
