import Mathlib.Data.List.Forall2

/-!
Lists whose elements are taken one after the other, each of which may fail: what becomes of a whole
list, and which element is the reason for a failure.
-/

set_option autoImplicit false

namespace CostWatch

variable {α β ε : Type} {f : α → Except ε β}

theorem mapM_cons_eq_ok {a : α} {rest : List α} {results : List β} :
    (a :: rest).mapM f = .ok results ↔
      ∃ b bs, f a = .ok b ∧ rest.mapM f = .ok bs ∧ results = b :: bs := by
  rw [List.mapM_cons]
  cases f a with
  | error e => simp [bind, Except.bind]
  | ok b => cases rest.mapM f <;> simp [bind, Except.bind, pure, Except.pure, eq_comm]

theorem mapM_cons_eq_error {a : α} {rest : List α} {e : ε} :
    (a :: rest).mapM f = .error e ↔
      f a = .error e ∨ (∃ b, f a = .ok b) ∧ rest.mapM f = .error e := by
  rw [List.mapM_cons]
  cases f a with
  | error e => simp [bind, Except.bind]
  | ok b => cases rest.mapM f <;> simp [bind, Except.bind, pure, Except.pure]

theorem mapM_eq_ok_iff_forall₂ {items : List α} {results : List β} :
    items.mapM f = .ok results ↔ List.Forall₂ (fun a b => f a = .ok b) items results := by
  induction items generalizing results with
  | nil => cases results <;> simp [pure, Except.pure]
  | cons a rest ih =>
    rw [mapM_cons_eq_ok, List.forall₂_cons_left_iff]
    simp only [ih, exists_and_left]

theorem mapM_eq_ok_iff {items : List α} :
    (∃ results, items.mapM f = .ok results) ↔ ∀ a ∈ items, ∃ b, f a = .ok b := by
  induction items with
  | nil => exact ⟨nofun, fun _ => ⟨[], rfl⟩⟩
  | cons a rest ih =>
    rw [List.forall_mem_cons, ← ih]
    constructor
    · rintro ⟨results, read⟩
      obtain ⟨b, bs, first, others, _⟩ := mapM_cons_eq_ok.mp read
      exact ⟨⟨b, first⟩, bs, others⟩
    · rintro ⟨⟨b, first⟩, bs, others⟩
      exact ⟨b :: bs, mapM_cons_eq_ok.mpr ⟨b, bs, first, others, rfl⟩⟩

theorem mem_of_mapM {items : List α} {results : List β} (read : items.mapM f = .ok results)
    {b : β} : b ∈ results ↔ ∃ a ∈ items, f a = .ok b := by
  induction items generalizing results with
  | nil =>
    cases read
    simp
  | cons a rest ih =>
    obtain ⟨first, bs, now, others, rfl⟩ := mapM_cons_eq_ok.mp read
    rw [List.mem_cons, ih others, List.exists_mem_cons_iff, now, Except.ok.injEq, eq_comm]

theorem mapM_map_eq_ok {read : β → Except ε α} {write : α → β} {items : List α}
    (back : ∀ a ∈ items, read (write a) = .ok a) : (items.map write).mapM read = .ok items := by
  rw [mapM_eq_ok_iff_forall₂, List.forall₂_map_left_iff, List.forall₂_same]
  exact back

/-- The first element that fails is the reason why a list is not taken. -/
theorem mapM_eq_error_iff {items : List α} {e : ε} :
    items.mapM f = .error e ↔
      ∃ before a after, items = before ++ a :: after ∧ (∀ b ∈ before, ∃ r, f b = .ok r) ∧
        f a = .error e := by
  induction items with
  | nil => simp [pure, Except.pure]
  | cons first rest ih =>
    rw [mapM_cons_eq_error, ih]
    constructor
    · rintro (failed | ⟨read, before, a, after, rfl, fine, failed⟩)
      · exact ⟨[], first, rest, rfl, nofun, failed⟩
      · exact ⟨first :: before, a, after, rfl, List.forall_mem_cons.mpr ⟨read, fine⟩, failed⟩
    · rintro ⟨before, a, after, same, fine, failed⟩
      cases before with
      | nil =>
        cases same
        exact .inl failed
      | cons b before =>
        cases same
        obtain ⟨read, fine⟩ := List.forall_mem_cons.mp fine
        exact .inr ⟨read, before, a, after, rfl, fine, failed⟩

end CostWatch
