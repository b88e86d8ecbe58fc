import CostWatch.Text.Decimal
import CostWatch.Text.WhiteSpace
import Mathlib.Data.List.DropRight

/-!
What trimming leaves of a text, and which texts write a natural number.

A text is trimmed by taking away the white space around what begins and ends with none, and a number
is written by decimal digits after at most one plus sign.
-/

set_option autoImplicit false

namespace CostWatch.Text

/-! Trimming -/

def IsBlank (cs : List Char) : Prop :=
  ∀ c ∈ cs, isWhiteSpace c = true

inductive Trims : List Char → List Char → Prop where
  | intro {front cs back : List Char} : IsBlank front → IsBlank back →
      (∀ c ∈ cs.head?, isWhiteSpace c = false) → (∀ c ∈ cs.getLast?, isWhiteSpace c = false) →
      Trims (front ++ cs ++ back) cs

theorem trimList_eq (cs : List Char) :
    trimList cs = (cs.dropWhile isWhiteSpace).rdropWhile isWhiteSpace :=
  rfl

theorem not_blank_of_head?_dropWhile {cs : List Char} {c : Char}
    (first : c ∈ (cs.dropWhile isWhiteSpace).head?) : isWhiteSpace c = false := by
  have law := List.head?_dropWhile_not isWhiteSpace cs
  rwa [Option.mem_def.mp first] at law

theorem dropWhile_eq_self {cs : List Char} (first : ∀ c ∈ cs.head?, isWhiteSpace c = false) :
    cs.dropWhile isWhiteSpace = cs := by
  cases cs with
  | nil => rfl
  | cons c cs => exact List.dropWhile_cons_of_neg (by simp [first c rfl])

theorem trimList_eq_nil_iff (cs : List Char) : trimList cs = [] ↔ IsBlank cs := by
  rw [trimList_eq, List.rdropWhile_eq_nil_iff]
  constructor
  · intro blank
    -- What is left in front begins with another character, so nothing is left.
    have nothing : cs.dropWhile isWhiteSpace = [] := by
      by_contra some
      have first := List.head_dropWhile_not isWhiteSpace some
      cases first.symm.trans (blank _ (List.head_mem some))
    exact List.dropWhile_eq_nil_iff.mp nothing
  · exact fun blank c member => blank c ((List.dropWhile_suffix _).subset member)

theorem trims_trimList (cs : List Char) : Trims cs (trimList cs) := by
  have parts : cs = cs.takeWhile isWhiteSpace ++ trimList cs ++
      (cs.dropWhile isWhiteSpace).rtakeWhile isWhiteSpace := by
    rw [List.append_assoc, trimList_eq, List.rdropWhile_append_rtakeWhile,
      List.takeWhile_append_dropWhile]
  have first (c : Char) (begins : c ∈ (trimList cs).head?) : isWhiteSpace c = false := by
    obtain ⟨rest, whole⟩ := List.rdropWhile_prefix isWhiteSpace (cs.dropWhile isWhiteSpace)
    have begins' : c ∈ (cs.dropWhile isWhiteSpace).head? := by
      rw [← whole, List.head?_append, ← trimList_eq, Option.mem_def.mp begins]
      rfl
    exact not_blank_of_head?_dropWhile begins'
  have last (c : Char) (ends : c ∈ (trimList cs).getLast?) : isWhiteSpace c = false := by
    rw [trimList, List.getLast?_reverse] at ends
    exact not_blank_of_head?_dropWhile ends
  have trims : Trims (cs.takeWhile isWhiteSpace ++ trimList cs ++
      (cs.dropWhile isWhiteSpace).rtakeWhile isWhiteSpace) (trimList cs) :=
    .intro (fun _ => List.mem_takeWhile_imp) (fun _ => List.mem_rtakeWhile_imp) first last
  rwa [← parts] at trims

theorem trimList_eq_of_trims {cs trimmed : List Char} (trims : Trims cs trimmed) :
    trimList cs = trimmed := by
  obtain @⟨front, _, back, blank, blank', first, last⟩ := trims
  cases trimmed with
  | nil =>
    rw [trimList_eq_nil_iff, List.append_nil]
    exact fun c member => (List.mem_append.mp member).elim (blank c) (blank' c)
  | cons c cs =>
    have blankBack : ∀ d ∈ back.reverse, isWhiteSpace d = true := fun d member =>
      blank' d (List.mem_reverse.mp member)
    have ends : ∀ d ∈ (c :: cs).reverse.head?, isWhiteSpace d = false := by
      rw [List.head?_reverse]
      exact last
    have begins : (c :: cs ++ back).dropWhile isWhiteSpace = c :: cs ++ back :=
      dropWhile_eq_self first
    rw [trimList, List.append_assoc, List.dropWhile_append_of_pos blank, begins,
      List.reverse_append, List.dropWhile_append_of_pos blankBack, dropWhile_eq_self ends,
      List.reverse_reverse]

theorem trimList_eq_iff {cs trimmed : List Char} : trimList cs = trimmed ↔ Trims cs trimmed :=
  ⟨fun same => same ▸ trims_trimList cs, trimList_eq_of_trims⟩

theorem trim_eq_empty_iff {s : String} : trim s = "" ↔ IsBlank s.toList := by
  rw [← trimList_eq_nil_iff, trim, String.ofList_eq_empty_iff]

theorem trims_iff {s t : String} : Trims s.toList t.toList ↔ trim s = t := by
  rw [← trimList_eq_iff, trim, ← String.toList_inj, String.toList_ofList]

/-! Numbers -/

/-- A text that writes a number in decimal digits. There may be zeros in front. -/
inductive Writes : List Char → Nat → Prop where
  | digits {cs : List Char} : cs ≠ [] → (∀ c ∈ cs, c.isDigit = true) →
      Writes cs (Nat.ofDigitChars 10 cs 0)
  | plus {cs : List Char} : cs ≠ [] → (∀ c ∈ cs, c.isDigit = true) →
      Writes ('+' :: cs) (Nat.ofDigitChars 10 cs 0)

theorem digitsFrom_eq_some_iff {cs : List Char} {acc n : Nat} :
    digitsFrom acc cs = some n ↔
      (∀ c ∈ cs, c.isDigit = true) ∧ Nat.ofDigitChars 10 cs acc = n := by
  induction cs generalizing acc with
  | nil => simp [digitsFrom]
  | cons c cs ih =>
    rw [digitsFrom, digitValue?, List.forall_mem_cons]
    by_cases digit : c.isDigit = true
    · simp only [digit, if_true, true_and, ih, Nat.ofDigitChars_cons, Nat.mul_comm]
    · simp [digit]

theorem writes_plus_iff {cs : List Char} {n : Nat} :
    Writes ('+' :: cs) n ↔ cs ≠ [] ∧ digitsFrom 0 cs = some n := by
  rw [digitsFrom_eq_some_iff]
  constructor
  · rintro (⟨_, digits⟩ | ⟨nonempty, digits⟩)
    · cases digits '+' List.mem_cons_self
    · exact ⟨nonempty, digits, rfl⟩
  · rintro ⟨nonempty, digits, rfl⟩
    exact .plus nonempty digits

theorem writes_iff {cs : List Char} {n : Nat} (noPlus : cs.head? ≠ some '+') :
    Writes cs n ↔ cs ≠ [] ∧ digitsFrom 0 cs = some n := by
  rw [digitsFrom_eq_some_iff]
  constructor
  · rintro (⟨nonempty, digits⟩ | _)
    · exact ⟨nonempty, digits, rfl⟩
    · exact absurd rfl noPlus
  · rintro ⟨nonempty, digits, rfl⟩
    exact .digits nonempty digits

theorem natural?_eq_some_iff {greatest n : Nat} {s : String} :
    natural? greatest s = some n ↔ Writes s.toList n ∧ n ≤ greatest := by
  unfold natural?
  generalize s.toList = cs
  split
  · next rest =>
    rw [writes_plus_iff]
    cases rest <;> simp [Option.filter_eq_some_iff]
  · next _ noPlus =>
    have other : cs.head? ≠ some '+' := fun plus =>
      have ⟨rest, same⟩ := List.head?_eq_some_iff.mp plus
      noPlus rest same
    rw [writes_iff other]
    cases cs <;> simp [Option.filter_eq_some_iff]

theorem natural?_eq_none_iff {greatest : Nat} {s : String} :
    natural? greatest s = none ↔ ∀ n, Writes s.toList n → greatest < n := by
  simp only [Option.eq_none_iff_forall_ne_some, ne_eq, natural?_eq_some_iff, not_and, Nat.not_le]

end CostWatch.Text
