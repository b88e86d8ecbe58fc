import CostWatch.Text.Pattern

/-!
What a pattern matches as a whole, and that it matches no characters but those of its classes.
-/

set_option autoImplicit false

namespace CostWatch.Text.Pattern

def matchesAll (p : Pattern) : List Char → Bool
  | [] => p.matchesEmpty
  | c :: rest => (p.after c).matchesAll rest

/-- All characters that a pattern admits satisfy a condition. -/
def Within (inside : Char → Prop) : Pattern → Prop
  | never | empty => True
  | one member => ∀ c, member c = true → inside c
  | followedBy p q | either p q => p.Within inside ∧ q.Within inside
  | many p => p.Within inside

section
variable {inside : Char → Prop} {p q : Pattern}

theorem Within.join (first : p.Within inside) (second : q.Within inside) :
    (p.join q).Within inside := by
  cases p with
  | never => trivial
  | empty => exact second
  | _ => exact ⟨first, second⟩

theorem Within.union (first : p.Within inside) (second : q.Within inside) :
    (p.union q).Within inside := by
  unfold Pattern.union
  split
  · exact second
  · exact first
  · exact ⟨first, second⟩

theorem Within.after (within : p.Within inside) (c : Char) : (p.after c).Within inside := by
  induction p with
  | never | empty => trivial
  | one member =>
    rw [Pattern.after]
    split <;> trivial
  | followedBy p q first second =>
    rw [Pattern.after]
    split
    · exact ((first within.1).join within.2).union (second within.2)
    · exact (first within.1).join within.2
  | either p q first second => exact (first within.1).union (second within.2)
  | many p ih => exact (ih within).join within

theorem Within.after_eq_never (within : p.Within inside) {c : Char} (outside : ¬ inside c) :
    p.after c = never := by
  induction p with
  | never | empty => rfl
  | one member => exact if_neg fun admitted => outside (within c admitted)
  | followedBy p q first second =>
    rw [Pattern.after, first within.1, second within.2]
    exact ite_self _
  | either p q first second =>
    rw [Pattern.after, first within.1, second within.2]
    rfl
  | many p ih =>
    rw [Pattern.after, ih within]
    rfl

theorem matchesAll_never (cs : List Char) : never.matchesAll cs = false := by
  induction cs with
  | nil => rfl
  | cons c rest ih => exact ih

theorem Within.of_matchesAll (within : p.Within inside) {cs : List Char}
    (matched : p.matchesAll cs = true) : ∀ c ∈ cs, inside c := by
  induction cs generalizing p with
  | nil => exact nofun
  | cons c rest ih =>
    rw [matchesAll] at matched
    refine List.forall_mem_cons.mpr
      ⟨Classical.byContradiction fun outside => ?_, ih (within.after c) matched⟩
    rw [within.after_eq_never outside, matchesAll_never] at matched
    cases matched

theorem within_char {c : Char} (admitted : inside c) : (char c).Within inside := by
  intro d same
  exact eq_of_beq same ▸ admitted

end

end CostWatch.Text.Pattern
