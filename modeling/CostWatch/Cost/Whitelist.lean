import CostWatch.Json.Schema
import CostWatch.Text.WhiteSpace

/-!
The whitelist: names of methods whose changes are not significant. Names are trimmed before they
are used, and kept in increasing order.
-/

set_option autoImplicit false

namespace CostWatch

structure Whitelist where
  names : List String
  increasing : names.Pairwise (· < ·)
  deriving DecidableEq, Repr

namespace Whitelist

def empty : Whitelist := ⟨[], .nil⟩

def nameOf? (name : String) : Option String :=
  let trimmed := Text.trim name
  if trimmed = "" then none else some trimmed

def insertName (name : String) : List String → List String
  | [] => [name]
  | other :: rest =>
    if name < other then name :: other :: rest
    else if name = other then other :: rest
    else other :: insertName name rest

theorem mem_insertName {name other : String} {names : List String} :
    other ∈ insertName name names ↔ other = name ∨ other ∈ names := by
  induction names with
  | nil => simp [insertName]
  | cons first rest ih =>
    rw [insertName]
    split
    · simp
    · split
      · next h => simp [h]
      · simp only [List.mem_cons, ih]
        exact or_left_comm

theorem increasing_insertName {name : String} {names : List String}
    (increasing : names.Pairwise (· < ·)) : (insertName name names).Pairwise (· < ·) := by
  induction names with
  | nil => exact .cons (by simp) .nil
  | cons first rest ih =>
    have ⟨least, tail⟩ := List.pairwise_cons.1 increasing
    rw [insertName]
    split
    · next before =>
      refine .cons ?_ increasing
      intro other member
      rcases List.mem_cons.1 member with same | later
      · exact same ▸ before
      · exact String.lt_trans before (least other later)
    · split
      · exact increasing
      · next notBefore different =>
        refine .cons ?_ (ih tail)
        intro other member
        rcases mem_insertName.1 member with same | later
        · exact same ▸ Std.lt_of_le_of_ne notBefore (Ne.symm different)
        · exact least other later

def insert (w : Whitelist) (name : String) : Whitelist :=
  ⟨insertName name w.names, increasing_insertName w.increasing⟩

/-- The whitelist without a name as it is given. -/
def erase (w : Whitelist) (name : String) : Whitelist :=
  ⟨w.names.filter (· ≠ name), w.increasing.filter _⟩

def has (w : Whitelist) (name : String) : Bool :=
  w.names.contains name

@[simp] theorem has_insert (w : Whitelist) (name other : String) :
    (w.insert name).has other = (decide (other = name) || w.has other) := by
  rw [Bool.eq_iff_iff]
  simp [has, insert, mem_insertName]

@[simp] theorem has_erase (w : Whitelist) (name other : String) :
    (w.erase name).has other = (decide (other ≠ name) && w.has other) := by
  rw [Bool.eq_iff_iff]
  simp [has, erase, and_comm]

def contains (w : Whitelist) (name : String) : Bool :=
  w.has (Text.trim name)

def ofNames (names : List String) : Whitelist :=
  (names.filterMap nameOf?).foldl insert empty

def schema : Json.Schema := .list (.text "a string")

/-- The whitelist that a text holds, its names taken as they are. -/
def decode (symbols : List Json.Symbol) : Except Json.Fault Whitelist :=
  match schema.decode symbols with
  | .ok names => .ok ((names : List String).foldl insert empty)
  | .error fault => .error fault

end Whitelist

end CostWatch
