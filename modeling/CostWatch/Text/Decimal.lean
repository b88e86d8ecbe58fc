/-!
Natural numbers in decimal digits.
-/

set_option autoImplicit false

namespace CostWatch.Text

def digitValue? (c : Char) : Option Nat :=
  if c.isDigit then some (c.toNat - '0'.toNat) else none

def digitsFrom (acc : Nat) : List Char → Option Nat
  | [] => some acc
  | c :: rest =>
    match digitValue? c with
    | some d => digitsFrom (acc * 10 + d) rest
    | none => none

/-- The number that a text writes with decimal digits and at most one plus sign before them;
nothing if there is no digit, another character, or a number above `greatest`. -/
def natural? (greatest : Nat) (s : String) : Option Nat :=
  let digits := match s.toList with
    | '+' :: rest => rest
    | all => all
  match digits with
  | [] => none
  | _ => (digitsFrom 0 digits).filter (· ≤ greatest)

def maxWord32 : Nat := Nat.pow 2 32 - 1

def maxWord64 : Nat := Nat.pow 2 64 - 1

end CostWatch.Text
