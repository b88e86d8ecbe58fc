import CostWatch.Text.Decimal

/-!
JSON values. The entries of an object keep their order, and a number keeps the way it is held: a
natural number of 64 bits, a negative integer of 64 bits, or the text of any other number.
-/

set_option autoImplicit false

namespace CostWatch.Json

inductive Number where
  | natural (n : Nat)
  /-- The integer `-n`, for `n` above zero. -/
  | negative (n : Nat)
  /-- Any other number, as its shortest decimal text. -/
  | real (text : String)
  deriving DecidableEq, Repr

inductive Value where
  | null
  | boolean (b : Bool)
  | number (n : Number)
  | text (s : String)
  | array (items : List Value)
  | object (entries : List (String × Value))

def Number.ofInt : Int → Number
  | .ofNat n => .natural n
  | .negSucc n => .negative (n + 1)

def Number.shown : Number → String
  | .natural n => toString n
  | .negative n => "-" ++ toString n
  | .real text => text

namespace Value

def nat (n : Nat) : Value := .number (.natural n)

/-- The value of the entry with a key, the first one if there are several. -/
def get? (v : Value) (key : String) : Option Value :=
  match v with
  | .object entries => entries.lookup key
  | _ => none

end Value

end CostWatch.Json
