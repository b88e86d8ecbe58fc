/-!
Moments of local time, as histories show them: month, day and year without leading zeros in the
first two, then hour, minute and second with two digits each.
-/

set_option autoImplicit false

namespace CostWatch

structure Moment where
  year : Int
  month : Nat
  day : Nat
  hour : Nat
  minute : Nat
  second : Nat
  deriving DecidableEq, Repr

def paddedTo (width n : Nat) : String :=
  let digits := toString n
  String.ofList (List.replicate (width - digits.length) '0') ++ digits

/-- A year with at least four digits; one before the year zero or after 9999 has a sign. -/
def shownYear (year : Int) : String :=
  if year < 0 then "-" ++ paddedTo 4 year.natAbs
  else if 9999 < year then "+" ++ paddedTo 4 year.natAbs
  else paddedTo 4 year.natAbs

/-- The text of a moment, such as `10/19/2026, 14:03:22`. -/
def Moment.text (m : Moment) : String :=
  s!"{m.month}/{m.day}/" ++ shownYear m.year ++ ", " ++
    paddedTo 2 m.hour ++ ":" ++ paddedTo 2 m.minute ++ ":" ++ paddedTo 2 m.second

end CostWatch
