/-!
Numbers of JSON that are not whole: binary floating point of 64 bits, and the shortest decimal
text that reads back as the same number.

`shortest` works on the exact rational value: among the decimals of one digit, of two digits and so
on it takes the first that lies between the two halfway points next to the number, and of two such
decimals the nearer one.
-/

set_option autoImplicit false

namespace CostWatch.Json.Real

def powerOfTen (exponent : Nat) : Float :=
  Float.ofScientific 1 false exponent

/-- The number `significand * 10 ^ exponent`, computed by one multiplication or division by a
power of ten, large negative exponents in steps of 308. Nothing if it is too large. -/
def scaled (significand : Float) (exponent : Int) : Nat → Option Float
  | 0 => some significand
  | fuel + 1 =>
    if exponent.natAbs ≤ 308 then
      if 0 ≤ exponent then
        let value := significand * powerOfTen exponent.natAbs
        if value.isInf then none else some value
      else some (significand / powerOfTen exponent.natAbs)
    else if significand == 0 then some significand
    else if 0 ≤ exponent then none
    else scaled (significand / powerOfTen 308) (exponent + 308) fuel

def ofParts (negative : Bool) (significand : Nat) (exponent : Int) : Option Float :=
  (scaled (Float.ofNat significand) exponent 4).map fun value => if negative then -value else value

/-- A positive number of the form `mantissa * 2 ^ power`, and whether the number below it is only
half as far away as the one above. -/
structure Binary where
  mantissa : Nat
  power : Int
  narrowBelow : Bool

def Binary.ofBits (bits : Nat) : Binary :=
  let fraction : Nat := bits % Nat.pow 2 52
  let exponent : Nat := bits / Nat.pow 2 52 % Nat.pow 2 11
  if exponent == 0 then ⟨fraction, -1074, false⟩
  else ⟨fraction + Nat.pow 2 52, Int.ofNat exponent - 1075, fraction == 0 && 1 < exponent⟩

def digitCount (n : Nat) : Nat :=
  if n == 0 then 0 else (Nat.toDigits 10 n).length

/-- The integer `e` with `10 ^ e ≤ num / den < 10 ^ (e + 1)`, for positive arguments. -/
def floorLog10 (num den : Nat) : Int :=
  if den ≤ num then (digitCount (num / den) : Int) - 1
  else - (digitCount ((den + num - 1) / num - 1) : Int)

structure Decimal where
  digits : Nat
  exponent : Int

def shortestFrom (b : Binary) (count : Nat) : Nat → Decimal
  | 0 => ⟨b.mantissa, 0⟩
  | fuel + 1 =>
    -- Everything is measured in quarters of the last place of `b`.
    let up := Nat.pow 2 (b.power - 2).toNat
    let den := Nat.pow 2 (2 - b.power).toNat
    let value := 4 * b.mantissa * up
    let low := (4 * b.mantissa - (if b.narrowBelow then 1 else 2)) * up
    let high := (4 * b.mantissa + 2) * up
    let closed := b.mantissa % 2 == 0
    let place := floorLog10 value den + 1 - count
    -- `x * 10 ^ place` compared with `y / den`, both sides multiplied out.
    let ten := Nat.pow 10 place.toNat
    let tenth := Nat.pow 10 (-place).toNat
    let scale := fun (x : Nat) => x * ten * den
    let fits := fun (x : Nat) =>
      let s := scale x
      if closed then low * tenth ≤ s && s ≤ high * tenth else low * tenth < s && s < high * tenth
    let below := value * tenth / (ten * den)
    let above := below + 1
    let target := value * tenth
    match fits below && below != 0, fits above with
    | true, true =>
      let down := target - scale below
      let rise := scale above - target
      if down < rise || (down == rise && below % 2 == 0) then ⟨below, place⟩ else ⟨above, place⟩
    | true, false => ⟨below, place⟩
    | false, true => ⟨above, place⟩
    | false, false => shortestFrom b (count + 1) fuel

/-- The decimal with the fewest digits that reads back as the number, the nearest one of those. -/
def shortest (b : Binary) : Decimal :=
  shortestFrom b 1 17

def Decimal.text (d : Decimal) : String :=
  let ds := (Nat.toDigits 10 d.digits).reverse.dropWhile (· == '0')
  let dropped := (Nat.toDigits 10 d.digits).length - ds.length
  let digits := ds.reverse
  let exponent := d.exponent + dropped
  let point : Int := digits.length + exponent
  if 0 ≤ exponent && point ≤ 16 then
    String.ofList (digits ++ List.replicate exponent.toNat '0' ++ ['.', '0'])
  else if 0 < point && point ≤ 16 then
    String.ofList (digits.take point.toNat ++ '.' :: digits.drop point.toNat)
  else if -5 < point && point ≤ 0 then
    String.ofList ('0' :: '.' :: List.replicate (-point).toNat '0' ++ digits)
  else
    let lead := digits.take 1
    let fraction := if digits.length ≤ 1 then [] else '.' :: digits.drop 1
    let shown := point - 1
    let sign := if shown < 0 then '-' else '+'
    String.ofList (lead ++ fraction ++ 'e' :: sign :: Nat.toDigits 10 shown.natAbs)

def text (x : Float) : String :=
  let bits := x.toBits.toNat
  let magnitude := bits % Nat.pow 2 63
  let sign := if bits == magnitude then "" else "-"
  sign ++ if magnitude == 0 then "0.0" else (shortest (Binary.ofBits magnitude)).text

end CostWatch.Json.Real
