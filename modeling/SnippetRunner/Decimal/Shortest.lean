import SnippetRunner.Decimal.Binary64

/-!
The shortest decimal that reads back as a given number. For one digit, two digits and so
on, the two neighbours of the value on that decimal grid are tested against the interval of
reals that round to it; the first grid with a hit wins, and of two hits the nearer one.
Numbers from a ten-thousandth up to below ten to the sixteenth are written positionally.
-/
namespace SnippetRunner.Binary64

def compareScaled (d : Nat) (power : Int) (num den : Nat) : Ordering :=
  if power ≥ 0 then compare (d * Nat.pow 10 power.toNat * den) num
  else compare (d * den) (num * Nat.pow 10 (-power).toNat)

/-- The bounds of the reals that round to a positive mantissa and exponent, as numerators
over one denominator. -/
def roundingBounds (m : Nat) (e : Int) : Nat × Nat × Nat :=
  let below := if m == Nat.pow 2 52 && e > leastExponent then 1 else 2
  let scale : Int := e - 2
  if scale ≥ 0 then
    ((4 * m - below) * Nat.pow 2 scale.toNat, (4 * m + 2) * Nat.pow 2 scale.toNat, 1)
  else (4 * m - below, 4 * m + 2, Nat.pow 2 (-scale).toNat)

def readsBack (m : Nat) (e : Int) (d : Nat) (power : Int) : Bool :=
  let (low, high, den) := roundingBounds m e
  let closed := m % 2 == 0
  let fromLow := compareScaled d power low den
  let toHigh := compareScaled d power high den
  (fromLow == .gt || (closed && fromLow == .eq)) &&
    (toHigh == .lt || (closed && toHigh == .eq))

/-- The least `j ≥ start` with `num · 10 ^ j ≥ den`, searched `fuel` steps. -/
def leadingPower (num den : Nat) : Nat → Nat → Nat
  | 0, j => j
  | fuel + 1, j => if num * Nat.pow 10 j ≥ den then j else leadingPower num den fuel (j + 1)

/-- The power of ten of the leading digit of a positive quotient. -/
def decimalExponent (num den : Nat) : Int :=
  if num ≥ den then ((Nat.toDigits 10 (num / den)).length : Int) - 1
  else -(leadingPower num den 400 1 : Int)

def scaledFloor (num den : Nat) (power : Int) : Nat :=
  if power ≥ 0 then num / (den * Nat.pow 10 power.toNat) else num * Nat.pow 10 (-power).toNat / den

/-- Digits and power of ten of the first grid that has a point in the interval. -/
def shortestFrom (m : Nat) (e : Int) (lead : Int) : Nat → Nat → Nat × Int
  | 0, count =>
    let (num, den) := quotient m e
    let power := lead - ((count : Int) - 1)
    (scaledFloor num den power, power)
  | fuel + 1, count =>
    let (num, den) := quotient m e
    let power := lead - ((count : Int) - 1)
    let d := scaledFloor num den power
    match readsBack m e d power, readsBack m e (d + 1) power with
    | true, true =>
      let (n2, d2) := quotient (2 * m) e
      match compareScaled (2 * d + 1) power n2 d2 with
      | .gt => (d, power)
      | .lt => (d + 1, power)
      | .eq => if d % 2 == 0 then (d, power) else (d + 1, power)
    | true, false => (d, power)
    | false, true => (d + 1, power)
    | false, false => shortestFrom m e lead fuel (count + 1)

def shortestDigits (m : Nat) (e : Int) : Nat × Int :=
  let (num, den) := quotient m e
  shortestFrom m e (decimalExponent num den) 20 1

/-- Digits without the zeros at their end, and the power of ten of the last one left. -/
def trimZeros : Nat → Nat → Int → Nat × Int
  | 0, d, p => (d, p)
  | fuel + 1, d, p =>
    if d != 0 && d % 10 == 0 then trimZeros fuel (d / 10) (p + 1) else (d, p)

/-- Positional notation for leading powers of ten from -4 to 15, and an exponent of at
least two digits beyond. -/
def writeDigits (d : Nat) (power : Int) : String :=
  let digits := Nat.toDigits 10 d
  let lead : Int := power + ((digits.length : Int) - 1)
  if -4 ≤ lead && lead < 16 then
    if power ≥ 0 then
      String.ofList (digits ++ List.replicate power.toNat '0') ++ ".0"
    else if lead ≥ 0 then
      let whole := lead.toNat + 1
      String.ofList (digits.take whole ++ '.' :: digits.drop whole)
    else
      "0." ++ String.ofList (List.replicate (-lead - 1).toNat '0' ++ digits)
  else
    let mantissa :=
      match digits with
      | first :: [] => [first]
      | first :: others => first :: '.' :: others
      | [] => []
    let size := Nat.toDigits 10 lead.natAbs
    let padded := if size.length < 2 then '0' :: size else size
    String.ofList (mantissa ++ 'e' :: (if lead < 0 then '-' else '+') :: padded)

/-- The text of a number; `infinity` and `undefined` are the words for the others. -/
def writeWith (infinity undefined : String) : Binary64 → String
  | .notANumber => undefined
  | .infinite negative => (if negative then "-" else "") ++ infinity
  | .finite negative m e =>
    let body :=
      if m == 0 then "0.0"
      else
        let (d, p) := shortestDigits m e
        let (d, p) := trimZeros 40 d p
        writeDigits d p
    (if negative then "-" else "") ++ body

def text : Binary64 → String := writeWith "inf" "nan"

end SnippetRunner.Binary64
