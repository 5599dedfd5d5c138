/-!
Numbers with a fraction in the 64-bit binary format. A finite number is a sign and an
exact `mantissa · 2 ^ exponent`; a decimal is rounded to the nearest of them, a tie going
to the even mantissa, in exact integer arithmetic.
-/
namespace SnippetRunner

inductive Binary64
  | finite (negative : Bool) (mantissa : Nat) (exponent : Int)
  | infinite (negative : Bool)
  | notANumber
  deriving DecidableEq, Repr

namespace Binary64

def leastExponent : Int := -1074

def greatestExponent : Int := 971

def zero (negative : Bool) : Binary64 := .finite negative 0 leastExponent

/-- A quotient rounded to the nearest integer, a tie to the even one. -/
def roundQuotient (num den : Nat) : Nat :=
  let q := num / den
  let r := num % den
  if 2 * r > den || (2 * r == den && q % 2 == 1) then q + 1 else q

/-- The exponent at which a positive quotient has a mantissa of 53 bits, or the least. -/
def scaleOf (num den : Nat) : Int :=
  let guess : Int := (Nat.log2 num : Int) - (Nat.log2 den : Int) - 53
  let shifted (e : Int) : Nat × Nat :=
    if e ≥ 0 then (num, den * Nat.pow 2 e.toNat) else (num * Nat.pow 2 (-e).toNat, den)
  let fits (e : Int) : Bool :=
    let (n, d) := shifted e
    n / d < Nat.pow 2 53
  let e := if fits guess then guess else if fits (guess + 1) then guess + 1 else guess + 2
  if e < leastExponent then leastExponent else e

def ofQuotient (negative : Bool) (num den : Nat) : Binary64 :=
  if num == 0 then zero negative
  else
    let e := scaleOf num den
    let m :=
      if e ≥ 0 then roundQuotient num (den * Nat.pow 2 e.toNat)
      else roundQuotient (num * Nat.pow 2 (-e).toNat) den
    let (m, e) := if m == Nat.pow 2 53 then (Nat.pow 2 52, e + 1) else (m, e)
    if e > greatestExponent then .infinite negative else .finite negative m e

def ofDecimal (negative : Bool) (digits : Nat) (power : Int) : Binary64 :=
  let size : Int := (Nat.toDigits 10 digits).length
  if digits == 0 then zero negative
  else if size + power > 400 then .infinite negative
  else if size + power < -400 then zero negative
  else if power ≥ 0 then ofQuotient negative (digits * Nat.pow 10 power.toNat) 1
  else ofQuotient negative digits (Nat.pow 10 (-power).toNat)

def quotient (mantissa : Nat) (exponent : Int) : Nat × Nat :=
  if exponent ≥ 0 then (mantissa * Nat.pow 2 exponent.toNat, 1)
  else (mantissa, Nat.pow 2 (-exponent).toNat)

def truncate? : Binary64 → Option Int
  | .finite negative m e =>
    let (num, den) := quotient m e
    let n : Int := (num / den : Nat)
    some (if negative then -n else n)
  | _ => none

def whole? : Binary64 → Option Int
  | .finite negative m e =>
    let (num, den) := quotient m e
    if num % den == 0 then
      let n : Int := (num / den : Nat)
      some (if negative then -n else n)
    else none
  | _ => none

/-- The number of thousandths in a number, rounded away from zero; none when it has no
bound. -/
def thousandths? : Binary64 → Option Int
  | .finite negative m e =>
    let (num, den) := quotient m e
    let n : Int := ((num * 1000 + den - 1) / den : Nat)
    some (if negative then -n else n)
  | _ => none

end Binary64

end SnippetRunner
