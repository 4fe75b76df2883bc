import BroadcastIntake.Number.Binary64

/-!
# Numbers as text

Two ways of writing a number of double precision.

* The *shortest* form has the fewest significant digits that read back to the same number, and of
  several such forms the nearest.  It is positional for decimal exponents from `-4` to `15` and
  always has a fraction or an exponent, so that it is never mistaken for a whole number.
* The *fixed* form has a given number of places after the point and rounds the exact value, a half
  going to the even neighbour.
-/

namespace BroadcastIntake

/-- The decimal digits of a natural number. -/
def natDigits (n : Nat) : List Char :=
  Nat.toDigits 10 n

/-- The decimal text of a whole number. -/
def intText (i : Int) : String :=
  String.ofList (if i < 0 then '-' :: natDigits i.natAbs else natDigits i.natAbs)

/-- The decimal text of a whole number, filled up with zeros to at least `width` characters, the
sign among them. -/
def paddedInt (width : Nat) (i : Int) : String :=
  let digits := natDigits i.natAbs
  let sign : List Char := if i < 0 then ['-'] else []
  String.ofList (sign ++ List.replicate (width - sign.length - digits.length) '0' ++ digits)

namespace Binary64

/-- A positive decimal: `digits · 10 ^ exponent`. -/
structure Decimal where
  digits : Nat
  exponent : Int
  deriving DecidableEq, Repr

/-- The exponent of the first significant digit of `quanta` quanta: the largest `k` with
`10 ^ k ≤ quanta · 2⁻¹⁰⁷⁴`, found from the number of binary digits. -/
def leadingExponent (quanta : Nat) : Int :=
  let guess : Int := ((quanta.log2 : Int) - 1074) * 30103 / 100000
  let reaches (k : Int) : Bool :=
    if 0 ≤ k then Nat.pow 10 k.toNat * quantaPerOne ≤ quanta
    else quantaPerOne ≤ quanta * Nat.pow 10 (-k).toNat
  if reaches (guess + 1) then guess + 1
  else if reaches guess then guess
  else guess - 1

def readsBack (quanta : Nat) (d : Decimal) : Bool :=
  ofDecimal false d.digits d.exponent == finite false quanta

/-- The nearest decimal with `count` significant digits that reads back as `quanta` quanta, whose
first significant digit has the exponent `leading`. -/
def nearestDecimal? (quanta : Nat) (leading : Int) (count : Nat) : Option Decimal :=
  let exponent := leading - count + 1
  let (num, den) :=
    if 0 ≤ exponent then (quanta, quantaPerOne * Nat.pow 10 exponent.toNat)
    else (quanta * Nat.pow 10 (-exponent).toNat, quantaPerOne)
  let below : Decimal := ⟨num / den, exponent⟩
  let above : Decimal := ⟨num / den + 1, exponent⟩
  let nearest := divideToNearest num den
  let (first, second) := if nearest = below.digits then (below, above) else (above, below)
  if readsBack quanta first then some first
  else if readsBack quanta second then some second
  else none

/-- The exact decimal expansion of `quanta` quanta. -/
def exactDecimal (quanta : Nat) : Decimal :=
  ⟨quanta * Nat.pow 5 1074, -1074⟩

/-- The decimal with the fewest significant digits that reads back as `quanta` quanta. -/
def shortestDecimal (quanta : Nat) : Decimal :=
  let leading := leadingExponent quanta
  ((List.range 17).findSome? fun n => nearestDecimal? quanta leading (n + 1)).getD
    (exactDecimal quanta)

/-- The digits of an exponent, at least two. -/
def exponentDigits (n : Nat) : List Char :=
  if n < 10 then '0' :: natDigits n else natDigits n

/-- The text of a positive decimal: positional when the first digit's exponent lies between `-4`
and `15`, with an exponent otherwise. -/
def Decimal.chars (d : Decimal) : List Char :=
  let all := natDigits d.digits
  let leading : Int := d.exponent + all.length - 1
  let digits := (all.reverse.dropWhile (· = '0')).reverse
  if leading < -4 || 16 ≤ leading then
    let mantissa :=
      match digits with
      | [] => ['0']
      | [c] => [c]
      | c :: rest => c :: '.' :: rest
    mantissa ++ 'e' :: (if leading < 0 then '-' else '+') :: exponentDigits leading.natAbs
  else if leading < 0 then
    '0' :: '.' :: List.replicate (leading.natAbs - 1) '0' ++ digits
  else
    let whole := leading.toNat + 1
    if digits.length ≤ whole then
      digits ++ List.replicate (whole - digits.length) '0' ++ ['.', '0']
    else
      digits.take whole ++ '.' :: digits.drop whole

/-- The shortest text of a number that reads back to it. -/
def text : Binary64 → String
  | nan => "nan"
  | infinity negative => if negative then "-inf" else "inf"
  | finite negative quanta =>
    let digits := if quanta = 0 then ['0', '.', '0'] else (shortestDecimal quanta).chars
    String.ofList (if negative then '-' :: digits else digits)

/-- A natural number of units of `10 ^ -places`, with the point put in. -/
def withPoint (places n : Nat) : List Char :=
  let digits := natDigits n
  let filled := List.replicate (places + 1 - digits.length) '0' ++ digits
  let whole := filled.length - places
  filled.take whole ++ '.' :: filled.drop whole

/-- The text of a number with a given positive number of places after the point. -/
def fixedText (places : Nat) : Binary64 → String
  | nan => "nan"
  | infinity negative => if negative then "-inf" else "inf"
  | finite negative quanta =>
    let digits := withPoint places (divideToNearest (quanta * Nat.pow 10 places) quantaPerOne)
    String.ofList (if negative then '-' :: digits else digits)

end Binary64

end BroadcastIntake
