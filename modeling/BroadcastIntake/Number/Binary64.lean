import BroadcastIntake.Number.Rounding

/-!
# Numbers of double precision

Durations, trim points and levels are numbers with 53 significant bits.  Every finite one is a
whole multiple of the smallest, the quantum `2⁻¹⁰⁷⁴`; so a finite number is kept as a sign and a
count of quanta, and its arithmetic is exact arithmetic on whole numbers followed by one rounding
to 53 significant bits.  The sign is kept apart because zero has one too.
-/

namespace BroadcastIntake

/-- A number of double precision: no number at all, an infinity, or a signed count of quanta. -/
inductive Binary64 where
  | nan
  | infinity (negative : Bool)
  | finite (negative : Bool) (quanta : Nat)
  deriving DecidableEq, Repr, Inhabited

namespace Binary64

/-- The number of quanta in one. -/
def quantaPerOne : Nat := Nat.pow 2 1074

/-- The first count of quanta that is too large for a finite number. -/
def overflowQuanta : Nat := Nat.pow 2 (1024 + 1074)

/-- The count of quanta with 53 significant bits that is nearest to `num / den` quanta. -/
def fitQuanta (num den : Nat) : Nat :=
  let whole := num / den
  if whole < Nat.pow 2 53 then divideToNearest num den
  else
    let spacing := Nat.pow 2 (whole.log2 - 52)
    divideToNearest num (den * spacing) * spacing

/-- The number with the given sign and count of quanta, infinite when the count is too large. -/
def ofQuanta (negative : Bool) (quanta : Nat) : Binary64 :=
  if overflowQuanta ≤ quanta then infinity negative else finite negative quanta

/-- The number nearest to `num / den`, with the given sign. -/
def ofRatio (negative : Bool) (num den : Nat) : Binary64 :=
  ofQuanta negative (fitQuanta (num * quantaPerOne) den)

/-- Zero, without a sign. -/
def zero : Binary64 := finite false 0

/-- The number nearest to a whole number; none when that is beyond the finite numbers. -/
def ofInt? (i : Int) : Option Binary64 :=
  match ofRatio (i < 0) i.natAbs 1 with
  | finite negative quanta => some (finite negative quanta)
  | _ => none

/-- The number nearest to `digits · 10 ^ exponent`.  Exponents so large or small that the answer
is an infinity or zero whatever the digits are cut off first. -/
def ofDecimal (negative : Bool) (digits : Nat) (exponent : Int) : Binary64 :=
  if digits = 0 then finite negative 0
  else
    let magnitude : Int := (Nat.toDigits 10 digits).length + exponent
    if 400 < magnitude then infinity negative
    else if magnitude < -400 then finite negative 0
    else if 0 ≤ exponent then ofRatio negative (digits * Nat.pow 10 exponent.toNat) 1
    else ofRatio negative digits (Nat.pow 10 (-exponent).toNat)

/-- The signed count of quanta of a finite number, and zero for the others. -/
def signedQuanta : Binary64 → Int
  | finite true quanta => -(quanta : Int)
  | finite false quanta => quanta
  | _ => 0

def isFinite : Binary64 → Bool
  | finite _ _ => true
  | _ => false

/-- Whether a number is zero of either sign. -/
def isZero : Binary64 → Bool
  | finite _ 0 => true
  | _ => false

/-- Whether a number is finite and has no fraction. -/
def isWhole : Binary64 → Bool
  | finite _ quanta => quanta % quantaPerOne == 0
  | _ => false

/-- A finite number without its fraction, and zero for the others. -/
def truncate (x : Binary64) : Int :=
  x.signedQuanta.tdiv quantaPerOne

/-- Whether one number is smaller than another; never when either is no number. -/
def lt : Binary64 → Binary64 → Bool
  | nan, _ | _, nan => false
  | infinity a, infinity b => a && !b
  | infinity a, finite _ _ => a
  | finite _ _, infinity b => !b
  | x@(finite _ _), y@(finite _ _) => x.signedQuanta < y.signedQuanta

/-- Whether two numbers are equal in value: the two zeros are, and no number equals `nan`. -/
def eqv : Binary64 → Binary64 → Bool
  | nan, _ | _, nan => false
  | infinity a, infinity b => a == b
  | x@(finite _ _), y@(finite _ _) => x.signedQuanta == y.signedQuanta
  | _, _ => false

/-- Whether one number is at most another; never when either is no number. -/
def le (x y : Binary64) : Bool :=
  lt x y || eqv x y

/-- The larger of two numbers; the first unless the second is larger. -/
def max (x y : Binary64) : Binary64 :=
  if lt x y then y else x

/-- The smaller of two numbers; the first unless the second is smaller. -/
def min (x y : Binary64) : Binary64 :=
  if lt y x then y else x

/-- The difference of two numbers, rounded once. -/
def sub : Binary64 → Binary64 → Binary64
  | nan, _ | _, nan => nan
  | infinity a, infinity b => if a = b then nan else infinity a
  | infinity a, finite _ _ => infinity a
  | finite _ _, infinity b => infinity !b
  | finite a p, finite b q =>
    let difference := signedQuanta (finite a p) - signedQuanta (finite b q)
    if difference = 0 then finite (a && !b && p == 0) 0
    else ofQuanta (difference < 0) (fitQuanta difference.natAbs 1)

/-- A number divided by a positive whole number, rounded once. -/
def divNat : Binary64 → Nat → Binary64
  | nan, _ => nan
  | infinity negative, _ => infinity negative
  | finite negative quanta, n => ofQuanta negative (fitQuanta quanta n)

instance : LT Binary64 := ⟨fun x y => lt x y = true⟩

instance : LE Binary64 := ⟨fun x y => le x y = true⟩

instance : Sub Binary64 := ⟨sub⟩

instance (n : Nat) : OfNat Binary64 n := ⟨ofRatio false n 1⟩

instance : OfScientific Binary64 :=
  ⟨fun mantissa negativeExponent exponent =>
    ofDecimal false mantissa (if negativeExponent then -(exponent : Int) else exponent)⟩

instance (x y : Binary64) : Decidable (x < y) := inferInstanceAs (Decidable (lt x y = true))

instance (x y : Binary64) : Decidable (x ≤ y) := inferInstanceAs (Decidable (le x y = true))

end Binary64

end BroadcastIntake
