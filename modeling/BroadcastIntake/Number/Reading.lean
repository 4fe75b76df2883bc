import BroadcastIntake.Number.Text
import BroadcastIntake.Text.Blank
import BroadcastIntake.Text.Digit
import BroadcastIntake.Text.Quoted

/-!
# Reading numbers

Texts are read leniently as numbers: white space around the number is ignored, digits may come from
any script, and a single underscore may stand between two digits.
-/

namespace BroadcastIntake

/-- Why a text is not read as a number. -/
inductive NumberError where
  /-- The text does not write a whole number. -/
  | notWhole (text : String)
  /-- The text does not write a number. -/
  | notNumber (text : String)
  /-- The text writes a whole number with more digits than are read. -/
  | tooManyDigits (count : Nat)
  deriving DecidableEq, Repr

namespace NumberError

def digitLimit : Nat := 4300

def message : NumberError → String
  | notWhole text =>
    "invalid literal for int() with base 10: " ++
      String.ofList ((Text.quoted text).toList.take 200)
  | notNumber text => "could not convert string to float: " ++ Text.quoted text
  | tooManyDigits count =>
    s!"Exceeds the limit ({digitLimit} digits) for integer string conversion: " ++
      s!"value has {count} digits; use sys.set_int_max_str_digits() to increase the limit"

end NumberError

namespace Text

/-- The longest row of digits at the start, single underscores between digits passed over, and the
characters after it; `inside` says whether a digit stands just before. -/
def scanDigitsFrom (inside : Bool) : List Char → List Nat × List Char
  | [] => ([], [])
  | c :: rest =>
    match digitValue? c with
    | some d =>
      let (ds, after) := scanDigitsFrom true rest
      (d :: ds, after)
    | none =>
      if inside && c = '_' then
        match scanDigitsFrom false rest with
        | ([], _) => ([], c :: rest)
        | found => found
      else ([], c :: rest)

/-- The longest row of digits at the start and the characters after it. -/
def scanDigits (cs : List Char) : List Nat × List Char :=
  scanDigitsFrom false cs

/-- Splits off a sign; the flag says whether it is a minus. -/
def scanSign : List Char → Bool × List Char
  | '-' :: rest => (true, rest)
  | '+' :: rest => (false, rest)
  | cs => (false, cs)

/-- The number that a row of digit values writes in base ten. -/
def ofDigitValues (ds : List Nat) : Nat :=
  ds.foldl (fun n d => 10 * n + d) 0

/-- A letter in its ASCII small form. -/
def asciiLower (c : Char) : Char :=
  if 'A' ≤ c && c ≤ 'Z' then Char.ofNat (c.toNat + 32) else c

/-- The exponent at the start of the characters: an `e`, a sign and digits.  None when an `e`
stands there without digits. -/
def scanExponent : List Char → Option (Int × List Char)
  | [] => some (0, [])
  | c :: rest =>
    if c = 'e' || c = 'E' then
      let (negative, rest) := scanSign rest
      match scanDigits rest with
      | ([], _) => none
      | (ds, after) =>
        let size : Int := ofDigitValues ds
        some (if negative then -size else size, after)
    else some (0, c :: rest)

/-- Reads a decimal without sign: digits, a point and digits, and an exponent, with at least one
digit before or after the point, and nothing after it. -/
def readDecimal? (negative : Bool) (cs : List Char) : Option Binary64 :=
  let (whole, rest) := scanDigits cs
  let (fraction, rest) :=
    match rest with
    | '.' :: more => scanDigits more
    | _ => ([], rest)
  if whole.isEmpty && fraction.isEmpty then none
  else
    match scanExponent rest with
    | some (exponent, []) =>
      some (Binary64.ofDecimal negative (ofDigitValues (whole ++ fraction))
        (exponent - fraction.length))
    | _ => none

end Text

def readInt (s : String) : Except NumberError Int :=
  let (negative, digits) := Text.scanSign (Text.Chars.trim Text.isMargin s.toList)
  match Text.scanDigits digits with
  | ([], _) | (_, _ :: _) => .error (.notWhole s)
  | (ds, []) =>
    if NumberError.digitLimit < ds.length then .error (.tooManyDigits ds.length)
    else
      let size : Int := Text.ofDigitValues ds
      .ok (if negative then -size else size)

/-- Reads a number of double precision; the words for infinity and for no number count too, in any
case. -/
def readBinary64 (s : String) : Except NumberError Binary64 :=
  let (negative, body) := Text.scanSign (Text.Chars.trim Text.isMargin s.toList)
  let word := String.ofList (body.map Text.asciiLower)
  if word = "inf" || word = "infinity" then .ok (.infinity negative)
  else if word = "nan" then .ok .nan
  else
    match Text.readDecimal? negative body with
    | some x => .ok x
    | none => .error (.notNumber s)

end BroadcastIntake
