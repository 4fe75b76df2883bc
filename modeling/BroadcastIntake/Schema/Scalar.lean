import BroadcastIntake.Schema.Checked
import BroadcastIntake.Number.Reading
import BroadcastIntake.Path

/-!
# Checking single values

Values are taken leniently where nothing is lost: a number may be written as a text, a whole
number as a number without fraction, and a flag as one of a few words.  Texts have to be texts.
-/

namespace BroadcastIntake

namespace Scalar

/-! ## Numbers in texts -/

def isPlainDigit (c : Char) : Bool :=
  '0' ≤ c && c ≤ '9'

/-- Whether underscores stand at an end of the characters or next to each other. -/
def hasStrayUnderscore (cs : List Char) : Bool :=
  cs.head? = some '_' || cs.getLast? = some '_' ||
    (cs.zip (cs.drop 1)).any fun (a, b) => a = '_' && b = '_'

/-- The characters without underscores; none when an underscore is out of place. -/
def dropUnderscores? (cs : List Char) : Option (List Char) :=
  if hasStrayUnderscore cs then none else some (cs.filter (· ≠ '_'))

/-- The whole number in a text: an optional sign, digits, and perhaps a point and zeros. -/
def wholeOfText? (s : String) : Option Int := do
  let body := Text.Chars.trim Text.isMargin s.toList
  let (negative, digits) := Text.scanSign body
  let whole := digits.takeWhile (· ≠ '.')
  let fraction := (digits.dropWhile (· ≠ '.')).drop 1
  let plain ← dropUnderscores? whole
  if plain.isEmpty || !plain.all isPlainDigit || !fraction.all (· = '0') then none
  else
    let size : Int := Text.digitsValue plain
    return if negative then -size else size

/-- A number written in ASCII without blanks and underscores. -/
def plainNumber? (cs : List Char) : Option Binary64 :=
  if cs.contains '_' || !cs.all (·.toNat < 0x80) then none
  else if cs.any Text.isBlank then none
  else (readBinary64 (String.ofList cs)).toOption

def numberOfText? (s : String) : Option Binary64 :=
  match plainNumber? (Text.Chars.trim Text.isMargin s.toList) with
  | some x => some x
  | none => (dropUnderscores? s.toList).bind plainNumber?

/-- The words that stand for a flag that is set. -/
def yesWords : List String := ["1", "on", "t", "true", "y", "yes"]

/-- The words that stand for a flag that is not set. -/
def noWords : List String := ["0", "off", "f", "false", "n", "no"]

def flagOfText? (s : String) : Option Bool :=
  let word := String.ofList (s.toList.map Text.asciiLower)
  if yesWords.contains word then some true
  else if noWords.contains word then some false
  else none

/-! ## Checks -/

def text : Json → Checked String
  | .str s => .valid s
  | _ => .issue .notText

def whole : Json → Checked Int
  | .int i => .valid i
  | .bool b => .valid (if b then 1 else 0)
  | .float x =>
    if !x.isFinite then .issue .notFinite
    else if !x.isWhole then .issue .hasFraction
    else if x.truncate.natAbs < Nat.pow 2 63 then .valid x.truncate
    else .issue .wholeTooLarge
  | .str s =>
    match wholeOfText? s with
    | some i => .valid i
    | none => .issue .unreadableWhole
  | _ => .issue .notWhole

def number : Json → Checked Binary64
  | .float x => .valid x
  | .int i =>
    match Binary64.ofInt? i with
    | some x => .valid x
    | none => .issue .notNumber
  | .bool b => .valid (if b then 1 else 0)
  | .str s =>
    match numberOfText? s with
    | some x => .valid x
    | none => .issue .unreadableNumber
  | _ => .issue .notNumber

def flag : Json → Checked Bool
  | .bool b => .valid b
  | .int 0 => .valid false
  | .int 1 => .valid true
  | .int _ => .issue .unreadableFlag
  | .float x =>
    if x.eqv 0 then .valid false
    else if x.eqv 1 then .valid true
    else if x.isWhole then .issue .unreadableFlag
    else .issue .notFlag
  | .str s =>
    match flagOfText? s with
    | some b => .valid b
    | none => .issue .unreadableFlag
  | _ => .issue .notFlag

/-- A path, written as a text. -/
def path : Json → Checked Path
  | .str s => .valid (Path.ofString s)
  | _ => .issue .notPath

/-- A value that may be absent. -/
def orNull {α : Type} (check : Json → Checked α) : Json → Checked (Option α)
  | .null => .valid none
  | value => some <$> check value

def list {α : Type} (check : Json → Checked α) : Json → Checked (List α)
  | .list items => Checked.items check 0 items
  | _ => .issue .notList

def mapping {α : Type} (check : Json → Checked α) : Json → Checked (List (String × α))
  | .object members => Checked.values check members
  | _ => .issue .notMapping

def numberAtLeast (bound : Binary64) (value : Json) : Checked Binary64 :=
  (number value).andThen fun x => if bound ≤ x then .valid x else .issue .notAtLeast

def numberAbove (bound : Binary64) (value : Json) : Checked Binary64 :=
  (number value).andThen fun x => if bound < x then .valid x else .issue .notAbove

def wholeAtLeast (bound : Int) (value : Json) : Checked Int :=
  (whole value).andThen fun i => if bound ≤ i then .valid i else .issue .notAtLeast

/-- A whole number between two bounds. -/
def wholeBetween (low high : Int) (value : Json) : Checked Int :=
  (whole value).andThen fun i =>
    if i < low then .issue .notAtLeast else if high < i then .issue .notAtMost else .valid i

end Scalar

end BroadcastIntake
