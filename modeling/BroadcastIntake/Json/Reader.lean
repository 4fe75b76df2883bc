import BroadcastIntake.Json.Basic
import BroadcastIntake.Number.Reading

/-!
# Reading JSON

Reads a JSON text into a value.  Beyond the standard, the words `NaN`, `Infinity` and `-Infinity`
are numbers, and a repeated key takes its last value.  A failure names its cause and the place in
the text; `JsonError.message` gives both, with the line and the column of the place.

The reader works on the list of characters that are left.  A failure keeps the characters from its
place on, so the place is the length of the text less the length of what was left there.
-/

namespace BroadcastIntake

/-- Why a text is not JSON. -/
inductive JsonFault where
  | valueExpected
  | propertyNameExpected
  | colonExpected
  | commaExpected
  | extraData
  | unterminatedString
  | invalidControlCharacter
  | invalidEscape
  | invalidUnicodeEscape
  | byteOrderMark
  /-- A whole number has more digits than are read. -/
  | tooManyDigits (count : Nat)
  /-- Arrays or objects are nested too deeply; the flag says which was opened last. -/
  | nestedTooDeeply (object : Bool)
  deriving DecidableEq, Repr

namespace JsonFault

def message : JsonFault → String
  | valueExpected => "Expecting value"
  | propertyNameExpected => "Expecting property name enclosed in double quotes"
  | colonExpected => "Expecting ':' delimiter"
  | commaExpected => "Expecting ',' delimiter"
  | extraData => "Extra data"
  | unterminatedString => "Unterminated string starting at"
  | invalidControlCharacter => "Invalid control character at"
  | invalidEscape => "Invalid \\escape"
  | invalidUnicodeEscape => "Invalid \\uXXXX escape"
  | byteOrderMark => "Unexpected UTF-8 BOM (decode using utf-8-sig)"
  | tooManyDigits count => (NumberError.tooManyDigits count).message
  | nestedTooDeeply object =>
    "maximum recursion depth exceeded while decoding a JSON " ++
      (if object then "object" else "array") ++ " from a unicode string"

/-- Whether the fault is one of grammar, and so has a place in the text. -/
def isSyntactic : JsonFault → Bool
  | tooManyDigits _ | nestedTooDeeply _ => false
  | _ => true

end JsonFault

/-- A fault of a JSON text and its place: the number of characters before it, and the line and the
column, counted from one. -/
structure JsonError where
  fault : JsonFault
  offset : Nat
  line : Nat
  column : Nat
  deriving DecidableEq, Repr

namespace JsonError

/-- The error for a fault with `left` characters left of the text. -/
def locate (text : List Char) (fault : JsonFault) (left : Nat) : JsonError :=
  let before := text.take (text.length - left)
  { fault
    offset := before.length
    line := before.count '\n' + 1
    column := (before.reverse.takeWhile (· ≠ '\n')).length + 1 }

/-- The wording of an error; a fault of grammar names its place. -/
def message (e : JsonError) : String :=
  if e.fault.isSyntactic then
    s!"{e.fault.message}: line {e.line} column {e.column} (char {e.offset})"
  else e.fault.message

end JsonError

namespace Json

/-- A fault with the characters from its place on. -/
structure Failure where
  fault : JsonFault
  rest : List Char

/-- The white space between tokens. -/
def isSpace (c : Char) : Bool :=
  c = ' ' || c = '\t' || c = '\n' || c = '\r'

/-- The characters without the white space at their start. -/
def skipSpace (cs : List Char) : List Char :=
  cs.dropWhile isSpace

/-- The value of a hexadecimal digit. -/
def hexValue? (c : Char) : Option Nat :=
  if '0' ≤ c && c ≤ '9' then some (c.toNat - '0'.toNat)
  else if 'a' ≤ c && c ≤ 'f' then some (c.toNat - 'a'.toNat + 10)
  else if 'A' ≤ c && c ≤ 'F' then some (c.toNat - 'A'.toNat + 10)
  else none

/-- The code unit that four hexadecimal digits at the start write. -/
def hexUnit? : List Char → Option (Nat × List Char)
  | a :: b :: c :: d :: rest => do
    let a ← hexValue? a
    let b ← hexValue? b
    let c ← hexValue? c
    let d ← hexValue? d
    return (((a * 16 + b) * 16 + c) * 16 + d, rest)
  | _ => none

/-- Whether a code unit is the first half of a pair. -/
def isHighHalf (unit : Nat) : Bool :=
  0xD800 ≤ unit && unit < 0xDC00

/-- Whether a code unit is the second half of a pair. -/
def isLowHalf (unit : Nat) : Bool :=
  0xDC00 ≤ unit && unit < 0xE000

/-- The character of a code unit; half a pair on its own has none and becomes the replacement
character. -/
def unitChar (unit : Nat) : Char :=
  if isHighHalf unit || isLowHalf unit then '\uFFFD' else Char.ofNat unit

def pairChar (high low : Nat) : Char :=
  Char.ofNat (0x10000 + (high - 0xD800) * 0x400 + (low - 0xDC00))

/-- Reads the character of a `\u` escape; `cs` starts after the `u`, and `from_` at the `u`. -/
def readUnit (from_ cs : List Char) : Except Failure (Char × List Char) :=
  match hexUnit? cs with
  | none | some (_, []) => .error ⟨.invalidUnicodeEscape, from_⟩
  | some (unit, rest) =>
    if isHighHalf unit then
      match rest with
      | '\\' :: 'u' :: more =>
        if more.length ≤ 4 then .ok (unitChar unit, rest)
        else
          match hexUnit? more with
          | none => .error ⟨.invalidUnicodeEscape, 'u' :: more⟩
          | some (low, after) =>
            if isLowHalf low then .ok (pairChar unit low, after) else .ok (unitChar unit, rest)
      | _ => .ok (unitChar unit, rest)
    else .ok (unitChar unit, rest)

/-- The character that an escape of one letter stands for. -/
def shortEscape? (c : Char) : Option Char :=
  match c with
  | '"' => some '"'
  | '\\' => some '\\'
  | '/' => some '/'
  | 'b' => some '\x08'
  | 'f' => some '\x0c'
  | 'n' => some '\n'
  | 'r' => some '\r'
  | 't' => some '\t'
  | _ => none

/-- Reads the characters of a string up to its closing quote.  `from_` starts at the opening quote;
`fuel` bounds the number of characters. -/
def readChars (from_ : List Char) : Nat → List Char → Except Failure (List Char × List Char)
  | 0, _ => .error ⟨.unterminatedString, from_⟩
  | _ + 1, [] => .error ⟨.unterminatedString, from_⟩
  | fuel + 1, c :: rest =>
    if c = '"' then .ok ([], rest)
    else if c = '\\' then
      match rest with
      | [] => .error ⟨.unterminatedString, from_⟩
      | 'u' :: more => do
        let (d, after) ← readUnit rest more
        let (ds, after) ← readChars from_ fuel after
        .ok (d :: ds, after)
      | e :: more =>
        match shortEscape? e with
        | none => .error ⟨.invalidEscape, c :: rest⟩
        | some d => do
          let (ds, after) ← readChars from_ fuel more
          .ok (d :: ds, after)
    else if c.toNat ≤ 0x1F then .error ⟨.invalidControlCharacter, c :: rest⟩
    else do
      let (ds, after) ← readChars from_ fuel rest
      .ok (c :: ds, after)

/-- Reads a string whose opening quote has been passed; `from_` starts at that quote. -/
def readString (from_ cs : List Char) : Except Failure (String × List Char) := do
  let (ds, after) ← readChars from_ (cs.length + 1) cs
  .ok (String.ofList ds, after)

def isNumberDigit (c : Char) : Bool :=
  '0' ≤ c && c ≤ '9'

def spanDigits (cs : List Char) : List Char × List Char :=
  cs.span isNumberDigit

/-- The whole part at the start of a number: a zero, or digits that do not start with one. -/
def wholePart? : List Char → Option (List Char × List Char)
  | '0' :: rest => some (['0'], rest)
  | c :: rest =>
    if isNumberDigit c then
      let (ds, after) := spanDigits rest
      some (c :: ds, after)
    else none
  | [] => none

/-- The fraction at the start: a point and at least one digit, or nothing. -/
def fractionPart : List Char → List Char × List Char
  | '.' :: rest =>
    match spanDigits rest with
    | ([], _) => ([], '.' :: rest)
    | found => found
  | cs => ([], cs)

/-- The exponent at the start: an `e`, a sign and at least one digit, or nothing. -/
def exponentPart (cs : List Char) : Option Int × List Char :=
  match cs with
  | c :: rest =>
    if c = 'e' || c = 'E' then
      let (negative, rest) := Text.scanSign rest
      match spanDigits rest with
      | ([], _) => (none, cs)
      | (ds, after) =>
        let size : Int := Text.digitsValue ds
        (some (if negative then -size else size), after)
    else (none, cs)
  | [] => (none, cs)

/-- Splits off a minus; the flag says whether there is one. -/
def splitMinus : List Char → Bool × List Char
  | '-' :: rest => (true, rest)
  | cs => (false, cs)

/-- Reads a number; `cs` starts at its sign or first digit. -/
def readNumber (cs : List Char) : Except Failure (Json × List Char) :=
  let (negative, body) := splitMinus cs
  match wholePart? body with
  | none => .error ⟨.valueExpected, cs⟩
  | some (whole, rest) =>
    let (fraction, rest) := fractionPart rest
    let (exponent?, rest) := exponentPart rest
    if fraction.isEmpty && exponent?.isNone then
      if NumberError.digitLimit < whole.length then .error ⟨.tooManyDigits whole.length, cs⟩
      else
        let size : Int := Text.digitsValue whole
        .ok (.int (if negative then -size else size), rest)
    else
      .ok (.float (Binary64.ofDecimal negative (Text.digitsValue (whole ++ fraction))
        (exponent?.getD 0 - fraction.length)), rest)

/-- The words that are values, with those values. -/
def words : List (String × Json) :=
  [("null", .null), ("true", .bool true), ("false", .bool false), ("NaN", .float .nan),
   ("Infinity", .float (.infinity false)), ("-Infinity", .float (.infinity true))]

/-- The characters after `word`, when they start with it. -/
def afterWord? (word : List Char) (cs : List Char) : Option (List Char) :=
  if word.isPrefixOf cs then some (cs.drop word.length) else none

def readWord? (cs : List Char) : Option (Json × List Char) :=
  words.findSome? fun entry =>
    (afterWord? entry.1.toList cs).map fun after => (entry.2, after)

/-- Reads a value that is neither an array nor an object. -/
def readScalar (cs : List Char) : Except Failure (Json × List Char) :=
  match cs with
  | '"' :: rest => do
    let (s, after) ← readString cs rest
    .ok (.str s, after)
  | _ =>
    match readWord? cs with
    | some found => .ok found
    | none => readNumber cs

/-- Reads the items of an array after its opening bracket and white space, up to and with the
closing bracket.  `fuel` bounds the number of items. -/
def readItems (read : List Char → Except Failure (Json × List Char)) :
    Nat → List Char → Except Failure (List Json × List Char)
  | 0, cs => .error ⟨.valueExpected, cs⟩
  | fuel + 1, cs => do
    let (item, after) ← read cs
    match skipSpace after with
    | ']' :: rest => .ok ([item], rest)
    | ',' :: rest =>
      let (items, after) ← readItems read fuel (skipSpace rest)
      .ok (item :: items, after)
    | rest => .error ⟨.commaExpected, rest⟩

/-- Reads the members of an object after its opening brace and white space, up to and with the
closing brace, and adds them to `members`.  `fuel` bounds the number of members. -/
def readMembers (read : List Char → Except Failure (Json × List Char)) :
    Nat → List (String × Json) → List Char → Except Failure (List (String × Json) × List Char)
  | 0, _, cs => .error ⟨.propertyNameExpected, cs⟩
  | fuel + 1, members, cs =>
    match cs with
    | '"' :: rest => do
      let (key, after) ← readString cs rest
      match skipSpace after with
      | ':' :: rest =>
        let (value, after) ← read (skipSpace rest)
        let members := put key value members
        match skipSpace after with
        | '}' :: rest => .ok (members, rest)
        | ',' :: rest => readMembers read fuel members (skipSpace rest)
        | rest => .error ⟨.commaExpected, rest⟩
      | rest => .error ⟨.colonExpected, rest⟩
    | _ => .error ⟨.propertyNameExpected, cs⟩

/-- The deepest nesting of arrays and objects that is read. -/
def nestingLimit : Nat := 990

/-- Reads a value in which arrays and objects are nested at most `depth` deep. -/
def readValue : Nat → List Char → Except Failure (Json × List Char)
  | 0, cs =>
    match cs with
    | '[' :: _ => .error ⟨.nestedTooDeeply false, cs⟩
    | '\x7b' :: _ => .error ⟨.nestedTooDeeply true, cs⟩
    | _ => readScalar cs
  | depth + 1, cs =>
    match cs with
    | '[' :: rest =>
      match skipSpace rest with
      | ']' :: after => .ok (.list [], after)
      | inside => do
        let (items, after) ← readItems (readValue depth) (inside.length + 1) inside
        .ok (.list items, after)
    | '\x7b' :: rest =>
      match skipSpace rest with
      | '\x7d' :: after => .ok (.object [], after)
      | inside => do
        let (members, after) ← readMembers (readValue depth) (inside.length + 1) [] inside
        .ok (.object members, after)
    | _ => readScalar cs

def read (text : String) : Except JsonError Json :=
  let cs := text.toList
  match cs with
  | '\uFEFF' :: _ => .error (JsonError.locate cs .byteOrderMark cs.length)
  | _ =>
    match readValue nestingLimit (skipSpace cs) with
    | .error failure => .error (JsonError.locate cs failure.fault failure.rest.length)
    | .ok (value, after) =>
      match skipSpace after with
      | [] => .ok value
      | rest => .error (JsonError.locate cs .extraData rest.length)

end Json

end BroadcastIntake
