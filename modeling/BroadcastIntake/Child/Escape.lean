import BroadcastIntake.Number.Reading
import BroadcastIntake.Number.Text

/-!
# Escapes and formats

How small programs read backslashes in their words, and how a format with conversions is filled
with words.  A format is used again and again until no word is left.
-/

namespace BroadcastIntake

namespace Child

def bytesOf (cs : List Char) : List UInt8 :=
  (String.ofList cs).toUTF8.toList

/-! ## Backslashes -/

/-- Which escapes there are. -/
structure EscapeDialect where
  /-- A zero in front of octal digits is not one of them. -/
  skipsZero : Bool
  /-- There are escapes in hexadecimal digits. -/
  hasHex : Bool
  deriving DecidableEq, Repr

/-- Where in an escape the reading is. -/
inductive EscapeState where
  | plain
  | escaped
  /-- After digits in the given base, with their value and how many more there may be. -/
  | digits (base value left : Nat)
  /-- After the escape that ends everything. -/
  | stopped
  deriving DecidableEq, Repr

/-- The byte for a letter after a backslash. -/
def escapeByte? (c : Char) : Option UInt8 :=
  [('a', 7), ('b', 8), ('f', 12), ('n', 10), ('r', 13), ('t', 9), ('v', 11), ('\\', 92)].lookup c

def digitIn? (base : Nat) (c : Char) : Option Nat :=
  let value? :=
    if c.isDigit then some (c.toNat - '0'.toNat)
    else if 'a' ≤ c && c ≤ 'f' then some (c.toNat - 'a'.toNat + 10)
    else if 'A' ≤ c && c ≤ 'F' then some (c.toNat - 'A'.toNat + 10)
    else none
  value?.filter (· < base)

def plainStep (c : Char) : List UInt8 × EscapeState :=
  if c = '\\' then ([], .escaped) else (bytesOf [c], .plain)

def escapedStep (dialect : EscapeDialect) (c : Char) : List UInt8 × EscapeState :=
  match escapeByte? c, digitIn? 8 c with
  | some byte, _ => ([byte], .plain)
  | none, some digit =>
    ([], .digits 8 digit (if dialect.skipsZero && digit = 0 then 3 else 2))
  | none, none =>
    if c = 'c' then ([], .stopped)
    else if dialect.hasHex && c = 'x' then ([], .digits 16 0 2)
    else (bytesOf ['\\', c], .plain)

/-- One more character: the bytes that it gives, and where the reading is then. -/
def escapeStep (dialect : EscapeDialect) (state : EscapeState) (c : Char) :
    List UInt8 × EscapeState :=
  match state with
  | .stopped => ([], .stopped)
  | .plain => plainStep c
  | .escaped => escapedStep dialect c
  | .digits base value left =>
    match digitIn? base c, left with
    | some digit, left + 1 => ([], .digits base (base * value + digit) left)
    | _, _ =>
      let (bytes, state) := plainStep c
      (UInt8.ofNat value :: bytes, state)

/-- The bytes at the end of the characters. -/
def escapeEnd : EscapeState → List UInt8
  | .plain | .stopped => []
  | .escaped => bytesOf ['\\']
  | .digits _ value _ => [UInt8.ofNat value]

/-- The bytes of characters with escapes, and whether everything ends with them. -/
def unescapeFrom (dialect : EscapeDialect) (state : EscapeState) :
    List Char → List UInt8 × Bool
  | [] => (escapeEnd state, state = .stopped)
  | c :: rest =>
    let (bytes, state) := escapeStep dialect state c
    let (more, stops) := unescapeFrom dialect state rest
    (bytes ++ more, stops)

/-- The bytes of characters with escapes, and whether everything ends with them. -/
def unescape (dialect : EscapeDialect) (cs : List Char) : List UInt8 × Bool :=
  unescapeFrom dialect .plain cs

/-! ## Formats -/

/-- A conversion in a format. -/
structure Conversion where
  isLeft : Bool
  /-- The character with which it is filled up on the left. -/
  fill : Char
  width : Nat
  precision : Option Nat
  kind : Char
  deriving DecidableEq, Repr

/-- A piece of a format. -/
inductive FormatPiece where
  | literal (cs : List Char)
  | conversion (c : Conversion)
  deriving DecidableEq, Repr

/-- The precision at the start of the characters, and what follows it. -/
def readPrecision : List Char → Option Nat × List Char
  | '.' :: rest =>
    (some (Text.digitsValue (rest.takeWhile Char.isDigit)), rest.dropWhile Char.isDigit)
  | cs => (none, cs)

/-- The conversion at the start of the characters after a percent sign, and what follows it. -/
def readConversion? (cs : List Char) : Option (FormatPiece × List Char) :=
  let isFlag (c : Char) : Bool := c = '-' || c = '0'
  let flags := cs.takeWhile isFlag
  let afterFlags := cs.dropWhile isFlag
  let digits := afterFlags.takeWhile Char.isDigit
  let (precision, rest) := readPrecision (afterFlags.dropWhile Char.isDigit)
  match rest with
  | [] => none
  | kind :: rest =>
    let isLeft := flags.contains '-'
    let fill := if flags.contains '0' && !isLeft then '0' else ' '
    some (.conversion ⟨isLeft, fill, Text.digitsValue digits, precision, kind⟩, rest)

/-- The pieces of a format of at most `n` characters. -/
def readFormat : Nat → List Char → List FormatPiece
  | 0, _ | _, [] => []
  | n + 1, '%' :: rest =>
    match rest with
    | '%' :: rest => .literal ['%'] :: readFormat n rest
    | rest =>
      match readConversion? rest with
      | some (piece, left) => piece :: readFormat n left
      | none => [.literal ('%' :: rest)]
  | n + 1, c :: rest =>
    let literal := (c :: rest).takeWhile (· ≠ '%')
    .literal literal :: readFormat n ((c :: rest).dropWhile (· ≠ '%'))

def fillUp (isLeft : Bool) (fill : Char) (width : Nat) (bytes : List UInt8) : List UInt8 :=
  let filling := bytesOf (List.replicate (width - bytes.length) fill)
  if isLeft then bytes ++ filling
  else
    match fill, bytes with
    | '0', 45 :: digits => 45 :: filling ++ digits
    | _, _ => filling ++ bytes

/-- The number that digits in a base write, when there is one or more. -/
def numberIn? (base : Nat) (cs : List Char) : Option Nat :=
  if cs.isEmpty then none
  else (cs.mapM (digitIn? base)).map fun ds => ds.foldl (fun n d => base * n + d) 0

/-- The whole number that a word writes: with a zero in front it is octal, with `0x` hexadecimal. -/
def formatNumber? (word : String) : Option Int :=
  let (negative, digits) := Text.scanSign (word.toList.dropWhile (· = ' '))
  let size? :=
    match digits with
    | '0' :: 'x' :: rest => numberIn? 16 rest
    | '0' :: rest => if rest.isEmpty then some 0 else numberIn? 8 rest
    | digits => numberIn? 10 digits
  size?.map fun size => if negative then -(size : Int) else size

/-- A number in a base that is written with small letters. -/
def textInBase (base n : Nat) : String :=
  String.ofList (Nat.toDigits base n)

/-- The text of a whole number by the kind of its conversion. -/
def numberText (kind : Char) (n : Int) : String :=
  let word := (n % Nat.pow 2 64).toNat
  match kind with
  | 'x' => textInBase 16 word
  | 'X' => (textInBase 16 word).toUpper
  | 'o' => textInBase 8 word
  | _ => intText n

/-- A word by its conversion: its bytes, whether everything ends with them, and whether the word is
not the number that it should be. -/
def convert (hasHex : Bool) (c : Conversion) (word : Option String) :
    List UInt8 × Bool × Bool :=
  let text := word.getD ""
  let cut (cs : List Char) : List Char :=
    match c.precision with
    | some n => cs.take n
    | none => cs
  match c.kind with
  | 'b' =>
    let (bytes, stops) := unescape ⟨true, hasHex⟩ text.toList
    (bytes, stops, false)
  | 'c' => (bytesOf (text.toList.take 1), false, false)
  | 'd' | 'i' | 'u' | 'x' | 'X' | 'o' =>
    let number? := if word = none then some 0 else formatNumber? text
    (bytesOf (numberText c.kind (number?.getD 0)).toList, false, number?.isNone)
  | 'f' =>
    let number? := if word = none then some Binary64.zero else (readBinary64 text).toOption
    (bytesOf ((number?.getD .zero).fixedText (c.precision.getD 6)).toList, false, number?.isNone)
  | _ => (bytesOf (cut text.toList), false, false)

/-- What comes of filling a format: its bytes, the words that are left, the words that are not the
numbers that they should be, and whether everything ends here. -/
structure Filling where
  bytes : List UInt8
  left : List String
  wrong : List String
  stops : Bool

def fillOnce (hasHex : Bool) : List FormatPiece → List String → Filling
  | [], words => ⟨[], words, [], false⟩
  | .literal cs :: rest, words =>
    let (bytes, stops) := unescape ⟨false, hasHex⟩ cs
    if stops then ⟨bytes, words, [], true⟩
    else
      let more := fillOnce hasHex rest words
      { more with bytes := bytes ++ more.bytes }
  | .conversion c :: rest, words =>
    let (bytes, stops, isWrong) := convert hasHex c words.head?
    let filled := fillUp c.isLeft c.fill c.width bytes
    let wrong := if isWrong then [words.headD ""] else []
    if stops then ⟨filled, words.tail, wrong, true⟩
    else
      let more := fillOnce hasHex rest words.tail
      { more with bytes := filled ++ more.bytes, wrong := wrong ++ more.wrong }

/-- A format filled with words, at most `n` times more: its bytes and the words that are not the
numbers that they should be. -/
def fillAgain (hasHex : Bool) (pieces : List FormatPiece) :
    Nat → List String → List UInt8 × List String
  | 0, _ => ([], [])
  | n + 1, words =>
    let filling := fillOnce hasHex pieces words
    if filling.stops || filling.left.isEmpty || filling.left.length = words.length then
      (filling.bytes, filling.wrong)
    else
      let (bytes, wrong) := fillAgain hasHex pieces n filling.left
      (filling.bytes ++ bytes, filling.wrong ++ wrong)

/-- A format filled with words: its bytes and the words that are not the numbers that they should
be. -/
def fillFormat (hasHex : Bool) (format : String) (words : List String) :
    List UInt8 × List String :=
  fillAgain hasHex (readFormat format.length format.toList) (words.length + 1) words

end Child

end BroadcastIntake
