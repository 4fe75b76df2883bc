/-!
# Blank characters and trimming

A blank is a character that separates words: the white space of Unicode together with the four
information separators `U+001C` to `U+001F`.  Zero-width characters are not blank.  Trimming takes
blanks off the ends of a text and leaves the inside alone.
-/

namespace BroadcastIntake.Text

def blankCodes : List Nat :=
  [0x09, 0x0A, 0x0B, 0x0C, 0x0D, 0x1C, 0x1D, 0x1E, 0x1F, 0x20, 0x85, 0xA0, 0x1680,
   0x2000, 0x2001, 0x2002, 0x2003, 0x2004, 0x2005, 0x2006, 0x2007, 0x2008, 0x2009, 0x200A,
   0x2028, 0x2029, 0x202F, 0x205F, 0x3000]

/-- Whether a character separates words. -/
def isBlank (c : Char) : Bool :=
  blankCodes.contains c.toNat

/-- Whether a character may stand around a number in a text: a blank other than the information
separators. -/
def isMargin (c : Char) : Bool :=
  isBlank c && !(0x1C ≤ c.toNat && c.toNat ≤ 0x1F)

/-- Whether a text holds nothing but blanks. -/
def isBlankText (s : String) : Bool :=
  s.toList.all isBlank

namespace Chars

/-- The characters without those at the start that satisfy `p`. -/
def trimLeft (p : Char → Bool) (cs : List Char) : List Char :=
  cs.dropWhile p

/-- The characters without those at the end that satisfy `p`. -/
def trimRight (p : Char → Bool) (cs : List Char) : List Char :=
  (cs.reverse.dropWhile p).reverse

/-- The characters without those at either end that satisfy `p`. -/
def trim (p : Char → Bool) (cs : List Char) : List Char :=
  trimRight p (trimLeft p cs)

end Chars

/-- The text without the characters at its ends that satisfy `p`. -/
def trimBy (p : Char → Bool) (s : String) : String :=
  String.ofList (Chars.trim p s.toList)

/-- The text without the blanks at its ends. -/
def trim (s : String) : String :=
  trimBy isBlank s

/-- The text without the characters at its start that satisfy `p`. -/
def trimLeftBy (p : Char → Bool) (s : String) : String :=
  String.ofList (Chars.trimLeft p s.toList)

/-- The text without the characters at its end that satisfy `p`. -/
def trimRightBy (p : Char → Bool) (s : String) : String :=
  String.ofList (Chars.trimRight p s.toList)

/-- The last `n` characters of a text, or all of it when it is shorter. -/
def takeLast (n : Nat) (s : String) : String :=
  String.ofList (s.toList.drop (s.length - n))

/-- The pieces of a text between the occurrences of one character; there is always at least one. -/
def splitOnChar (sep : Char) (s : String) : List String :=
  (pieces s.toList).map String.ofList
where
  /-- Splits the characters, keeping the piece under construction at the head. -/
  pieces : List Char → List (List Char)
    | [] => [[]]
    | c :: rest =>
      if c = sep then [] :: pieces rest
      else
        match pieces rest with
        | [] => [[c]]
        | piece :: others => (c :: piece) :: others

end BroadcastIntake.Text
