import BroadcastIntake.Text.CaseRun
import BroadcastIntake.Text.CaseContext

/-!
# Small and capital letters

Lowering and raising of texts, and equality of letters up to case.

Lowering maps letter by letter, with two exceptions: the dotted capital `İ` becomes an `i` and a
combining dot, and a capital sigma at the end of a word becomes the final form `ς`.  Raising may
turn one letter into several.  Equality up to case compares the small forms and, beyond that, a
few letters that have two small forms for one capital.
-/

namespace BroadcastIntake.Text

/-- The small form of a letter as a single character; every other character is its own. -/
def smallForm (c : Char) : Char :=
  Char.ofNat (CaseRun.apply smallRuns c.toNat)

def capitalForm (c : Char) : List Char :=
  match longCapitals.lookup c.toNat with
  | some codes => codes.map Char.ofNat
  | none => [Char.ofNat (CaseRun.apply capitalRuns c.toNat)]

/-- Whether the nearest character that is not passed over carries case. -/
def meetsCased (cs : List Char) : Bool :=
  match cs.dropWhile isPassedOver with
  | [] => false
  | c :: _ => isCased c

/-- The small form of one letter between the letters before it, nearest first, and after it. -/
def lowerBetween (before : List Char) (c : Char) (after : List Char) : List Char :=
  if c = 'Σ' then
    if meetsCased before && !meetsCased after then ['ς'] else ['σ']
  else if c = 'İ' then ['i', '\u0307']
  else [smallForm c]

/-- Lowers the characters `cs` that follow the characters `before`, nearest first. -/
def lowerAfter (before : List Char) : List Char → List Char
  | [] => []
  | c :: rest => lowerBetween before c rest ++ lowerAfter (c :: before) rest

/-- The characters in small letters. -/
def lowerChars (cs : List Char) : List Char :=
  lowerAfter [] cs

/-- The text in small letters. -/
def lower (s : String) : String :=
  String.ofList (lowerChars s.toList)

/-- The text in capital letters. -/
def upper (s : String) : String :=
  String.ofList (s.toList.flatMap capitalForm)

/-- The groups of small letters that count as the same letter when case is ignored. -/
def letterMates : List (List Char) :=
  [['i', 'ı'], ['s', 'ſ'], ['µ', 'μ'], ['\u0345', 'ι', '\u1FBE'], ['\u0390', '\u1FD3'],
   ['\u03B0', '\u1FE3'], ['β', 'ϐ'], ['ε', 'ϵ'], ['θ', 'ϑ'], ['κ', 'ϰ'], ['π', 'ϖ'], ['ρ', 'ϱ'],
   ['ς', 'σ'], ['φ', 'ϕ'], ['в', '\u1C80'], ['д', '\u1C81'], ['о', '\u1C82'], ['с', '\u1C83'],
   ['т', '\u1C84', '\u1C85'], ['ъ', '\u1C86'], ['ѣ', '\u1C87'], ['\u1C88', '\uA64B'],
   ['\u1E61', '\u1E9B'], ['\uFB05', '\uFB06']]

/-- Whether two characters are the same letter when case is ignored. -/
def sameLetter (a b : Char) : Bool :=
  smallForm a == smallForm b ||
    letterMates.any fun mates => mates.contains (smallForm a) && mates.contains (smallForm b)

/-- Whether two rows of characters are equal letter by letter when case is ignored. -/
def sameLetters : List Char → List Char → Bool
  | [], [] => true
  | a :: as, b :: bs => sameLetter a b && sameLetters as bs
  | _, _ => false

end BroadcastIntake.Text
