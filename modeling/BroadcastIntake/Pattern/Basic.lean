import BroadcastIntake.Pattern.Token
import BroadcastIntake.Log
import BroadcastIntake.Path

/-!
# File name patterns

A pattern such as `News_{YYYY}_{MM}_{DD}` matches a file name that can be cut into consecutive
segments, one for each token: a literal's segment is its text and a placeholder's segment one of
its words.  One newline at the very end of the name may be left over.  Letter case is ignored in
literals when the pattern has a day of the week, and respected otherwise.

Of several ways to cut, the matcher finds the first in order of preference: earlier tokens come
first, and each prefers its words in the order of `Placeholder.wordLengths`.
-/

namespace BroadcastIntake

/-- An accepted pattern. -/
structure Pattern where
  source : String
  tokens : List Token
  deriving DecidableEq, Repr, Inhabited

namespace Pattern

def placeholders (p : Pattern) : List Placeholder :=
  p.tokens.filterMap Token.placeholder?

/-- Whether letter case is ignored: exactly when the pattern has a day of the week. -/
def ignoresCase (p : Pattern) : Bool :=
  p.placeholders.contains .weekday

/-- Whether a token is a literal that holds a wildcard. -/
def hasWildcard : Token → Bool
  | .literal cs => cs.contains '*'
  | .field _ _ => false

/-- Accepts a pattern when all its brace groups call placeholders and no literal holds a
wildcard. -/
def compile (source : String) : Except PatternError Pattern :=
  match tokenize source with
  | .error e => .error e
  | .ok tokens =>
    if tokens.any hasWildcard then .error ⟨source, .wildcard⟩ else .ok ⟨source, tokens⟩

/-! ## The written regular expression -/

/-- The characters with a meaning of their own in a regular expression. -/
def specialChars : List Char :=
  "()[]\x7b\x7d?*+-|^$\\.&~# \t\n\r\x0b\x0c".toList

/-- A literal as a regular expression. -/
def escapeLiteral (cs : List Char) : List Char :=
  cs.flatMap fun c => if specialChars.contains c then ['\\', c] else [c]

def tokenExpression : Token → String
  | .literal cs => String.ofList (escapeLiteral cs)
  | .field _ p => p.fragment

def expression (p : Pattern) : String :=
  "^" ++ String.join (p.tokens.map tokenExpression) ++ "$"

/-! ## Matching -/

/-- The lengths of the segments that a token may have at the start of `cs`, the preferred one
first. -/
def segmentLengths (ignoreCase : Bool) (cs : List Char) : Token → List Nat
  | .literal l =>
    let segment := cs.take l.length
    if (if ignoreCase then Text.sameLetters l segment else l == segment) then [l.length] else []
  | .field _ p => p.wordLengths cs

/-- The preferred way to cut the characters into one segment for each token, a single newline at
the end being left over if need be. -/
def segments? (ignoreCase : Bool) : List Token → List Char → Option (List (List Char))
  | [], cs => if cs = [] || cs = ['\n'] then some [] else none
  | t :: rest, cs =>
    (segmentLengths ignoreCase cs t).findSome? fun n =>
      (segments? ignoreCase rest (cs.drop n)).map (cs.take n :: ·)

/-- The segments of a file name, one for each token of the pattern. -/
def match? (p : Pattern) (name : String) : Option (List (List Char)) :=
  segments? p.ignoresCase p.tokens name.toList

def isMatch (p : Pattern) (name : String) : Bool :=
  (p.match? name).isSome

/-- Whether a pattern matches a file name or the name without its suffix. -/
def selects (p : Pattern) (filename : String) : Bool :=
  p.isMatch filename || p.isMatch (Path.ofString filename).stem

def logger : String := "radio_ingest.patterns"

/-- Whether a pattern selects a file name, told as it is found. -/
def select (p : Pattern) (filename : String) : Logged Bool := do
  if p.selects filename then
    Logged.tell .debug logger s!"File \"{filename}\" matches pattern \"{p.source}\""
    return true
  else
    Logged.tell .debug logger
      (s!"File \"{filename}\" does NOT match pattern \"{p.source}\" " ++
        s!"(regex: {p.expression})")
    return false

/-- Whether the pattern with the given text selects a file name.  A text that is not accepted as a
pattern selects nothing. -/
def selectSource (filename source : String) : Logged Bool :=
  match compile source with
  | .error e => do
    Logged.tell .error logger e.message
    return false
  | .ok p => p.select filename

end Pattern

end BroadcastIntake
