import BroadcastIntake.Child.Script
import BroadcastIntake.Text.Digit

/-!
# Arithmetic in scripts

The value of an expression over whole numbers: the usual operations, comparisons, which give one or
zero, and names, which stand for their values.  An operation binds more loosely the lower its level
is, and operations of one level are taken from the left.
-/

namespace BroadcastIntake

namespace Child

namespace Arithmetic

/-- A token of an expression. -/
inductive Token where
  | number (value : Nat)
  | name (name : String)
  | mark (cs : List Char)
  deriving DecidableEq, Repr

/-- Why an expression has no value. -/
inductive Fault where
  | divisionByZero
  | malformed
  deriving DecidableEq, Repr

def doubleMarks : List (List Char) :=
  ["||", "&&", "==", "!=", "<=", ">="].map String.toList

/-- The tokens of at most `n` characters. -/
def readTokens : Nat → List Char → List Token
  | 0, _ | _, [] => []
  | n + 1, c :: rest =>
    let cs := c :: rest
    if [' ', '\t', '\n', '$'].contains c then readTokens n rest
    else if c.isDigit then
      .number (Text.digitsValue (cs.takeWhile Char.isDigit)) ::
        readTokens n (cs.dropWhile Char.isDigit)
    else if isNameChar c then
      .name (String.ofList (cs.takeWhile isNameChar)) :: readTokens n (cs.dropWhile isNameChar)
    else if doubleMarks.contains (cs.take 2) then .mark (cs.take 2) :: readTokens n (cs.drop 2)
    else .mark [c] :: readTokens n rest

/-- The number for a truth value. -/
def ofTruth (b : Bool) : Int :=
  if b then 1 else 0

/-- The operations between two values by level, the loosest first. -/
def levels : List (List (String × (Int → Int → Int))) :=
  [[("||", fun a b => ofTruth (a ≠ 0 || b ≠ 0))],
   [("&&", fun a b => ofTruth (a ≠ 0 && b ≠ 0))],
   [("==", fun a b => ofTruth (a = b)), ("!=", fun a b => ofTruth (a ≠ b))],
   [("<", fun a b => ofTruth (a < b)), ("<=", fun a b => ofTruth (a ≤ b)),
    (">", fun a b => ofTruth (b < a)), (">=", fun a b => ofTruth (b ≤ a))],
   [("+", (· + ·)), ("-", (· - ·))],
   [("*", (· * ·)), ("/", Int.tdiv), ("%", Int.tmod)]]

def operation? (level : List (String × (Int → Int → Int))) (mark : List Char) :
    Option (Int → Int → Int) :=
  level.lookup (String.ofList mark)

/-- The value of two values with a mark between them. -/
def combine (mark : List Char) (f : Int → Int → Int) (a b : Int) : Except Fault Int :=
  if b = 0 && (mark = ['/'] || mark = ['%']) then .error .divisionByZero else .ok (f a b)

mutual

/-- The value at the start of tokens that operations of the given levels make. -/
def readLevels (value : String → Int) :
    Nat → List (List (String × (Int → Int → Int))) → List Token → Except Fault (Int × List Token)
  | 0, _, _ => .error .malformed
  | n + 1, [], tokens => readOperand value n tokens
  | n + 1, level :: tighter, tokens => do
    let (first, left) ← readLevels value n tighter tokens
    readMore value n level tighter first left

/-- The value of operations of one level that follow a value. -/
def readMore (value : String → Int) :
    Nat → List (String × (Int → Int → Int)) → List (List (String × (Int → Int → Int))) → Int →
      List Token → Except Fault (Int × List Token)
  | 0, _, _, _, _ => .error .malformed
  | n + 1, level, tighter, first, tokens =>
    match tokens with
    | .mark mark :: rest =>
      match operation? level mark with
      | none => .ok (first, tokens)
      | some f => do
        let (second, left) ← readLevels value n tighter rest
        readMore value n level tighter (← combine mark f first second) left
    | tokens => .ok (first, tokens)

/-- The value of a number, a name, an expression in parentheses, or one of them with a sign. -/
def readOperand (value : String → Int) : Nat → List Token → Except Fault (Int × List Token)
  | 0, _ => .error .malformed
  | n + 1, tokens =>
    match tokens with
    | .number k :: rest => .ok (k, rest)
    | .name name :: rest => .ok (value name, rest)
    | .mark ['-'] :: rest => (readOperand value n rest).map fun (k, left) => (-k, left)
    | .mark ['+'] :: rest => readOperand value n rest
    | .mark ['!'] :: rest =>
      (readOperand value n rest).map fun (k, left) => (ofTruth (k = 0), left)
    | .mark ['('] :: rest => do
      match ← readLevels value n levels rest with
      | (k, .mark [')'] :: left) => return (k, left)
      | _ => throw .malformed
    | _ => .error .malformed

end

/-- The value of an expression; an empty one is zero. -/
def evaluate (value : String → Int) (expression : List Char) : Except Fault Int :=
  match readTokens expression.length expression with
  | [] => .ok 0
  | tokens =>
    match readLevels value ((levels.length + 2) * (tokens.length + 2)) levels tokens with
    | .ok (k, []) => .ok k
    | .ok (_, _ :: _) => .error .malformed
    | .error fault => .error fault

end Arithmetic

end Child

end BroadcastIntake
