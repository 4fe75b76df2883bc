import BroadcastIntake.Console.Basic

/-!
# Plain lines

The console without styles: marks are left out, the cells of a row are divided by bars, and a panel
stands between two rules.
-/

namespace BroadcastIntake

namespace ConsoleItem

def isMarkChar (c : Char) : Bool :=
  c.isLower || c.isDigit || c = ' ' || c = '/'

/-- How many characters of `[…]` with a mark in it stand at the start; zero when there is none. -/
def markLength (cs : List Char) : Nat :=
  match cs with
  | '[' :: rest =>
    let inner := rest.takeWhile isMarkChar
    if !inner.isEmpty && (rest.drop inner.length).head? = some ']' then inner.length + 2 else 0
  | _ => 0

/-- The characters without marks, of which the first `skip` are left out. -/
def dropMarks : Nat → List Char → List Char
  | _, [] => []
  | skip + 1, _ :: rest => dropMarks skip rest
  | 0, c :: rest =>
    match markLength (c :: rest) with
    | 0 => c :: dropMarks 0 rest
    | n + 1 => dropMarks n rest

def plain (markup : String) : String :=
  String.ofList (dropMarks 0 markup.toList)

def tableLines (t : ConsoleTable) : List String :=
  let row (cells : List String) : String := String.intercalate " | " (cells.map plain)
  (t.title.map plain).toList ++ (row t.columns :: t.rows.map row)

/-- The rule above and below a panel. -/
def rule : String := "----------------------------------------"

def plainLines : ConsoleItem → List String
  | line markup => [plain markup]
  | table t => tableLines t
  | panel p =>
    let content :=
      match p.content with
      | .text markup => [plain markup]
      | .table t => tableLines t
    (p.title.map plain).toList ++ [rule] ++ content ++ [rule]

end ConsoleItem

end BroadcastIntake
