import BroadcastIntake.Pattern.Token
import BroadcastIntake.Text.Blank

/-!
# Checking patterns

A report on a pattern for the person who writes it: everything that keeps it from being accepted,
and what is probably not meant.  A pattern is valid when there is no error.
-/

namespace BroadcastIntake

/-- A report on a pattern. -/
structure PatternReport where
  errors : List String
  warnings : List String
  deriving DecidableEq, Repr

namespace PatternReport

def isValid (r : PatternReport) : Bool :=
  r.errors.isEmpty

/-- The placeholders that may be used, as they are listed to the user. -/
def placeholderList : String :=
  String.intercalate ", " (Placeholder.all.map fun p => "\x7b" ++ p.key ++ "\x7d")

/-- The error for a brace group that calls no placeholder. -/
def unknownGroup? (body : List Char) : Option String :=
  match Placeholder.ofBody? body with
  | some _ => none
  | none =>
    some ("Unknown placeholder: " ++ String.ofList (PatternPiece.group body).chars ++
      ". Valid placeholders: " ++ placeholderList)

end PatternReport

/-- Checks a pattern for errors and for what is probably not meant. -/
def checkPattern (source : String) : PatternReport :=
  if Text.isBlankText source then ⟨["Pattern cannot be empty"], []⟩
  else
    let bodies := groupBodies source
    { errors := bodies.filterMap PatternReport.unknownGroup? ++
        (if source.toList.contains '*' then
          ["Wildcards (*) are not supported in extraction patterns. " ++
            "Use placeholders like \x7bANY\x7d instead."]
        else [])
      warnings :=
        if bodies.isEmpty then ["Pattern has no placeholders - it will match literally"]
        else [] }

end BroadcastIntake
