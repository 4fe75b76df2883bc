import BroadcastIntake.Date
import BroadcastIntake.Text.Case

/-!
# Templates

A template is a text with brace groups that stand for the date of the broadcast and the name of
the show: `{YYYY}`, `{MM}`, `{DD}` and `{showName}`, in any letter case.  Filling a template puts
in the values one after the other, then drops every brace group that is left and the blanks at
both ends.  Values are taken as they are, so a brace group that comes in with a value is filled or
dropped like one of the template's own.
-/

namespace BroadcastIntake

namespace Template

/-- Replaces a brace group wherever it stands.  `key` is what stands between the braces, in any
letter case; `skip` is the number of characters that belong to a group already replaced. -/
def replaceFrom (key value : List Char) (skip : Nat) : List Char → List Char
  | [] => []
  | c :: rest =>
    match skip with
    | n + 1 => replaceFrom key value n rest
    | 0 =>
      let after := rest.drop key.length
      if c = '{' && Text.sameLetters key (rest.take key.length) && after.head? = some '}' then
        value ++ replaceFrom key value (key.length + 1) rest
      else c :: replaceFrom key value 0 rest

/-- Replaces a brace group wherever it stands. -/
def replace (key value : String) (cs : List Char) : List Char :=
  replaceFrom key.toList value.toList 0 cs

/-- How many characters after an opening brace belong to its group: those up to the next closing
brace and that brace itself, when there is at least one character between the two. -/
def groupLength? (rest : List Char) : Option Nat :=
  let body := rest.takeWhile (· ≠ '}')
  if !body.isEmpty && body.length < rest.length then some (body.length + 1) else none

/-- Drops every opening brace that begins a group, with the rest of the group. -/
def dropGroupsFrom (skip : Nat) : List Char → List Char
  | [] => []
  | c :: rest =>
    match skip with
    | n + 1 => dropGroupsFrom n rest
    | 0 =>
      match if c = '{' then groupLength? rest else none with
      | some n => dropGroupsFrom n rest
      | none => c :: dropGroupsFrom 0 rest

def dropGroups (cs : List Char) : List Char :=
  dropGroupsFrom 0 cs

def substitute (showName : String) (date : BroadcastDate) (template : String) : List Char :=
  let cs := replace "YYYY" date.yearText template.toList
  let cs := replace "MM" date.monthText cs
  let cs := replace "DD" date.dayText cs
  replace "showName" showName cs

/-- Fills a template.  The date of the broadcast wins over the date of today. -/
def fill (template : String) (showName : Option String) (date? : Option BroadcastDate)
    (today : BroadcastDate) : String :=
  let cs := substitute (showName.getD "") (date?.getD today) template
  String.ofList (Text.Chars.trim Text.isBlank (dropGroups cs))

end Template

end BroadcastIntake
