import BroadcastIntake.Json.Basic
import BroadcastIntake.Text.Order

/-!
# Checked records

Records are read from JSON objects whose members may be missing, superfluous or of the wrong kind.
Checking a record finds all its issues, not just the first: `Checked` is an applicative functor
that collects the issues of both sides.  Each issue has a place, the keys and positions that lead
to it from the record.
-/

namespace BroadcastIntake

/-- A step on the way from a record to one of its parts. -/
inductive Step where
  | key (name : String)
  | index (position : Nat)
  deriving DecidableEq, Repr

/-- What is wrong at a place. -/
inductive IssueKind where
  | missing
  | unknownKey
  | notText
  | notNumber
  | unreadableNumber
  | notWhole
  | unreadableWhole
  | hasFraction
  | wholeTooLarge
  | notFinite
  | notFlag
  | unreadableFlag
  | notList
  | notMapping
  | notRecord
  | notPath
  | notTime
  | unreadableTime
  | notListed
  | notAbove
  | notAtLeast
  | notAtMost
  /-- A rule of the record is broken; the text says which. -/
  | rule (message : String)
  deriving DecidableEq, Repr

namespace IssueKind

/-- The short name of an issue. -/
def code : IssueKind → String
  | missing => "missing"
  | unknownKey => "extra_forbidden"
  | notText => "string_type"
  | notNumber => "float_type"
  | unreadableNumber => "float_parsing"
  | notWhole => "int_type"
  | unreadableWhole => "int_parsing"
  | hasFraction => "int_from_float"
  | wholeTooLarge => "int_parsing_size"
  | notFinite => "finite_number"
  | notFlag => "bool_type"
  | unreadableFlag => "bool_parsing"
  | notList => "list_type"
  | notMapping => "dict_type"
  | notRecord => "model_type"
  | notPath => "path_type"
  | notTime => "datetime_type"
  | unreadableTime => "datetime_from_date_parsing"
  | notListed => "enum"
  | notAbove => "greater_than"
  | notAtLeast => "greater_than_equal"
  | notAtMost => "less_than_equal"
  | rule _ => "value_error"

/-- The wording of a broken rule. -/
def message? : IssueKind → Option String
  | rule message => some message
  | _ => none

end IssueKind

/-- Something wrong with a record, and where. -/
structure Issue where
  place : List Step
  kind : IssueKind
  deriving DecidableEq, Repr

namespace Issue

def stepText : Step → String
  | .key name => name
  | .index n => toString n

/-- Whether one issue comes before another or with it: by place, then by kind. -/
def le (a b : Issue) : Bool :=
  let (first, second) := (a.place.map stepText, b.place.map stepText)
  if first = second then decide (a.kind.code ≤ b.kind.code) else Text.wordsLe first second

/-- What is said about an issue: its place and what is wrong there. -/
def line (i : Issue) : String :=
  String.intercalate "." (i.place.map stepText) ++ ": " ++ (i.kind.message?.getD i.kind.code)

def toJson (i : Issue) : Json :=
  let place := i.place.map fun
    | .key name => Json.str name
    | .index n => .int n
  .object ([("loc", .list place), ("type", .str i.kind.code)] ++
    (i.kind.message?.map fun message => ("msg", .str message)).toList)

/-- The records of issues, in order. -/
def listJson (issues : List Issue) : Json :=
  .list ((issues.mergeSort le).map toJson)

end Issue

/-- A value that passed its checks, or the issues that were found. -/
inductive Checked (α : Type) where
  | valid (value : α)
  | invalid (issues : List Issue)
  deriving Repr

namespace Checked

variable {α β : Type}

/-- A single issue at the record itself. -/
def issue (kind : IssueKind) : Checked α :=
  invalid [⟨[], kind⟩]

/-- A checked function applied to a checked value; the issues of both are kept. -/
def apply (f : Checked (α → β)) (x : Checked α) : Checked β :=
  match f, x with
  | valid f, valid x => valid (f x)
  | valid _, invalid issues => invalid issues
  | invalid issues, valid _ => invalid issues
  | invalid first, invalid second => invalid (first ++ second)

instance : Applicative Checked where
  pure := valid
  seq f x := apply f (x ())

/-- A further check that runs only on a value that passed. -/
def andThen (x : Checked α) (f : α → Checked β) : Checked β :=
  match x with
  | valid value => f value
  | invalid issues => invalid issues

/-- The same check seen from one step further out. -/
def under (step : Step) : Checked α → Checked α
  | valid value => valid value
  | invalid issues => invalid (issues.map fun i => { i with place := step :: i.place })

/-- The value of a check that passed. -/
def toOption : Checked α → Option α
  | valid value => some value
  | invalid _ => none

/-- The value, or the issues as a failure. -/
def toExcept : Checked α → Except (List Issue) α
  | valid value => .ok value
  | invalid issues => .error issues

def items (check : Json → Checked α) (n : Nat) : List Json → Checked (List α)
  | [] => valid []
  | item :: rest => List.cons <$> (check item).under (.index n) <*> items check (n + 1) rest

/-- Checks the values of a mapping, each at its key. -/
def values (check : Json → Checked α) : List (String × Json) → Checked (List (String × α))
  | [] => valid []
  | (key, value) :: rest =>
    (fun v vs => (key, v) :: vs) <$> (check value).under (.key key) <*> values check rest

end Checked

/-- The members of a record under check. -/
abbrev Members := List (String × Json)

namespace Members

variable {α : Type}

def required (members : Members) (key : String) (check : Json → Checked α) : Checked α :=
  match members.lookup key with
  | some value => (check value).under (.key key)
  | none => .invalid [⟨[.key key], .missing⟩]

/-- A member that has a value of its own when it is not there. -/
def optional (members : Members) (key : String) (default : α) (check : Json → Checked α) :
    Checked α :=
  match members.lookup key with
  | some value => (check value).under (.key key)
  | none => .valid default

/-- No member has a key other than the given ones. -/
def noOthers (members : Members) (keys : List String) : Checked Unit :=
  match members.filter fun m => !keys.contains m.1 with
  | [] => .valid ()
  | others => .invalid (others.map fun m => ⟨[.key m.1], .unknownKey⟩)

end Members

def checkRecord {α : Type} (check : Members → Checked α) : Json → Checked α
  | .object members => check members
  | _ => .issue .notRecord

end BroadcastIntake
