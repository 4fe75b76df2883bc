import BroadcastIntake.Number.Binary64

/-!
# JSON values

The values that a JSON text denotes.  Whole numbers written without a point or exponent are kept
apart from the others, because they have any size.  An object is a list of members in which no key
occurs twice: a repeated key takes the later value at the place of the first.
-/

namespace BroadcastIntake

/-- A JSON value. -/
inductive Json where
  | null
  | bool (value : Bool)
  | int (value : Int)
  | float (value : Binary64)
  | str (value : String)
  | list (items : List Json)
  | object (members : List (String × Json))
  deriving Repr, Inhabited

namespace Json

/-- Sets a member of an object: the value is replaced where the key stands, or appended. -/
def put {α : Type} (key : String) (value : α) : List (String × α) → List (String × α)
  | [] => [(key, value)]
  | (k, v) :: rest => if k = key then (k, value) :: rest else (k, v) :: put key value rest

/-- The member of an object with the given key. -/
def get? : Json → String → Option Json
  | object members, key => members.lookup key
  | _, _ => none

/-- Whether a value counts as present where an empty one stands for nothing. -/
def isTruthy : Json → Bool
  | null => false
  | bool value => value
  | int value => value ≠ 0
  | float value => !value.isZero
  | str value => value ≠ ""
  | list items => !items.isEmpty
  | object members => !members.isEmpty

/-- The value for something that may not be there; `null` stands for nothing. -/
def ofOption {α : Type} (value : α → Json) : Option α → Json
  | some x => value x
  | none => .null

def ofTexts (texts : List String) : Json :=
  .list (texts.map .str)

def ofTextMembers (members : List (String × String)) : Json :=
  .object (members.map fun (key, text) => (key, .str text))

end Json

end BroadcastIntake
