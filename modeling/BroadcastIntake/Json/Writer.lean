import BroadcastIntake.Json.Basic
import BroadcastIntake.Number.Text
import BroadcastIntake.Text.Quoted

/-!
# Writing JSON

Two written forms of a value.

* `Json.write` gives a JSON text in ASCII: every other character is escaped, keys stand in
  increasing order, and items are divided by a comma and a space.
* `Json.display` gives the form in which a value is shown to a reader: texts between quotes, and
  the words `None`, `True` and `False`.
-/

namespace BroadcastIntake

namespace Json

def unitEscape (unit : Nat) : List Char :=
  '\\' :: 'u' :: Text.hexDigits 4 unit

/-- The first half of the pair of code units for a character beyond the first `0x10000`. -/
def highHalf (c : Char) : Nat :=
  0xD800 + (c.toNat - 0x10000) / 0x400

/-- The second half of the pair. -/
def lowHalf (c : Char) : Nat :=
  0xDC00 + (c.toNat - 0x10000) % 0x400

def escapeChar (c : Char) : List Char :=
  if c = '"' then ['\\', '"']
  else if c = '\\' then ['\\', '\\']
  else if c = '\n' then ['\\', 'n']
  else if c = '\r' then ['\\', 'r']
  else if c = '\t' then ['\\', 't']
  else if c = '\x08' then ['\\', 'b']
  else if c = '\x0c' then ['\\', 'f']
  else if 0x20 ≤ c.toNat && c.toNat ≤ 0x7E then [c]
  else if c.toNat < 0x10000 then unitEscape c.toNat
  else unitEscape (highHalf c) ++ unitEscape (lowHalf c)

def writeString (s : String) : List Char :=
  '"' :: s.toList.flatMap escapeChar ++ ['"']

/-- A number of double precision; the ones that are not finite are words. -/
def writeFloat : Binary64 → List Char
  | .nan => "NaN".toList
  | .infinity negative => if negative then "-Infinity".toList else "Infinity".toList
  | x => x.text.toList

/-- Pieces with a separator between them. -/
def joinWith (sep : List Char) : List (List Char) → List Char
  | [] => []
  | [piece] => piece
  | piece :: rest => piece ++ sep ++ joinWith sep rest

/-- The members of an object in increasing order of their keys. -/
def sortMembers {α : Type} (members : List (String × α)) : List (String × α) :=
  members.mergeSort fun a b => decide (a.1 ≤ b.1)

mutual

def writeChars : Json → List Char
  | null => "null".toList
  | bool value => if value then "true".toList else "false".toList
  | int value => (intText value).toList
  | float value => writeFloat value
  | str value => writeString value
  | list items => '[' :: joinWith [',', ' '] (writeItems items) ++ [']']
  | object members =>
    '\x7b' :: joinWith [',', ' '] ((sortMembers (writeMembers members)).map Prod.snd) ++ ['\x7d']

def writeItems : List Json → List (List Char)
  | [] => []
  | item :: rest => writeChars item :: writeItems rest

/-- The written members of an object, each with its key. -/
def writeMembers : List (String × Json) → List (String × List Char)
  | [] => []
  | (key, value) :: rest =>
    (key, writeString key ++ ':' :: ' ' :: writeChars value) :: writeMembers rest

end

def write (value : Json) : String :=
  String.ofList (writeChars value)

mutual

/-- The characters in which a value is shown. -/
def displayChars : Json → List Char
  | null => "None".toList
  | bool value => if value then "True".toList else "False".toList
  | int value => (intText value).toList
  | float value => value.text.toList
  | str value => (Text.quoted value).toList
  | list items => '[' :: joinWith [',', ' '] (displayItems items) ++ [']']
  | object members => '\x7b' :: joinWith [',', ' '] (displayMembers members) ++ ['\x7d']

/-- The shown items of an array. -/
def displayItems : List Json → List (List Char)
  | [] => []
  | item :: rest => displayChars item :: displayItems rest

/-- The shown members of an object. -/
def displayMembers : List (String × Json) → List (List Char)
  | [] => []
  | (key, value) :: rest =>
    ((Text.quoted key).toList ++ ':' :: ' ' :: displayChars value) :: displayMembers rest

end

/-- The form in which a value is shown to a reader. -/
def display (value : Json) : String :=
  String.ofList (displayChars value)

end Json

end BroadcastIntake
