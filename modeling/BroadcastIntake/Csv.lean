/-!
# Comma-separated values

Records are rows of fields with commas between them, and every record ends with a line end.  A
field that holds a comma, a quote or a line end stands between quotes, and its own quotes are
written twice.

The reader takes more than the writer makes: every common line end ends a record, quotes may stand
in the middle of a field, and the last record needs no line end.  A blank line is a record without
fields.
-/

namespace BroadcastIntake

namespace Csv

/-! ## Writing -/

def needsQuotes (c : Char) : Bool :=
  c = ',' || c = '"' || c = '\r' || c = '\n'

/-- The characters with every quote written twice. -/
def doubleQuotes (cs : List Char) : List Char :=
  cs.flatMap fun c => if c = '"' then ['"', '"'] else [c]

def writeField (cs : List Char) : List Char :=
  if cs.any needsQuotes then '"' :: doubleQuotes cs ++ ['"'] else cs

/-- The fields of a record with commas between them. -/
def writeFields : List String → List Char
  | [] => []
  | [field] => writeField field.toList
  | field :: rest => writeField field.toList ++ ',' :: writeFields rest

/-- A record as it is written, with its line end.  A single empty field stands between quotes, for
a blank line is a record without fields. -/
def writeRecord (fields : List String) : List Char :=
  (if fields = [""] then ['"', '"'] else writeFields fields) ++ ['\r', '\n']

def write (records : List (List String)) : String :=
  String.ofList (records.flatMap writeRecord)

/-! ## Reading -/

/-- Where in a record the reader is. -/
inductive Place where
  /-- Before a record; the flag says whether the last character ended the record before it and was
  the first half of a double line end. -/
  | recordStart (afterReturn : Bool)
  | fieldStart
  | inField
  | inQuotes
  /-- After a quote within quotes: it may be the first of two. -/
  | afterQuote
  deriving DecidableEq, Repr

/-- What is wrong with a text. -/
inductive Fault where
  /-- A field has more characters than are read. -/
  | fieldTooLong
  deriving DecidableEq, Repr

/-- The most characters that a field may have. -/
def fieldLimit : Nat := 131072

def Fault.message : Fault → String
  | fieldTooLong => s!"field larger than field limit ({fieldLimit})"

/-- A record under construction: where the reader is, the characters of the field so far and how
many more it may have, and the fields before it.  Both rows stand backwards. -/
structure Partial where
  place : Place
  field : List Char
  room : Nat
  fields : List String
  deriving DecidableEq, Repr

namespace Partial

/-- Before a record. -/
def between (afterReturn : Bool) : Partial :=
  ⟨.recordStart afterReturn, [], fieldLimit, []⟩

/-- The record with the field under construction at its end. -/
def record (p : Partial) : List String :=
  (String.ofList p.field.reverse :: p.fields).reverse

/-- The field has ended and another one follows. -/
def nextField (p : Partial) : Partial :=
  ⟨.fieldStart, [], fieldLimit, String.ofList p.field.reverse :: p.fields⟩

def push (p : Partial) (place : Place) (c : Char) : Except Fault Partial :=
  match p.room with
  | 0 => .error .fieldTooLong
  | room + 1 => .ok { p with place, field := c :: p.field, room }

end Partial

/-- What a character leads to: the record under construction, and a record that it ended. -/
abbrev Scanned := Except Fault (Partial × Option (List String))

/-- A character outside of quotes, in a record that has begun. -/
def scanPlain (p : Partial) (c : Char) : Scanned :=
  if c = '\r' || c = '\n' then .ok (.between (c = '\r'), some p.record)
  else if c = ',' then .ok (p.nextField, none)
  else (p.push .inField c).map (·, none)

def scanFieldStart (p : Partial) (c : Char) : Scanned :=
  if c = '"' then .ok ({ p with place := .inQuotes }, none) else scanPlain p c

def scan (p : Partial) (c : Char) : Scanned :=
  match p.place with
  | .recordStart afterReturn =>
    if afterReturn && c = '\n' then .ok (.between false, none)
    else if c = '\r' || c = '\n' then .ok (.between (c = '\r'), some [])
    else scanFieldStart p c
  | .fieldStart => scanFieldStart p c
  | .inField => scanPlain p c
  | .inQuotes =>
    if c = '"' then .ok ({ p with place := .afterQuote }, none)
    else (p.push .inQuotes c).map (·, none)
  | .afterQuote => if c = '"' then (p.push .inQuotes c).map (·, none) else scanPlain p c

/-- The records of the characters; a fault ends them. -/
def readFrom (p : Partial) : List Char → List (Except Fault (List String))
  | [] =>
    match p.place with
    | .recordStart _ => []
    | _ => [.ok p.record]
  | c :: rest =>
    match scan p c with
    | .error fault => [.error fault]
    | .ok (next, none) => readFrom next rest
    | .ok (next, some record) => .ok record :: readFrom next rest

/-- The records of a text; a fault ends them. -/
def read (text : String) : List (Except Fault (List String)) :=
  readFrom (.between false) text.toList

end Csv

end BroadcastIntake
