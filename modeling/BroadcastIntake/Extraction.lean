import BroadcastIntake.Date
import BroadcastIntake.Pattern.Basic

/-!
# Extraction

Reads the fields of a file name by a pattern: the word of each placeholder, days of the week by
their canonical names and years, months and days as numbers.  When a placeholder occurs more than
once, its last word counts.  From the fields the date of the broadcast is put together.
-/

namespace BroadcastIntake

/-- The value of an extracted field. -/
inductive FieldValue where
  | number (n : Int)
  | text (s : String)
  deriving DecidableEq, Repr

namespace FieldValue

def display : FieldValue → String
  | number n => intText n
  | text s => s

def toJson : FieldValue → Json
  | number n => .int n
  | text s => .str s

/-- Checks a field value: a whole number or a text.  A text stays a text whatever it writes. -/
def check : Json → Checked FieldValue
  | .int i => .valid (number i)
  | .str s => .valid (text s)
  | value =>
    match Scalar.whole value, Scalar.text value with
    | .valid i, _ => .valid (number i)
    | _, .valid s => .valid (text s)
    | .invalid first, .invalid second =>
      .invalid
        ((first.map fun i => { i with place := .key "int" :: i.place }) ++
          (second.map fun i => { i with place := .key "str" :: i.place }))

/-- The day of the week that a spelling in small letters stands for. -/
def canonicalDays : List (String × String) :=
  [("mon", "Monday"), ("monday", "Monday"), ("tue", "Tuesday"), ("tues", "Tuesday"),
   ("tuesday", "Tuesday"), ("wed", "Wednesday"), ("wednesday", "Wednesday"),
   ("thu", "Thursday"), ("thur", "Thursday"), ("thurs", "Thursday"), ("thursday", "Thursday"),
   ("fri", "Friday"), ("friday", "Friday"), ("sat", "Saturday"), ("saturday", "Saturday"),
   ("sun", "Sunday"), ("sunday", "Sunday")]

/-- The canonical name of a day of the week; a text that spells none stays as it is. -/
def canonicalDay (s : String) : String :=
  (canonicalDays.lookup (Text.lower s)).getD s

def ofText (p : Placeholder) (s : String) : Except NumberError FieldValue :=
  match p with
  | .year | .shortYear | .month | .day => (readInt s).map number
  | .weekday => .ok (text (canonicalDay s))
  | _ => .ok (text s)

def ofWord (p : Placeholder) (word : List Char) : FieldValue :=
  match p with
  | .year | .shortYear | .month | .day => number (Text.digitsValue word)
  | .weekday => text (canonicalDay (String.ofList word))
  | _ => text (String.ofList word)

end FieldValue

/-- The value that a text has for the placeholder with the given key; for other keys it is the
text. -/
def normalizeField (key value : String) : Except NumberError FieldValue :=
  match Placeholder.ofKey? key with
  | some p => FieldValue.ofText p value
  | none => .ok (.text value)

/-- The fields of a file name, in the order in which they first occur. -/
abbrev Fields := List (String × FieldValue)

/-- What was read from a file name: whether the pattern matched, the fields, and the share of the
name that was matched, in percent. -/
structure Extraction where
  success : Bool
  fields : Fields
  confidence : Int
  deriving DecidableEq, Repr

namespace Extraction

def logger : String := "radio_ingest.extractor"

/-- The extraction from a name that does not match. -/
def failed : Extraction := ⟨false, [], 0⟩

/-- The rule that a record of an extraction breaks, if any: one that succeeded has some confidence,
and one that failed has none. -/
def brokenRule? (e : Extraction) : Option String :=
  if e.success && e.confidence = 0 then
    some "Successful extraction must have a non-zero confidence"
  else if !e.success && e.confidence ≠ 0 then
    some "Failed extraction must have zero confidence"
  else none

/-- The extraction, unless it breaks a rule. -/
def validate (e : Extraction) : Except (List Issue) Extraction :=
  match e.brokenRule? with
  | none => .ok e
  | some message => .error [⟨[], .rule message⟩]

def check : Json → Checked Extraction :=
  checkRecord fun members =>
    let record := Extraction.mk <$> members.required "success" Scalar.flag
      <*> members.optional "data" [] (Scalar.mapping FieldValue.check)
      <*> members.optional "confidence" 0 (Scalar.wholeBetween 0 100)
    record.andThen fun e =>
      match e.brokenRule? with
      | none => .valid e
      | some message => .issue (.rule message)

def fieldsJson (e : Extraction) : Json :=
  .object (e.fields.map fun (key, value) => (key, value.toJson))

def toJson (e : Extraction) : Json :=
  .object [("success", .bool e.success), ("data", e.fieldsJson), ("confidence", .int e.confidence)]

/-! ## Reading a file name -/

/-- The fields of the segments of a name, one segment for each token. -/
def fieldsOf : Fields → List (Token × List Char) → Fields
  | fields, [] => fields
  | fields, (.literal _, _) :: rest => fieldsOf fields rest
  | fields, (.field _ p, word) :: rest =>
    fieldsOf (Json.put p.key (FieldValue.ofWord p word) fields) rest

/-- The share of the characters that were matched in percent, rounded, a half to the even
neighbour. -/
def confidenceOf (matched total : Nat) : Nat :=
  divideToNearest (100 * matched) total

/-- Reads the fields of a name by a pattern.  It fails only when the pattern matches next to
nothing of the name. -/
def ofName (p : Pattern) (name : String) : Except (List Issue) Extraction :=
  match p.match? name with
  | none => .ok failed
  | some segments =>
    if name.isEmpty then .ok failed
    else
      validate
        { success := true
          fields := fieldsOf [] (p.tokens.zip segments)
          confidence := confidenceOf segments.flatten.length name.length }

/-- Reads the fields of the name of a path, and if that does not match of the name without its
suffix. -/
def ofPath (p : Pattern) (path : Path) : Except (List Issue) Extraction := do
  let whole ← ofName p path.name
  if !whole.success && path.suffix ≠ "" then ofName p path.stem else return whole

/-! ## The date -/

/-- The first short year that belongs to the last century. -/
def centuryCutoff : Int := 50

def expandYear (year : Int) : Int :=
  if year < centuryCutoff then 2000 + year else 1900 + year

/-- Why no date can be put together at all. -/
inductive DateFault where
  /-- The short year is a text and has no century. -/
  | textYear
  deriving DecidableEq, Repr

/-- The year of the fields: the long year if there is one, otherwise the short one expanded. -/
def yearOf? (fields : Fields) : Except DateFault (Option FieldValue) :=
  match fields.lookup Placeholder.year.key with
  | some year => .ok (some year)
  | none =>
    match fields.lookup Placeholder.shortYear.key with
    | none => .ok none
    | some (.number year) => .ok (some (.number (expandYear year)))
    | some (.text _) => .error .textYear

def wholeOf? (value : FieldValue) : Option Int :=
  (Scalar.whole value.toJson).toOption

def dateOf? (year month day : FieldValue) : Option BroadcastDate := do
  BroadcastDate.ofParts? (← wholeOf? year) (← wholeOf? month) (← wholeOf? day)

/-- The date of the broadcast, when the name was read and its year, month and day are there and in
range. -/
def date? (e : Extraction) : Logged (Except DateFault (Option BroadcastDate)) :=
  if !e.success then return .ok none
  else
    match yearOf? e.fields with
    | .error fault => return .error fault
    | .ok none => return .ok none
    | .ok (some year) =>
      match e.fields.lookup Placeholder.month.key, e.fields.lookup Placeholder.day.key with
      | some month, some day =>
        match dateOf? year month day with
        | some date => do
          Logged.tell .debug logger s!"Extracted date from filename: {date.text}"
          return .ok (some date)
        | none => do
          let shown := s!"{year.display}-{month.display}-{day.display}"
          Logged.tell .warning logger s!"Extracted date out of range: {shown}"
          return .ok none
      | _, _ => return .ok none

/-! ## Trying a pattern -/

/-- The outcome of trying a pattern on one file name. -/
structure Trial where
  filename : String
  extraction : Extraction
  errors : List String
  deriving DecidableEq, Repr

def Trial.toJson (t : Trial) : Json :=
  .object [("filename", .str t.filename), ("matches", .bool t.extraction.success),
    ("extracted_data", t.extraction.fieldsJson), ("confidence", .int t.extraction.confidence),
    ("errors", .ofTexts t.errors)]

def tryPattern (source : String) (filenames : List String) :
    Except (List Issue) (List Trial) :=
  match Pattern.compile source with
  | .error e => .ok (filenames.map fun name => ⟨name, failed, [e.message]⟩)
  | .ok p => filenames.mapM fun name => do
      return ⟨name, ← ofPath p (Path.ofString name), []⟩

end Extraction

end BroadcastIntake
