import BroadcastIntake.Schema.Scalar

/-!
# Broadcast dates

A broadcast date is a year, a month and a day of the month as they stand in file names.  Month and
day lie in their usual ranges, but a day need not exist in its month.
-/

namespace BroadcastIntake

/-- The date of a broadcast. -/
structure BroadcastDate where
  year : Int
  month : Int
  day : Int
  month_range : 1 ≤ month ∧ month ≤ 12
  day_range : 1 ≤ day ∧ day ≤ 31
  deriving DecidableEq, Repr

namespace BroadcastDate

/-- The date with the given parts, when month and day are in range. -/
def ofParts? (year month day : Int) : Option BroadcastDate :=
  if hm : 1 ≤ month ∧ month ≤ 12 then
    if hd : 1 ≤ day ∧ day ≤ 31 then some ⟨year, month, day, hm, hd⟩ else none
  else none

def first : BroadcastDate := ⟨1, 1, 1, by decide, by decide⟩

/-- Checks a month: a whole number from 1 to 12. -/
def checkMonth : Json → Checked Int := Scalar.wholeBetween 1 12

/-- Checks a day of the month: a whole number from 1 to 31. -/
def checkDay : Json → Checked Int := Scalar.wholeBetween 1 31

def check : Json → Checked BroadcastDate :=
  checkRecord fun members =>
    let parts := (fun y m d => (y, m, d)) <$> members.required "year" Scalar.whole
      <*> members.required "month" checkMonth <*> members.required "day" checkDay
    parts.andThen fun (y, m, d) =>
      match ofParts? y m d with
      | some date => .valid date
      | none => .issue .notAtMost

def toJson (d : BroadcastDate) : Json :=
  .object [("year", .int d.year), ("month", .int d.month), ("day", .int d.day)]

/-- Reads a date such as `2024-06-09`. -/
def ofText? (s : String) : Option BroadcastDate :=
  match (Text.splitOnChar '-' s).mapM fun part => (readInt part).toOption with
  | some [year, month, day] => ofParts? year month day
  | _ => none

/-- The year in at least four characters. -/
def yearText (d : BroadcastDate) : String := paddedInt 4 d.year

/-- The month in two digits. -/
def monthText (d : BroadcastDate) : String := paddedInt 2 d.month

/-- The day in two digits. -/
def dayText (d : BroadcastDate) : String := paddedInt 2 d.day

/-- The date as year, month and day with hyphens between them. -/
def text (d : BroadcastDate) : String :=
  d.yearText ++ "-" ++ d.monthText ++ "-" ++ d.dayText

end BroadcastDate

end BroadcastIntake
