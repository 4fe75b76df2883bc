import BroadcastIntake.Date
import BroadcastIntake.Number.Reading

/-!
# Timestamps

A point in time, to the microsecond.  It may be bound to a time zone or not; only two that agree on
this can be compared.  Timestamps are read from texts such as `2024-01-31T10:20:30.5+01:00`, from
dates, which stand for their midnight, and from numbers of seconds since the start of 1970.
-/

namespace BroadcastIntake

/-- A point in time: the microseconds since the start of 1970, by universal time when the time is
bound to a zone and by an unknown clock when not. -/
structure Timestamp where
  micros : Int
  isZoned : Bool
  deriving DecidableEq, Repr

/-- Why there is no time between two timestamps. -/
inductive TimeFault where
  /-- Only one of the two is bound to a zone. -/
  | mixedZones
  deriving DecidableEq, Repr

/-!
## The calendar

Days of the Gregorian calendar are numbered from the start of 1970.
-/

namespace Calendar

def isLeap (year : Int) : Bool :=
  year % 4 = 0 && (year % 100 ≠ 0 || year % 400 = 0)

/-- How many days a month has. -/
def monthLength (year : Int) (month : Nat) : Nat :=
  if month = 2 then (if isLeap year then 29 else 28)
  else if month = 4 || month = 6 || month = 9 || month = 11 then 30
  else 31

def daysBeforeYear (year : Int) : Int :=
  let y := year - 1
  365 * y + y / 4 - y / 100 + y / 400 - 719162

def daysBeforeMonth (year : Int) (month : Nat) : Nat :=
  (List.range (month - 1)).foldl (fun days m => days + monthLength year (m + 1)) 0

def dayNumber (year : Int) (month day : Nat) : Int :=
  daysBeforeYear year + daysBeforeMonth year month + day - 1

/-- The year that a day lies in: the estimate by the mean length of a year is off by one at most. -/
def yearOf (number : Int) : Int :=
  let guess := (number + 719162) * 400 / 146097 + 1
  if daysBeforeYear (guess + 1) ≤ number then guess + 1
  else if number < daysBeforeYear guess then guess - 1
  else guess

/-- The month of a year that its day with the given number, counted from zero, lies in. -/
def monthOf (year : Int) (dayOfYear : Nat) : Nat :=
  ((List.range 12).filter fun m => daysBeforeMonth year (m + 1) ≤ dayOfYear).length

/-- The year, the month and the day of a day number. -/
def civil (number : Int) : Int × Nat × Nat :=
  let year := yearOf number
  let dayOfYear := (number - daysBeforeYear year).toNat
  let month := monthOf year dayOfYear
  (year, month, dayOfYear - daysBeforeMonth year month + 1)

end Calendar

namespace Timestamp

def microsPerSecond : Int := 1000000

def microsPerDay : Int := 86400 * microsPerSecond

/-! ## Reading -/

/-- A number with a fixed count of digits at the start of the characters. -/
def fixedDigits? (count : Nat) (cs : List Char) : Option (Nat × List Char) :=
  let digits := cs.take count
  if digits.length = count && digits.all Scalar.isPlainDigit then
    some (Text.digitsValue digits, cs.drop count)
  else none

def afterChar? (allowed : List Char) : List Char → Option (List Char)
  | c :: rest => if allowed.contains c then some rest else none
  | [] => none

/-- A date at the start of the characters, as a day number. -/
def readDay? (cs : List Char) : Option (Int × List Char) := do
  let (year, cs) ← fixedDigits? 4 cs
  let cs ← afterChar? ['-'] cs
  let (month, cs) ← fixedDigits? 2 cs
  let cs ← afterChar? ['-'] cs
  let (day, cs) ← fixedDigits? 2 cs
  if 1 ≤ month && month ≤ 12 && 1 ≤ day && day ≤ Calendar.monthLength year month then
    return (Calendar.dayNumber year month day, cs)
  else none

/-- A fraction of a second at the start of the characters, in microseconds; further digits are
dropped. -/
def readFraction? (cs : List Char) : Option (Nat × List Char) :=
  match cs with
  | '.' :: rest | ',' :: rest =>
    let digits := rest.takeWhile Scalar.isPlainDigit
    if digits.isEmpty then none
    else
      let six := (digits ++ List.replicate 6 '0').take 6
      some (Text.digitsValue six, rest.drop digits.length)
  | _ => some (0, cs)

/-- A time of the day at the start of the characters, in microseconds. -/
def readTime? (cs : List Char) : Option (Nat × List Char) := do
  let (hour, cs) ← fixedDigits? 2 cs
  let cs ← afterChar? [':'] cs
  let (minute, cs) ← fixedDigits? 2 cs
  let (second, fraction, cs) ←
    match cs with
    | ':' :: rest => do
      let (second, rest) ← fixedDigits? 2 rest
      let (fraction, rest) ← readFraction? rest
      some (second, fraction, rest)
    | _ => some (0, 0, cs)
  if hour < 24 && minute < 60 && second < 60 then
    return (((hour * 60 + minute) * 60 + second) * 1000000 + fraction, cs)
  else none

/-- A zone at the end, in minutes east of universal time; none when no zone is named. -/
def readZone? (cs : List Char) : Option (Option Int) :=
  match cs with
  | [] => some none
  | ['Z'] | ['z'] => some (some 0)
  | sign :: rest => do
    if sign ≠ '+' && sign ≠ '-' then none
    let (hours, rest) ← fixedDigits? 2 rest
    let minutes ←
      match rest with
      | [] => some 0
      | ':' :: rest | rest => do
        let (minutes, rest) ← fixedDigits? 2 rest
        if rest.isEmpty then some minutes else none
    if hours < 24 && minutes < 60 then
      let offset : Int := hours * 60 + minutes
      return some (if sign = '-' then -offset else offset)
    else none

/-- Reads a date with a time, or a date alone. -/
def ofText? (s : String) : Option Timestamp := do
  let (day, cs) ← readDay? s.toList
  if cs.isEmpty then return ⟨day * microsPerDay, false⟩
  let cs ← afterChar? ['T', 't', ' ', '_'] cs
  let (time, cs) ← readTime? cs
  let zone ← readZone? cs
  return ⟨day * microsPerDay + time - zone.getD 0 * 60 * microsPerSecond, zone.isSome⟩

/-- Numbers of at most this size count seconds, others milliseconds. -/
def secondsLimit : Int := 20000000000

/-- The timestamp for a number of seconds or milliseconds. -/
def ofWhole (n : Int) : Timestamp :=
  if n.natAbs ≤ secondsLimit.natAbs then ⟨n * microsPerSecond, true⟩ else ⟨n * 1000, true⟩

/-- The timestamp for a number of seconds with a fraction. -/
def ofNumber (x : Binary64) : Timestamp :=
  let micros : Nat := divideToNearest (x.signedQuanta.natAbs * 1000000) Binary64.quantaPerOne
  ⟨if x.signedQuanta < 0 then -(micros : Int) else micros, true⟩

def check : Json → Checked Timestamp
  | .str s =>
    match ofText? s with
    | some t => .valid t
    | none =>
      match readInt s with
      | .ok n => .valid (ofWhole n)
      | .error _ => .issue .unreadableTime
  | .int n => .valid (ofWhole n)
  | .float x => if x.isFinite then .valid (ofNumber x) else .issue .notTime
  | _ => .issue .notTime

/-! ## Using -/

/-- The number of seconds from one timestamp to another. -/
def secondsBetween (start stop : Timestamp) : Except TimeFault Binary64 :=
  if start.isZoned ≠ stop.isZoned then .error .mixedZones
  else
    let micros := stop.micros - start.micros
    .ok (.ofRatio (micros < 0) micros.natAbs 1000000)

def date (t : Timestamp) : Int × Nat × Nat :=
  Calendar.civil (t.micros / microsPerDay)

/-- The timestamp in whole seconds, as it is written into reports. -/
def text (t : Timestamp) : String :=
  let (year, month, day) := t.date
  let seconds := ((t.micros % microsPerDay) / microsPerSecond).toNat
  let two (n : Nat) : String := paddedInt 2 n
  s!"{intText year}-{two month}-{two day} " ++
    s!"{two (seconds / 3600)}:{two (seconds / 60 % 60)}:{two (seconds % 60)}"

end Timestamp

end BroadcastIntake
