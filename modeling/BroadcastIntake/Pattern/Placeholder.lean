import BroadcastIntake.Text.Blank
import BroadcastIntake.Text.Case
import BroadcastIntake.Text.Digit

/-!
# Placeholders

The ten placeholders that a file name pattern may hold.  Each stands for the words of a small
language, its fragment; `Placeholder.isWord` decides that language, and `Placeholder.fragment`
writes it as a regular expression.
-/

namespace BroadcastIntake

/-- A placeholder of a file name pattern. -/
inductive Placeholder where
  | year
  | shortYear
  | month
  | day
  | weekday
  | «show»
  | episode
  | segment
  | time
  | any
  deriving DecidableEq, Repr, Inhabited

namespace Placeholder

/-- All placeholders, in the order in which they are listed to the user. -/
def all : List Placeholder :=
  [year, shortYear, month, day, weekday, «show», episode, segment, time, any]

/-- The word by which a placeholder is called in a pattern. -/
def key : Placeholder → String
  | year => "YYYY"
  | shortYear => "YY"
  | month => "MM"
  | day => "DD"
  | weekday => "DOTW"
  | «show» => "SHOW"
  | episode => "EPISODE"
  | segment => "SEGMENT"
  | time => "TIME"
  | any => "ANY"

def ofKey? (key : String) : Option Placeholder :=
  all.find? fun p => p.key = key

/-- The placeholder that the text between two braces calls, blanks around it and its case being
ignored. -/
def ofBody? (body : List Char) : Option Placeholder :=
  ofKey? (Text.upper (String.ofList (Text.Chars.trim Text.isBlank body)))

/-- The spellings of the days of the week, in the order in which they are tried. -/
def weekdaySpellings : List String :=
  ["monday", "tuesday", "wednesday", "thursday", "friday", "saturday", "sunday", "tues", "thurs",
   "thur", "mon", "tue", "wed", "thu", "fri", "sat", "sun"]

/-- The fragment of a placeholder as a regular expression with one group. -/
def fragment : Placeholder → String
  | year => "(\\d\x7b4\x7d)"
  | shortYear => "(\\d\x7b2\x7d)"
  | month | day => "(\\d\x7b1,2\x7d)"
  | weekday => "(" ++ String.intercalate "|" weekdaySpellings ++ ")"
  | «show» => "([^_\\-\\s]+)"
  | episode | segment | any => "([^_\\-\\s.]+)"
  | time => "(\\d\x7b1,2\x7d[:\\-]\\d\x7b2\x7d(?:[:\\-]\\d\x7b2\x7d)?)"

def description : Placeholder → String
  | year => "4-digit year"
  | shortYear => "2-digit year"
  | month => "Month (1-12)"
  | day => "Day (1-31)"
  | weekday => "Day of the week (full or abbreviated)"
  | «show» => "Show name"
  | episode => "Episode identifier"
  | segment => "Segment name"
  | time => "Time (HH:MM or HH:MM:SS)"
  | any => "Any text without separators"

/-- Words that a placeholder stands for. -/
def examples : Placeholder → List String
  | year => ["2024", "2023", "2025"]
  | shortYear => ["24", "23", "25"]
  | month => ["01", "1", "12"]
  | day => ["01", "1", "31"]
  | weekday => ["Mon", "Monday", "tue", "Wednesday"]
  | «show» => ["MorningShow", "News", "Sports"]
  | episode => ["E001", "Episode1", "Part2"]
  | segment => ["Weather", "Sports", "Interview"]
  | time => ["08:30", "14:45:30", "9:15"]
  | any => ["anything", "text123"]

/-! ## The words of a placeholder -/

/-- Whether a character may stand in a show name: no underscore, hyphen or blank. -/
def isShowChar (c : Char) : Bool :=
  c ≠ '_' && c ≠ '-' && !Text.isBlank c

/-- Whether a character may stand in the other text fields: in a show name, and no dot. -/
def isFieldChar (c : Char) : Bool :=
  isShowChar c && c ≠ '.'

/-- Whether a character divides hours, minutes and seconds. -/
def isTimeMark (c : Char) : Bool :=
  c = ':' || c = '-'

/-- Whether characters are a mark and two digits. -/
def isTimePart : List Char → Bool
  | [m, a, b] => isTimeMark m && Text.isDigit a && Text.isDigit b
  | _ => false

/-- Whether characters are one or two parts of a time after the hours. -/
def isTimeTail (cs : List Char) : Bool :=
  isTimePart cs || (isTimePart (cs.take 3) && isTimePart (cs.drop 3))

/-- Whether characters are a time: one or two digits, a mark and two digits, and perhaps another
mark and two digits. -/
def isTime (cs : List Char) : Bool :=
  ((cs.take 1).all Text.isDigit && isTimeTail (cs.drop 1)) ||
    ((cs.take 2).all Text.isDigit && isTimeTail (cs.drop 2))

/-- Whether characters are a day of the week, in any case. -/
def isWeekday (cs : List Char) : Bool :=
  weekdaySpellings.any fun spelling => Text.sameLetters spelling.toList cs

/-- Whether characters are a word of the placeholder's fragment. -/
def isWord : Placeholder → List Char → Bool
  | year, cs => cs.length = 4 && cs.all Text.isDigit
  | shortYear, cs => cs.length = 2 && cs.all Text.isDigit
  | month, cs | day, cs => (cs.length = 1 || cs.length = 2) && cs.all Text.isDigit
  | weekday, cs => isWeekday cs
  | «show», cs => !cs.isEmpty && cs.all isShowChar
  | episode, cs | segment, cs | any, cs => !cs.isEmpty && cs.all isFieldChar
  | time, cs => isTime cs

/-- The lengths from `n` down to one. -/
def lengthsFrom (n : Nat) : List Nat :=
  (List.range n).reverse.map (· + 1)

/-- Those of the lengths that words at the start of `cs` have. -/
def fitting (p : Placeholder) (cs : List Char) (lengths : List Nat) : List Nat :=
  lengths.filter fun n => n ≤ cs.length && p.isWord (cs.take n)

/-- The lengths of the words at the start of `cs`, the preferred one first.  Digits and text are
taken as far as they go, a time with its seconds, and the days of the week in the order of their
spellings. -/
def wordLengths (p : Placeholder) (cs : List Char) : List Nat :=
  match p with
  | year => p.fitting cs [4]
  | shortYear => p.fitting cs [2]
  | month | day => p.fitting cs [2, 1]
  | weekday =>
    p.fitting cs
      ((weekdaySpellings.filter fun s => Text.sameLetters s.toList (cs.take s.length)).map
        String.length)
  | «show» => lengthsFrom (cs.takeWhile isShowChar).length
  | episode | segment | any => lengthsFrom (cs.takeWhile isFieldChar).length
  | time => p.fitting cs [8, 5, 7, 4]

/-- A length is one of those from `n` down to one exactly when it is between them. -/
theorem mem_lengthsFrom {n k : Nat} : k ∈ lengthsFrom n ↔ 1 ≤ k ∧ k ≤ n := by
  simp only [lengthsFrom, List.mem_map, List.mem_reverse, List.mem_range]
  constructor
  · rintro ⟨m, hm, rfl⟩
    omega
  · rintro ⟨h1, h2⟩
    exact ⟨k - 1, by omega, by omega⟩

/-- What is taken from the longest row of characters with a property has that property. -/
theorem all_take_of_le_takeWhile (q : Char → Bool) (cs : List Char) {n : Nat}
    (h : n ≤ (cs.takeWhile q).length) : (cs.take n).all q = true := by
  induction cs generalizing n with
  | nil => simp
  | cons c rest ih =>
    cases n with
    | zero => simp
    | succ n =>
      by_cases hc : q c = true
      · simp only [List.takeWhile_cons, hc, if_true, List.length_cons] at h
        simp only [List.take_succ_cons, List.all_cons, hc, Bool.true_and]
        exact ih (by omega)
      · simp [hc] at h

/-- What is taken at a length of `wordLengths` is a word. -/
theorem isWord_of_mem_wordLengths {p : Placeholder} {cs : List Char} {n : Nat}
    (h : n ∈ p.wordLengths cs) : n ≤ cs.length ∧ p.isWord (cs.take n) = true := by
  have fixed {lengths : List Nat} (h : n ∈ p.fitting cs lengths) :
      n ≤ cs.length ∧ p.isWord (cs.take n) = true := by
    simpa [fitting] using (List.mem_filter.1 h).2
  have free {q : Char → Bool} (h : n ∈ lengthsFrom (cs.takeWhile q).length) :
      n ≤ cs.length ∧ (cs.take n).isEmpty = false ∧ (cs.take n).all q = true := by
    obtain ⟨h1, h2⟩ := mem_lengthsFrom.1 h
    have hle : n ≤ cs.length := Nat.le_trans h2 (List.takeWhile_sublist q).length_le
    refine ⟨hle, ?_, all_take_of_le_takeWhile q cs h2⟩
    cases cs with
    | nil => simp at hle; omega
    | cons c rest =>
      cases n with
      | zero => omega
      | succ n => rfl
  cases p with
  | «show» | episode | segment | any =>
    obtain ⟨h1, h2, h3⟩ := free h
    exact ⟨h1, by rw [isWord, h2, h3]; rfl⟩
  | _ => exact fixed h

end Placeholder

end BroadcastIntake
