import BroadcastIntake.Number.Text

/-!
# File sizes as text

A file size is told in the first unit of which it has fewer than 1024, with one place after the
point.  What is too large for gigabytes is told in terabytes, however many they are.
-/

namespace BroadcastIntake

namespace FileSize

/-- How many of a unit make one of the next. -/
def unitRatio : Nat := 1024

/-- The units below the largest one. -/
def smallUnits : List String := ["B", "KB", "MB", "GB"]

def largestUnit : String := "TB"

/-- A number of the first of the given units, told in the first unit that is large enough. -/
def textIn (size : Binary64) : List String → String
  | [] => s!"{size.fixedText 1} {largestUnit}"
  | unit :: larger =>
    if size < Binary64.ofRatio false unitRatio 1 then s!"{size.fixedText 1} {unit}"
    else textIn (size.divNat unitRatio) larger

def text (bytes : Binary64) : String :=
  textIn bytes smallUnits

def ofContent (content : ByteArray) : String :=
  text (.ofRatio false content.size 1)

end FileSize

end BroadcastIntake
