/-!
# Flows

What goes through a pipe: some bytes, or bytes that are followed by the same ones again and again.
-/

namespace BroadcastIntake

namespace Child

/-- What goes through a pipe. -/
inductive Flow where
  | bytes (content : ByteArray)
  /-- The start, and then the unit for ever. -/
  | endless (start unit : ByteArray)
  deriving Inhabited

namespace Flow

def empty : Flow := bytes ByteArray.empty

def ofText (s : String) : Flow := bytes s.toUTF8

/-- The same bytes `n` times. -/
def repeated (unit : ByteArray) (n : Nat) : ByteArray :=
  n.repeat (· ++ unit) ByteArray.empty

def take (n : Nat) : Flow → ByteArray
  | bytes content => content.extract 0 n
  | endless start unit =>
    if unit.isEmpty then start.extract 0 n
    else (start ++ repeated unit ((n - start.size) / unit.size + 1)).extract 0 n

def append : Flow → Flow → Flow
  | bytes a, bytes b => bytes (a ++ b)
  | bytes a, endless start unit => endless (a ++ start) unit
  | endless start unit, _ => endless start unit

def lineEnd : UInt8 := 10

/-- The bytes of a line: up to its line end, or all of them. -/
def splitLine : List UInt8 → List UInt8 × List UInt8
  | [] => ([], [])
  | b :: rest =>
    if b = lineEnd then ([b], rest)
    else
      let (line, after) := splitLine rest
      (b :: line, after)

/-- What is after the first line is no longer than the whole. -/
theorem length_splitLine_le (bytes : List UInt8) :
    (splitLine bytes).2.length ≤ bytes.length := by
  induction bytes with
  | nil => simp [splitLine]
  | cons b rest ih =>
    by_cases h : b = lineEnd
    · simp [splitLine, h]
    · simp only [splitLine, h, if_false, List.length_cons]
      omega

/-- The lines of bytes, each with its line end, if it has one. -/
def lines : List UInt8 → List (List UInt8)
  | [] => []
  | b :: rest =>
    let after := (splitLine (b :: rest)).2
    (splitLine (b :: rest)).1 :: lines after
termination_by bytes => bytes.length
decreasing_by
  have h := length_splitLine_le rest
  by_cases hb : b = lineEnd
  · simp [splitLine, hb]
  · simp [splitLine, hb]
    omega

def takeLines (n : Nat) : Flow → ByteArray
  | bytes content => ⟨((lines content.toList).take n).flatten.toArray⟩
  | endless start unit =>
    let more := if unit.toList.contains lineEnd then repeated unit n else ByteArray.empty
    ⟨((lines (start ++ more).toList).take n).flatten.toArray⟩

end Flow

end Child

end BroadcastIntake
