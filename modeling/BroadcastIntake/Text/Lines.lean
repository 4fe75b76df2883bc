import BroadcastIntake.Text.Blank

/-!
# Lines

Text files are read with every line end, a carriage return, a newline, or both in this order, as
one newline.
-/

namespace BroadcastIntake.Text

/-- The characters with every line end made a newline. -/
def unifyLineEnds : List Char → List Char
  | [] => []
  | '\r' :: '\n' :: rest => '\n' :: unifyLineEnds rest
  | '\r' :: rest => '\n' :: unifyLineEnds rest
  | c :: rest => c :: unifyLineEnds rest

/-- The text of a file's bytes with unified line ends, when the bytes are UTF-8. -/
def ofFile? (content : ByteArray) : Option String :=
  (String.fromUTF8? content).map fun s => String.ofList (unifyLineEnds s.toList)

end BroadcastIntake.Text
