import BroadcastIntake.Child.Arithmetic
import BroadcastIntake.Child.Script.Token
import BroadcastIntake.Child.Shell.Basic

/-!
# Expansion of words

How a word of a script becomes fields: values, outputs and results are put in, and outside of quotes
they are cut at blanks.  A field with a wildcard outside of quotes stands for the names in the
working directory that it fits, if there are any.

Putting in what a script prints takes a shell that runs it; the functions here get it as `capture`.
-/

namespace BroadcastIntake

namespace Child

/-- A character of a field, and whether it stood in quotes. -/
structure FieldChar where
  char : Char
  isQuoted : Bool
  deriving DecidableEq, Repr

/-- The fields of a word up to some part: those that are complete, and the last one, if it has
begun. -/
structure Fields where
  before : List (List FieldChar)
  last : Option (List FieldChar)

namespace Fields

def empty : Fields := ⟨[], none⟩

def extend (f : Fields) (isQuoted : Bool) (cs : List Char) : Fields :=
  { f with last := some (f.last.getD [] ++ cs.map (FieldChar.mk · isQuoted)) }

/-- The fields with the last one complete. -/
def close (f : Fields) : Fields :=
  ⟨f.before ++ f.last.toList, none⟩

/-- The fields with one more character of a value outside of quotes. -/
def push (f : Fields) (c : Char) : Fields :=
  if c = ' ' || c = '\t' || c = '\n' then f.close else f.extend false [c]

def put (f : Fields) (isQuoted : Bool) (value : String) : Fields :=
  if isQuoted then f.extend true value.toList else value.toList.foldl push f

/-- The fields with several values in quotes, each a field of its own. -/
def putAll (f : Fields) : List String → Fields
  | [] => f
  | [value] => f.extend true value.toList
  | value :: rest => ((f.extend true value.toList).close).putAll rest

def textOf (field : List FieldChar) : String :=
  String.ofList (field.map FieldChar.char)

end Fields

/-! ## Wildcards -/

def FieldChar.isWildcard (c : FieldChar) : Bool :=
  !c.isQuoted && (c.char = '*' || c.char = '?')

def fitsName : List FieldChar → List Char → Bool
  | [], [] => true
  | [], _ :: _ => false
  | p :: ps, [] => p.isWildcard && p.char = '*' && fitsName ps []
  | p :: ps, c :: cs =>
    if p.isWildcard && p.char = '*' then fitsName ps (c :: cs) || fitsName (p :: ps) cs
    else (p.isWildcard || p.char = c) && fitsName ps cs
termination_by ps cs => ps.length + cs.length

/-- What a field stands for: the names that it fits, or its text. -/
def namesFor (tree : FileTree) (field : List FieldChar) : List String :=
  let names := (namesIn tree tree.workingDirectory).filter fun name =>
    (!name.startsWith "." || field.head?.any (·.char = '.')) && fitsName field name.toList
  if field.any FieldChar.isWildcard && !names.isEmpty then names else [Fields.textOf field]

namespace Shell

/-! ## Values -/

def value? (s : Shell) (name : String) : Option String :=
  match name with
  | "#" => some (toString s.parameters.length)
  | "?" => some (toString s.status)
  | "$" => some processNumber
  | "!" => some backgroundNumber
  | "0" => some s.name
  | "@" | "*" => some (String.intercalate " " s.parameters)
  | name =>
    match name.toNat? with
    | some n => s.parameters[n - 1]?
    | none => s.bindings.lookup name

def numberOf (s : Shell) (name : String) : Int :=
  (((s.value? name).getD "").toInt?).getD 0

/-- The shell after a script has been run, and what the script printed. -/
abbrev Capture := Shell → List Char → Shell × String

/-- The result of an arithmetic expression; the shell gives up when there is none. -/
def compute (line : Nat) (sink : Sink) (s : Shell) (expression : List Char) : Shell × String :=
  match Arithmetic.evaluate s.numberOf expression with
  | .ok n => (s, intText n)
  | .error fault =>
    let account :=
      match fault with
      | .divisionByZero => "division by zero"
      | .malformed => "expecting primary"
    let message := s!"arithmetic expression: {account}: \"{String.ofList expression}\""
    (s.giveUp line sink message, "")

/-- The shell and the fields with one more part of a word; `nested` puts in a word that stands
within braces. -/
def expandPart (capture : Capture)
    (nested : Bool → Shell → Fields → List Char → Shell × Fields) (line : Nat) (sink : Sink)
    (s : Shell) (f : Fields) (part : WordPart) : Shell × Fields :=
  match part with
  | .text isQuoted cs => (s, f.extend isQuoted cs)
  | .value true "@" .plain => (s, f.putAll s.parameters)
  | .value isQuoted name use =>
    let value? := s.value? name
    let isGiven (coversEmpty : Bool) : Bool :=
      value?.any fun value => !(coversEmpty && value = "")
    match use with
    | .plain => (s, f.put isQuoted (value?.getD ""))
    | .length => (s, f.put isQuoted (toString (value?.getD "").length))
    | .orWord coversEmpty word =>
      if isGiven coversEmpty then (s, f.put isQuoted (value?.getD "")) else nested isQuoted s f word
    | .andWord coversEmpty word =>
      if isGiven coversEmpty then nested isQuoted s f word else (s, f)
  | .output isQuoted script =>
    let (after, text) := capture s script
    let shown := String.ofList (Text.Chars.trimRight (· = '\n') text.toList)
    (after, f.put isQuoted shown)
  | .arithmetic isQuoted expression =>
    let (after, result) := compute line sink s expression
    (after, f.put isQuoted result)

/-- The shell and the fields with one more part of a word, in which words within braces stand in
each other at most `depth` times. -/
def expandWithin (capture : Capture) (line : Nat) (sink : Sink) :
    Nat → Shell → Fields → WordPart → Shell × Fields
  | 0 => expandPart capture (fun _ s f _ => (s, f)) line sink
  | depth + 1 =>
    let nested (isQuoted : Bool) (s : Shell) (f : Fields) (word : List Char) : Shell × Fields :=
      let cs := if isQuoted then word ++ ['"'] else word
      match readParts (cs.length + 1) (if isQuoted then .double else .outside) cs with
      | some (parts, _) =>
        parts.foldl (fun (s, f) part => expandWithin capture line sink depth s f part) (s, f)
      | none => (s, f)
    expandPart capture nested line sink

/-- How deep words within braces may stand in each other. -/
def nestingLimit : Nat := 20

/-- Whether a word is all parameters in quotes, and nothing else. -/
def isAllParameters (word : ScriptWord) : Bool :=
  word.filter (· ≠ .text true []) = [.value true "@" .plain]

/-- The shell and the fields of a word, before wildcards are resolved. -/
def expandFields (capture : Capture) (line : Nat) (sink : Sink) (s : Shell) (word : ScriptWord) :
    Shell × List (List FieldChar) :=
  if isAllParameters word && s.parameters.isEmpty then (s, [])
  else
    let (s, fields) := word.foldl
      (fun (s, f) part => expandWithin capture line sink nestingLimit s f part) (s, Fields.empty)
    (s, fields.close.before)

/-- The shell and the texts for words. -/
def expandAll (capture : Capture) (line : Nat) (sink : Sink) (s : Shell) :
    List ScriptWord → Shell × List String
  | [] => (s, [])
  | word :: rest =>
    let (s, fields) := expandFields capture line sink s word
    let (after, texts) := expandAll capture line sink s rest
    (after, fields.flatMap (namesFor s.tree) ++ texts)

/-- The shell and the text of a word that stays one field. -/
def expandOne (capture : Capture) (line : Nat) (sink : Sink) (s : Shell) (word : ScriptWord) :
    Shell × String :=
  let (s, fields) := expandFields capture line sink s word
  (s, String.intercalate " " (fields.map Fields.textOf))

end Shell

end Child

end BroadcastIntake
