import BroadcastIntake.Text.Lines

/-!
# Environment files

An environment file holds bindings `KEY=value`, one to a line, and comments after `#`.  The word
`export` may stand before a key.  A value may be quoted: in single quotes only the quote and the
backslash can be escaped, in double quotes also control characters.  `${NAME}` in a value stands
for the value of an earlier binding or of the environment, `${NAME:-text}` for `text` when there is
none.  Lines that make no sense are passed over.
-/

namespace BroadcastIntake

namespace EnvironmentFile

/-- A binding as it is written: a key and perhaps a value. -/
abbrev Binding := String × Option String

/-- White space within a line. -/
def isInlineBlank (c : Char) : Bool :=
  Text.isBlank c && c ≠ '\n' && c ≠ '\r'

def isLineEnd (c : Char) : Bool :=
  c = '\n' || c = '\r'

/-- The characters after the word `export` and the white space behind it, or all of them. -/
def skipExport (cs : List Char) : List Char :=
  let word := "export".toList
  let rest := cs.drop word.length
  if word.isPrefixOf cs && (rest.head?.all isInlineBlank) && !rest.isEmpty then
    rest.dropWhile isInlineBlank
  else cs

/-- The key at the start, none before a comment.  The outer option is empty when there is neither
key nor comment. -/
def readKey? (cs : List Char) : Option (Option String × List Char) :=
  match cs with
  | '#' :: _ => some (none, cs)
  | '\'' :: rest =>
    let key := rest.takeWhile (· ≠ '\'')
    match rest.drop key.length with
    | _ :: after => if key.isEmpty then none else some (some (String.ofList key), after)
    | [] => none
  | _ =>
    let key := cs.takeWhile fun c => c ≠ '=' && c ≠ '#' && !Text.isBlank c
    if key.isEmpty then none else some (some (String.ofList key), cs.drop key.length)

/-- The characters up to the closing quote, escapes still in place, and the characters after it. A
quote behind a backslash closes nothing, unless no other quote follows. -/
def readQuoted? (quote : Char) : List Char → Option (List Char × List Char)
  | [] => none
  | '\\' :: c :: rest =>
    if c = quote then
      match readQuoted? quote rest with
      | some (body, after) => some ('\\' :: c :: body, after)
      | none => some (['\\'], rest)
    else
      (readQuoted? quote (c :: rest)).map fun (body, after) => ('\\' :: body, after)
  | c :: rest =>
    if c = quote then some ([], rest)
    else (readQuoted? quote rest).map fun (body, after) => (c :: body, after)

def doubleEscapes : List (Char × Char) :=
  [('\\', '\\'), ('\'', '\''), ('"', '"'), ('a', '\x07'), ('b', '\x08'), ('f', '\x0c'),
   ('n', '\n'), ('r', '\r'), ('t', '\t'), ('v', '\x0b')]

def singleEscapes : List (Char × Char) :=
  [('\\', '\\'), ('\'', '\'')]

/-- The characters with their escapes resolved; other backslashes stay. -/
def resolveEscapes (escapes : List (Char × Char)) : List Char → List Char
  | [] => []
  | [c] => [c]
  | '\\' :: c :: rest =>
    match escapes.lookup c with
    | some d => d :: resolveEscapes escapes rest
    | none => '\\' :: resolveEscapes escapes (c :: rest)
  | c :: rest => c :: resolveEscapes escapes rest

/-- A value without a comment behind it: everything from white space before a `#` on is cut. -/
def cutComment : List Char → List Char
  | [] => []
  | c :: rest =>
    if Text.isBlank c && (rest.dropWhile Text.isBlank).head? = some '#' then []
    else c :: cutComment rest

def readValue? (cs : List Char) : Option (String × List Char) :=
  match cs with
  | '\'' :: rest =>
    (readQuoted? '\'' rest).map fun (body, after) =>
      (String.ofList (resolveEscapes singleEscapes body), after)
  | '"' :: rest =>
    (readQuoted? '"' rest).map fun (body, after) =>
      (String.ofList (resolveEscapes doubleEscapes body), after)
  | _ =>
    let line := cs.takeWhile fun c => !isLineEnd c
    some (Text.trimRightBy Text.isBlank (String.ofList (cutComment line)), cs.drop line.length)

/-- The characters after white space, a comment and the end of the line, when nothing else is left
on the line. -/
def endLine? (cs : List Char) : Option (List Char) :=
  let cs := cs.dropWhile isInlineBlank
  let cs :=
    match cs with
    | '#' :: _ => cs.dropWhile fun c => !isLineEnd c
    | _ => cs
  match cs with
  | [] => some []
  | c :: rest => if isLineEnd c then some rest else none

def skipLine (cs : List Char) : List Char :=
  (cs.dropWhile fun c => !isLineEnd c).drop 1

/-- Reads one line that is not blank: a binding, or none for a comment or a line that makes no
sense, and the characters after the line. -/
def readLine (cs : List Char) : Option Binding × List Char :=
  match readKey? (skipExport cs) with
  | none => (none, skipLine (skipExport cs))
  | some (key?, after) =>
    let read : Option (Option String × List Char) × List Char :=
      match after.dropWhile isInlineBlank with
      | '=' :: rest =>
        let rest := rest.dropWhile isInlineBlank
        ((readValue? rest).map fun (value, after) => (some value, after), rest)
      | rest => (some (none, rest), rest)
    match read with
    | (none, rest) => (none, skipLine rest)
    | (some (value?, rest), _) =>
      match endLine? rest with
      | none => (none, skipLine rest)
      | some after => (key?.map fun key => (key, value?), after)

/-- Reads the bindings of a file; `fuel` bounds the number of lines. -/
def readLines : Nat → List Char → List Binding
  | 0, _ => []
  | fuel + 1, cs =>
    match cs.dropWhile Text.isBlank with
    | [] => []
    | cs =>
      let (binding?, after) := readLine cs
      binding?.toList ++ readLines fuel after

/-- Replaces the references in a value by what `value?` knows of them; `skip` is the number of
characters of a reference already replaced. -/
def expandFrom (value? : String → Option String) (skip : Nat) : List Char → List Char
  | [] => []
  | c :: rest =>
    match skip with
    | n + 1 => expandFrom value? n rest
    | 0 =>
      match c, rest with
      | '$', '{' :: inner =>
        let body := inner.takeWhile (· ≠ '}')
        let name := body.takeWhile (· ≠ ':')
        let default := body.drop name.length
        let isReference :=
          body.length < inner.length && (default.isEmpty || [':', '-'].isPrefixOf default)
        if isReference then
          ((value? (String.ofList name)).map String.toList).getD (default.drop 2) ++
            expandFrom value? (body.length + 2) rest
        else c :: expandFrom value? 0 rest
      | _, _ => c :: expandFrom value? 0 rest

/-- The bindings with one more; a binding of the same key gives up its place to it. -/
def bind (b : Binding) : List Binding → List Binding
  | [] => [b]
  | other :: rest => if other.1 = b.1 then b :: rest else other :: bind b rest

/-- Resolves the references in the values of bindings, in order; a later binding may refer to
earlier ones, and those hide the environment. -/
def resolve (environment : List (String × String)) (earlier : List Binding) :
    List Binding → List Binding
  | [] => earlier
  | (key, none) :: rest => resolve environment (bind (key, none) earlier) rest
  | (key, some value) :: rest =>
    let known (name : String) : Option String :=
      match earlier.lookup name with
      | some found => some (found.getD "")
      | none => environment.lookup name
    let resolved := String.ofList (expandFrom known 0 value.toList)
    resolve environment (bind (key, some resolved) earlier) rest

/-- The bindings of a file, one for each key, in the order in which the keys first appear. -/
def read (environment : List (String × String)) (text : String) : List Binding :=
  resolve environment [] (readLines (text.length + 1) text.toList)

end EnvironmentFile

end BroadcastIntake
