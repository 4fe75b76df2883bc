/-!
# Shell scripts

The form of shell scripts.  A simple command is a row of words with redirections; larger scripts are
made of smaller ones: one after another, joined to a pipe, depending on each other, or repeated.

A word is a row of parts, so that it stays known which of them stood in quotes until values and
outputs are put in for names and commands.  A script within a word stays text until the word is
needed.
-/

namespace BroadcastIntake

namespace Child

/-- What is put in for a name in braces. -/
inductive ValueUse where
  | plain
  | length
  /-- The word stands in for a value that is missing, or empty too when `coversEmpty`. -/
  | orWord (coversEmpty : Bool) (word : List Char)
  /-- The word replaces a value that is not missing, and not empty either when `coversEmpty`. -/
  | andWord (coversEmpty : Bool) (word : List Char)
  deriving DecidableEq, Repr

/-- A part of a word. -/
inductive WordPart where
  | text (isQuoted : Bool) (cs : List Char)
  /-- The value of a name; outside of quotes it is cut at blanks. -/
  | value (isQuoted : Bool) (name : String) (use : ValueUse)
  /-- What a script prints; outside of quotes it is cut at blanks. -/
  | output (isQuoted : Bool) (script : List Char)
  /-- The value of an arithmetic expression. -/
  | arithmetic (isQuoted : Bool) (expression : List Char)
  deriving DecidableEq, Repr

abbrev ScriptWord := List WordPart

/-- What a redirection does with a channel. -/
inductive RedirectionKind where
  | write
  | append
  | read
  /-- The channel goes where another one goes. -/
  | duplicate
  deriving DecidableEq, Repr

/-- A redirection of a channel. -/
structure Redirection where
  channel : Nat
  kind : RedirectionKind
  target : ScriptWord
  deriving DecidableEq, Repr

/-- A script. -/
inductive Script where
  | nothing
  /-- A command, and the line on which it ends. -/
  | simple (line : Nat) (words : List ScriptWord) (redirections : List Redirection)
  | redirected (line : Nat) (body : Script) (redirections : List Redirection)
  | next (first second : Script)
  | andThen (first second : Script)
  | orElse (first second : Script)
  | negated (body : Script)
  | pipe (first second : Script)
  | background (body : Script)
  | subshell (body : Script)
  | choice (condition yes no : Script)
  /-- Repeats the body while the condition holds, or until it does. -/
  | loop (isUntil : Bool) (condition body : Script)
  /-- Runs the body when the subject fits one of the patterns. -/
  | choose (subject : ScriptWord) (patterns : List ScriptWord) (body otherwise : Script)
  /-- Makes the body a command with the given name. -/
  | define (name : String) (body : Script)
  /-- Runs the body for every field of the words; without words for every parameter. -/
  | each (name : String) (words : Option (List ScriptWord)) (body : Script)
  deriving DecidableEq, Repr

/-- What is wrong with a script, and on which line. -/
structure ScriptError where
  line : Nat
  message : String
  deriving DecidableEq, Repr

def isNameChar (c : Char) : Bool :=
  c.isAlphanum || c = '_'

def isName (cs : List Char) : Bool :=
  cs.all isNameChar && cs.head?.any fun c => !c.isDigit

namespace ScriptWord

/-- The word with one more part in front; texts that stand next to each other are joined. -/
def cons (part : WordPart) (word : ScriptWord) : ScriptWord :=
  match part, word with
  | .text first cs, .text second ds :: rest =>
    if first = second then .text first (cs ++ ds) :: rest else part :: word
  | _, _ => part :: word

/-- The text of a word that has no quotes and in which nothing is put in. -/
def plain? : ScriptWord → Option (List Char)
  | [] => some []
  | .text false cs :: rest => (plain? rest).map (cs ++ ·)
  | _ :: _ => none

/-- The name that a word gives a value, and the value, when it is an assignment. -/
def assignment? : ScriptWord → Option (String × ScriptWord)
  | .text false cs :: rest =>
    let name := cs.takeWhile (· ≠ '=')
    match cs.drop name.length with
    | _ :: value =>
      if isName name then some (String.ofList name, .text true value :: rest) else none
    | [] => none
  | _ => none

end ScriptWord

end Child

end BroadcastIntake
