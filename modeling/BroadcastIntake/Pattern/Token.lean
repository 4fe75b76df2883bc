import BroadcastIntake.Pattern.Placeholder

/-!
# Tokens of a pattern

A pattern is cut at its brace groups.  A brace group is an opening brace, characters other than
braces, and a closing brace; all other characters, single braces among them, are literal.  No two
brace groups overlap, so there is one way to cut.
-/

namespace BroadcastIntake

/-- A piece of a pattern: literal characters, or a brace group without its braces. -/
inductive PatternPiece where
  | literal (cs : List Char)
  | group (body : List Char)
  deriving DecidableEq, Repr

namespace PatternPiece

def chars : PatternPiece → List Char
  | literal cs => cs
  | group body => '{' :: body ++ ['}']

def ofLiteral (cs : List Char) : List PatternPiece :=
  if cs.isEmpty then [] else [literal cs]

/-- Cuts the characters that follow a literal, given backwards as `before`.  `body?` holds the
characters since an opening brace that is still open, backwards too. -/
def cut (before : List Char) (body? : Option (List Char)) : List Char → List PatternPiece
  | [] =>
    match body? with
    | none => ofLiteral before.reverse
    | some body => ofLiteral (before.reverse ++ '{' :: body.reverse)
  | c :: rest =>
    match body? with
    | none => if c = '{' then cut before (some []) rest else cut (c :: before) none rest
    | some body =>
      if c = '}' then ofLiteral before.reverse ++ group body.reverse :: cut [] none rest
      else if c = '{' then cut (body ++ '{' :: before) (some []) rest
      else cut before (some (c :: body)) rest

end PatternPiece

def patternPieces (pattern : String) : List PatternPiece :=
  PatternPiece.cut [] none pattern.toList

def groupBodies (pattern : String) : List (List Char) :=
  (patternPieces pattern).filterMap fun piece =>
    match piece with
    | .group body => some body
    | .literal _ => none

/-- A token of a pattern: literal characters, or a placeholder with the characters that call it. -/
inductive Token where
  | literal (cs : List Char)
  | field (cs : List Char) (placeholder : Placeholder)
  deriving DecidableEq, Repr

namespace Token

/-- The characters of a token as they stand in the pattern. -/
def chars : Token → List Char
  | literal cs | field cs _ => cs

def text (t : Token) : String :=
  String.ofList t.chars

def placeholder? : Token → Option Placeholder
  | literal _ => none
  | field _ p => some p

end Token

/-- Why a pattern is not accepted. -/
inductive PatternFault where
  /-- A brace group does not call a placeholder. -/
  | unknownPlaceholder (group : String)
  /-- A literal holds a wildcard. -/
  | wildcard
  deriving DecidableEq, Repr

/-- A pattern that is not accepted, and why. -/
structure PatternError where
  pattern : String
  fault : PatternFault
  deriving DecidableEq, Repr

namespace PatternError

/-- The part of the pattern that is at fault. -/
def token (e : PatternError) : String :=
  match e.fault with
  | .unknownPlaceholder group => group
  | .wildcard => "*"

def message (e : PatternError) : String :=
  "Invalid pattern \"" ++ e.pattern ++ "\": " ++
    match e.fault with
    | .unknownPlaceholder group => "Unknown placeholder " ++ group
    | .wildcard =>
      "Wildcards (*) are not supported, use a placeholder such as \x7bANY\x7d"

end PatternError

/-- The token of a piece; the text of the brace group is the failure. -/
def PatternPiece.token? : PatternPiece → Except String Token
  | literal cs => .ok (.literal cs)
  | group body =>
    match Placeholder.ofBody? body with
    | some p => .ok (.field (group body).chars p)
    | none => .error (String.ofList (group body).chars)

/-- The tokens of a pattern, or the first brace group that calls no placeholder. -/
def tokenize (pattern : String) : Except PatternError (List Token) :=
  match (patternPieces pattern).mapM PatternPiece.token? with
  | .ok tokens => .ok tokens
  | .error group => .error ⟨pattern, .unknownPlaceholder group⟩

end BroadcastIntake
