import BroadcastIntake.Child.Script

/-!
# Tokens of a script

A script is cut into words, redirections and marks.  Quotes and backslashes keep characters from
being read as marks, and a comment reaches to the end of its line.
-/

namespace BroadcastIntake

namespace Child

/-- What a token of a script is. -/
inductive TokenKind where
  | word (parts : ScriptWord)
  | redirect (channel : Nat) (kind : RedirectionKind)
  | lineEnd
  | next
  | background
  | andThen
  | orElse
  | pipe
  | opening
  | closing
  | caseEnd
  /-- A quote that is not closed; nothing is read after it. -/
  | unclosed
  deriving DecidableEq, Repr

/-- A token of a script, and the line on which it ends. -/
structure ScriptToken where
  line : Nat
  kind : TokenKind
  deriving DecidableEq, Repr

/-- Where in a word the reading is. -/
inductive QuoteState where
  | outside
  | single
  | double
  deriving DecidableEq, Repr

/-! ## Values and scripts within words -/

def isSpecialName (c : Char) : Bool :=
  c.isDigit || ['#', '?', '$', '@', '*', '!'].contains c

/-- The use of a value by what stands behind its name in braces. -/
def valueUse : List Char → ValueUse
  | ':' :: '-' :: word | ':' :: '=' :: word => .orWord true word
  | '-' :: word | '=' :: word => .orWord false word
  | ':' :: '+' :: word => .andWord true word
  | '+' :: word => .andWord false word
  | _ => .plain

/-- The name at the start of the characters, and what follows it. -/
def splitName : List Char → List Char × List Char
  | c :: rest =>
    if isSpecialName c then ([c], rest)
    else ((c :: rest).takeWhile isNameChar, (c :: rest).dropWhile isNameChar)
  | [] => ([], [])

/-- The value that the characters between two braces ask for. -/
def bracedValue (isQuoted : Bool) : List Char → WordPart
  | '#' :: c :: rest => .value isQuoted (String.ofList (c :: rest)) .length
  | cs =>
    let (name, behind) := splitName cs
    .value isQuoted (String.ofList name) (valueUse behind)

/-- The characters up to the parenthesis that closes `depth` more than it opens, and the characters
after it. -/
def takeNested : Nat → QuoteState → List Char → Option (List Char × List Char)
  | _, _, [] => none
  | depth, .single, c :: rest =>
    (takeNested depth (if c = '\'' then .outside else .single) rest).map fun (body, after) =>
      (c :: body, after)
  | depth, .double, '\\' :: c :: rest =>
    (takeNested depth .double rest).map fun (body, after) => ('\\' :: c :: body, after)
  | depth, .double, c :: rest =>
    (takeNested depth (if c = '"' then .outside else .double) rest).map fun (body, after) =>
      (c :: body, after)
  | depth, .outside, '\\' :: c :: rest =>
    (takeNested depth .outside rest).map fun (body, after) => ('\\' :: c :: body, after)
  | depth, .outside, c :: rest =>
    match c, depth with
    | ')', 0 => some ([], rest)
    | ')', depth + 1 => (takeNested depth .outside rest).map fun (body, after) => (c :: body, after)
    | '(', depth =>
      (takeNested (depth + 1) .outside rest).map fun (body, after) => (c :: body, after)
    | c, depth =>
      let state : QuoteState :=
        if c = '\'' then .single else if c = '"' then .double else .outside
      (takeNested depth state rest).map fun (body, after) => (c :: body, after)

/-- The part for what stands between parentheses after a dollar sign: an arithmetic expression when
it stands in parentheses of its own, and a script otherwise. -/
def nestedPart (isQuoted : Bool) (body : List Char) : WordPart :=
  if body.head? = some '(' && body.getLast? = some ')' && 2 ≤ body.length then
    .arithmetic isQuoted (body.drop 1).dropLast
  else .output isQuoted body

/-- The script between two backquotes, and the characters after it. -/
def takeBackquoted : List Char → Option (List Char × List Char)
  | [] => none
  | '\\' :: c :: rest =>
    (takeBackquoted rest).map fun (body, after) =>
      (if ['`', '\\', '$'].contains c then c :: body else '\\' :: c :: body, after)
  | c :: rest =>
    if c = '`' then some ([], rest)
    else (takeBackquoted rest).map fun (body, after) => (c :: body, after)

/-- The part that a dollar sign begins, and the characters after it; the sign itself when it begins
nothing. -/
def readDollar (isQuoted : Bool) : List Char → Option (WordPart × List Char)
  | '(' :: rest =>
    (takeNested 0 .outside rest).map fun (body, after) => (nestedPart isQuoted body, after)
  | '{' :: rest =>
    let body := rest.takeWhile (· ≠ '}')
    match rest.drop body.length with
    | _ :: after => some (bracedValue isQuoted body, after)
    | [] => none
  | cs =>
    match splitName cs with
    | ([], _) => some (.text isQuoted ['$'], cs)
    | (name, after) => some (.value isQuoted (String.ofList name) .plain, after)

/-! ## Words -/

def endsWord (c : Char) : Bool :=
  [' ', '\t', '\n', ';', '&', '|', '<', '>', '(', ')'].contains c

/-- A part in front of the parts of the rest of a word. -/
def before (part : WordPart) :
    Option (ScriptWord × List Char) → Option (ScriptWord × List Char) :=
  Option.map fun (parts, left) => (ScriptWord.cons part parts, left)

/-- The parts of a word of at most `n` characters, and what follows it; none when a quote is not
closed. -/
def readParts : Nat → QuoteState → List Char → Option (ScriptWord × List Char)
  | 0, _, _ => none
  | _, .outside, [] => some ([], [])
  | _, _, [] => none
  | n + 1, .single, c :: rest =>
    if c = '\'' then readParts n .outside rest
    else before (.text true [c]) (readParts n .single rest)
  | n + 1, state, '$' :: rest =>
    match readDollar (state = .double) rest with
    | some (part, after) => before part (readParts n state after)
    | none => none
  | n + 1, state, '`' :: rest =>
    match takeBackquoted rest with
    | some (script, after) =>
      before (.output (state = .double) script) (readParts n state after)
    | none => none
  | n + 1, .double, '\\' :: c :: rest =>
    let kept :=
      if c = '\n' then [] else if ['$', '"', '\\', '`'].contains c then [c] else ['\\', c]
    before (.text true kept) (readParts n .double rest)
  | n + 1, .double, c :: rest =>
    if c = '"' then readParts n .outside rest
    else before (.text true [c]) (readParts n .double rest)
  | n + 1, .outside, '\\' :: c :: rest =>
    if c = '\n' then readParts n .outside rest
    else before (.text true [c]) (readParts n .outside rest)
  | n + 1, .outside, c :: rest =>
    if c = '\'' then before (.text true []) (readParts n .single rest)
    else if c = '"' then before (.text true []) (readParts n .double rest)
    else if endsWord c then some ([], c :: rest)
    else before (.text false [c]) (readParts n .outside rest)

/-! ## Marks -/

/-- A redirection of a channel at the start of the characters, and what follows it. -/
def readRedirection? (channel : Option Nat) : List Char → Option (TokenKind × List Char)
  | '>' :: '>' :: rest => some (.redirect (channel.getD 1) .append, rest)
  | '>' :: '&' :: rest => some (.redirect (channel.getD 1) .duplicate, rest)
  | '>' :: '|' :: rest | '>' :: rest => some (.redirect (channel.getD 1) .write, rest)
  | '<' :: rest => some (.redirect (channel.getD 0) .read, rest)
  | _ => none

/-- A mark at the start of the characters, and what follows it. -/
def readMark? : List Char → Option (TokenKind × List Char)
  | '&' :: '&' :: rest => some (.andThen, rest)
  | '&' :: rest => some (.background, rest)
  | '|' :: '|' :: rest => some (.orElse, rest)
  | '|' :: rest => some (.pipe, rest)
  | ';' :: ';' :: rest => some (.caseEnd, rest)
  | ';' :: rest => some (.next, rest)
  | '\n' :: rest => some (.lineEnd, rest)
  | '(' :: rest => some (.opening, rest)
  | ')' :: rest => some (.closing, rest)
  | c :: rest =>
    if c.isDigit then readRedirection? (some (c.toNat - '0'.toNat)) rest
    else readRedirection? none (c :: rest)
  | [] => none

/-- The token at the start of the characters, and what follows it. -/
def readToken (cs : List Char) : TokenKind × List Char :=
  match readMark? cs with
  | some found => found
  | none =>
    match readParts (cs.length + 1) .outside cs with
    | some (parts, left) => (.word parts, left)
    | none => (.unclosed, [])

/-- The tokens of at most `n` characters, the first of which stands on the given line. -/
def readTokens : Nat → Nat → List Char → List ScriptToken
  | 0, _, _ | _, _, [] => []
  | n + 1, line, c :: rest =>
    if c = ' ' || c = '\t' then readTokens n line rest
    else if c = '#' then readTokens n line (rest.dropWhile (· ≠ '\n'))
    else if c = '\\' && rest.head? = some '\n' then readTokens n (line + 1) rest.tail
    else
      let (kind, left) := readToken (c :: rest)
      let lines := ((c :: rest).take (rest.length + 1 - left.length)).count '\n'
      if kind = .lineEnd then ⟨line, kind⟩ :: readTokens n (line + 1) left
      else ⟨line + lines, kind⟩ :: readTokens n (line + lines) left

def tokensOf (script : List Char) : List ScriptToken :=
  readTokens script.length 1 script

end Child

end BroadcastIntake
