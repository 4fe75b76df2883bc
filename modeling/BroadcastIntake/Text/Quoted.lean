import BroadcastIntake.Text.Unprintable

/-!
# Quoted texts

The form in which a text is shown inside a message: between quotes, with the quote, the backslash
and every unprintable character escaped.  Single quotes are used unless the text holds a single
quote and no double quote.
-/

namespace BroadcastIntake.Text

/-- The hexadecimal digits of `n` in small letters, filled up with zeros to at least `width`. -/
def hexDigits (width n : Nat) : List Char :=
  let digits := Nat.toDigits 16 n
  List.replicate (width - digits.length) '0' ++ digits

/-- The escape of one character by its code: two, four or eight hexadecimal digits. -/
def codeEscape (code : Nat) : List Char :=
  if code < 0x100 then '\\' :: 'x' :: hexDigits 2 code
  else if code < 0x10000 then '\\' :: 'u' :: hexDigits 4 code
  else '\\' :: 'U' :: hexDigits 8 code

/-- One character as it stands between quotes of the given kind. -/
def quotedChar (quote c : Char) : List Char :=
  if c = quote || c = '\\' then ['\\', c]
  else if c = '\n' then ['\\', 'n']
  else if c = '\r' then ['\\', 'r']
  else if c = '\t' then ['\\', 't']
  else if isPrintable c then [c]
  else codeEscape c.toNat

def quoteFor (cs : List Char) : Char :=
  if cs.contains '\'' && !cs.contains '"' then '"' else '\''

def quoted (s : String) : String :=
  let quote := quoteFor s.toList
  String.ofList (quote :: s.toList.flatMap (quotedChar quote) ++ [quote])

end BroadcastIntake.Text
