import BroadcastIntake.Proofs.Pattern.Cut
import Mathlib.Data.List.Forall2

/-!
# The languages of expressions

`Placeholder.fragment` and `Pattern.expression` write regular expressions as texts.  An `Expression`
is what such a text writes: `Expression.text` writes it out, and `Expression.Matches` says which
characters it matches, without saying how they are found.

* `Placeholder.text_expression`: the expression of a placeholder writes its fragment;
* `Placeholder.matches_expression_iff`: what it matches are the words of the placeholder;
* `Expression.expression_eq`: the expression of a row of tokens writes that of the pattern;
* `Expression.matches_ofTokens_iff`: what it matches is cut into one match for each token.
-/

namespace BroadcastIntake

/-- What a class of characters lists: a character, or all blanks. -/
inductive ClassItem where
  | char (c : Char)
  | blank

/-- A class of characters: the digits, or those that a list holds or does not hold.  The lists name
no letters, so it makes no difference to a class whether letter case is ignored. -/
inductive CharClass where
  | digit
  | oneOf (items : List ClassItem)
  | noneOf (items : List ClassItem)

/-- How often something is repeated. -/
inductive Repetition where
  | exactly (n : Nat)
  | between (low high : Nat)
  | oneOrMore
  | atMostOnce

/-- A regular expression. -/
inductive Expression where
  | empty
  | char (c : Char)
  | ofClass (c : CharClass)
  | cat (e f : Expression)
  | alt (e f : Expression)
  | times (e : Expression) (r : Repetition)
  | group (captures : Bool) (e : Expression)

/-! ## Writing -/

def ClassItem.text : ClassItem → String
  | char c => if c = '-' then "\\-" else c.toString
  | blank => "\\s"

def CharClass.text : CharClass → String
  | digit => "\\d"
  | oneOf items => "[" ++ String.join (items.map ClassItem.text) ++ "]"
  | noneOf items => "[^" ++ String.join (items.map ClassItem.text) ++ "]"

def Repetition.text : Repetition → String
  | exactly n => "\x7b" ++ toString n ++ "\x7d"
  | between low high => "\x7b" ++ toString low ++ "," ++ toString high ++ "\x7d"
  | oneOrMore => "+"
  | atMostOnce => "?"

def Expression.text : Expression → String
  | empty => ""
  | char c => String.ofList (Pattern.escapeLiteral [c])
  | ofClass c => c.text
  | cat e f => e.text ++ f.text
  | alt e f => e.text ++ "|" ++ f.text
  | times e r => e.text ++ r.text
  | group captures e => (if captures then "(" else "(?:") ++ e.text ++ ")"

/-! ## Matching -/

def ClassItem.Has : ClassItem → Char → Prop
  | char c, d => d = c
  | blank, d => Text.isBlank d = true

def CharClass.Has : CharClass → Char → Prop
  | digit, d => Text.isDigit d = true
  | oneOf items, d => ∃ item ∈ items, item.Has d
  | noneOf items, d => ∀ item ∈ items, ¬ item.Has d

def Repetition.Allows : Repetition → Nat → Prop
  | exactly n, k => k = n
  | between low high, k => low ≤ k ∧ k ≤ high
  | oneOrMore, k => 1 ≤ k
  | atMostOnce, k => k ≤ 1

/-- Two characters are equal, or equal up to case when that is ignored. -/
def SameChar (ignoreCase : Bool) (c d : Char) : Prop :=
  if ignoreCase then Text.sameLetter c d = true else c = d

/-- Rows of characters that are equal one by one are those that a literal compares as equal. -/
theorem forall₂_sameChar_iff {ignoreCase : Bool} {l cs : List Char} :
    List.Forall₂ (SameChar ignoreCase) l cs ↔
      (if ignoreCase then Text.sameLetters l cs else l == cs) = true := by
  cases ignoreCase with
  | true =>
    have hsame : SameChar true = fun c d => Text.sameLetter c d = true := by
      funext c d
      simp [SameChar]
    rw [hsame, Text.forall₂_sameLetter_iff, if_pos rfl]
  | false =>
    have hsame : SameChar false = Eq := by
      funext c d
      simp [SameChar]
    simp [hsame, List.forall₂_eq_eq_eq]

namespace Expression

/-- The expression matches all of the characters. -/
def Matches (ignoreCase : Bool) : Expression → List Char → Prop
  | empty, cs => cs = []
  | char c, cs => ∃ d, cs = [d] ∧ SameChar ignoreCase c d
  | ofClass c, cs => ∃ d, cs = [d] ∧ c.Has d
  | cat e f, cs => ∃ us vs, cs = us ++ vs ∧ e.Matches ignoreCase us ∧ f.Matches ignoreCase vs
  | alt e f, cs => e.Matches ignoreCase cs ∨ f.Matches ignoreCase cs
  | times e r, cs => ∃ parts : List (List Char), cs = parts.flatten ∧ r.Allows parts.length ∧
      ∀ part ∈ parts, e.Matches ignoreCase part
  | group _ e, cs => e.Matches ignoreCase cs

variable {ignoreCase : Bool} {cs : List Char}

/-- A class repeated matches characters of the class, as many as are allowed. -/
theorem matches_times_ofClass {c : CharClass} {r : Repetition} :
    (times (ofClass c) r).Matches ignoreCase cs ↔ r.Allows cs.length ∧ ∀ d ∈ cs, c.Has d := by
  constructor
  · rintro ⟨parts, rfl, hallows, hparts⟩
    have hsingle : ∃ ds : List Char, parts = ds.map ([·]) ∧ ∀ d ∈ ds, c.Has d := by
      clear hallows
      induction parts with
      | nil => exact ⟨[], rfl, by simp⟩
      | cons part parts ih =>
        obtain ⟨d, rfl, hd⟩ := hparts part List.mem_cons_self
        obtain ⟨ds, rfl, hds⟩ := ih fun part hpart => hparts part (List.mem_cons_of_mem _ hpart)
        exact ⟨d :: ds, rfl, by simpa [hd] using hds⟩
    obtain ⟨ds, rfl, hds⟩ := hsingle
    rw [← List.flatMap_def, List.flatMap_singleton']
    exact ⟨by simpa using hallows, hds⟩
  · rintro ⟨hallows, hclass⟩
    refine ⟨cs.map ([·]), by rw [← List.flatMap_def, List.flatMap_singleton'],
      by simpa using hallows, ?_⟩
    simpa [Matches] using hclass

/-! ## Words -/

/-- The characters one after the other. -/
def chars : List Char → Expression
  | [] => empty
  | c :: cs => cat (char c) (chars cs)

/-- One of several words; there is at least one. -/
def words (first : String) : List String → Expression
  | [] => chars first.toList
  | next :: rest => alt (chars first.toList) (words next rest)

theorem matches_chars_iff {l : List Char} :
    (chars l).Matches ignoreCase cs ↔ List.Forall₂ (SameChar ignoreCase) l cs := by
  induction l generalizing cs with
  | nil => simp [chars, Matches]
  | cons c l ih =>
    simp only [chars, Matches, ih, List.forall₂_cons_left_iff]
    constructor
    · rintro ⟨_, vs, rfl, ⟨d, rfl, hd⟩, hvs⟩
      exact ⟨d, vs, hd, hvs, rfl⟩
    · rintro ⟨d, vs, hd, hvs, rfl⟩
      exact ⟨[d], vs, rfl, ⟨d, rfl, hd⟩, hvs⟩

theorem matches_words_iff {first : String} {rest : List String} :
    (words first rest).Matches ignoreCase cs ↔
      ∃ word ∈ first :: rest, List.Forall₂ (SameChar ignoreCase) word.toList cs := by
  induction rest generalizing first with
  | nil => simp [words, matches_chars_iff]
  | cons next rest ih => simp [words, Matches, matches_chars_iff, ih]

end Expression

/-! ## The fragments of the placeholders -/

namespace Placeholder

open Expression (times ofClass cat group)

/-- Digits, as many as are allowed. -/
def digits (r : Repetition) : Expression :=
  times (ofClass .digit) r

/-- Characters of a text field, at least one and none of those listed. -/
def textField (items : List ClassItem) : Expression :=
  times (ofClass (.noneOf items)) .oneOrMore

/-- A mark between parts of a time and two digits. -/
def timePart : Expression :=
  cat (ofClass (.oneOf [.char ':', .char '-'])) (digits (.exactly 2))

/-- The expression of a placeholder within its group. -/
def body : Placeholder → Expression
  | year => digits (.exactly 4)
  | shortYear => digits (.exactly 2)
  | month | day => digits (.between 1 2)
  | weekday => Expression.words (weekdaySpellings.headD "") weekdaySpellings.tail
  | «show» => textField [.char '_', .char '-', .blank]
  | episode | segment | any => textField [.char '_', .char '-', .blank, .char '.']
  | time => cat (digits (.between 1 2)) (cat timePart (times (group false timePart) .atMostOnce))

def expression (p : Placeholder) : Expression :=
  group true p.body

/-- The expression of a placeholder writes its fragment. -/
theorem text_expression (p : Placeholder) : p.expression.text = p.fragment := by
  cases p <;> decide +kernel

variable {ignoreCase : Bool} {cs : List Char}

theorem matches_digits_iff {r : Repetition} : (digits r).Matches ignoreCase cs ↔
    r.Allows cs.length ∧ cs.all Text.isDigit = true := by
  simp [digits, Expression.matches_times_ofClass, CharClass.Has]

theorem matches_textField_iff {items : List ClassItem} {q : Char → Bool}
    (hq : ∀ d, q d = true ↔ ∀ item ∈ items, ¬ item.Has d) :
    (textField items).Matches ignoreCase cs ↔ (!cs.isEmpty && cs.all q) = true := by
  rw [textField, Expression.matches_times_ofClass]
  have hsome : Repetition.oneOrMore.Allows cs.length ↔ (!cs.isEmpty) = true := by
    cases cs <;> simp [Repetition.Allows]
  simp [hsome, CharClass.Has, hq]

theorem isShowChar_iff (d : Char) :
    isShowChar d = true ↔ ∀ item ∈ [ClassItem.char '_', .char '-', .blank], ¬ item.Has d := by
  simp [isShowChar, ClassItem.Has, and_assoc]

theorem isFieldChar_iff (d : Char) :
    isFieldChar d = true ↔
      ∀ item ∈ [ClassItem.char '_', .char '-', .blank, .char '.'], ¬ item.Has d := by
  simp [isFieldChar, isShowChar, ClassItem.Has, and_assoc]

theorem matches_timePart_iff : timePart.Matches ignoreCase cs ↔ isTimePart cs = true := by
  constructor
  · rintro ⟨_, vs, rfl, ⟨m, rfl, hm⟩, hvs⟩
    obtain ⟨hlength, hdigits⟩ := matches_digits_iff.1 hvs
    obtain ⟨a, b, rfl⟩ := List.length_eq_two.1 hlength
    have hmark : isTimeMark m = true := by
      simpa [isTimeMark, CharClass.Has, ClassItem.Has] using hm
    simpa [isTimePart, hmark] using hdigits
  · intro hpart
    unfold isTimePart at hpart
    split at hpart
    · rename_i m a b
      simp only [Bool.and_eq_true] at hpart
      refine ⟨[m], [a, b], rfl, ⟨m, rfl, ?_⟩, matches_digits_iff.2 ⟨rfl, by simp [hpart]⟩⟩
      simpa [CharClass.Has, ClassItem.Has, isTimeMark] using hpart.1.1
    · cases hpart

theorem matches_timeTail_iff :
    (cat timePart (times (group false timePart) .atMostOnce)).Matches ignoreCase cs ↔
      isTimeTail cs = true := by
  constructor
  · rintro ⟨us, _, rfl, hus, parts, rfl, hallows, hparts⟩
    have hfirst := matches_timePart_iff.1 hus
    have hlength := length_of_isTimePart hfirst
    match parts, hallows with
    | [], _ => simp [isTimeTail, hfirst]
    | [vs], _ =>
      have hsecond := matches_timePart_iff.1 (hparts vs List.mem_cons_self)
      simp [isTimeTail, ← hlength, hfirst, hsecond]
  · intro htail
    simp only [isTimeTail, Bool.or_eq_true, Bool.and_eq_true] at htail
    rcases htail with hfirst | ⟨hfirst, hsecond⟩
    · exact ⟨cs, [], by simp, matches_timePart_iff.2 hfirst, [], by simp [Repetition.Allows]⟩
    · refine ⟨cs.take 3, cs.drop 3, (List.take_append_drop 3 cs).symm,
        matches_timePart_iff.2 hfirst, [cs.drop 3], by simp, by simp [Repetition.Allows], ?_⟩
      simpa [Expression.Matches] using matches_timePart_iff.2 hsecond

theorem matches_time_iff : time.body.Matches ignoreCase cs ↔ isTime cs = true := by
  have hhours : ∀ n, n = 1 ∨ n = 2 → (cs.take n).all Text.isDigit = true →
      isTimeTail (cs.drop n) = true → time.body.Matches ignoreCase cs := by
    intro n hn hdigits htail
    have hlength := length_of_isTimeTail htail
    rw [List.length_drop] at hlength
    refine ⟨cs.take n, cs.drop n, (List.take_append_drop n cs).symm,
      matches_digits_iff.2 ⟨?_, hdigits⟩, matches_timeTail_iff.2 htail⟩
    rw [List.length_take]
    simp only [Repetition.Allows]
    omega
  simp only [isTime, Bool.or_eq_true, Bool.and_eq_true]
  constructor
  · rintro ⟨us, vs, rfl, hus, hvs⟩
    obtain ⟨⟨hlow, hhigh⟩, hdigits⟩ := matches_digits_iff.1 hus
    have htail := matches_timeTail_iff.1 hvs
    rcases (show us.length = 1 ∨ us.length = 2 by omega) with hlength | hlength
    · exact .inl ⟨by rwa [← hlength, List.take_left], by rwa [← hlength, List.drop_left]⟩
    · exact .inr ⟨by rwa [← hlength, List.take_left], by rwa [← hlength, List.drop_left]⟩
  · rintro (⟨hdigits, htail⟩ | ⟨hdigits, htail⟩)
    · exact hhours 1 (.inl rfl) hdigits htail
    · exact hhours 2 (.inr rfl) hdigits htail

theorem matches_weekday_iff : weekday.body.Matches true cs ↔ isWeekday cs = true := by
  rw [body, Expression.matches_words_iff]
  simp only [forall₂_sameChar_iff, if_true, isWeekday, List.any_eq_true]
  rfl

/-- What the expression of a placeholder matches are its words.  The days of the week are spelled
in small letters, and their words are those up to case. -/
theorem matches_expression_iff (p : Placeholder) (hcase : p = .weekday → ignoreCase = true) :
    p.expression.Matches ignoreCase cs ↔ p.isWord cs = true := by
  cases p with
  | year | shortYear =>
    refine matches_digits_iff.trans ?_
    simp [isWord, Repetition.Allows]
  | month | day =>
    have hlength : (1 ≤ cs.length ∧ cs.length ≤ 2) ↔ (cs.length = 1 ∨ cs.length = 2) := by omega
    refine matches_digits_iff.trans ?_
    simp [isWord, Repetition.Allows, hlength]
  | weekday =>
    obtain rfl := hcase rfl
    exact matches_weekday_iff
  | «show» => exact matches_textField_iff isShowChar_iff
  | episode | segment | any => exact matches_textField_iff isFieldChar_iff
  | time => exact matches_time_iff

end Placeholder

/-! ## Whole patterns -/

namespace Expression

/-- The expression of a token. -/
def ofToken : Token → Expression
  | .literal cs => chars cs
  | .field _ p => p.expression

/-- The expressions of the tokens one after the other. -/
def ofTokens (tokens : List Token) : Expression :=
  tokens.foldr (fun t e => cat (ofToken t) e) empty

theorem text_chars (cs : List Char) :
    (chars cs).text = String.ofList (Pattern.escapeLiteral cs) := by
  induction cs with
  | nil => rfl
  | cons c cs ih =>
    rw [chars, text, text, ih, ← String.ofList_append]
    simp [Pattern.escapeLiteral]

theorem text_ofToken (t : Token) : (ofToken t).text = Pattern.tokenExpression t := by
  cases t with
  | literal cs => exact text_chars cs
  | field cs p => exact p.text_expression

theorem text_ofTokens (tokens : List Token) :
    (ofTokens tokens).text = String.join (tokens.map Pattern.tokenExpression) := by
  induction tokens with
  | nil => rfl
  | cons t tokens ih =>
    rw [List.map_cons, String.join_cons, ← ih, ← text_ofToken]
    rfl

/-- The expression of a pattern's tokens, between the two anchors, is what the pattern writes. -/
theorem expression_eq (p : Pattern) : p.expression = "^" ++ (ofTokens p.tokens).text ++ "$" := by
  rw [text_ofTokens]
  rfl

theorem matches_ofTokens_iff {ignoreCase : Bool} {tokens : List Token} {cs : List Char} :
    (ofTokens tokens).Matches ignoreCase cs ↔ ∃ segments, cs = segments.flatten ∧
      List.Forall₂ (fun t segment => (ofToken t).Matches ignoreCase segment) tokens segments := by
  induction tokens generalizing cs with
  | nil => simp [ofTokens, Matches]
  | cons t tokens ih =>
    constructor
    · rintro ⟨us, _, rfl, hus, hvs⟩
      obtain ⟨segments, rfl, hsegments⟩ := ih.1 hvs
      exact ⟨us :: segments, rfl, .cons hus hsegments⟩
    · rintro ⟨_, rfl, _ | ⟨hus, hsegments⟩⟩
      exact ⟨_, _, rfl, hus, ih.2 ⟨_, rfl, hsegments⟩⟩

end Expression

end BroadcastIntake
