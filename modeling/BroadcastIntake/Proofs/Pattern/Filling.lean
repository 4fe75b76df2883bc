import BroadcastIntake.Proofs.Pattern.Matching
import BroadcastIntake.Proofs.Pattern.Tokens
import BroadcastIntake.Proofs.Text.Case
import Mathlib

/-!
# Filling a pattern

A pattern is filled by writing a value in the place of every placeholder.  Reading the name that is
made gives the values back when the pattern keeps its placeholders apart: behind every placeholder
the pattern ends or goes on with an underscore.  No word of a placeholder holds an underscore or a
line end, so a word can only end where the pattern puts its end.  Hence a name is cut by such a
pattern in one way at most (`Cut.unique`), and the cut that the matcher finds is the one by which
the name was made.
-/

namespace BroadcastIntake

/-! ## Underscores and line ends -/

namespace Placeholder

/-- Whether a character may stand in a word of some placeholder. -/
def isWordChar (c : Char) : Bool :=
  c ≠ '_' && c ≠ '\n'

theorem isWordChar_of {q : Char → Bool} (hunderscore : q '_' = false) (hline : q '\n' = false)
    {c : Char} (hc : q c = true) : isWordChar c = true := by
  have hne : ∀ d, q d = false → c ≠ d := by
    rintro d hd rfl
    rw [hc] at hd
    cases hd
  simp [isWordChar, hne '_' hunderscore, hne '\n' hline]

theorem all_isWordChar_of {q : Char → Bool} (hunderscore : q '_' = false) (hline : q '\n' = false)
    {cs : List Char} (hcs : cs.all q = true) : cs.all isWordChar = true := by
  rw [List.all_eq_true] at hcs ⊢
  exact fun c hc => isWordChar_of hunderscore hline (hcs c hc)

/-- Whether a character may stand in a time. -/
def isTimeChar (c : Char) : Bool :=
  Text.isDigit c || isTimeMark c

theorem all_isTimeChar_of_isTimePart {cs : List Char} (hpart : isTimePart cs = true) :
    cs.all isTimeChar = true := by
  unfold isTimePart at hpart
  split at hpart
  · simp_all [isTimeChar]
  · cases hpart

theorem all_isTimeChar_of_isTimeTail {cs : List Char} (htail : isTimeTail cs = true) :
    cs.all isTimeChar = true := by
  simp only [isTimeTail, Bool.or_eq_true, Bool.and_eq_true] at htail
  rcases htail with hpart | ⟨hfirst, hsecond⟩
  · exact all_isTimeChar_of_isTimePart hpart
  · rw [← List.take_append_drop 3 cs, List.all_append, all_isTimeChar_of_isTimePart hfirst,
      all_isTimeChar_of_isTimePart hsecond]
    rfl

theorem all_isTimeChar_of_isTime {cs : List Char} (htime : isTime cs = true) :
    cs.all isTimeChar = true := by
  have hjoined : ∀ n, (cs.take n).all Text.isDigit = true → isTimeTail (cs.drop n) = true →
      cs.all isTimeChar = true := by
    intro n hdigits htail
    rw [← List.take_append_drop n cs, List.all_append, all_isTimeChar_of_isTimeTail htail,
      Bool.and_true, List.all_eq_true]
    intro c hc
    simp [isTimeChar, List.all_eq_true.1 hdigits c hc]
  simp only [isTime, Bool.or_eq_true, Bool.and_eq_true] at htime
  rcases htime with ⟨hdigits, htail⟩ | ⟨hdigits, htail⟩
  · exact hjoined 1 hdigits htail
  · exact hjoined 2 hdigits htail

/-- What ends a word has no case. -/
theorem isCaseless_wordEnd : Text.IsCaseless '_' ∧ Text.IsCaseless '\n' := by
  decide +kernel

/-- The letter that a character is equal to is a word character with it. -/
theorem isWordChar_of_sameLetter {a c : Char} (ha : isWordChar a = true)
    (hsame : Text.sameLetter a c = true) : isWordChar c = true := by
  rw [isWordChar, Bool.and_eq_true, decide_eq_true_eq, decide_eq_true_eq] at ha ⊢
  rw [Text.sameLetter_comm] at hsame
  constructor
  · rintro rfl
    exact ha.1 (Text.eq_of_sameLetter isCaseless_wordEnd.1 hsame)
  · rintro rfl
    exact ha.2 (Text.eq_of_sameLetter isCaseless_wordEnd.2 hsame)

theorem all_isWordChar_of_sameLetters {as cs : List Char} (has : as.all isWordChar = true)
    (hsame : Text.sameLetters as cs = true) : cs.all isWordChar = true := by
  have hrows : List.Forall₂ (fun _ c => isWordChar c = true) as cs :=
    Text.forall₂_of_sameLetters
      (fun a ha c hletter => isWordChar_of_sameLetter (List.all_eq_true.1 has a ha) hletter) hsame
  clear has hsame
  induction hrows with
  | nil => rfl
  | cons hletter _ ih => rw [List.all_cons, hletter, ih, Bool.and_self]

theorem all_isWordChar_of_isWeekday {cs : List Char} (hday : isWeekday cs = true) :
    cs.all isWordChar = true := by
  have hletters : ∀ spelling ∈ weekdaySpellings, spelling.toList.all isWordChar = true := by
    decide
  obtain ⟨spelling, hspelling, hsame⟩ := List.any_eq_true.1 hday
  exact all_isWordChar_of_sameLetters (hletters spelling hspelling) hsame

/-- No word holds an underscore or a line end. -/
theorem all_isWordChar_of_isWord {p : Placeholder} {word : List Char}
    (hword : p.isWord word = true) : word.all isWordChar = true := by
  cases p with
  | year | shortYear | month | day =>
      rw [isWord, Bool.and_eq_true] at hword
      exact all_isWordChar_of (by decide) (by decide) hword.2
  | weekday => exact all_isWordChar_of_isWeekday hword
  | «show» | episode | segment | any =>
      rw [isWord, Bool.and_eq_true] at hword
      exact all_isWordChar_of (by decide) (by decide) hword.2
  | time =>
      exact all_isWordChar_of (by decide) (by decide)
        (all_isTimeChar_of_isTime hword)

theorem isWord_nil (p : Placeholder) : p.isWord [] = false := by
  cases p <;> decide

end Placeholder

namespace Pattern

/-! ## Patterns that keep their placeholders apart -/

/-- Behind every placeholder there is a literal that begins with an underscore, or nothing. -/
def KeepsApart (tokens : List Token) : Prop :=
  tokens.IsChain fun t next => t.placeholder?.isSome = true → ∃ cs, next = .literal ('_' :: cs)

/-- No word goes on into the characters. -/
def EndsWord (cs : List Char) : Prop :=
  cs.takeWhile Placeholder.isWordChar = []

variable {ignoreCase : Bool} {t : Token} {tokens : List Token} {segment cs : List Char}
  {segments others : List (List Char)}

/-- Whatever is no longer a word is cut off at the first underscore or line end. -/
theorem takeWhile_word {p : Placeholder} {word rest : List Char} (hword : p.isWord word = true)
    (hrest : EndsWord rest) : (word ++ rest).takeWhile Placeholder.isWordChar = word := by
  have hall := List.all_eq_true.1 (Placeholder.all_isWordChar_of_isWord hword)
  rw [List.takeWhile_append_of_pos hall, hrest, List.append_nil]

/-- What fits a literal is as long as the literal. -/
theorem length_eq_of_fits_literal {l : List Char} (hfits : Fits ignoreCase (.literal l) segment) :
    l.length = segment.length :=
  (forall₂_sameChar_iff.2 hfits).length_eq

/-- What fits a literal with an underscore at its start begins with an underscore, in any case. -/
theorem endsWord_of_fits {l : List Char} (hfits : Fits ignoreCase (.literal ('_' :: l)) segment) :
    EndsWord (segment ++ cs) := by
  obtain ⟨c, rest, hsame, -, rfl⟩ := List.forall₂_cons_left_iff.1 (forall₂_sameChar_iff.2 hfits)
  have hc : c = '_' := by
    cases ignoreCase with
    | true => exact Text.eq_of_sameLetter Placeholder.isCaseless_wordEnd.1 hsame
    | false => exact hsame.symm
  rw [hc]
  rfl

namespace Cut

/-- A cut starts with a segment for the first token and goes on with a cut by the others. -/
theorem of_cons (hcut : Cut ignoreCase (t :: tokens) cs segments) :
    ∃ segment rest after, Fits ignoreCase t segment ∧ Cut ignoreCase tokens rest after ∧
      cs = segment ++ rest ∧ segments = segment :: after := by
  cases hcut with
  | token hfits hrest => exact ⟨_, _, _, hfits, hrest, rfl, rfl⟩

/-- What is cut by the tokens behind a placeholder ends the word of the placeholder. -/
theorem endsWord (hcut : Cut ignoreCase tokens cs segments)
    (hfirst : ∀ t ∈ tokens.head?, ∃ l, t = .literal ('_' :: l)) : EndsWord cs := by
  cases hcut with
  | done | newline => rfl
  | token hfits _ =>
      obtain ⟨l, rfl⟩ := hfirst _ rfl
      exact endsWord_of_fits hfits

/-- **One cut**: tokens that are kept apart cut the characters in one way at most. -/
theorem unique (happart : KeepsApart tokens) (hcut : Cut ignoreCase tokens cs segments)
    (hother : Cut ignoreCase tokens cs others) : segments = others := by
  induction tokens generalizing cs segments others with
  | nil => cases hcut <;> cases hother <;> rfl
  | cons t tokens ih =>
      obtain ⟨hnext, hrest⟩ := List.isChain_cons.1 happart
      obtain ⟨segment, rest, after, hfits, hafter, rfl, rfl⟩ := hcut.of_cons
      obtain ⟨segment', rest', after', hfits', hafter', hsame, rfl⟩ := hother.of_cons
      have hsegment : segment = segment' := by
        cases t with
        | literal l =>
            refine (List.append_inj hsame ?_).1
            rw [← length_eq_of_fits_literal hfits, ← length_eq_of_fits_literal hfits']
        | field _ p =>
            have hfirst : ∀ next ∈ tokens.head?, ∃ l, next = .literal ('_' :: l) :=
              fun next hmem => hnext next hmem rfl
            -- both words go as far as word characters do
            rw [← takeWhile_word hfits (hafter.endsWord hfirst), hsame,
              takeWhile_word hfits' (hafter'.endsWord hfirst)]
      subst hsegment
      rw [List.append_cancel_left hsame] at hafter
      rw [ih hrest hafter hafter']

/-- Only tokens without characters have segments without characters. -/
theorem flatMap_chars_eq_nil (hcut : Cut ignoreCase tokens cs segments)
    (hnil : segments.flatten = []) : tokens.flatMap Token.chars = [] := by
  induction tokens generalizing cs segments with
  | nil => rfl
  | cons t tokens ih =>
      obtain ⟨segment, rest, after, hfits, htail, -, rfl⟩ := hcut.of_cons
      rw [List.flatten_cons] at hnil
      obtain ⟨rfl, hafter⟩ := List.append_eq_nil_iff.1 hnil
      have hchars : t.chars = [] := by
        cases t with
        | literal l => exact List.eq_nil_of_length_eq_zero (length_eq_of_fits_literal hfits)
        | field _ p =>
            have hword : p.isWord [] = true := hfits
            rw [p.isWord_nil] at hword
            cases hword
      rw [List.flatMap_cons, hchars, ih htail hafter, List.append_nil]

end Cut

/-! ## Filling -/

/-- The segments of a name that is made of the values: a literal stays as it is, and each
placeholder takes the next value, as long as there are any. -/
def fillSegments : List Token → List String → List (List Char)
  | [], _ => []
  | .literal l :: rest, values => l :: fillSegments rest values
  | .field _ _ :: rest, value :: values => value.toList :: fillSegments rest values
  | .field cs _ :: rest, [] => cs :: fillSegments rest []

/-- The name in which the placeholders are replaced by the values, one after the other. -/
def fill (p : Pattern) (values : List String) : String :=
  String.ofList (fillSegments p.tokens values).flatten

/-- There is one value for each placeholder, and it is a word of its fragment. -/
def Suits (p : Pattern) (values : List String) : Prop :=
  List.Forall₂ (fun q value => q.expression.Matches p.ignoresCase value.toList) p.placeholders
    values

variable {values : List String}

theorem spells_literal (l : List Char) : Spells ignoreCase (.literal l) l := by
  refine forall₂_sameChar_iff.2 ?_
  cases ignoreCase with
  | true => exact Text.sameLetters_refl l
  | false => exact beq_self_eq_true l

theorem forall₂_spells_fillSegments
    (hvalues : List.Forall₂ (fun q value => q.expression.Matches ignoreCase value.toList)
      (tokens.filterMap Token.placeholder?) values) :
    List.Forall₂ (Spells ignoreCase) tokens (fillSegments tokens values) := by
  induction tokens generalizing values with
  | nil => exact .nil
  | cons t tokens ih =>
      cases t with
      | literal l => exact .cons (spells_literal l) (ih hvalues)
      | field cs q =>
          obtain ⟨value, rest, hvalue, hrest, rfl⟩ := List.forall₂_cons_left_iff.1 hvalues
          exact .cons hvalue (ih hrest)

/-- The tokens with their segments are the placeholders with their values, literals left out. -/
theorem filterMap_zip_fillSegments
    (hlength : (tokens.filterMap Token.placeholder?).length = values.length) :
    (tokens.zip (fillSegments tokens values)).filterMap
        (fun entry => entry.1.placeholder?.map fun q => (q, String.ofList entry.2)) =
      (tokens.filterMap Token.placeholder?).zip values := by
  induction tokens generalizing values with
  | nil => rfl
  | cons t tokens ih =>
      cases t with
      | literal l => exact ih hlength
      | field cs q =>
          cases values with
          | nil => cases hlength
          | cons value values =>
              have hrest := ih (Nat.succ.inj hlength)
              simpa [fillSegments, Token.placeholder?] using hrest

/-- A name that is made of suitable values is cut into the segments of which it was made. -/
theorem cut_fill {p : Pattern} (hvalues : p.Suits values) :
    Cut p.ignoresCase p.tokens (p.fill values).toList (fillSegments p.tokens values) := by
  refine p.cut_iff.2 ⟨forall₂_spells_fillSegments hvalues, .inl ?_⟩
  rw [fill, String.toList_ofList]

/-- If the placeholders are kept apart, the matcher finds these segments. -/
theorem match?_fill {p : Pattern} (happart : KeepsApart p.tokens) (hvalues : p.Suits values) :
    p.match? (p.fill values) = some (fillSegments p.tokens values) := by
  have hcut := cut_fill hvalues
  obtain ⟨segments, hsegments⟩ := Option.isSome_iff_exists.1 hcut.isSome_segments?
  rw [hcut.unique happart (cut_of_segments? hsegments)]
  exact hsegments

/-- Nothing but the empty pattern makes an empty name. -/
theorem fill_ne_empty {source : String} {p : Pattern} (hp : compile source = .ok p)
    (hsource : source ≠ "") (hvalues : p.Suits values) : p.fill values ≠ "" := by
  intro hempty
  have hcut := cut_fill hvalues
  have hnil : (fillSegments p.tokens values).flatten = [] := by
    rw [← String.toList_ofList (l := (fillSegments p.tokens values).flatten)]
    exact String.toList_eq_nil_iff.2 hempty
  have hchars := flatMap_chars_of_tokenize (tokenize_of_compile hp)
  rw [hcut.flatMap_chars_eq_nil hnil] at hchars
  exact hsource (String.toList_eq_nil_iff.1 hchars.symm)

end Pattern

/-! ## Reading the values back -/

namespace Extraction

/-- The fields are those of the placeholders, and in each stands what the last of the placeholder's
values is read as. -/
structure HoldsLast (entries : List (Placeholder × String)) (fields : Fields) : Prop where
  nodup : (fields.map Prod.fst).Nodup
  keys : ∀ key, key ∈ fields.map Prod.fst ↔ ∃ entry ∈ entries, entry.1.key = key
  value : ∀ before q value after, entries = before ++ (q, value) :: after →
    (∀ later ∈ after, later.1 ≠ q) →
    ∃ v, fields.lookup q.key = some v ∧ normalizeField q.key value = .ok v

theorem ReadFrom.holdsLast {tokens : List Token} {segments : List (List Char)} {fields : Fields}
    (hread : ReadFrom tokens segments fields) (hlength : tokens.length = segments.length) :
    HoldsLast ((tokens.zip segments).filterMap fun entry =>
      entry.1.placeholder?.map fun q => (q, String.ofList entry.2)) fields where
  nodup := hread.nodup
  keys key := by
    have htokens : (tokens.zip segments).map Prod.fst = tokens :=
      List.map_fst_zip (Nat.le_of_eq hlength)
    rw [hread.keys]
    conv => lhs; rw [← htokens]
    simp only [List.mem_map, List.mem_filterMap, Option.map_eq_some_iff]
    constructor
    · rintro ⟨_, ⟨entry, hentry, rfl⟩, q, hq, rfl⟩
      exact ⟨_, ⟨entry, hentry, q, hq, rfl⟩, rfl⟩
    · rintro ⟨_, ⟨entry, hentry, q, hq, rfl⟩, rfl⟩
      exact ⟨_, ⟨entry, hentry, rfl⟩, q, hq, rfl⟩
  value := by
    intro before q value after hentries hlast
    obtain ⟨front, back, hzip, -, hback⟩ := List.filterMap_eq_append_iff.1 hentries
    obtain ⟨skipped, ⟨t, segment⟩, rest, rfl, -, hentry, hafter⟩ :=
      List.filterMap_eq_cons_iff.1 hback
    obtain ⟨q', hq', hsame⟩ := Option.map_eq_some_iff.1 hentry
    obtain ⟨rfl, rfl⟩ := Prod.mk.inj hsame
    rw [← List.append_assoc] at hzip
    refine hread.value _ t q' segment rest hzip hq' fun later hlater hsame => ?_
    -- a later segment of the placeholder would be a later entry
    refine hlast (q', String.ofList later.2) ?_ rfl
    rw [← hafter]
    exact List.mem_filterMap.2 ⟨later, hlater, by rw [hsame]; rfl⟩

theorem confidenceOf_self {n : Nat} (hn : 0 < n) : confidenceOf n n = 100 :=
  divideToNearest_mul_self 100 n hn

end Extraction

namespace Pattern

/-- **Filling and reading.**  In a pattern that keeps its placeholders apart, replace each of them
by a word of its fragment.  What is read from the name that this makes are the words: all of the
name is matched, and each field has what its last word is read as. -/
theorem ofName_fill {source : String} {p : Pattern} (hp : compile source = .ok p)
    (hsource : source ≠ "") (happart : KeepsApart p.tokens) {values : List String}
    (hvalues : p.Suits values) :
    ∃ fields, Extraction.ofName p (p.fill values) = .ok ⟨true, fields, 100⟩ ∧
      Extraction.HoldsLast (p.placeholders.zip values) fields := by
  have hcut := cut_fill hvalues
  have hname := fill_ne_empty hp hsource hvalues
  have hmatched : (fillSegments p.tokens values).flatten.length = (p.fill values).length := by
    rw [fill, ← String.length_toList, String.toList_ofList]
  have hpos : 0 < (p.fill values).length := by
    rw [← String.length_toList, List.length_pos_iff]
    exact fun hnil => hname (String.toList_eq_nil_iff.1 hnil)
  refine ⟨Extraction.fieldsOf [] (p.tokens.zip (fillSegments p.tokens values)), ?_, ?_⟩
  · simp only [Extraction.ofName, match?_fill happart hvalues, hmatched]
    rw [Extraction.confidenceOf_self hpos, if_neg (by simpa using hname)]
    rfl
  · have hlast := (Extraction.fieldsOf_readFrom hcut).holdsLast hcut.length_eq
    rwa [filterMap_zip_fillSegments hvalues.length_eq] at hlast

/-- A pattern with two months: the later one counts. -/
def monthsPattern : Pattern where
  source := "News_{DOTW}_{MM}_{MM}"
  tokens := [.literal "News_".toList, .field "{DOTW}".toList .weekday, .literal ['_'],
    .field "{MM}".toList .month, .literal ['_'], .field "{MM}".toList .month]

theorem monthsPattern_reads_back :
    monthsPattern.fill ["THUR", "1", "12"] = "News_THUR_1_12" ∧
      ∃ fields, Extraction.ofName monthsPattern "News_THUR_1_12" = .ok ⟨true, fields, 100⟩ ∧
        fields.lookup "MM" = some (.number 12) := by
  have hcompile : compile "News_{DOTW}_{MM}_{MM}" = .ok monthsPattern :=
    Outcome.eq_ok_of_toOption (by decide +kernel)
  have happart : KeepsApart monthsPattern.tokens := by
    simp [KeepsApart, monthsPattern, Token.placeholder?]
  have hvalues : monthsPattern.Suits ["THUR", "1", "12"] :=
    .cons ((Placeholder.matches_expression_iff .weekday fun _ => rfl).2 (by decide +kernel))
      (.cons ((Placeholder.matches_expression_iff .month (by simp)).2 (by decide +kernel))
        (.cons ((Placeholder.matches_expression_iff .month (by simp)).2 (by decide +kernel)) .nil))
  have hfill : monthsPattern.fill ["THUR", "1", "12"] = "News_THUR_1_12" := by decide +kernel
  obtain ⟨fields, hread, hlast⟩ := ofName_fill hcompile (by decide) happart hvalues
  obtain ⟨v, hv, hvalue⟩ :=
    hlast.value [(.weekday, "THUR"), (.month, "1")] .month "12" [] (by decide +kernel) (by simp)
  obtain rfl : FieldValue.number 12 = v :=
    Except.ok.inj ((Outcome.eq_ok_of_toOption (by decide +kernel)).symm.trans hvalue)
  exact ⟨hfill, fields, hfill ▸ hread, hv⟩

end Pattern

end BroadcastIntake
