import BroadcastIntake.Proofs.Extraction
import BroadcastIntake.Proofs.Number.Reading
import BroadcastIntake.Proofs.Pattern.Expression
import BroadcastIntake.Proofs.Pattern.Tokens

/-!
# What a pattern matches, and what is read by it

A name is spelled by the tokens of a pattern when it is made up of one segment for each: a literal
one character after the other, a placeholder as its expression matches.  A pattern matches exactly
the names that are spelled so (`isMatch_iff`), because the matcher finds cuts only and misses none.
In other words, it matches what its written expression matches (`isMatch_iff_matches`).

What is then read from a name is read from the segments of one spelling (`fieldsOf_readFrom`).  A
later word of a placeholder replaces an earlier one and touches no other field, so at the end each
field has its last word.
-/

namespace BroadcastIntake

namespace Pattern

/-! ## Spelling -/

/-- The characters spell the token. -/
def Spells (ignoreCase : Bool) : Token → List Char → Prop
  | .literal l, segment => List.Forall₂ (SameChar ignoreCase) l segment
  | .field _ p, segment => p.expression.Matches ignoreCase segment

/-- The segments spell the tokens one by one and make up the characters; a newline at the end may
be left over. -/
structure SpelledBy (ignoreCase : Bool) (tokens : List Token) (segments : List (List Char))
    (cs : List Char) : Prop where
  spells : List.Forall₂ (Spells ignoreCase) tokens segments
  whole : cs = segments.flatten ∨ cs = segments.flatten ++ ['\n']

variable {ignoreCase : Bool} {tokens : List Token} {segments : List (List Char)} {cs : List Char}

/-- Words are what expressions match.  The days of the week are words in any case, so case must be
ignored where there is one. -/
theorem fits_iff_spells {t : Token} {segment : List Char}
    (hcase : t.placeholder? = some .weekday → ignoreCase = true) :
    Fits ignoreCase t segment ↔ Spells ignoreCase t segment := by
  cases t with
  | literal l => exact forall₂_sameChar_iff.symm
  | field _ p =>
    exact (p.matches_expression_iff fun hp => hcase (congrArg some hp)).symm

/-- A cut is a spelling, taken segment by segment. -/
theorem cut_iff_spelledBy
    (hcase : ∀ t ∈ tokens, t.placeholder? = some .weekday → ignoreCase = true) :
    Cut ignoreCase tokens cs segments ↔ SpelledBy ignoreCase tokens segments cs := by
  constructor
  · intro hcut
    induction hcut with
    | done => exact ⟨.nil, .inl rfl⟩
    | newline => exact ⟨.nil, .inr rfl⟩
    | token hfits _ ih =>
      obtain ⟨hspells, hwhole⟩ := ih fun t ht => hcase t (List.mem_cons_of_mem _ ht)
      have hspelled := (fits_iff_spells (hcase _ List.mem_cons_self)).1 hfits
      refine ⟨.cons hspelled hspells, ?_⟩
      rcases hwhole with rfl | rfl <;> simp
  · rintro ⟨hspells, hwhole⟩
    induction hspells generalizing cs with
    | nil =>
      rcases hwhole with rfl | rfl
      · exact .done
      · exact .newline
    | @cons t segment tokens segments hspelled _ ih =>
      have hrest := fun rest => @ih rest fun t ht => hcase t (List.mem_cons_of_mem _ ht)
      have hfits := (fits_iff_spells (hcase t List.mem_cons_self)).2 hspelled
      -- what is left over stands behind the last segment, so it is left over by the rest
      rcases hwhole with rfl | rfl
      · exact .token hfits (hrest _ (.inl rfl))
      · rw [List.flatten_cons, List.append_assoc]
        exact .token hfits (hrest _ (.inr rfl))

theorem ignoresCase_iff (p : Pattern) :
    p.ignoresCase = true ↔ ∃ t ∈ p.tokens, t.placeholder? = some .weekday := by
  simp [ignoresCase, placeholders, List.mem_filterMap]

theorem cut_iff (p : Pattern) : Cut p.ignoresCase p.tokens cs segments ↔
    SpelledBy p.ignoresCase p.tokens segments cs :=
  cut_iff_spelledBy fun t ht hday => p.ignoresCase_iff.2 ⟨t, ht, hday⟩

theorem match?_spelledBy {p : Pattern} {name : String} (hmatch : p.match? name = some segments) :
    SpelledBy p.ignoresCase p.tokens segments name.toList :=
  p.cut_iff.1 (cut_of_segments? hmatch)

/-- **Matching**: a pattern matches the names that its tokens spell. -/
theorem isMatch_iff (p : Pattern) (name : String) :
    p.isMatch name = true ↔
      ∃ segments, SpelledBy p.ignoresCase p.tokens segments name.toList := by
  constructor
  · intro hmatch
    obtain ⟨segments, hsegments⟩ := Option.isSome_iff_exists.1 hmatch
    exact ⟨segments, match?_spelledBy hsegments⟩
  · rintro ⟨segments, hspelled⟩
    exact (p.cut_iff.2 hspelled).isSome_segments?

theorem spells_iff_matches (t : Token) (segment : List Char) :
    Spells ignoreCase t segment ↔ (Expression.ofToken t).Matches ignoreCase segment := by
  cases t with
  | literal l => exact Expression.matches_chars_iff.symm
  | field _ p => exact Iff.rfl

/-- A pattern matches what its expression matches, and a newline at the end does not count. -/
theorem isMatch_iff_matches (p : Pattern) (name : String) :
    p.isMatch name = true ↔ ∃ cs, (Expression.ofTokens p.tokens).Matches p.ignoresCase cs ∧
      (name.toList = cs ∨ name.toList = cs ++ ['\n']) := by
  simp only [isMatch_iff, Expression.matches_ofTokens_iff, ← spells_iff_matches]
  constructor
  · rintro ⟨segments, hspells, hwhole⟩
    exact ⟨segments.flatten, ⟨segments, rfl, hspells⟩, hwhole⟩
  · rintro ⟨_, ⟨segments, rfl, hspells⟩, hwhole⟩
    exact ⟨segments, hspells, hwhole⟩

end Pattern

/-! ## The values of words -/

theorem Placeholder.ofKey?_key (p : Placeholder) : ofKey? p.key = some p := by
  cases p <;> decide

theorem Placeholder.key_injective {p q : Placeholder} (hkey : p.key = q.key) : p = q := by
  have hp := p.ofKey?_key
  rw [hkey, q.ofKey?_key] at hp
  exact (Option.some.inj hp).symm

/-- One to four digits of any script are read as the number that they write. -/
theorem readInt_digits {word : List Char} (hlength : 0 < word.length ∧ word.length ≤ 4)
    (hdigits : word.all Text.isDigit = true) :
    readInt (String.ofList word) = .ok (Text.digitsValue word) :=
  readInt_written (List.length_pos_iff.1 hlength.1) (List.all_eq_true.1 hdigits)
    (Nat.le_trans hlength.2 (by decide)) false

/-- The value of a word is that of its text. -/
theorem FieldValue.ofText_ofList {p : Placeholder} {word : List Char}
    (hword : p.isWord word = true) :
    ofText p (String.ofList word) = .ok (ofWord p word) := by
  have hnumber : (0 < word.length ∧ word.length ≤ 4) → word.all Text.isDigit = true →
      (readInt (String.ofList word)).map number = .ok (number (Text.digitsValue word)) := by
    intro hlength hdigits
    rw [readInt_digits hlength hdigits]
    rfl
  -- only digits are read; the other words have their texts as values
  cases p with
  | year | shortYear | month | day =>
    simp only [Placeholder.isWord, Bool.and_eq_true, Bool.or_eq_true, decide_eq_true_eq] at hword
    exact hnumber (by omega) hword.2
  | _ => rfl

theorem normalizeField_word {p : Placeholder} {word : List Char} (hword : p.isWord word = true) :
    normalizeField p.key (String.ofList word) = .ok (FieldValue.ofWord p word) := by
  rw [normalizeField, p.ofKey?_key]
  exact FieldValue.ofText_ofList hword

/-! ## Reading the words -/

namespace Extraction

/-- The fields have the keys of the placeholders among the tokens, and the value under a key is
that of the last segment for it. -/
structure ReadFrom (tokens : List Token) (segments : List (List Char)) (fields : Fields) :
    Prop where
  nodup : (fields.map Prod.fst).Nodup
  keys : ∀ key, key ∈ fields.map Prod.fst ↔ ∃ t ∈ tokens, ∃ p, t.placeholder? = some p ∧ p.key = key
  value : ∀ before t p segment after, tokens.zip segments = before ++ (t, segment) :: after →
    t.placeholder? = some p → (∀ later ∈ after, later.1.placeholder? ≠ some p) →
    ∃ v, fields.lookup p.key = some v ∧ normalizeField p.key (String.ofList segment) = .ok v

variable {fields : Fields} {entries : List (Token × List Char)}

theorem fieldsOf_append (before after : List (Token × List Char)) :
    ∀ fields : Fields,
      fieldsOf fields (before ++ after) = fieldsOf (fieldsOf fields before) after := by
  induction before with
  | nil => exact fun _ => rfl
  | cons entry rest ih =>
    obtain ⟨_ | ⟨_, p⟩, word⟩ := entry
    · exact ih
    · exact fun fields => ih _

theorem mem_keys_fieldsOf {key : String} :
    key ∈ (fieldsOf fields entries).map Prod.fst ↔
      key ∈ fields.map Prod.fst ∨
        ∃ entry ∈ entries, ∃ p, entry.1.placeholder? = some p ∧ p.key = key := by
  induction entries generalizing fields with
  | nil => simp [fieldsOf]
  | cons entry rest ih =>
    obtain ⟨_ | ⟨_, p⟩, word⟩ := entry
    · simp [fieldsOf, ih, Token.placeholder?]
    · simp only [fieldsOf, ih, Json.mem_keys_put, List.exists_mem_cons_iff, Token.placeholder?,
        Option.some.injEq, exists_eq_left', @eq_comm _ key]
      exact or_assoc.trans or_left_comm

/-- Words of other placeholders leave a field as it is. -/
theorem lookup_fieldsOf {p : Placeholder}
    (hother : ∀ entry ∈ entries, entry.1.placeholder? ≠ some p) :
    (fieldsOf fields entries).lookup p.key = fields.lookup p.key := by
  induction entries generalizing fields with
  | nil => rfl
  | cons entry rest ih =>
    have hrest := fun fields =>
      @ih fields fun later hlater => hother later (List.mem_cons_of_mem _ hlater)
    obtain ⟨_ | ⟨_, q⟩, word⟩ := entry
    · exact hrest fields
    · have hkey : p.key ≠ q.key := by
        intro hkey
        rw [Placeholder.key_injective hkey] at hother
        exact hother _ List.mem_cons_self rfl
      rw [fieldsOf, hrest, Json.lookup_put, if_neg hkey]

/-- The word is the last one of the placeholder. -/
def IsLastWord (entries : List (Token × List Char)) (p : Placeholder) (word : List Char) : Prop :=
  ∃ before body after, entries = before ++ (.field body p, word) :: after ∧
    ∀ later ∈ after, later.1.placeholder? ≠ some p

/-- The value of a field is that of the last word of its placeholder. -/
theorem lookup_fieldsOf_last {p : Placeholder} {word : List Char}
    (hlast : IsLastWord entries p word) :
    (fieldsOf fields entries).lookup p.key = some (FieldValue.ofWord p word) := by
  obtain ⟨before, body, after, rfl, hother⟩ := hlast
  -- the word is put, and what follows leaves it alone
  rw [fieldsOf_append, fieldsOf, lookup_fieldsOf hother, Json.lookup_put, if_pos rfl]

theorem IsLastWord.mem {p : Placeholder} {word : List Char} (hlast : IsLastWord entries p word) :
    ∃ body, (Token.field body p, word) ∈ entries := by
  obtain ⟨before, body, after, rfl, -⟩ := hlast
  exact ⟨body, List.mem_append_right _ List.mem_cons_self⟩

/-- Of several words of a placeholder one is the last. -/
theorem exists_last_word {p : Placeholder}
    (hword : ∃ entry ∈ entries, entry.1.placeholder? = some p) :
    ∃ word, IsLastWord entries p word := by
  induction entries with
  | nil =>
    obtain ⟨_, hentry, -⟩ := hword
    cases hentry
  | cons entry rest ih =>
    by_cases hrest : ∃ later ∈ rest, later.1.placeholder? = some p
    · obtain ⟨word, before, body, after, rfl, hlast⟩ := ih hrest
      exact ⟨word, entry :: before, body, after, rfl, hlast⟩
    · obtain ⟨found, hfound, hp⟩ := hword
      rcases List.mem_cons.1 hfound with rfl | hlater
      · obtain ⟨_ | ⟨body, q⟩, word⟩ := found
        · cases hp
        · obtain rfl := Option.some.inj hp
          exact ⟨word, [], body, rest, rfl, fun later hlater hsame => hrest ⟨later, hlater, hsame⟩⟩
      · exact absurd ⟨found, hlater, hp⟩ hrest

/-- **Reading**: what is read from a cut is read from its last words. -/
theorem fieldsOf_readFrom {ignoreCase : Bool} {tokens : List Token} {cs : List Char}
    {segments : List (List Char)} (hcut : Pattern.Cut ignoreCase tokens cs segments) :
    ReadFrom tokens segments (fieldsOf [] (tokens.zip segments)) where
  nodup := (fieldsOf_bounds _ [] hcut.fits_of_mem_zip inRange_failed.number List.nodup_nil).2
  keys key := by
    have htokens : (tokens.zip segments).map Prod.fst = tokens :=
      List.map_fst_zip (Nat.le_of_eq hcut.length_eq)
    conv => rhs; rw [← htokens]
    simp [mem_keys_fieldsOf]
  value := by
    intro before t p segment after hzip hp hlast
    have hmem : (t, segment) ∈ tokens.zip segments := by
      rw [hzip]
      exact List.mem_append_right _ List.mem_cons_self
    have hfits := hcut.fits_of_mem_zip _ hmem
    cases t with
    | literal l => cases hp
    | field body q =>
      obtain rfl := Option.some.inj hp
      exact ⟨_, lookup_fieldsOf_last ⟨before, body, after, hzip, hlast⟩,
        normalizeField_word hfits⟩

end Extraction

namespace Pattern

/-- **The language of patterns.**  The written expression of an accepted pattern is that of its
tokens, and letter case is ignored exactly when one of them is a day of the week.  The pattern
matches the names that the tokens spell, and what is read from a name is read from one spelling. -/
theorem matches_and_reads_spelled {source : String} {p : Pattern} (hp : compile source = .ok p)
    (name : String) :
    tokenize source = .ok p.tokens ∧
      p.expression = "^" ++ (Expression.ofTokens p.tokens).text ++ "$" ∧
      (p.ignoresCase = true ↔ ∃ t ∈ p.tokens, t.placeholder? = some .weekday) ∧
      (p.isMatch name = true ↔
        ∃ segments, SpelledBy p.ignoresCase p.tokens segments name.toList) ∧
      ∀ e, Extraction.ofName p name = .ok e → e.success = true →
        ∃ segments, SpelledBy p.ignoresCase p.tokens segments name.toList ∧
          Extraction.ReadFrom p.tokens segments e.fields := by
  refine ⟨tokenize_of_compile hp, Expression.expression_eq p, p.ignoresCase_iff,
    p.isMatch_iff name, ?_⟩
  intro e hread hsuccess
  rcases Extraction.ofName_cases hread with rfl | ⟨segments, hmatch, -, rfl⟩
  · cases hsuccess
  · exact ⟨segments, match?_spelledBy hmatch,
      Extraction.fieldsOf_readFrom (cut_of_segments? hmatch)⟩

/-- A pattern with a day of the week and two numbers with nothing between them. -/
def dayPattern : Pattern where
  source := "{DOTW}_{MM}{DD}"
  tokens := [.field "{DOTW}".toList .weekday, .literal ['_'], .field "{MM}".toList .month,
    .field "{DD}".toList .day]

theorem dayPattern_reads_spelled :
    dayPattern.isMatch "THUR_124" = true ∧
      ∃ segments, SpelledBy true dayPattern.tokens segments "THUR_124".toList ∧
        Extraction.ReadFrom dayPattern.tokens segments
          [("DOTW", .text "Thursday"), ("MM", .number 12), ("DD", .number 4)] := by
  have hcompile : compile "{DOTW}_{MM}{DD}" = .ok dayPattern :=
    Outcome.eq_ok_of_toOption (by decide +kernel)
  have hread : Extraction.ofName dayPattern "THUR_124" =
      .ok ⟨true, [("DOTW", .text "Thursday"), ("MM", .number 12), ("DD", .number 4)], 100⟩ :=
    Outcome.eq_ok_of_toOption (by decide +kernel)
  obtain ⟨-, -, -, hmatch, hfields⟩ := matches_and_reads_spelled hcompile "THUR_124"
  obtain ⟨segments, hspelled, hreads⟩ := hfields _ hread rfl
  exact ⟨hmatch.2 ⟨segments, hspelled⟩, segments, hspelled, hreads⟩

end Pattern

end BroadcastIntake
