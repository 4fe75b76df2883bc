import BroadcastIntake.Proofs.Pattern.Matching
import BroadcastIntake.Proofs.Text.Case
import Mathlib.Data.Bool.AllAny

/-!
# Days of the week in file names

A pattern takes a day of the week in any letter case, and the field is to hold the name of the day.
The name is looked up by the word in small letters.  But letters that are equal in any case need not
have the same small form: a long s is an s, and a dotless or a dotted capital i is an i, and none of
them is lowered to the letter that it is equal to (`Text.looseLetters`).

A word that is taken spells one day and no other (`Weekday.eq_of_spells`), because each of its
characters is equal to one common letter only (`Text.commonForm_of_sameLetter`).  The field holds
the name of this day exactly when no loose letter is in the word (`Weekday.field_iff`).  Otherwise
it holds the word itself, which is no name of a day.
-/

namespace BroadcastIntake

/-! ## Loose letters -/

namespace Text

/-- The letters that are equal to an s or an i in any case and are not lowered to it. -/
def looseLetters : List Char := ['ſ', 'ı', 'İ']

/-- The small letter to which a character is equal in any case, for those of the common alphabet. -/
def commonForm (c : Char) : Char :=
  if c = 'ſ' then 's' else if c = 'ı' ∨ c = 'İ' then 'i' else smallForm c

/-- The letters in which the days of the week are spelled. -/
def weekdayLetters : List Char := "adefhimnorstuwy".toList

variable {a c : Char} {spelling word : List Char}

/-- A letter of a day is small, and only the i and the s among them have mates. -/
theorem forms_of_mem_weekdayLetters :
    ∀ a ∈ weekdayLetters, smallForm a = a ∧
      ∀ mates ∈ letterMates, a ∈ mates → mates = ['i', 'ı'] ∨ mates = ['s', 'ſ'] :=
  List.all_iff_forall_prop.1 (by decide +kernel)

/-- The long s and the dotless i are small letters without capitals, the dotted i has the i as its
small form, and the sigma no letter of a day. -/
theorem forms_of_strange_letters :
    (smallForm 'ſ' = 'ſ' ∧ capitalCodes 'ſ' = []) ∧ (smallForm 'ı' = 'ı' ∧ capitalCodes 'ı' = []) ∧
      smallForm 'İ' = 'i' ∧ smallForm 'Σ' = 'σ' := by
  decide +kernel

theorem commonForm_of_not_loose (hc : c ∉ looseLetters) : commonForm c = smallForm c := by
  simp only [looseLetters, List.mem_cons, List.not_mem_nil, or_false, not_or] at hc
  rw [commonForm, if_neg hc.1, if_neg (not_or.2 hc.2)]

/-- A character with a letter of a day as its small form is equal to that letter. -/
theorem commonForm_of_smallForm (ha : a ∈ weekdayLetters) (hc : smallForm c = a) :
    commonForm c = a := by
  obtain ⟨⟨hlong, -⟩, ⟨hdotless, -⟩, hdotted, -⟩ := forms_of_strange_letters
  subst hc
  by_cases hloose : c ∈ looseLetters
  · simp only [looseLetters, List.mem_cons, List.not_mem_nil, or_false] at hloose
    rcases hloose with rfl | rfl | rfl
    · rw [hlong] at ha
      exact absurd ha (by decide)
    · rw [hdotless] at ha
      exact absurd ha (by decide)
    · rw [hdotted]
      rfl
  · exact commonForm_of_not_loose hloose

/-- Only the loose letters have the small form of a loose letter. -/
theorem eq_of_smallForm_loose {d : Char} (hd : d = 'ſ' ∨ d = 'ı') (hc : smallForm c = d) :
    c = d := by
  obtain ⟨⟨-, hlong⟩, ⟨-, hdotless⟩, -⟩ := forms_of_strange_letters
  have halone : d ≠ '\x00' ∧ capitalCodes d = [] := by
    rcases hd with rfl | rfl
    · exact ⟨by decide, hlong⟩
    · exact ⟨by decide, hdotless⟩
  rcases smallForm_eq_cases halone.1 hc with hsame | hcapital
  · exact hsame
  · rw [halone.2] at hcapital
    cases hcapital

/-- A character that is equal to a letter of a day in any case is equal to no other. -/
theorem commonForm_of_sameLetter (ha : a ∈ weekdayLetters) (hsame : sameLetter a c = true) :
    commonForm c = a := by
  obtain ⟨hsmall, hmates⟩ := forms_of_mem_weekdayLetters a ha
  -- of two mates one is loose, and no letter of a day
  have hpair : ∀ common loose : Char, (loose = 'ſ' ∨ loose = 'ı') → loose ∉ weekdayLetters →
      commonForm loose = common → a ∈ [common, loose] → smallForm c ∈ [common, loose] →
      commonForm c = a := by
    intro common loose hloose hforeign hform hamem hcmem
    simp only [List.mem_cons, List.not_mem_nil, or_false] at hamem hcmem
    rcases hamem with rfl | rfl
    · rcases hcmem with hc | hc
      · exact commonForm_of_smallForm ha hc
      · rwa [eq_of_smallForm_loose hloose hc]
    · exact absurd ha hforeign
  rcases sameLetter_cases hsame with hform | ⟨mates, hmem, hamem, hcmem⟩
  · exact commonForm_of_smallForm ha (hform.trans hsmall)
  · rw [hsmall] at hamem
    rcases hmates mates hmem hamem with rfl | rfl
    · exact hpair 'i' 'ı' (.inr rfl) (by decide) rfl hamem hcmem
    · exact hpair 's' 'ſ' (.inl rfl) (by decide) rfl hamem hcmem

theorem map_commonForm (hspelling : spelling ⊆ weekdayLetters)
    (hsame : sameLetters spelling word = true) : word.map commonForm = spelling := by
  have hforms : List.Forall₂ (fun a c => a = commonForm c) spelling word :=
    forall₂_of_sameLetters
      (fun a ha c hletter => (commonForm_of_sameLetter (hspelling ha) hletter).symm) hsame
  rw [← List.forall₂_map_right_iff, List.forall₂_eq_eq_eq] at hforms
  exact hforms.symm

/-- A word of a day is lowered to its spelling when no letter is loose. -/
theorem lowerChars_of_sameLetters (hspelling : spelling ⊆ weekdayLetters)
    (hsame : sameLetters spelling word = true) (hword : ∀ c ∈ word, c ∉ looseLetters) :
    lowerChars word = spelling := by
  have hcommon := map_commonForm hspelling hsame
  -- a sigma has a small form that is in no day
  have hsigma : ∀ c ∈ word, c ≠ 'Σ' := by
    rintro c hc rfl
    have hform : commonForm 'Σ' ∈ spelling := hcommon ▸ List.mem_map_of_mem hc
    rw [commonForm_of_not_loose (by decide), forms_of_strange_letters.2.2.2] at hform
    exact absurd (hspelling hform) (by decide)
  have hdotted : ∀ c ∈ word, c ≠ 'İ' := by
    rintro c hc rfl
    exact hword _ hc (by decide)
  rw [lowerChars, lowerAfter_eq_map fun c hc => ⟨hsigma c hc, hdotted c hc⟩, ← hcommon]
  exact List.map_congr_left fun c hc => (commonForm_of_not_loose (hword c hc)).symm

/-- A loose letter leaves a character in the lowered word that is in no day. -/
theorem exists_mem_lowerChars_of_loose (hc : c ∈ looseLetters) (hword : c ∈ word) :
    ∃ d ∈ lowerChars word, d ∉ weekdayLetters := by
  obtain ⟨⟨hlong, -⟩, ⟨hdotless, -⟩, -⟩ := forms_of_strange_letters
  obtain ⟨before, after, hforms⟩ := lowerBetween_subset_lowerAfter [] hword
  simp only [looseLetters, List.mem_cons, List.not_mem_nil, or_false] at hc
  rcases hc with rfl | rfl | rfl
  · exact ⟨smallForm 'ſ', hforms List.mem_cons_self, by rw [hlong]; decide⟩
  · exact ⟨smallForm 'ı', hforms List.mem_cons_self, by rw [hdotless]; decide⟩
  · exact ⟨'\u0307', hforms (List.mem_cons_of_mem _ List.mem_cons_self), by decide⟩

end Text

/-! ## Days -/

namespace Weekday

/-- The names of the days. -/
def names : List String :=
  ["Monday", "Tuesday", "Wednesday", "Thursday", "Friday", "Saturday", "Sunday"]

/-- The word is the name of the day or an abbreviation of it, in any letter case.  An abbreviation
is a spelling with which the name begins. -/
def Spells (word : List Char) (day : String) : Prop :=
  ∃ spelling ∈ Placeholder.weekdaySpellings, spelling.toList <+: Text.lowerChars day.toList ∧
    Text.sameLetters spelling.toList word = true

theorem subset_weekdayLetters :
    ∀ spelling ∈ Placeholder.weekdaySpellings, spelling.toList ⊆ Text.weekdayLetters := by
  decide

/-- The table of names gives each spelling the one day that begins with it. -/
theorem exists_day {spelling : String} (hspelling : spelling ∈ Placeholder.weekdaySpellings) :
    ∃ day ∈ names, FieldValue.canonicalDays.lookup spelling = some day ∧
      ∀ other ∈ names, spelling.toList <+: Text.lowerChars other.toList ↔ other = day := by
  revert spelling
  decide +kernel

variable {word : List Char} {day other : String}

/-- A word spells one day only. -/
theorem eq_of_spells (hday : day ∈ names) (hother : other ∈ names) (hspells : Spells word day)
    (hspells' : Spells word other) : other = day := by
  obtain ⟨spelling, hspelling, hprefix, hsame⟩ := hspells
  obtain ⟨spelling', hspelling', hprefix', hsame'⟩ := hspells'
  -- the letters of the word are those of both spellings
  have heq : spelling = spelling' := by
    rw [← String.toList_inj, ← Text.map_commonForm (subset_weekdayLetters _ hspelling) hsame,
      Text.map_commonForm (subset_weekdayLetters _ hspelling') hsame']
  subst heq
  obtain ⟨found, -, -, hunique⟩ := exists_day hspelling
  rw [(hunique day hday).1 hprefix, (hunique other hother).1 hprefix']

/-- The word of a day is looked up by its spelling when no letter is loose. -/
theorem canonicalDay_of_spells (hday : day ∈ names) (hspells : Spells word day)
    (hplain : ∀ c ∈ word, c ∉ Text.looseLetters) :
    FieldValue.canonicalDay (String.ofList word) = day := by
  obtain ⟨spelling, hspelling, hprefix, hsame⟩ := hspells
  obtain ⟨found, -, hlookup, hunique⟩ := exists_day hspelling
  rw [FieldValue.canonicalDay, Text.lower, String.toList_ofList,
    Text.lowerChars_of_sameLetters (subset_weekdayLetters _ hspelling) hsame hplain,
    String.ofList_toList, hlookup, (hunique day hday).1 hprefix]
  rfl

/-- A word with a loose letter is looked up by something that is no spelling. -/
theorem canonicalDay_of_loose {c : Char} (hc : c ∈ word) (hloose : c ∈ Text.looseLetters) :
    FieldValue.canonicalDay (String.ofList word) = String.ofList word := by
  obtain ⟨d, hd, hforeign⟩ := Text.exists_mem_lowerChars_of_loose hloose hc
  have hkeys : ∀ entry ∈ FieldValue.canonicalDays, entry.1 ∈ Placeholder.weekdaySpellings := by
    decide
  have hnone : FieldValue.canonicalDays.lookup (String.ofList (Text.lowerChars word)) = none := by
    rw [List.lookup_eq_none_iff]
    intro entry hentry
    rw [bne_iff_ne]
    intro hkey
    refine hforeign (subset_weekdayLetters _ (hkeys entry hentry) ?_)
    rwa [← hkey, String.toList_ofList]
  rw [FieldValue.canonicalDay, Text.lower, String.toList_ofList, hnone]
  rfl

/-- The name of a day has no loose letter. -/
theorem not_mem_names {c : Char} (hc : c ∈ word) (hloose : c ∈ Text.looseLetters) :
    String.ofList word ∉ names := by
  have hnames : ∀ name ∈ names,
      name.toList.all (fun c => !Text.looseLetters.contains c) = true := by
    decide
  intro hmem
  have hplain := hnames _ hmem
  rw [String.toList_ofList, List.all_eq_true] at hplain
  have hnot := hplain c hc
  simp [hloose] at hnot

/-- The name that is looked up is that of the day that is spelled, or of none. -/
theorem canonicalDay_iff (hday : day ∈ names) (hspells : Spells word day) :
    (FieldValue.canonicalDay (String.ofList word) = day ↔ ∀ c ∈ word, c ∉ Text.looseLetters) ∧
      (FieldValue.canonicalDay (String.ofList word) ∈ names ↔
        FieldValue.canonicalDay (String.ofList word) = day) := by
  by_cases hplain : ∀ c ∈ word, c ∉ Text.looseLetters
  · rw [canonicalDay_of_spells hday hspells hplain]
    exact ⟨iff_of_true rfl hplain, iff_of_true hday rfl⟩
  · have hloose := hplain
    push Not at hloose
    obtain ⟨c, hc, hloose⟩ := hloose
    rw [canonicalDay_of_loose hc hloose]
    have hforeign := not_mem_names hc hloose
    have hne : String.ofList word ≠ day := fun heq => hforeign (heq ▸ hday)
    exact ⟨iff_of_false hne hplain, iff_of_false hforeign hne⟩

/-- The word that was taken for a day of the week spells one. -/
theorem exists_spells (hword : Placeholder.weekday.isWord word = true) :
    ∃ day ∈ names, Spells word day := by
  obtain ⟨spelling, hspelling, hsame⟩ := List.any_eq_true.1 hword
  obtain ⟨day, hday, -, hunique⟩ := exists_day hspelling
  exact ⟨day, hday, spelling, hspelling, (hunique day hday).2 rfl, hsame⟩

/-! ## The field -/

/-- **Days of the week.**  When a pattern with a day of the week has read a name, the last word that
was taken for a day spells one day and no other.  The field holds the name of a day exactly when no
letter of the word is loose, and then of the day that is spelled. -/
theorem field_iff {p : Pattern} (hplaceholder : .weekday ∈ p.placeholders) {name : String}
    {e : Extraction} (hread : Extraction.ofName p name = .ok e) (hsuccess : e.success = true) :
    ∃ segments word, p.match? name = some segments ∧
      Extraction.IsLastWord (p.tokens.zip segments) .weekday word ∧
      ∃ day ∈ names, Spells word day ∧ (∀ other ∈ names, Spells word other → other = day) ∧
        ∃ value, e.fields.lookup Placeholder.weekday.key = some (.text value) ∧
          (value = day ↔ ∀ c ∈ word, c ∉ Text.looseLetters) ∧ (value ∈ names ↔ value = day) := by
  rcases Extraction.ofName_cases hread with rfl | ⟨segments, hmatch, -, rfl⟩
  · cases hsuccess
  have hcut := Pattern.cut_of_segments? hmatch
  -- each token has its segment, the day of the week among them
  have hzip : ∃ entry ∈ p.tokens.zip segments, entry.1.placeholder? = some .weekday := by
    obtain ⟨t, ht, hday⟩ := List.mem_filterMap.1 hplaceholder
    rw [← List.map_fst_zip (Nat.le_of_eq hcut.length_eq)] at ht
    obtain ⟨entry, hentry, rfl⟩ := List.mem_map.1 ht
    exact ⟨entry, hentry, hday⟩
  obtain ⟨word, hlast⟩ := Extraction.exists_last_word hzip
  obtain ⟨body, hentry⟩ := hlast.mem
  obtain ⟨day, hday, hspells⟩ := exists_spells (hcut.fits_of_mem_zip _ hentry)
  exact ⟨segments, word, hmatch, hlast, day, hday, hspells,
    fun other hother => eq_of_spells hday hother hspells,
    FieldValue.canonicalDay (String.ofList word), Extraction.lookup_fieldsOf_last hlast,
    canonicalDay_iff hday hspells⟩

/-- The word that is read as a Thursday spells one. -/
theorem dayPattern_field :
    ∃ segments word, Pattern.dayPattern.match? "THUR_124" = some segments ∧
      Extraction.IsLastWord (Pattern.dayPattern.tokens.zip segments) .weekday word ∧
      Spells word "Thursday" ∧ ∀ c ∈ word, c ∉ Text.looseLetters := by
  have hread : Extraction.ofName Pattern.dayPattern "THUR_124" =
      .ok ⟨true, [("DOTW", .text "Thursday"), ("MM", .number 12), ("DD", .number 4)], 100⟩ :=
    Outcome.eq_ok_of_toOption (by decide +kernel)
  obtain ⟨segments, word, hmatch, hlast, day, -, hspells, -, value, hvalue, hplain, hname⟩ :=
    field_iff (by decide) hread rfl
  obtain rfl : "Thursday" = value := FieldValue.text.inj (Option.some.inj hvalue)
  obtain rfl : "Thursday" = day := hname.1 (by decide)
  exact ⟨segments, word, hmatch, hlast, hspells, hplain.1 rfl⟩

/-- A long s is taken for an s, but not read as one. -/
theorem not_field :
    ¬ ∀ source p, Pattern.compile source = .ok p → .weekday ∈ p.placeholders →
      ∀ name e, Extraction.ofName p name = .ok e → e.success = true →
        ∃ day ∈ names, e.fields.lookup Placeholder.weekday.key = some (.text day) := by
  intro hall
  obtain ⟨day, hday, hvalue⟩ := hall "{DOTW}" ⟨"{DOTW}", [.field "{DOTW}".toList .weekday]⟩
    (Outcome.eq_ok_of_toOption (by decide +kernel)) (by decide) "ſunday"
    ⟨true, [("DOTW", .text "ſunday")], 100⟩ (Outcome.eq_ok_of_toOption (by decide +kernel)) rfl
  obtain rfl := FieldValue.text.inj (Option.some.inj hvalue)
  revert hday
  decide

end Weekday

end BroadcastIntake
