import BroadcastIntake.Proofs.FilterChain
import BroadcastIntake.Proofs.FilterChain.Seconds
import BroadcastIntake.Proofs.Path

/-!
# The numbers in a command

The numbers of a chain stand as words between commas, colons and equals signs in its arguments.  A
number that is not finite is written as a word of letters, and nothing else in a chain is such a
word (`FilterChain.nonFinite_iff`).  With finite options only two numbers can be such: the length of
the cut, and the start of the fade out (`FilterChain.nonFinite_iff_of_isFinite`).
-/

namespace BroadcastIntake

open Text

/-! ## Joined texts -/

section Join

variable {c sep : Char} {s : String} {words : List String}

theorem not_mem_intercalate (hs : c ∉ s.toList) (hwords : ∀ word ∈ words, c ∉ word.toList) :
    c ∉ (s.intercalate words).toList := by
  rw [String.toList_intercalate]
  induction words with
  | nil => exact List.not_mem_nil
  | cons word rest ih =>
      have hword := hwords word List.mem_cons_self
      have hrest := ih fun w hw => hwords w (List.mem_cons_of_mem word hw)
      cases rest with
      | nil => simpa using hword
      | cons next others =>
          rw [List.map_cons] at hrest
          rw [List.map_cons, List.map_cons, List.intercalate_cons_cons]
          simp only [List.mem_append, not_or]
          exact ⟨⟨hword, hs⟩, hrest⟩

/-- Texts without the separator are told apart again after they are joined. -/
theorem splitOnChar_intercalate (hs : s.toList = [sep]) (hne : words ≠ [])
    (hwords : ∀ word ∈ words, sep ∉ word.toList) :
    splitOnChar sep (s.intercalate words) = words := by
  have hpieces : splitOnChar.pieces sep ([sep].intercalate (words.map String.toList)) =
      words.map String.toList := by
    refine splitOnChar.pieces_intercalate (by simpa using hne) fun word hword => ?_
    obtain ⟨w, hw, rfl⟩ := List.mem_map.1 hword
    exact hwords w hw
  rw [splitOnChar, String.toList_intercalate, hs, hpieces, List.map_map]
  simp

theorem splitOnChar_of_not_mem (hs : sep ∉ s.toList) : splitOnChar sep s = [s] := by
  rw [splitOnChar, splitOnChar.pieces_of_not_mem hs, List.map_singleton, String.ofList_toList]

end Join

/-! ## The words of an argument -/

namespace FilterChain

/-- The words of an argument, which stand between its separators. -/
def argumentWords (argument : String) : List String :=
  ((splitOnChar ',' argument).flatMap (splitOnChar ':')).flatMap (splitOnChar '=')

/-- The words of the arguments that carry numbers; tags and names of files carry none. -/
def words (c : FilterChain) : List String :=
  (c.filterArgs ++ c.codecArgs ++ c.sampleRateArgs).flatMap argumentWords

theorem argumentWords_of_not_mem {argument : String}
    (hargument : ∀ c ∈ separators, c ∉ argument.toList) : argumentWords argument = [argument] := by
  unfold argumentWords
  rw [splitOnChar_of_not_mem (hargument ',' (by decide)), List.flatMap_singleton,
    splitOnChar_of_not_mem (hargument ':' (by decide)), List.flatMap_singleton,
    splitOnChar_of_not_mem (hargument '=' (by decide))]

namespace Directive

/-- The numbers of a directive. -/
def numbers : Directive → List Binary64
  | cut start length => [start, length]
  | restart => []
  | loudness level => [level]
  | fadeIn length => [length]
  | fadeOut start length => [start, length]

/-- The settings of a directive, each a row of words. -/
def settings : Directive → List (List String)
  | cut start length =>
    [["atrim", "start", formatSeconds start], ["duration", formatSeconds length]]
  | restart => [["asetpts", "PTS-STARTPTS"]]
  | loudness level => [["loudnorm", "I", formatSeconds level]]
  | fadeIn length => [["afade", "t", "in"], ["st", "0"], ["d", formatSeconds length]]
  | fadeOut start length =>
    [["afade", "t", "out"], ["st", formatSeconds start], ["d", formatSeconds length]]

/-- The words of the filters that are not numbers of a directive. -/
def names : List String :=
  ["atrim", "start", "duration", "asetpts", "PTS-STARTPTS", "loudnorm", "I", "afade", "t", "in",
   "out", "st", "0", "d"]

variable {d : Directive} {setting : List String} {word : String}

/-- The filter of a directive joins its settings. -/
theorem text_eq (d : Directive) :
    d.text = ":".intercalate (d.settings.map fun setting => "=".intercalate setting) := by
  refine String.toList_injective ?_
  cases d <;> unfold text settings
  case restart => decide
  all_goals
    simp only [List.map_cons, List.map_nil, String.toList_append, String.toList_intercalate,
      List.intercalate_cons_cons, List.intercalate_singleton, List.append_assoc]
    rfl

theorem settings_ne_nil (d : Directive) : d.settings ≠ [] := by
  cases d <;> exact List.cons_ne_nil _ _

theorem setting_ne_nil (hsetting : setting ∈ d.settings) : setting ≠ [] := by
  rintro rfl
  cases d <;> simp [settings] at hsetting

theorem mem_setting (hsetting : setting ∈ d.settings) (hword : word ∈ setting) :
    word ∈ names ∨ ∃ x ∈ d.numbers, word = formatSeconds x := by
  cases d <;>
    simp only [settings, numbers, names, List.mem_cons, List.not_mem_nil, or_false] at * <;>
    grind

theorem formatSeconds_mem_settings {x : Binary64} (hx : x ∈ d.numbers) :
    ∃ setting ∈ d.settings, formatSeconds x ∈ setting := by
  cases d <;> simp only [settings, numbers, List.mem_cons, List.not_mem_nil, or_false] at * <;>
    grind

theorem not_mem_word {c : Char} (hc : c ∈ separators) (hsetting : setting ∈ d.settings)
    (hword : word ∈ setting) : c ∉ word.toList := by
  have hnames : ∀ word ∈ names, ∀ c ∈ separators, c ∉ word.toList := by
    simp only [forall_separators]
    decide
  rcases mem_setting hsetting hword with hname | ⟨x, -, rfl⟩
  · exact hnames word hname c hc
  · exact not_mem_formatSeconds hc x

theorem comma_not_mem_text (d : Directive) : ',' ∉ d.text.toList := by
  rw [text_eq]
  refine not_mem_intercalate (by decide) fun joined hjoined => ?_
  obtain ⟨setting, hsetting, rfl⟩ := List.mem_map.1 hjoined
  exact not_mem_intercalate (by decide) fun word hword =>
    not_mem_word (by decide) hsetting hword

theorem splitOnChar_colon_text (d : Directive) :
    splitOnChar ':' d.text = d.settings.map fun setting => "=".intercalate setting := by
  rw [text_eq]
  refine splitOnChar_intercalate (by decide) (by simpa using d.settings_ne_nil)
    fun joined hjoined => ?_
  obtain ⟨setting, hsetting, rfl⟩ := List.mem_map.1 hjoined
  exact not_mem_intercalate (by decide) fun word hword =>
    not_mem_word (by decide) hsetting hword

/-- The words of a filter are those of its settings. -/
theorem words_text (d : Directive) :
    (splitOnChar ':' d.text).flatMap (splitOnChar '=') = d.settings.flatten := by
  rw [splitOnChar_colon_text, List.flatMap_map, ← List.flatMap_id]
  refine List.flatMap_congr fun setting hsetting => ?_
  exact splitOnChar_intercalate (by decide) (setting_ne_nil hsetting) fun word hword =>
    not_mem_word (by decide) hsetting hword

/-- A word for what is no finite number stands in a directive only for one of its numbers. -/
theorem mem_settings_iff (hword : word ∈ nonFiniteWords) :
    word ∈ d.settings.flatten ↔ ∃ x ∈ d.numbers, word = formatSeconds x := by
  have hnames : ∀ name ∈ names, name ∉ nonFiniteWords := by decide
  constructor
  · intro hmem
    obtain ⟨setting, hsetting, hin⟩ := List.mem_flatten.1 hmem
    exact (mem_setting hsetting hin).resolve_left fun hname => hnames word hname hword
  · rintro ⟨x, hx, rfl⟩
    obtain ⟨setting, hsetting, hin⟩ := formatSeconds_mem_settings hx
    exact List.mem_flatten.2 ⟨setting, hsetting, hin⟩

end Directive

theorem argumentWords_filters {ds : List Directive} (hne : ds ≠ []) :
    argumentWords (",".intercalate (ds.map Directive.text)) =
      ds.flatMap fun d => d.settings.flatten := by
  have hcommas : ∀ text ∈ ds.map Directive.text, ',' ∉ text.toList := by
    intro text htext
    obtain ⟨d, -, rfl⟩ := List.mem_map.1 htext
    exact d.comma_not_mem_text
  unfold argumentWords
  rw [splitOnChar_intercalate (by decide) (by simpa using hne) hcommas, List.flatMap_assoc,
    List.flatMap_map]
  exact List.flatMap_congr fun d _ => d.words_text

/-! ## The words of the other arguments -/

/-- The arguments for the encoder that are not numbers. -/
def encoderNames : List String :=
  ["-codec:a", "libmp3lame", "-b:a", "pcm_s16le", "-ar"]

section Encoder

variable {o : ProcessingOptions} {argument : String}

theorem mem_codec (hargument : argument ∈ codec o) :
    argument ∈ encoderNames ∨ ∃ n : Int, argument = intText n ++ "k" := by
  unfold codec at hargument
  split at hargument
  · have hnames : ["-codec:a", "libmp3lame"] ⊆ encoderNames := by decide
    rcases List.mem_append.1 hargument with hname | hrate
    · exact .inl (hnames hname)
    · split at hrate
      · cases hrate
      · cases hrate
      · rename_i rate _ _
        rcases List.mem_cons.1 hrate with rfl | hrate
        · exact .inl (by decide)
        · exact .inr ⟨rate, List.mem_singleton.1 hrate⟩
  · have hnames : ["-codec:a", "pcm_s16le"] ⊆ encoderNames := by decide
    split at hargument
    · exact .inl (hnames hargument)
    · cases hargument

theorem mem_sampleRate (hargument : argument ∈ sampleRate o) :
    argument ∈ encoderNames ∨ ∃ n : Int, argument = intText n := by
  unfold sampleRate at hargument
  split at hargument
  · cases hargument
  · cases hargument
  · rename_i rate _ _
    rcases List.mem_cons.1 hargument with rfl | hargument
    · exact .inl (by decide)
    · exact .inr ⟨rate, List.mem_singleton.1 hargument⟩

end Encoder

/-- A whole number, or one of kilobits, is one word. -/
theorem argumentWords_intText (n : Int) {unit : String}
    (hunit : ∀ c ∈ separators, c ∉ unit.toList) :
    argumentWords (intText n ++ unit) = [intText n ++ unit] := by
  refine argumentWords_of_not_mem fun c hc => ?_
  obtain ⟨p, hp, -⟩ := exists_intText_eq n
  have hplain : ∀ c ∈ separators, ¬ (c = '-' ∨ c = '.' ∨ c.isDigit = true) :=
    forall_separators.2 (by decide)
  rw [String.toList_append, List.mem_append, not_or]
  refine ⟨fun hmem => hplain c hc (PlainNumber.mem_chars (p := p) ?_), hunit c hc⟩
  rwa [hp, String.toList_ofList] at hmem

theorem intText_not_mem_nonFiniteWords (n : Int) : intText n ∉ nonFiniteWords := by
  obtain ⟨p, hp, -⟩ := exists_intText_eq n
  have hletter : ∀ word ∈ nonFiniteWords, 'n' ∈ word.toList := by decide
  intro hmem
  have hn := hletter _ hmem
  rw [hp, String.toList_ofList] at hn
  rcases PlainNumber.mem_chars hn with h | h | h <;> revert h <;> decide

/-- The arguments for the encoder have no word for what is no finite number. -/
theorem not_mem_encoderArgs {o : ProcessingOptions} {argument word : String}
    (hargument : argument ∈ codec o ++ sampleRate o) (hword : word ∈ nonFiniteWords) :
    word ∉ argumentWords argument := by
  have hnames : ∀ name ∈ encoderNames, ∀ word ∈ nonFiniteWords, word ∉ argumentWords name := by
    decide
  rcases List.mem_append.1 hargument with hcodec | hrate
  · rcases mem_codec hcodec with hname | ⟨n, rfl⟩
    · exact hnames argument hname word hword
    · -- none of the words ends with the letter of kilobits
      have hkilo : ∀ word ∈ nonFiniteWords, 'k' ∉ word.toList := by decide
      rw [argumentWords_intText n (forall_separators.2 (by decide)), List.mem_singleton]
      rintro rfl
      refine hkilo _ hword ?_
      rw [String.toList_append]
      exact List.mem_append_right _ (by decide)
  · rcases mem_sampleRate hrate with hname | ⟨n, rfl⟩
    · exact hnames argument hname word hword
    · have hone : argumentWords (intText n ++ "") = [intText n ++ ""] :=
        argumentWords_intText n (forall_separators.2 (by decide))
      rw [String.append_empty] at hone
      rw [hone, List.mem_singleton]
      rintro rfl
      exact intText_not_mem_nonFiniteWords n hword

/-! ## The words of a chain -/

variable {o : ProcessingOptions} {probe : ProbeInfo} {fadeIn fadeOut : Binary64} {source : String}

section NonFinite

variable {word : String}

/-- Such a word stands in a chain only among the filters. -/
theorem mem_words_build_iff (hword : word ∈ nonFiniteWords) :
    word ∈ (build o probe fadeIn fadeOut source).value.words ↔
      word ∈ (build o probe fadeIn fadeOut source).value.filterArgs.flatMap argumentWords := by
  have hcodec : (build o probe fadeIn fadeOut source).value.codecArgs = codec o := by
    simp only [build, Logged.value_bind, Logged.value_pure]
  have hrate : (build o probe fadeIn fadeOut source).value.sampleRateArgs = sampleRate o := by
    simp only [build, Logged.value_bind, Logged.value_pure]
  rw [words, hcodec, hrate, List.append_assoc, List.flatMap_append, List.mem_append]
  refine or_iff_left fun hmem => ?_
  obtain ⟨argument, hargument, hin⟩ := List.mem_flatMap.1 hmem
  exact not_mem_encoderArgs hargument hword hin

/-- Among the filters it writes a number of a directive. -/
theorem mem_filterArgs_build_iff (hword : word ∈ nonFiniteWords) :
    word ∈ (build o probe fadeIn fadeOut source).value.filterArgs.flatMap argumentWords ↔
      ∃ d ∈ directives o probe.duration fadeIn fadeOut, ∃ x ∈ d.numbers,
        word = formatSeconds x := by
  unfold filterArgs
  rw [filters_build]
  by_cases hnil : directives o probe.duration fadeIn fadeOut = []
  · simp [hnil]
  · have hflag : ∀ word ∈ nonFiniteWords, word ∉ argumentWords "-af" := by decide
    rw [if_neg (by simpa using hnil), List.flatMap_cons, List.flatMap_singleton,
      argumentWords_filters hnil, List.mem_append, or_iff_right (hflag word hword)]
    simp only [List.mem_flatMap, Directive.mem_settings_iff hword]

end NonFinite

/-- A chain has a word for what is no finite number exactly when a number of one of its directives
is not finite. -/
theorem nonFinite_iff :
    (∃ word ∈ nonFiniteWords, word ∈ (build o probe fadeIn fadeOut source).value.words) ↔
      ∃ d ∈ directives o probe.duration fadeIn fadeOut, ∃ x ∈ d.numbers, x.isFinite = false := by
  constructor
  · rintro ⟨word, hword, hmem⟩
    rw [mem_words_build_iff hword, mem_filterArgs_build_iff hword] at hmem
    obtain ⟨d, hd, x, hx, rfl⟩ := hmem
    exact ⟨d, hd, x, hx, formatSeconds_mem_nonFiniteWords.1 hword⟩
  · rintro ⟨d, hd, x, hx, hinfinite⟩
    have hword := formatSeconds_mem_nonFiniteWords.2 hinfinite
    refine ⟨_, hword, ?_⟩
    rw [mem_words_build_iff hword, mem_filterArgs_build_iff hword]
    exact ⟨d, hd, x, hx, rfl⟩

end FilterChain

/-- The numbers of the options are finite. -/
structure ProcessingOptions.IsFinite (o : ProcessingOptions) : Prop where
  trimStart : ∀ x ∈ o.trimStart, x.isFinite = true
  trimEnd : ∀ x ∈ o.trimEnd, x.isFinite = true
  level : ∀ x ∈ o.level, x.isFinite = true

namespace FilterChain

variable {o : ProcessingOptions} {probe : ProbeInfo} {fadeIn fadeOut : Binary64} {source : String}

theorem isFinite_startSeconds (ho : o.IsFinite) (duration : Binary64) :
    (TrimWindow.ofOptions o duration).startSeconds.isFinite = true := by
  unfold TrimWindow.startSeconds TrimWindow.ofOptions
  cases hstart : o.trimStart.filter fun x => !x.isZero with
  | none => exact Binary64.isFinite_zero
  | some x => exact ho.trimStart x (Option.filter_eq_some_iff.1 hstart).1

/-- With finite options and fades, only the length of the cut and the start of the fade out may not
be finite. -/
theorem nonFinite_iff_of_isFinite (ho : o.IsFinite) (hfadeIn : fadeIn.isFinite = true)
    (hfadeOut : fadeOut.isFinite = true) :
    (∃ word ∈ nonFiniteWords, word ∈ (build o probe fadeIn fadeOut source).value.words) ↔
      (∃ w, o.window? probe.duration = some w ∧ w.length.isFinite = false) ∨
      (o.fadeOut = true ∧
        (fadeOutStart (o.outputDuration probe.duration) fadeOut).isFinite = false) := by
  have hstart : ∀ w, o.window? probe.duration = some w → w.startSeconds.isFinite = true := by
    intro w hw
    rw [(ProcessingOptions.window?_eq_some_iff_fits.1 hw).2]
    exact isFinite_startSeconds ho probe.duration
  have hnot : ∀ {x : Binary64}, x.isFinite = true → ¬ x.isFinite = false :=
    fun hx hinfinite => by rw [hx] at hinfinite; cases hinfinite
  rw [nonFinite_iff]
  constructor
  · rintro ⟨d, hd, x, hx, hinfinite⟩
    rcases mem_directives.1 hd with ⟨w, hw, rfl | rfl⟩ | ⟨level, hlevel, rfl⟩ | ⟨hasked, rfl⟩ |
      ⟨hasked, rfl⟩
    · rcases List.mem_cons.1 hx with rfl | hx
      · exact absurd hinfinite (hnot (hstart w hw))
      · rw [List.mem_singleton.1 hx] at hinfinite
        exact .inl ⟨w, hw, hinfinite⟩
    · cases hx
    · rw [List.mem_singleton.1 hx] at hinfinite
      exact absurd hinfinite (hnot (isLevel_clampLevel level).isFinite)
    · rw [List.mem_singleton.1 hx] at hinfinite
      exact absurd hinfinite (hnot hfadeIn)
    · rcases List.mem_cons.1 hx with hx | hx
      · rw [hx] at hinfinite
        exact .inr ⟨hasked, hinfinite⟩
      · rw [List.mem_singleton.1 hx] at hinfinite
        exact absurd hinfinite (hnot hfadeOut)
  · rintro (⟨w, hw, hinfinite⟩ | ⟨hasked, hinfinite⟩)
    · exact ⟨.cut w.startSeconds w.length, mem_directives.2 (.inl ⟨w, hw, .inl rfl⟩), w.length,
        by simp [Directive.numbers], hinfinite⟩
    · exact ⟨_, mem_directives.2 (.inr (.inr (.inr ⟨hasked, rfl⟩))), _,
        by simp [Directive.numbers], hinfinite⟩

/-- The fade out starts at a finite time when what is left is no longer than a finite duration. -/
theorem isFinite_fadeOutStart {out duration : Binary64} (hout : out.isFinite = true)
    (hle : out ≤ duration) (hfinite : duration.isFinite = true) (hdouble : duration.IsDouble)
    (hfadeOut : fadeOut.isFinite = true) (hnonneg : 0 ≤ fadeOut) :
    (fadeOutStart out fadeOut).isFinite = true := by
  unfold fadeOutStart Binary64.max
  split
  · rename_i hpos
    have hless := (Binary64.zero_lt_sub_iff hout hfadeOut).1 hpos
    exact (Binary64.sub_le_of_le hfadeOut hfinite hdouble hnonneg hless hle hout).1
  · exact Binary64.isFinite_zero

/-- For a finite duration, a trim start and a length of the fade out that are not negative,
all numbers of a chain are finite. -/
theorem not_nonFinite (ho : o.IsFinite) (hstart : ∀ x ∈ o.trimStart, 0 ≤ x)
    (hfinite : probe.duration.isFinite = true) (hdouble : probe.duration.IsDouble)
    (hfadeIn : fadeIn.isFinite = true) (hfadeOut : fadeOut.isFinite = true)
    (hnonneg : 0 ≤ fadeOut) :
    ¬ ∃ word ∈ nonFiniteWords, word ∈ (build o probe fadeIn fadeOut source).value.words := by
  have hwindow : ∀ w, o.window? probe.duration = some w →
      w.length.isFinite = true ∧ w.length ≤ probe.duration := by
    intro w hw
    obtain ⟨⟨-, hfits⟩, hsame⟩ := ProcessingOptions.window?_eq_some_iff_fits.1 hw
    obtain ⟨hnearest, -, hle⟩ :=
      TrimWindow.length_bounds hfinite hdouble (ProcessingOptions.startSeconds_nonneg hstart) hfits
    rw [hsame]
    exact ⟨hnearest.isFinite, hle⟩
  have hout : (o.outputDuration probe.duration).isFinite = true ∧
      o.outputDuration probe.duration ≤ probe.duration := by
    cases hw : o.window? probe.duration with
    | none =>
        rw [ProcessingOptions.outputDuration_of_window?_eq_none hw]
        exact ⟨hfinite, Binary64.le_refl_of_isFinite hfinite⟩
    | some w =>
        rw [ProcessingOptions.outputDuration_of_window?_eq_some hw]
        exact hwindow w hw
  rw [nonFinite_iff_of_isFinite ho hfadeIn hfadeOut]
  rintro (⟨w, hw, hinfinite⟩ | ⟨-, hinfinite⟩)
  · rw [(hwindow w hw).1] at hinfinite
    cases hinfinite
  · rw [isFinite_fadeOutStart hout.1 hout.2 hfinite hdouble hfadeOut hnonneg] at hinfinite
    cases hinfinite

end FilterChain

end BroadcastIntake
