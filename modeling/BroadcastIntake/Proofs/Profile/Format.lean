import BroadcastIntake.FilterChain
import BroadcastIntake.OutputName
import BroadcastIntake.Proofs.Profile.RoundTrip
import BroadcastIntake.Proofs.Text.Lowered

/-!
# How the format of a profile is stored

A format is stored without blanks around it, in small letters and without leading dots.  The blanks
go first and the dots last, so a blank behind the leading dots is not taken away: it is then the
first character of what is stored (`AudioSettings.HidesBlank`).  `AudioSettings.checkFormat_spec`
says that this is the only way in which a stored format is not in normal form, and what holds of all
of them.

* Lowering does not look at the dots before a text, so the dots may as well be taken away before it
  (`AudioSettings.normalFormat_eq_lower`).  A stored format is a lowered text.
* Lowering keeps blanks and dots at the ends of a text, so the ends of what is stored are those of
  the text without its dots.
* A profile passes its checks again as it is exactly when its format does
  (`ShowProfile.check_withFormat_iff`).
-/

namespace BroadcastIntake

namespace AudioSettings

/-- The format without blanks around it and without the dots before it. -/
def undotted (text : String) : String :=
  Text.trimLeftBy (· = '.') (Text.trim text)

/-- A blank stands right behind the leading dots of the format. -/
def HidesBlank (text : String) : Prop :=
  ∃ c ∈ (undotted text).toList.head?, Text.isBlank c = true

instance (text : String) : Decidable (HidesBlank text) :=
  Option.decidableExistsMem (undotted text).toList.head?

/-- The name that a format spells: what is left of it without blanks and dots before it and blanks
behind it, in small letters. -/
def spelledName (text : String) : String :=
  Text.lower (Text.trimLeftBy (fun c => c = '.' || Text.isBlank c) (Text.trim text))

/-- A format in normal form: a text in small letters, without a leading dot and without blanks
around it, that is stored as it is. -/
structure IsNormal (format : String) : Prop where
  ne_empty : format ≠ ""
  lower : Text.lower format = format
  noDot : ∀ c ∈ format.toList.head?, c ≠ '.'
  trim : Text.trim format = format
  again : checkFormat (.str format) = .valid format

/-! ## Storing a format -/

theorem checkFormat_eq_valid_iff {text stored : String} :
    checkFormat (.str text) = .valid stored ↔ normalFormat text = stored ∧ stored ≠ "" := by
  unfold checkFormat Scalar.text Checked.andThen
  dsimp only
  split
  · rename_i hempty
    rw [hempty]
    exact iff_of_false nofun fun h => h.2 h.1.symm
  · rename_i hne
    rw [Checked.valid.injEq]
    exact ⟨fun hstored => ⟨hstored, hstored ▸ hne⟩, And.left⟩

/-- A trimmed text begins with dots, and the format without them stands behind these. -/
theorem exists_dots (text : String) : ∃ dots : List Char, (∀ c ∈ dots, c = '.') ∧
    (Text.trim text).toList = dots ++ (undotted text).toList := by
  refine ⟨(Text.trim text).toList.takeWhile (· = '.'), fun c hc => ?_, ?_⟩
  · simpa using List.mem_takeWhile_imp hc
  · rw [undotted, Text.trimLeftBy, String.toList_ofList]
    exact List.takeWhile_append_dropWhile.symm

section Ends

variable {text : String} {c : Char}

theorem ne_dot_of_head?_undotted (hc : c ∈ (undotted text).toList.head?) : c ≠ '.' := by
  rw [undotted, Text.trimLeftBy, String.toList_ofList] at hc
  simpa using Text.Chars.head?_trimLeft hc

theorem not_blank_of_getLast?_undotted (hc : c ∈ (undotted text).toList.getLast?) :
    Text.isBlank c = false := by
  obtain ⟨dots, -, htrim⟩ := exists_dots text
  have hlast : c ∈ (Text.trim text).toList.getLast? := by
    rw [htrim, List.getLast?_append_of_ne_nil]
    · exact hc
    · rintro hnil
      rw [hnil] at hc
      cases hc
  rw [Text.trim, Text.trimBy, String.toList_ofList] at hlast
  exact Text.Chars.getLast?_trimRight hlast

theorem ne_dot_of_head?_lowerChars (hc : c ∈ (Text.lowerChars (undotted text).toList).head?) :
    c ≠ '.' := by
  obtain ⟨first, hfirst, after, hform⟩ := Text.of_head?_lowerAfter hc
  rintro rfl
  exact ne_dot_of_head?_undotted hfirst (Text.eq_of_mem_lowerBetween (by decide) hform)

end Ends

/-- Dots may as well be taken away before the format is put in small letters. -/
theorem toList_normalFormat (text : String) :
    (normalFormat text).toList = Text.lowerChars (undotted text).toList := by
  obtain ⟨dots, hdots, htrim⟩ := exists_dots text
  have hkept : ∀ c ∈ (Text.lowerChars (undotted text).toList).head?, decide (c = '.') = false :=
    fun c hc => by simpa using ne_dot_of_head?_lowerChars hc
  calc (normalFormat text).toList
      = Text.Chars.trimLeft (· = '.') (Text.lowerChars (Text.trim text).toList) := by
        rw [normalFormat, Text.trimLeftBy, Text.lower, String.toList_ofList, String.toList_ofList]
    _ = Text.Chars.trimLeft (· = '.') (dots ++ Text.lowerChars (undotted text).toList) := by
        rw [htrim, Text.lowerChars_append_of_dots hdots]
    _ = Text.Chars.trimLeft (· = '.') (Text.lowerChars (undotted text).toList) :=
        List.dropWhile_append_of_pos fun c hc => by simpa using hdots c hc
    _ = Text.lowerChars (undotted text).toList := Text.Chars.trimLeft_eq_self_iff.2 hkept

theorem normalFormat_eq_lower (text : String) : normalFormat text = Text.lower (undotted text) := by
  rw [Text.lower, ← toList_normalFormat, String.ofList_toList]

/-! ## The ends of what is stored -/

section Stored

variable {text stored : String}

theorem ne_dot_of_head?_normalFormat {c : Char} (hc : c ∈ (normalFormat text).toList.head?) :
    c ≠ '.' := by
  rw [toList_normalFormat] at hc
  exact ne_dot_of_head?_lowerChars hc

theorem not_blank_of_getLast?_normalFormat {c : Char}
    (hc : c ∈ (normalFormat text).toList.getLast?) : Text.isBlank c = false := by
  rw [toList_normalFormat] at hc
  obtain ⟨last, hlast, left, hform⟩ := Text.of_getLast?_lowerAfter hc
  rw [Text.isBlank_of_mem_lowerBetween hform]
  exact not_blank_of_getLast?_undotted hlast

/-- What is stored begins with a blank when one stands right behind the leading dots. -/
theorem head?_normalFormat_blank_iff :
    (∃ c ∈ (normalFormat text).toList.head?, Text.isBlank c = true) ↔ HidesBlank text := by
  rw [toList_normalFormat]
  constructor
  · rintro ⟨c, hc, hblank⟩
    obtain ⟨first, hfirst, after, hform⟩ := Text.of_head?_lowerAfter hc
    exact ⟨first, hfirst, by rw [← Text.isBlank_of_mem_lowerBetween hform, hblank]⟩
  · rintro ⟨first, hfirst, hblank⟩
    obtain ⟨rest, hrest⟩ := List.head?_eq_some_iff.1 hfirst
    have hne : Text.lowerChars (undotted text).toList ≠ [] := by
      rw [hrest, Text.lowerChars, Text.lowerAfter]
      exact List.append_ne_nil_of_left_ne_nil (Text.lowerBetween_ne_nil _ _ _) _
    obtain ⟨c, others, hc⟩ := List.exists_cons_of_ne_nil hne
    obtain ⟨first', hfirst', after, hform⟩ :=
      Text.of_head?_lowerAfter (List.head?_eq_some_iff.2 ⟨others, hc⟩)
    obtain rfl := Option.some.inj (hfirst'.symm.trans hfirst)
    exact ⟨c, by rw [hc]; rfl, by rw [Text.isBlank_of_mem_lowerBetween hform, hblank]⟩

theorem trim_normalFormat_iff :
    Text.trim (normalFormat text) = normalFormat text ↔ ¬ HidesBlank text := by
  have hchars : Text.trim (normalFormat text) = normalFormat text ↔
      Text.Chars.trim Text.isBlank (normalFormat text).toList = (normalFormat text).toList := by
    rw [Text.trim, Text.trimBy, ← String.toList_inj, String.toList_ofList]
  rw [hchars, Text.Chars.trim_eq_self_iff, ← head?_normalFormat_blank_iff]
  simp only [not_exists, not_and, Bool.not_eq_true]
  exact and_iff_left fun c hc => not_blank_of_getLast?_normalFormat hc

/-! ## Normal forms -/

theorem lower_normalFormat (text : String) :
    Text.lower (normalFormat text) = normalFormat text := by
  rw [normalFormat_eq_lower, Text.lower_lower]

/-- A format in small letters without a dot before it and blanks around it is stored as it is. -/
theorem normalFormat_eq_self (htrim : Text.trim text = text) (hlower : Text.lower text = text)
    (hdot : ∀ c ∈ text.toList.head?, c ≠ '.') : normalFormat text = text := by
  have hkept : Text.Chars.trimLeft (· = '.') text.toList = text.toList :=
    Text.Chars.trimLeft_eq_self_iff.2 fun c hc => by simpa using hdot c hc
  rw [normalFormat, htrim, hlower, Text.trimLeftBy, hkept, String.ofList_toList]

/-- A format in small letters that is stored as it is has no blanks around it. -/
theorem trim_eq_self_of_normalFormat (hlower : Text.lower text = text)
    (hsame : normalFormat text = text) : Text.trim text = text := by
  have hlowered : Text.lowerChars text.toList = text.toList := by
    rw [← String.toList_inj, Text.lower, String.toList_ofList] at hlower
    exact hlower
  have hsuffix : (undotted text).toList <:+ (Text.trim text).toList := by
    obtain ⟨dots, -, htrim⟩ := exists_dots text
    exact ⟨dots, htrim.symm⟩
  have hwithin : (Text.trim text).toList <:+: text.toList := by
    rw [Text.trim, Text.trimBy, String.toList_ofList]
    exact Text.Chars.trim_isInfix Text.isBlank text.toList
  -- nothing is left to be lowered, so all that can be taken away are characters at the ends
  have hundotted : text.toList = (undotted text).toList := by
    refine (congrArg String.toList hsame.symm).trans ?_
    rw [toList_normalFormat]
    refine Text.lowerChars_eq_self fun c hc => ?_
    have hmem : c ∈ text.toList := (hsuffix.isInfix.trans hwithin).subset hc
    rw [← hlowered] at hmem
    exact Text.isSmall_of_mem_lowerChars hmem
  have hlength : text.toList.length ≤ (Text.trim text).toList.length :=
    calc text.toList.length = (undotted text).toList.length := congrArg _ hundotted
      _ ≤ (Text.trim text).toList.length := hsuffix.length_le
  exact String.toList_inj.1 (hwithin.sublist.eq_of_length_le hlength)

theorem isNormal_iff (hstored : checkFormat (.str text) = .valid stored) :
    IsNormal stored ↔ ¬ HidesBlank text := by
  obtain ⟨rfl, hne⟩ := checkFormat_eq_valid_iff.1 hstored
  have hlower := lower_normalFormat text
  have hdot : ∀ c ∈ (normalFormat text).toList.head?, c ≠ '.' :=
    fun _ => ne_dot_of_head?_normalFormat
  rw [← trim_normalFormat_iff]
  constructor
  · exact IsNormal.trim
  · intro htrim
    have hsame := normalFormat_eq_self htrim hlower hdot
    exact ⟨hne, hlower, hdot, htrim, checkFormat_eq_valid_iff.2 ⟨hsame, hne⟩⟩

/-- What is stored is stored as it is once more when no blank is hidden. -/
theorem checkFormat_again_iff (hstored : checkFormat (.str text) = .valid stored) :
    checkFormat (.str stored) = .valid stored ↔ ¬ HidesBlank text := by
  obtain ⟨rfl, hne⟩ := checkFormat_eq_valid_iff.1 hstored
  rw [← isNormal_iff hstored]
  refine ⟨fun hagain => ?_, IsNormal.again⟩
  rw [isNormal_iff hstored, ← trim_normalFormat_iff]
  exact trim_eq_self_of_normalFormat (lower_normalFormat text)
    (checkFormat_eq_valid_iff.1 hagain).1

/-- Without a hidden blank the stored format is the name that the text spells. -/
theorem normalFormat_eq_spelledName (hplain : ¬ HidesBlank text) :
    normalFormat text = spelledName text := by
  obtain ⟨dots, hdots, htrim⟩ := exists_dots text
  have hkept : Text.Chars.trimLeft (fun c => c = '.' || Text.isBlank c) (undotted text).toList =
      (undotted text).toList := by
    refine Text.Chars.trimLeft_eq_self_iff.2 fun c hc => ?_
    have hdot := ne_dot_of_head?_undotted hc
    have hblank : ¬ Text.isBlank c = true := fun hblank => hplain ⟨c, hc, hblank⟩
    simpa [hdot] using hblank
  have hname : Text.trimLeftBy (fun c => c = '.' || Text.isBlank c) (Text.trim text) =
      undotted text := by
    rw [Text.trimLeftBy, htrim, Text.Chars.trimLeft, List.dropWhile_append_of_pos]
    · exact (congrArg String.ofList hkept).trans String.ofList_toList
    · exact fun c hc => by simp [hdots c hc]
  rw [spelledName, hname, normalFormat_eq_lower]

end Stored

end AudioSettings

/-! ## What goes by the format -/

/-- What is done for the profile goes by the given name of a format: the arguments of the codecs
that are known, the decision to copy a file as it is, and the extension of the output. -/
structure ShowProfile.GoesBy (profile : ShowProfile) (name : String) : Prop where
  mp3 : ∀ date? today,
    ["-codec:a", "libmp3lame"] <+: FilterChain.codec (.ofShow profile date? today) ↔ name = "mp3"
  wav : ∀ date? today,
    FilterChain.codec (.ofShow profile date? today) = ["-codec:a", "pcm_s16le"] ↔ name = "wav"
  copied : ∀ date? today, (ProcessingOptions.ofShow profile date? today).needsProcessing = false ↔
    name = "wav" ∧
      (ProcessingOptions.ofShow (profile.withFormat "wav") date? today).needsProcessing = false
  extension : ∀ source date? today, ∃ stem,
    OutputName.forSource source profile date? none today = stem ++ "." ++ name

/-- A file is copied when its format is that of a copy and nothing else is asked for. -/
theorem ProcessingOptions.copied_iff (o : ProcessingOptions) : o.needsProcessing = false ↔
    o.format = "wav" ∧ { o with format := "wav" }.needsProcessing = false := by
  unfold needsProcessing AudioSettings.passThroughFormat
  by_cases hformat : o.format = "wav"
  · simp [hformat]
  · simp [hformat]

theorem ShowProfile.goesBy_format (profile : ShowProfile) :
    profile.GoesBy profile.audio.format where
  mp3 := by
    intro date? today
    unfold FilterChain.codec
    split
    · rename_i hmp3
      exact iff_of_true (List.prefix_append _ _) hmp3
    · rename_i hother
      refine iff_of_false (fun hprefix => ?_) hother
      split at hprefix
      · revert hprefix
        decide
      · cases List.prefix_nil.1 hprefix
  wav := by
    intro date? today
    unfold FilterChain.codec
    split
    · rename_i hmp3
      have hne : (ProcessingOptions.ofShow profile date? today).format ≠ "wav" := by
        rw [hmp3]
        decide
      exact iff_of_false (by simp) hne
    · split
      · rename_i hwav
        exact iff_of_true rfl hwav
      · rename_i hother
        exact iff_of_false nofun hother
  copied := by
    intro date? today
    have hwav : ProcessingOptions.ofShow (profile.withFormat "wav") date? today =
        { ProcessingOptions.ofShow profile date? today with format := "wav" } := by
      simp only [ProcessingOptions.ofShow, withFormat, AudioSettings.withFormat]
    rw [hwav]
    exact ProcessingOptions.copied_iff _
  extension := by
    intro source date? today
    unfold OutputName.forSource
    dsimp only [Option.getD]
    split
    · exact ⟨_, String.append_assoc.symm⟩
    · exact ⟨_, String.append_assoc.symm⟩

/-! ## Stored formats -/

/-- **Stored formats.**  What is stored for a format is never empty, is in small letters, begins with
no dot and ends with no blank.  It is in normal form, is stored as it is once more, and lets a
profile pass its checks again as it is, exactly when no blank stands right behind the leading dots
of the text.  Then it is the name that the text spells, all that is done for a profile with it goes
by that name, and every other spelling of the name gives the same profile. -/
theorem AudioSettings.checkFormat_spec {text stored : String}
    (hstored : checkFormat (.str text) = .valid stored) :
    (stored ≠ "" ∧ Text.lower stored = stored ∧ (∀ c ∈ stored.toList.head?, c ≠ '.') ∧
      ∀ c ∈ stored.toList.getLast?, Text.isBlank c = false) ∧
    (IsNormal stored ↔ ¬ HidesBlank text) ∧
    (checkFormat (.str stored) = .valid stored ↔ ¬ HidesBlank text) ∧
    (∀ value profile, ShowProfile.check value = .valid profile → profile.audio.format = stored →
      (ShowProfile.check profile.toJson = .valid profile ↔ ¬ HidesBlank text)) ∧
    (¬ HidesBlank text → stored = spelledName text ∧
      ∀ value profile, ShowProfile.check value = .valid profile → profile.audio.format = stored →
        profile.GoesBy (spelledName text) ∧
        ∀ other, ¬ HidesBlank other → spelledName other = spelledName text →
          ShowProfile.check (profile.withFormat other).toJson = .valid profile) := by
  have hagain := checkFormat_again_iff hstored
  have hnormal := isNormal_iff hstored
  obtain ⟨rfl, hne⟩ := checkFormat_eq_valid_iff.1 hstored
  refine ⟨⟨hne, lower_normalFormat text, fun _ => ne_dot_of_head?_normalFormat,
    fun _ => not_blank_of_getLast?_normalFormat⟩, hnormal, hagain, ?_, fun hplain => ?_⟩
  · intro value profile hprofile hformat
    rw [← hagain, ← hformat]
    exact ShowProfile.check_withFormat_iff hprofile profile.audio.format
  · have hname := normalFormat_eq_spelledName hplain
    refine ⟨hname, fun value profile hprofile hformat => ⟨?_, fun other hother hsame => ?_⟩⟩
    · rw [← hname, ← hformat]
      exact profile.goesBy_format
    · have hspelled : normalFormat other = normalFormat text :=
        calc normalFormat other = spelledName other := normalFormat_eq_spelledName hother
          _ = spelledName text := hsame
          _ = normalFormat text := hname.symm
      rw [ShowProfile.check_withFormat_iff hprofile, hformat]
      exact checkFormat_eq_valid_iff.2 ⟨hspelled, hne⟩

/-- Dots, capitals and blanks around a format are other spellings of it. -/
theorem AudioSettings.dottedCapitals_spec :
    let value : Json := .object
      [("name", .str "News"), ("audio_settings", .object [("output_format", .str " ..MP3\t")])]
    let news : ShowProfile := (ShowProfile.named "News").withFormat "mp3"
    ShowProfile.check value = .valid news ∧ IsNormal "mp3" ∧
      ShowProfile.check news.toJson = .valid news ∧ news.GoesBy "mp3" ∧
      ShowProfile.check (news.withFormat ".Mp3").toJson = .valid news := by
  intro value news
  have hnews : ShowProfile.check value = .valid news :=
    Checked.eq_valid_of_toOption (by decide +kernel)
  have hstored : checkFormat (.str " ..MP3\t") = .valid "mp3" :=
    checkFormat_eq_valid_iff.2 (by decide +kernel)
  have hplain : ¬ HidesBlank " ..MP3\t" ∧ ¬ HidesBlank ".Mp3" := by decide +kernel
  have hnames : spelledName " ..MP3\t" = "mp3" ∧ spelledName ".Mp3" = "mp3" := by decide +kernel
  obtain ⟨-, hnormal, -, hagain, hname⟩ := checkFormat_spec hstored
  obtain ⟨-, hprofile⟩ := hname hplain.1
  obtain ⟨hgoes, hspelled⟩ := hprofile value news hnews rfl
  rw [hnames.1] at hgoes hspelled
  exact ⟨hnews, hnormal.2 hplain.1, (hagain value news hnews rfl).2 hplain.1, hgoes,
    hspelled _ hplain.2 hnames.2⟩

/-- A blank behind the leading dots stays before what is stored. -/
theorem AudioSettings.not_every_stored_isNormal :
    ¬ ∀ text stored, checkFormat (.str text) = .valid stored → IsNormal stored := by
  intro hall
  have hstored : checkFormat (.str ". mp3") = .valid " mp3" :=
    checkFormat_eq_valid_iff.2 (by decide +kernel)
  have htrim : Text.trim " mp3" = " mp3" := (hall _ _ hstored).trim
  exact absurd htrim (by decide)

end BroadcastIntake
