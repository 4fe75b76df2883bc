import BroadcastIntake.Profile
import BroadcastIntake.Proofs.Pattern.Tokens

/-!
# Profiles that passed their checks

A profile that passed its checks has all its parts from checks of their own
(`ShowProfile.exists_isReadFrom`).  Two facts about such a profile are read off its parts.

* A profile keeps its patterns accepted, not as texts, and every pattern is the accepted form of its
  own text (`ShowProfile.isCompiled_of_check`), so whatever is asked of the text can be answered by
  the pattern.
* Its format is not empty (`ShowProfile.format_ne_empty_of_check`).
-/

namespace BroadcastIntake

namespace Checked

variable {α β : Type}

/-- A checked function is applied when both sides passed. -/
theorem seq_eq_valid {f : Checked (α → β)} {x : Checked α} {b : β} (h : f <*> x = .valid b) :
    ∃ g a, f = .valid g ∧ x = .valid a ∧ g a = b := by
  change apply f x = .valid b at h
  cases f with
  | invalid => cases x <;> cases h
  | valid g =>
      cases x with
      | invalid => cases h
      | valid a => exact ⟨g, a, rfl, rfl, valid.inj h⟩

theorem map_eq_valid {f : α → β} {x : Checked α} {b : β} (h : f <$> x = .valid b) :
    ∃ a, x = .valid a ∧ f a = b := by
  obtain ⟨g, a, hg, ha, hb⟩ := seq_eq_valid (f := .valid f) h
  obtain rfl := valid.inj hg
  exact ⟨a, ha, hb⟩

theorem andThen_eq_valid {x : Checked α} {f : α → Checked β} {b : β}
    (h : x.andThen f = .valid b) : ∃ a, x = .valid a ∧ f a = .valid b := by
  cases x with
  | invalid => cases h
  | valid a => exact ⟨a, rfl, h⟩

/-- A value that is there has passed. -/
theorem eq_valid_of_toOption {x : Checked α} {a : α} (h : x.toOption = some a) : x = .valid a := by
  cases x with
  | invalid => cases h
  | valid a' => rw [← Option.some.inj h]

theorem under_eq_valid {step : Step} {x : Checked α} {a : α} (h : x.under step = .valid a) :
    x = .valid a := by
  cases x with
  | invalid => cases h
  | valid a' => exact h

theorem exists_seq_iff {f : Checked (α → β)} {x : Checked α} :
    (∃ b, f <*> x = .valid b) ↔ (∃ g, f = .valid g) ∧ ∃ a, x = .valid a := by
  constructor
  · rintro ⟨b, hb⟩
    obtain ⟨g, a, hg, ha, -⟩ := seq_eq_valid hb
    exact ⟨⟨g, hg⟩, a, ha⟩
  · rintro ⟨⟨g, rfl⟩, a, rfl⟩
    exact ⟨g a, rfl⟩

theorem exists_map_iff {f : α → β} {x : Checked α} :
    (∃ b, f <$> x = .valid b) ↔ ∃ a, x = .valid a := by
  constructor
  · rintro ⟨b, hb⟩
    obtain ⟨a, ha, -⟩ := map_eq_valid hb
    exact ⟨a, ha⟩
  · rintro ⟨a, rfl⟩
    exact ⟨f a, rfl⟩

theorem exists_under_iff {step : Step} {x : Checked α} :
    (∃ a, x.under step = .valid a) ↔ ∃ a, x = .valid a := by
  cases x with
  | valid a => exact Iff.rfl
  | invalid issues => exact iff_of_false nofun nofun

/-- A list that passed has the values of its items, and no others. -/
theorem mem_items {check : Json → Checked α} {items : List Json} :
    ∀ {n : Nat} {values : List α}, Checked.items check n items = .valid values →
      (∀ item ∈ items, ∃ value ∈ values, check item = .valid value) ∧
        ∀ value ∈ values, ∃ item ∈ items, check item = .valid value := by
  induction items with
  | nil =>
      intro n values hvalues
      obtain rfl := valid.inj hvalues
      exact ⟨nofun, nofun⟩
  | cons item rest ih =>
      intro n values hvalues
      obtain ⟨g, others, hfirst, hothers, rfl⟩ := seq_eq_valid hvalues
      obtain ⟨first, hitem, rfl⟩ := map_eq_valid hfirst
      have hitem := under_eq_valid hitem
      obtain ⟨hvalue, hfrom⟩ := ih hothers
      constructor
      · intro other hother
        rcases List.mem_cons.1 hother with rfl | hother
        · exact ⟨first, List.mem_cons_self, hitem⟩
        · obtain ⟨value, hmem, hcheck⟩ := hvalue other hother
          exact ⟨value, List.mem_cons_of_mem _ hmem, hcheck⟩
      · intro value hmem
        rcases List.mem_cons.1 hmem with rfl | hmem
        · exact ⟨item, List.mem_cons_self, hitem⟩
        · obtain ⟨other, hother, hcheck⟩ := hfrom value hmem
          exact ⟨other, List.mem_cons_of_mem _ hother, hcheck⟩

end Checked

open Checked (seq_eq_valid map_eq_valid andThen_eq_valid under_eq_valid)

namespace Members

variable {α : Type} {members : Members} {key : String} {check : Json → Checked α}

/-- A member that may be left out has its own value, or passed its check. -/
theorem optional_eq_valid {default a : α} (h : members.optional key default check = .valid a) :
    a = default ∨ ∃ value, check value = .valid a := by
  unfold optional at h
  split at h
  · rename_i value _
    exact .inr ⟨value, under_eq_valid h⟩
  · exact .inl (Checked.valid.inj h).symm

/-- A member that may be left out passes when it passes where it is there. -/
theorem exists_optional_iff {default : α} :
    (∃ a, members.optional key default check = .valid a) ↔
      ∀ value, members.lookup key = some value → ∃ a, check value = .valid a := by
  unfold optional
  split
  · rename_i value hvalue
    rw [Checked.exists_under_iff, hvalue]
    simp only [Option.some.injEq, forall_eq']
  · rename_i hnone
    exact iff_of_true ⟨default, rfl⟩ fun value hvalue => by simp [hnone] at hvalue

theorem keys_mem_of_noOthers {keys : List String} {u : Unit}
    (h : members.noOthers keys = .valid u) : ∀ member ∈ members, member.1 ∈ keys := by
  unfold noOthers at h
  split at h
  · rename_i hnone
    intro member hmember
    have hknown := List.filter_eq_nil_iff.1 hnone member hmember
    simpa using hknown
  · cases h

theorem exists_noOthers_iff {keys : List String} :
    (∃ u, members.noOthers keys = .valid u) ↔ ∀ member ∈ members, member.1 ∈ keys := by
  refine ⟨fun ⟨_, hu⟩ => keys_mem_of_noOthers hu, fun hknown => ⟨(), ?_⟩⟩
  have hnone : members.filter (fun member => !keys.contains member.1) = [] :=
    List.filter_eq_nil_iff.2 fun member hmember => by simpa using hknown member hmember
  rw [noOthers, hnone]

end Members

/-- The pattern is the accepted form of its own text. -/
def FilePattern.IsCompiled (fp : FilePattern) : Prop :=
  Pattern.compile fp.pattern.source = .ok fp.pattern

/-- Every pattern of the show is the accepted form of its own text. -/
def ShowProfile.IsCompiled (profile : ShowProfile) : Prop :=
  ∀ fp ∈ profile.patterns, fp.IsCompiled

theorem FilePattern.isCompiled_of_checkPatternText {value : Json} {p : Pattern}
    (hp : checkPatternText value = .valid p) : Pattern.compile p.source = .ok p := by
  obtain ⟨source, -, hsource⟩ := andThen_eq_valid hp
  split at hsource
  · rename_i accepted haccepted
    obtain rfl := Checked.valid.inj hsource
    rwa [Pattern.source_of_compile haccepted]
  · cases hsource

/-- The parts of a file pattern are those that the members of a record give. -/
structure FilePattern.IsReadFrom (members : Members) (fp : FilePattern) : Prop where
  pattern : members.required "pattern" checkPatternText = .valid fp.pattern
  kind : members.optional "type" .watch checkKind = .valid fp.kind
  watchPath : members.optional "watch_path" none (Scalar.orNull Scalar.path) = .valid fp.watchPath

theorem FilePattern.exists_isReadFrom {value : Json} {fp : FilePattern}
    (hfp : check value = .valid fp) :
    ∃ members, value = .object members ∧ IsReadFrom members fp := by
  cases value with
  | object members =>
      obtain ⟨_, _, hparts, -, rfl⟩ := seq_eq_valid hfp
      obtain ⟨_, _, htoPath, hpath, rfl⟩ := seq_eq_valid hparts
      obtain ⟨_, _, htoKind, hkind, rfl⟩ := seq_eq_valid htoPath
      obtain ⟨_, hpattern, rfl⟩ := map_eq_valid htoKind
      exact ⟨members, rfl, hpattern, hkind, hpath⟩
  | _ => cases hfp

theorem FilePattern.isCompiled_of_check {value : Json} {fp : FilePattern}
    (hfp : check value = .valid fp) : fp.IsCompiled := by
  obtain ⟨members, -, hread⟩ := exists_isReadFrom hfp
  have hpattern := hread.pattern
  unfold Members.required at hpattern
  split at hpattern
  · exact isCompiled_of_checkPatternText (under_eq_valid hpattern)
  · cases hpattern

/-! ## The parts of a profile -/

/-- The parts of a profile are those that the members of a record give. -/
structure ShowProfile.IsReadFrom (members : Members) (profile : ShowProfile) : Prop where
  name : members.required "name" checkName = .valid profile.name
  id : members.optional "id" none (Scalar.orNull Scalar.text) = .valid profile.id
  enabled : members.optional "enabled" true Scalar.flag = .valid profile.enabled
  patterns : members.optional "file_patterns" [] (Scalar.list FilePattern.check) =
    .valid profile.patterns
  outputDirectory : members.optional "output_directory" none (Scalar.orNull Scalar.path) =
    .valid profile.outputDirectory
  trim : members.optional "trim_settings" TrimSettings.none TrimSettings.check =
    .valid profile.trim
  audio : members.optional "audio_settings" AudioSettings.none AudioSettings.check =
    .valid profile.audio
  tags : members.optional "metadata" TagTemplates.none TagTemplates.check = .valid profile.tags
  naming : members.optional "file_naming" NamingRules.none NamingRules.check =
    .valid profile.naming

/-- A profile that passed its checks is read from a record, part by part. -/
theorem ShowProfile.exists_isReadFrom {value : Json} {profile : ShowProfile}
    (hprofile : check value = .valid profile) :
    ∃ members, value = .object members ∧ IsReadFrom members profile := by
  cases value with
  | object members =>
      obtain ⟨_, _, hparts, -, rfl⟩ := seq_eq_valid hprofile
      obtain ⟨_, _, htoTags, hnaming, rfl⟩ := seq_eq_valid hparts
      obtain ⟨_, _, htoAudio, htags, rfl⟩ := seq_eq_valid htoTags
      obtain ⟨_, _, htoTrim, haudio, rfl⟩ := seq_eq_valid htoAudio
      obtain ⟨_, _, htoDirectory, htrim, rfl⟩ := seq_eq_valid htoTrim
      obtain ⟨_, _, htoPatterns, hdirectory, rfl⟩ := seq_eq_valid htoDirectory
      obtain ⟨_, _, htoEnabled, hpatterns, rfl⟩ := seq_eq_valid htoPatterns
      obtain ⟨_, _, htoId, henabled, rfl⟩ := seq_eq_valid htoEnabled
      obtain ⟨_, _, htoName, hid, rfl⟩ := seq_eq_valid htoId
      obtain ⟨_, hname, rfl⟩ := map_eq_valid htoName
      exact ⟨members, rfl, hname, hid, henabled, hpatterns, hdirectory, htrim, haudio, htags,
        hnaming⟩
  | _ => cases hprofile

/-- The parts of trim settings are those that the members of a record give. -/
structure TrimSettings.IsReadFrom (members : Members) (trim : TrimSettings) : Prop where
  start : members.optional "start_seconds" .zero (Scalar.numberAtLeast .zero) = .valid trim.start
  stop : members.optional "end_seconds" .zero (Scalar.numberAtLeast .zero) = .valid trim.stop
  fadeIn : members.optional "fade_in" false Scalar.flag = .valid trim.fadeIn
  fadeOut : members.optional "fade_out" false Scalar.flag = .valid trim.fadeOut

theorem TrimSettings.exists_isReadFrom {value : Json} {trim : TrimSettings}
    (htrim : check value = .valid trim) :
    ∃ members, value = .object members ∧ IsReadFrom members trim := by
  cases value with
  | object members =>
      obtain ⟨_, _, hparts, -, rfl⟩ := seq_eq_valid htrim
      obtain ⟨_, _, htoFadeIn, hfadeOut, rfl⟩ := seq_eq_valid hparts
      obtain ⟨_, _, htoStop, hfadeIn, rfl⟩ := seq_eq_valid htoFadeIn
      obtain ⟨_, _, htoStart, hstop, rfl⟩ := seq_eq_valid htoStop
      obtain ⟨_, hstart, rfl⟩ := map_eq_valid htoStart
      exact ⟨members, rfl, hstart, hstop, hfadeIn, hfadeOut⟩
  | _ => cases htrim

/-- The parts of the settings of a recording are those that the members of a record give. -/
structure AudioSettings.IsReadFrom (members : Members) (audio : AudioSettings) : Prop where
  format : members.optional "output_format" passThroughFormat checkFormat = .valid audio.format
  level : members.optional "normalization_level" .none (Scalar.orNull Scalar.number) =
    .valid audio.level
  sampleRate : members.optional "sample_rate" .none checkRate = .valid audio.sampleRate
  bitRate : members.optional "bit_rate" .none checkRate = .valid audio.bitRate

theorem AudioSettings.exists_isReadFrom {value : Json} {audio : AudioSettings}
    (haudio : check value = .valid audio) :
    ∃ members, value = .object members ∧ IsReadFrom members audio := by
  cases value with
  | object members =>
      obtain ⟨_, _, hparts, -, rfl⟩ := seq_eq_valid haudio
      obtain ⟨_, _, htoSample, hbit, rfl⟩ := seq_eq_valid hparts
      obtain ⟨_, _, htoLevel, hsample, rfl⟩ := seq_eq_valid htoSample
      obtain ⟨_, _, htoFormat, hlevel, rfl⟩ := seq_eq_valid htoLevel
      obtain ⟨_, hformat, rfl⟩ := map_eq_valid htoFormat
      exact ⟨members, rfl, hformat, hlevel, hsample, hbit⟩
  | _ => cases haudio

/-! ## What is known of the parts -/

/-- Every pattern of a profile has passed its check. -/
theorem ShowProfile.exists_check_of_mem_patterns {members : Members} {patterns : List FilePattern}
    (hpatterns : members.optional "file_patterns" [] (Scalar.list FilePattern.check) =
      .valid patterns) {fp : FilePattern} (hfp : fp ∈ patterns) :
    ∃ item, FilePattern.check item = .valid fp := by
  rcases Members.optional_eq_valid hpatterns with hnone | ⟨value, hitems⟩
  · rw [hnone] at hfp
    cases hfp
  · cases value with
    | list items =>
        obtain ⟨item, -, hitem⟩ := (Checked.mem_items hitems).2 fp hfp
        exact ⟨item, hitem⟩
    | _ => cases hitems

/-- In a profile that passed its checks every pattern is the accepted form of its own text. -/
theorem ShowProfile.isCompiled_of_check {value : Json} {profile : ShowProfile}
    (hprofile : check value = .valid profile) : profile.IsCompiled := by
  obtain ⟨members, -, hread⟩ := exists_isReadFrom hprofile
  intro fp hfp
  obtain ⟨item, hitem⟩ := exists_check_of_mem_patterns hread.patterns hfp
  exact FilePattern.isCompiled_of_check hitem

theorem AudioSettings.format_ne_empty_of_check {value : Json} {audio : AudioSettings}
    (haudio : check value = .valid audio) : audio.format ≠ "" := by
  obtain ⟨members, -, hread⟩ := exists_isReadFrom haudio
  rcases Members.optional_eq_valid hread.format with hformat | ⟨text, htext⟩
  · rw [hformat]
    decide
  · obtain ⟨written, -, hwritten⟩ := andThen_eq_valid htext
    split at hwritten
    · cases hwritten
    · rename_i hne
      rwa [← Checked.valid.inj hwritten]

/-- In a profile that passed its checks the format is not empty. -/
theorem ShowProfile.format_ne_empty_of_check {value : Json} {profile : ShowProfile}
    (hprofile : check value = .valid profile) : profile.audio.format ≠ "" := by
  obtain ⟨members, -, hread⟩ := exists_isReadFrom hprofile
  rcases Members.optional_eq_valid hread.audio with haudio | ⟨value, haudio⟩
  · rw [haudio]
    decide
  · exact AudioSettings.format_ne_empty_of_check haudio

end BroadcastIntake
