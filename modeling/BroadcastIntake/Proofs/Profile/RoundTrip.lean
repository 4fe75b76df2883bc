import BroadcastIntake.Proofs.Members
import BroadcastIntake.Proofs.Path
import BroadcastIntake.Proofs.ProfileFile

/-!
# Profiles that are checked again

A profile can be written as the record of its parts and checked again.  All that its checks have
accepted is accepted once more, and comes out as it was, with one exception: the format, which its
check may change again (`ShowProfile.check_withFormat_iff`).

What a part has to fulfil for this is known of the parts of a profile that passed
(`ShowProfile.IsSound`), but for its paths: these are kept as rows of names, and their texts are
read as the same rows because they were read from texts before
(`ShowProfile.hasProperPaths_of_check`).
-/

namespace BroadcastIntake

namespace Checked

variable {α β : Type}

@[simp] theorem valid_seq (f : α → β) (a : α) :
    (Checked.valid f <*> Checked.valid a) = Checked.valid (f a) :=
  rfl

@[simp] theorem map_valid (f : α → β) (a : α) : f <$> Checked.valid a = Checked.valid (f a) :=
  rfl

@[simp] theorem under_valid (step : Step) (a : α) : (Checked.valid a).under step = .valid a :=
  rfl

/-- Items that pass as given values pass as the list of these values. -/
theorem items_map {check : Json → Checked α} {toJson : α → Json} {values : List α}
    (hvalues : ∀ value ∈ values, check (toJson value) = .valid value) :
    ∀ n, items check n (values.map toJson) = .valid values := by
  induction values with
  | nil => exact fun _ => rfl
  | cons value rest ih =>
      intro n
      obtain ⟨hvalue, hrest⟩ := List.forall_mem_cons.1 hvalues
      rw [List.map_cons, items, hvalue, ih hrest]
      rfl

end Checked

/-- A value that may be absent passes as it is when the value that is there does. -/
theorem Scalar.orNull_ofOption {α : Type} {check : Json → Checked α} {toJson : α → Json}
    {value? : Option α} (hnull : ∀ value, toJson value ≠ .null)
    (hvalue : ∀ value ∈ value?, check (toJson value) = .valid value) :
    orNull check (.ofOption toJson value?) = .valid value? := by
  cases value? with
  | none => rfl
  | some value =>
      have hcheck := hvalue value rfl
      have hjson := hnull value
      rw [Json.ofOption]
      unfold orNull
      split
      · rename_i hisNull
        exact absurd hisNull hjson
      · rw [hcheck]
        rfl

/-! ## The parts -/

namespace FilePattern

theorem check_toJson {fp : FilePattern} (hcompiled : fp.IsCompiled)
    (hproper : ∀ path ∈ fp.watchPath, path.IsProper) : check fp.toJson = .valid fp := by
  have hpattern : checkPatternText (.str fp.pattern.source) = .valid fp.pattern := by
    have hsource := hcompiled
    unfold IsCompiled at hsource
    simp only [checkPatternText, Scalar.text, Checked.andThen, hsource]
  have hkind : checkKind (.str fp.kind.name) = .valid fp.kind := by
    cases fp.kind <;> rfl
  have hpath : Scalar.orNull Scalar.path (.ofOption (fun path => .str path.toString) fp.watchPath) =
      .valid fp.watchPath := by
    refine Scalar.orNull_ofOption nofun fun path hpath => ?_
    rw [Scalar.path, Path.ofString_toString (hproper path hpath)]
  simp [check, toJson, checkRecord, Members.required, Members.optional, Members.noOthers,
    lookup_cons_ite, hpattern, hkind, hpath]

end FilePattern

theorem TrimSettings.check_toJson {trim : TrimSettings} (hstart : .zero ≤ trim.start)
    (hstop : .zero ≤ trim.stop) : check trim.toJson = .valid trim := by
  have hpoint : ∀ point : Binary64, .zero ≤ point →
      Scalar.numberAtLeast .zero (.float point) = .valid point := by
    intro point hpoint
    exact if_pos hpoint
  simp [check, toJson, checkRecord, Members.optional, Members.noOthers, lookup_cons_ite,
    hpoint _ hstart, hpoint _ hstop, Scalar.flag]

namespace AudioSettings

theorem checkRate_ofOption {rate? : Option Int} (hpos : ∀ rate ∈ rate?, 0 < rate) :
    checkRate (.ofOption .int rate?) = .valid rate? := by
  have hread : Scalar.orNull Scalar.whole (.ofOption .int rate?) = .valid rate? :=
    Scalar.orNull_ofOption nofun fun rate _ => rfl
  have hall : rate?.all (fun rate => decide (0 < rate)) = true := by
    cases rate? with
    | none => rfl
    | some rate => simpa using hpos rate rfl
  rw [checkRate, hread]
  exact if_pos hall

/-- The settings with another format. -/
def withFormat (audio : AudioSettings) (format : String) : AudioSettings :=
  { audio with format }

/-- Settings whose format is spelled in some way pass as the settings with the format that this
spelling is stored as. -/
theorem check_withFormat_iff {audio : AudioSettings} (hsample : ∀ rate ∈ audio.sampleRate, 0 < rate)
    (hbit : ∀ rate ∈ audio.bitRate, 0 < rate) (text : String) :
    check (audio.withFormat text).toJson = .valid audio ↔
      checkFormat (.str text) = .valid audio.format := by
  constructor
  · intro hagain
    obtain ⟨members, hmembers, hread⟩ := exists_isReadFrom hagain
    obtain rfl := Json.object.inj hmembers
    exact Members.check_of_optional hread.format rfl
  · intro hformat
    have hlevel : Scalar.orNull Scalar.number (.ofOption .float audio.level) =
        .valid audio.level := Scalar.orNull_ofOption nofun fun level _ => rfl
    simp [check, withFormat, toJson, checkRecord, Members.optional, Members.noOthers,
      lookup_cons_ite, hformat, hlevel, checkRate_ofOption hsample, checkRate_ofOption hbit]

end AudioSettings

theorem TagTemplates.check_toJson (tags : TagTemplates) : check tags.toJson = .valid tags := by
  simp [check, toJson, fields, Json.ofTextMembers, checkRecord, Members.optional,
    Members.noOthers, lookup_cons_ite, Scalar.text]

theorem NamingRules.check_toJson (naming : NamingRules) : check naming.toJson = .valid naming := by
  have hpattern : Scalar.orNull Scalar.text (.ofOption .str naming.outputPattern) =
      .valid naming.outputPattern := Scalar.orNull_ofOption nofun fun pattern _ => rfl
  simp [check, toJson, checkRecord, Members.optional, Members.noOthers, hpattern]

/-! ## Paths -/

/-- A path that was read from a text is proper. -/
theorem Scalar.isProper_of_orNull_path {value : Json} {path? : Option Path}
    (hpath : orNull path value = .valid path?) : ∀ path ∈ path?, path.IsProper := by
  cases value with
  | str s =>
      obtain rfl := Checked.valid.inj hpath
      rintro path ⟨⟩
      exact Path.isProper_ofString s
  | null =>
      obtain rfl := Checked.valid.inj hpath
      exact nofun
  | _ => cases hpath

theorem Members.isProper_of_optional_path {members : Members} {key : String}
    {path? : Option Path}
    (hpath : members.optional key none (Scalar.orNull Scalar.path) = .valid path?) :
    ∀ path ∈ path?, path.IsProper := by
  rcases Members.optional_eq_valid hpath with rfl | ⟨value, hvalue⟩
  · exact nofun
  · exact Scalar.isProper_of_orNull_path hvalue

theorem FilePattern.isProper_of_check {value : Json} {fp : FilePattern}
    (hfp : check value = .valid fp) : ∀ path ∈ fp.watchPath, path.IsProper := by
  obtain ⟨members, -, hread⟩ := exists_isReadFrom hfp
  exact Members.isProper_of_optional_path hread.watchPath

namespace ShowProfile

/-- The paths of the profile are rows of names. -/
structure HasProperPaths (profile : ShowProfile) : Prop where
  output : ∀ path ∈ profile.outputDirectory, path.IsProper
  watch : ∀ fp ∈ profile.patterns, ∀ path ∈ fp.watchPath, path.IsProper

theorem hasProperPaths_of_check {value : Json} {profile : ShowProfile}
    (hprofile : check value = .valid profile) : profile.HasProperPaths := by
  obtain ⟨members, -, hread⟩ := exists_isReadFrom hprofile
  refine ⟨Members.isProper_of_optional_path hread.outputDirectory, fun fp hfp => ?_⟩
  obtain ⟨item, hitem⟩ := exists_check_of_mem_patterns hread.patterns hfp
  exact FilePattern.isProper_of_check hitem

/-! ## The profile -/

/-- The profile with another format. -/
def withFormat (profile : ShowProfile) (format : String) : ShowProfile :=
  { profile with audio := profile.audio.withFormat format }

/-- A profile that passed, with its format spelled in some way, passes again as it is when this
spelling is stored as the same format. -/
theorem check_withFormat_iff {value : Json} {profile : ShowProfile}
    (hprofile : check value = .valid profile) (text : String) :
    check (profile.withFormat text).toJson = .valid profile ↔
      AudioSettings.checkFormat (.str text) = .valid profile.audio.format := by
  have hsound := isSound_of_check hprofile
  have hpaths := hasProperPaths_of_check hprofile
  rw [← AudioSettings.check_withFormat_iff hsound.sampleRate hsound.bitRate]
  constructor
  · intro hagain
    obtain ⟨members, hmembers, hread⟩ := exists_isReadFrom hagain
    obtain rfl := Json.object.inj hmembers
    exact Members.check_of_optional hread.audio rfl
  · intro haudio
    have hname : checkName (.str profile.name) = .valid profile.name :=
      if_neg (by simp [hsound.name])
    have hid : Scalar.orNull Scalar.text (.ofOption .str profile.id) = .valid profile.id :=
      Scalar.orNull_ofOption nofun fun id _ => rfl
    have hpatterns : Scalar.list FilePattern.check
        (.list (profile.patterns.map FilePattern.toJson)) = .valid profile.patterns :=
      Checked.items_map (fun fp hfp =>
        FilePattern.check_toJson (hsound.patterns fp hfp) (hpaths.watch fp hfp)) 0
    have houtput : Scalar.orNull Scalar.path
        (.ofOption (fun path => .str path.toString) profile.outputDirectory) =
          .valid profile.outputDirectory := by
      refine Scalar.orNull_ofOption nofun fun path hpath => ?_
      rw [Scalar.path, Path.ofString_toString (hpaths.output path hpath)]
    have htrim := TrimSettings.check_toJson hsound.start hsound.stop
    simp [check, withFormat, toJson, checkRecord, Members.required, Members.optional,
      Members.noOthers, lookup_cons_ite, hname, hid, hpatterns, houtput, htrim, haudio, Scalar.flag,
      TagTemplates.check_toJson, NamingRules.check_toJson]

end ShowProfile

end BroadcastIntake
