import BroadcastIntake.Proofs.OutputName
import BroadcastIntake.Proofs.Plan.Selection
import BroadcastIntake.Proofs.Profile

/-!
# Where the output of a plan goes

The output of a plan is to stay in the directory of its show: its name is to be one name of a path,
with something before its extension (`OutputName.IsComponent`), and the output that name in the
directory (`Plan.StaysBelow`).

The name is put together from a safe text, which is never empty and has no slash
(`OutputName.forSource_eq`), and an extension.  A file that passes through keeps its suffix in small
letters, and lowering a text adds no slash to it.  For any other file the extension is the format of
the show as it is written.  A profile that passed its checks has a format, but nothing keeps a slash
out of it, so the output stays in the directory exactly when the format has no slash
(`Plan.staysBelow_iff`).
-/

namespace BroadcastIntake

namespace Plan

variable {source : Path} {profile : ShowProfile} {settings : Settings} {asked : Option Path}
  {today : BroadcastDate}

/-- The extension that the output of a plan is given. -/
def extension (profile : ShowProfile) (plan : Plan) : String :=
  if plan.needsProcessing then "." ++ profile.audio.format else Text.lower plan.source.suffix

/-- The name that the output of a plan is given. -/
def fileName (profile : ShowProfile) (today : BroadcastDate) (plan : Plan) : String :=
  outputName plan.source profile plan.date plan.needsProcessing today

/-- The output of a plan is one name in the directory of the show. -/
structure StaysBelow (profile : ShowProfile) (settings : Settings) (asked : Option Path)
    (today : BroadcastDate) (plan : Plan) : Prop where
  component : OutputName.IsComponent (plan.extension profile) (plan.fileName profile today)
  name : plan.output.name = plan.fileName profile today
  parent : plan.output.parent = outputDirectory profile settings asked

theorem exists_ofReading {plan : Plan}
    (hplan : (ofFile source profile settings asked today).value = .ok plan) :
    ∃ pattern extraction date,
      plan = ofReading source profile settings asked today pattern extraction date := by
  obtain ⟨extraction, -, date, -, hplan⟩ := ofFile_eq_ok_iff.1 hplan
  exact ⟨_, extraction, date, hplan.symm⟩

/-- The name of a file of a show without patterns is not read. -/
theorem ofFile_of_no_patterns (hpatterns : profile.patterns = []) :
    (ofFile source profile settings asked today).value =
      .ok (ofReading source profile settings asked today none none none) := by
  have hpattern : (patternFor source profile).value = none := by
    rw [value_patternFor, hpatterns]
    rfl
  rw [value_ofFile, hpattern]
  rfl

theorem output_ofReading (pattern : Option FilePattern) (extraction : Option Extraction)
    (date : Option BroadcastDate) :
    (ofReading source profile settings asked today pattern extraction date).output =
      (outputDirectory profile settings asked).join (Path.ofString (outputName source profile date
        (ProcessingOptions.ofShow profile date today).needsProcessing today)) := by
  simp only [ofReading]

theorem fileName_ofReading (pattern : Option FilePattern) (extraction : Option Extraction)
    (date : Option BroadcastDate) :
    (ofReading source profile settings asked today pattern extraction date).fileName profile today =
      outputName source profile date
        (ProcessingOptions.ofShow profile date today).needsProcessing today := by
  simp only [fileName, ofReading]

theorem extension_ofReading (pattern : Option FilePattern) (extraction : Option Extraction)
    (date : Option BroadcastDate) :
    (ofReading source profile settings asked today pattern extraction date).extension profile =
      if (ProcessingOptions.ofShow profile date today).needsProcessing
      then "." ++ profile.audio.format else Text.lower source.suffix := by
  have hneeds : (ofReading source profile settings asked today pattern extraction
      date).needsProcessing = (ProcessingOptions.ofShow profile date today).needsProcessing := by
    simp only [ofReading]
  have hsource : (ofReading source profile settings asked today pattern extraction date).source =
      source := by
    simp only [ofReading]
  rw [extension, hneeds, hsource]

/-- The output of a file with an extension that is taken has a name. -/
theorem name_output_ne_empty {plan : Plan} (hsource : source.IsProper)
    (hextension : settings.extensions.contains (Text.lower source.suffix) = true)
    (hplan : (ofFile source profile settings asked today).value = .ok plan) :
    plan.output.name ≠ "" := by
  obtain ⟨pattern, extraction, date, rfl⟩ := exists_ofReading hplan
  have hstem := hsource.stem_ofString_name_ne_empty (Settings.suffix_ne_empty hextension)
  rw [output_ofReading]
  generalize (ProcessingOptions.ofShow profile date today).needsProcessing = needs
  have hnames : (Path.ofString (outputName source profile date needs today)).names ≠ [] := by
    refine OutputName.names_forSource_ne_nil hstem profile date ?_ today
    intro extension hmem
    split at hmem
    · cases hmem
    · rw [← Option.some.inj hmem]
      exact Settings.head?_of_mem_extensions (List.contains_iff_mem.1 hextension)
  exact Path.name_join_ne_empty (Path.isProper_ofString _) hnames

/-! ## Staying in the directory -/

/-- A file that passes through has a format without a slash. -/
theorem slash_notMem_format {date : Option BroadcastDate}
    (hpass : (ProcessingOptions.ofShow profile date today).needsProcessing = false) :
    '/' ∉ profile.audio.format.toList := by
  have hformat : profile.audio.format = AudioSettings.passThroughFormat := by
    simp only [ProcessingOptions.needsProcessing, Bool.or_eq_false_iff] at hpass
    exact not_not.1 (of_decide_eq_false hpass.1.1.1.2)
  rw [hformat]
  decide

/-- The name of an output is a safe text with the extension, which has a slash exactly when the
format has one. -/
theorem exists_fileName (hformat : profile.audio.format ≠ "") (hsource : source.IsProper)
    (hsuffix : source.suffix ≠ "") (pattern : Option FilePattern) (extraction : Option Extraction)
    (date : Option BroadcastDate) :
    let plan := ofReading source profile settings asked today pattern extraction date
    ∃ stem, stem ≠ "" ∧ '/' ∉ stem.toList ∧
      plan.fileName profile today = stem ++ plan.extension profile ∧
      2 ≤ (plan.extension profile).toList.length ∧
      ('/' ∉ (plan.extension profile).toList ↔ '/' ∉ profile.audio.format.toList) := by
  intro plan
  have hstem := hsource.stem_ofString_name_ne_empty hsuffix
  simp only [plan, fileName_ofReading, extension_ofReading, outputName]
  split
  · -- the format stands behind a dot
    obtain ⟨stem, hne, hslash, hname⟩ := OutputName.forSource_eq hstem profile date none today
    have hpos : 0 < profile.audio.format.toList.length :=
      List.length_pos_iff.2 fun hnil => hformat (String.toList_eq_nil_iff.1 hnil)
    refine ⟨stem, fun h => hne (by rw [h]; rfl), hslash, hname, ?_, by simp⟩
    rw [String.toList_append, List.length_append]
    exact Nat.add_le_add (Nat.le_refl 1) hpos
  · -- the suffix has no slash, and gets none in small letters
    rename_i hpass
    obtain ⟨stem, hne, hslash, hname⟩ := OutputName.forSource_eq hstem profile date
      (some (Text.lower source.suffix)) today
    refine ⟨stem, fun h => hne (by rw [h]; rfl), hslash, hname, ?_, iff_of_true ?_ ?_⟩
    · rw [Text.lower, String.toList_ofList]
      exact (Path.two_le_length_suffix hsuffix).trans (Text.length_le_lowerAfter _ [])
    · rw [Text.lower, String.toList_ofList]
      exact mt (Text.mem_of_mem_lowerChars (by decide)) (hsource.slash_notMem_suffix hsuffix)
    · exact slash_notMem_format (Bool.eq_false_iff.2 hpass)

/-- The output of a plan is in the directory of the show when its name is one name. -/
theorem staysBelow_of_isComponent {pattern : Option FilePattern} {extraction : Option Extraction}
    {date : Option BroadcastDate} :
    let plan := ofReading source profile settings asked today pattern extraction date
    OutputName.IsComponent (plan.extension profile) (plan.fileName profile today) →
      plan.StaysBelow profile settings asked today := by
  intro plan hcomponent
  have houtput : plan.output = (outputDirectory profile settings asked).join
      ⟨0, [plan.fileName profile today]⟩ := by
    rw [← Path.ofString_of_isName hcomponent.toIsName]
    simp only [plan, output_ofReading, fileName_ofReading]
  refine ⟨hcomponent, ?_, ?_⟩ <;> rw [houtput] <;>
    simp [Path.join, Path.isAbsolute, Path.name, Path.parent]

theorem staysBelow_ofReading_iff (hformat : profile.audio.format ≠ "") (hsource : source.IsProper)
    (hsuffix : source.suffix ≠ "") (pattern : Option FilePattern) (extraction : Option Extraction)
    (date : Option BroadcastDate) :
    (ofReading source profile settings asked today pattern extraction date).StaysBelow profile
        settings asked today ↔
      '/' ∉ profile.audio.format.toList := by
  obtain ⟨stem, hstem, hslash, hname, hlong, hiff⟩ :=
    @exists_fileName source profile settings asked today hformat hsource hsuffix pattern
      extraction date
  have hcomponent := OutputName.isComponent_iff hstem hslash hlong
  rw [← hname, hiff] at hcomponent
  exact ⟨fun h => hcomponent.1 h.component, fun h => staysBelow_of_isComponent (hcomponent.2 h)⟩

/-- **Outputs stay in their directory.**  Let a profile have passed its checks, and a file have a
suffix that is taken.  Whatever is read from its name, the output that is planned for it is one name
in the directory of the show exactly when the format of the show has no slash. -/
theorem staysBelow_iff {value : Json} (hprofile : ShowProfile.check value = .valid profile)
    (hsource : source.IsProper)
    (hextension : settings.extensions.contains (Text.lower source.suffix) = true)
    (asked : Option Path) (today : BroadcastDate) :
    (∀ pattern extraction date,
      (ofReading source profile settings asked today pattern extraction date).StaysBelow profile
          settings asked today ↔
        '/' ∉ profile.audio.format.toList) ∧
      ∀ plan, (ofFile source profile settings asked today).value = .ok plan →
        (plan.StaysBelow profile settings asked today ↔ '/' ∉ profile.audio.format.toList) := by
  have hiff := @staysBelow_ofReading_iff source profile settings asked today
    (ShowProfile.format_ne_empty_of_check hprofile) hsource (Settings.suffix_ne_empty hextension)
  refine ⟨hiff, fun plan hplan => ?_⟩
  obtain ⟨pattern, extraction, date, rfl⟩ := exists_ofReading hplan
  exact hiff pattern extraction date

/-- A slash in the name of a show does not lead out of the directory. -/
theorem newsTalk_staysBelow :
    ShowProfile.check (.object [("name", .str "News/Talk")]) = .valid (.named "News/Talk") ∧
      ∃ plan, (ofFile ⟨0, ["in", "a.WAV"]⟩ (.named "News/Talk") .standard none
          ⟨2024, 5, 1, by decide, by decide⟩).value = .ok plan ∧
        plan.StaysBelow (.named "News/Talk") .standard none ⟨2024, 5, 1, by decide, by decide⟩ ∧
        plan.output = ⟨0, ["Output", "News_Talk.wav"]⟩ := by
  have hprofile : ShowProfile.check (.object [("name", .str "News/Talk")]) =
      .valid (.named "News/Talk") := rfl
  have hproper : Path.IsProper ⟨0, ["in", "a.WAV"]⟩ :=
    ⟨by decide, List.forall_mem_cons.2 ⟨⟨by decide, by decide, by decide⟩,
      List.forall_mem_singleton.2 ⟨by decide, by decide, by decide⟩⟩⟩
  have hplan := @ofFile_of_no_patterns ⟨0, ["in", "a.WAV"]⟩ (.named "News/Talk") .standard none
    ⟨2024, 5, 1, by decide, by decide⟩ rfl
  refine ⟨hprofile, _, hplan, ?_, by decide +kernel⟩
  exact ((staysBelow_iff hprofile hproper (by decide +kernel) none _).2 _ hplan).2 (by decide)

/-- A format is not a safe text: with slashes and names of the directory above in it, the output
leaves the directory of the show. -/
theorem not_staysBelow :
    ¬ ∀ (value : Json) (profile : ShowProfile), ShowProfile.check value = .valid profile →
      ∀ (source : Path) (settings : Settings) (asked : Option Path) (today : BroadcastDate),
        source.IsProper → settings.extensions.contains (Text.lower source.suffix) = true →
        ∀ plan, (ofFile source profile settings asked today).value = .ok plan →
          plan.StaysBelow profile settings asked today := by
  intro hall
  have hprofile : ShowProfile.check (.object [("name", .str "Show"),
      ("audio_settings", .object [("output_format", .str "x/../../evil")])]) =
      .valid { ShowProfile.named "Show" with
        audio := { AudioSettings.none with format := "x/../../evil" } } :=
    Checked.eq_valid_of_toOption (by decide +kernel)
  have hproper : Path.IsProper ⟨0, ["a.wav"]⟩ :=
    ⟨by decide, List.forall_mem_singleton.2 ⟨by decide, by decide, by decide⟩⟩
  have hstays := hall _ _ hprofile ⟨0, ["a.wav"]⟩ .standard none
    ⟨2024, 5, 1, by decide, by decide⟩ hproper (by decide +kernel) _ (ofFile_of_no_patterns rfl)
  have hparent := hstays.parent
  revert hparent
  decide +kernel

end Plan

end BroadcastIntake
