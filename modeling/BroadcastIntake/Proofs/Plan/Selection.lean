import BroadcastIntake.Collection
import BroadcastIntake.Pattern.Check
import BroadcastIntake.Proofs.Extraction.Confidence
import BroadcastIntake.Proofs.Profile

/-!
# What is selected is extracted

A pattern selects a file name when it matches the name or its stem.  Reading fields from a path has
a fallback of its own: it reads the stem when the name does not match and has a suffix.
`ShowProfile.selection_agrees` says that the two agree for patterns without errors, and what this
means for plans and for the files that are collected.

Both fallbacks come to the same because a name without a suffix is its own stem.  And what matches
is always extracted, because a pattern without errors has a character (`Extraction.exists_ofPath`).
-/

namespace BroadcastIntake

namespace Pattern

/-- A text without errors has a character. -/
theorem ne_empty_of_isValid {source : String} (hvalid : (checkPattern source).isValid = true) :
    source ≠ "" := by
  rintro rfl
  exact absurd hvalid (by decide)

end Pattern

namespace Extraction

variable {source : String} {p : Pattern}

/-- A short year is read as a number. -/
theorem lookup_fieldsOf_shortYear (entries : List (Token × List Char)) :
    ∀ {fields : Fields}, (∀ s, fields.lookup Placeholder.shortYear.key ≠ some (.text s)) →
      ∀ s, (fieldsOf fields entries).lookup Placeholder.shortYear.key ≠ some (.text s) := by
  induction entries with
  | nil => exact fun hfields => hfields
  | cons entry rest ih =>
      intro fields hfields
      obtain ⟨_ | ⟨_, q⟩, word⟩ := entry
      · exact ih hfields
      · apply ih
        intro s hlookup
        rw [Json.lookup_put] at hlookup
        split at hlookup
        · rename_i hkey
          obtain rfl := Placeholder.key_injective hkey
          cases hlookup
        · exact hfields s hlookup

theorem lookup_shortYear_of_ofName {name : String} {e : Extraction}
    (hread : ofName p name = .ok e) (s : String) :
    e.fields.lookup Placeholder.shortYear.key ≠ some (.text s) := by
  rcases ofName_cases hread with rfl | ⟨segments, -, -, rfl⟩
  · intro hlookup
    cases hlookup
  · refine lookup_fieldsOf_shortYear _ (fun s hlookup => ?_) s
    cases hlookup

theorem lookup_shortYear_of_ofPath {path : Path} {e : Extraction}
    (hread : ofPath p path = .ok e) (s : String) :
    e.fields.lookup Placeholder.shortYear.key ≠ some (.text s) := by
  obtain ⟨whole, hwhole, hread⟩ := Outcome.bind_eq_ok_iff.1 hread
  split at hread
  · exact lookup_shortYear_of_ofName hread s
  · obtain rfl := Outcome.pure_eq_ok_iff.1 hread
    exact lookup_shortYear_of_ofName hwhole s

/-- What is read from a path has no year that is a text, so looking for its date does not fail. -/
theorem exists_date? {path : Path} {e : Extraction} (hread : ofPath p path = .ok e) :
    ∃ date, e.date?.value = .ok date := by
  have hyear : ∃ year, yearOf? e.fields = .ok year := by
    unfold yearOf?
    split
    · exact ⟨_, rfl⟩
    · split
      · exact ⟨_, rfl⟩
      · exact ⟨_, rfl⟩
      · rename_i s hs
        exact absurd hs (lookup_shortYear_of_ofPath hread s)
  obtain ⟨year, hyear⟩ := hyear
  unfold date?
  rw [hyear]
  split
  · exact ⟨none, rfl⟩
  · rcases year with _ | year
    · exact ⟨none, rfl⟩
    · dsimp only
      split
      · rename_i month day _ _
        rcases dateOf? year month day with _ | date
        · exact ⟨none, rfl⟩
        · exact ⟨some date, rfl⟩
      · exact ⟨none, rfl⟩

end Extraction

/-! ## Selecting -/

namespace Pattern

/-- A pattern selects a name when it matches the name or the stem of its path. -/
theorem selects_iff (p : Pattern) {path : Path} (hname : Path.IsName path.name) :
    p.selects path.name = true ↔ p.isMatch path.name = true ∨ p.isMatch path.stem = true := by
  have hstem : (Path.ofString path.name).stem = path.stem := by
    rw [Path.ofString_of_isName hname]
    rfl
  unfold selects
  rw [hstem, Bool.or_eq_true]

theorem value_select (p : Pattern) (name : String) : (p.select name).value = p.selects name := by
  unfold select
  split
  · rename_i hselects
    exact hselects.symm
  · rename_i hselects
    exact (Bool.eq_false_iff.2 hselects).symm

theorem value_selectSource {source : String} {p : Pattern} (hp : compile source = .ok p)
    (name : String) : (selectSource name source).value = p.selects name := by
  unfold selectSource
  rw [hp]
  exact p.value_select name

end Pattern

theorem FilePattern.value_find? (name : String) (patterns : List FilePattern) :
    (find? name none patterns).value = patterns.find? fun fp => fp.pattern.selects name := by
  induction patterns with
  | nil => rfl
  | cons fp rest ih =>
      unfold find?
      rw [List.find?_cons]
      simp only [Option.all_none, if_true, Logged.value_bind, Pattern.value_select]
      cases fp.pattern.selects name with
      | true => rfl
      | false => exact ih

/-! ## Plans -/

/-- The patterns of the show are accepted forms of texts without errors. -/
structure ShowProfile.HasValidPatterns (profile : ShowProfile) : Prop where
  compiled : profile.IsCompiled
  valid : ∀ fp ∈ profile.patterns, (checkPattern fp.pattern.source).isValid = true

namespace Plan

variable {profile : ShowProfile}

theorem value_patternFor (source : Path) (profile : ShowProfile) :
    (patternFor source profile).value =
      (profile.patterns.find? fun fp => fp.pattern.selects source.name).or
        profile.patterns.head? := by
  unfold patternFor
  simp only [Logged.value_bind, FilePattern.value_find?]
  rfl

theorem mem_of_patternFor {source : Path} {fp : FilePattern}
    (hfp : (patternFor source profile).value = some fp) : fp ∈ profile.patterns := by
  rw [value_patternFor] at hfp
  rcases hfind : profile.patterns.find? fun fp => fp.pattern.selects source.name with _ | found
  · rw [hfind, Option.none_or] at hfp
    exact List.mem_of_head? hfp
  · rw [hfind, Option.some_or] at hfp
    obtain rfl := Option.some.inj hfp
    exact List.mem_of_find?_eq_some hfind

theorem exists_patternFor (hsome : profile.patterns ≠ []) (source : Path) :
    ∃ fp, (patternFor source profile).value = some fp := by
  rw [value_patternFor]
  obtain ⟨first, rest, hpatterns⟩ := List.exists_cons_of_ne_nil hsome
  rw [hpatterns]
  rcases hfind : (first :: rest).find? fun fp => fp.pattern.selects source.name with _ | found
  · exact ⟨first, by rw [hfind]; rfl⟩
  · exact ⟨found, by rw [hfind]; rfl⟩

/-- The pattern of a file selects its name when any pattern of the show does. -/
theorem selects_of_patternFor {source : Path} {fp : FilePattern}
    (hfp : (patternFor source profile).value = some fp) :
    fp.pattern.selects source.name = true ↔
      ∃ fp ∈ profile.patterns, fp.pattern.selects source.name = true := by
  constructor
  · exact fun hselects => ⟨fp, mem_of_patternFor hfp, hselects⟩
  · rintro ⟨other, hother, hselects⟩
    rw [value_patternFor] at hfp
    rcases hfind : profile.patterns.find? fun fp => fp.pattern.selects source.name with _ | found
    · exact absurd hselects (List.find?_eq_none.1 hfind other hother)
    · rw [hfind, Option.some_or] at hfp
      obtain rfl := Option.some.inj hfp
      have hfound := List.find?_some hfind
      exact hfound

/-- A file with a name is planned by the first pattern that selects it, or else by the first of the
show, and its name is read exactly when there is a pattern that selects it. -/
theorem exists_ofFile (hvalid : profile.HasValidPatterns) (hsome : profile.patterns ≠ [])
    {source : Path} (hname : Path.IsName source.name) (settings : Settings) (asked : Option Path)
    (today : BroadcastDate) :
    ∃ plan e, (ofFile source profile settings asked today).value = .ok plan ∧
      plan.extraction = some e ∧
      plan.pattern = (profile.patterns.find? fun fp => fp.pattern.selects source.name).or
        profile.patterns.head? ∧
      (e.success = true ↔ ∃ fp ∈ profile.patterns, fp.pattern.selects source.name = true) := by
  obtain ⟨fp, hfp⟩ := exists_patternFor hsome source
  have hmem := mem_of_patternFor hfp
  have hsource := Pattern.ne_empty_of_isValid (hvalid.valid fp hmem)
  obtain ⟨e, he, hread⟩ :=
    Extraction.exists_ofPath (hvalid.compiled fp hmem) hsource hname.ne_empty
  rw [← fp.pattern.selects_iff hname, selects_of_patternFor hfp] at hread
  obtain ⟨date, hdate⟩ := Extraction.exists_date? he
  refine ⟨ofReading source profile settings asked today (some fp) (some e) date, e, ?_, rfl, ?_,
    hread⟩
  · rw [← hfp]
    exact ofFile_eq_ok_iff.2 ⟨some e, by simp only [hfp, extractionBy, he], date,
      value_dateIn hdate, rfl⟩
  · rw [← value_patternFor, hfp]
    rfl

end Plan

/-! ## Collected files -/

namespace FileTree

/-- All names in the tree are names. -/
def HasProperNames (tree : FileTree) : Prop :=
  ∀ entry ∈ tree.entries, ∀ name ∈ entry.1, Path.IsName name

theorem below?_eq_some {here there : Location} {names : List String}
    (hbelow : below? here there = some names) : there = here ++ names := by
  induction here generalizing there with
  | nil => exact Option.some.inj hbelow
  | cons a as ih =>
      cases there with
      | nil => cases hbelow
      | cons b bs =>
          rw [below?] at hbelow
          split at hbelow
          · rename_i hab
            rw [hab, ih hbelow, List.cons_append]
          · cases hbelow

theorem of_mem_filesUnder {tree : FileTree} {here : Location} {names : List String}
    {content : ByteArray} (hmem : (names, content) ∈ tree.filesUnder here) :
    (here ++ names, Entry.file content) ∈ tree.entries := by
  obtain ⟨⟨there, entry⟩, hentry, hunder⟩ := List.mem_filterMap.1 hmem
  cases entry with
  | directory => cases hunder
  | file content' =>
      dsimp only at hunder
      rcases hbelow : below? here there with _ | names'
      · rw [hbelow] at hunder
        cases hunder
      · rw [hbelow] at hunder
        dsimp only at hunder
        split at hunder
        · cases hunder
        · obtain ⟨rfl, rfl⟩ := Prod.mk.inj (Option.some.inj hunder)
          rwa [below?_eq_some hbelow] at hentry

/-- The files below a directory have its names and names of the tree. -/
theorem isProper_of_mem_filesBelow {tree : FileTree} (htree : tree.HasProperNames)
    {directory : Path} (hdirectory : directory.IsProper) {file : Path}
    (hfile : file ∈ tree.filesBelow directory) : file.IsProper := by
  unfold filesBelow at hfile
  split at hfile
  · obtain ⟨⟨names, content⟩, hnames, rfl⟩ := List.mem_map.1 hfile
    refine ⟨hdirectory.slashes, fun name hname => ?_⟩
    rcases List.mem_append.1 hname with hname | hname
    · exact hdirectory.names name hname
    · exact htree _ (of_mem_filesUnder hnames) name (List.mem_append_right _ hname)
  · cases hfile

end FileTree

namespace Settings

variable {settings : Settings}

theorem head?_of_mem_extensions {extension : String} (hmem : extension ∈ settings.extensions) :
    extension.toList.head? = some '.' := by
  obtain ⟨piece, -, hpiece⟩ := List.mem_filterMap.1 hmem
  dsimp only at hpiece
  split at hpiece
  · cases hpiece
  · split at hpiece
    · rename_i hdot
      obtain rfl := Option.some.inj hpiece
      exact hdot
    · obtain rfl := Option.some.inj hpiece
      rw [String.toList_append]
      rfl

/-- A suffix that is taken is not empty. -/
theorem suffix_ne_empty {path : Path}
    (htaken : settings.extensions.contains (Text.lower path.suffix) = true) :
    path.suffix ≠ "" := by
  intro hsuffix
  rw [hsuffix] at htaken
  have hdot := head?_of_mem_extensions (List.contains_iff_mem.1 htaken)
  exact absurd hdot (by decide +kernel)

end Settings

namespace Collection

variable {profile : ShowProfile} {settings : Settings}

theorem value_choose_cons (profile : ShowProfile) (settings : Settings) (file : Path)
    (rest : List Path) :
    (choose profile settings (file :: rest)).value =
      if (hasSuffix settings file && (takesName profile file).value) = true
      then file :: (choose profile settings rest).value
      else (choose profile settings rest).value := by
  rw [choose]
  cases hasSuffix settings file with
  | true => rfl
  | false => rfl

theorem of_takesName (hsome : profile.patterns ≠ []) {file : Path}
    (htakes : (takesName profile file).value = true) :
    ∃ fp ∈ profile.patterns, fp.pattern.selects file.name = true := by
  unfold takesName at htakes
  rw [if_neg (by simpa using hsome), Logged.value_bind, FilePattern.value_find?] at htakes
  split at htakes
  · rename_i fp hfind
    have hselected := List.find?_some hfind
    exact ⟨fp, List.mem_of_find?_eq_some hfind, hselected⟩
  · cases htakes

/-- What a show takes has a suffix that is taken and a name that a pattern selects. -/
theorem of_mem_choose (hsome : profile.patterns ≠ []) {file : Path} :
    ∀ {files : List Path}, file ∈ (choose profile settings files).value →
      file ∈ files ∧ hasSuffix settings file = true ∧
        ∃ fp ∈ profile.patterns, fp.pattern.selects file.name = true := by
  intro files
  induction files with
  | nil => exact nofun
  | cons first rest ih =>
      intro hfile
      rw [value_choose_cons] at hfile
      split at hfile
      · rename_i htakes
        rcases List.mem_cons.1 hfile with rfl | hfile
        · obtain ⟨hsuffix, hname⟩ := Bool.and_eq_true_iff.1 htakes
          exact ⟨List.mem_cons_self, hsuffix, of_takesName hsome hname⟩
        · obtain ⟨hmem, hothers⟩ := ih hfile
          exact ⟨List.mem_cons_of_mem first hmem, hothers⟩
      · obtain ⟨hmem, hothers⟩ := ih hfile
        exact ⟨List.mem_cons_of_mem first hmem, hothers⟩

/-- What is collected has a name, and a pattern of the show selects it. -/
theorem of_mem_collect (hsome : profile.patterns ≠ []) {root : Path} (hroot : root.IsProper)
    {tree : FileTree} (htree : tree.HasProperNames) {files : List Path}
    (hfiles : (collect profile settings root tree).value = .ok files) {file : Path}
    (hfile : file ∈ files) :
    Path.IsName file.name ∧ ∃ fp ∈ profile.patterns, fp.pattern.selects file.name = true := by
  unfold collect at hfiles
  split at hfiles
  · cases hfiles
  · rename_i candidates hcandidates
    obtain rfl := Except.ok.inj hfiles
    have hchosen : file ∈ (choose profile settings candidates).value :=
      (List.mergeSort_perm _ _).mem_iff.1 hfile
    obtain ⟨hmem, hsuffix, hselected⟩ := of_mem_choose hsome hchosen
    refine ⟨?_, hselected⟩
    have hproper : file.IsProper := by
      unfold Collection.candidates at hcandidates
      rcases hisFile : tree.isFile root with e | isFile
      · rw [hisFile] at hcandidates
        cases hcandidates
      · rw [hisFile] at hcandidates
        obtain rfl := Except.ok.inj hcandidates
        dsimp only at hmem
        split at hmem
        · rwa [List.mem_singleton.1 hmem]
        · exact FileTree.isProper_of_mem_filesBelow htree hroot hmem
    exact hproper.isName_name (Path.name_ne_empty (Settings.suffix_ne_empty hsuffix))

end Collection

/-! ## Agreement -/

/-- **Selection and extraction agree.**  Let the patterns of a show be without errors.  A pattern
selects a name exactly when its fields are read from the path of that name.  So a file is planned
by the first pattern that selects it, or else by the first of the show, and its name is read
exactly when a pattern selects it; and every file that is collected is planned with a name that was
read. -/
theorem ShowProfile.selection_agrees {profile : ShowProfile} (hvalid : profile.HasValidPatterns) :
    (∀ fp ∈ profile.patterns, ∀ name, Path.IsName name → ∃ p e,
      Pattern.compile fp.pattern.source = .ok p ∧
      Extraction.ofPath p (Path.ofString name) = .ok e ∧
      ((Pattern.selectSource name fp.pattern.source).value = true ↔ e.success = true)) ∧
    (profile.patterns ≠ [] →
      (∀ (source : Path) (settings : Settings) (asked : Option Path) (today : BroadcastDate),
        Path.IsName source.name → ∃ plan e,
          (Plan.ofFile source profile settings asked today).value = .ok plan ∧
          plan.extraction = some e ∧
          (e.success = true ↔ ∃ fp ∈ profile.patterns,
            (Pattern.selectSource source.name fp.pattern.source).value = true) ∧
          plan.pattern = (profile.patterns.find? fun fp =>
            (Pattern.selectSource source.name fp.pattern.source).value).or
              profile.patterns.head?) ∧
      (∀ (settings : Settings) (root : Path) (tree : FileTree) (files : List Path),
        root.IsProper → tree.HasProperNames →
        (Collection.collect profile settings root tree).value = .ok files →
        ∀ file ∈ files, ∀ (asked : Option Path) (today : BroadcastDate), ∃ plan e,
          (Plan.ofFile file profile settings asked today).value = .ok plan ∧
          plan.extraction = some e ∧ e.success = true)) := by
  have hselects : ∀ (name : String), ∀ fp ∈ profile.patterns,
      (Pattern.selectSource name fp.pattern.source).value = fp.pattern.selects name :=
    fun name fp hfp => Pattern.value_selectSource (hvalid.compiled fp hfp) name
  refine ⟨?_, fun hsome => ⟨?_, ?_⟩⟩
  · intro fp hfp name hname
    have hpath : (Path.ofString name).name = name := by
      rw [Path.ofString_of_isName hname]
      rfl
    have hsource := Pattern.ne_empty_of_isValid (hvalid.valid fp hfp)
    have hisName : Path.IsName (Path.ofString name).name := by rwa [hpath]
    obtain ⟨e, he, hread⟩ :=
      Extraction.exists_ofPath (hvalid.compiled fp hfp) hsource hisName.ne_empty
    refine ⟨fp.pattern, e, hvalid.compiled fp hfp, he, ?_⟩
    have hiff := fp.pattern.selects_iff hisName
    rw [hselects name fp hfp, hread, ← hiff, hpath]
  · intro source settings asked today hname
    obtain ⟨plan, e, hplan, hextraction, hpattern, hread⟩ :=
      Plan.exists_ofFile hvalid hsome hname settings asked today
    refine ⟨plan, e, hplan, hextraction, ?_, ?_⟩
    · rw [hread]
      constructor
      · rintro ⟨fp, hfp, hselected⟩
        exact ⟨fp, hfp, (hselects source.name fp hfp).trans hselected⟩
      · rintro ⟨fp, hfp, hselected⟩
        exact ⟨fp, hfp, (hselects source.name fp hfp).symm.trans hselected⟩
    · rw [hpattern]
      congr 1
      exact List.find?_congr fun fp hfp => (hselects source.name fp hfp).symm
  · intro settings root tree files hroot htree hfiles file hfile asked today
    obtain ⟨hname, hselected⟩ := Collection.of_mem_collect hsome hroot htree hfiles hfile
    obtain ⟨plan, e, hplan, hextraction, -, hread⟩ :=
      Plan.exists_ofFile hvalid hsome hname settings asked today
    exact ⟨plan, e, hplan, hextraction, hread.2 hselected⟩

/-- A show of news, which have their year in the name, and of talks. -/
def ShowProfile.newsAndTalks : ShowProfile :=
  { ShowProfile.named "Show" with
    patterns :=
      [⟨⟨"News_{YYYY}", [.literal "News_".toList, .field "{YYYY}".toList .year]⟩, .watch, none⟩,
        ⟨⟨"Talk_{ANY}", [.literal "Talk_".toList, .field "{ANY}".toList .any]⟩, .ftp, none⟩] }

theorem ShowProfile.hasValidPatterns_newsAndTalks : newsAndTalks.HasValidPatterns where
  compiled := by
    simp only [IsCompiled, newsAndTalks, List.forall_mem_cons]
    exact ⟨Outcome.eq_ok_of_toOption (by decide +kernel),
      Outcome.eq_ok_of_toOption (by decide +kernel), nofun⟩
  valid := by decide +kernel

/-- A talk is collected, and planned with what its stem says. -/
theorem ShowProfile.newsAndTalks_agrees :
    let talk : Path := ⟨0, ["Talk_7.wav"]⟩
    let tree : FileTree := ⟨[], [(["Talk_7.wav"], .file ⟨#[1]⟩)]⟩
    (Collection.collect newsAndTalks .standard talk tree).value = .ok [talk] ∧
      ∃ plan e, (Plan.ofFile talk newsAndTalks .standard none
          ⟨2024, 5, 1, by decide, by decide⟩).value = .ok plan ∧
        plan.extraction = some e ∧ e.success = true := by
  intro talk tree
  have hcollect : (Collection.collect newsAndTalks .standard talk tree).value = .ok [talk] :=
    Outcome.eq_ok_of_toOption (by decide +kernel)
  have hname : Path.IsName "Talk_7.wav" := ⟨by decide, by decide, by decide⟩
  refine ⟨hcollect, ?_⟩
  refine ((selection_agrees hasValidPatterns_newsAndTalks).2 (by decide)).2 .standard talk tree
    [talk] ⟨by decide, ?_⟩ ?_ hcollect talk List.mem_cons_self none _
  · exact List.forall_mem_singleton.2 hname
  · exact List.forall_mem_singleton.2 (List.forall_mem_singleton.2 hname)

end BroadcastIntake
