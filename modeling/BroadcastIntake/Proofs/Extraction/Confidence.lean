import BroadcastIntake.Proofs.Path
import BroadcastIntake.Proofs.Pattern.Filling

/-!
# What a reader of names can rely on

A name is read without a failure, and what is read says truly how much of the name was matched:
nothing when the pattern does not match, and otherwise some share of the name, which is all of it
unless the name ends in a line end (`Extraction.IsSoundFor`).

What matches is always read, because a pattern with a character matches at least one of the name
(`Pattern.matched_pos`), and all but a line end at most (`Pattern.Cut.length_le`); that is half of
the name or more, so the confidence is not zero (`Extraction.confidenceOf_pos`).  The empty pattern
has no character.  It matches a line end and nothing of it, and a success without any confidence is
refused.  This is the one failure there is (`Pattern.MatchesNothing`): for names
(`Extraction.exists_ofName_iff`), for paths (`Extraction.exists_ofPath_iff`), and for the names that
a pattern is tried on.
-/

namespace BroadcastIntake

namespace Pattern

/-! ## How much of a name is matched -/

/-- A cut leaves one character at most. -/
theorem Cut.length_le {ignoreCase : Bool} {tokens : List Token} {cs : List Char}
    {segments : List (List Char)} (hcut : Cut ignoreCase tokens cs segments) :
    cs.length ≤ segments.flatten.length + 1 := by
  induction hcut with
  | done => exact Nat.zero_le _
  | newline => exact Nat.le_refl 1
  | token _ _ ih =>
      rw [List.flatten_cons, List.length_append, List.length_append]
      omega

/-- A pattern with a character matches at least one character. -/
theorem matched_pos {source : String} {p : Pattern} (hp : compile source = .ok p)
    (hsource : source ≠ "") {name : String} {segments : List (List Char)}
    (hmatch : p.match? name = some segments) : 0 < segments.flatten.length := by
  rw [List.length_pos_iff]
  intro hnil
  have hchars := flatMap_chars_of_tokenize (tokenize_of_compile hp)
  rw [(cut_of_segments? hmatch).flatMap_chars_eq_nil hnil] at hchars
  exact hsource (String.toList_eq_nil_iff.1 hchars.symm)

end Pattern

namespace Extraction

/-- A match that leaves one character at most has some confidence. -/
theorem confidenceOf_pos {matched total : Nat} (hmatched : 0 < matched) (hle : matched ≤ total)
    (htotal : total ≤ matched + 1) : 0 < confidenceOf matched total := by
  have hround := (two_mul_divideToNearest_mul_near (100 * matched) total (by omega)).2
  unfold confidenceOf
  rcases Nat.eq_zero_or_pos (divideToNearest (100 * matched) total) with hzero | hpos
  · rw [hzero] at hround
    omega
  · exact hpos

theorem validate_of_pos (fields : Fields) {confidence : Nat} (hconfidence : 0 < confidence) :
    validate ⟨true, fields, confidence⟩ = .ok ⟨true, fields, confidence⟩ := by
  have hne : confidence ≠ 0 := Nat.ne_of_gt hconfidence
  simp [validate, brokenRule?, hne]

variable {source : String} {p : Pattern}

/-- A name is read exactly when it is not empty and the pattern matches it. -/
theorem exists_ofName (hp : Pattern.compile source = .ok p) (hsource : source ≠ "")
    (name : String) :
    ∃ e, ofName p name = .ok e ∧ (e.success = true ↔ name ≠ "" ∧ p.isMatch name = true) := by
  unfold ofName Pattern.isMatch
  rcases hmatch : p.match? name with _ | segments
  · exact ⟨failed, rfl, by simp [failed]⟩
  · by_cases hname : name = ""
    · subst hname
      exact ⟨failed, rfl, by simp [failed]⟩
    · have hcut := Pattern.cut_of_segments? hmatch
      have hlow := hcut.length_flatten_le
      have hhigh := hcut.length_le
      rw [String.length_toList] at hlow hhigh
      have hconfidence := confidenceOf_pos (Pattern.matched_pos hp hsource hmatch) hlow hhigh
      have hempty : ¬ name.isEmpty = true := by simpa using hname
      exact ⟨_, (if_neg hempty).trans (validate_of_pos _ hconfidence), by simp [hname]⟩

/-- The fields of a path are read exactly when the pattern matches its name or its stem. -/
theorem exists_ofPath (hp : Pattern.compile source = .ok p) (hsource : source ≠ "") {path : Path}
    (hname : path.name ≠ "") :
    ∃ e, ofPath p path = .ok e ∧
      (e.success = true ↔ p.isMatch path.name = true ∨ p.isMatch path.stem = true) := by
  obtain ⟨whole, hwhole, hread⟩ := exists_ofName hp hsource path.name
  obtain ⟨part, hpart, hstem⟩ := exists_ofName hp hsource path.stem
  unfold ofPath
  simp only [hwhole, bind, Except.bind, pure, Except.pure]
  by_cases hsuffix : path.suffix = ""
  · -- the stem is the name, so there is nothing else to read
    rw [Path.stem_of_suffix_eq_empty hsuffix, if_neg (by simp [hsuffix])]
    exact ⟨whole, rfl, by simp [hread, hname]⟩
  · by_cases hsuccess : whole.success = true
    · rw [if_neg (by simp [hsuccess])]
      exact ⟨whole, rfl, by simp [hsuccess, (hread.1 hsuccess).2]⟩
    · have hno : p.isMatch path.name = false := by
        rw [← Bool.not_eq_true]
        exact fun hmatch => hsuccess (hread.2 ⟨hname, hmatch⟩)
      rw [if_pos (by simp [hsuccess, hsuffix])]
      exact ⟨part, hpart, by simp [hstem, hno, Path.stem_ne_empty hsuffix]⟩

end Extraction

/-! ## The one failure -/

/-- The pattern is empty and the name is a line end, of which it matches nothing. -/
def Pattern.MatchesNothing (source name : String) : Prop :=
  source = "" ∧ name = "\n"

/-- The pattern matches nothing of the name of the path, or of the stem that is read in its
place. -/
def Pattern.MatchesNothingOf (source : String) (path : Path) : Prop :=
  MatchesNothing source path.name ∨ path.suffix ≠ "" ∧ MatchesNothing source path.stem

namespace Extraction

variable {source : String} {p : Pattern} {path : Path} {whole e : Extraction}

/-- The empty pattern reads nothing but a line end, and that without any confidence. -/
theorem ofName_empty (name : String) :
    if name = "\n" then ∃ issues, ofName ⟨"", []⟩ name = .error issues
    else ofName ⟨"", []⟩ name = .ok failed := by
  split
  · rename_i hname
    subst hname
    exact ⟨_, rfl⟩
  · rename_i hname
    have hnewline : name.toList ≠ ['\n'] := fun h => hname (String.toList_inj.1 h)
    unfold ofName Pattern.match? Pattern.segments?
    split
    · rfl
    · rename_i segments hsegments
      split at hsegments
      · rename_i hend
        have hempty : name = "" := by simpa [hnewline] using hend
        rw [if_pos (by simp [hempty])]
      · cases hsegments

/-- Whatever the empty pattern reads has failed. -/
theorem source_ne_empty_of_success (hp : Pattern.compile source = .ok p) {name : String}
    (hread : ofName p name = .ok e) (hsuccess : e.success = true) : source ≠ "" := by
  rintro rfl
  obtain rfl : (⟨"", []⟩ : Pattern) = p := Except.ok.inj hp
  have hempty := ofName_empty name
  split at hempty
  · obtain ⟨issues, hissues⟩ := hempty
    rw [hread] at hissues
    cases hissues
  · rw [hread] at hempty
    rw [Except.ok.inj hempty] at hsuccess
    cases hsuccess

/-- A name is read unless the pattern matches nothing of it. -/
theorem exists_ofName_iff (hp : Pattern.compile source = .ok p) (name : String) :
    (∃ e, ofName p name = .ok e) ↔ ¬ Pattern.MatchesNothing source name := by
  by_cases hsource : source = ""
  · subst hsource
    obtain rfl : (⟨"", []⟩ : Pattern) = p := Except.ok.inj hp
    have hread := ofName_empty name
    split at hread
    · rename_i hname
      obtain ⟨issues, hissues⟩ := hread
      rw [hissues]
      refine iff_of_false ?_ (not_not.2 ⟨rfl, hname⟩)
      rintro ⟨_, ⟨⟩⟩
    · rename_i hname
      exact iff_of_true ⟨failed, hread⟩ fun h => hname h.2
  · obtain ⟨e, he, -⟩ := exists_ofName hp hsource name
    exact iff_of_true ⟨e, he⟩ fun h => hsource h.1

/-- The stem of a path is read in place of a name that does not match. -/
theorem ofPath_of_ofName (hwhole : ofName p path.name = .ok whole) :
    ofPath p path =
      if !whole.success && path.suffix ≠ "" then ofName p path.stem else .ok whole := by
  simp only [ofPath, hwhole, bind, Except.bind]
  rfl

/-- A path is read unless the pattern matches nothing of what is looked at. -/
theorem exists_ofPath_iff (hp : Pattern.compile source = .ok p) (path : Path) :
    (∃ e, ofPath p path = .ok e) ↔ ¬ Pattern.MatchesNothingOf source path := by
  have hname := exists_ofName_iff hp path.name
  rcases hwhole : ofName p path.name with issues | whole
  · -- the name itself is not read
    rw [hwhole] at hname
    have hnothing : Pattern.MatchesNothing source path.name := by
      by_contra hsome
      obtain ⟨_, ⟨⟩⟩ := hname.2 hsome
    refine iff_of_false ?_ (not_not.2 (.inl hnothing))
    simp [ofPath, hwhole, bind, Except.bind]
  · have hsome := hname.1 ⟨whole, hwhole⟩
    rw [ofPath_of_ofName hwhole]
    split
    · rename_i hstem
      simp only [Bool.and_eq_true, decide_eq_true_eq] at hstem
      simp only [exists_ofName_iff hp path.stem, Pattern.MatchesNothingOf, hsome, hstem.2,
        false_or, ne_eq, not_false_eq_true, true_and]
    · rename_i hdone
      refine iff_of_true ⟨whole, rfl⟩ ?_
      rintro (hnothing | ⟨hsuffix, hsource, -⟩)
      · exact hsome hnothing
      · -- a name that is not read again has matched, which the empty pattern never does
        have hsuccess : whole.success = true := by simpa [hsuffix] using hdone
        exact source_ne_empty_of_success hp hwhole hsuccess hsource

/-- Only by an empty pattern is a path with a suffix not read, and only when its stem is a line
end. -/
theorem ofPath_eq_error_iff (hp : Pattern.compile source = .ok p) (hsuffix : path.suffix ≠ "") :
    (∃ issues, ofPath p path = .error issues) ↔ source = "" ∧ path.stem = "\n" := by
  have hname : path.name ≠ "\n" := by
    intro h
    apply hsuffix
    rw [Path.suffix, h]
    decide
  have hiff := exists_ofPath_iff hp path
  simp only [Pattern.MatchesNothingOf, Pattern.MatchesNothing, hname, and_false, false_or,
    hsuffix, ne_eq, not_false_eq_true, true_and] at hiff
  rw [← not_iff_not, ← hiff]
  rcases ofPath p path with issues | e <;> simp

/-! ## Sound extractions -/

/-- The extraction tells truly how much of the name was matched: nothing at all, or some share of
it, which is all of it unless the name ends in a line end. -/
structure IsSoundFor (e : Extraction) (name : String) : Prop where
  failure : e.success = false → e.fields = [] ∧ e.confidence = 0
  share : e.success = true → 1 ≤ e.confidence ∧ e.confidence ≤ 100
  whole : e.success = true → name.toList.getLast? ≠ some '\n' → e.confidence = 100

theorem isSoundFor_of_ofName (hp : Pattern.compile source = .ok p) {name : String}
    (hread : ofName p name = .ok e) : e.IsSoundFor name := by
  have hhigh := (ofName_inRange hread).confidence.2
  have hempty := fun hsuccess => source_ne_empty_of_success hp hread hsuccess
  rcases ofName_cases hread with rfl | ⟨segments, hmatch, -, rfl⟩
  · exact ⟨fun _ => ⟨rfl, rfl⟩, nofun, nofun⟩
  · have hmatched := Pattern.matched_pos hp (hempty rfl) hmatch
    have hcut := Pattern.cut_of_segments? hmatch
    have hlow := hcut.length_flatten_le
    have hall := hcut.length_le
    rw [String.length_toList] at hlow hall
    have hpos := confidenceOf_pos hmatched hlow hall
    refine ⟨nofun, fun _ => ⟨by dsimp only; omega, hhigh⟩, fun _ hlast => ?_⟩
    rcases (Pattern.match?_spelledBy hmatch).whole with hwhole | hwhole
    · rw [← hwhole, String.length_toList, confidenceOf_self]
      · rfl
      · rw [← String.length_toList, hwhole]
        exact hmatched
    · rw [hwhole, List.getLast?_concat] at hlast
      exact absurd rfl hlast

/-- What is read from a path is sound for its name, or for the stem that was read in its place. -/
theorem isSoundFor_of_ofPath (hp : Pattern.compile source = .ok p)
    (hread : ofPath p path = .ok e) :
    e.IsSoundFor path.name ∨ path.suffix ≠ "" ∧ e.IsSoundFor path.stem := by
  obtain ⟨whole, hwhole, -⟩ := Outcome.bind_eq_ok_iff.1 hread
  rw [ofPath_of_ofName hwhole] at hread
  split at hread
  · rename_i hstem
    simp only [Bool.and_eq_true, decide_eq_true_eq] at hstem
    exact .inr ⟨hstem.2, isSoundFor_of_ofName hp hread⟩
  · obtain rfl := Except.ok.inj hread
    exact .inl (isSoundFor_of_ofName hp hwhole)

/-! ## Trying a pattern on names -/

/-- The row of a trial is for the name, and holds what is soundly read from it. -/
structure Trial.IsSoundFor (t : Trial) (name : String) : Prop where
  filename : t.filename = name
  errors : t.errors = []
  extraction : t.extraction.IsSoundFor (Path.ofString name).name ∨
    (Path.ofString name).suffix ≠ "" ∧ t.extraction.IsSoundFor (Path.ofString name).stem

theorem tryPattern_of_compile (hp : Pattern.compile source = .ok p) (filenames : List String) :
    tryPattern source filenames = filenames.mapM fun name =>
      (ofPath p (Path.ofString name)).map fun e => ⟨name, e, []⟩ := by
  unfold tryPattern
  rw [hp]
  rfl

theorem map_ofPath_eq_ok_iff {name : String} {t : Trial} :
    ((ofPath p path).map fun e => (⟨name, e, []⟩ : Trial)) = .ok t ↔
      ∃ e, ofPath p path = .ok e ∧ ⟨name, e, []⟩ = t := by
  rcases ofPath p path with issues | e <;> simp [Except.map]

/-- A pattern that is tried gives a sound row for each name, unless it matches nothing of one. -/
theorem exists_tryPattern_iff (hp : Pattern.compile source = .ok p) (filenames : List String) :
    (∃ trials, tryPattern source filenames = .ok trials ∧
        List.Forall₂ (fun name t => Trial.IsSoundFor t name) filenames trials) ↔
      ∀ name ∈ filenames, ¬ Pattern.MatchesNothingOf source (Path.ofString name) := by
  have hrows : (∃ trials, tryPattern source filenames = .ok trials) ↔
      ∀ name ∈ filenames, ¬ Pattern.MatchesNothingOf source (Path.ofString name) := by
    rw [tryPattern_of_compile hp, Outcome.exists_mapM_iff]
    refine forall₂_congr fun name _ => ?_
    rw [← exists_ofPath_iff hp]
    simp only [map_ofPath_eq_ok_iff]
    exact ⟨fun ⟨_, e, he, _⟩ => ⟨e, he⟩, fun ⟨e, he⟩ => ⟨_, e, he, rfl⟩⟩
  rw [← hrows]
  refine ⟨fun ⟨trials, htrials, _⟩ => ⟨trials, htrials⟩, fun ⟨trials, htrials⟩ =>
    ⟨trials, htrials, ?_⟩⟩
  rw [tryPattern_of_compile hp, Outcome.mapM_eq_ok_iff] at htrials
  refine htrials.imp fun name t ht => ?_
  obtain ⟨e, he, rfl⟩ := map_ofPath_eq_ok_iff.1 ht
  exact ⟨rfl, rfl, isSoundFor_of_ofPath hp he⟩

/-- **Sound readings.**  By an accepted pattern a name is read, and what is read is sound, unless
the pattern matches nothing of it: it is empty and the name is a line end.  The same holds of paths
and of the names that a pattern is tried on.  Every word that is found has a value. -/
theorem reads_soundly_iff (hp : Pattern.compile source = .ok p) :
    (∀ name, (∃ e, ofName p name = .ok e ∧ e.IsSoundFor name) ↔
        ¬ Pattern.MatchesNothing source name) ∧
      (∀ path, (∃ e, ofPath p path = .ok e ∧
          (e.IsSoundFor path.name ∨ path.suffix ≠ "" ∧ e.IsSoundFor path.stem)) ↔
        ¬ Pattern.MatchesNothingOf source path) ∧
      (∀ filenames, (∃ trials, tryPattern source filenames = .ok trials ∧
          List.Forall₂ (fun name t => Trial.IsSoundFor t name) filenames trials) ↔
        ∀ name ∈ filenames, ¬ Pattern.MatchesNothingOf source (Path.ofString name)) ∧
      ∀ name segments, p.match? name = some segments → ∀ entry ∈ p.tokens.zip segments,
        ∀ q, entry.1.placeholder? = some q →
          ∃ v, normalizeField q.key (String.ofList entry.2) = .ok v := by
  refine ⟨fun name => ?_, fun path => ?_, exists_tryPattern_iff hp, ?_⟩
  · rw [← exists_ofName_iff hp]
    exact exists_congr fun e => and_iff_left_of_imp (isSoundFor_of_ofName hp)
  · rw [← exists_ofPath_iff hp]
    exact exists_congr fun e => and_iff_left_of_imp (isSoundFor_of_ofPath hp)
  · rintro name segments hmatch ⟨_ | ⟨body, p'⟩, word⟩ hentry q hq
    · cases hq
    · obtain rfl := Option.some.inj hq
      have hword := (Pattern.cut_of_segments? hmatch).fits_of_mem_zip _ hentry
      exact ⟨_, normalizeField_word hword⟩

/-- A month and a line end: half of the name is matched. -/
theorem monthLine_reads_soundly :
    ∃ e, ofName ⟨"{MM}", [.field "{MM}".toList .month]⟩ "7\n" = .ok e ∧
      e.IsSoundFor "7\n" ∧ e = ⟨true, [("MM", .number 7)], 50⟩ := by
  have hcompile : Pattern.compile "{MM}" = .ok ⟨"{MM}", [.field "{MM}".toList .month]⟩ :=
    Outcome.eq_ok_of_toOption (by decide +kernel)
  have hread : ofName ⟨"{MM}", [.field "{MM}".toList .month]⟩ "7\n" =
      .ok ⟨true, [("MM", .number 7)], 50⟩ := Outcome.eq_ok_of_toOption (by decide +kernel)
  obtain ⟨e, he, hsound⟩ := ((reads_soundly_iff hcompile).1 "7\n").2 fun h => by
    exact absurd h.1 (by decide)
  refine ⟨e, he, hsound, ?_⟩
  rw [hread] at he
  exact (Except.ok.inj he).symm

/-- Not every name is read by an accepted pattern: the empty pattern fails on a line end. -/
theorem not_reads_soundly :
    ¬ ∀ source p, Pattern.compile source = .ok p →
      ∀ name, ∃ e, ofName p name = .ok e ∧ e.IsSoundFor name := by
  intro hall
  obtain ⟨e, he, -⟩ := hall "" ⟨"", []⟩ rfl "\n"
  obtain ⟨issues, hissues⟩ := ofName_empty "\n"
  rw [hissues] at he
  cases he

end Extraction

end BroadcastIntake
