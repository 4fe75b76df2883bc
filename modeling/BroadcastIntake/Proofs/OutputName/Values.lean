import BroadcastIntake.Proofs.OutputName
import BroadcastIntake.Proofs.Template.Values

/-!
# Values in tags and output names

The name of a show and the name of a source are put into templates.  They come out as they are, but
for what trimming and making a name safe do to every text, exactly when no brace group comes about
by putting them in (`OutputName.takes_values_literally_iff`).  Braces alone do no harm: an opening
brace has to meet a closing one.

Making a text safe replaces characters, but braces are safe and no row of characters between two
braces becomes empty.  So a group is still one afterwards (`OutputName.hasGroup_sanitize_iff`), and
the names can be told apart by it.
-/

namespace BroadcastIntake

namespace OutputName

open Template (HasGroup Closes hasGroup_cons_iff)

variable {c u : Char} {cs : List Char}

/-! ## Safe texts and brace groups -/

theorem mem_collapse_iff (hc : c ≠ '_') (cs : List Char) : c ∈ collapse cs ↔ c ∈ cs := by
  fun_induction collapse cs with
  | case1 => rfl
  | case2 => rfl
  | case3 rest ih => simpa [hc] using ih
  | case4 d rest _ _ ih => rw [List.mem_cons, List.mem_cons, ih]

theorem head?_collapse (cs : List Char) : (collapse cs).head? = cs.head? := by
  fun_induction collapse cs with
  | case3 rest ih => exact ih
  | _ => rfl

theorem closes_collapse_iff : Closes (collapse cs) ↔ Closes cs := by
  rw [Closes, Closes, mem_collapse_iff (by decide), head?_collapse]

theorem hasGroup_collapse_iff (cs : List Char) : HasGroup (collapse cs) ↔ HasGroup cs := by
  fun_induction collapse cs with
  | case1 => rfl
  | case2 => rfl
  | case3 rest ih =>
      have hplain : ¬ '_' = '{' := by decide
      rw [ih, @hasGroup_cons_iff ('_' :: rest) '_', or_iff_right fun h => hplain h.1]
  | case4 d rest _ _ ih => rw [hasGroup_cons_iff, hasGroup_cons_iff, ih, closes_collapse_iff]

/-- A safe character other than an underscore is what stands for itself only. -/
theorem safeChar_eq_iff (hu : safeChar u = u) (hne : u ≠ '_') : safeChar c = u ↔ c = u := by
  refine ⟨fun hc => ?_, fun hc => hc ▸ hu⟩
  unfold safeChar at hc
  split at hc
  · exact absurd hc.symm hne
  · exact hc

theorem safeChar_eq_brace_iff : (safeChar c = '{' ↔ c = '{') ∧ (safeChar c = '}' ↔ c = '}') :=
  ⟨safeChar_eq_iff (by decide) (by decide), safeChar_eq_iff (by decide) (by decide)⟩

theorem closes_map_safeChar_iff : Closes (cs.map safeChar) ↔ Closes cs := by
  have hmem : '}' ∈ cs.map safeChar ↔ '}' ∈ cs := by
    simp [safeChar_eq_brace_iff.2]
  have hhead : (cs.map safeChar).head? = some '}' ↔ cs.head? = some '}' := by
    simp [safeChar_eq_brace_iff.2]
  rw [Closes, Closes, hmem, ne_eq, hhead]

theorem hasGroup_map_safeChar_iff : HasGroup (cs.map safeChar) ↔ HasGroup cs := by
  induction cs with
  | nil => rfl
  | cons c cs ih =>
      rw [List.map_cons, hasGroup_cons_iff, hasGroup_cons_iff, ih, closes_map_safeChar_iff,
        safeChar_eq_brace_iff.1]

/-- A safe text has a group exactly when the text itself has one. -/
theorem hasGroup_sanitize_iff (s : String) : HasGroup (sanitize s).toList ↔ HasGroup s.toList := by
  rw [sanitize, String.toList_ofList, sanitizeChars, hasGroup_collapse_iff,
    hasGroup_map_safeChar_iff]

end OutputName

/-! ## Values as they are -/

/-- The piece is a literal without braces, or a group that spells one of the keys in any letter
case. -/
inductive PatternPiece.IsFilledBy (keys : List String) : PatternPiece → Prop
  | literal {cs : List Char} (hopen : '{' ∉ cs) (hclose : '}' ∉ cs) : IsFilledBy keys (literal cs)
  | group {body : List Char} (key : String) (hkey : key ∈ keys)
      (hspells : Text.sameLetters key.toList body = true) : IsFilledBy keys (group body)

namespace Template

/-- The keys of a template. -/
def keys : List String := ["YYYY", "MM", "DD", "showName"]

theorem isKey_of_mem_keys : ∀ key ∈ "originalFilename" :: keys, IsKey key.toList := by
  have hkeys : ∀ key ∈ "originalFilename" :: keys,
      key.toList ≠ [] ∧ '{' ∉ key.toList ∧ '}' ∉ key.toList := by decide
  exact fun key hkey => ⟨(hkeys key hkey).1, (hkeys key hkey).2⟩

theorem hasPlainBody_of_isFilledBy {piece : PatternPiece} {keys : List String}
    (hkeys : ∀ key ∈ keys, IsKey key.toList) (hpiece : piece.IsFilledBy keys) :
    piece.HasPlainBody := by
  cases hpiece with
  | literal => trivial
  | group key hkey hspells => exact ((hkeys key hkey).of_sameLetters hspells).2

/-- The text that pieces make up. -/
def ofPieces (pieces : List PatternPiece) : String :=
  String.ofList (pieces.flatMap PatternPiece.chars)

/-- The text that pieces make up when all values are put in at once and taken as they are. -/
def withValues (values : List (String × String)) (pieces : List PatternPiece) : String :=
  String.ofList (pieces.flatMap (PatternPiece.valued values))

/-- A template takes its values as they are exactly when they leave no group. -/
theorem fill_ofPieces_eq_iff {pieces : List PatternPiece}
    (hpieces : ∀ piece ∈ pieces, piece.HasPlainBody) (showName : Option String)
    (date? : Option BroadcastDate) (today : BroadcastDate) :
    fill (ofPieces pieces) showName date? today =
        Text.trim (withValues (values (showName.getD "") (date?.getD today)) pieces) ↔
      ¬ HasGroup (withValues (values (showName.getD "") (date?.getD today)) pieces).toList := by
  rw [fill_eq, Text.trim, Text.trimBy, withValues, ofPieces, String.toList_ofList,
    String.toList_ofList, String.ofList_inj]
  exact trim_dropGroups_replaceAll_iff isKey_of_mem_values hpieces

end Template

namespace OutputName

open Template (HasGroup ofPieces withValues)

/-- What is put into the naming pattern of a show, in the order in which it is put in. -/
def values (sourceStem showName : String) (date : BroadcastDate) : List (String × String) :=
  ("originalFilename", sourceStem) :: Template.values showName date

variable {profile : ShowProfile} {pieces : List PatternPiece}

/-- The naming pattern of a show is filled like a template, with the name of the source first. -/
theorem stemFor_eq (hpattern : profile.naming.outputPattern = some (ofPieces pieces))
    (hne : ofPieces pieces ≠ "") (sourceStem : String) (date? : Option BroadcastDate)
    (today : BroadcastDate) :
    stemFor sourceStem profile date? today =
      sanitize (String.ofList (Text.Chars.trim Text.isBlank (Template.dropGroups
        (Template.replaceAll (values sourceStem profile.name (date?.getD today))
          (pieces.flatMap PatternPiece.chars))))) := by
  unfold stemFor
  rw [hpattern]
  split
  · rename_i hnone
    cases hnone
  · rename_i hempty
    exact absurd (Option.some.inj hempty) hne
  · rename_i pattern _ hsome
    obtain rfl := Option.some.inj hsome
    dsimp only
    rw [Template.fill_eq, ofPieces, String.toList_ofList, String.toList_ofList]
    rfl

/-- A naming pattern takes its values as they are exactly when they leave no group. -/
theorem stemFor_eq_iff (hpieces : ∀ piece ∈ pieces, piece.HasPlainBody)
    (hpattern : profile.naming.outputPattern = some (ofPieces pieces))
    (hne : ofPieces pieces ≠ "") (sourceStem : String) (date? : Option BroadcastDate)
    (today : BroadcastDate) :
    let named := withValues (values sourceStem profile.name (date?.getD today)) pieces
    stemFor sourceStem profile date? today = sanitize (Text.trim named) ↔
      ¬ HasGroup named.toList := by
  intro named
  have hkeys : ∀ entry ∈ values sourceStem profile.name (date?.getD today),
      Template.IsKey entry.1.toList := fun entry hentry =>
    Template.isKey_of_mem_keys entry.1 (List.mem_map_of_mem (f := Prod.fst) hentry)
  have hnamed : named.toList = pieces.flatMap (PatternPiece.valued _) := String.toList_ofList
  have htrim : Text.trim named = String.ofList (Text.Chars.trim Text.isBlank named.toList) := rfl
  rw [stemFor_eq hpattern hne, htrim, hnamed]
  constructor
  · intro hsame hgroup
    rw [← Template.hasGroup_trim_iff, ← String.toList_ofList (l := Text.Chars.trim _ _),
      ← hasGroup_sanitize_iff, ← hsame, hasGroup_sanitize_iff, String.toList_ofList,
      Template.hasGroup_trim_iff] at hgroup
    exact Template.not_hasGroup_dropGroups _ hgroup
  · intro hgroup
    rw [(Template.trim_dropGroups_replaceAll_iff hkeys hpieces).2 hgroup]

/-- Pieces that make up no text make up none with values. -/
theorem withValues_of_empty (hempty : ofPieces pieces = "") (entries : List (String × String)) :
    withValues entries pieces = "" := by
  have hnil : pieces.flatMap PatternPiece.chars = [] := by
    rw [← String.toList_ofList (l := pieces.flatMap PatternPiece.chars)]
    exact String.toList_eq_nil_iff.2 hempty
  have hvalued : pieces.flatMap (PatternPiece.valued entries) = [] := by
    refine List.flatMap_eq_nil_iff.2 fun piece hpiece => ?_
    have hchars := List.flatMap_eq_nil_iff.1 hnil piece hpiece
    cases piece with
    | literal cs => exact hchars
    | group body => cases hchars
  rw [withValues, hvalued]

/-- The name of the source steps in for a name of nothing but underscores, and is the wanted one. -/
def StandsIn (sourceStem : String) (profile : ShowProfile) (date? : Option BroadcastDate)
    (today : BroadcastDate) (wanted : String) : Prop :=
  (stemFor sourceStem profile date? today).toList.all (· = '_') = true ∧
    sanitize sourceStem = wanted

theorem forSource_eq_iff {source wanted : String} (hwanted : wanted.toList.all (· = '_') = false)
    (profile : ShowProfile) (date? : Option BroadcastDate) (extension? : Option String)
    (today : BroadcastDate) :
    forSource source profile date? extension? today =
        wanted ++ extension?.getD ("." ++ profile.audio.format) ↔
      stemFor (Path.ofString source).stem profile date? today = wanted ∨
        StandsIn (Path.ofString source).stem profile date? today wanted := by
  unfold forSource StandsIn
  dsimp only
  split
  · rename_i hblank
    rw [String.append_left_inj, or_iff_right, and_iff_right hblank]
    rintro rfl
    rw [hblank] at hwanted
    cases hwanted
  · rename_i hscores
    rw [String.append_left_inj, or_iff_left fun h => hscores h.1]

/-- **Values are taken as they are**, in tags and in names of outputs, exactly when no group comes
about by putting them in.  For an output this leaves out names of nothing but underscores; and when
groups have left nothing else of a name, the name of the source may happen to be the wanted one. -/
theorem takes_values_literally_iff (pieces : List PatternPiece) (date? : Option BroadcastDate)
    (today : BroadcastDate) :
    (∀ showName : Option String, (∀ piece ∈ pieces, piece.IsFilledBy Template.keys) →
      let filled := withValues (Template.values (showName.getD "") (date?.getD today)) pieces
      (Template.fill (ofPieces pieces) showName date? today = Text.trim filled ↔
        ¬ HasGroup filled.toList)) ∧
    ∀ (source : String) (profile : ShowProfile) (extension? : Option String),
      (∀ piece ∈ pieces, piece.IsFilledBy ("originalFilename" :: Template.keys)) →
      profile.naming.outputPattern = some (ofPieces pieces) →
      let stem := (Path.ofString source).stem
      let filled := withValues (values stem profile.name (date?.getD today)) pieces
      let wanted := sanitize (Text.trim filled)
      wanted.toList.all (· = '_') = false →
      (forSource source profile date? extension? today =
          wanted ++ extension?.getD ("." ++ profile.audio.format) ↔
        ¬ HasGroup filled.toList ∨ StandsIn stem profile date? today wanted) := by
  refine ⟨fun showName hpieces => ?_, ?_⟩
  · have hkeys : ∀ key ∈ Template.keys, Template.IsKey key.toList := fun key hkey =>
      Template.isKey_of_mem_keys key (List.mem_cons_of_mem _ hkey)
    exact Template.fill_ofPieces_eq_iff
      (fun piece hpiece => Template.hasPlainBody_of_isFilledBy hkeys (hpieces piece hpiece))
      showName date? today
  · intro source profile extension? hpieces hpattern stem filled wanted hwanted
    have hplain : ∀ piece ∈ pieces, piece.HasPlainBody := fun piece hpiece =>
      Template.hasPlainBody_of_isFilledBy Template.isKey_of_mem_keys (hpieces piece hpiece)
    have hne : ofPieces pieces ≠ "" := by
      intro hempty
      have hnothing : wanted = "" := by
        simp only [wanted, filled, withValues_of_empty hempty]
        decide
      rw [hnothing] at hwanted
      exact absurd hwanted (by decide)
    rw [forSource_eq_iff hwanted]
    exact or_congr_left (stemFor_eq_iff hplain hpattern hne stem date? today)

/-- The pieces of a naming pattern: the show, the source and the year. -/
def yearlyPieces : List PatternPiece :=
  [.group "showName".toList, .literal ['_'], .group "originalFilename".toList, .literal [' '],
    .group "yyyy".toList]

/-- A backslash and braces that do not meet are taken as they are. -/
theorem bracedNews_takes_values_literally :
    let profile :=
      { ShowProfile.named "\x7d News" with naming := ⟨some (ofPieces yearlyPieces)⟩ }
    let today : BroadcastDate := ⟨2024, 5, 1, by decide, by decide⟩
    (∀ piece ∈ yearlyPieces, piece.IsFilledBy ("originalFilename" :: Template.keys)) ∧
      forSource "in/take \x7b1 \\2.wav" profile none none today =
        "\x7d_News_take_\x7b1_2_2024.wav" ∧
      Template.fill "{showName}" (some "\x7d \\1 \x7b") none today = "\x7d \\1 \x7b" := by
  intro profile today
  have hpieces : ∀ piece ∈ yearlyPieces,
      piece.IsFilledBy ("originalFilename" :: Template.keys) := by
    simp only [yearlyPieces, List.forall_mem_cons]
    exact ⟨.group "showName" (by decide) (Text.sameLetters_refl _),
      .literal (by decide) (by decide),
      .group "originalFilename" (by decide) (Text.sameLetters_refl _),
      .literal (by decide) (by decide), .group "YYYY" (by decide) (by decide +kernel), nofun⟩
  have hshow : ∀ piece ∈ [PatternPiece.group "showName".toList], piece.IsFilledBy Template.keys :=
    List.forall_mem_singleton.2 (.group "showName" (by decide) (Text.sameLetters_refl _))
  have hnamed : withValues (values (Path.ofString "in/take \x7b1 \\2.wav").stem profile.name
      ((none : Option BroadcastDate).getD today)) yearlyPieces =
        "\x7d News_take \x7b1 \\2 2024" := by decide +kernel
  have hsource := (takes_values_literally_iff yearlyPieces none today).2
    "in/take \x7b1 \\2.wav" profile none hpieces rfl (by rw [hnamed]; decide +kernel)
  have htag := (takes_values_literally_iff _ none today).1 (some "\x7d \\1 \x7b") hshow
  rw [hnamed] at hsource
  exact ⟨hpieces, (hsource.2 (.inl (by decide +kernel))).trans (by decide +kernel),
    (htag.2 (by decide +kernel)).trans (by decide +kernel)⟩

/-- Not every value is taken as it is: a group in the name of a show is dropped. -/
theorem not_takes_values_literally :
    ¬ ∀ (pieces : List PatternPiece) (showName : Option String) (date? : Option BroadcastDate)
      (today : BroadcastDate), (∀ piece ∈ pieces, piece.IsFilledBy Template.keys) →
      Template.fill (ofPieces pieces) showName date? today =
        Text.trim (withValues (Template.values (showName.getD "") (date?.getD today)) pieces) := by
  intro hall
  have hshow : ∀ piece ∈ [PatternPiece.group "showName".toList], piece.IsFilledBy Template.keys :=
    List.forall_mem_singleton.2 (.group "showName" (by decide) (Text.sameLetters_refl _))
  have hlive := hall _ (some "News {live}") none .first hshow
  revert hlive
  decide +kernel

end OutputName

end BroadcastIntake
