import BroadcastIntake.Pattern.Check
import BroadcastIntake.Proofs.Pattern.Tokenization
import BroadcastIntake.Proofs.Profile
import BroadcastIntake.Proofs.Text.Blank

/-!
# Which patterns are accepted

A text is looked at as a pattern in three places: when it is checked for its writer, when it stands
in a profile, and when it is made a pattern.  They ask different things.  The check lists all groups
that call no placeholder, and refuses a star wherever it stands; making a pattern stops at the first
such group, and refuses a star in a literal.  `Pattern.checks_agree` says that they come to the
same, and what is at fault when a text is no pattern.

* A star in a group is in no key, so such a group calls no placeholder
  (`Placeholder.IsCalledBy.noWildcard`).  When all groups call placeholders, a star stands in a
  literal (`Pattern.any_hasWildcard_iff`).
* Groups are pieces of the one cut of a text, in their order.  So the first piece that is no token
  is the first group that calls no placeholder (`isFirstUnknown_of_pieces`).
* The members of a file pattern are checked apart from each other (`FilePattern.exists_check_iff`).
-/

namespace BroadcastIntake

open Checked (andThen_eq_valid)

/-! ## Groups and stars in a text -/

namespace Placeholder

/-- The text between two braces calls a placeholder. -/
def IsKnown (body : List Char) : Prop :=
  ∃ p : Placeholder, p.IsCalledBy body

theorem isSome_ofBody?_iff {body : List Char} : (ofBody? body).isSome = true ↔ IsKnown body := by
  simp only [Option.isSome_iff_exists, ofBody?_eq_some_iff, IsKnown]

/-- No key has a star in it, and a star stays one in capital letters. -/
theorem IsCalledBy.noWildcard {p : Placeholder} {body : List Char} (hcalled : p.IsCalledBy body) :
    '*' ∉ body := by
  intro hmem
  have hform : Text.capitalForm '*' = ['*'] := by decide +kernel
  have hkeys : ∀ p : Placeholder, '*' ∉ p.key.toList := by
    intro p
    cases p <;> decide
  have htrim : '*' ∈ Text.Chars.trim Text.isBlank body := Text.Chars.mem_trim (by decide) hmem
  apply hkeys p
  rw [← hcalled, Text.upper, Text.trim, Text.trimBy, String.toList_ofList, String.toList_ofList,
    String.toList_ofList]
  exact List.mem_flatMap.2 ⟨'*', htrim, by rw [hform]; exact List.mem_cons_self⟩

end Placeholder

/-- The first brace group in the text that calls no placeholder has the given body. -/
def IsFirstUnknown (source : String) (body : List Char) : Prop :=
  ∃ before after, IsGroupIn source.toList before body after ∧ ¬ Placeholder.IsKnown body ∧
    ∀ left other right, IsGroupIn source.toList left other right → left.length < before.length →
      Placeholder.IsKnown other

/-- A star stands in the text, and in no brace group. -/
def HoldsWildcard (source : String) : Prop :=
  ∃ before after, source.toList = before ++ '*' :: after ∧
    ∀ left body right, IsGroupIn source.toList left body right →
      before.length < left.length ∨
        (left ++ (PatternPiece.group body).chars).length ≤ before.length

/-- The given part of the text keeps it from being a pattern: the first brace group that calls no
placeholder, or, when there is none, a star in a literal. -/
inductive IsFault (source : String) : String → Prop
  | unknown {body : List Char} (hfirst : IsFirstUnknown source body) :
      IsFault source (String.ofList (PatternPiece.group body).chars)
  | wildcard (hknown : ∀ before body after, IsGroupIn source.toList before body after →
        Placeholder.IsKnown body) (hstar : HoldsWildcard source) : IsFault source "*"

/-! ## Where a group stands -/

section Positions

variable {source : String} {left right : List PatternPiece} {piece : PatternPiece}
  {before body after : List Char}

/-- A group is one of the pieces before a given piece and ends before it, or is that piece, or
begins behind it. -/
theorem group_position (hpieces : patternPieces source = left ++ piece :: right)
    (hgroup : IsGroupIn source.toList before body after) :
    (.group body ∈ left ∧ (before ++ (PatternPiece.group body).chars).length ≤
        (left.flatMap PatternPiece.chars).length) ∨
      (piece = .group body ∧ before = left.flatMap PatternPiece.chars) ∨
      ((left ++ [piece]).flatMap PatternPiece.chars).length ≤ before.length := by
  rw [← flatMap_chars_patternPieces] at hgroup
  obtain ⟨first, later, hsplit, rfl, -⟩ := (isCutting_patternPieces source).exists_split hgroup
  rw [hpieces] at hsplit
  rcases append_eq_append_cases hsplit with ⟨more, rfl, hmore⟩ | ⟨rest, hne, rfl, hrest⟩
  · cases more with
    | nil => exact .inr (.inl ⟨(List.cons.inj hmore).1, by simp⟩)
    | cons next more =>
        obtain ⟨rfl, -⟩ := List.cons.inj hmore
        refine .inr (.inr ?_)
        simp
  · obtain ⟨next, rest, rfl⟩ := List.exists_cons_of_ne_nil hne
    obtain ⟨rfl, -⟩ := List.cons.inj hrest
    refine .inl ⟨List.mem_append_right first List.mem_cons_self, ?_⟩
    simp

/-- The first piece that is a group and calls no placeholder is the first such group in the text. -/
theorem isFirstUnknown_of_pieces (hpieces : patternPieces source = left ++ .group body :: right)
    (hleft : ∀ other, .group other ∈ left → Placeholder.IsKnown other)
    (hbody : ¬ Placeholder.IsKnown body) : IsFirstUnknown source body := by
  have hcut := isCutting_patternPieces source
  refine ⟨left.flatMap PatternPiece.chars, right.flatMap PatternPiece.chars, ⟨?_, ?_⟩, hbody, ?_⟩
  · exact hcut.bodies body (hpieces ▸ List.mem_append_right left List.mem_cons_self)
  · rw [← flatMap_chars_patternPieces, hpieces, List.flatMap_append, List.flatMap_cons]
  · intro first other later hother hearlier
    rcases group_position hpieces hother with ⟨hmem, -⟩ | ⟨-, rfl⟩ | hbehind
    · exact hleft other hmem
    · exact absurd hearlier (Nat.lt_irrefl _)
    · rw [List.flatMap_append, List.length_append] at hbehind
      omega

/-- A star in a piece that is a literal stands in no group. -/
theorem holdsWildcard_of_pieces {cs : List Char}
    (hpieces : patternPieces source = left ++ .literal cs :: right) (hstar : '*' ∈ cs) :
    HoldsWildcard source := by
  obtain ⟨before, after, rfl⟩ := List.append_of_mem hstar
  refine ⟨left.flatMap PatternPiece.chars ++ before,
    after ++ right.flatMap PatternPiece.chars, ?_, ?_⟩
  · rw [← flatMap_chars_patternPieces, hpieces, List.flatMap_append, List.flatMap_cons,
      PatternPiece.chars]
    simp only [List.append_assoc, List.cons_append]
  · intro first body later hgroup
    rcases group_position hpieces hgroup with ⟨-, hends⟩ | ⟨hpiece, -⟩ | hbehind
    · refine .inr (Nat.le_trans hends ?_)
      rw [List.length_append]
      exact Nat.le_add_right _ _
    · cases hpiece
    · refine .inl (Nat.lt_of_lt_of_le ?_ hbehind)
      simp [PatternPiece.chars]

end Positions

/-! ## Making a pattern -/

namespace Pattern

section Compiling

variable {source : String} {tokens : List Token}

/-- A literal among the tokens is a piece. -/
theorem literal_mem_patternPieces {cs : List Char} (htokens : tokenize source = .ok tokens)
    (hcs : .literal cs ∈ tokens) : .literal cs ∈ patternPieces source := by
  have hread := tokenize_eq_ok_iff.1 htokens
  clear htokens
  generalize patternPieces source = pieces at hread
  induction hread with
  | nil => cases hcs
  | @cons piece t pieces tokens ht _ ih =>
      rcases List.mem_cons.1 hcs with rfl | hcs
      · obtain ⟨ds, rfl⟩ := PatternPiece.eq_literal_of_token? ht rfl
        obtain rfl := Token.literal.inj (Except.ok.inj ht)
        exact List.mem_cons_self
      · exact List.mem_cons_of_mem piece (ih hcs)

theorem of_token?_group_eq_error {body : List Char} {text : String}
    (h : (PatternPiece.group body).token? = .error text) :
    ¬ Placeholder.IsKnown body ∧ text = String.ofList (PatternPiece.group body).chars := by
  rw [← Placeholder.isSome_ofBody?_iff]
  simp only [PatternPiece.token?] at h
  split at h
  · cases h
  · rename_i hnone
    exact ⟨by simp [hnone], (Except.error.inj h).symm⟩

/-- A text has no tokens because of its first group that calls no placeholder. -/
theorem isFault_of_tokenize {e : PatternError} (he : tokenize source = .error e) :
    IsFault source e.token := by
  unfold tokenize at he
  split at he
  · cases he
  · rename_i group hgroup
    obtain rfl := Except.error.inj he
    obtain ⟨left, piece, right, hpieces, hleft, hpiece⟩ := Outcome.exists_of_mapM_eq_error hgroup
    cases piece with
    | literal cs => cases hpiece
    | group body =>
        obtain ⟨hunknown, rfl⟩ := of_token?_group_eq_error hpiece
        refine .unknown (isFirstUnknown_of_pieces hpieces (fun other hother => ?_) hunknown)
        obtain ⟨t, ht⟩ := hleft _ hother
        obtain ⟨p, hp, -⟩ := PatternPiece.token?_group_iff.1 ht
        exact ⟨p, hp⟩

/-- A star in a literal is at fault where all groups call placeholders. -/
theorem isFault_of_hasWildcard (htokens : tokenize source = .ok tokens)
    (hstar : tokens.any hasWildcard = true) : IsFault source "*" := by
  obtain ⟨t, ht, hwild⟩ := List.any_eq_true.1 hstar
  cases t with
  | field cs p => cases hwild
  | literal cs =>
      obtain ⟨left, right, hpieces⟩ := List.append_of_mem (literal_mem_patternPieces htokens ht)
      have hmem : '*' ∈ cs := by simpa [hasWildcard] using hwild
      have hknown : ∀ before body after, IsGroupIn source.toList before body after →
          Placeholder.IsKnown body :=
        fun before body after hgroup => exists_isCalledBy_of_tokenize htokens hgroup
      exact .wildcard hknown (holdsWildcard_of_pieces hpieces hmem)

/-- A text is no pattern because of a part of it that keeps it from being one. -/
theorem isFault_of_compile {e : PatternError} (he : compile source = .error e) :
    IsFault source e.token := by
  unfold compile at he
  split at he
  · rename_i e' hfailed
    obtain rfl := Except.error.inj he
    exact isFault_of_tokenize hfailed
  · rename_i tokens htokens
    split at he
    · rename_i hstar
      obtain rfl := Except.error.inj he
      exact isFault_of_hasWildcard htokens hstar
    · cases he

theorem exists_tokenize_iff :
    (∃ tokens, tokenize source = .ok tokens) ↔
      ∀ body, .group body ∈ patternPieces source → Placeholder.IsKnown body := by
  simp only [tokenize_eq_ok_iff, ← Outcome.mapM_eq_ok_iff, Outcome.exists_mapM_iff]
  constructor
  · intro htokens body hbody
    obtain ⟨t, ht⟩ := htokens _ hbody
    obtain ⟨p, hp, -⟩ := PatternPiece.token?_group_iff.1 ht
    exact ⟨p, hp⟩
  · intro hknown piece hpiece
    cases piece with
    | literal cs => exact ⟨_, rfl⟩
    | group body =>
        obtain ⟨p, hp⟩ := hknown body hpiece
        exact ⟨_, PatternPiece.token?_group_iff.2 ⟨p, hp, rfl⟩⟩

/-- A text with tokens has a star in it exactly when one of its literals has. -/
theorem any_hasWildcard_iff (htokens : tokenize source = .ok tokens) :
    tokens.any hasWildcard = true ↔ '*' ∈ source.toList := by
  obtain ⟨hspelled, -⟩ :=
    (isCutting_patternPieces source).isSpelled (tokenize_eq_ok_iff.1 htokens)
  rw [← flatMap_chars_of_tokenize htokens, List.any_eq_true, List.mem_flatMap]
  refine exists_congr fun t => and_congr_right fun ht => ?_
  cases t with
  | literal cs => simp [hasWildcard, Token.chars]
  | field cs p =>
      obtain ⟨body, rfl, -, -, hp⟩ := hspelled _ ht
      refine iff_of_false Bool.false_ne_true fun hstar => ?_
      exact hp.noWildcard (by simpa [Token.chars] using hstar)

/-- A text is accepted as a pattern when its groups call placeholders and no star stands in it. -/
theorem exists_compile_iff :
    (∃ p, compile source = .ok p) ↔
      (∀ body, .group body ∈ patternPieces source → Placeholder.IsKnown body) ∧
        '*' ∉ source.toList := by
  rw [← exists_tokenize_iff]
  simp only [compile_eq_ok_iff]
  constructor
  · rintro ⟨p, tokens, htokens, hplain, -⟩
    exact ⟨⟨tokens, htokens⟩, mt (any_hasWildcard_iff htokens).2 hplain⟩
  · rintro ⟨⟨tokens, htokens⟩, hplain⟩
    exact ⟨_, tokens, htokens, mt (any_hasWildcard_iff htokens).1 hplain, rfl⟩

end Compiling

/-! ## Checking a pattern for its writer -/

/-- A group is an error of its own exactly when it calls no placeholder. -/
theorem unknownGroup?_eq_none_iff {body : List Char} :
    PatternReport.unknownGroup? body = none ↔ Placeholder.IsKnown body := by
  rw [← Placeholder.isSome_ofBody?_iff]
  unfold PatternReport.unknownGroup?
  cases Placeholder.ofBody? body with
  | some p => exact iff_of_true rfl rfl
  | none => exact iff_of_false nofun nofun

theorem mem_groupBodies_iff {source : String} {body : List Char} :
    body ∈ groupBodies source ↔ .group body ∈ patternPieces source := by
  unfold groupBodies
  rw [List.mem_filterMap]
  constructor
  · rintro ⟨piece, hpiece, hbody⟩
    cases piece with
    | literal cs => cases hbody
    | group other =>
        obtain rfl := Option.some.inj hbody
        exact hpiece
  · exact fun hgroup => ⟨.group body, hgroup, rfl⟩

/-- A text is valid for its writer when it is not blank and accepted as a pattern. -/
theorem isValid_checkPattern_iff {source : String} :
    (checkPattern source).isValid = true ↔
      Text.isBlankText source = false ∧ ∃ p, compile source = .ok p := by
  have hgroups : (groupBodies source).filterMap PatternReport.unknownGroup? = [] ↔
      ∀ body, .group body ∈ patternPieces source → Placeholder.IsKnown body := by
    rw [List.filterMap_eq_nil_iff]
    refine forall_congr' fun body => ?_
    rw [mem_groupBodies_iff, unknownGroup?_eq_none_iff]
  rw [exists_compile_iff, ← hgroups]
  unfold checkPattern PatternReport.isValid
  split
  · rename_i hblank
    exact iff_of_false nofun fun hvalid => by simp [hblank] at hvalid
  · rename_i hblank
    rw [List.isEmpty_iff, List.append_eq_nil_iff, eq_false_of_ne_true hblank]
    refine ⟨fun ⟨hknown, hstar⟩ => ⟨rfl, hknown, fun hmem => ?_⟩,
      fun ⟨_, hknown, hplain⟩ => ⟨hknown, if_neg (by simpa using hplain)⟩⟩
    rw [if_pos (by simpa using hmem)] at hstar
    cases hstar

end Pattern

/-! ## Patterns in a profile -/

namespace FilePattern

/-- The members beside the text of a pattern are as they should be: a kind is one of those there
are, a path is a text, and there are no members with other keys. -/
structure OthersPass (members : Members) : Prop where
  kind : ∀ value, members.lookup "type" = some value → ∃ kind : PatternKind, value = .str kind.name
  watchPath : ∀ value, members.lookup "watch_path" = some value →
    value = .null ∨ ∃ path, value = .str path
  keys : ∀ member ∈ members, member.1 ∈ ["pattern", "type", "watch_path"]

theorem exists_checkPatternText_iff {source : String} :
    (∃ p, checkPatternText (.str source) = .valid p) ↔ ∃ p, Pattern.compile source = .ok p := by
  cases hcompiled : Pattern.compile source with
  | ok p =>
      have hvalid : checkPatternText (.str source) = .valid p := by
        simp only [checkPatternText, Scalar.text, Checked.andThen, hcompiled]
      exact iff_of_true ⟨p, hvalid⟩ ⟨p, rfl⟩
  | error e =>
      have hissue : checkPatternText (.str source) = .issue (.rule e.message) := by
        simp only [checkPatternText, Scalar.text, Checked.andThen, hcompiled]
      rw [hissue]
      exact iff_of_false nofun nofun

theorem exists_checkKind_iff {value : Json} :
    (∃ kind, checkKind value = .valid kind) ↔ ∃ kind : PatternKind, value = .str kind.name := by
  constructor
  · rintro ⟨kind, hkind⟩
    obtain ⟨name, hname, hfound⟩ := andThen_eq_valid hkind
    split at hfound
    · rename_i found hfind
      cases value with
      | str s =>
          obtain rfl := Checked.valid.inj hname
          have hfoundName : found.name = s := by simpa using List.find?_some hfind
          exact ⟨found, by rw [hfoundName]⟩
      | _ => cases hname
    · cases hfound
  · rintro ⟨kind, rfl⟩
    exact ⟨kind, by cases kind <;> rfl⟩

theorem exists_orNull_path_iff {value : Json} :
    (∃ path?, Scalar.orNull Scalar.path value = .valid path?) ↔
      value = .null ∨ ∃ path, value = .str path := by
  cases value with
  | null => exact iff_of_true ⟨none, rfl⟩ (.inl rfl)
  | str path => exact iff_of_true ⟨_, rfl⟩ (.inr ⟨path, rfl⟩)
  | _ => exact iff_of_false nofun nofun

/-- A record with the text of a pattern passes when the text is accepted and its other members
pass. -/
theorem exists_check_iff {members : Members} {source : String}
    (hpattern : members.lookup "pattern" = some (.str source)) :
    (∃ fp, check (.object members) = .valid fp) ↔
      (∃ p, Pattern.compile source = .ok p) ∧ OthersPass members := by
  have hrequired : (∃ p, members.required "pattern" checkPatternText = .valid p) ↔
      ∃ p, Pattern.compile source = .ok p := by
    rw [← exists_checkPatternText_iff, Members.required, hpattern]
    exact Checked.exists_under_iff
  rw [check, checkRecord, Checked.exists_seq_iff, Checked.exists_seq_iff, Checked.exists_seq_iff,
    Checked.exists_map_iff, hrequired, Members.exists_optional_iff, Members.exists_optional_iff,
    Members.exists_noOthers_iff]
  simp only [exists_checkKind_iff, exists_orNull_path_iff]
  constructor
  · rintro ⟨⟨⟨hp, hkind⟩, hpath⟩, hkeys⟩
    exact ⟨hp, hkind, hpath, hkeys⟩
  · rintro ⟨hp, hkind, hpath, hkeys⟩
    exact ⟨⟨⟨hp, hkind⟩, hpath⟩, hkeys⟩

/-- A text stands alone in its record. -/
theorem othersPass_alone (source : String) : OthersPass [("pattern", .str source)] where
  kind := nofun
  watchPath := nofun
  keys := by simp

end FilePattern

/-! ## Agreement -/

/-- **A pattern is checked for what keeps it from being accepted.**  A text is valid for its writer
exactly when it is not blank and accepted as a pattern.  As the text of a file pattern it passes
exactly when it is accepted, whatever stands beside it, as long as that passes too.  When it is not
accepted, the first brace group that calls no placeholder is at fault, or, when there is none, a
star in a literal. -/
theorem Pattern.checks_agree (source : String) :
    ((checkPattern source).isValid = true ↔
      Text.isBlankText source = false ∧ ∃ p, compile source = .ok p) ∧
    ((∃ fp, FilePattern.check (.object [("pattern", .str source)]) = .valid fp) ↔
      ∃ p, compile source = .ok p) ∧
    (∀ members : Members, members.lookup "pattern" = some (.str source) →
      FilePattern.OthersPass members →
      ((∃ fp, FilePattern.check (.object members) = .valid fp) ↔ ∃ p, compile source = .ok p)) ∧
    ∀ e, compile source = .error e → IsFault source e.token := by
  have hrecord : ∀ members : Members, members.lookup "pattern" = some (.str source) →
      FilePattern.OthersPass members →
      ((∃ fp, FilePattern.check (.object members) = .valid fp) ↔ ∃ p, compile source = .ok p) := by
    intro members hpattern hothers
    rw [FilePattern.exists_check_iff hpattern]
    exact and_iff_left hothers
  exact ⟨isValid_checkPattern_iff, hrecord _ rfl (FilePattern.othersPass_alone source), hrecord,
    fun _ => isFault_of_compile⟩

/-- A star stands before the first group that calls no placeholder, and is not what is at fault. -/
theorem Pattern.starAndUnknown_checks_agree :
    let source := "a*{YYYY}{nope}{also}"
    let members : Members := [("type", .str "ftp"), ("pattern", .str source)]
    compile source = .error ⟨source, .unknownPlaceholder "{nope}"⟩ ∧ IsFault source "{nope}" ∧
      ¬ ∃ fp, FilePattern.check (.object members) = .valid fp := by
  intro source members
  obtain ⟨-, -, hrecord, hfault⟩ := checks_agree source
  have hfailed : compile source = .error ⟨source, .unknownPlaceholder "{nope}"⟩ := by
    decide +kernel
  have hothers : FilePattern.OthersPass members := by
    refine ⟨fun value hvalue => ⟨.ftp, (Option.some.inj hvalue).symm⟩, nofun, ?_⟩
    decide
  refine ⟨hfailed, hfault _ hfailed, ?_⟩
  rw [hrecord members rfl hothers, hfailed]
  exact nofun

end BroadcastIntake
