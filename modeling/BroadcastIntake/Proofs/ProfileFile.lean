import BroadcastIntake.ProfileFile
import BroadcastIntake.Proofs.FileTree.Lookup
import BroadcastIntake.Proofs.Profile

/-!
# What a load of a profile comes to

A load should end in one of two ways (`ShowProfile.IsTold`): with an error that names the profile's
path and a fault that is there (`ShowProfile.IsFaultOf`), or with a profile that its checks answer
for.  The checks answer for two things.

* The profile is sound (`ShowProfile.IsSound`): its patterns are accepted, its name is not blank,
  its trim points are not negative and its rates are positive.
* The value in the file has no key that means nothing, in the profile or in any of its parts
  (`ShowProfile.HasKnownKeys`).

Between the file and the value stand three layers: the path, the bytes and the text.  Each of them
has a failure that a load does not tell as an error of the profile, and `ShowProfile.IsWithinReach`
rules out these three.  `load_isTold_iff` says that there are no others, and that each of the three
does get past.
-/

namespace BroadcastIntake

open Checked (seq_eq_valid andThen_eq_valid under_eq_valid)

/-! ## Keys -/

/-- The value is an object, and no member of it has another key than the given ones. -/
def Json.HasOnly (keys : List String) : Json → Prop
  | .object members => ∀ member ∈ members, member.1 ∈ keys
  | _ => False

/-- A record that ends with the check of its keys has no others. -/
theorem hasOnly_of_checkRecord {α : Type} {keys : List String} {value : Json} {a : α}
    {parts : Members → Checked (Unit → α)}
    (h : checkRecord (fun members => parts members <*> members.noOthers keys) value = .valid a) :
    value.HasOnly keys := by
  cases value with
  | object members =>
      obtain ⟨_, _, -, hkeys, -⟩ := seq_eq_valid h
      exact Members.keys_mem_of_noOthers hkeys
  | _ => cases h

/-- A member that is there has passed its check. -/
theorem Members.check_of_optional {α : Type} {members : Members} {key : String} {default a : α}
    {check : Json → Checked α} {value : Json} (h : members.optional key default check = .valid a)
    (hvalue : members.lookup key = some value) : check value = .valid a := by
  unfold optional at h
  rw [hvalue] at h
  exact under_eq_valid h

namespace ShowProfile

/-- No key of the value is unknown, neither its own nor those of its parts. -/
structure HasKnownKeys (value : Json) : Prop where
  own : value.HasOnly ["name", "id", "enabled", "file_patterns", "output_directory",
    "trim_settings", "audio_settings", "metadata", "file_naming"]
  patterns : ∀ part, value.get? "file_patterns" = some part → ∃ items, part = .list items ∧
    ∀ item ∈ items, item.HasOnly ["pattern", "type", "watch_path"]
  trim : ∀ part, value.get? "trim_settings" = some part →
    part.HasOnly ["start_seconds", "end_seconds", "fade_in", "fade_out"]
  audio : ∀ part, value.get? "audio_settings" = some part →
    part.HasOnly ["output_format", "normalization_level", "sample_rate", "bit_rate"]
  tags : ∀ part, value.get? "metadata" = some part →
    part.HasOnly ["title", "artist", "album", "genre", "year", "comment"]
  naming : ∀ part, value.get? "file_naming" = some part → part.HasOnly ["output_pattern"]

theorem hasKnownKeys_of_check {value : Json} {profile : ShowProfile}
    (hprofile : check value = .valid profile) : HasKnownKeys value := by
  have hown := hasOnly_of_checkRecord hprofile
  obtain ⟨members, rfl, hread⟩ := exists_isReadFrom hprofile
  refine ⟨hown, ?_, ?_, ?_, ?_, ?_⟩
  · intro part hpart
    have hitems := Members.check_of_optional hread.patterns hpart
    cases part with
    | list items =>
        refine ⟨items, rfl, fun item hitem => ?_⟩
        obtain ⟨fp, -, hfp⟩ := (Checked.mem_items hitems).1 item hitem
        exact hasOnly_of_checkRecord hfp
    | _ => cases hitems
  · exact fun part hpart => hasOnly_of_checkRecord (Members.check_of_optional hread.trim hpart)
  · exact fun part hpart => hasOnly_of_checkRecord (Members.check_of_optional hread.audio hpart)
  · exact fun part hpart => hasOnly_of_checkRecord (Members.check_of_optional hread.tags hpart)
  · exact fun part hpart => hasOnly_of_checkRecord (Members.check_of_optional hread.naming hpart)

end ShowProfile

/-! ## Bounds -/

theorem Scalar.le_of_numberAtLeast {bound x : Binary64} {value : Json}
    (h : numberAtLeast bound value = .valid x) : bound ≤ x := by
  obtain ⟨number, -, hnumber⟩ := andThen_eq_valid h
  split at hnumber
  · rename_i hle
    rwa [← Checked.valid.inj hnumber]
  · cases hnumber

/-- A trim point is not negative, whether it is given or not. -/
theorem TrimSettings.zero_le_of_optional {members : Members} {key : String} {point : Binary64}
    (h : members.optional key .zero (Scalar.numberAtLeast .zero) = .valid point) :
    .zero ≤ point := by
  rcases Members.optional_eq_valid h with rfl | ⟨value, hvalue⟩
  · decide
  · exact Scalar.le_of_numberAtLeast hvalue

theorem TrimSettings.zero_le_of_check {value : Json} {trim : TrimSettings}
    (htrim : check value = .valid trim) : .zero ≤ trim.start ∧ .zero ≤ trim.stop := by
  obtain ⟨members, -, hread⟩ := exists_isReadFrom htrim
  exact ⟨zero_le_of_optional hread.start, zero_le_of_optional hread.stop⟩

/-- A rate is positive when it is given. -/
theorem AudioSettings.pos_of_optional {members : Members} {key : String} {rate? : Option Int}
    (h : members.optional key .none checkRate = .valid rate?) : ∀ rate ∈ rate?, 0 < rate := by
  rcases Members.optional_eq_valid h with rfl | ⟨value, hvalue⟩
  · intro rate hrate
    cases hrate
  · obtain ⟨given?, -, hgiven⟩ := andThen_eq_valid hvalue
    split at hgiven
    · rename_i hpos
      obtain rfl := Checked.valid.inj hgiven
      rintro rate rfl
      simpa using hpos
    · cases hgiven

theorem AudioSettings.rates_pos_of_check {value : Json} {audio : AudioSettings}
    (haudio : check value = .valid audio) :
    (∀ rate ∈ audio.sampleRate, 0 < rate) ∧ ∀ rate ∈ audio.bitRate, 0 < rate := by
  obtain ⟨members, -, hread⟩ := exists_isReadFrom haudio
  exact ⟨pos_of_optional hread.sampleRate, pos_of_optional hread.bitRate⟩

namespace ShowProfile

theorem not_blank_of_checkName {value : Json} {name : String}
    (hname : checkName value = .valid name) : Text.isBlankText name = false := by
  obtain ⟨written, -, hwritten⟩ := andThen_eq_valid hname
  split at hwritten
  · cases hwritten
  · rename_i hblank
    rw [← Checked.valid.inj hwritten]
    exact Bool.eq_false_iff.2 hblank

/-- The profile keeps the rules of its parts. -/
structure IsSound (profile : ShowProfile) : Prop where
  patterns : profile.IsCompiled
  name : Text.isBlankText profile.name = false
  start : .zero ≤ profile.trim.start
  stop : .zero ≤ profile.trim.stop
  sampleRate : ∀ rate ∈ profile.audio.sampleRate, 0 < rate
  bitRate : ∀ rate ∈ profile.audio.bitRate, 0 < rate

theorem isSound_of_check {value : Json} {profile : ShowProfile}
    (hprofile : check value = .valid profile) : profile.IsSound := by
  obtain ⟨members, -, hread⟩ := exists_isReadFrom hprofile
  have hname : Text.isBlankText profile.name = false := by
    have hchecked := hread.name
    unfold Members.required at hchecked
    split at hchecked
    · exact not_blank_of_checkName (under_eq_valid hchecked)
    · cases hchecked
  have htrim : .zero ≤ profile.trim.start ∧ .zero ≤ profile.trim.stop := by
    rcases Members.optional_eq_valid hread.trim with hnone | ⟨value, hvalue⟩
    · rw [hnone]
      decide
    · exact TrimSettings.zero_le_of_check hvalue
  have haudio : (∀ rate ∈ profile.audio.sampleRate, 0 < rate) ∧
      ∀ rate ∈ profile.audio.bitRate, 0 < rate := by
    rcases Members.optional_eq_valid hread.audio with hnone | ⟨value, hvalue⟩
    · rw [hnone]
      exact ⟨nofun, nofun⟩
    · exact AudioSettings.rates_pos_of_check hvalue
  exact ⟨isCompiled_of_check hprofile, hname, htrim.1, htrim.2, haudio.1, haudio.2⟩

end ShowProfile

/-! ## Loading -/

namespace FileTree

variable {tree : FileTree} {path : Path}

theorem hasNull_of_read {content : ByteArray} (hread : tree.read path = .ok content) :
    path.hasNull = false := by
  obtain ⟨l, hplace, -⟩ := read_eq_ok_iff.1 hread
  exact hasNull_of_place? hplace

/-- The failure of a read shows whether the path is one of a file at all. -/
theorem hasNull_iff_of_unread {e : FileError} (hread : tree.read path = .error e) :
    path.hasNull = true ↔ e.fault = .nullCharacter := by
  unfold read at hread
  split at hread
  · cases hread
  · rename_i hlocate
    rw [← Except.error.inj hread, (follow_of_locate hlocate).1]
    exact iff_of_false nofun nofun
  · rename_i hlocate
    rw [← Except.error.inj hread, (follow_of_locate hlocate).1]
    exact iff_of_false nofun nofun
  · rename_i fault hlocate
    rw [← Except.error.inj hread]
    rcases locate_eq_error hlocate with ⟨hnull, hfault⟩ | ⟨hnull, hfault⟩
    · exact iff_of_true hnull hfault
    · rw [hnull]
      refine iff_of_false nofun ?_
      rintro rfl
      simp at hfault

end FileTree

namespace ShowProfile

/-- The file at the path holds a JSON text of the value. -/
def IsRead (tree : FileTree) (path : Path) (value : Json) : Prop :=
  ∃ content text, tree.read path = .ok content ∧ Text.ofFile? content = some text ∧
    Json.read text = .ok value

/-- The fault is one of the file at the path, and of the first of its layers that has one. -/
inductive IsFaultOf (tree : FileTree) (path : Path) : ProfileFault → Prop
  | missing {e : FileError} (hread : tree.read path = .error e) (hmissing : e.fault = .missing) :
      IsFaultOf tree path .missing
  | unreadableFile {e : FileError} (hread : tree.read path = .error e)
      (hthere : e.fault ≠ .missing) : IsFaultOf tree path (.unreadableFile e)
  | unreadableText {content : ByteArray} {text : String} {e : JsonError}
      (hread : tree.read path = .ok content) (htext : Text.ofFile? content = some text)
      (hvalue : Json.read text = .error e) : IsFaultOf tree path (.unreadableText e)
  | invalid {value : Json} {issues : List Issue} (hread : IsRead tree path value)
      (hissues : check value = .invalid issues) : IsFaultOf tree path (.invalid issues)

/-- The outcomes of a load that its callers know of: an error that tells a fault of the profile at
the path, or a sound profile from a value without unknown keys. -/
inductive IsTold (tree : FileTree) (path : Path) : Except ProfileLoadError ShowProfile → Prop
  | error {fault : ProfileFault} (hfault : IsFaultOf tree path fault) :
      IsTold tree path (.error (.profile ⟨path, fault⟩))
  | profile {value : Json} {profile : ShowProfile} (hread : IsRead tree path value)
      (hprofile : check value = .valid profile) (hkeys : HasKnownKeys value)
      (hsound : profile.IsSound) : IsTold tree path (.ok profile)

/-- The path can be one of a file, the file is a text if there is one, and the text is not beyond
what the reader takes: it is not nested too deeply and holds no number that is too long. -/
structure IsWithinReach (tree : FileTree) (path : Path) : Prop where
  usable : path.hasNull = false
  isText : ∀ content, tree.read path = .ok content → (Text.ofFile? content).isSome = true
  grammar : ∀ content text e, tree.read path = .ok content → Text.ofFile? content = some text →
    Json.read text = .error e → e.fault.isSyntactic = true

section Layers

variable {tree : FileTree} {path : Path}

theorem isTold_ofText_iff {content : ByteArray} {text : String}
    (hread : tree.read path = .ok content) (htext : Text.ofFile? content = some text) :
    IsTold tree path (ofText path text) ↔
      ∀ e, Json.read text = .error e → e.fault.isSyntactic = true := by
  unfold ofText
  rcases hvalue : Json.read text with e | value
  · simp only [Except.error.injEq, forall_eq']
    split
    · rename_i hgrammar
      exact iff_of_true (.error (.unreadableText hread htext hvalue)) hgrammar
    · rename_i hlimit
      exact iff_of_false nofun hlimit
  · refine iff_of_true ?_ nofun
    dsimp only
    split
    · rename_i profile hprofile
      exact .profile ⟨content, text, hread, htext, hvalue⟩ hprofile
        (hasKnownKeys_of_check hprofile) (isSound_of_check hprofile)
    · rename_i issues hissues
      exact .error (.invalid ⟨content, text, hread, htext, hvalue⟩ hissues)

theorem isTold_load_iff_of_read {content : ByteArray} (hread : tree.read path = .ok content) :
    IsTold tree path (load tree path) ↔ ∃ text, Text.ofFile? content = some text ∧
      ∀ e, Json.read text = .error e → e.fault.isSyntactic = true := by
  unfold load
  simp only [hread]
  rcases htext : Text.ofFile? content with _ | text
  · exact iff_of_false nofun nofun
  · refine (isTold_ofText_iff hread htext).trans ⟨fun hgrammar => ⟨text, rfl, hgrammar⟩, ?_⟩
    rintro ⟨_, hsame, hgrammar⟩
    obtain rfl := Option.some.inj hsame
    exact hgrammar

/-- A file that cannot be read is told of, unless no file can have its path. -/
theorem isTold_load_iff_of_unread {e : FileError} (hread : tree.read path = .error e) :
    IsTold tree path (load tree path) ↔ path.hasNull = false := by
  rw [← Bool.not_eq_true, FileTree.hasNull_iff_of_unread hread]
  unfold load
  simp only [hread]
  split
  · rename_i hmissing
    exact iff_of_true (.error (.missing hread hmissing)) (by simp [hmissing])
  · rename_i hnull
    exact iff_of_false nofun fun hnot => hnot hnull
  · rename_i hthere hnot
    exact iff_of_true (.error (.unreadableFile hread hthere)) hnot

end Layers

/-- **Loading a profile** ends with an error that tells a fault of the profile at the path, or with
a sound profile from a value without unknown keys, exactly when the path can be one of a file, the
file is a text if there is one, and the text is not beyond what the reader takes. -/
theorem load_isTold_iff (tree : FileTree) (path : Path) :
    IsTold tree path (load tree path) ↔ IsWithinReach tree path := by
  rcases hread : tree.read path with e | content
  · rw [isTold_load_iff_of_unread hread]
    refine ⟨fun husable => ⟨husable, ?_, ?_⟩, fun hreach => hreach.usable⟩
    · intro content hcontent
      rw [hread] at hcontent
      cases hcontent
    · intro content text fault hcontent
      rw [hread] at hcontent
      cases hcontent
  · rw [isTold_load_iff_of_read hread]
    constructor
    · rintro ⟨text, htext, hgrammar⟩
      refine ⟨FileTree.hasNull_of_read hread, ?_, ?_⟩
      · intro content' hcontent
        rw [hread] at hcontent
        rw [← Except.ok.inj hcontent, htext]
        rfl
      · intro content' text' fault hcontent htext'
        rw [hread] at hcontent
        rw [← Except.ok.inj hcontent, htext] at htext'
        rw [← Option.some.inj htext']
        exact hgrammar fault
    · intro hreach
      obtain ⟨text, htext⟩ := Option.isSome_iff_exists.1 (hreach.isText content hread)
      exact ⟨text, htext, fun e => hreach.grammar content text e hread htext⟩

/-- A tree whose only file holds a byte that no text in UTF-8 has. -/
def strayByteTree : FileTree :=
  { workingDirectory := [], entries := [(["show.json"], .file ⟨#[0xff]⟩)] }

/-- Not every load ends with an error of the profile or with a profile: a file that is not a text
is not told of. -/
theorem not_forall_load_isTold :
    ¬ ∀ (tree : FileTree) (path : Path), IsTold tree path (load tree path) := by
  intro htold
  have hload : load strayByteTree (Path.ofString "show.json") = .error .notText := by
    rfl
  have hstray := htold strayByteTree (Path.ofString "show.json")
  rw [hload] at hstray
  cases hstray

end ShowProfile

end BroadcastIntake
