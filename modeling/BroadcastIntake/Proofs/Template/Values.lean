import BroadcastIntake.Proofs.Template
import BroadcastIntake.Proofs.Template.Groups

/-!
# Values in a template

A template is filled key by key, and each key is looked for in the values that are there already.
What its author has in mind is that all values are put in at once (`PatternPiece.valued`) and taken
as they are.  The two come to the same exactly when putting in the values at once leaves no brace
group (`Template.trim_dropGroups_replaceAll_iff`).

* A group that a later key finds in the values begins with one of their braces, and up to its end
  there is no other opening brace.  So far the text does not change any more when further values are
  put in (`Template.leadsInto_valued`), and the group is there in the end.
* A group that is there in the end is no more there after filling, which drops every group.

So a text that has been filled is not changed by filling it again (`Template.IsResolved.fill_eq`).
-/

namespace BroadcastIntake

namespace PatternPiece

/-- The characters of the piece with all values put in at once: a group that spells a key gives way
to the value of the first such key. -/
def valued (values : List (String × String)) : PatternPiece → List Char
  | literal cs => cs
  | group body =>
    match values.find? fun entry => Text.sameLetters entry.1.toList body with
    | some entry => entry.2.toList
    | none => (group body).chars

/-- No brace stands in a group, other than those around it.  A literal may hold any characters. -/
def HasPlainBody : PatternPiece → Prop
  | literal _ => True
  | group body => '{' ∉ body ∧ '}' ∉ body

variable {key value : String} {piece : PatternPiece}

theorem valued_nil (piece : PatternPiece) : piece.valued [] = piece.chars := by
  cases piece <;> rfl

/-- The first value may be put in before the others. -/
theorem valued_put (key value : String) (values : List (String × String)) (piece : PatternPiece) :
    (piece.put key value).valued values = piece.valued ((key, value) :: values) := by
  cases piece with
  | literal cs => rfl
  | group body =>
      by_cases hspells : Text.sameLetters key.toList body = true
      · simp [put, valued, hspells]
      · simp [put, valued, hspells]

theorem HasPlainBody.put (hpiece : piece.HasPlainBody) : (piece.put key value).HasPlainBody := by
  cases piece with
  | literal cs => trivial
  | group body =>
      simp only [PatternPiece.put]
      split
      · trivial
      · exact hpiece

end PatternPiece

namespace Template

open PatternPiece (valued valued_nil valued_put)

variable {key value cs rest full : List Char} {pieces : List PatternPiece}

/-! ## Keys -/

theorem isCaseless_brace : Text.IsCaseless '{' ∧ Text.IsCaseless '}' := by
  decide +kernel

/-- The characters may stand between the braces of a group that is filled. -/
structure IsKey (key : List Char) : Prop where
  ne_nil : key ≠ []
  noBrace : '{' ∉ key ∧ '}' ∉ key

/-- No letter of a key is a brace in any case. -/
theorem IsKey.sameLetter_brace (hkey : IsKey key) :
    ∀ k ∈ key, Text.sameLetter k '{' = false ∧ Text.sameLetter k '}' = false := by
  intro k hk
  constructor <;> refine Bool.eq_false_iff.2 fun hsame => ?_ <;> rw [Text.sameLetter_comm] at hsame
  · exact hkey.noBrace.1 (Text.eq_of_sameLetter isCaseless_brace.1 hsame ▸ hk)
  · exact hkey.noBrace.2 (Text.eq_of_sameLetter isCaseless_brace.2 hsame ▸ hk)

/-- What spells a key is not empty and has no brace. -/
theorem IsKey.of_sameLetters (hkey : IsKey key) {body : List Char}
    (hspells : Text.sameLetters key body = true) : body ≠ [] ∧ '{' ∉ body ∧ '}' ∉ body := by
  have hrows : List.Forall₂ (fun _ c => c ≠ '{' ∧ c ≠ '}') key body := by
    refine Text.forall₂_of_sameLetters (fun k hk c hsame => ?_) hspells
    obtain ⟨hopen, hclose⟩ := hkey.sameLetter_brace k hk
    constructor <;> rintro rfl
    · exact absurd hsame (by simp [hopen])
    · exact absurd hsame (by simp [hclose])
  have hletters : ∀ c ∈ body, c ≠ '{' ∧ c ≠ '}' :=
    ((List.forall₂_and_left body key).1 (hrows.flip.imp fun _ _ h => ⟨h, trivial⟩)).1
  refine ⟨?_, fun h => (hletters _ h).1 rfl, fun h => (hletters _ h).2 rfl⟩
  rintro rfl
  exact hkey.ne_nil (List.eq_nil_of_length_eq_zero (Text.length_eq_of_sameLetters hspells))

/-! ## One key -/

/-- A character stays that does not open a group that spells the key. -/
theorem replaceFrom_cons {c : Char}
    (hkept : c = '{' → ∀ body after, Text.sameLetters key body = true → cs ≠ body ++ '}' :: after) :
    replaceFrom key value 0 (c :: cs) = c :: replaceFrom key value 0 cs := by
  rw [replaceFrom]
  refine if_neg fun hspells => ?_
  simp only [Bool.and_eq_true, decide_eq_true_eq] at hspells
  obtain ⟨⟨hopen, hbody⟩, hclose⟩ := hspells
  obtain ⟨after, hafter⟩ := List.head?_eq_some_iff.1 hclose
  refine hkept hopen _ after hbody ?_
  rw [← hafter, List.take_append_drop]

/-- Up to its first opening brace the first row of characters is the beginning of the second. -/
def LeadsInto (rest full : List Char) : Prop :=
  ∀ start, '{' ∉ start → start <+: rest → start <+: full

theorem LeadsInto.append_left (hleads : LeadsInto rest full) (cs : List Char) :
    LeadsInto (cs ++ rest) (cs ++ full) := by
  induction cs with
  | nil => exact hleads
  | cons c cs ih =>
      intro start hopen hstart
      cases start with
      | nil => exact List.nil_prefix
      | cons d start =>
          obtain ⟨hsame, hstart⟩ := List.cons_prefix_cons.1 hstart
          rw [List.mem_cons, not_or] at hopen
          exact List.cons_prefix_cons.2 ⟨hsame, ih start hopen.2 hstart⟩

theorem leadsInto_open (rest full : List Char) : LeadsInto ('{' :: rest) full := by
  intro start hopen hstart
  cases start with
  | nil => exact List.nil_prefix
  | cons d start =>
      obtain ⟨rfl, -⟩ := List.cons_prefix_cons.1 hstart
      exact absurd List.mem_cons_self hopen

/-- A row of pieces begins as it does when all values have been put in, as far as its first
opening brace. -/
theorem leadsInto_valued (values : List (String × String)) (pieces : List PatternPiece) :
    LeadsInto (pieces.flatMap PatternPiece.chars) (pieces.flatMap (valued values)) := by
  induction pieces with
  | nil => exact fun start _ hstart => hstart
  | cons piece pieces ih =>
      rw [List.flatMap_cons, List.flatMap_cons]
      cases piece with
      | literal cs => exact ih.append_left cs
      | group body => exact leadsInto_open _ _

/-- A literal stays as it is when it begins no group in the end. -/
theorem replaceFrom_literal (hkey : IsKey key) (hleads : LeadsInto rest full)
    (hgroup : ¬ HasGroup (cs ++ full)) :
    replaceFrom key value 0 (cs ++ rest) = cs ++ replaceFrom key value 0 rest := by
  induction cs with
  | nil => rfl
  | cons c cs ih =>
      rw [List.cons_append, hasGroup_cons_iff, not_or] at hgroup
      rw [List.cons_append, replaceFrom_cons, ih hgroup.2, List.cons_append]
      -- a group that spells the key would still be closed in the end
      intro hopen body after hspells hcs
      obtain ⟨hne, hbody, hclose⟩ := hkey.of_sameLetters hspells
      refine hgroup.1 ⟨hopen, closes_iff.2 ⟨body, hne, hclose, ?_⟩⟩
      refine hleads.append_left cs _ (by simp [hbody]) ⟨after, ?_⟩
      rw [hcs, List.append_assoc, List.singleton_append]

/-- **Replacing** a key replaces the groups of the template that spell it, and nothing in the values
that are there, when there is no group in the end. -/
theorem replace_of_not_hasGroup {key : String} (hkey : IsKey key.toList) (value : String)
    {values : List (String × String)} (hpieces : ∀ piece ∈ pieces, piece.HasPlainBody)
    (hgroup : ¬ HasGroup (pieces.flatMap (valued values))) :
    replace key value (pieces.flatMap PatternPiece.chars) =
      (pieces.map (PatternPiece.put key value)).flatMap PatternPiece.chars := by
  unfold replace
  induction pieces with
  | nil => rfl
  | cons piece pieces ih =>
      obtain ⟨hpiece, hrest⟩ := List.forall_mem_cons.1 hpieces
      rw [List.flatMap_cons] at hgroup
      have ih := ih hrest fun h => hgroup (h.of_isInfix (List.suffix_append _ _).isInfix)
      rw [List.flatMap_cons, List.map_cons, List.flatMap_cons]
      cases piece with
      | literal cs =>
          rw [PatternPiece.put_literal, PatternPiece.chars, ← ih]
          exact replaceFrom_literal hkey (leadsInto_valued values pieces) hgroup
      | group body =>
          simp only [PatternPiece.chars, PatternPiece.put]
          rw [List.append_assoc, List.singleton_append,
            replaceFrom_group (fun k hk => (hkey.sameLetter_brace k hk).2) hpiece, ih]
          split <;> simp

/-! ## All keys -/

/-- The characters after one key after the other was replaced. -/
def replaceAll (values : List (String × String)) (cs : List Char) : List Char :=
  values.foldl (fun cs entry => replace entry.1 entry.2 cs) cs

theorem replaceAll_flatMap {values : List (String × String)}
    (hkeys : ∀ entry ∈ values, IsKey entry.1.toList)
    (hpieces : ∀ piece ∈ pieces, piece.HasPlainBody)
    (hgroup : ¬ HasGroup (pieces.flatMap (valued values))) :
    replaceAll values (pieces.flatMap PatternPiece.chars) = pieces.flatMap (valued values) := by
  induction values generalizing pieces with
  | nil => exact List.flatMap_congr fun piece _ => (valued_nil piece).symm
  | cons entry values ih =>
      obtain ⟨hkey, hkeys⟩ := List.forall_mem_cons.1 hkeys
      have hput : (pieces.map (PatternPiece.put entry.1 entry.2)).flatMap (valued values) =
          pieces.flatMap (valued (entry :: values)) := by
        rw [List.flatMap_map]
        exact List.flatMap_congr fun piece _ => valued_put entry.1 entry.2 values piece
      rw [← hput] at hgroup ⊢
      rw [replaceAll, List.foldl_cons, replace_of_not_hasGroup hkey entry.2 hpieces (hput ▸ hgroup)]
      exact ih hkeys (List.forall_mem_map.2 fun piece hpiece => (hpieces piece hpiece).put) hgroup

/-- Filling key by key and dropping the groups that are left comes to the same as putting in all
values at once exactly when the latter leaves no group. -/
theorem trim_dropGroups_replaceAll_iff {values : List (String × String)}
    (hkeys : ∀ entry ∈ values, IsKey entry.1.toList)
    (hpieces : ∀ piece ∈ pieces, piece.HasPlainBody) :
    Text.Chars.trim Text.isBlank
        (dropGroups (replaceAll values (pieces.flatMap PatternPiece.chars))) =
      Text.Chars.trim Text.isBlank (pieces.flatMap (valued values)) ↔
    ¬ HasGroup (pieces.flatMap (valued values)) := by
  constructor
  · intro hsame hgroup
    rw [← hasGroup_trim_iff, ← hsame, hasGroup_trim_iff] at hgroup
    exact not_hasGroup_dropGroups _ hgroup
  · intro hgroup
    rw [replaceAll_flatMap hkeys hpieces hgroup, dropGroups_eq_self hgroup]

/-! ## Filling -/

/-- What is put into a template, in the order in which it is put in. -/
def values (showName : String) (date : BroadcastDate) : List (String × String) :=
  [("YYYY", date.yearText), ("MM", date.monthText), ("DD", date.dayText), ("showName", showName)]

theorem isKey_of_mem_values {showName : String} {date : BroadcastDate} :
    ∀ entry ∈ values showName date, IsKey entry.1.toList := by
  have hkeys : ∀ key ∈ ["YYYY", "MM", "DD", "showName"],
      key.toList ≠ [] ∧ '{' ∉ key.toList ∧ '}' ∉ key.toList := by decide
  intro entry hentry
  have hkey := hkeys entry.1 (List.mem_map_of_mem (f := Prod.fst) hentry)
  exact ⟨hkey.1, hkey.2⟩

theorem fill_eq (template : String) (showName : Option String) (date? : Option BroadcastDate)
    (today : BroadcastDate) :
    fill template showName date? today = String.ofList (Text.Chars.trim Text.isBlank
      (dropGroups (replaceAll (values (showName.getD "") (date?.getD today)) template.toList))) :=
  rfl

/-- Nothing is left to be filled in the text, and it has no blank at either end. -/
structure IsResolved (text : String) : Prop where
  first : ∀ c ∈ text.toList.head?, Text.isBlank c = false
  last : ∀ c ∈ text.toList.getLast?, Text.isBlank c = false
  groupless : ¬ HasGroup text.toList

theorem isResolved_fill (template : String) (showName : Option String)
    (date? : Option BroadcastDate) (today : BroadcastDate) :
    IsResolved (fill template showName date? today) := by
  rw [fill_eq]
  obtain ⟨hfirst, hlast⟩ := Text.Chars.trim_eq_self_iff.1 (Text.Chars.trim_trim Text.isBlank
    (dropGroups (replaceAll (values (showName.getD "") (date?.getD today)) template.toList)))
  refine ⟨?_, ?_, ?_⟩ <;> rw [String.toList_ofList]
  · exact hfirst
  · exact hlast
  · exact hasGroup_trim_iff.not.2 (not_hasGroup_dropGroups _)

/-- Filling does not change a text that has been filled. -/
theorem IsResolved.fill_eq {text : String} (htext : IsResolved text) (showName : Option String)
    (date? : Option BroadcastDate) (today : BroadcastDate) :
    fill text showName date? today = text := by
  -- the text is a single literal, into which nothing is put
  have hall := @replaceAll_flatMap [.literal text.toList]
    (values (showName.getD "") (date?.getD today)) isKey_of_mem_values
    (List.forall_mem_singleton.2 trivial)
  simp only [List.flatMap_singleton, PatternPiece.chars, valued] at hall
  rw [Template.fill_eq, hall htext.groupless, dropGroups_eq_self htext.groupless,
    Text.Chars.trim_eq_self_iff.2 ⟨htext.first, htext.last⟩, String.ofList_toList]

/-- **Filled templates.**  Whatever the template and the values, the filled text has no blank at
either end and no brace group, and filling it again with any other values leaves it as it is. -/
theorem resolved_and_stays (template : String) (showName : Option String)
    (date? : Option BroadcastDate) (today : BroadcastDate) :
    IsResolved (fill template showName date? today) ∧
      ∀ (otherName : Option String) (otherDate? : Option BroadcastDate)
        (otherToday : BroadcastDate),
        fill (fill template showName date? today) otherName otherDate? otherToday =
          fill template showName date? today := by
  have hresolved := isResolved_fill template showName date? today
  exact ⟨hresolved, hresolved.fill_eq⟩

end Template

end BroadcastIntake
