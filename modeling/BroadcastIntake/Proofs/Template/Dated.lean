import BroadcastIntake.Proofs.Pattern.Filling
import BroadcastIntake.Proofs.Template
import BroadcastIntake.Proofs.Template.Groups

/-!
# Dates that are written and read

The same text can serve as a template, in which the parts of a date are filled in, and as a pattern,
by which they are read.  When all its brace groups call parts of a date, and all parts are called,
the date is read back from the text that it was written into (`Template.reads_back_date`).

* The template writes every part with as many digits as a reader takes at most
  (`Placeholder.written_eq`).
* The pattern is cut into the same pieces (`Template.IsDated.exists_compile`), and the reader takes
  as many digits as it can.  So the length that it tries first is that of the part that was written
  (`Token.IsDated.head?_segmentLengths`), and it never has to try another, whatever digits stand
  before or behind the part.
* Each field is read from its last word, and all words for it were written from the same part.
-/

namespace BroadcastIntake

/-! ## The parts of a date -/

namespace Placeholder

/-- The placeholders that stand for the parts of a date. -/
def dateParts : List Placeholder := [year, month, day]

/-- The part of a date that a placeholder stands for, as a template writes it. -/
def written (date : BroadcastDate) : Placeholder → String
  | year => date.yearText
  | month => date.monthText
  | day => date.dayText
  | _ => ""

/-- The part of a date that a placeholder stands for. -/
def part (date : BroadcastDate) : Placeholder → Int
  | year => date.year
  | month => date.month
  | _ => date.day

/-- The number of digits of the part. -/
def width : Placeholder → Nat
  | year => 4
  | _ => 2

variable {date : BroadcastDate} {p q : Placeholder}

/-- A part is written in just as many digits as its placeholder has, and they write the part. -/
theorem written_eq (hyear : 0 ≤ date.year ∧ date.year ≤ 9999) (hp : p ∈ dateParts) :
    (p.written date).toList.length = p.width ∧
      (∀ c ∈ (p.written date).toList, c.isDigit = true) ∧
      (Text.digitsValue (p.written date).toList : Int) = p.part date := by
  have hmonth := date.month_range
  have hday := date.day_range
  simp only [dateParts, List.mem_cons, List.not_mem_nil, or_false] at hp
  rcases hp with rfl | rfl | rfl
  · exact Text.toList_paddedInt (by decide) (by omega)
  · exact Text.toList_paddedInt (by decide) (by omega)
  · exact Text.toList_paddedInt (by decide) (by omega)

theorem isDigit_written (hyear : 0 ≤ date.year ∧ date.year ≤ 9999) (hp : p ∈ dateParts) {c : Char}
    (hc : c ∈ (p.written date).toList) : Text.isDigit c = true :=
  Text.isDigit_of_common ((written_eq hyear hp).2.1 c hc)

theorem written_noBrace (hyear : 0 ≤ date.year ∧ date.year ≤ 9999) (hp : p ∈ dateParts) :
    '{' ∉ (p.written date).toList ∧ '}' ∉ (p.written date).toList := by
  have hdigits := (written_eq hyear hp).2.1
  exact ⟨fun h => absurd (hdigits _ h) (by decide), fun h => absurd (hdigits _ h) (by decide)⟩

theorem isWord_written (hyear : 0 ≤ date.year ∧ date.year ≤ 9999) (hp : p ∈ dateParts) :
    p.isWord (p.written date).toList = true := by
  have hlength := (written_eq hyear hp).1
  have hdigits : (p.written date).toList.all Text.isDigit = true :=
    List.all_eq_true.2 fun c hc => isDigit_written hyear hp hc
  simp only [dateParts, List.mem_cons, List.not_mem_nil, or_false] at hp
  rcases hp with rfl | rfl | rfl <;> simp [isWord, hlength, hdigits, width]

/-- The value of the written part is the part. -/
theorem ofWord_written (hyear : 0 ≤ date.year ∧ date.year ≤ 9999) (hp : p ∈ dateParts) :
    FieldValue.ofWord p (p.written date).toList = .number (p.part date) := by
  have hvalue := (written_eq hyear hp).2.2
  simp only [dateParts, List.mem_cons, List.not_mem_nil, or_false] at hp
  rcases hp with rfl | rfl | rfl <;> exact congrArg FieldValue.number hvalue

/-- The length that is tried first is that of the written part, whatever stands behind it. -/
theorem head?_wordLengths_written (hyear : 0 ≤ date.year ∧ date.year ≤ 9999) (hp : p ∈ dateParts)
    (rest : List Char) :
    (p.wordLengths ((p.written date).toList ++ rest)).head? =
      some (p.written date).toList.length := by
  have hword := isWord_written hyear hp
  have hlength := (written_eq hyear hp).1
  have hfirst : ∀ others, (p.fitting ((p.written date).toList ++ rest) (p.width :: others)).head? =
      some p.width := by
    intro others
    have hfits : (decide (p.width ≤ ((p.written date).toList ++ rest).length) &&
        p.isWord (((p.written date).toList ++ rest).take p.width)) = true := by
      rw [← hlength, List.take_left, hword, List.length_append]
      simp
    simp only [fitting, List.filter_cons, hfits, if_true, List.head?_cons]
  rw [hlength]
  simp only [dateParts, List.mem_cons, List.not_mem_nil, or_false] at hp
  rcases hp with rfl | rfl | rfl
  · exact hfirst []
  · exact hfirst [1]
  · exact hfirst [1]

/-! ## Calling a part -/

/-- The letters of the keys of the parts. -/
def dateLetters : List Char := ['Y', 'M', 'D']

/-- A letter of a key is equal to itself and to its small form only. -/
theorem eq_or_of_sameLetter {a c : Char} (ha : a ∈ dateLetters)
    (hsame : Text.sameLetter a c = true) : c = a ∨ c = Text.smallForm a := by
  have hcapitals : ∀ a ∈ dateLetters, Text.smallForm a ≠ '\x00' ∧
      Text.capitalCodes (Text.smallForm a) = [a.toNat] :=
    List.all_iff_forall_prop.1 (by decide +kernel)
  have halone : ∀ a ∈ dateLetters, ∀ mates ∈ Text.letterMates, Text.smallForm a ∉ mates :=
    List.all_iff_forall_prop.1 (by decide +kernel)
  obtain ⟨hnull, hcapital⟩ := hcapitals a ha
  rcases Text.smallForm_eq_cases hnull (Text.smallForm_of_sameLetter (halone a ha) hsame) with h | h
  · exact .inr h
  · rw [hcapital, List.mem_singleton] at h
    exact .inl (Char.toNat_inj.1 h)

/-- Both forms of a letter have the same capital, and neither is a blank or a brace. -/
theorem capitalForm_of_sameLetter {a c : Char} (ha : a ∈ dateLetters)
    (hsame : Text.sameLetter a c = true) :
    Text.capitalForm c = [a] ∧ Text.isBlank c = false ∧ c ≠ '{' ∧ c ≠ '}' := by
  have hown : ∀ a ∈ dateLetters, Text.capitalForm a = [a] ∧ Text.isBlank a = false ∧
      a ≠ '{' ∧ a ≠ '}' := List.all_iff_forall_prop.1 (by decide +kernel)
  have hsmall : ∀ a ∈ dateLetters, Text.capitalForm (Text.smallForm a) = [a] ∧
      Text.isBlank (Text.smallForm a) = false ∧ Text.smallForm a ≠ '{' ∧ Text.smallForm a ≠ '}' :=
    List.all_iff_forall_prop.1 (by decide +kernel)
  rcases eq_or_of_sameLetter ha hsame with rfl | rfl
  · exact hown c ha
  · exact hsmall a ha

/-- Letters that spell a key in any case have the key as their capitals, and no blank or brace among
them. -/
theorem capitals_of_sameLetters {key body : List Char} (hkey : key ⊆ dateLetters)
    (hsame : Text.sameLetters key body = true) :
    body.flatMap Text.capitalForm = key ∧
      ∀ c ∈ body, Text.isBlank c = false ∧ c ≠ '{' ∧ c ≠ '}' := by
  have hletters := Text.forall₂_of_sameLetters
    (fun a ha c hletter => capitalForm_of_sameLetter (hkey ha) hletter) hsame
  clear hkey hsame
  induction hletters with
  | nil => exact ⟨rfl, nofun⟩
  | cons hletter _ ih =>
      obtain ⟨hcapital, hplain⟩ := hletter
      obtain ⟨hcapitals, hothers⟩ := ih
      refine ⟨?_, List.forall_mem_cons.2 ⟨hplain, hothers⟩⟩
      rw [List.flatMap_cons, hcapital, hcapitals]
      rfl

/-- A body that spells the key of a part calls it, and has no brace. -/
theorem ofBody?_of_sameLetters (hp : p ∈ dateParts) {body : List Char}
    (hbody : Text.sameLetters p.key.toList body = true) :
    ofBody? body = some p ∧ '{' ∉ body ∧ '}' ∉ body := by
  have hkeys : ∀ p ∈ dateParts, p.key.toList ⊆ dateLetters := by decide
  obtain ⟨hcapitals, hplain⟩ := capitals_of_sameLetters (hkeys p hp) hbody
  refine ⟨?_, fun h => (hplain _ h).2.1 rfl, fun h => (hplain _ h).2.2 rfl⟩
  rw [ofBody?, Text.trim_eq_self fun c hc => (hplain c hc).1, Text.upper, String.toList_ofList,
    hcapitals, String.ofList_toList, ofKey?_key]

/-- A body that spells the keys of two parts spells the key of one. -/
theorem eq_of_sameLetters (hp : p ∈ dateParts) (hq : q ∈ dateParts) {body : List Char}
    (hbody : Text.sameLetters p.key.toList body = true)
    (hbody' : Text.sameLetters q.key.toList body = true) : p = q := by
  have hcalls := (ofBody?_of_sameLetters hp hbody).1
  rw [(ofBody?_of_sameLetters hq hbody').1] at hcalls
  exact (Option.some.inj hcalls).symm

end Placeholder

open Placeholder (dateParts)

/-! ## Dated pieces -/

namespace PatternPiece

/-- The piece is a literal that may stand in a pattern, or a group that calls a part of a date, in
any letter case and without blanks. -/
inductive IsDated : PatternPiece → Prop
  | literal {cs : List Char} (hopen : '{' ∉ cs) (hclose : '}' ∉ cs) (hwildcard : '*' ∉ cs) :
      IsDated (literal cs)
  | part {body : List Char} (p : Placeholder) (hp : p ∈ dateParts)
      (hbody : Text.sameLetters p.key.toList body = true) : IsDated (group body)

/-- The piece with the part of a date in the place of the group that calls it. -/
def write (date : BroadcastDate) : PatternPiece → List Char
  | literal cs => cs
  | group body => ((Placeholder.ofBody? body).map fun p => (p.written date).toList).getD []

variable {date : BroadcastDate} {piece : PatternPiece} {pieces : List PatternPiece}

theorem IsDated.hasNoBrace (hpiece : piece.IsDated) : piece.HasNoBrace := by
  cases hpiece with
  | literal hopen hclose _ => exact ⟨hopen, hclose⟩
  | part p hp hbody => exact (Placeholder.ofBody?_of_sameLetters hp hbody).2

theorem write_group {p : Placeholder} (hp : p ∈ dateParts) {body : List Char}
    (hbody : Text.sameLetters p.key.toList body = true) :
    (group body).write date = (p.written date).toList := by
  rw [write, (Placeholder.ofBody?_of_sameLetters hp hbody).1]
  rfl

/-- A group that calls a part is replaced with the key of this part, and with no other key. -/
theorem put_group {p q : Placeholder} (hp : p ∈ dateParts) (hq : q ∈ dateParts) {body : List Char}
    (hbody : Text.sameLetters p.key.toList body = true) (value : String) :
    (group body).put q.key value = if q = p then literal value.toList else group body := by
  rw [put]
  congr 1
  refine propext ⟨fun hbody' => Placeholder.eq_of_sameLetters hq hp hbody' hbody, ?_⟩
  rintro rfl
  exact hbody

/-- When all parts are put into a piece, it is written. -/
theorem IsDated.put_parts (hpiece : piece.IsDated) :
    ((piece.put "YYYY" date.yearText).put "MM" date.monthText).put "DD" date.dayText =
      PatternPiece.literal (piece.write date) := by
  cases hpiece with
  | literal => rfl
  | part p hp hbody =>
      have hput := fun q hq value => put_group (q := q) hp hq hbody value
      have hyear := hput .year (by decide) date.yearText
      have hmonth := hput .month (by decide) date.monthText
      have hday := hput .day (by decide) date.dayText
      rw [write_group hp hbody]
      simp only [Placeholder.key] at hyear hmonth hday
      simp only [dateParts, List.mem_cons, List.not_mem_nil, or_false] at hp
      rcases hp with rfl | rfl | rfl <;>
        simp [hyear, hmonth, hday, Placeholder.written]

/-- A written part has digits, and nothing else. -/
theorem isDigit_write_group (hyear : 0 ≤ date.year ∧ date.year ≤ 9999) {p : Placeholder}
    (hp : p ∈ dateParts) {body : List Char}
    (hbody : Text.sameLetters p.key.toList body = true) :
    (group body).write date ≠ [] ∧ ∀ c ∈ (group body).write date, c.isDigit = true := by
  obtain ⟨hlength, hdigits, -⟩ := Placeholder.written_eq hyear hp
  rw [write_group hp hbody]
  refine ⟨?_, hdigits⟩
  rw [← List.length_pos_iff, hlength]
  cases p <;> decide

/-- What is written for a piece has no brace. -/
theorem IsDated.write_noBrace (hyear : 0 ≤ date.year ∧ date.year ≤ 9999) (hpiece : piece.IsDated) :
    '{' ∉ piece.write date ∧ '}' ∉ piece.write date := by
  cases hpiece with
  | literal hopen hclose _ => exact ⟨hopen, hclose⟩
  | part p hp hbody =>
      rw [write_group hp hbody]
      exact Placeholder.written_noBrace hyear hp

end PatternPiece

namespace Template

/-- The template is put together from pieces that may stand in a pattern and call parts of a date.
Every part is called, and the template has no blank at either end. -/
structure IsDated (pieces : List PatternPiece) (template : String) : Prop where
  chars : template.toList = pieces.flatMap PatternPiece.chars
  dated : ∀ piece ∈ pieces, piece.IsDated
  parts : ∀ p ∈ dateParts, ∃ body, .group body ∈ pieces ∧
    Text.sameLetters p.key.toList body = true
  trimmed : Text.trim template = template

variable {pieces : List PatternPiece} {template : String} {date : BroadcastDate}

/-! ## Writing the date -/

/-- What begins with no character of a kind still begins with none when pieces of it are replaced by
others that begin with none. -/
theorem head?_flatMap {α : Type} {q : Char → Bool} {f g : α → List Char} {xs : List α}
    (hsame : ∀ x ∈ xs, f x = g x ∨ g x ≠ [] ∧ ∀ c ∈ (g x).head?, q c = false)
    (hhead : ∀ c ∈ (xs.flatMap f).head?, q c = false) :
    ∀ c ∈ (xs.flatMap g).head?, q c = false := by
  induction xs with
  | nil => exact hhead
  | cons x xs ih =>
      obtain ⟨hx, hxs⟩ := List.forall_mem_cons.1 hsame
      rw [List.flatMap_cons, List.head?_append] at hhead ⊢
      rcases hx with hx | ⟨hne, hx⟩
      · rw [hx] at hhead
        rcases hg : (g x).head? with _ | d
        · rw [hg, Option.none_or] at hhead
          exact ih hxs hhead
        · rwa [hg, Option.some_or] at hhead
      · rcases hg : (g x).head? with _ | d
        · exact absurd (List.head?_eq_none_iff.1 hg) hne
        · rw [hg] at hx
          rwa [Option.some_or]

/-- A dated template is as trimmed after a date was written into it as it was before. -/
theorem IsDated.trim_write (htemplate : IsDated pieces template)
    (hyear : 0 ≤ date.year ∧ date.year ≤ 9999) :
    Text.Chars.trim Text.isBlank (pieces.flatMap (PatternPiece.write date)) =
      pieces.flatMap (PatternPiece.write date) := by
  have htrim : Text.Chars.trim Text.isBlank (pieces.flatMap PatternPiece.chars) =
      pieces.flatMap PatternPiece.chars := by
    have hchars := congrArg String.toList htemplate.trimmed
    rwa [Text.trim, Text.trimBy, String.toList_ofList, htemplate.chars] at hchars
  obtain ⟨hfirst, hlast⟩ := Text.Chars.trim_eq_self_iff.1 htrim
  -- a part has digits at both of its ends
  have hends : ∀ piece ∈ pieces, piece.chars = piece.write date ∨
      piece.write date ≠ [] ∧ ∀ c ∈ piece.write date, Text.isBlank c = false := by
    intro piece hpiece
    cases htemplate.dated piece hpiece with
    | literal => exact .inl rfl
    | part p hp hbody =>
        obtain ⟨hne, hdigits⟩ := PatternPiece.isDigit_write_group hyear hp hbody
        refine .inr ⟨hne, fun c hc => ?_⟩
        exact Text.isBlank_of_isDigit (Text.isDigit_of_common (hdigits c hc))
  refine Text.Chars.trim_eq_self_iff.2 ⟨?_, ?_⟩
  · refine head?_flatMap (fun piece hpiece => ?_) hfirst
    refine (hends piece hpiece).imp_right fun h => ⟨h.1, fun c hc => h.2 c ?_⟩
    exact List.mem_of_mem_head? hc
  · rw [← List.head?_reverse, List.reverse_flatMap] at hlast ⊢
    refine head?_flatMap (fun piece hpiece => ?_) hlast
    have hpiece' := hends piece (List.mem_reverse.1 hpiece)
    simp only [Function.comp]
    refine hpiece'.imp (congrArg List.reverse) fun h => ⟨by simpa using h.1, fun c hc => h.2 c ?_⟩
    exact List.mem_reverse.1 (List.mem_of_mem_head? hc)

theorem IsDated.notMem_write (htemplate : IsDated pieces template)
    (hyear : 0 ≤ date.year ∧ date.year ≤ 9999) :
    '{' ∉ pieces.flatMap (PatternPiece.write date) := by
  rw [List.mem_flatMap]
  rintro ⟨piece, hpiece, hmem⟩
  exact ((htemplate.dated piece hpiece).write_noBrace hyear).1 hmem

theorem IsDated.write_ne_nil (htemplate : IsDated pieces template)
    (hyear : 0 ≤ date.year ∧ date.year ≤ 9999) :
    pieces.flatMap (PatternPiece.write date) ≠ [] := by
  obtain ⟨body, hmem, hbody⟩ := htemplate.parts .year (by decide)
  intro hnil
  exact (PatternPiece.isDigit_write_group hyear (by decide) hbody).1
    (List.flatMap_eq_nil_iff.1 hnil _ hmem)

/-- Replacing the key of a part puts the part into each of the pieces. -/
theorem replace_part (hyear : 0 ≤ date.year ∧ date.year ≤ 9999) {p : Placeholder}
    (hp : p ∈ dateParts) (hpieces : ∀ piece ∈ pieces, piece.HasNoBrace) :
    replace p.key (p.written date) (pieces.flatMap PatternPiece.chars) =
        (pieces.map (PatternPiece.put p.key (p.written date))).flatMap PatternPiece.chars ∧
      ∀ piece ∈ pieces.map (PatternPiece.put p.key (p.written date)), piece.HasNoBrace := by
  have hkeys : ∀ p ∈ dateParts, p.key.toList.all (fun k => !Text.sameLetter k '}') = true := by
    decide +kernel
  refine ⟨replace_flatMap (fun k hk => ?_) hpieces, ?_⟩
  · simpa using List.all_eq_true.1 (hkeys p hp) k hk
  · refine List.forall_mem_map.2 fun piece hpiece => ?_
    exact (hpieces piece hpiece).put _ (Placeholder.written_noBrace hyear hp)

/-- Putting the parts of the date in the places of the groups leaves no group for the name of the
show. -/
theorem IsDated.substitute_eq (htemplate : IsDated pieces template)
    (hyear : 0 ≤ date.year ∧ date.year ≤ 9999) (showName : String) :
    substitute showName date template = pieces.flatMap (PatternPiece.write date) := by
  obtain ⟨hyears, hrow⟩ := replace_part hyear (p := .year) (by decide) fun piece hpiece =>
    (htemplate.dated piece hpiece).hasNoBrace
  obtain ⟨hmonths, hrow⟩ := replace_part hyear (p := .month) (by decide) hrow
  obtain ⟨hdays, -⟩ := replace_part hyear (p := .day) (by decide) hrow
  have hwritten : ((pieces.map (PatternPiece.put "YYYY" date.yearText)).map
      (PatternPiece.put "MM" date.monthText)).map (PatternPiece.put "DD" date.dayText) =
        pieces.map fun piece => .literal (piece.write date) := by
    rw [List.map_map, List.map_map]
    refine List.map_congr_left fun piece hpiece => ?_
    rw [Function.comp_apply, Function.comp_apply, (htemplate.dated piece hpiece).put_parts]
  unfold substitute
  simp only [Placeholder.key, Placeholder.written] at hyears hmonths hdays
  dsimp only
  rw [htemplate.chars, hyears, hmonths, hdays, hwritten, List.flatMap_map]
  exact replace_eq_self (htemplate.notMem_write hyear)

/-- **Writing**: a dated template is filled piece by piece. -/
theorem IsDated.fill_eq (htemplate : IsDated pieces template)
    (hyear : 0 ≤ date.year ∧ date.year ≤ 9999) (showName : Option String) (today : BroadcastDate) :
    fill template showName (some date) today =
      String.ofList (pieces.flatMap (PatternPiece.write date)) := by
  unfold fill
  dsimp only
  rw [Option.getD_some, htemplate.substitute_eq hyear,
    dropGroups_eq_self (not_hasGroup_of_notMem (htemplate.notMem_write hyear)),
    htemplate.trim_write hyear]

/-! ## Reading the date -/

end Template

namespace Token

/-- The token is a literal without a wildcard, or calls a part of a date. -/
def IsDated : Token → Prop
  | literal cs => '*' ∉ cs
  | field _ p => p ∈ dateParts

/-- The token with the part of a date in the place of the placeholder. -/
def write (date : BroadcastDate) : Token → List Char
  | literal cs => cs
  | field _ p => (p.written date).toList

variable {date : BroadcastDate} {t : Token}

/-- The length of what is written for a token is the one that is tried first. -/
theorem IsDated.head?_segmentLengths (hyear : 0 ≤ date.year ∧ date.year ≤ 9999) (ht : t.IsDated)
    (ignoreCase : Bool) (rest : List Char) :
    (Pattern.segmentLengths ignoreCase (t.write date ++ rest) t).head? =
      some (t.write date).length := by
  cases t with
  | literal cs =>
      have hfits : (if ignoreCase then Text.sameLetters cs cs else cs == cs) = true := by
        rw [Text.sameLetters_refl, beq_self_eq_true, ite_self]
      rw [write, Pattern.segmentLengths, List.take_left, if_pos hfits, List.head?_cons]
  | field body p => exact Placeholder.head?_wordLengths_written hyear ht rest

end Token

namespace PatternPiece

variable {date : BroadcastDate} {piece : PatternPiece} {pieces : List PatternPiece}

/-- The token is a dated one that is written like the piece and calls the same part. -/
structure IsReadAs (piece : PatternPiece) (t : Token) : Prop where
  dated : t.IsDated
  write : ∀ date, t.write date = piece.write date
  calls : ∀ p ∈ dateParts, ∀ body, piece = group body →
    Text.sameLetters p.key.toList body = true → t.placeholder? = some p

theorem IsDated.exists_token (hpiece : piece.IsDated) :
    ∃ t, piece.token? = .ok t ∧ piece.IsReadAs t := by
  cases hpiece with
  | literal hopen hclose hwildcard =>
      exact ⟨_, rfl, hwildcard, fun _ => rfl, fun p _ body h => by cases h⟩
  | @part body p hp hbody =>
      have hcalls := (Placeholder.ofBody?_of_sameLetters hp hbody).1
      refine ⟨.field (group body).chars p, by rw [token?, hcalls], hp,
        fun date => (write_group hp hbody).symm, ?_⟩
      rintro q hq _ ⟨⟩ hbody'
      exact congrArg some (Placeholder.eq_of_sameLetters hp hq hbody hbody')

/-- Dated pieces are accepted one by one. -/
theorem exists_tokens (hpieces : ∀ piece ∈ pieces, piece.IsDated) :
    ∃ tokens, pieces.mapM token? = .ok tokens ∧ List.Forall₂ IsReadAs pieces tokens := by
  obtain ⟨tokens, htokens⟩ := Outcome.exists_mapM_iff.2 fun piece hpiece =>
    (hpieces piece hpiece).exists_token.imp fun _ h => h.1
  refine ⟨tokens, htokens, ?_⟩
  have hpairs := (List.forall₂_and_left _ _).2 ⟨hpieces, Outcome.mapM_eq_ok_iff.1 htokens⟩
  refine hpairs.imp fun piece t ⟨hpiece, ht⟩ => ?_
  obtain ⟨t', ht', hreadAs⟩ := hpiece.exists_token
  rwa [Except.ok.inj (ht.symm.trans ht')]

/-- What holds of the pieces holds of the tokens that they are read as. -/
theorem of_forall₂_isReadAs {tokens : List Token} (hread : List.Forall₂ IsReadAs pieces tokens) :
    (∀ t ∈ tokens, t.IsDated) ∧
      (∀ date, tokens.flatMap (Token.write date) = pieces.flatMap (write date)) ∧
      ∀ p ∈ dateParts, ∀ body, group body ∈ pieces → Text.sameLetters p.key.toList body = true →
        ∃ t ∈ tokens, t.placeholder? = some p := by
  induction hread with
  | nil => exact ⟨nofun, fun _ => rfl, nofun⟩
  | @cons piece t pieces tokens hpiece _ ih =>
      obtain ⟨hdated, hwrite, hcalls⟩ := ih
      refine ⟨List.forall_mem_cons.2 ⟨hpiece.dated, hdated⟩, fun date => ?_, ?_⟩
      · rw [List.flatMap_cons, List.flatMap_cons, hpiece.write, hwrite]
      · intro p hp body hmem hbody
        rcases List.mem_cons.1 hmem with hfirst | hmem
        · exact ⟨t, List.mem_cons_self, hpiece.calls p hp body hfirst.symm hbody⟩
        · obtain ⟨found, hfound, hcall⟩ := hcalls p hp body hmem hbody
          exact ⟨found, List.mem_cons_of_mem t hfound, hcall⟩

theorem isDated_nil : (PatternPiece.literal []).IsDated :=
  .literal List.not_mem_nil List.not_mem_nil List.not_mem_nil

/-- Literals that follow each other may stand in a pattern as one. -/
theorem isDated_merge (hpieces : ∀ piece ∈ pieces, piece.IsDated) :
    ∀ before : List Char, (PatternPiece.literal before).IsDated →
      ∀ piece ∈ merge before pieces, piece.IsDated := by
  induction pieces with
  | nil =>
      intro before hbefore piece hpiece
      rwa [mem_ofLiteral hpiece]
  | cons first pieces ih =>
      intro before hbefore piece hpiece
      obtain ⟨hfirst, hrest⟩ := List.forall_mem_cons.1 hpieces
      cases first with
      | literal cs =>
          refine ih hrest (before ++ cs) ?_ piece hpiece
          cases hbefore with
          | literal hopen hclose hwildcard =>
              cases hfirst with
              | literal hopen' hclose' hwildcard' =>
                  constructor <;> simp_all
      | group body =>
          rw [merge, List.mem_append, List.mem_cons] at hpiece
          rcases hpiece with hpiece | rfl | hpiece
          · rwa [mem_ofLiteral hpiece]
          · exact hfirst
          · exact ih hrest [] isDated_nil piece hpiece

end PatternPiece

namespace Template

variable {pieces : List PatternPiece} {template : String} {date : BroadcastDate}

/-- **Accepting**: a dated template is accepted as a pattern.  Its tokens are dated, the same is
written for them as for the pieces, and every part is called. -/
theorem IsDated.exists_compile (htemplate : IsDated pieces template) :
    ∃ tokens, Pattern.compile template = .ok ⟨template, tokens⟩ ∧ (∀ t ∈ tokens, t.IsDated) ∧
      (∀ date, tokens.flatMap (Token.write date) = pieces.flatMap (PatternPiece.write date)) ∧
      ∀ p ∈ dateParts, ∃ t ∈ tokens, t.placeholder? = some p := by
  have hmerge : patternPieces template = PatternPiece.merge [] pieces := by
    rw [← patternPieces_flatMap fun piece hpiece => (htemplate.dated piece hpiece).hasNoBrace,
      ← htemplate.chars, String.ofList_toList]
  obtain ⟨tokens, htokens, hread⟩ := PatternPiece.exists_tokens
    (PatternPiece.isDated_merge htemplate.dated [] PatternPiece.isDated_nil)
  obtain ⟨hdated, hwrite, hcalls⟩ := PatternPiece.of_forall₂_isReadAs hread
  have hwildcard : ¬ tokens.any Pattern.hasWildcard = true := by
    rw [List.any_eq_true]
    rintro ⟨_ | _, ht, hstar⟩
    · exact hdated _ ht (List.contains_iff_mem.1 hstar)
    · cases hstar
  refine ⟨tokens, ?_, hdated, fun date => ?_, fun p hp => ?_⟩
  · rw [Pattern.compile, tokenize, hmerge, htokens]
    exact if_neg hwildcard
  · rw [hwrite, PatternPiece.flatMap_merge fun _ => rfl, List.nil_append]
  · obtain ⟨body, hmem, hbody⟩ := htemplate.parts p hp
    exact hcalls p hp body ((PatternPiece.group_mem_merge []).2 hmem) hbody

/-- The matcher finds the parts that were written. -/
theorem match?_write {tokens : List Token} (hyear : 0 ≤ date.year ∧ date.year ≤ 9999)
    (htokens : ∀ t ∈ tokens, t.IsDated) :
    (⟨template, tokens⟩ : Pattern).match? (String.ofList (tokens.flatMap (Token.write date))) =
      some (tokens.map (Token.write date)) := by
  rw [Pattern.match?, String.toList_ofList, List.flatMap_def]
  refine Pattern.segments?_of_preferred (List.forall₂_map_right_iff.2 ?_)
  exact List.forall₂_same.2 fun t ht rest => (htokens t ht).head?_segmentLengths hyear _ rest

end Template

namespace Extraction

variable {date : BroadcastDate} {e : Extraction}

/-- The date is put together from the fields of its parts. -/
theorem date?_of_lookup (hsuccess : e.success = true)
    (hfields : ∀ p ∈ dateParts, e.fields.lookup p.key = some (.number (p.part date))) :
    e.date?.value = .ok (some date) := by
  have hyear := hfields .year (by decide)
  have hmonth := hfields .month (by decide)
  have hday := hfields .day (by decide)
  simp only [Placeholder.part] at hyear hmonth hday
  have hwhole : ∀ n, wholeOf? (.number n) = some n := fun _ => rfl
  have hparts : BroadcastDate.ofParts? date.year date.month date.day = some date := by
    rw [BroadcastDate.ofParts?, dif_pos date.month_range, dif_pos date.day_range]
  have hdate : dateOf? (.number date.year) (.number date.month) (.number date.day) = some date := by
    simp only [dateOf?, hwhole, Option.bind_eq_bind, Option.bind_some, hparts]
  have hlong : yearOf? e.fields = .ok (some (.number date.year)) := by
    rw [yearOf?, hyear]
  simp only [date?, hsuccess, Bool.not_true, hlong, hmonth, hday, hdate]
  rfl

/-- A name that is matched as a whole is read with full confidence. -/
theorem ofName_of_whole {p : Pattern} {name : String} {segments : List (List Char)}
    (hmatch : p.match? name = some segments) (hname : name ≠ "")
    (hwhole : segments.flatten = name.toList) :
    ofName p name = .ok ⟨true, fieldsOf [] (p.tokens.zip segments), 100⟩ := by
  have hpos : 0 < name.length := by
    rw [← String.length_toList, List.length_pos_iff]
    exact fun hnil => hname (String.toList_eq_nil_iff.1 hnil)
  simp only [ofName, hmatch, hwhole, String.length_toList]
  rw [confidenceOf_self hpos, if_neg (by simpa using hname)]
  rfl

end Extraction

namespace Template

variable {pieces : List PatternPiece} {template : String} {date : BroadcastDate}

/-- The fields of a written date hold its parts. -/
theorem lookup_fieldsOf_write {tokens : List Token} (hyear : 0 ≤ date.year ∧ date.year ≤ 9999)
    {p : Placeholder} (hp : p ∈ dateParts) (hcalled : ∃ t ∈ tokens, t.placeholder? = some p) :
    (Extraction.fieldsOf [] (tokens.zip (tokens.map (Token.write date)))).lookup p.key =
      some (.number (p.part date)) := by
  obtain ⟨t, ht, hcall⟩ := hcalled
  have hword : ∃ entry ∈ tokens.map (fun t => (t, t.write date)), entry.1.placeholder? = some p :=
    ⟨_, List.mem_map_of_mem ht, hcall⟩
  obtain ⟨word, hlast⟩ := Extraction.exists_last_word hword
  -- the last word was written from the part, as all words of the placeholder were
  obtain ⟨body, hentry⟩ := hlast.mem
  obtain ⟨_, -, hwritten⟩ := List.mem_map.1 hentry
  obtain ⟨rfl, rfl⟩ := Prod.mk.inj hwritten
  rw [← List.map_prod_left_eq_zip, Extraction.lookup_fieldsOf_last hlast]
  exact congrArg some (Placeholder.ofWord_written hyear hp)

/-- **Writing and reading a date.**  Let a template be made of literals without braces and wildcards
and of groups that call the year, the month and the day, each of them at least once, and have no
blank at either end.  The text that is made by filling in a date, whatever the name of the show, is
read by the template as a pattern: all of it is matched, and the date that is put together from what
is read is the date that was filled in. -/
theorem reads_back_date (htemplate : IsDated pieces template)
    (hyear : 0 ≤ date.year ∧ date.year ≤ 9999) (showName : Option String) (today : BroadcastDate) :
    ∃ p e, Pattern.compile template = .ok p ∧
      Extraction.ofName p (fill template showName (some date) today) = .ok e ∧
      e.success = true ∧ e.confidence = 100 ∧ e.date?.value = .ok (some date) := by
  obtain ⟨tokens, hcompile, hdated, hwrite, hcalls⟩ := htemplate.exists_compile
  refine ⟨⟨template, tokens⟩,
    ⟨true, Extraction.fieldsOf [] (tokens.zip (tokens.map (Token.write date))), 100⟩, hcompile, ?_,
    rfl, rfl, ?_⟩
  · rw [htemplate.fill_eq hyear, ← hwrite]
    refine Extraction.ofName_of_whole (match?_write hyear hdated) (fun hempty => ?_) ?_
    · have hnil := String.toList_eq_nil_iff.2 hempty
      rw [String.toList_ofList, hwrite] at hnil
      exact htemplate.write_ne_nil hyear hnil
    · rw [String.toList_ofList, List.flatMap_def]
  · exact Extraction.date?_of_lookup rfl fun p hp => lookup_fieldsOf_write hyear hp (hcalls p hp)

/-- A template in which digits and parts stand next to each other, and a day is called twice. -/
def adjacentPieces : List PatternPiece :=
  [.literal ['1'], .group "dd".toList, .group "Mm".toList, .group "YYYY".toList, .literal ['7'],
    .group "DD".toList]

theorem isDated_adjacentPieces : IsDated adjacentPieces "1{dd}{Mm}{YYYY}7{DD}" where
  chars := by decide +kernel
  dated := by
    have hpart := fun p hp body hbody => @PatternPiece.IsDated.part body p hp hbody
    simp only [adjacentPieces, List.forall_mem_cons]
    refine ⟨.literal (by decide) (by decide) (by decide), hpart .day (by decide) _ ?_,
      hpart .month (by decide) _ ?_, hpart .year (by decide) _ ?_,
      .literal (by decide) (by decide) (by decide), hpart .day (by decide) _ ?_, nofun⟩ <;>
    decide +kernel
  parts := by
    simp only [dateParts, List.forall_mem_cons]
    refine ⟨⟨"YYYY".toList, by decide, ?_⟩, ⟨"Mm".toList, by decide, ?_⟩,
      ⟨"dd".toList, by decide, ?_⟩, nofun⟩ <;>
    decide +kernel
  trimmed := by decide +kernel

theorem adjacent_reads_back :
    fill "1{dd}{Mm}{YYYY}7{DD}" none (some ⟨2024, 6, 9, by decide, by decide⟩) .first =
        "109062024709" ∧
      ∃ p e, Pattern.compile "1{dd}{Mm}{YYYY}7{DD}" = .ok p ∧
        Extraction.ofName p "109062024709" = .ok e ∧
        e.date?.value = .ok (some ⟨2024, 6, 9, by decide, by decide⟩) := by
  have hfill : fill "1{dd}{Mm}{YYYY}7{DD}" none (some ⟨2024, 6, 9, by decide, by decide⟩) .first =
      "109062024709" := by decide +kernel
  obtain ⟨p, e, hcompile, hread, -, -, hdate⟩ := @reads_back_date adjacentPieces _
    ⟨2024, 6, 9, by decide, by decide⟩ isDated_adjacentPieces (by decide) none .first
  rw [hfill] at hread
  exact ⟨hfill, p, e, hcompile, hread, hdate⟩

end Template

end BroadcastIntake
