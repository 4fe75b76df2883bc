import BroadcastIntake.Extraction
import BroadcastIntake.Plan
import BroadcastIntake.Proofs.Members
import BroadcastIntake.Proofs.Number.Digits
import BroadcastIntake.Proofs.Pattern.Cut
import BroadcastIntake.Proofs.Outcome

/-!
# What is extracted from a file name

The years, months and days in a file name have at most four digits, no field is extracted twice, and
no more of a name is matched than there is.  `InRange` collects these bounds; every extraction that
is read from a name has them, and so has the extraction of every plan.
-/

namespace BroadcastIntake

open Outcome (bind_eq_ok_iff pure_eq_ok_iff)

namespace Extraction

/-- The bounds of an extraction from a file name. -/
structure InRange (e : Extraction) : Prop where
  confidence : 0 ≤ e.confidence ∧ e.confidence ≤ 100
  number : ∀ key n, (key, FieldValue.number n) ∈ e.fields → 0 ≤ n ∧ n < 10000
  keys : (e.fields.map Prod.fst).Nodup

theorem inRange_failed : InRange failed where
  confidence := by decide
  number := by
    intro key n hmem
    cases hmem
  keys := List.nodup_nil

/-! ## Fields -/

/-- A word with a value in numbers has at most four digits. -/
theorem length_le_of_ofWord {p : Placeholder} {word : List Char} (hword : p.isWord word = true)
    {n : Int} (hn : FieldValue.ofWord p word = .number n) :
    n = Text.digitsValue word ∧ word.length ≤ 4 := by
  cases p with
  | year | shortYear | month | day =>
      refine ⟨(FieldValue.number.inj hn).symm, ?_⟩
      simp only [Placeholder.isWord, Bool.and_eq_true, Bool.or_eq_true, decide_eq_true_eq] at hword
      omega
  | _ => cases hn

theorem number_lt {p : Placeholder} {word : List Char} (hword : p.isWord word = true) {n : Int}
    (hn : FieldValue.ofWord p word = .number n) : 0 ≤ n ∧ n < 10000 := by
  obtain ⟨rfl, hlength⟩ := length_le_of_ofWord hword hn
  have hvalue : Text.digitsValue word < 10 ^ 4 :=
    Nat.lt_of_lt_of_le (Text.digitsValue_lt word) (Nat.pow_le_pow_right (by decide) hlength)
  omega

/-- Reading the segments one by one keeps the bounds of the fields. -/
theorem fieldsOf_bounds {ignoreCase : Bool} (entries : List (Token × List Char)) :
    ∀ fields : Fields, (∀ entry ∈ entries, Pattern.Fits ignoreCase entry.1 entry.2) →
      (∀ key n, (key, FieldValue.number n) ∈ fields → 0 ≤ n ∧ n < 10000) →
      (fields.map Prod.fst).Nodup →
      (∀ key n, (key, FieldValue.number n) ∈ fieldsOf fields entries → 0 ≤ n ∧ n < 10000) ∧
        ((fieldsOf fields entries).map Prod.fst).Nodup := by
  induction entries with
  | nil => exact fun _ _ hnumber hkeys => ⟨hnumber, hkeys⟩
  | cons entry rest ih =>
      intro fields hfits hnumber hkeys
      have hrest : ∀ other ∈ rest, Pattern.Fits ignoreCase other.1 other.2 :=
        fun other hother => hfits other (List.mem_cons_of_mem entry hother)
      obtain ⟨_ | ⟨body, p⟩, word⟩ := entry
      · exact ih fields hrest hnumber hkeys
      · have hword : p.isWord word = true := hfits _ List.mem_cons_self
        refine ih _ hrest ?_ (Json.nodup_keys_put hkeys _)
        intro key n hmem
        rcases Json.mem_put hmem with hset | hold
        · exact number_lt hword (Prod.mk.inj hset).2.symm
        · exact hnumber key n hold

/-! ## Names -/

/-- No more than all of a name is matched. -/
theorem confidenceOf_le {matched total : Nat} (hmatched : matched ≤ total) (htotal : 0 < total) :
    confidenceOf matched total ≤ 100 := by
  have hround := (two_mul_divideToNearest_mul_near (100 * matched) total htotal).1
  unfold confidenceOf
  refine Decidable.byContradiction fun hmore => ?_
  have hlarge : 101 * total ≤ divideToNearest (100 * matched) total * total :=
    Nat.mul_le_mul_right total (Nat.not_le.1 hmore)
  omega

theorem validate_eq_ok {e e' : Extraction} (hvalid : e.validate = .ok e') : e' = e := by
  unfold validate at hvalid
  split at hvalid
  · exact (Except.ok.inj hvalid).symm
  · cases hvalid

/-- What is read from a name: nothing, or the fields of the segments that the matcher finds. -/
theorem ofName_cases {p : Pattern} {name : String} {e : Extraction}
    (hread : ofName p name = .ok e) :
    e = failed ∨ ∃ segments, p.match? name = some segments ∧ name ≠ "" ∧
      e = { success := true
            fields := fieldsOf [] (p.tokens.zip segments)
            confidence := confidenceOf segments.flatten.length name.length } := by
  unfold ofName at hread
  split at hread
  · exact .inl (Except.ok.inj hread).symm
  · rename_i segments hsegments
    split at hread
    · exact .inl (Except.ok.inj hread).symm
    · rename_i hname
      refine .inr ⟨segments, hsegments, ?_, validate_eq_ok hread⟩
      rintro rfl
      exact hname rfl

theorem ofName_inRange {p : Pattern} {name : String} {e : Extraction}
    (hread : ofName p name = .ok e) : InRange e := by
  rcases ofName_cases hread with rfl | ⟨segments, hsegments, hname, rfl⟩
  · exact inRange_failed
  have hcut := Pattern.cut_of_segments? hsegments
  have hpos : 0 < name.length := by
    rw [← String.length_toList, List.length_pos_iff]
    exact fun hnil => hname (String.toList_eq_nil_iff.1 hnil)
  -- the segments are cut out of the name, one after the other
  have hmatched : segments.flatten.length ≤ name.length := by
    rw [← String.length_toList]
    exact hcut.length_flatten_le
  obtain ⟨hnumber, hkeys⟩ := fieldsOf_bounds (p.tokens.zip segments) []
    hcut.fits_of_mem_zip inRange_failed.number List.nodup_nil
  refine ⟨⟨Int.natCast_nonneg _, ?_⟩, hnumber, hkeys⟩
  exact Int.ofNat_le.2 (confidenceOf_le hmatched hpos)

theorem ofPath_inRange {p : Pattern} {path : Path} {e : Extraction}
    (hread : ofPath p path = .ok e) : InRange e := by
  obtain ⟨whole, hwhole, hread⟩ := bind_eq_ok_iff.1 hread
  split at hread
  · exact ofName_inRange hread
  · obtain rfl := pure_eq_ok_iff.1 hread
    exact ofName_inRange hwhole

end Extraction

namespace Plan

theorem extractionBy_inRange {source : Path} {pattern : Option FilePattern}
    {extraction : Option Extraction} (hread : extractionBy source pattern = .ok extraction) :
    ∀ e, extraction = some e → e.InRange := by
  unfold extractionBy at hread
  rintro e rfl
  split at hread
  · cases Except.ok.inj hread
  · split at hread
    · rename_i hpath
      obtain rfl := Option.some.inj (Except.ok.inj hread)
      exact Extraction.ofPath_inRange hpath
    · cases hread

theorem value_dateIn {e : Extraction} {date : Option BroadcastDate}
    (hdate : e.date?.value = .ok date) : (dateIn (some e)).value = .ok date := by
  simp only [dateIn, Logged.value_bind, hdate]
  rfl

/-- A file is planned by the pattern for it: its name is read, and the date that was read is put
together. -/
theorem value_ofFile (source : Path) (profile : ShowProfile) (settings : Settings)
    (asked : Option Path) (today : BroadcastDate) :
    (ofFile source profile settings asked today).value =
      (extractionBy source (patternFor source profile).value).bind fun extraction =>
        (dateIn extraction).value.bind fun date =>
          .ok (ofReading source profile settings asked today (patternFor source profile).value
            extraction date) := by
  unfold ofFile
  rw [Logged.value_bind]
  rcases extractionBy source (patternFor source profile).value with crash | extraction
  · rfl
  · simp only [Logged.value_bind, Except.bind]
    rcases (dateIn extraction).value with crash | date <;> rfl

theorem ofFile_eq_ok_iff {source : Path} {profile : ShowProfile} {settings : Settings}
    {asked : Option Path} {today : BroadcastDate} {plan : Plan} :
    (ofFile source profile settings asked today).value = .ok plan ↔
      ∃ extraction, extractionBy source (patternFor source profile).value = .ok extraction ∧
        ∃ date, (dateIn extraction).value = .ok date ∧
          ofReading source profile settings asked today (patternFor source profile).value
            extraction date = plan := by
  rw [value_ofFile]
  refine bind_eq_ok_iff.trans (exists_congr fun extraction => and_congr_right fun _ => ?_)
  exact bind_eq_ok_iff.trans (by simp only [Except.ok.injEq])

/-- A plan is for its file, and what it has extracted is within the bounds. -/
theorem ofFile_eq_ok {source : Path} {profile : ShowProfile} {settings : Settings}
    {asked : Option Path} {today : BroadcastDate} {plan : Plan}
    (hplan : (ofFile source profile settings asked today).value = .ok plan) :
    plan.source = source ∧ ∀ e, plan.extraction = some e → e.InRange := by
  obtain ⟨extraction, hextraction, date, -, rfl⟩ := ofFile_eq_ok_iff.1 hplan
  exact ⟨rfl, extractionBy_inRange hextraction⟩

end Plan

end BroadcastIntake
