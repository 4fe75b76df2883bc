import BroadcastIntake.FilterChain
import BroadcastIntake.Proofs.Number.Nearest
import Mathlib.Tactic.FieldSimp

/-!
# Seconds as filter arguments

A finite number stands in a filter argument as a plain decimal: a sign, digits, and perhaps a point
and digits after it.  The decimal is the nearest whole number of thousandths, without the zeros at
its end (`exists_formatSeconds_eq`).  So it is at most half a thousandth away from the number
(`abs_thousandths_sub_le`), and it is zero for a positive number of no more than half a thousandth
(`thousandths_pos_iff`).
-/

namespace BroadcastIntake

open Text

/-! ## Plain decimals -/

namespace Text

/-- The exact number that digits before and after a point write. -/
def pointedValue (whole fraction : List Char) : ℚ :=
  (digitsValue (whole ++ fraction) : ℚ) / 10 ^ fraction.length

/-- Reads digits, and perhaps a point and digits after it, as the exact number. -/
def plainSize? (cs : List Char) : Option ℚ :=
  let whole := cs.takeWhile Char.isDigit
  match cs.dropWhile Char.isDigit with
  | [] => if whole = [] then none else some (pointedValue whole [])
  | '.' :: fraction =>
    if whole = [] || fraction = [] || !fraction.all Char.isDigit then none
    else some (pointedValue whole fraction)
  | _ => none

/-- Reads a plain decimal as the exact number. -/
def plainNumber? (s : String) : Option ℚ :=
  match s.toList with
  | '-' :: cs => (plainSize? cs).map (-·)
  | cs => plainSize? cs

end Text

/-- A number written as a sign, digits, and perhaps a point and digits after it. -/
structure PlainNumber where
  negative : Bool
  whole : List Char
  fraction : List Char
  whole_ne_nil : whole ≠ []
  areDigits_whole : AreDigits whole
  areDigits_fraction : AreDigits fraction

namespace PlainNumber

variable (p : PlainNumber)

/-- The characters without the sign. -/
def sizeChars : List Char :=
  p.whole ++ if p.fraction = [] then [] else '.' :: p.fraction

def chars : List Char :=
  if p.negative then '-' :: p.sizeChars else p.sizeChars

/-- The exact number that is written. -/
def value : ℚ :=
  if p.negative then -pointedValue p.whole p.fraction else pointedValue p.whole p.fraction

theorem exists_sizeChars_eq_cons : ∃ c rest, p.sizeChars = c :: rest ∧ c.isDigit = true := by
  obtain ⟨c, rest, hwhole⟩ := List.exists_cons_of_ne_nil p.whole_ne_nil
  have hc : c ∈ p.whole := hwhole ▸ List.mem_cons_self
  refine ⟨c, rest ++ if p.fraction = [] then [] else '.' :: p.fraction, ?_,
    p.areDigits_whole c hc⟩
  rw [sizeChars, hwhole]
  rfl

variable {p} in
theorem mem_chars {c : Char} (hc : c ∈ p.chars) : c = '-' ∨ c = '.' ∨ c.isDigit = true := by
  have hsize : c ∈ p.sizeChars → c = '.' ∨ c.isDigit = true := by
    intro hmem
    rcases List.mem_append.1 hmem with hwhole | hrest
    · exact .inr (p.areDigits_whole c hwhole)
    · split at hrest
      · cases hrest
      · rcases List.mem_cons.1 hrest with rfl | hfraction
        · exact .inl rfl
        · exact .inr (p.areDigits_fraction c hfraction)
  unfold chars at hc
  split at hc
  · rcases List.mem_cons.1 hc with rfl | hc
    · exact .inl rfl
    · exact .inr (hsize hc)
  · exact .inr (hsize hc)

theorem plainSize?_sizeChars : plainSize? p.sizeChars = some (pointedValue p.whole p.fraction) := by
  have hwhole := p.whole_ne_nil
  -- the digits before the point are all of those at the start
  have hstart : ∀ rest : List Char, (∀ c ∈ rest.head?, c.isDigit = false) →
      (p.whole ++ rest).takeWhile Char.isDigit = p.whole ∧
        (p.whole ++ rest).dropWhile Char.isDigit = rest := by
    intro rest hrest
    rw [List.takeWhile_append_of_pos p.areDigits_whole,
      List.dropWhile_append_of_pos p.areDigits_whole]
    cases rest with
    | nil => simp
    | cons c rest => simp [hrest c rfl]
  unfold sizeChars plainSize?
  by_cases hfraction : p.fraction = []
  · obtain ⟨htake, hdrop⟩ := hstart [] nofun
    rw [if_pos hfraction, htake, hdrop, hfraction]
    simp [hwhole]
  · obtain ⟨htake, hdrop⟩ := hstart ('.' :: p.fraction) (by rintro c ⟨⟩; rfl)
    have hall : p.fraction.all Char.isDigit = true := List.all_eq_true.2 p.areDigits_fraction
    rw [if_neg hfraction, htake, hdrop]
    simp [hwhole, hfraction, hall]

/-- A plain decimal is read as the number that it writes. -/
theorem plainNumber?_chars : plainNumber? (String.ofList p.chars) = some p.value := by
  have hsize := p.plainSize?_sizeChars
  unfold plainNumber? chars value
  rw [String.toList_ofList]
  cases p.negative with
  | true => simp [hsize]
  | false =>
      obtain ⟨c, rest, hcons, hdigit⟩ := p.exists_sizeChars_eq_cons
      simp only [Bool.false_eq_true, if_false]
      rw [hcons] at hsize ⊢
      split
      · rename_i hminus
        obtain ⟨rfl, -⟩ := List.cons.inj hminus
        cases hdigit
      · exact hsize

end PlainNumber

/-! ## Thousandths -/

theorem divideToNearest_pos_iff (num : Nat) {den : Nat} (hden : 0 < den) :
    0 < divideToNearest num den ↔ den < 2 * num := by
  have hdiv := Nat.div_add_mod num den
  have hmod := Nat.mod_lt num hden
  rcases Nat.eq_zero_or_pos (num / den) with hzero | hpos
  · rw [hzero, Nat.mul_zero, Nat.zero_add] at hdiv
    unfold divideToNearest
    rw [hzero, hdiv]
    dsimp only
    by_cases hdown : 2 * num < den
    · rw [if_pos hdown]
      omega
    · by_cases hup : den < 2 * num
      · rw [if_neg hdown, if_pos hup]
        omega
      · rw [if_neg hdown, if_neg hup]
        exact iff_of_false (by decide) hup
  · have hquotient : den ≤ den * (num / den) := Nat.le_mul_of_pos_right den hpos
    rcases Binary64.divideToNearest_cases num den with h | h <;> omega

namespace Binary64

variable {x : Binary64}

/-- The nearest whole number of thousandths of a finite number, and zero for the others. -/
def thousandths : Binary64 → Int
  | finite negative quanta =>
    let size : Int := divideToNearest (quanta * 1000) quantaPerOne
    if negative then -size else size
  | _ => 0

theorem thousandths_finite_false (quanta : Nat) :
    (finite false quanta).thousandths = (divideToNearest (quanta * 1000) quantaPerOne : Int) :=
  rfl

theorem thousandths_finite_true (quanta : Nat) :
    (finite true quanta).thousandths = -(divideToNearest (quanta * 1000) quantaPerOne : Int) :=
  rfl

/-- How far a finite number is from its nearest number of thousandths. -/
theorem abs_thousandths_sub (negative : Bool) (quanta : Nat) :
    |((finite negative quanta).thousandths : ℚ) / 1000 - (finite negative quanta).toRat| =
      (countDistance (divideToNearest (quanta * 1000) quantaPerOne * quantaPerOne)
        (quanta * 1000) : ℚ) / (1000 * quantaPerOne) := by
  have hdifference : ∀ {unit : ℚ} (n : Nat), 0 < unit →
      |(n : ℚ) / 1000 - quanta / unit| = |n * unit - quanta * 1000| / (1000 * unit) := by
    intro unit n hunit
    have hthousand : 0 < 1000 * unit := by linarith
    calc |(n : ℚ) / 1000 - quanta / unit| = |(n * unit - quanta * 1000) / (1000 * unit)| := by
          rw [div_sub_div _ _ (by norm_num) hunit.ne', mul_comm (1000 : ℚ) (quanta : ℚ)]
      _ = |n * unit - quanta * 1000| / (1000 * unit) := by rw [abs_div, abs_of_pos hthousand]
  have hsize := hdifference (divideToNearest (quanta * 1000) quantaPerOne) quantaPerOne_pos_rat
  rw [cast_countDistance]
  push_cast
  cases negative with
  | false => rwa [thousandths_finite_false, toRat_finite_false, Int.cast_natCast]
  | true =>
      rwa [thousandths_finite_true, toRat_finite_true, Int.cast_neg, Int.cast_natCast, neg_div,
        ← neg_sub', abs_neg]

/-- The nearest number of thousandths is at most half a thousandth away. -/
theorem abs_thousandths_sub_le (hx : x.isFinite = true) :
    |(x.thousandths : ℚ) / 1000 - x.toRat| ≤ 1 / 2000 := by
  obtain ⟨negative, quanta, rfl⟩ := exists_finite hx
  have hunit := quantaPerOne_pos_rat
  have hhalf := two_mul_dist_divideToNearest_le (quanta * 1000) quantaPerOne_pos
  rw [abs_thousandths_sub, div_le_div_iff₀ (by linarith) (by norm_num)]
  generalize countDistance _ _ = distance at hhalf ⊢
  have hcast : 2 * (distance : ℚ) ≤ quantaPerOne := by exact_mod_cast hhalf
  linarith

/-- When it is just half a thousandth away, two numbers of thousandths are nearest, and the even one
is taken. -/
theorem even_thousandths (hx : x.isFinite = true)
    (hhalf : |(x.thousandths : ℚ) / 1000 - x.toRat| = 1 / 2000) : Even x.thousandths := by
  obtain ⟨negative, quanta, rfl⟩ := exists_finite hx
  have hunit := quantaPerOne_pos_rat
  rw [abs_thousandths_sub, div_eq_div_iff (by linarith) (by norm_num)] at hhalf
  have heven : Even (divideToNearest (quanta * 1000) quantaPerOne) := by
    apply even_divideToNearest quantaPerOne_pos
    generalize countDistance _ _ = distance at hhalf ⊢
    have hcast : 2 * (distance : ℚ) = quantaPerOne := by linarith
    exact_mod_cast hcast
  cases negative with
  | false =>
      rw [thousandths_finite_false]
      exact heven.natCast
  | true =>
      rw [thousandths_finite_true]
      exact heven.natCast.neg

/-- Only a number of more than half a thousandth has a positive nearest number of thousandths. -/
theorem thousandths_pos_iff (hx : x.isFinite = true) : 0 < x.thousandths ↔ 1 / 2000 < x.toRat := by
  obtain ⟨negative, quanta, rfl⟩ := exists_finite hx
  have hunit := quantaPerOne_pos_rat
  cases negative with
  | true =>
      have hnonneg : 0 ≤ (quanta : ℚ) / quantaPerOne := div_nonneg (Nat.cast_nonneg _) hunit.le
      refine iff_of_false ?_ ?_
      · rw [thousandths_finite_true, not_lt]
        exact Int.neg_nonpos_of_nonneg (Int.natCast_nonneg _)
      · rw [toRat_finite_true]
        linarith
  | false =>
      have hpos := divideToNearest_pos_iff (quanta * 1000) quantaPerOne_pos
      have hcast : quantaPerOne < 2 * (quanta * 1000) ↔
          (quantaPerOne : ℚ) < 2 * (quanta * 1000) := by
        exact_mod_cast Iff.rfl
      rw [toRat_finite_false, thousandths_finite_false, Int.natCast_pos, hpos, hcast,
        div_lt_div_iff₀ (by norm_num) hunit]
      constructor <;> intro h <;> linarith

end Binary64

/-! ## The text of a number of seconds -/

/-- The decimal writes a number of thousandths, without zeros at the end. -/
structure WritesThousandths (p : PlainNumber) (n : Int) : Prop where
  value : p.value = n / 1000
  places : p.fraction.length ≤ 3
  stripped : ∀ c ∈ p.fraction.getLast?, c ≠ '0'

namespace Binary64

theorem exists_withPoint_eq (places n : Nat) :
    ∃ whole fraction, withPoint places n = whole ++ '.' :: fraction ∧ whole ≠ [] ∧
      AreDigits whole ∧ AreDigits fraction ∧ fraction.length = places ∧
      digitsValue (whole ++ fraction) = n := by
  have hdigits : AreDigits
      (List.replicate (places + 1 - (natDigits n).length) '0' ++ natDigits n) :=
    (areDigits_replicate _).append (areDigits_natDigits n)
  have hvalue : digitsValue
      (List.replicate (places + 1 - (natDigits n).length) '0' ++ natDigits n) = n := by
    rw [digitsValue_append, digitsValue_replicate, digitsValue_natDigits, Nat.zero_mul,
      Nat.zero_add]
  have hlength : places + 1 ≤
      (List.replicate (places + 1 - (natDigits n).length) '0' ++ natDigits n).length := by
    rw [List.length_append, List.length_replicate]
    omega
  unfold withPoint
  dsimp only
  generalize List.replicate (places + 1 - (natDigits n).length) '0' ++ natDigits n = filled
    at hdigits hvalue hlength ⊢
  refine ⟨filled.take (filled.length - places), filled.drop (filled.length - places), rfl, ?_,
    hdigits.of_subset fun _ => List.mem_of_mem_take,
    hdigits.of_subset fun _ => List.mem_of_mem_drop, ?_, ?_⟩
  · intro hnil
    have hzero := congrArg List.length hnil
    rw [List.length_take, List.length_nil] at hzero
    omega
  · rw [List.length_drop]
    omega
  · rw [List.take_append_drop, hvalue]

end Binary64

/-- Zeros at the end of the digits after the point do not count. -/
theorem pointedValue_replicate (whole fraction : List Char) (n : Nat) :
    pointedValue whole (fraction ++ List.replicate n '0') = pointedValue whole fraction := by
  unfold pointedValue
  rw [← List.append_assoc, digitsValue_append, digitsValue_replicate, List.length_append,
    List.length_replicate, pow_add]
  push_cast
  field_simp
  simp

/-- No point is trimmed after a digit. -/
theorem trimRight_point_of_areDigits (before : List Char) {digits : List Char} (hne : digits ≠ [])
    (hdigits : AreDigits digits) :
    Chars.trimRight (· = '.') (before ++ digits) = before ++ digits := by
  refine Chars.trimRight_eq_self_iff.2 fun c hc => ?_
  rw [List.getLast?_append_of_ne_nil before hne] at hc
  have hdigit := hdigits c (List.mem_of_getLast? hc)
  simp only [decide_eq_false_iff_not]
  rintro rfl
  cases hdigit

/-- Without the zeros at its end, and without the point when nothing is left after it, a decimal
writes the same number. -/
theorem exists_chars_eq_trimmed (negative : Bool) {whole fraction : List Char} (hne : whole ≠ [])
    (hwhole : AreDigits whole) (hfraction : AreDigits fraction) :
    ∃ p : PlainNumber,
      Chars.trimRight (· = '.') (Chars.trimRight (· = '0')
        (if negative then '-' :: (whole ++ '.' :: fraction) else whole ++ '.' :: fraction)) =
        p.chars ∧
      p.value = (if negative then -pointedValue whole fraction else pointedValue whole fraction) ∧
      p.fraction.length ≤ fraction.length ∧ ∀ c ∈ p.fraction.getLast?, c ≠ '0' := by
  have hsign : ∀ cs : List Char,
      (if negative then '-' :: cs else cs) = (if negative then ['-'] else []) ++ cs := by
    cases negative <;> simp
  obtain ⟨n, hzeros⟩ := Chars.exists_eq_trimRight_append '0' fraction
  have hlast : ∀ c ∈ (Chars.trimRight (· = '0') fraction).getLast?, c ≠ '0' := by
    intro c hc
    simpa using Chars.getLast?_trimRight hc
  have htrim : Chars.trimRight (· = '0')
      (if negative then '-' :: (whole ++ '.' :: fraction) else whole ++ '.' :: fraction) =
      ((if negative then ['-'] else []) ++ whole) ++ '.' :: Chars.trimRight (· = '0') fraction := by
    rw [hsign, ← List.append_assoc, Chars.trimRight_append_cons (by decide)]
  rw [htrim]
  generalize Chars.trimRight (· = '0') fraction = kept at hzeros hlast
  subst hzeros
  have hkept : AreDigits kept := hfraction.of_subset fun _ => List.mem_append_left _
  rw [pointedValue_replicate]
  refine ⟨⟨negative, whole, kept, hne, hwhole, hkept⟩, ?_, rfl, by simp, hlast⟩
  unfold PlainNumber.chars PlainNumber.sizeChars
  dsimp only
  by_cases hnil : kept = []
  · subst hnil
    rw [Chars.trimRight_concat (by decide), trimRight_point_of_areDigits _ hne hwhole, if_pos rfl,
      List.append_nil]
    exact (hsign _).symm
  · rw [List.append_cons, trimRight_point_of_areDigits _ hnil hkept, if_neg hnil, List.append_assoc,
      List.append_assoc, List.singleton_append]
    exact (hsign _).symm

/-- A whole number is a plain decimal without a fraction. -/
theorem exists_intText_eq (n : Int) :
    ∃ p : PlainNumber, intText n = String.ofList p.chars ∧ WritesThousandths p (n * 1000) := by
  refine ⟨⟨decide (n < 0), natDigits n.natAbs, [], natDigits_ne_nil _, areDigits_natDigits _,
    nofun⟩, ?_, ?_, by simp, nofun⟩
  · rw [← String.ofList_toList (s := intText n), toList_intText]
    simp [PlainNumber.chars, PlainNumber.sizeChars]
  · have hsigned : (if decide (n < 0) then -((n.natAbs : Nat) : ℚ) else (n.natAbs : Nat)) = n := by
      rw [← congrArg (Int.cast : Int → ℚ) (signed_natAbs n)]
      split <;> simp
    simp only [PlainNumber.value, pointedValue, List.append_nil, digitsValue_natDigits,
      List.length_nil, pow_zero, div_one, hsigned]
    push_cast
    rw [mul_div_cancel_right₀ _ (by norm_num)]

theorem thousandths_of_isWhole {x : Binary64} (hx : x.isWhole = true) :
    x.thousandths = x.truncate * 1000 := by
  cases x with
  | finite negative quanta =>
      have hmod : quanta % Binary64.quantaPerOne = 0 := by simpa [Binary64.isWhole] using hx
      obtain ⟨k, hk⟩ := Nat.dvd_of_mod_eq_zero hmod
      rw [hk]
      have hrounded : divideToNearest (Binary64.quantaPerOne * k * 1000) Binary64.quantaPerOne =
          k * 1000 := by
        rw [Nat.mul_assoc, Nat.mul_comm]
        exact divideToNearest_mul_self _ _ Binary64.quantaPerOne_pos
      have hunit : (Binary64.quantaPerOne : Int) ≠ 0 :=
        Int.natCast_ne_zero.2 (Nat.ne_of_gt Binary64.quantaPerOne_pos)
      cases negative with
      | false =>
          rw [Binary64.thousandths_finite_false, hrounded, Binary64.truncate, Binary64.signedQuanta,
            Int.natCast_mul, Int.natCast_mul, Int.mul_tdiv_cancel_left _ hunit]
          rfl
      | true =>
          rw [Binary64.thousandths_finite_true, hrounded, Binary64.truncate, Binary64.signedQuanta,
            Int.natCast_mul, Int.natCast_mul, Int.neg_tdiv, Int.mul_tdiv_cancel_left _ hunit,
            Int.neg_mul]
          rfl
  | _ => cases hx

/-- **Seconds** stand in a filter argument as the nearest number of thousandths, without zeros at
the end. -/
theorem exists_formatSeconds_eq {x : Binary64} (hx : x.isFinite = true) :
    ∃ p : PlainNumber, formatSeconds x = String.ofList p.chars ∧
      WritesThousandths p x.thousandths := by
  obtain ⟨negative, quanta, rfl⟩ := Binary64.exists_finite hx
  by_cases hwhole : (Binary64.finite negative quanta).isWhole = true
  · rw [formatSeconds, if_pos hwhole, thousandths_of_isWhole hwhole]
    exact exists_intText_eq _
  · obtain ⟨whole, fraction, hpoint, hne, hdigits, hfraction, hlength, hvalue⟩ :=
      Binary64.exists_withPoint_eq 3 (divideToNearest (quanta * 1000) Binary64.quantaPerOne)
    obtain ⟨p, hchars, hp, hplaces, hstripped⟩ :=
      exists_chars_eq_trimmed negative hne hdigits hfraction
    refine ⟨p, ?_, ?_, hlength ▸ hplaces, hstripped⟩
    · unfold formatSeconds
      rw [if_neg hwhole, if_pos hx, Text.trimRightBy, Text.trimRightBy, String.toList_ofList,
        ← hchars, Binary64.fixedText, String.toList_ofList, ← hpoint]
    · have hthousand : (10 : ℚ) ^ 3 = 1000 := by norm_num
      rw [hp, pointedValue, hvalue, hlength, hthousand]
      cases negative with
      | false =>
          rw [if_neg Bool.false_ne_true, Binary64.thousandths_finite_false, Int.cast_natCast]
      | true =>
          rw [if_pos rfl, Binary64.thousandths_finite_true, Int.cast_neg, Int.cast_natCast, neg_div]

theorem plainNumber?_formatSeconds {x : Binary64} (hx : x.isFinite = true) :
    plainNumber? (formatSeconds x) = some ((x.thousandths : ℚ) / 1000) := by
  obtain ⟨p, hp, hwrites⟩ := exists_formatSeconds_eq hx
  rw [hp, p.plainNumber?_chars, hwrites.value]

/-! ## The text as a part of an argument -/

/-- The characters that separate the parts of a filter argument. -/
def separators : List Char :=
  [',', ':', '=']

theorem forall_separators {p : Char → Prop} :
    (∀ c ∈ separators, p c) ↔ p ',' ∧ p ':' ∧ p '=' := by
  simp [separators]

/-- The words for what is no finite number. -/
def nonFiniteWords : List String :=
  ["nan", "inf", "-inf"]

theorem formatSeconds_mem_nonFiniteWords {x : Binary64} :
    formatSeconds x ∈ nonFiniteWords ↔ x.isFinite = false := by
  cases x with
  | nan => decide
  | infinity negative => cases negative <;> decide
  | finite negative quanta =>
      refine iff_of_false (fun hmem => ?_) nofun
      -- each of the words has an `n`, which is no character of a plain decimal
      have hletter : ∀ word ∈ nonFiniteWords, 'n' ∈ word.toList := by decide
      obtain ⟨p, hp, -⟩ := exists_formatSeconds_eq (x := .finite negative quanta) rfl
      have hn := hletter _ hmem
      rw [hp, String.toList_ofList] at hn
      rcases PlainNumber.mem_chars hn with h | h | h <;> revert h <;> decide

/-- No number of seconds has a separator in it. -/
theorem not_mem_formatSeconds {c : Char} (hc : c ∈ separators) (x : Binary64) :
    c ∉ (formatSeconds x).toList := by
  by_cases hx : x.isFinite = true
  · obtain ⟨p, hp, -⟩ := exists_formatSeconds_eq hx
    have hplain : ∀ c ∈ separators, ¬ (c = '-' ∨ c = '.' ∨ c.isDigit = true) :=
      forall_separators.2 (by decide)
    rw [hp, String.toList_ofList]
    exact fun hmem => hplain c hc (PlainNumber.mem_chars hmem)
  · have hwords : ∀ word ∈ nonFiniteWords, ∀ c ∈ separators, c ∉ word.toList := by
      simp only [forall_separators]
      decide
    exact hwords _ (formatSeconds_mem_nonFiniteWords.2 (by simpa using hx)) c hc

end BroadcastIntake
