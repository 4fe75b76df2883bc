import BroadcastIntake.Number.Reading
import Mathlib.Data.Nat.Digits.Defs
import Mathlib.Tactic.Ring

/-!
# Rows of digits

The readers take the digits of every script, and the writers make the ten common ones.  Here is what
the readers find in a row of digits: their values, up to the first character that ends it.  Zeros at
the start of a row add nothing to its value, so a padded number is read as the number.
-/

namespace BroadcastIntake.Text

theorem digitValue?_of_isDigit {c : Char} (hc : c.isDigit = true) :
    digitValue? c = some (c.toNat - '0'.toNat) := by
  have hrange : 0x30 ≤ c.toNat ∧ c.toNat < 0x30 + 10 := by
    simp only [Char.isDigit, Bool.and_eq_true, decide_eq_true_eq] at hc
    have hlow : '0'.val.toNat ≤ c.val.toNat := UInt32.le_iff_toNat_le.1 hc.1
    have hhigh : c.val.toNat ≤ '9'.val.toNat := UInt32.le_iff_toNat_le.1 hc.2
    exact ⟨hlow, Nat.lt_succ_of_le hhigh⟩
  have hfirst : (decide (0x30 ≤ c.toNat) && decide (c.toNat < 0x30 + 10)) = true := by
    simpa using hrange
  unfold digitValue? zeroCodes
  rw [List.find?_cons, hfirst]
  rfl

/-- The common digits are among those of all scripts. -/
theorem isDigit_of_common {c : Char} (hc : c.isDigit = true) : isDigit c = true := by
  rw [isDigit, digitValue?_of_isDigit hc, Option.isSome_some]

theorem digitValue?_lt {c : Char} {d : Nat} (hd : digitValue? c = some d) : d < 10 := by
  unfold digitValue? at hd
  obtain ⟨start, hstart, rfl⟩ := Option.map_eq_some_iff.1 hd
  have hrange := List.find?_some hstart
  simp only [Bool.and_eq_true, decide_eq_true_eq] at hrange
  omega

/-! ## The value of a row -/

/-- Each further digit makes the value at most ten times as large. -/
theorem foldl_digits_lt (cs : List Char) : ∀ {n k : Nat}, n < 10 ^ k →
    cs.foldl (fun n c => 10 * n + (digitValue? c).getD 0) n < 10 ^ (k + cs.length) := by
  induction cs with
  | nil => exact fun hn => hn
  | cons c cs ih =>
      intro n k hn
      have hdigit : (digitValue? c).getD 0 < 10 := by
        rcases hc : digitValue? c with _ | d
        · decide
        · exact digitValue?_lt hc
      have hnext : 10 * n + (digitValue? c).getD 0 < 10 ^ (k + 1) := by
        rw [Nat.pow_succ]
        omega
      rw [List.foldl_cons, List.length_cons, Nat.add_comm cs.length 1, ← Nat.add_assoc]
      exact ih hnext

theorem digitsValue_lt (cs : List Char) : digitsValue cs < 10 ^ cs.length := by
  have hlt := foldl_digits_lt cs (show 0 < 10 ^ 0 by decide)
  rwa [Nat.zero_add] at hlt

/-- The value of a row of common digits. -/
theorem digitsValue_of_isDigit {cs : List Char} (hcs : ∀ c ∈ cs, c.isDigit = true) :
    digitsValue cs = Nat.ofDigitChars 10 cs 0 := by
  have hfold : ∀ n, cs.foldl (fun n c => 10 * n + (digitValue? c).getD 0) n =
      Nat.ofDigitChars 10 cs n := by
    induction cs with
    | nil => exact fun n => Nat.ofDigitChars_nil.symm
    | cons c cs ih =>
        intro n
        rw [List.foldl_cons, Nat.ofDigitChars_cons,
          digitValue?_of_isDigit (hcs c List.mem_cons_self)]
        exact ih (fun d hd => hcs d (List.mem_cons_of_mem c hd)) _
  exact hfold 0

theorem isDigit_of_mem_natDigits {n : Nat} {c : Char} (hc : c ∈ natDigits n) :
    c.isDigit = true :=
  Nat.isDigit_of_mem_toDigits (by decide) (by decide) hc

/-- A number is the value of the digits that write it. -/
theorem digitsValue_natDigits (n : Nat) : digitsValue (natDigits n) = n := by
  rw [digitsValue_of_isDigit fun c => isDigit_of_mem_natDigits]
  exact Nat.ofDigitChars_ten_toDigits

theorem digitsValue_append (cs ds : List Char) :
    digitsValue (cs ++ ds) = digitsValue cs * 10 ^ ds.length + digitsValue ds := by
  have hfold : ∀ (ds : List Char) (n : Nat),
      ds.foldl (fun n c => 10 * n + (digitValue? c).getD 0) n =
        n * 10 ^ ds.length + digitsValue ds := by
    intro ds
    induction ds with
    | nil =>
        intro n
        simp [digitsValue]
    | cons d ds ih =>
        intro n
        have hfirst : digitsValue (d :: ds) = (digitValue? d).getD 0 * 10 ^ ds.length +
            digitsValue ds := by
          unfold digitsValue
          rw [List.foldl_cons, ih]
          simp [digitsValue]
        rw [List.foldl_cons, ih, hfirst, List.length_cons, Nat.pow_succ]
        ring
  rw [digitsValue, List.foldl_append, hfold]
  rfl

theorem digitsValue_replicate (n : Nat) : digitsValue (List.replicate n '0') = 0 := by
  induction n with
  | zero => rfl
  | succ n ih =>
      rw [List.replicate_succ, ← List.singleton_append, digitsValue_append, ih]
      simp [show digitsValue ['0'] = 0 by decide]

theorem ofDigitValues_map (cs : List Char) :
    ofDigitValues (cs.map fun c => (digitValue? c).getD 0) = digitsValue cs := by
  unfold ofDigitValues digitsValue
  rw [List.foldl_map]

/-! ## Padded numbers -/

/-- A number that is not negative and has no more digits than the width is written in just as many
digits, and they write it. -/
theorem toList_paddedInt {width : Nat} {i : Int} (hwidth : 0 < width)
    (hi : 0 ≤ i ∧ i < 10 ^ width) :
    (paddedInt width i).toList.length = width ∧
      (∀ c ∈ (paddedInt width i).toList, c.isDigit = true) ∧
      (digitsValue (paddedInt width i).toList : Int) = i := by
  have hnat : i.natAbs < 10 ^ width := by
    have hcast : (i.natAbs : Int) < ((10 ^ width : Nat) : Int) := by
      rw [Int.natAbs_of_nonneg hi.1]
      exact_mod_cast hi.2
    exact Int.ofNat_lt.1 hcast
  have hlength : (natDigits i.natAbs).length ≤ width :=
    Nat.toDigits_length 10 i.natAbs width hwidth hnat
  have htext : (paddedInt width i).toList =
      List.replicate (width - (natDigits i.natAbs).length) '0' ++ natDigits i.natAbs := by
    unfold paddedInt
    simp [Int.not_lt.2 hi.1]
  rw [htext]
  refine ⟨?_, ?_, ?_⟩
  · rw [List.length_append, List.length_replicate]
    omega
  · intro c hc
    rcases List.mem_append.1 hc with hc | hc
    · rw [List.eq_of_mem_replicate hc]
      rfl
    · exact isDigit_of_mem_natDigits hc
  · rw [digitsValue_append, digitsValue_replicate, digitsValue_natDigits, Nat.zero_mul,
      Nat.zero_add, Int.natAbs_of_nonneg hi.1]

/-! ## Scanning -/

/-- The characters go on with something that is no part of a row of digits. -/
def EndsDigits (cs : List Char) : Prop :=
  ∀ c rest, cs = c :: rest → digitValue? c = none ∧ c ≠ '_'

theorem endsDigits_nil : EndsDigits [] := by
  intro c rest h
  cases h

theorem endsDigits_cons {c : Char} {rest : List Char} (hc : digitValue? c = none ∧ c ≠ '_') :
    EndsDigits (c :: rest) := by
  rintro _ _ ⟨rfl, rfl⟩
  exact hc

theorem scanDigitsFrom_append {cs rest : List Char} (hcs : ∀ c ∈ cs, isDigit c = true)
    (hrest : EndsDigits rest) : ∀ inside : Bool,
      scanDigitsFrom inside (cs ++ rest) = (cs.map fun c => (digitValue? c).getD 0, rest) := by
  induction cs with
  | nil =>
      intro inside
      cases rest with
      | nil => rfl
      | cons c rest =>
          obtain ⟨hnone, hmark⟩ := hrest c rest rfl
          simp [scanDigitsFrom, hnone, hmark]
  | cons c cs ih =>
      intro inside
      obtain ⟨d, hc⟩ := Option.isSome_iff_exists.1 (hcs c List.mem_cons_self)
      have htail := ih (fun d hd => hcs d (List.mem_cons_of_mem c hd)) true
      simp [scanDigitsFrom, hc, htail]

/-- A row of digits is scanned up to its end. -/
theorem scanDigits_append {cs rest : List Char} (hcs : ∀ c ∈ cs, isDigit c = true)
    (hrest : EndsDigits rest) :
    scanDigits (cs ++ rest) = (cs.map fun c => (digitValue? c).getD 0, rest) :=
  scanDigitsFrom_append hcs hrest false

/-- A digit is no sign. -/
theorem scanSign_of_isDigit {c : Char} {rest : List Char} (hc : isDigit c = true) :
    scanSign (c :: rest) = (false, c :: rest) := by
  unfold scanSign
  split
  · rename_i h
    obtain ⟨rfl, -⟩ := List.cons.inj h
    exact absurd hc (by decide)
  · rename_i h
    obtain ⟨rfl, -⟩ := List.cons.inj h
    exact absurd hc (by decide)
  · rfl

end BroadcastIntake.Text
