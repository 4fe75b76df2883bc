import BroadcastIntake.Proofs.Number.Reading
import Mathlib.Data.List.TakeWhile
import Mathlib.Tactic.Ring

/-!
# Numbers that come back from their texts

The shortest text of a number of double precision is read as that number
(`readBinary64_text_of_isDouble`).

Two things have to be shown.  The decimal that is written reads back: a short one was tried before
it was chosen, and the exact expansion, which is written when no short one is found, always does
(`ofDecimal_exactDecimal`).  And the number does not depend on how a decimal is laid out: zeros at
the end of the digits weigh as much as a larger exponent (`ofDecimal_mul_pow`), so it matters
neither that they are left out nor where the point stands (`writes_chars`).
-/

namespace BroadcastIntake

/-! ## Scaled quotients -/

/-- A quotient is rounded alike in larger units. -/
theorem divideToNearest_mul_right (num den : Nat) {k : Nat} (hk : 0 < k) :
    divideToNearest (num * k) (den * k) = divideToNearest num den := by
  have hquotient : num * k / (den * k) = num / den := Nat.mul_div_mul_right num den hk
  have hexcess : 2 * (num * k % (den * k)) = 2 * (num % den) * k := by
    rw [Nat.mul_mod_mul_right, Nat.mul_assoc]
  have hless : ∀ a b : Nat, a * k < b * k ↔ a < b := fun a b => Nat.mul_lt_mul_right hk
  unfold divideToNearest
  simp only [hquotient, hexcess, hless]

namespace Binary64

theorem fitQuanta_mul_right (num den : Nat) {k : Nat} (hk : 0 < k) :
    fitQuanta (num * k) (den * k) = fitQuanta num den := by
  have hspacing : ∀ spacing, den * k * spacing = den * spacing * k :=
    fun spacing => Nat.mul_right_comm den k spacing
  unfold fitQuanta
  simp only [Nat.mul_div_mul_right num den hk, hspacing, divideToNearest_mul_right _ _ hk]

theorem ofRatio_mul_right (negative : Bool) (num den : Nat) {k : Nat} (hk : 0 < k) :
    ofRatio negative (num * k) (den * k) = ofRatio negative num den := by
  unfold ofRatio
  rw [Nat.mul_right_comm, fitQuanta_mul_right _ _ hk]

end Binary64

/-! ## Scaled decimals -/

/-- A further zero makes a row of digits one longer. -/
theorem length_natDigits_mul_ten {n : Nat} (hn : n ≠ 0) :
    (natDigits (n * 10)).length = (natDigits n).length + 1 := by
  have hlarge : 10 ≤ n * 10 := by omega
  unfold natDigits
  rw [Nat.toDigits_of_base_le (by decide) hlarge, List.length_append,
    Nat.mul_div_cancel n (by decide)]
  rfl

namespace Binary64

/-- A zero at the end of the digits weighs as much as a larger exponent. -/
theorem ofDecimal_mul_ten (negative : Bool) (n : Nat) (e : Int) :
    ofDecimal negative (n * 10) e = ofDecimal negative n (e + 1) := by
  by_cases hn : n = 0
  · subst hn
    rfl
  have hmagnitude : (((Nat.toDigits 10 (n * 10)).length : Nat) : Int) + e =
      (Nat.toDigits 10 n).length + (e + 1) := by
    have hlength := length_natDigits_mul_ten hn
    unfold natDigits at hlength
    omega
  -- both quotients are the same one in different units
  have hquotient : (if 0 ≤ e then ofRatio negative (n * 10 * Nat.pow 10 e.toNat) 1
        else ofRatio negative (n * 10) (Nat.pow 10 (-e).toNat)) =
      if 0 ≤ e + 1 then ofRatio negative (n * Nat.pow 10 (e + 1).toNat) 1
        else ofRatio negative n (Nat.pow 10 (-(e + 1)).toNat) := by
    rcases Int.lt_trichotomy (e + 1) 0 with hlow | hzero | hhigh
    · have hpower : Nat.pow 10 (-e).toNat = Nat.pow 10 (-(e + 1)).toNat * 10 := by
        rw [show (-e).toNat = (-(e + 1)).toNat + 1 by omega]
        rfl
      rw [if_neg (by omega), if_neg (by omega), hpower,
        ofRatio_mul_right negative n _ (by decide)]
    · obtain rfl : e = -1 := by omega
      have hscaled := ofRatio_mul_right negative n 1 (show 0 < 10 by decide)
      simpa using hscaled
    · have hpower : n * 10 * Nat.pow 10 e.toNat = n * Nat.pow 10 (e + 1).toNat := by
        rw [show (e + 1).toNat = e.toNat + 1 by omega, Nat.mul_right_comm, Nat.mul_assoc]
        rfl
      rw [if_pos (by omega), if_pos (by omega), hpower]
  unfold ofDecimal
  rw [if_neg (by omega), if_neg hn, hmagnitude, hquotient]

/-- Zeros at the end of the digits weigh as much as a larger exponent. -/
theorem ofDecimal_mul_pow (negative : Bool) (n j : Nat) : ∀ e : Int,
    ofDecimal negative (n * 10 ^ j) e = ofDecimal negative n (e + j) := by
  induction j with
  | zero =>
      intro e
      rw [Nat.pow_zero, Nat.mul_one]
      simp
  | succ j ih =>
      intro e
      rw [Nat.pow_succ, ← Nat.mul_assoc, ofDecimal_mul_ten, ih]
      congr 1
      omega

/-- The sign of a decimal is the sign of its number. -/
theorem ofDecimal_signed {n : Nat} {e : Int} {quanta : Nat}
    (hread : ofDecimal false n e = finite false quanta) (negative : Bool) :
    ofDecimal negative n e = finite negative quanta := by
  have hratio : ∀ num den, ofRatio false num den = finite false quanta →
      ofRatio negative num den = finite negative quanta := by
    intro num den hratio
    unfold ofRatio ofQuanta at hratio ⊢
    split at hratio
    · cases hratio
    · rename_i hsmall
      rw [if_neg hsmall, (finite.inj hratio).2]
  unfold ofDecimal at hread ⊢
  dsimp only at hread ⊢
  split
  · rename_i hzero
    rw [if_pos hzero] at hread
    rw [(finite.inj hread).2]
  · rename_i hzero
    rw [if_neg hzero] at hread
    split
    · rename_i hlarge
      rw [if_pos hlarge] at hread
      cases hread
    · rename_i hlarge
      rw [if_neg hlarge] at hread
      split
      · rename_i hsmall
        rw [if_pos hsmall] at hread
        rw [(finite.inj hread).2]
      · rename_i hsmall
        rw [if_neg hsmall] at hread
        split at hread
        · rename_i hwhole
          rw [if_pos hwhole]
          exact hratio _ _ hread
        · rename_i hwhole
          rw [if_neg hwhole]
          exact hratio _ _ hread

/-- The number is one of double precision: a finite count of quanta has 53 significant bits and is
not too large. -/
structure IsDouble (x : Binary64) : Prop where
  rounded : ∀ negative quanta, x = finite negative quanta → fitQuanta quanta 1 = quanta
  small : ∀ negative quanta, x = finite negative quanta → quanta < overflowQuanta

/-! ## Numbers that are computed

A quotient is rounded once: its digits fill 53 places, so rounding it again changes nothing.  Hence
every number that is computed or read is one of double precision. -/

/-- Counts of up to 53 digits are not rounded. -/
theorem fitQuanta_of_le {quanta : Nat} (hquanta : quanta ≤ Nat.pow 2 53) :
    fitQuanta quanta 1 = quanta := by
  rcases Nat.lt_or_eq_of_le hquanta with hless | rfl
  · unfold fitQuanta
    rw [Nat.div_one]
    simp only [hless, if_true, divideToNearest_one]
  · decide

/-- Counts of 53 digits and zeros after them are not rounded. -/
theorem fitQuanta_mul_pow {digits k : Nat} (hlow : Nat.pow 2 52 ≤ digits)
    (hhigh : digits < Nat.pow 2 53) : fitQuanta (digits * 2 ^ k) 1 = digits * 2 ^ k := by
  have hpositive : 0 < 2 ^ k := Nat.two_pow_pos k
  have hlog : (digits * 2 ^ k).log2 = 52 + k := by
    have hne : digits * 2 ^ k ≠ 0 :=
      Nat.mul_ne_zero (Nat.ne_of_gt (Nat.lt_of_lt_of_le (by decide) hlow)) (Nat.ne_of_gt hpositive)
    refine (Nat.log2_eq_iff hne).2 ⟨?_, ?_⟩
    · rw [Nat.pow_add]
      exact Nat.mul_le_mul_right _ hlow
    · rw [show 52 + k + 1 = 53 + k by omega, Nat.pow_add]
      exact Nat.mul_lt_mul_of_pos_right hhigh hpositive
  unfold fitQuanta
  simp only [Nat.div_one, Nat.one_mul]
  split
  · exact divideToNearest_one _
  · rw [hlog, Nat.add_sub_cancel_left]
    exact congrArg (· * 2 ^ k) (divideToNearest_mul_self digits (2 ^ k) hpositive)

theorem divideToNearest_cases (num den : Nat) :
    divideToNearest num den = num / den ∨ divideToNearest num den = num / den + 1 := by
  unfold divideToNearest
  dsimp only
  split
  · exact .inl rfl
  · split
    · exact .inr rfl
    · split
      · exact .inl rfl
      · exact .inr rfl

theorem fitQuanta_fitQuanta (num den : Nat) :
    fitQuanta (fitQuanta num den) 1 = fitQuanta num den := by
  by_cases hwhole : num / den < Nat.pow 2 53
  · have hfit : fitQuanta num den = divideToNearest num den := by
      unfold fitQuanta
      simp only [hwhole, if_true]
    rw [hfit]
    apply fitQuanta_of_le
    rcases divideToNearest_cases num den with h | h <;> omega
  · have hlarge : Nat.pow 2 53 ≤ num / den := Nat.not_lt.1 hwhole
    have hne : num / den ≠ 0 := Nat.ne_of_gt (Nat.lt_of_lt_of_le (by decide) hlarge)
    obtain ⟨k, hk⟩ : ∃ k, (num / den).log2 = 52 + k := by
      have hlog : 53 ≤ (num / den).log2 := (Nat.le_log2 hne).2 hlarge
      exact ⟨(num / den).log2 - 52, by omega⟩
    have hfit : fitQuanta num den = divideToNearest num (den * 2 ^ k) * 2 ^ k := by
      unfold fitQuanta
      simp only [hwhole, if_false, hk, Nat.add_sub_cancel_left]
      rfl
    -- the quotient in the larger unit has 53 digits, and rounding adds one at most
    obtain ⟨hlow, hhigh⟩ := (Nat.log2_eq_iff hne).1 hk
    have hdigits : Nat.pow 2 52 ≤ num / (den * 2 ^ k) ∧ num / (den * 2 ^ k) < Nat.pow 2 53 := by
      rw [← Nat.div_div_eq_div_mul]
      refine ⟨(Nat.le_div_iff_mul_le (Nat.two_pow_pos k)).2 ?_,
        (Nat.div_lt_iff_lt_mul (Nat.two_pow_pos k)).2 ?_⟩
      · rwa [Nat.pow_add] at hlow
      · rwa [show 52 + k + 1 = 53 + k by omega, Nat.pow_add] at hhigh
    have hrounded : Nat.pow 2 52 ≤ divideToNearest num (den * 2 ^ k) ∧
        divideToNearest num (den * 2 ^ k) ≤ Nat.pow 2 53 := by
      rcases divideToNearest_cases num (den * 2 ^ k) with h | h <;> omega
    rw [hfit]
    rcases Nat.lt_or_eq_of_le hrounded.2 with hless | hfull
    · exact fitQuanta_mul_pow hrounded.1 hless
    · have hcarry : Nat.pow 2 53 * 2 ^ k = Nat.pow 2 52 * 2 ^ (k + 1) := by
        rw [Nat.pow_succ', ← Nat.mul_assoc]
      rw [hfull, hcarry]
      exact fitQuanta_mul_pow (Nat.le_refl _) (by decide)

theorem isDouble_infinity (negative : Bool) : (infinity negative).IsDouble :=
  ⟨nofun, nofun⟩

theorem isDouble_finite (negative : Bool) {quanta : Nat} (hfits : fitQuanta quanta 1 = quanta)
    (hsmall : quanta < overflowQuanta) : (finite negative quanta).IsDouble := by
  refine ⟨?_, ?_⟩
  · rintro _ _ ⟨⟩
    exact hfits
  · rintro _ _ ⟨⟩
    exact hsmall

theorem isDouble_ofQuanta (negative : Bool) (num den : Nat) :
    (ofQuanta negative (fitQuanta num den)).IsDouble := by
  unfold ofQuanta
  by_cases hlarge : overflowQuanta ≤ fitQuanta num den
  · rw [if_pos hlarge]
    exact isDouble_infinity negative
  · rw [if_neg hlarge]
    exact isDouble_finite negative (fitQuanta_fitQuanta _ _) (Nat.not_le.1 hlarge)

theorem isDouble_ofRatio (negative : Bool) (num den : Nat) :
    (ofRatio negative num den).IsDouble := by
  unfold ofRatio
  exact isDouble_ofQuanta negative _ den

theorem isDouble_ofNat (n : Nat) : IsDouble (OfNat.ofNat n) :=
  isDouble_ofRatio false n 1

/-- A decimal is read as a number of double precision. -/
theorem isDouble_ofDecimal (negative : Bool) (n : Nat) (e : Int) :
    (ofDecimal negative n e).IsDouble := by
  have hzero : (finite negative 0).IsDouble :=
    isDouble_finite negative (by decide) (by decide +kernel)
  unfold ofDecimal
  dsimp only
  split
  · exact hzero
  · split
    · exact isDouble_infinity negative
    · split
      · exact hzero
      · split <;> exact isDouble_ofRatio _ _ _

/-! ## The decimal that is written -/

/-- The exact expansion of a number reads back. -/
theorem ofDecimal_exactDecimal {quanta : Nat} (hquanta : quanta ≠ 0)
    (hfits : fitQuanta quanta 1 = quanta) (hfinite : quanta < overflowQuanta) :
    ofDecimal false (exactDecimal quanta).digits (exactDecimal quanta).exponent =
      finite false quanta := by
  have hpos : 0 < quanta := Nat.pos_of_ne_zero hquanta
  have hdigits : quanta * Nat.pow 5 1074 ≠ 0 := Nat.mul_ne_zero hquanta (by decide +kernel)
  -- the expansion has more than 700 digits and less than 1400
  have hmany : 700 < (Nat.toDigits 10 (quanta * Nat.pow 5 1074)).length := by
    refine Nat.lt_of_not_le fun hfew => ?_
    have hlt := (Nat.length_toDigits_le_iff (by decide) (by decide)).1 hfew
    have hlarge : 10 ^ 700 ≤ Nat.pow 5 1074 := by decide +kernel
    have hmore : Nat.pow 5 1074 ≤ quanta * Nat.pow 5 1074 := Nat.le_mul_of_pos_left _ hpos
    omega
  have hfew : (Nat.toDigits 10 (quanta * Nat.pow 5 1074)).length ≤ 1400 := by
    refine (Nat.length_toDigits_le_iff (by decide) (by decide)).2 ?_
    have hbound : overflowQuanta * Nat.pow 5 1074 ≤ 10 ^ 1400 := by decide +kernel
    have hless : quanta * Nat.pow 5 1074 < overflowQuanta * Nat.pow 5 1074 :=
      Nat.mul_lt_mul_of_pos_right hfinite (by decide +kernel)
    omega
  have hratio : ∀ places, places = 1074 →
      ofRatio false (quanta * Nat.pow 5 1074) (Nat.pow 10 places) = finite false quanta := by
    rintro places rfl
    have hunit : Nat.pow 5 1074 * quantaPerOne = Nat.pow 10 1074 := by decide +kernel
    have hscaled : ∀ unit, 0 < unit → fitQuanta (quanta * unit) unit = quanta := by
      intro unit hpositive
      have hsame := fitQuanta_mul_right quanta 1 hpositive
      rwa [Nat.one_mul, hfits] at hsame
    unfold ofRatio ofQuanta
    rw [Nat.mul_assoc, hunit, hscaled _ (by decide +kernel), if_neg (Nat.not_le.2 hfinite)]
  unfold ofDecimal exactDecimal
  dsimp only
  rw [if_neg hdigits]
  clear hdigits
  rw [if_neg (by omega), if_neg (by omega)]
  exact (if_neg (by decide)).trans (hratio _ rfl)

theorem nearestDecimal?_readsBack {quanta count : Nat} {leading : Int} {d : Decimal}
    (hd : nearestDecimal? quanta leading count = some d) : readsBack quanta d = true := by
  unfold nearestDecimal? at hd
  dsimp only at hd
  generalize (if divideToNearest _ _ = _ then _ else _ : Decimal × Decimal) = pair at hd
  split at hd
  · rename_i hfirst
    rwa [← Option.some.inj hd]
  · split at hd
    · rename_i hsecond
      rwa [← Option.some.inj hd]
    · cases hd

/-- The decimal that is written reads back. -/
theorem ofDecimal_shortestDecimal {quanta : Nat} (hquanta : quanta ≠ 0)
    (hfits : fitQuanta quanta 1 = quanta) (hfinite : quanta < overflowQuanta) :
    ofDecimal false (shortestDecimal quanta).digits (shortestDecimal quanta).exponent =
      finite false quanta := by
  unfold shortestDecimal
  dsimp only
  rcases hfound : (List.range 17).findSome? fun n =>
      nearestDecimal? quanta (leadingExponent quanta) (n + 1) with _ | d
  · exact ofDecimal_exactDecimal hquanta hfits hfinite
  · obtain ⟨n, -, hn⟩ := List.exists_of_findSome?_eq_some hfound
    exact beq_iff_eq.1 (nearestDecimal?_readsBack hn)

/-- The decimal that is written for a positive number is positive. -/
theorem shortestDecimal_digits_ne_zero {quanta : Nat} (hquanta : quanta ≠ 0) :
    (shortestDecimal quanta).digits ≠ 0 := by
  unfold shortestDecimal
  dsimp only
  rcases hfound : (List.range 17).findSome? fun n =>
      nearestDecimal? quanta (leadingExponent quanta) (n + 1) with _ | d
  · exact Nat.mul_ne_zero hquanta (by decide +kernel)
  · obtain ⟨n, -, hn⟩ := List.exists_of_findSome?_eq_some hfound
    have hread := beq_iff_eq.1 (nearestDecimal?_readsBack hn)
    intro hzero
    rw [show d.digits = 0 from hzero] at hread
    exact hquanta (finite.inj hread).2.symm

end Binary64

namespace Text

theorem digitsValue_exponentDigits (n : Nat) : digitsValue (Binary64.exponentDigits n) = n := by
  unfold Binary64.exponentDigits
  split
  · rw [← List.singleton_append, digitsValue_append, digitsValue_natDigits]
    simp [show digitsValue ['0'] = 0 by decide]
  · exact digitsValue_natDigits n

end Text

open Text

/-- The digits of a number are those that are left without the zeros at their end, and these
zeros. -/
theorem natDigits_eq_stripped (n : Nat) : ∃ z,
    natDigits n = ((natDigits n).reverse.dropWhile (· = '0')).reverse ++ List.replicate z '0' :=
  Chars.exists_eq_trimRight_append '0' (natDigits n)

/-! ## Layouts

The digits of a number are written with an exponent, behind zeros, before zeros, or with the point
among them. -/

/-- The characters write the number that the digits have with the exponent of their last one. -/
def WritesNumber (cs ds : List Char) (e : Int) : Prop :=
  ∃ digits k, Writes cs digits k ∧ ∀ negative,
    Binary64.ofDecimal negative (digitsValue digits) k =
      Binary64.ofDecimal negative (digitsValue ds) e

theorem Writes.number {cs ds : List Char} {k e : Int} (hwrites : Writes cs ds k) (hk : k = e) :
    WritesNumber cs ds e :=
  ⟨ds, k, hwrites, fun _ => by rw [hk]⟩

/-- An exponent is written with its sign and its digits. -/
theorem writesExponent_exponentDigits (leading : Int) :
    WritesExponent
      ('e' :: (if leading < 0 then '-' else '+') :: Binary64.exponentDigits leading.natAbs)
      leading := by
  have hexponent := WritesExponent.some (decide (leading < 0))
    (exponentDigits_ne_nil leading.natAbs) (areDigits_exponentDigits leading.natAbs)
  rw [digitsValue_exponentDigits, signed_natAbs] at hexponent
  simpa only [decide_eq_true_eq] using hexponent

section Layouts

variable {ds : List Char}

/-- Zeros between the point and the digits. -/
theorem writesNumber_behind_zeros (hdigits : AreDigits ds) (n : Nat) :
    WritesNumber ('0' :: '.' :: (List.replicate n '0' ++ ds)) ds (-(n + ds.length : Nat)) := by
  have hzeros := (areDigits_replicate n).append hdigits
  have hwrites := Writes.pointed (List.cons_ne_nil '0' []) (areDigits_replicate 1) hzeros .none
  rw [List.append_nil] at hwrites
  have hvalue : digitsValue (['0'] ++ (List.replicate n '0' ++ ds)) = digitsValue ds := by
    rw [digitsValue_append, digitsValue_append, digitsValue_replicate]
    simp [show digitsValue ['0'] = 0 by decide]
  refine ⟨_, _, hwrites, fun negative => ?_⟩
  rw [hvalue, List.length_append, List.length_replicate, Int.zero_sub]

/-- Zeros between the digits and the point. -/
theorem writesNumber_before_zeros (hdigits : AreDigits ds) (hsome : ds ≠ []) (n : Nat) :
    WritesNumber (ds ++ List.replicate n '0' ++ ['.', '0']) ds n := by
  have hwhole := hdigits.append (areDigits_replicate n)
  have hne : ds ++ List.replicate n '0' ≠ [] := List.append_ne_nil_of_left_ne_nil hsome _
  have hvalue : digitsValue (ds ++ List.replicate n '0' ++ List.replicate 1 '0') =
      digitsValue ds * 10 ^ (n + 1) := by
    rw [digitsValue_append, digitsValue_append, digitsValue_replicate, digitsValue_replicate,
      List.length_replicate, List.length_replicate]
    ring
  refine ⟨_, _, Writes.pointed hne hwhole (areDigits_replicate 1) .none, fun negative => ?_⟩
  have hexponent : (0 : Int) - (List.replicate 1 '0').length + (n + 1 : Nat) = n := by
    rw [List.length_replicate]
    omega
  rw [hvalue, Binary64.ofDecimal_mul_pow, hexponent]

/-- The point among the digits. -/
theorem writesNumber_split (hdigits : AreDigits ds) {n : Nat} (hne : ds.take n ≠ []) :
    WritesNumber (ds.take n ++ '.' :: ds.drop n) ds (-(ds.length - n : Nat)) := by
  have hbefore : AreDigits (ds.take n) := hdigits.of_subset fun c => List.mem_of_mem_take
  have hafter : AreDigits (ds.drop n) := hdigits.of_subset fun c => List.mem_of_mem_drop
  have hwrites := Writes.pointed hne hbefore hafter .none
  rw [List.append_nil, List.take_append_drop, List.length_drop] at hwrites
  exact hwrites.number (Int.zero_sub _)

/-- One digit before the point, and an exponent. -/
theorem writesNumber_pointed {c : Char} {exponent : List Char} {k : Int}
    (hdigits : AreDigits (c :: ds)) (hexponent : WritesExponent exponent k) :
    WritesNumber (c :: '.' :: (ds ++ exponent)) (c :: ds) (k - ds.length) := by
  have hfirst : AreDigits [c] := hdigits.of_subset (by simp)
  have hothers : AreDigits ds := hdigits.of_subset fun d hd => List.mem_cons_of_mem c hd
  exact (Writes.pointed (List.cons_ne_nil c []) hfirst hothers hexponent).number rfl

end Layouts

/-- The text of a positive decimal writes a decimal that is read as the same number. -/
theorem writes_chars {d : Binary64.Decimal} (hd : d.digits ≠ 0) :
    ∃ digits k, Writes d.chars digits k ∧ ∀ negative,
      Binary64.ofDecimal negative (digitsValue digits) k =
        Binary64.ofDecimal negative d.digits d.exponent := by
  have hdigits := areDigits_stripped d.digits
  obtain ⟨z, hstripped⟩ := natDigits_eq_stripped d.digits
  have hlength := congrArg List.length hstripped
  have hvalue := congrArg digitsValue hstripped
  rw [List.length_append, List.length_replicate] at hlength
  rw [digitsValue_natDigits, digitsValue_append, digitsValue_replicate, List.length_replicate,
    Nat.add_zero] at hvalue
  unfold Binary64.Decimal.chars
  dsimp only
  generalize ((natDigits d.digits).reverse.dropWhile (· = '0')).reverse = ds
    at hdigits hlength hvalue ⊢
  have hsome : ds ≠ [] := by
    rintro rfl
    rw [show digitsValue [] = 0 from rfl, Nat.zero_mul] at hvalue
    exact hd hvalue
  have hpositive : 0 < ds.length := List.length_pos_iff.2 hsome
  generalize hleading : d.exponent + ((natDigits d.digits).length : Int) - 1 = leading
  -- whatever the layout is, the stripped digits are written, the last one `z` places higher
  have hlayout : ∀ {cs : List Char} {e : Int}, WritesNumber cs ds e → e = d.exponent + z →
      ∃ digits k, Writes cs digits k ∧ ∀ negative,
        Binary64.ofDecimal negative (digitsValue digits) k =
          Binary64.ofDecimal negative d.digits d.exponent := by
    rintro cs e ⟨digits, k, hwrites, hnumber⟩ rfl
    refine ⟨digits, k, hwrites, fun negative => ?_⟩
    rw [hnumber, hvalue, Binary64.ofDecimal_mul_pow]
  split
  · have hexponent := writesExponent_exponentDigits leading
    rcases ds with _ | ⟨c, _ | ⟨c', rest⟩⟩
    · exact absurd rfl hsome
    · rw [List.length_singleton] at hlength
      exact hlayout ((Writes.whole (List.cons_ne_nil c []) hdigits hexponent).number rfl) (by omega)
    · rw [List.length_cons] at hlength
      exact hlayout (writesNumber_pointed hdigits hexponent) (by omega)
  · split
    · exact hlayout (writesNumber_behind_zeros hdigits _) (by omega)
    · split
      · exact hlayout (writesNumber_before_zeros hdigits hsome _) (by omega)
      · have hne : ds.take (leading.toNat + 1) ≠ [] := by
          rw [Ne, List.take_eq_nil_iff, not_or]
          exact ⟨Nat.succ_ne_zero _, hsome⟩
        exact hlayout (writesNumber_split hdigits hne) (by omega)

/-! ## Reading a number again -/

/-- Every number is read from its text as some number. -/
theorem readBinary64_text (x : Binary64) : ∃ y, readBinary64 x.text = .ok y := by
  cases x with
  | nan => exact ⟨.nan, rfl⟩
  | infinity negative => exact ⟨.infinity negative, by cases negative <;> rfl⟩
  | finite negative quanta =>
      unfold Binary64.text
      by_cases hquanta : quanta = 0
      · subst hquanta
        cases negative <;> exact ⟨_, rfl⟩
      · obtain ⟨digits, k, hwrites, -⟩ :=
          writes_chars (Binary64.shortestDecimal_digits_ne_zero hquanta)
        simp only [if_neg hquanta]
        exact ⟨_, readBinary64_of_writes hwrites negative⟩

/-- **Numbers of double precision** come back from their texts. -/
theorem readBinary64_text_of_isDouble {x : Binary64} (hx : x.IsDouble) :
    readBinary64 x.text = .ok x := by
  cases x with
  | nan => rfl
  | infinity negative => cases negative <;> rfl
  | finite negative quanta =>
      have hfits := hx.rounded negative quanta rfl
      have hfinite := hx.small negative quanta rfl
      by_cases hquanta : quanta = 0
      · subst hquanta
        cases negative <;> rfl
      · have hread := Binary64.ofDecimal_shortestDecimal hquanta hfits hfinite
        obtain ⟨digits, k, hwrites, hvalue⟩ :=
          writes_chars (Binary64.shortestDecimal_digits_ne_zero hquanta)
        unfold Binary64.text
        simp only [if_neg hquanta]
        rw [readBinary64_of_writes hwrites, hvalue, Binary64.ofDecimal_signed hread]

end BroadcastIntake
