import BroadcastIntake.Proofs.FilterChain.Seconds

/-!
# The number that is written for seconds

The text of a finite number is a plain decimal with at most three places.  Which decimal it is does
not depend on how it is made, with or without a point: it is the nearest number of thousandths, and
of two equally near ones the one with an even count (`IsNearestThousandth`).  A whole number is its
own nearest number of thousandths, so nothing is lost of it.

The order of the written numbers follows from nearness alone (`IsNearestThousandth.mono`).  Were the
counts of two numbers in the wrong order, then both numbers would be the middle of these counts, so
both counts would be even; but then there is another count between them, and it is nearer.
-/

namespace BroadcastIntake

open Text

/-! ## Nearest numbers of thousandths -/

/-- Of two numbers the larger one is the nearer only from their middle on. -/
theorem add_le_two_mul_of_abs_sub_le {p q a : ℚ} (hpq : p < q) (hnear : |q - a| ≤ |p - a|) :
    p + q ≤ 2 * a := by
  by_contra hnot
  have hbelow : 2 * a < p + q := not_le.1 hnot
  have hcloser : |p - a| < q - a := abs_lt.2 ⟨by linarith, by linarith⟩
  exact absurd (hnear.trans_lt hcloser) (not_lt.2 (le_abs_self _))

/-- Of two numbers the smaller one is the nearer only up to their middle. -/
theorem two_mul_le_add_of_abs_sub_le {p q a : ℚ} (hpq : p < q) (hnear : |p - a| ≤ |q - a|) :
    2 * a ≤ p + q := by
  have hmirrored : |-p - -a| ≤ |-q - -a| := by
    rwa [neg_sub_neg, neg_sub_neg, abs_sub_comm a p, abs_sub_comm a q]
  have hmiddle := add_le_two_mul_of_abs_sub_le (neg_lt_neg hpq) hmirrored
  linarith

/-- No number of thousandths is nearer to the exact number, and of two that are equally near it is
the even one. -/
structure IsNearestThousandth (exact : ℚ) (n : Int) : Prop where
  nearest : ∀ k : Int, |(n : ℚ) / 1000 - exact| ≤ |(k : ℚ) / 1000 - exact|
  even : ∀ k : Int, k ≠ n → |(k : ℚ) / 1000 - exact| = |(n : ℚ) / 1000 - exact| → Even n

namespace IsNearestThousandth

theorem thousandth_lt {m n : Int} (hmn : m < n) : (m : ℚ) / 1000 < (n : ℚ) / 1000 := by
  have hcast : (m : ℚ) < n := Int.cast_lt.2 hmn
  linarith

/-- Two counts of thousandths are at least a thousandth apart. -/
theorem thousandth_le_abs_sub {m n : Int} (hmn : m ≠ n) :
    1 / 1000 ≤ |(m : ℚ) / 1000 - (n : ℚ) / 1000| := by
  have hapart : (1 : ℚ) ≤ |(m : ℚ) - n| := by exact_mod_cast Int.one_le_abs (sub_ne_zero.2 hmn)
  rw [← sub_div, abs_div, abs_of_pos (show (0 : ℚ) < 1000 by norm_num)]
  linarith

/-- A number of thousandths at most half a thousandth away is the nearest one. -/
theorem of_within {exact : ℚ} {n : Int} (hwithin : |(n : ℚ) / 1000 - exact| ≤ 1 / 2000)
    (heven : |(n : ℚ) / 1000 - exact| = 1 / 2000 → Even n) : IsNearestThousandth exact n := by
  -- every other number of thousandths is at least half a thousandth away
  have hother : ∀ k : Int, k ≠ n → 1 / 2000 ≤ |(k : ℚ) / 1000 - exact| := by
    intro k hk
    have hsum : 1 / 1000 ≤ |(k : ℚ) / 1000 - exact| + |(n : ℚ) / 1000 - exact| := by
      calc 1 / 1000 ≤ |(k : ℚ) / 1000 - (n : ℚ) / 1000| := thousandth_le_abs_sub hk
        _ ≤ |(k : ℚ) / 1000 - exact| + |exact - (n : ℚ) / 1000| := abs_sub_le _ _ _
        _ = |(k : ℚ) / 1000 - exact| + |(n : ℚ) / 1000 - exact| := by rw [abs_sub_comm exact]
    linarith
  constructor
  · intro k
    rcases eq_or_ne k n with rfl | hk
    · exact le_rfl
    · exact hwithin.trans (hother k hk)
  · intro k hk htie
    apply heven
    exact le_antisymm hwithin (htie ▸ hother k hk)

/-- **Order.**  The nearest numbers of thousandths are ordered as the exact numbers are. -/
theorem mono {a b : ℚ} {n m : Int} (hn : IsNearestThousandth a n) (hm : IsNearestThousandth b m)
    (hab : a ≤ b) : n ≤ m := by
  by_contra hnot
  have hlt : m < n := not_le.1 hnot
  have hbelow := add_le_two_mul_of_abs_sub_le (thousandth_lt hlt) (hn.nearest m)
  have habove := two_mul_le_add_of_abs_sub_le (thousandth_lt hlt) (hm.nearest n)
  -- both exact numbers are the middle of the two counts, and so both counts are even
  obtain rfl : a = b := by linarith
  have htie : |(m : ℚ) / 1000 - a| = |(n : ℚ) / 1000 - a| :=
    le_antisymm (hm.nearest n) (hn.nearest m)
  obtain ⟨i, hi⟩ := hn.even m hlt.ne htie
  obtain ⟨j, hj⟩ := hm.even n hlt.ne' htie.symm
  have hbetween : m + 1 < n := by omega
  have hcloser := add_le_two_mul_of_abs_sub_le (thousandth_lt hbetween) (hn.nearest (m + 1))
  push_cast at hcloser
  linarith

/-- A whole number is its own nearest number of thousandths. -/
theorem eq_of_whole {k n : Int} (hn : IsNearestThousandth k n) : (n : ℚ) / 1000 = k := by
  have hself := hn.nearest (k * 1000)
  rw [Int.cast_mul, Int.cast_ofNat, mul_div_cancel_right₀ _ (by norm_num), sub_self,
    abs_zero] at hself
  exact sub_eq_zero.1 (abs_nonpos_iff.1 hself)

end IsNearestThousandth

theorem Binary64.isNearestThousandth {x : Binary64} (hx : x.isFinite = true) :
    IsNearestThousandth x.toRat x.thousandths :=
  .of_within (abs_thousandths_sub_le hx) (even_thousandths hx)

/-! ## The texts and what they write -/

/-- The text writes a number for so many seconds. -/
structure WritesSeconds (x : Binary64) (text : String) (written : ℚ) : Prop where
  /-- The text is a plain decimal: perhaps a minus, digits, and perhaps a point and one to three
  digits of which the last is no zero. -/
  plain : ∃ p : PlainNumber, text = String.ofList p.chars ∧ p.fraction.length ≤ 3 ∧
    ∀ c ∈ p.fraction.getLast?, c ≠ '0'
  read : plainNumber? text = some written
  whole : ∀ k : Int, x.toRat = k → written = k
  nearest : ∃ n : Int, written = n / 1000 ∧ IsNearestThousandth x.toRat n
  within : |written - x.toRat| ≤ 1 / 2000

theorem writesSeconds_formatSeconds {x : Binary64} (hx : x.isFinite = true) :
    WritesSeconds x (formatSeconds x) (x.thousandths / 1000) where
  plain := by
    obtain ⟨p, htext, hwrites⟩ := exists_formatSeconds_eq hx
    exact ⟨p, htext, hwrites.places, hwrites.stripped⟩
  read := plainNumber?_formatSeconds hx
  whole := by
    intro k hk
    have hnearest := Binary64.isNearestThousandth hx
    rw [hk] at hnearest
    exact hnearest.eq_of_whole
  nearest := ⟨x.thousandths, rfl, Binary64.isNearestThousandth hx⟩
  within := Binary64.abs_thousandths_sub_le hx

/-- **Seconds** are written as plain decimals, whole numbers as they are and all others as the
nearest number of thousandths, and what is written keeps their order. -/
theorem formatSeconds_nearest_in_order {x y : Binary64} (hx : x.isFinite = true)
    (hy : y.isFinite = true) :
    ∃ a b : ℚ, WritesSeconds x (formatSeconds x) a ∧ WritesSeconds y (formatSeconds y) b ∧
      (x ≤ y → a ≤ b) := by
  refine ⟨_, _, writesSeconds_formatSeconds hx, writesSeconds_formatSeconds hy, fun hxy => ?_⟩
  have hcounts : x.thousandths ≤ y.thousandths := by
    apply (Binary64.isNearestThousandth hx).mono (Binary64.isNearestThousandth hy)
    exact (Binary64.le_iff_toRat hx hy).1 hxy
  have hcast : (x.thousandths : ℚ) ≤ y.thousandths := Int.cast_le.2 hcounts
  linarith

/-- Three sixteenths and their negative lie in the middle of two thousandths, and are written as the
even one. -/
theorem threeSixteenths_in_order :
    (Binary64.ofRatio true 3 16).isFinite = true ∧ (0.1875 : Binary64).isFinite = true ∧
      Binary64.ofRatio true 3 16 ≤ 0.1875 ∧
      ∃ a b : ℚ, WritesSeconds (.ofRatio true 3 16) "-0.188" a ∧ WritesSeconds 0.1875 "0.188" b ∧
        a ≤ b := by
  have hx : (Binary64.ofRatio true 3 16).isFinite = true := by decide +kernel
  have hy : (0.1875 : Binary64).isFinite = true := by decide +kernel
  have hxy : Binary64.ofRatio true 3 16 ≤ 0.1875 := by decide +kernel
  have hnegative : formatSeconds (.ofRatio true 3 16) = "-0.188" := by decide +kernel
  have hpositive : formatSeconds 0.1875 = "0.188" := by decide +kernel
  obtain ⟨a, b, ha, hb, hab⟩ := formatSeconds_nearest_in_order hx hy
  rw [hnegative] at ha
  rw [hpositive] at hb
  exact ⟨hx, hy, hxy, a, b, ha, hb, hab hxy⟩

end BroadcastIntake
