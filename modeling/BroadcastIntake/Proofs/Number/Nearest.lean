import BroadcastIntake.Proofs.Number.RoundTrip
import Mathlib.Algebra.Order.Field.Basic
import Mathlib.Data.Rat.Cast.Order
import Mathlib.Tactic.Linarith

/-!
# Numbers of double precision as exact numbers

A finite number of double precision is a count of quanta, and so it is an exact rational number,
`Binary64.toRat`.  Comparisons compare these.  A difference is rounded once, to the number of double
precision that is nearest to the exact difference (`isNearest_sub`).

Both rest on what rounding does to a count.  A count stays between the same two powers of two
(`two_pow_le_fitQuanta`, `fitQuanta_le_two_pow`), and all counts of double precision from the lower
one on are multiples of one unit (`dvd_of_fits`).  So rounding keeps the order of counts
(`fitQuanta_mono`), and no count of double precision is nearer than the rounded one
(`dist_fitQuanta_le`).
-/

namespace BroadcastIntake

/-! ## Rounded quotients -/

theorem divideToNearest_mono {a b : Nat} (den : Nat) (hab : a ≤ b) :
    divideToNearest a den ≤ divideToNearest b den := by
  have hquotient : a / den ≤ b / den := Nat.div_le_div_right hab
  rcases Nat.lt_or_eq_of_le hquotient with hless | hsame
  · rcases Binary64.divideToNearest_cases a den with ha | ha <;>
      rcases Binary64.divideToNearest_cases b den with hb | hb <;> omega
  · -- with equal quotients the order is that of the remainders
    have hmod : a % den ≤ b % den := by
      have hdiva := Nat.div_add_mod a den
      have hdivb := Nat.div_add_mod b den
      rw [hsame] at hdiva
      omega
    by_cases hdown : 2 * (a % den) < den
    · have ha : divideToNearest a den = a / den := if_pos hdown
      rcases Binary64.divideToNearest_cases b den with hb | hb <;> omega
    by_cases hup : den < 2 * (b % den)
    · have hb : divideToNearest b den = b / den + 1 := by
        unfold divideToNearest
        simp only [if_neg (Nat.lt_asymm hup), if_pos hup]
      rcases Binary64.divideToNearest_cases a den with ha | ha <;> omega
    · have hrest : a % den = b % den := by omega
      unfold divideToNearest
      rw [hsame, hrest]

/-- The distance of two counts. -/
def countDistance (m n : Nat) : Nat :=
  (m - n) + (n - m)

/-- The distance of two counts as that of exact numbers. -/
theorem cast_countDistance (m n : Nat) : (countDistance m n : ℚ) = |(m : ℚ) - n| := by
  unfold countDistance
  rcases Nat.le_total m n with hle | hle
  · have hcast : (m : ℚ) ≤ n := Nat.cast_le.2 hle
    rw [Nat.sub_eq_zero_of_le hle, Nat.zero_add, Nat.cast_sub hle,
      abs_of_nonpos (sub_nonpos.2 hcast), neg_sub]
  · have hcast : (n : ℚ) ≤ m := Nat.cast_le.2 hle
    rw [Nat.sub_eq_zero_of_le hle, Nat.add_zero, Nat.cast_sub hle,
      abs_of_nonneg (sub_nonneg.2 hcast)]

/-- The rounded quotient is at most half a unit away from the quotient. -/
theorem two_mul_dist_divideToNearest_le (num : Nat) {den : Nat} (hden : 0 < den) :
    2 * countDistance (divideToNearest num den * den) num ≤ den := by
  obtain ⟨habove, hbelow⟩ := two_mul_divideToNearest_mul_near num den hden
  unfold countDistance
  omega

/-- A quotient half a unit away from the rounded one lies in the middle of two whole numbers, and
the even one of them is taken. -/
theorem even_divideToNearest {num den : Nat} (hden : 0 < den)
    (hhalf : 2 * countDistance (divideToNearest num den * den) num = den) :
    Even (divideToNearest num den) := by
  have hdiv := Nat.div_add_mod num den
  have hmod := Nat.mod_lt num hden
  have hcomm : num / den * den = den * (num / den) := Nat.mul_comm _ _
  have hsucc : (num / den + 1) * den = num / den * den + den := Nat.succ_mul _ _
  unfold countDistance at hhalf
  unfold divideToNearest at hhalf ⊢
  dsimp only at hhalf ⊢
  rw [Nat.even_iff]
  split at hhalf
  · -- the quotient is nearer to the whole number below it
    omega
  · split at hhalf
    · -- the quotient is nearer to the whole number above it
      omega
    · rw [if_neg ‹_›, if_neg ‹_›]
      split <;> omega

/-- No multiple of the divisor is nearer than the rounded quotient. -/
theorem dist_divideToNearest_le (num : Nat) {den : Nat} (hden : 0 < den) (j : Nat) :
    countDistance (divideToNearest num den * den) num ≤ countDistance (j * den) num := by
  obtain ⟨habove, hbelow⟩ := two_mul_divideToNearest_mul_near num den hden
  unfold countDistance
  rcases Nat.lt_trichotomy j (divideToNearest num den) with hless | rfl | hmore
  · have hstep : (j + 1) * den ≤ divideToNearest num den * den := Nat.mul_le_mul_right den hless
    rw [Nat.succ_mul] at hstep
    omega
  · exact Nat.le_refl _
  · have hstep : (divideToNearest num den + 1) * den ≤ j * den := Nat.mul_le_mul_right den hmore
    rw [Nat.succ_mul] at hstep
    omega

namespace Binary64

/-! ## Rounded counts -/

section Counts

variable {n m k : Nat}

/-- A count with more than 53 digits is rounded to a multiple of a power of two. -/
theorem fitQuanta_of_log2 (hn : Nat.pow 2 53 ≤ n) (hk : n.log2 = 52 + k) :
    fitQuanta n 1 = divideToNearest n (2 ^ k) * 2 ^ k := by
  unfold fitQuanta
  simp only [Nat.div_one, Nat.not_lt.2 hn, if_false, hk, Nat.add_sub_cancel_left, Nat.one_mul]
  rfl

theorem exists_log2 (hn : Nat.pow 2 53 ≤ n) : ∃ k, n.log2 = 52 + k := by
  have hne : n ≠ 0 := Nat.ne_of_gt (Nat.lt_of_lt_of_le (by decide) hn)
  have hlog : 53 ≤ n.log2 := (Nat.le_log2 hne).2 hn
  exact ⟨n.log2 - 52, by omega⟩

theorem two_pow_le_fitQuanta (hn : n ≠ 0) : 2 ^ n.log2 ≤ fitQuanta n 1 := by
  by_cases hsmall : n < Nat.pow 2 53
  · rw [fitQuanta_of_le (Nat.le_of_lt hsmall)]
    exact Nat.log2_self_le hn
  · obtain ⟨k, hk⟩ := exists_log2 (Nat.not_lt.1 hsmall)
    have hdigits : 2 ^ 52 ≤ n / 2 ^ k := by
      rw [Nat.le_div_iff_mul_le (Nat.two_pow_pos k), ← Nat.pow_add, ← hk]
      exact Nat.log2_self_le hn
    have hrounded : 2 ^ 52 ≤ divideToNearest n (2 ^ k) := by
      rcases divideToNearest_cases n (2 ^ k) with h | h <;> omega
    rw [fitQuanta_of_log2 (Nat.not_lt.1 hsmall) hk, hk, Nat.pow_add]
    exact Nat.mul_le_mul_right _ hrounded

theorem fitQuanta_le_two_pow (n : Nat) : fitQuanta n 1 ≤ 2 ^ (n.log2 + 1) := by
  by_cases hsmall : n < Nat.pow 2 53
  · rw [fitQuanta_of_le (Nat.le_of_lt hsmall)]
    exact Nat.le_of_lt Nat.lt_log2_self
  · obtain ⟨k, hk⟩ := exists_log2 (Nat.not_lt.1 hsmall)
    have hdigits : n / 2 ^ k < 2 ^ 53 := by
      rw [Nat.div_lt_iff_lt_mul (Nat.two_pow_pos k), ← Nat.pow_add,
        show 53 + k = 52 + k + 1 by omega, ← hk]
      exact Nat.lt_log2_self
    have hrounded : divideToNearest n (2 ^ k) ≤ 2 ^ 53 := by
      rcases divideToNearest_cases n (2 ^ k) with h | h <;> omega
    rw [fitQuanta_of_log2 (Nat.not_lt.1 hsmall) hk, hk, show 52 + k + 1 = 53 + k by omega,
      Nat.pow_add]
    exact Nat.mul_le_mul_right _ hrounded

theorem fitQuanta_pos (hn : n ≠ 0) : 0 < fitQuanta n 1 :=
  Nat.lt_of_lt_of_le (Nat.two_pow_pos _) (two_pow_le_fitQuanta hn)

/-- Rounding keeps the order of counts. -/
theorem fitQuanta_mono (hnm : n ≤ m) : fitQuanta n 1 ≤ fitQuanta m 1 := by
  rcases Nat.eq_zero_or_pos n with rfl | hn
  · rw [fitQuanta_of_le (Nat.zero_le _)]
    exact Nat.zero_le _
  have hm : m ≠ 0 := by omega
  have hlog : n.log2 ≤ m.log2 :=
    (Nat.le_log2 hm).2 ((Nat.log2_self_le (Nat.ne_of_gt hn)).trans hnm)
  rcases Nat.lt_or_eq_of_le hlog with hless | hsame
  · -- a power of two lies between the two
    calc fitQuanta n 1 ≤ 2 ^ (n.log2 + 1) := fitQuanta_le_two_pow n
      _ ≤ 2 ^ m.log2 := Nat.pow_le_pow_right (by decide) hless
      _ ≤ fitQuanta m 1 := two_pow_le_fitQuanta hm
  · by_cases hsmall : m < Nat.pow 2 53
    · rw [fitQuanta_of_le (Nat.le_of_lt hsmall), fitQuanta_of_le (by omega)]
      exact hnm
    · -- both are rounded to multiples of the same unit
      obtain ⟨k, hk⟩ := exists_log2 (Nat.not_lt.1 hsmall)
      have hlarge : Nat.pow 2 53 ≤ n := by
        have hlow : 53 ≤ n.log2 := by
          rw [hsame]
          exact (Nat.le_log2 hm).2 (Nat.not_lt.1 hsmall)
        exact (Nat.le_log2 (by omega)).1 hlow
      rw [fitQuanta_of_log2 hlarge (hsame.trans hk), fitQuanta_of_log2 (Nat.not_lt.1 hsmall) hk]
      exact Nat.mul_le_mul_right _ (divideToNearest_mono _ hnm)

/-- From a power of two on, the counts that are not rounded are multiples of one unit. -/
theorem dvd_of_fits (hm : fitQuanta m 1 = m) (hlow : 2 ^ (52 + k) ≤ m) : 2 ^ k ∣ m := by
  by_cases hsmall : m < Nat.pow 2 53
  · have hk : k = 0 := by
      have hpow : 2 ^ (52 + k) < 2 ^ 53 := Nat.lt_of_le_of_lt hlow hsmall
      have hexponent := (Nat.pow_lt_pow_iff_right (by decide)).1 hpow
      omega
    rw [hk]
    exact Nat.one_dvd m
  · have hlarge := Nat.not_lt.1 hsmall
    have hne : m ≠ 0 := Nat.ne_of_gt (Nat.lt_of_lt_of_le (by decide) hlarge)
    obtain ⟨j, hj⟩ := exists_log2 hlarge
    have hkj : k ≤ j := by
      have hlog : 52 + k ≤ m.log2 := (Nat.le_log2 hne).2 hlow
      omega
    rw [← hm, fitQuanta_of_log2 hlarge hj]
    exact Dvd.dvd.mul_left (Nat.pow_dvd_pow 2 hkj) _

/-- No count of 53 digits is nearer than the rounded one. -/
theorem dist_fitQuanta_le (n : Nat) (hm : fitQuanta m 1 = m) :
    countDistance (fitQuanta n 1) n ≤ countDistance m n := by
  by_cases hsmall : n < Nat.pow 2 53
  · rw [fitQuanta_of_le (Nat.le_of_lt hsmall)]
    simp [countDistance]
  · have hlarge := Nat.not_lt.1 hsmall
    have hne : n ≠ 0 := Nat.ne_of_gt (Nat.lt_of_lt_of_le (by decide) hlarge)
    obtain ⟨k, hk⟩ := exists_log2 hlarge
    have hnear := dist_divideToNearest_le n (Nat.two_pow_pos k)
    rw [fitQuanta_of_log2 hlarge hk]
    rcases Nat.lt_or_ge m (2 ^ (52 + k)) with hbelow | habove
    · -- the power of two below the count is a multiple of the unit and nearer than what is below it
      have hpow : 2 ^ (52 + k) ≤ n := by
        rw [← hk]
        exact Nat.log2_self_le hne
      refine (hnear (2 ^ 52)).trans ?_
      rw [← Nat.pow_add]
      unfold countDistance
      omega
    · obtain ⟨j, rfl⟩ := dvd_of_fits hm habove
      rw [Nat.mul_comm (2 ^ k) j]
      exact hnear j

end Counts

/-! ## Exact values -/

theorem quantaPerOne_pos : 0 < quantaPerOne := by
  decide +kernel

theorem overflowQuanta_pos : 0 < overflowQuanta := by
  decide +kernel

theorem quantaPerOne_pos_rat : (0 : ℚ) < quantaPerOne :=
  Nat.cast_pos.2 quantaPerOne_pos

/-- The exact value of a finite number, and zero for the others. -/
def toRat (x : Binary64) : ℚ :=
  x.signedQuanta / quantaPerOne

theorem toRat_finite_false (quanta : Nat) :
    (finite false quanta).toRat = (quanta : ℚ) / quantaPerOne := by
  rw [toRat, signedQuanta, Int.cast_natCast]

theorem toRat_finite_true (quanta : Nat) :
    (finite true quanta).toRat = -((quanta : ℚ) / quantaPerOne) := by
  rw [toRat, signedQuanta, Int.cast_neg, Int.cast_natCast, neg_div]

variable {x y z : Binary64}

theorem toRat_lt_toRat_iff : x.toRat < y.toRat ↔ x.signedQuanta < y.signedQuanta := by
  unfold toRat
  rw [div_lt_div_iff_of_pos_right quantaPerOne_pos_rat, Int.cast_lt]

theorem toRat_le_toRat_iff : x.toRat ≤ y.toRat ↔ x.signedQuanta ≤ y.signedQuanta := by
  rw [← not_lt, toRat_lt_toRat_iff, not_lt]

theorem exists_finite (hx : x.isFinite = true) : ∃ negative quanta, x = finite negative quanta := by
  cases x with
  | finite negative quanta => exact ⟨negative, quanta, rfl⟩
  | _ => cases hx

theorem lt_iff_signedQuanta (hx : x.isFinite = true) (hy : y.isFinite = true) :
    x < y ↔ x.signedQuanta < y.signedQuanta := by
  obtain ⟨a, m, rfl⟩ := exists_finite hx
  obtain ⟨b, n, rfl⟩ := exists_finite hy
  exact decide_eq_true_iff

/-- Finite numbers are compared by their exact values. -/
theorem lt_iff_toRat (hx : x.isFinite = true) (hy : y.isFinite = true) :
    x < y ↔ x.toRat < y.toRat := by
  rw [lt_iff_signedQuanta hx hy, toRat_lt_toRat_iff]

theorem le_iff_signedQuanta (hx : x.isFinite = true) (hy : y.isFinite = true) :
    x ≤ y ↔ x.signedQuanta ≤ y.signedQuanta := by
  obtain ⟨a, m, rfl⟩ := exists_finite hx
  obtain ⟨b, n, rfl⟩ := exists_finite hy
  show (lt _ _ || eqv _ _) = true ↔ _
  simp only [lt, eqv, Bool.or_eq_true, decide_eq_true_eq, beq_iff_eq]
  omega

theorem le_iff_toRat (hx : x.isFinite = true) (hy : y.isFinite = true) :
    x ≤ y ↔ x.toRat ≤ y.toRat := by
  rw [le_iff_signedQuanta hx hy, toRat_le_toRat_iff]

theorem zero_eq : (0 : Binary64) = finite false 0 := by
  decide +kernel

theorem isFinite_zero : (0 : Binary64).isFinite = true := by
  rw [zero_eq]
  rfl

theorem signedQuanta_zero : (0 : Binary64).signedQuanta = 0 := by
  rw [zero_eq]
  rfl

theorem toRat_zero : (0 : Binary64).toRat = 0 := by
  rw [toRat, signedQuanta_zero, Int.cast_zero, zero_div]

theorem not_le_zero_of_pos (hx : 0 < x) : ¬ x ≤ 0 := by
  change lt 0 x = true at hx
  change ¬ (lt x 0 || eqv x 0) = true
  rw [zero_eq] at hx ⊢
  cases x with
  | nan => simp [lt] at hx
  | infinity negative => cases negative <;> simp_all [lt, eqv]
  | finite negative quanta =>
    simp only [lt, decide_eq_true_eq] at hx
    simp only [lt, eqv, Bool.or_eq_true, decide_eq_true_eq, beq_iff_eq]
    simp only [signedQuanta] at hx ⊢
    omega

/-! ## Differences -/

/-- The number is of double precision, and no such number is nearer to the exact value. -/
structure IsNearest (exact : ℚ) (x : Binary64) : Prop where
  isFinite : x.isFinite = true
  isDouble : x.IsDouble
  nearest : ∀ y : Binary64, y.isFinite = true → y.IsDouble → |x.toRat - exact| ≤ |y.toRat - exact|

/-- A signed count, its size rounded to 53 digits. -/
def fitSigned (d : Int) : Int :=
  d.sign * fitQuanta d.natAbs 1

theorem natAbs_fitSigned (d : Int) : (fitSigned d).natAbs = fitQuanta d.natAbs 1 := by
  unfold fitSigned
  rcases eq_or_ne d 0 with rfl | hd
  · rw [Int.sign_zero, Int.zero_mul]
    exact (fitQuanta_of_le (Nat.zero_le _)).symm
  · rw [Int.natAbs_mul, Int.natAbs_sign_of_ne_zero hd, Nat.one_mul, Int.natAbs_natCast]

theorem fitSigned_pos_iff {d : Int} : 0 < fitSigned d ↔ 0 < d := by
  unfold fitSigned
  rcases Int.lt_trichotomy d 0 with hneg | rfl | hpos
  · rw [Int.sign_eq_neg_one_of_neg hneg]
    omega
  · simp
  · have hrounded := fitQuanta_pos (n := d.natAbs) (by omega)
    rw [Int.sign_eq_one_of_pos hpos]
    omega

/-- A difference of finite numbers is the rounded exact difference, unless that is too large. -/
theorem sub_cases (hx : x.isFinite = true) (hy : y.isFinite = true) :
    (fitSigned (x.signedQuanta - y.signedQuanta)).natAbs < overflowQuanta ∧
        (x - y).isFinite = true ∧
        (x - y).signedQuanta = fitSigned (x.signedQuanta - y.signedQuanta) ∨
      overflowQuanta ≤ (fitSigned (x.signedQuanta - y.signedQuanta)).natAbs ∧
        x - y = infinity (decide (x.signedQuanta - y.signedQuanta < 0)) := by
  obtain ⟨a, m, rfl⟩ := exists_finite hx
  obtain ⟨b, n, rfl⟩ := exists_finite hy
  rw [show finite a m - finite b n = sub (finite a m) (finite b n) from rfl, sub, natAbs_fitSigned]
  generalize (finite a m).signedQuanta - (finite b n).signedQuanta = d
  by_cases hzero : d = 0
  · subst hzero
    refine .inl ⟨?_, rfl, ?_⟩
    · rw [Int.natAbs_zero, fitQuanta_of_le (Nat.zero_le _)]
      exact overflowQuanta_pos
    · rw [if_pos rfl, fitSigned, Int.sign_zero, Int.zero_mul]
      cases a && !b && m == 0 <;> rfl
  · rw [if_neg hzero, ofQuanta]
    by_cases hlarge : overflowQuanta ≤ fitQuanta d.natAbs 1
    · rw [if_pos hlarge]
      exact .inr ⟨hlarge, rfl⟩
    · rw [if_neg hlarge]
      refine .inl ⟨Nat.not_le.1 hlarge, rfl, ?_⟩
      unfold fitSigned
      rcases Int.lt_or_gt_of_ne hzero with hneg | hpos
      · rw [decide_eq_true hneg, Int.sign_eq_neg_one_of_neg hneg, Int.neg_one_mul]
        rfl
      · rw [decide_eq_false (by omega), Int.sign_eq_one_of_pos hpos, Int.one_mul]
        rfl

theorem isDouble_iff (hx : x.isFinite = true) :
    x.IsDouble ↔ fitQuanta x.signedQuanta.natAbs 1 = x.signedQuanta.natAbs ∧
      x.signedQuanta.natAbs < overflowQuanta := by
  obtain ⟨negative, quanta, rfl⟩ := exists_finite hx
  have hsize : (finite negative quanta).signedQuanta.natAbs = quanta := by
    cases negative <;> simp [signedQuanta]
  rw [hsize]
  exact ⟨fun h => ⟨h.rounded _ _ rfl, h.small _ _ rfl⟩, fun h => isDouble_finite negative h.1 h.2⟩

/-- No signed count of 53 digits is nearer than the rounded one. -/
theorem abs_fitSigned_sub_le (d : Int) {e : Int} (he : fitQuanta e.natAbs 1 = e.natAbs) :
    |fitSigned d - d| ≤ |e - d| := by
  have hnear := dist_fitQuanta_le d.natAbs he
  unfold countDistance at hnear
  rw [Int.abs_eq_natAbs, Int.abs_eq_natAbs, fitSigned]
  rcases Int.lt_trichotomy d 0 with hneg | rfl | hpos
  · rw [Int.sign_eq_neg_one_of_neg hneg]
    omega
  · simp
  · rw [Int.sign_eq_one_of_pos hpos]
    omega

theorem abs_toRat_sub (x : Binary64) (d : Int) :
    |x.toRat - (d : ℚ) / quantaPerOne| = ((|x.signedQuanta - d| : Int) : ℚ) / quantaPerOne := by
  rw [toRat, ← sub_div, abs_div, abs_of_pos quantaPerOne_pos_rat]
  push_cast
  rfl

/-- **A difference** that is finite is the number nearest to the exact difference. -/
theorem isNearest_sub (hx : x.isFinite = true) (hy : y.isFinite = true)
    (hfinite : (x - y).isFinite = true) : IsNearest (x.toRat - y.toRat) (x - y) := by
  rcases sub_cases hx hy with ⟨hsmall, -, hsub⟩ | ⟨-, hsub⟩
  · have hexact : x.toRat - y.toRat =
        ((x.signedQuanta - y.signedQuanta : Int) : ℚ) / quantaPerOne := by
      unfold toRat
      push_cast
      ring
    refine ⟨hfinite, (isDouble_iff hfinite).2 ?_, fun z hz hdouble => ?_⟩
    · rw [hsub]
      refine ⟨?_, hsmall⟩
      rw [natAbs_fitSigned, fitQuanta_fitQuanta]
    · have hnear := abs_fitSigned_sub_le (x.signedQuanta - y.signedQuanta)
        ((isDouble_iff hz).1 hdouble).1
      rw [hexact, abs_toRat_sub, abs_toRat_sub, hsub]
      exact (div_le_div_iff_of_pos_right quantaPerOne_pos_rat).2 (Int.cast_le.2 hnear)
  · rw [hsub] at hfinite
    cases hfinite

/-- What is left of a number after less than all of it is taken away is finite and no larger. -/
theorem sub_le_of_le (hy : y.isFinite = true) (hz : z.isFinite = true) (hdouble : z.IsDouble)
    (hnonneg : 0 ≤ y) (hless : y < x) (hle : x ≤ z) (hx : x.isFinite = true) :
    (x - y).isFinite = true ∧ x - y ≤ z := by
  rw [le_iff_signedQuanta isFinite_zero hy, signedQuanta_zero] at hnonneg
  rw [lt_iff_signedQuanta hy hx] at hless
  rw [le_iff_signedQuanta hx hz] at hle
  obtain ⟨hfits, hsmall⟩ := (isDouble_iff hz).1 hdouble
  have hrounded : fitQuanta (x.signedQuanta - y.signedQuanta).natAbs 1 ≤ z.signedQuanta.natAbs := by
    rw [← hfits]
    exact fitQuanta_mono (by omega)
  rw [← natAbs_fitSigned] at hrounded
  rcases sub_cases hx hy with ⟨-, hfinite, hsub⟩ | ⟨hlarge, -⟩
  · refine ⟨hfinite, ?_⟩
    rw [le_iff_signedQuanta hfinite hz, hsub]
    omega
  · omega

/-- A difference is positive exactly when the exact one is: none is rounded to zero. -/
theorem zero_lt_sub_iff (hx : x.isFinite = true) (hy : y.isFinite = true) :
    0 < x - y ↔ y < x := by
  rw [lt_iff_signedQuanta hy hx]
  rcases sub_cases hx hy with ⟨-, hfinite, hsub⟩ | ⟨hlarge, hsub⟩
  · rw [lt_iff_signedQuanta isFinite_zero hfinite, signedQuanta_zero, hsub, fitSigned_pos_iff]
    omega
  · have hne : x.signedQuanta - y.signedQuanta ≠ 0 := by
      intro hzero
      rw [hzero] at hlarge
      exact absurd hlarge (Nat.not_le.2 overflowQuanta_pos)
    rw [hsub, zero_eq]
    show (!decide _) = true ↔ _
    rw [Bool.not_eq_true', decide_eq_false_iff_not]
    omega

end Binary64

end BroadcastIntake
