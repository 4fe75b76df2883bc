import BroadcastIntake.FilterChain
import BroadcastIntake.Proofs.Number.Nearest
import Mathlib.Tactic.NormNum

/-!
# What a filter chain does

A chain is a list of directives in a fixed order: a cut and a restart of the time stamps, a
loudness, a fade in and a fade out.  `FilterChain.Realizes` says which of them stand in a chain and
with which numbers.

What has to be shown is about the cut.  The window is checked by the rounded length and by the order
of its ends; for a finite duration that is the same as lying within the duration
(`TrimWindow.fits_iff`), and then the length is positive and no longer than the duration
(`TrimWindow.length_bounds`).  The levels that the loudness filter takes are an interval, and a
level is brought into it without a change when it is there already (`isLevel_clampLevel`,
`clampLevel_eq_self`).
-/

namespace BroadcastIntake

namespace Binary64

variable {x y z : Binary64}

/-- What lies between two numbers, infinite ones included, is finite. -/
theorem isFinite_of_lt_of_lt (hyx : y < x) (hxz : x < z) : x.isFinite = true := by
  change lt y x = true at hyx
  change lt x z = true at hxz
  cases x with
  | finite => rfl
  | nan => cases y <;> cases hyx
  | infinity negative =>
      cases negative with
      | true => cases y <;> simp [lt] at hyx
      | false => cases z <;> simp [lt] at hxz

theorem lt_infinity (hx : x.isFinite = true) : x < infinity false := by
  obtain ⟨negative, quanta, rfl⟩ := exists_finite hx
  rfl

theorem lt_infinity_of_le (hxz : x ≤ z) (hz : z.isFinite = true) : x < infinity false := by
  obtain ⟨negative, quanta, rfl⟩ := exists_finite hz
  change (lt x _ || eqv x _) = true at hxz
  cases x with
  | finite => rfl
  | nan => cases hxz
  | infinity negative =>
      cases negative with
      | true => rfl
      | false => cases hxz

theorem infinity_lt_of_nonneg (hx : 0 ≤ x) : infinity true < x := by
  rw [zero_eq] at hx
  change (lt _ x || eqv _ x) = true at hx
  cases x with
  | finite => rfl
  | nan => cases hx
  | infinity negative =>
      cases negative with
      | true => cases hx
      | false => rfl

theorem infinity_lt_of_zero_lt_sub (hy : y.isFinite = true) (hpos : 0 < x - y) :
    infinity true < x := by
  obtain ⟨negative, quanta, rfl⟩ := exists_finite hy
  rw [zero_eq] at hpos
  change lt _ (sub x _) = true at hpos
  cases x with
  | finite => rfl
  | nan => cases hpos
  | infinity negative =>
      cases negative with
      | true => cases hpos
      | false => rfl

theorem isFinite_of_lt_of_le (hyx : y < x) (hxz : x ≤ z) (hz : z.isFinite = true) :
    x.isFinite = true :=
  isFinite_of_lt_of_lt hyx (lt_infinity_of_le hxz hz)

theorem isFinite_of_nonneg_of_lt (hx : 0 ≤ x) (hxz : x < z) : x.isFinite = true :=
  isFinite_of_lt_of_lt (infinity_lt_of_nonneg hx) hxz

theorem isFinite_of_zero_lt_sub (hy : y.isFinite = true) (hpos : 0 < x - y) (hxz : x ≤ z)
    (hz : z.isFinite = true) : x.isFinite = true :=
  isFinite_of_lt_of_le (infinity_lt_of_zero_lt_sub hy hpos) hxz hz

theorem le_of_lt (hxy : x < y) : x ≤ y := by
  change (lt x y || eqv x y) = true
  rw [show lt x y = true from hxy]
  rfl

theorem le_refl_of_isFinite (hx : x.isFinite = true) : x ≤ x :=
  (le_iff_toRat hx hx).2 le_rfl

theorem toRat_of_isZero (hx : x.isZero = true) : x.toRat = 0 := by
  unfold isZero at hx
  split at hx
  · rename_i negative
    cases negative with
    | false => rw [toRat_finite_false, Nat.cast_zero, zero_div]
    | true => rw [toRat_finite_true, Nat.cast_zero, zero_div, neg_zero]
  · cases hx

theorem isZero_eq_false_of_pos (hx : 0 < x) : x.isZero = false := by
  rw [zero_eq] at hx
  cases x with
  | finite negative quanta =>
      cases quanta with
      | succ n => rfl
      | zero => cases negative <;> cases hx
  | _ => rfl

/-- Two finite numbers of the same value are the same, unless they are the two zeros. -/
theorem eq_of_toRat_eq (hx : x.isFinite = true) (hy : y.isFinite = true) (hxy : x.toRat = y.toRat)
    (hne : x.toRat ≠ 0) : x = y := by
  obtain ⟨a, m, rfl⟩ := exists_finite hx
  obtain ⟨b, n, rfl⟩ := exists_finite hy
  have hquanta : (finite a m).signedQuanta = (finite b n).signedQuanta :=
    le_antisymm (toRat_le_toRat_iff.1 hxy.le) (toRat_le_toRat_iff.1 hxy.ge)
  have hnonzero : (finite a m).signedQuanta ≠ 0 := by
    intro hzero
    rw [toRat, hzero, Int.cast_zero, zero_div] at hne
    exact hne rfl
  cases a <;> cases b <;> simp only [signedQuanta] at hquanta hnonzero <;> simp <;> omega

end Binary64

/-! ## Levels -/

/-- The loudness filter takes the level: it lies between `-70` and `-5`. -/
structure IsLevel (level : Binary64) : Prop where
  isFinite : level.isFinite = true
  ge : -70 ≤ level.toRat
  le : level.toRat ≤ -5

theorem Binary64.toRat_minus_whole (n : Nat) : (finite true (n * quantaPerOne)).toRat = -n := by
  rw [toRat_finite_true, Nat.cast_mul, mul_div_cancel_right₀ _ quantaPerOne_pos_rat.ne']

theorem softest_eq : levelRange.1 = .finite true (70 * Binary64.quantaPerOne) := by
  decide +kernel

theorem loudest_eq : levelRange.2 = .finite true (5 * Binary64.quantaPerOne) := by
  decide +kernel

theorem isLevel_softest : IsLevel levelRange.1 := by
  rw [softest_eq]
  refine ⟨rfl, ?_, ?_⟩ <;> rw [Binary64.toRat_minus_whole] <;> norm_num

theorem isLevel_loudest : IsLevel levelRange.2 := by
  rw [loudest_eq]
  refine ⟨rfl, ?_, ?_⟩ <;> rw [Binary64.toRat_minus_whole] <;> norm_num

theorem toRat_softest : levelRange.1.toRat = -70 := by
  rw [softest_eq, Binary64.toRat_minus_whole]
  norm_num

theorem toRat_loudest : levelRange.2.toRat = -5 := by
  rw [loudest_eq, Binary64.toRat_minus_whole]
  norm_num

/-- Every level, no number and the infinities among them, is brought into the interval. -/
theorem isLevel_clampLevel (level : Binary64) : IsLevel (clampLevel level) := by
  have hsoftest := isLevel_softest
  have hloudest := isLevel_loudest
  unfold clampLevel Binary64.max Binary64.min
  by_cases hbelow : Binary64.lt level levelRange.2 = true
  · rw [if_pos hbelow]
    by_cases habove : Binary64.lt levelRange.1 level = true
    · rw [if_pos habove]
      have hfinite := Binary64.isFinite_of_lt_of_lt habove hbelow
      have hge := (Binary64.lt_iff_toRat hsoftest.isFinite hfinite).1 habove
      have hle := (Binary64.lt_iff_toRat hfinite hloudest.isFinite).1 hbelow
      rw [toRat_softest] at hge
      rw [toRat_loudest] at hle
      exact ⟨hfinite, hge.le, hle.le⟩
    · rw [if_neg habove]
      exact hsoftest
  · rw [if_neg hbelow]
    split
    · exact hloudest
    · exact hsoftest

/-- A level of the interval is left as it is. -/
theorem clampLevel_eq_self {level : Binary64} (hlevel : IsLevel level) :
    clampLevel level = level := by
  have hne : level.toRat ≠ 0 := by
    have hle := hlevel.le
    intro hzero
    rw [hzero] at hle
    norm_num at hle
  have hmin : Binary64.min levelRange.2 level = level := by
    unfold Binary64.min
    split
    · rfl
    · rename_i hnot
      refine (Binary64.eq_of_toRat_eq hlevel.isFinite isLevel_loudest.isFinite ?_ hne).symm
      rw [toRat_loudest]
      refine le_antisymm hlevel.le (le_of_not_gt fun hless => hnot ?_)
      refine (Binary64.lt_iff_toRat hlevel.isFinite isLevel_loudest.isFinite).2 ?_
      rwa [toRat_loudest]
  rw [clampLevel, hmin]
  unfold Binary64.max
  split
  · rfl
  · rename_i hnot
    refine (Binary64.eq_of_toRat_eq hlevel.isFinite isLevel_softest.isFinite ?_ hne).symm
    rw [toRat_softest]
    refine le_antisymm (le_of_not_gt fun hless => hnot ?_) hlevel.ge
    refine (Binary64.lt_iff_toRat isLevel_softest.isFinite hlevel.isFinite).2 ?_
    rwa [toRat_softest]

/-! ## The window -/

namespace TrimWindow

variable {w : TrimWindow}

/-- For a finite duration the checks of a window say that it lies within the duration. -/
theorem fits_iff (hduration : w.duration.isFinite = true) (hstart : 0 ≤ w.startSeconds) :
    w.fits = true ↔ w.startSeconds < w.stop ∧ w.stop ≤ w.duration := by
  have hfits : w.fits = true ↔
      (0 < w.length ∧ w.startSeconds < w.duration) ∧ w.stop ≤ w.duration := by
    simp [fits]
  rw [hfits]
  constructor
  · rintro ⟨⟨hlength, hless⟩, hstop⟩
    have hstartFinite := Binary64.isFinite_of_nonneg_of_lt hstart hless
    have hstopFinite := Binary64.isFinite_of_zero_lt_sub hstartFinite hlength hstop hduration
    exact ⟨(Binary64.zero_lt_sub_iff hstopFinite hstartFinite).1 hlength, hstop⟩
  · rintro ⟨hless, hstop⟩
    have hstartFinite := Binary64.isFinite_of_nonneg_of_lt hstart hless
    have hstopFinite := Binary64.isFinite_of_lt_of_le hless hstop hduration
    refine ⟨⟨(Binary64.zero_lt_sub_iff hstopFinite hstartFinite).2 hless, ?_⟩, hstop⟩
    rw [Binary64.lt_iff_toRat hstartFinite hstopFinite] at hless
    rw [Binary64.le_iff_toRat hstopFinite hduration] at hstop
    exact (Binary64.lt_iff_toRat hstartFinite hduration).2 (hless.trans_le hstop)

/-- A window within a finite duration has a positive length, which is no longer than the duration
and the number nearest to the exact one. -/
theorem length_bounds (hduration : w.duration.isFinite = true) (hdouble : w.duration.IsDouble)
    (hstart : 0 ≤ w.startSeconds) (hfits : w.fits = true) :
    Binary64.IsNearest (w.stop.toRat - w.startSeconds.toRat) w.length ∧
      0 < w.length ∧ w.length ≤ w.duration := by
  obtain ⟨hless, hstop⟩ := (fits_iff hduration hstart).1 hfits
  have hstartFinite := Binary64.isFinite_of_nonneg_of_lt hstart hless
  have hstopFinite := Binary64.isFinite_of_lt_of_le hless hstop hduration
  obtain ⟨hlength, hle⟩ := Binary64.sub_le_of_le hstartFinite hduration hdouble hstart hless hstop
    hstopFinite
  exact ⟨Binary64.isNearest_sub hstopFinite hstartFinite hlength,
    (Binary64.zero_lt_sub_iff hstopFinite hstartFinite).2 hless, hle⟩

end TrimWindow

/-! ## Directives -/

namespace FilterChain

/-- One directive of a chain. -/
inductive Directive where
  | cut (start length : Binary64)
  | restart
  | loudness (level : Binary64)
  | fadeIn (length : Binary64)
  | fadeOut (start length : Binary64)
  deriving DecidableEq, Repr

namespace Directive

/-- The filter that carries a directive out. -/
def text : Directive → String
  | cut start length => s!"atrim=start={formatSeconds start}:duration={formatSeconds length}"
  | restart => "asetpts=PTS-STARTPTS"
  | loudness level => s!"loudnorm=I={formatSeconds level}"
  | fadeIn length => s!"afade=t=in:st=0:d={formatSeconds length}"
  | fadeOut start length => s!"afade=t=out:st={formatSeconds start}:d={formatSeconds length}"

/-- The place of a directive in the order of a chain. -/
def rank : Directive → Nat
  | cut _ _ => 0
  | restart => 1
  | loudness _ => 2
  | fadeIn _ => 3
  | fadeOut _ _ => 4

end Directive

end FilterChain

namespace ProcessingOptions

variable (o : ProcessingOptions) (duration : Binary64)

/-- A trim point is set. -/
def AsksCut : Prop :=
  o.trimStart.isSome = true ∨ o.trimEnd.isSome = true

instance : Decidable o.AsksCut :=
  inferInstanceAs (Decidable (_ ∨ _))

def cutStart : Binary64 :=
  o.trimStart.getD 0

def cutStop : Binary64 :=
  o.trimEnd.getD duration

/-- A trim point is set, and the window lies within the duration. -/
def Cuts : Prop :=
  o.AsksCut ∧ o.cutStart < o.cutStop duration ∧ o.cutStop duration ≤ duration

/-- The window that is cut out, if one is. -/
def window? : Option TrimWindow :=
  if o.AsksCut ∧ (TrimWindow.ofOptions o duration).fits = true then some (.ofOptions o duration)
  else none

/-- The length of what is left. -/
def outputDuration : Binary64 :=
  (o.window? duration).elim duration TrimWindow.length

end ProcessingOptions

namespace FilterChain

section Build

variable (o : ProcessingOptions) (duration fadeIn fadeOut : Binary64)

/-- The directives of a chain, in order. -/
def directives : List Directive :=
  (o.window? duration).elim [] (fun w => [.cut w.startSeconds w.length, .restart]) ++
    o.level.toList.map (fun level => .loudness (clampLevel level)) ++
    (if o.fadeIn then [.fadeIn fadeIn] else []) ++
    if o.fadeOut then [.fadeOut (fadeOutStart (o.outputDuration duration) fadeOut) fadeOut] else []

theorem value_trim (source : String) :
    (trim o duration source).value =
      ⟨(o.window? duration).elim [] TrimWindow.filters,
        if o.AsksCut ∧ o.window? duration = none then [(TrimWindow.ofOptions o duration).message]
        else [],
        o.outputDuration duration⟩ := by
  have hnone : (o.trimStart.isNone && o.trimEnd.isNone) = true ↔ ¬ o.AsksCut := by
    unfold ProcessingOptions.AsksCut
    cases o.trimStart <;> cases o.trimEnd <;> simp
  unfold trim
  by_cases hasks : o.AsksCut
  · have hsome : ¬ (o.trimStart.isNone && o.trimEnd.isNone) = true := fun h => hnone.1 h hasks
    by_cases hfits : (TrimWindow.ofOptions o duration).fits = true
    · have hwindow : o.window? duration = some (.ofOptions o duration) := if_pos ⟨hasks, hfits⟩
      simp [hsome, hfits, ProcessingOptions.outputDuration, hwindow]
    · have hwindow : o.window? duration = none := if_neg fun h => hfits h.2
      simp [hsome, hfits, hasks, ProcessingOptions.outputDuration, hwindow]
  · have hwindow : o.window? duration = none := if_neg fun h => hasks h.1
    simp [hnone.2 hasks, hasks, ProcessingOptions.outputDuration, hwindow]

theorem value_loudness (level? : Option Binary64) :
    (loudness level?).value =
      (level?.toList.map fun level => Directive.loudness (clampLevel level)).map
        Directive.text := by
  cases level? with
  | none => rfl
  | some requested =>
      unfold loudness
      dsimp only
      split <;> rfl

theorem fades_eq (out : Binary64) :
    fades o out fadeIn fadeOut =
      ((if o.fadeIn then [Directive.fadeIn fadeIn] else []) ++
        if o.fadeOut then [Directive.fadeOut (fadeOutStart out fadeOut) fadeOut] else []).map
        Directive.text := by
  unfold fades
  cases o.fadeIn <;> cases o.fadeOut <;> rfl

/-- The filters are those of the directives. -/
theorem filters_build (probe : ProbeInfo) (source : String) :
    (build o probe fadeIn fadeOut source).value.filters =
      (directives o probe.duration fadeIn fadeOut).map Directive.text := by
  have hcut : (o.window? probe.duration).elim [] TrimWindow.filters =
      ((o.window? probe.duration).elim [] fun w =>
        [Directive.cut w.startSeconds w.length, .restart]).map Directive.text := by
    cases o.window? probe.duration <;> rfl
  simp only [build, Logged.value_bind, Logged.value_pure, value_trim, value_loudness, fades_eq,
    directives, hcut, List.map_append, List.append_assoc]

/-- The directives are those that the options ask for, each at most once and in the order of a
chain: the pair that cuts out the window when it lies within the duration, a loudness within the
interval of levels, and the fades, the last one ending with what is left. -/
structure Realizes (out : Binary64) (ds : List Directive) : Prop where
  ordered : ds.Pairwise fun a b => a.rank < b.rank
  cut : ∀ start length, .cut start length ∈ ds ↔
    o.Cuts duration ∧ start = o.cutStart ∧ length = o.cutStop duration - o.cutStart
  restart : .restart ∈ ds ↔ o.Cuts duration
  loudness : (∃ level, .loudness level ∈ ds) ↔ o.level.isSome = true
  level : ∀ level, .loudness level ∈ ds →
    IsLevel level ∧ ∀ requested ∈ o.level, IsLevel requested → level = requested
  fadeIn : ∀ length, .fadeIn length ∈ ds ↔ o.fadeIn = true ∧ length = fadeIn
  fadeOut : ∀ start length, .fadeOut start length ∈ ds ↔
    o.fadeOut = true ∧ start = .max 0 (out - fadeOut) ∧ length = fadeOut

end Build

end FilterChain

namespace ProcessingOptions

variable {o : ProcessingOptions} {duration : Binary64}

/-- The trim points that are set are positive. -/
def HasPositivePoints (o : ProcessingOptions) : Prop :=
  ∀ x ∈ o.trimStart, 0 < x

theorem HasPositivePoints.nonneg (hpoints : o.HasPositivePoints) : ∀ x ∈ o.trimStart, 0 ≤ x :=
  fun x hx => Binary64.le_of_lt (hpoints x hx)

theorem pos_of_trimPoint {x : Binary64} (seconds : Binary64)
    (hpoint : trimPoint seconds = some x) : 0 < x := by
  rw [trimPoint] at hpoint
  obtain ⟨hpos, hsome⟩ := Option.ite_none_right_eq_some.1 hpoint
  rw [← Option.some.inj hsome]
  exact hpos

theorem startSeconds_nonneg (hstart : ∀ x ∈ o.trimStart, 0 ≤ x) :
    0 ≤ (TrimWindow.ofOptions o duration).startSeconds := by
  unfold TrimWindow.startSeconds TrimWindow.ofOptions
  cases hx : o.trimStart.filter fun x => !x.isZero with
  | none => exact Binary64.le_refl_of_isFinite Binary64.isFinite_zero
  | some x => exact hstart x (Option.filter_eq_some_iff.1 hx).1

/-- The start of a window has the value of the trim point, a zero of either sign that of none. -/
theorem toRat_startSeconds :
    (TrimWindow.ofOptions o duration).startSeconds.toRat = o.cutStart.toRat := by
  unfold TrimWindow.startSeconds TrimWindow.ofOptions cutStart
  cases o.trimStart with
  | none => rfl
  | some x =>
      dsimp only
      rw [Option.filter_some]
      split
      · rfl
      · rename_i hzero
        have hx : x.isZero = true := by simpa using hzero
        rw [Option.getD_none, Option.getD_some, Binary64.toRat_of_isZero hx, Binary64.toRat_zero]

theorem startSeconds_ofOptions (duration : Binary64) (hpoints : o.HasPositivePoints) :
    (TrimWindow.ofOptions o duration).startSeconds = o.cutStart := by
  unfold TrimWindow.startSeconds TrimWindow.ofOptions cutStart
  cases hstart : o.trimStart with
  | none => rfl
  | some x =>
      have hx : (!x.isZero) = true := by
        rw [Binary64.isZero_eq_false_of_pos (hpoints x hstart)]
        rfl
      rw [Option.filter_some, if_pos hx]

theorem window?_eq_some_iff_fits {w : TrimWindow} :
    o.window? duration = some w ↔
      (o.AsksCut ∧ (TrimWindow.ofOptions o duration).fits = true) ∧ w = .ofOptions o duration := by
  rw [window?, Option.ite_none_right_eq_some, Option.some.injEq, eq_comm (b := w)]

theorem window?_eq_none_of_not_fits (hnot : ¬ (TrimWindow.ofOptions o duration).fits = true) :
    o.window? duration = none :=
  if_neg fun h => hnot h.2

theorem outputDuration_of_window?_eq_some {w : TrimWindow} (hwindow : o.window? duration = some w) :
    o.outputDuration duration = w.length := by
  rw [outputDuration, hwindow, Option.elim_some]

theorem outputDuration_of_window?_eq_none (hwindow : o.window? duration = none) :
    o.outputDuration duration = duration := by
  rw [outputDuration, hwindow, Option.elim_none]

theorem window?_eq_some_iff (hduration : duration.isFinite = true) (hpoints : o.HasPositivePoints)
    {w : TrimWindow} :
    o.window? duration = some w ↔ o.Cuts duration ∧ w = .ofOptions o duration := by
  have hfits := TrimWindow.fits_iff (w := .ofOptions o duration) hduration
    (startSeconds_nonneg hpoints.nonneg)
  rw [startSeconds_ofOptions duration hpoints] at hfits
  have hcuts : o.Cuts duration ↔
      o.AsksCut ∧ (TrimWindow.ofOptions o duration).fits = true := by
    rw [hfits]
    rfl
  rw [hcuts, window?_eq_some_iff_fits]

theorem outputDuration_of_cuts (hduration : duration.isFinite = true)
    (hpoints : o.HasPositivePoints) (hcuts : o.Cuts duration) :
    o.outputDuration duration = o.cutStop duration - o.cutStart := by
  have hwindow := (window?_eq_some_iff hduration hpoints).2 ⟨hcuts, rfl⟩
  rw [outputDuration_of_window?_eq_some hwindow, ← startSeconds_ofOptions duration hpoints]
  rfl

theorem outputDuration_of_not_cuts (hduration : duration.isFinite = true)
    (hpoints : o.HasPositivePoints) (hcuts : ¬ o.Cuts duration) :
    o.outputDuration duration = duration :=
  outputDuration_of_window?_eq_none <| Option.eq_none_iff_forall_ne_some.2 fun _ hw =>
    hcuts ((window?_eq_some_iff hduration hpoints).1 hw).1

theorem outputDuration_bounds (hduration : duration.isFinite = true)
    (hdouble : duration.IsDouble) (hpoints : o.HasPositivePoints) (hcuts : o.Cuts duration) :
    Binary64.IsNearest ((o.cutStop duration).toRat - o.cutStart.toRat)
        (o.outputDuration duration) ∧
      0 < o.outputDuration duration ∧ o.outputDuration duration ≤ duration := by
  have hstart := startSeconds_ofOptions duration hpoints
  have hnonneg : 0 ≤ (TrimWindow.ofOptions o duration).startSeconds :=
    startSeconds_nonneg hpoints.nonneg
  have hbounds := TrimWindow.length_bounds hduration hdouble hnonneg
    ((TrimWindow.fits_iff hduration hnonneg).2 (hstart ▸ hcuts.2))
  rw [TrimWindow.length, hstart] at hbounds
  rw [outputDuration_of_cuts hduration hpoints hcuts]
  exact hbounds

end ProcessingOptions

namespace FilterChain

variable {o : ProcessingOptions} {duration fadeIn fadeOut : Binary64}

theorem mem_directives {d : Directive} :
    d ∈ directives o duration fadeIn fadeOut ↔
      (∃ w, o.window? duration = some w ∧ (d = .cut w.startSeconds w.length ∨ d = .restart)) ∨
      (∃ level, o.level = some level ∧ d = .loudness (clampLevel level)) ∨
      (o.fadeIn = true ∧ d = .fadeIn fadeIn) ∨
      (o.fadeOut = true ∧
        d = .fadeOut (fadeOutStart (o.outputDuration duration) fadeOut) fadeOut) := by
  unfold directives
  cases o.window? duration <;> cases o.level <;> cases o.fadeIn <;> cases o.fadeOut <;>
    simp [or_assoc]

/-- The directives of a chain are those that the options ask for. -/
theorem realizes_directives (hduration : duration.isFinite = true)
    (hpoints : o.HasPositivePoints) :
    Realizes o duration fadeIn fadeOut (o.outputDuration duration)
      (directives o duration fadeIn fadeOut) := by
  have hwindow : ∀ w, o.window? duration = some w ↔
      o.Cuts duration ∧ w = .ofOptions o duration :=
    fun w => ProcessingOptions.window?_eq_some_iff hduration hpoints
  have hstart := ProcessingOptions.startSeconds_ofOptions duration hpoints
  have hlength : (TrimWindow.ofOptions o duration).length = o.cutStop duration - o.cutStart := by
    rw [TrimWindow.length, hstart]
    rfl
  refine ⟨?ordered, ?cut, ?restart, ?loudness, ?level, ?fadeIn, ?fadeOut⟩
  case ordered =>
    unfold directives
    cases o.window? duration <;> cases o.level <;> cases o.fadeIn <;> cases o.fadeOut <;>
      simp [Directive.rank]
  case cut =>
    intro start length
    simp [mem_directives, hwindow, hstart, hlength]
  case restart => simp [mem_directives, hwindow]
  case loudness => simp [mem_directives, Option.isSome_iff_exists]
  case level =>
    intro level hlevel
    obtain ⟨requested, hrequested, hclamped⟩ :
        ∃ requested, o.level = some requested ∧ level = clampLevel requested := by
      simpa [mem_directives] using hlevel
    rw [hclamped]
    refine ⟨isLevel_clampLevel requested, fun requested' hrequested' hinside => ?_⟩
    have hsame : requested = requested' := Option.some.inj (hrequested.symm.trans hrequested')
    rw [← hsame] at hinside ⊢
    exact clampLevel_eq_self hinside
  case fadeIn => simp [mem_directives]
  case fadeOut => simp [mem_directives, fadeOutStart]

/-- Nothing is filtered in a file that passes through. -/
theorem directives_of_not_needsProcessing (hneeds : o.needsProcessing = false) :
    directives o duration fadeIn fadeOut = [] := by
  simp only [ProcessingOptions.needsProcessing, Bool.or_eq_false_iff] at hneeds
  obtain ⟨⟨⟨⟨⟨hstart, hstop⟩, -⟩, hlevel⟩, hfadeIn⟩, hfadeOut⟩ := hneeds
  have hwindow : o.window? duration = none :=
    if_neg fun h => by simp [ProcessingOptions.AsksCut, hstart, hstop] at h
  have hnone : o.level = none := by simpa using hlevel
  simp [directives, hwindow, hnone, hfadeIn, hfadeOut]

section Fulfills

variable (o : ProcessingOptions) (duration fadeIn fadeOut : Binary64)

/-- The chain does for a file of the given duration what the options ask for: it has the directives
that they ask for, it gives the length of what is left, and it has one warning exactly when a trim
point is set but nothing is cut. -/
structure Fulfills (c : FilterChain) : Prop where
  filters : ∃ ds, c.filters = ds.map Directive.text ∧
    Realizes o duration fadeIn fadeOut c.outputDuration ds
  passesThrough : o.needsProcessing = false → c.filters = []
  cut : o.Cuts duration → c.outputDuration = o.cutStop duration - o.cutStart
  nearest : o.Cuts duration →
    Binary64.IsNearest ((o.cutStop duration).toRat - o.cutStart.toRat) c.outputDuration
  uncut : ¬ o.Cuts duration → c.outputDuration = duration
  pos : 0 < c.outputDuration
  le : c.outputDuration ≤ duration
  warned : o.AsksCut → ¬ o.Cuts duration →
    c.warnings = [(TrimWindow.ofOptions o duration).message]
  unwarned : ¬ o.AsksCut ∨ o.Cuts duration → c.warnings = []

end Fulfills

section Build

variable (o fadeIn fadeOut) (probe : ProbeInfo) (source : String)

theorem outputDuration_build :
    (build o probe fadeIn fadeOut source).value.outputDuration =
      o.outputDuration probe.duration := by
  simp only [build, Logged.value_bind, Logged.value_pure, value_trim]

theorem warnings_build :
    (build o probe fadeIn fadeOut source).value.warnings =
      if o.AsksCut ∧ o.window? probe.duration = none then
        [(TrimWindow.ofOptions o probe.duration).message]
      else [] := by
  simp only [build, Logged.value_bind, Logged.value_pure, value_trim]

end Build

/-- The chain for positive trim points and a positive finite duration fulfills the options. -/
theorem fulfills_build {probe : ProbeInfo} (hpoints : o.HasPositivePoints)
    (hfinite : probe.duration.isFinite = true) (hdouble : probe.duration.IsDouble)
    (hpos : 0 < probe.duration) (source : String) :
    Fulfills o probe.duration fadeIn fadeOut (build o probe fadeIn fadeOut source).value := by
  have hcut := ProcessingOptions.outputDuration_of_cuts hfinite hpoints
  have huncut := ProcessingOptions.outputDuration_of_not_cuts hfinite hpoints
  have hbounds := ProcessingOptions.outputDuration_bounds hfinite hdouble hpoints
  have hwindow : o.window? probe.duration = none ↔ ¬ o.Cuts probe.duration := by
    simp [Option.eq_none_iff_forall_ne_some,
      ProcessingOptions.window?_eq_some_iff hfinite hpoints]
  have hduration := outputDuration_build o fadeIn fadeOut probe source
  have hwarnings := warnings_build o fadeIn fadeOut probe source
  exact {
    filters := ⟨_, filters_build o fadeIn fadeOut probe source,
      hduration ▸ realizes_directives hfinite hpoints⟩
    passesThrough := fun hneeds => by
      rw [filters_build, directives_of_not_needsProcessing hneeds, List.map_nil]
    cut := fun hcuts => hduration.trans (hcut hcuts)
    nearest := fun hcuts => hduration ▸ (hbounds hcuts).1
    uncut := fun hcuts => hduration.trans (huncut hcuts)
    pos := by
      rw [hduration]
      by_cases hcuts : o.Cuts probe.duration
      · exact (hbounds hcuts).2.1
      · rw [huncut hcuts]
        exact hpos
    le := by
      rw [hduration]
      by_cases hcuts : o.Cuts probe.duration
      · exact (hbounds hcuts).2.2
      · rw [huncut hcuts]
        exact Binary64.le_refl_of_isFinite hfinite
    warned := fun hasks hcuts => hwarnings.trans (if_pos ⟨hasks, hwindow.2 hcuts⟩)
    unwarned := fun hnot => hwarnings.trans (if_neg fun h => hnot.elim (· h.1) (hwindow.1 h.2)) }

end FilterChain

/-! ## The chain for a show -/

/-- The templates of a show by the names of their tags. -/
def TagTemplates.byTag (t : TagTemplates) : List (String × String) :=
  [("title", t.title), ("artist", t.artist), ("album", t.album), ("genre", t.genre),
   ("date", t.year), ("comment", t.comment)]

namespace FilterChain

theorem hasPositivePoints_ofShow (profile : ShowProfile) (date? : Option BroadcastDate)
    (today : BroadcastDate) : (ProcessingOptions.ofShow profile date? today).HasPositivePoints := by
  intro x hx
  have hstart : (ProcessingOptions.ofShow profile date? today).trimStart =
      ProcessingOptions.trimPoint profile.trim.start := by
    simp only [ProcessingOptions.ofShow]
  rw [Option.mem_def, hstart] at hx
  exact ProcessingOptions.pos_of_trimPoint profile.trim.start hx

/-- The arguments that set a tag; an empty value sets none. -/
def tagArgsOf (tag value : String) : List String :=
  if value = "" then [] else ["-metadata", tag ++ "=" ++ value]

theorem tags_eq (o : ProcessingOptions) :
    tags o = tagNames.flatMap fun (field, tag) =>
      tagArgsOf tag ((o.tags.lookup field).getD "") := by
  unfold tags
  refine List.flatMap_congr fun pair _ => ?_
  obtain ⟨field, tag⟩ := pair
  dsimp only
  split
  · rename_i hnone
    rw [hnone]
    rfl
  · rename_i hempty
    rw [hempty]
    rfl
  · rename_i value hne hvalue
    rw [hvalue, Option.getD_some, tagArgsOf, if_neg hne]

/-- The tags of a show's file are those of its templates that are filled with some text, in their
order. -/
theorem tags_ofShow (profile : ShowProfile) (date? : Option BroadcastDate)
    (today : BroadcastDate) :
    tags (.ofShow profile date? today) = profile.tags.byTag.flatMap fun (tag, template) =>
      tagArgsOf tag (Template.fill template (some profile.name) date? today) := by
  rw [tags_eq]
  simp [tagNames, TagTemplates.byTag, ProcessingOptions.ofShow, TagTemplates.resolve,
    TagTemplates.fields, List.lookup_cons]

/-- **The chain for a show** does what its profile asks for, whatever the trim points, the level and
the lengths of the fades are, and sets one tag for each template that is filled with some text. -/
theorem build_ofShow (profile : ShowProfile) (date? : Option BroadcastDate)
    (today : BroadcastDate) (probe : ProbeInfo) (hfinite : probe.duration.isFinite = true)
    (hdouble : probe.duration.IsDouble) (hpos : 0 < probe.duration) (fadeIn fadeOut : Binary64)
    (source : String) :
    Fulfills (.ofShow profile date? today) probe.duration fadeIn fadeOut
        (build (.ofShow profile date? today) probe fadeIn fadeOut source).value ∧
      (build (.ofShow profile date? today) probe fadeIn fadeOut source).value.tagArgs =
        profile.tags.byTag.flatMap fun (tag, template) =>
          tagArgsOf tag (Template.fill template (some profile.name) date? today) := by
  refine ⟨fulfills_build (hasPositivePoints_ofShow profile date? today) hfinite hdouble hpos source,
    ?_⟩
  rw [← tags_ofShow]
  simp only [build, Logged.value_bind, Logged.value_pure]

end FilterChain

/-- A show that is cut to one minute of news, levelled, faded in and out, and tagged. -/
def ShowProfile.minuteOfNews : ShowProfile :=
  { ShowProfile.named "News" with
    trim := ⟨2.5, 62.5, true, true⟩
    audio := ⟨"mp3", some (.sub 0 3), none, none⟩
    tags := ⟨"{showName}", "", "", "", "{YYYY}", ""⟩ }

namespace FilterChain

/-- The chain of a show that asks for everything. -/
theorem minuteOfNews_build :
    let probe : ProbeInfo := ⟨90, none, 1, false⟩
    let o : ProcessingOptions := .ofShow .minuteOfNews none ⟨2024, 5, 1, by decide, by decide⟩
    let c := (build o probe defaultFade defaultFade "").value
    Fulfills o probe.duration defaultFade defaultFade c ∧ o.Cuts probe.duration ∧
      c.filters =
        ["atrim=start=2.5:duration=60", "asetpts=PTS-STARTPTS", "loudnorm=I=-5",
         "afade=t=in:st=0:d=0.5", "afade=t=out:st=59.5:d=0.5"] ∧
      c.tagArgs = ["-metadata", "title=News", "-metadata", "date=2024"] := by
  intro probe o c
  have hdouble : probe.duration.IsDouble := Binary64.isDouble_ofNat 90
  obtain ⟨hfulfills, htags⟩ := build_ofShow .minuteOfNews none ⟨2024, 5, 1, by decide, by decide⟩
    probe (by decide +kernel) hdouble (by decide +kernel) defaultFade defaultFade ""
  exact ⟨hfulfills, ⟨by decide +kernel, by decide +kernel, by decide +kernel⟩, by decide +kernel,
    htags.trans (by decide +kernel)⟩

end FilterChain

end BroadcastIntake
