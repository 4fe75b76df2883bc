import BroadcastIntake.Proofs.FilterChain.Words

/-!
# A recording without an end

A duration that is not at most zero may still be infinite or no number.  Of the latter no window is
cut out and the fade out starts at zero, so every number in the chain is finite.  Of an infinite one
the length of the cut is infinite when no end is set
(`FilterChain.nonFinite_iff_of_trimEnd_eq_none`), and the start of the fade out is when no end lies
behind the start (`FilterChain.nonFinite_iff_of_trimEnd_eq_some`).
`FilterChain.nonFinite_iff_infinite` puts them together over all durations.
-/

namespace BroadcastIntake

namespace Binary64

variable {x : Binary64}

theorem infinity_sub (hx : x.isFinite = true) : infinity false - x = infinity false := by
  obtain ⟨negative, quanta, rfl⟩ := exists_finite hx
  rfl

theorem infinity_true_le_zero : infinity true ≤ 0 := by
  rw [zero_eq]
  rfl

end Binary64

namespace TrimWindow

variable {w : TrimWindow}

/-- No window lies within a duration that is no number. -/
theorem fits_of_nan (hduration : w.duration = .nan) : w.fits = false := by
  have hless : ¬ w.startSeconds < .nan := by
    cases w.startSeconds <;> exact Bool.false_ne_true
  simp [fits, hduration, hless]

/-- Without an end only the order of the ends of a window is checked. -/
theorem fits_iff_of_infinite (hduration : w.duration = .infinity false)
    (hstart : w.startSeconds.isFinite = true)
    (hstop : w.stop.isFinite = true ∨ w.stop = .infinity false) :
    w.fits = true ↔ w.startSeconds < w.stop := by
  have hless : w.startSeconds < w.duration := hduration ▸ Binary64.lt_infinity hstart
  have hle : w.stop ≤ w.duration := by
    rcases hstop with hstop | hstop
    · exact Binary64.le_of_lt (hduration ▸ Binary64.lt_infinity hstop)
    · rw [hstop, hduration]
      rfl
  have hlength : 0 < w.length ↔ w.startSeconds < w.stop := by
    rcases hstop with hstop | hstop
    · exact Binary64.zero_lt_sub_iff hstop hstart
    · refine iff_of_true ?_ (hstop ▸ Binary64.lt_infinity hstart)
      rw [length, hstop, Binary64.infinity_sub hstart]
      exact Binary64.lt_infinity Binary64.isFinite_zero
  simp [fits, hless, hle, hlength]

end TrimWindow

namespace FilterChain

variable {o : ProcessingOptions} {probe : ProbeInfo} {fadeIn fadeOut : Binary64} {source : String}

theorem fadeOutStart_infinite (hfadeOut : fadeOut.isFinite = true) :
    fadeOutStart (.infinity false) fadeOut = .infinity false := by
  rw [fadeOutStart, Binary64.infinity_sub hfadeOut, Binary64.max]
  exact if_pos (Binary64.lt_infinity Binary64.isFinite_zero)

theorem fadeOutStart_nan : fadeOutStart .nan fadeOut = 0 := by
  have hsub : .nan - fadeOut = Binary64.nan := by
    cases fadeOut <;> rfl
  rw [fadeOutStart, hsub, Binary64.max]
  exact if_neg (by rw [Binary64.zero_eq]; exact Bool.false_ne_true)

end FilterChain

namespace ProcessingOptions

variable {o : ProcessingOptions}

theorem isFinite_cutStart (ho : o.IsFinite) : o.cutStart.isFinite = true := by
  unfold cutStart
  cases hx : o.trimStart with
  | none => exact Binary64.isFinite_zero
  | some x => exact ho.trimStart x hx

theorem startSeconds_lt_iff (ho : o.IsFinite) (duration : Binary64) {stop : Binary64}
    (hstop : stop.isFinite = true) :
    (TrimWindow.ofOptions o duration).startSeconds < stop ↔ o.cutStart < stop := by
  rw [Binary64.lt_iff_toRat (FilterChain.isFinite_startSeconds ho duration) hstop,
    Binary64.lt_iff_toRat (isFinite_cutStart ho) hstop, toRat_startSeconds]

theorem stop_of_trimEnd_eq_none (duration : Binary64) (hend : o.trimEnd = none) :
    (TrimWindow.ofOptions o duration).stop = duration := by
  rw [TrimWindow.ofOptions, hend, Option.getD_none]

theorem stop_of_trimEnd_eq_some (duration : Binary64) {stop : Binary64}
    (hend : o.trimEnd = some stop) : (TrimWindow.ofOptions o duration).stop = stop := by
  rw [TrimWindow.ofOptions, hend, Option.getD_some]

/-- A start without an end cuts, to an infinite length. -/
theorem window?_of_trimEnd_eq_none (ho : o.IsFinite) (hend : o.trimEnd = none) {w : TrimWindow} :
    o.window? (.infinity false) = some w ↔
      o.trimStart.isSome = true ∧ w = .ofOptions o (.infinity false) := by
  have hstart := FilterChain.isFinite_startSeconds ho (.infinity false)
  have hstop := stop_of_trimEnd_eq_none (.infinity false) hend
  have hfits : (TrimWindow.ofOptions o (.infinity false)).fits = true := by
    rw [TrimWindow.fits_iff_of_infinite rfl hstart (.inr hstop), hstop]
    exact Binary64.lt_infinity hstart
  have hasks : o.AsksCut ↔ o.trimStart.isSome = true := by
    simp [AsksCut, hend]
  rw [window?_eq_some_iff_fits, hasks, and_iff_left hfits]

theorem length_of_trimEnd_eq_none (ho : o.IsFinite) (hend : o.trimEnd = none) :
    (TrimWindow.ofOptions o (.infinity false)).length = .infinity false := by
  have hstart := FilterChain.isFinite_startSeconds ho (.infinity false)
  have hstop := stop_of_trimEnd_eq_none (.infinity false) hend
  rw [TrimWindow.length, hstop, Binary64.infinity_sub hstart]

/-- An end cuts when it lies behind the start. -/
theorem window?_of_trimEnd_eq_some (ho : o.IsFinite) {stop : Binary64}
    (hend : o.trimEnd = some stop) {w : TrimWindow} :
    o.window? (.infinity false) = some w ↔
      o.cutStart < stop ∧ w = .ofOptions o (.infinity false) := by
  have hstart := FilterChain.isFinite_startSeconds ho (.infinity false)
  have hstop := stop_of_trimEnd_eq_some (.infinity false) hend
  have hfinite : stop.isFinite = true := ho.trimEnd stop hend
  have hfits : (TrimWindow.ofOptions o (.infinity false)).fits = true ↔ o.cutStart < stop := by
    rw [TrimWindow.fits_iff_of_infinite rfl hstart (.inl (hstop ▸ hfinite)), hstop,
      startSeconds_lt_iff ho _ hfinite]
  have hasks : o.AsksCut := .inr (by rw [hend]; rfl)
  rw [window?_eq_some_iff_fits, and_iff_right hasks, hfits]

theorem length_of_trimEnd_eq_some (ho : o.IsFinite) (hstart : ∀ x ∈ o.trimStart, 0 ≤ x)
    {stop : Binary64} (hend : o.trimEnd = some stop) (hdouble : stop.IsDouble)
    (hless : o.cutStart < stop) :
    (TrimWindow.ofOptions o (.infinity false)).length.isFinite = true ∧
      (TrimWindow.ofOptions o (.infinity false)).length ≤ stop := by
  have hfinite : stop.isFinite = true := ho.trimEnd stop hend
  have hstartFinite := FilterChain.isFinite_startSeconds ho (.infinity false)
  have hstop := stop_of_trimEnd_eq_some (.infinity false) hend
  rw [← startSeconds_lt_iff ho (.infinity false) hfinite] at hless
  rw [TrimWindow.length, hstop]
  exact Binary64.sub_le_of_le hstartFinite hfinite hdouble (startSeconds_nonneg hstart) hless
    (Binary64.le_refl_of_isFinite hfinite) hfinite

end ProcessingOptions

namespace FilterChain

variable {o : ProcessingOptions} {probe : ProbeInfo} {fadeIn fadeOut : Binary64} {source : String}

/-- When no end is set, the length of the cut is infinite, and so is the start of the fade out. -/
theorem nonFinite_iff_of_trimEnd_eq_none (ho : o.IsFinite) (hfadeOut : fadeOut.isFinite = true)
    (hend : o.trimEnd = none) :
    ((∃ w, o.window? (.infinity false) = some w ∧ w.length.isFinite = false) ↔
        o.trimStart.isSome = true) ∧
      (fadeOutStart (o.outputDuration (.infinity false)) fadeOut).isFinite = false := by
  have hlength := ProcessingOptions.length_of_trimEnd_eq_none ho hend
  have hout : o.outputDuration (.infinity false) = .infinity false := by
    cases hw : o.window? (.infinity false) with
    | none => exact ProcessingOptions.outputDuration_of_window?_eq_none hw
    | some w =>
        rw [ProcessingOptions.outputDuration_of_window?_eq_some hw,
          ((ProcessingOptions.window?_of_trimEnd_eq_none ho hend).1 hw).2, hlength]
  refine ⟨⟨?_, fun hsome => ?_⟩, ?_⟩
  · rintro ⟨w, hw, -⟩
    exact ((ProcessingOptions.window?_of_trimEnd_eq_none ho hend).1 hw).1
  · refine ⟨_, (ProcessingOptions.window?_of_trimEnd_eq_none ho hend).2 ⟨hsome, rfl⟩, ?_⟩
    rw [hlength]
    rfl
  · rw [hout, fadeOutStart_infinite hfadeOut]
    rfl

/-- When an end is set, only the start of the fade out may be infinite, and it is when the end does
not lie behind the start. -/
theorem nonFinite_iff_of_trimEnd_eq_some (ho : o.IsFinite) (hstart : ∀ x ∈ o.trimStart, 0 ≤ x)
    (hfadeOut : fadeOut.isFinite = true) (hnonneg : 0 ≤ fadeOut) {stop : Binary64}
    (hend : o.trimEnd = some stop) (hdouble : stop.IsDouble) :
    (¬ ∃ w, o.window? (.infinity false) = some w ∧ w.length.isFinite = false) ∧
      ((fadeOutStart (o.outputDuration (.infinity false)) fadeOut).isFinite = false ↔
        ¬ o.cutStart < stop) := by
  have hwindow : ∀ w, o.window? (.infinity false) = some w ↔
      o.cutStart < stop ∧ w = .ofOptions o (.infinity false) :=
    fun w => ProcessingOptions.window?_of_trimEnd_eq_some ho hend
  have hlength := ProcessingOptions.length_of_trimEnd_eq_some ho hstart hend hdouble
  constructor
  · rintro ⟨w, hw, hinfinite⟩
    obtain ⟨hless, rfl⟩ := (hwindow w).1 hw
    rw [(hlength hless).1] at hinfinite
    cases hinfinite
  by_cases hless : o.cutStart < stop
  · have hout := ProcessingOptions.outputDuration_of_window?_eq_some ((hwindow _).2 ⟨hless, rfl⟩)
    have hfade := isFinite_fadeOutStart (hlength hless).1 (hlength hless).2 (ho.trimEnd stop hend)
      hdouble hfadeOut hnonneg
    rw [hout, hfade]
    simp [hless]
  · have hnone : o.window? (.infinity false) = none :=
      Option.eq_none_iff_forall_ne_some.2 fun w hw => hless ((hwindow w).1 hw).1
    rw [ProcessingOptions.outputDuration_of_window?_eq_none hnone, fadeOutStart_infinite hfadeOut]
    exact iff_of_true rfl hless

/-! ## All durations -/

/-- **The numbers of a chain** with finite options, of a duration that is not at most zero, are all
finite unless the duration is infinite and either a start is set without an end, or there is a fade
out and no end behind the start. -/
theorem nonFinite_iff_infinite (ho : o.IsFinite) (hstart : ∀ x ∈ o.trimStart, 0 ≤ x)
    (hstop : ∀ x ∈ o.trimEnd, x.IsDouble) (hfadeIn : fadeIn.isFinite = true)
    (hfadeOut : fadeOut.isFinite = true) (hnonneg : 0 ≤ fadeOut)
    (hdouble : probe.duration.IsDouble) (hpos : ¬ probe.duration ≤ 0) :
    (∃ word ∈ nonFiniteWords, word ∈ (build o probe fadeIn fadeOut source).value.words) ↔
      probe.duration = .infinity false ∧
        ((o.trimStart.isSome = true ∧ o.trimEnd = none) ∨
          (o.fadeOut = true ∧ ∀ stop ∈ o.trimEnd, ¬ o.cutStart < stop)) := by
  cases hduration : probe.duration with
  | finite negative quanta =>
      have hfinite : probe.duration.isFinite = true := by rw [hduration]; rfl
      refine iff_of_false (not_nonFinite ho hstart hfinite hdouble hfadeIn hfadeOut hnonneg) ?_
      rintro ⟨⟨⟩, -⟩
  | nan =>
      rw [nonFinite_iff_of_isFinite ho hfadeIn hfadeOut, hduration]
      have hwindow : o.window? .nan = none :=
        ProcessingOptions.window?_eq_none_of_not_fits
          (by rw [TrimWindow.fits_of_nan rfl]; exact Bool.false_ne_true)
      rw [hwindow, ProcessingOptions.outputDuration_of_window?_eq_none hwindow, fadeOutStart_nan]
      refine iff_of_false ?_ ?_
      · rintro (⟨w, hw, -⟩ | ⟨-, hinfinite⟩)
        · cases hw
        · rw [Binary64.isFinite_zero] at hinfinite
          cases hinfinite
      · rintro ⟨⟨⟩, -⟩
  | infinity negative =>
      cases negative with
      | true =>
          rw [hduration] at hpos
          exact absurd Binary64.infinity_true_le_zero hpos
      | false =>
          rw [nonFinite_iff_of_isFinite ho hfadeIn hfadeOut, hduration]
          cases hend : o.trimEnd with
          | none =>
              obtain ⟨hcut, hfade⟩ := nonFinite_iff_of_trimEnd_eq_none ho hfadeOut hend
              simp [hcut, hfade]
          | some stop =>
              obtain ⟨hcut, hfade⟩ := nonFinite_iff_of_trimEnd_eq_some ho hstart hfadeOut hnonneg
                hend (hstop stop hend)
              simp only [hcut, hfade]
              simp

end FilterChain

end BroadcastIntake
