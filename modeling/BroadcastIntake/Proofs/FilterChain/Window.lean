import BroadcastIntake.Proofs.FilterChain
import BroadcastIntake.Proofs.FilterChain.Seconds

/-!
# The window that the transcoder reads

The window of a cut is checked as numbers and handed on as texts.  The texts write the start and the
length to within half a thousandth; but a length of half a thousandth or less, positive as it is, is
written as zero (`FilterChain.denotes_window`).
-/

namespace BroadcastIntake

open Text

/-! ## The texts of a cut -/

/-- Two texts around a word that starts with a character that is in neither of them are told
apart. -/
theorem eq_of_append_cons_eq {c : Char} {word a b s l : List Char} (ha : c ∉ a) (hb : c ∉ b)
    (hword : c ∉ word) (heq : s ++ c :: word ++ l = a ++ c :: word ++ b) : s = a ∧ l = b := by
  have hcount := congrArg (List.count c) heq
  simp only [List.count_append, List.count_cons_self, List.count_eq_zero_of_not_mem ha,
    List.count_eq_zero_of_not_mem hb, List.count_eq_zero_of_not_mem hword] at hcount
  have hs : c ∉ s := List.count_eq_zero.1 (by omega)
  have hfirst : s = a := by
    have htake : ∀ {t rest : List Char}, c ∉ t → (t ++ c :: rest).takeWhile (· ≠ c) = t := by
      intro t rest ht
      rw [List.takeWhile_append_of_pos fun d hd => by simpa using ne_of_mem_of_not_mem hd ht]
      simp
    rw [List.append_assoc, List.append_assoc, List.cons_append, List.cons_append] at heq
    rw [← htake hs, heq, htake ha]
  subst hfirst
  exact ⟨rfl, List.append_cancel_left heq⟩

namespace FilterChain

/-- The filter that cuts from `start` for `length`, both given as texts. -/
def cutText (start length : String) : String :=
  "atrim=start=" ++ start ++ ":duration=" ++ length

theorem cutText_inj {start length : String} {x y : Binary64}
    (heq : cutText start length = cutText (formatSeconds x) (formatSeconds y)) :
    start = formatSeconds x ∧ length = formatSeconds y := by
  have hchars : start.toList ++ ':' :: "duration=".toList ++ length.toList =
      (formatSeconds x).toList ++ ':' :: "duration=".toList ++ (formatSeconds y).toList := by
    have hlists := congrArg String.toList heq
    simp only [cutText, String.toList_append, List.append_assoc] at hlists
    rw [List.append_assoc, List.append_assoc]
    exact List.append_cancel_left hlists
  obtain ⟨hstart, hlength⟩ := eq_of_append_cons_eq (not_mem_formatSeconds (by decide) x)
    (not_mem_formatSeconds (by decide) y) (by decide) hchars
  exact ⟨String.toList_injective hstart, String.toList_injective hlength⟩

theorem cutText_ne_restart (start length : String) :
    cutText start length ≠ Directive.restart.text := by
  intro heq
  have hcut : "atrim=start=".toList = 'a' :: 't' :: "rim=start=".toList := by decide
  have hrestart : Directive.restart.text.toList = 'a' :: 's' :: "etpts=PTS-STARTPTS".toList := by
    decide
  have hlists := congrArg String.toList heq
  rw [cutText, String.toList_append, String.toList_append, String.toList_append, hcut,
    hrestart] at hlists
  simp only [List.cons_append] at hlists
  have hsecond := (List.cons.inj (List.cons.inj hlists).2).1
  revert hsecond
  decide

variable {o : ProcessingOptions} {duration : Binary64}

/-- The cut that stands among the filters of a trim writes the window that fits. -/
theorem eq_of_cutText_mem {source start length : String}
    (hmem : cutText start length ∈ (trim o duration source).value.filters) :
    ∃ w, w = TrimWindow.ofOptions o duration ∧ w.fits = true ∧
      (trim o duration source).value.duration = w.length ∧
      cutText start length = cutText (formatSeconds w.startSeconds) (formatSeconds w.length) := by
  rw [value_trim] at hmem ⊢
  dsimp only at hmem ⊢
  rcases hwindow : o.window? duration with _ | w
  · rw [hwindow] at hmem
    cases hmem
  · obtain ⟨⟨-, hfits⟩, hw⟩ := ProcessingOptions.window?_eq_some_iff_fits.1 hwindow
    rw [hwindow] at hmem
    refine ⟨w, hw, hw ▸ hfits, ProcessingOptions.outputDuration_of_window?_eq_some hwindow, ?_⟩
    rcases List.mem_cons.1 hmem with heq | hmem
    · exact heq
    · exact absurd (List.mem_singleton.1 hmem) (cutText_ne_restart start length)

/-- **A cut** that is handed to the transcoder writes its start and its length to within half a
thousandth, and the length that it writes is positive exactly when the length is more than half a
thousandth. -/
theorem denotes_window (hstart : ∀ x ∈ o.trimStart, 0 ≤ x) (hfinite : duration.isFinite = true)
    (hdouble : duration.IsDouble) {source start length : String}
    (hmem : cutText start length ∈ (trim o duration source).value.filters) :
    ∃ s l : ℚ, plainNumber? start = some s ∧ plainNumber? length = some l ∧
      |s - o.cutStart.toRat| ≤ 1 / 2000 ∧
      |l - (trim o duration source).value.duration.toRat| ≤ 1 / 2000 ∧
      (0 < l ↔ 1 / 2000 < (trim o duration source).value.duration.toRat) := by
  obtain ⟨w, hw, hfits, hduration, htext⟩ := eq_of_cutText_mem hmem
  have hnonneg : 0 ≤ w.startSeconds := hw ▸ ProcessingOptions.startSeconds_nonneg hstart
  have hkept : w.duration = duration := by rw [hw]; rfl
  rw [← hkept] at hfinite hdouble
  have hstartFinite : w.startSeconds.isFinite = true :=
    Binary64.isFinite_of_nonneg_of_lt hnonneg ((TrimWindow.fits_iff hfinite hnonneg).1 hfits).1
  have hlengthFinite : w.length.isFinite = true :=
    (TrimWindow.length_bounds hfinite hdouble hnonneg hfits).1.isFinite
  obtain ⟨rfl, rfl⟩ := cutText_inj htext
  have hvalue : w.startSeconds.toRat = o.cutStart.toRat := hw ▸ ProcessingOptions.toRat_startSeconds
  have hpositive : 0 < (w.length.thousandths : ℚ) / 1000 ↔ 0 < w.length.thousandths := by
    rw [div_pos_iff_of_pos_right (by norm_num), Int.cast_pos]
  rw [hduration, ← hvalue]
  exact ⟨_, _, plainNumber?_formatSeconds hstartFinite, plainNumber?_formatSeconds hlengthFinite,
    Binary64.abs_thousandths_sub_le hstartFinite, Binary64.abs_thousandths_sub_le hlengthFinite,
    hpositive.trans (Binary64.thousandths_pos_iff hlengthFinite)⟩

end FilterChain

/-- The options that ask for nothing but a cut. -/
def ProcessingOptions.cutting (start stop : Binary64) : ProcessingOptions :=
  ⟨some start, some stop, AudioSettings.passThroughFormat, none, none, none, false, false, [], none⟩

theorem ProcessingOptions.cutting_nonneg (start stop : Binary64) (hstart : 0 ≤ start)
    (hstop : 0 ≤ stop) :
    (∀ x ∈ (cutting start stop).trimStart, 0 ≤ x) ∧ ∀ x ∈ (cutting start stop).trimEnd, 0 ≤ x := by
  constructor
  · rintro x ⟨⟩
    exact hstart
  · rintro x ⟨⟩
    exact hstop

namespace FilterChain

/-- The texts of a cut of a minute, and what they write. -/
theorem minute_denotes_window :
    cutText "2.5" "60" ∈ (trim (.cutting 2.5 62.5) 90 "").value.filters ∧
      ∃ s l : ℚ, plainNumber? "2.5" = some s ∧ plainNumber? "60" = some l ∧
        |s - (ProcessingOptions.cutting 2.5 62.5).cutStart.toRat| ≤ 1 / 2000 ∧
        |l - (trim (.cutting 2.5 62.5) 90 "").value.duration.toRat| ≤ 1 / 2000 ∧
        (0 < l ↔ 1 / 2000 < (trim (.cutting 2.5 62.5) 90 "").value.duration.toRat) := by
  have hmem : cutText "2.5" "60" ∈ (trim (.cutting 2.5 62.5) 90 "").value.filters := by
    decide +kernel
  have hpoints := ProcessingOptions.cutting_nonneg 2.5 62.5 (by decide +kernel) (by decide +kernel)
  have hdouble : (90 : Binary64).IsDouble := Binary64.isDouble_ofNat 90
  have hwindow := denotes_window hpoints.1 (by decide +kernel) hdouble hmem
  exact ⟨hmem, hwindow⟩

/-- A cut of a quarter of a thousandth is checked and then handed on as one of no length. -/
theorem not_denotes_window :
    ¬ ∀ (o : ProcessingOptions) (duration : Binary64) (source start length : String),
      (∀ x ∈ o.trimStart, 0 ≤ x) → (∀ x ∈ o.trimEnd, 0 ≤ x) → duration.isFinite = true →
      duration.IsDouble → cutText start length ∈ (trim o duration source).value.filters →
      ∃ s l : ℚ, plainNumber? start = some s ∧ plainNumber? length = some l ∧ 0 < l ∧
        |s - o.cutStart.toRat| ≤ 1 / 2000 ∧
        |l - (trim o duration source).value.duration.toRat| ≤ 1 / 2000 := by
  intro hall
  have hmem : cutText "1" "0" ∈ (trim (.cutting 1 1.000244140625) 60 "").value.filters := by
    decide +kernel
  have hpoints := ProcessingOptions.cutting_nonneg 1 1.000244140625 (by decide +kernel)
    (by decide +kernel)
  obtain ⟨s, l, -, hlength, hpos, -⟩ := hall (.cutting 1 1.000244140625) 60 "" "1" "0"
    hpoints.1 hpoints.2 (by decide +kernel)
    (Binary64.isDouble_ofNat 60) hmem
  have hzero : plainNumber? "0" = some 0 := by decide +kernel
  rw [hzero] at hlength
  exact absurd (Option.some.inj hlength) hpos.ne

end FilterChain

end BroadcastIntake
