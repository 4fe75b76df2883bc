import BroadcastIntake.Proofs.Text.Blank
import BroadcastIntake.Proofs.Text.Case

/-!
# Lowered texts

A lowered text is in small letters, so lowering it again changes nothing (`lowerChars_lowerChars`).
That is a fact about the table of small letters: no code point that it maps to is one that it maps.
Its runs are compared two by two (`CaseRun.misses`), since a run of every second code point may lie
among the images of another.

Lowering leaves the ends of a text what they were, as far as blanks and dots go
(`isBlank_of_mem_lowerBetween`, `eq_of_mem_lowerBetween`), and dots before a text do not change
how it is lowered: a sigma that looks for a letter before it passes them over
(`lowerAfter_append_of_passedOver`).
-/

namespace BroadcastIntake.Text

/-! ## The table of small letters -/

namespace CaseRun

/-- No image of the run is mapped by the other run: they are apart, or the other maps every second
code point and the images are those between. -/
def misses (run other : CaseRun) : Bool :=
  Nat.blt other.last run.target || Nat.blt (run.target + (run.last - run.first)) other.first ||
    (other.stride == 2 && (run.stride == 2 || run.first == run.last) &&
      run.target % 2 != other.first % 2)

theorem image?_eq_none_of_misses {run other : CaseRun} {code image : Nat}
    (hmisses : run.misses other = true) (himage : run.image? code = some image) :
    other.image? image = none := by
  unfold image? at himage ⊢
  split at himage
  · rename_i hrange
    obtain ⟨hfirst, hlast, hstep⟩ := hrange
    have himage := Option.some.inj himage
    refine if_neg fun hother => ?_
    obtain ⟨hfirst', hlast', hstep'⟩ := hother
    simp only [misses, Bool.or_eq_true, Bool.and_eq_true, Nat.blt_eq, beq_iff_eq,
      bne_iff_ne] at hmisses
    rcases hmisses with (hbelow | habove) | ⟨⟨htwo, hsteps⟩, hparity⟩
    · omega
    · omega
    · rw [htwo] at hstep'
      rcases hsteps with hrun | hsingle
      · rw [hrun] at hstep
        omega
      · omega
  · cases himage

end CaseRun

/-- What the table of small letters maps to, it does not map. -/
theorem smallRuns_miss : (smallRuns.all fun run => smallRuns.all run.misses) = true := by
  decide +kernel

theorem apply_smallRuns_apply (code : Nat) :
    CaseRun.apply smallRuns (CaseRun.apply smallRuns code) = CaseRun.apply smallRuns code := by
  rcases CaseRun.apply_cases smallRuns code with hsame | ⟨run, hrun, himage⟩
  · rw [hsame, hsame]
  · have hmisses := List.all_eq_true.1 (List.all_eq_true.1 smallRuns_miss run hrun)
    have hnone : smallRuns.findSome? (fun other =>
        other.image? (CaseRun.apply smallRuns code)) = none := by
      rw [List.findSome?_eq_none_iff]
      exact fun other hother => CaseRun.image?_eq_none_of_misses (hmisses other hother) himage
    rw [CaseRun.apply, hnone]
    rfl

/-- A small form is its own small form. -/
theorem smallForm_smallForm (c : Char) : smallForm (smallForm c) = smallForm c := by
  rcases toNat_smallForm c with hcode | hnull
  · calc smallForm (smallForm c)
        = Char.ofNat (CaseRun.apply smallRuns (smallForm c).toNat) := rfl
      _ = Char.ofNat (CaseRun.apply smallRuns c.toNat) := by rw [hcode, apply_smallRuns_apply]
      _ = smallForm c := rfl
  · have hform : smallForm c = '\x00' := Char.toNat_inj.1 hnull
    rw [hform]
    decide +kernel

/-! ## Texts in small letters -/

/-- The character is in its small form, and is no letter that is lowered in a way of its own. -/
def IsSmall (c : Char) : Prop :=
  smallForm c = c ∧ c ≠ 'Σ' ∧ c ≠ 'İ'

instance (c : Char) : Decidable (IsSmall c) :=
  inferInstanceAs (Decidable (_ ∧ _ ∧ _))

/-- A character that no other has as its small form is no small form of another one. -/
theorem smallForm_ne {c u : Char} (hu : u ≠ '\x00' ∧ capitalCodes u = []) (hc : c ≠ u) :
    smallForm c ≠ u := by
  intro hform
  rcases smallForm_eq_cases hu.1 hform with hsame | hcapital
  · exact hc hsame
  · rw [hu.2] at hcapital
    cases hcapital

theorem isSmall_of_mem_lowerBetween {before after : List Char} {c d : Char}
    (hd : d ∈ lowerBetween before c after) : IsSmall d := by
  unfold lowerBetween at hd
  split at hd
  · split at hd
    · obtain rfl := List.mem_singleton.1 hd
      decide +kernel
    · obtain rfl := List.mem_singleton.1 hd
      decide +kernel
  · rename_i hsigma
    split at hd
    · rcases List.mem_pair.1 hd with rfl | rfl
      · decide +kernel
      · decide +kernel
    · rename_i hdotted
      obtain rfl := List.mem_singleton.1 hd
      exact ⟨smallForm_smallForm c, smallForm_ne (by decide +kernel) hsigma,
        smallForm_ne (by decide +kernel) hdotted⟩

theorem isSmall_of_mem_lowerChars {cs : List Char} {d : Char} (hd : d ∈ lowerChars cs) :
    IsSmall d := by
  obtain ⟨c, -, before, after, hform⟩ := mem_lowerAfter hd
  exact isSmall_of_mem_lowerBetween hform

/-- A text in small letters is lowered to itself. -/
theorem lowerChars_eq_self {cs : List Char} (hcs : ∀ c ∈ cs, IsSmall c) : lowerChars cs = cs := by
  rw [lowerChars, lowerAfter_eq_map fun c hc => (hcs c hc).2]
  calc cs.map smallForm = cs.map id := List.map_congr_left fun c hc => (hcs c hc).1
    _ = cs := List.map_id cs

theorem lowerChars_lowerChars (cs : List Char) : lowerChars (lowerChars cs) = lowerChars cs :=
  lowerChars_eq_self fun _ => isSmall_of_mem_lowerChars

theorem lower_lower (s : String) : lower (lower s) = lower s := by
  rw [lower, lower, String.toList_ofList, lowerChars_lowerChars]

/-! ## The ends of a lowered text -/

/-- A blank has no case. -/
theorem isCaseless_of_isBlank {c : Char} (hc : isBlank c = true) : IsCaseless c := by
  have hcodes : ∀ code ∈ blankCodes, IsCaseless (Char.ofNat code) := by decide +kernel
  have hcaseless := hcodes c.toNat (by simpa [isBlank] using hc)
  rwa [Char.ofNat_toNat] at hcaseless

theorem isBlank_smallForm (c : Char) : isBlank (smallForm c) = isBlank c := by
  rw [Bool.eq_iff_iff]
  constructor
  · intro hblank
    obtain ⟨hnull, -, hcapitals, -⟩ := isCaseless_of_isBlank hblank
    by_cases hsame : c = smallForm c
    · rwa [hsame]
    · exact absurd rfl (smallForm_ne ⟨hnull, hcapitals⟩ hsame)
  · intro hblank
    rwa [(isCaseless_of_isBlank hblank).2.1]

/-- A blank is lowered to a blank, and nothing else is. -/
theorem isBlank_of_mem_lowerBetween {before after : List Char} {c d : Char}
    (hd : d ∈ lowerBetween before c after) : isBlank d = isBlank c := by
  unfold lowerBetween at hd
  split at hd
  · rename_i hsigma
    rw [hsigma]
    split at hd
    · rw [List.mem_singleton.1 hd]
      decide
    · rw [List.mem_singleton.1 hd]
      decide
  · split at hd
    · rename_i hdotted
      rw [hdotted]
      rcases List.mem_pair.1 hd with rfl | rfl
      · decide
      · decide
    · rw [List.mem_singleton.1 hd, isBlank_smallForm]

/-- A lowered text begins with what its first character is lowered to. -/
theorem of_head?_lowerAfter {before cs : List Char} {d : Char}
    (hd : d ∈ (lowerAfter before cs).head?) :
    ∃ c ∈ cs.head?, ∃ after, d ∈ lowerBetween before c after := by
  cases cs with
  | nil => cases hd
  | cons c rest =>
      rw [lowerAfter, List.head?_append_of_ne_nil _ (lowerBetween_ne_nil before c rest)] at hd
      exact ⟨c, rfl, rest, List.mem_of_mem_head? hd⟩

/-- A lowered text ends with what its last character is lowered to. -/
theorem of_getLast?_lowerAfter {cs : List Char} {d : Char} :
    ∀ {before : List Char}, d ∈ (lowerAfter before cs).getLast? →
      ∃ c ∈ cs.getLast?, ∃ left, d ∈ lowerBetween left c [] := by
  induction cs with
  | nil => exact nofun
  | cons c rest ih =>
      intro before hd
      rw [lowerAfter] at hd
      cases rest with
      | nil =>
          rw [lowerAfter, List.append_nil] at hd
          exact ⟨c, rfl, before, List.mem_of_getLast? hd⟩
      | cons c' rest =>
          have hne : lowerAfter (c :: before) (c' :: rest) ≠ [] := by
            rw [lowerAfter]
            exact List.append_ne_nil_of_left_ne_nil (lowerBetween_ne_nil _ _ _) _
          rw [List.getLast?_append_of_ne_nil _ hne] at hd
          obtain ⟨last, hlast, hform⟩ := ih hd
          exact ⟨last, by rwa [List.getLast?_cons_cons], hform⟩

/-! ## What stands before a text -/

/-- Characters that are passed over do not change what is met behind them. -/
theorem meetsCased_append {before passed : List Char}
    (hpassed : ∀ c ∈ passed, isPassedOver c = true) :
    meetsCased (before ++ passed) = meetsCased before := by
  have hnone : passed.dropWhile isPassedOver = [] := List.dropWhile_eq_nil_iff.2 hpassed
  unfold meetsCased
  rw [List.dropWhile_append, hnone]
  cases before.dropWhile isPassedOver with
  | nil => rfl
  | cons c rest => rfl

/-- Characters that are passed over do not change how the text behind them is lowered, when no other
characters stand between them and the start. -/
theorem lowerAfter_append_of_passedOver {passed : List Char}
    (hpassed : ∀ c ∈ passed, isPassedOver c = true) (cs : List Char) :
    ∀ before, lowerAfter (before ++ passed) cs = lowerAfter before cs := by
  induction cs with
  | nil => exact fun _ => rfl
  | cons c rest ih =>
      intro before
      rw [lowerAfter, lowerAfter, ← List.cons_append, ih (c :: before)]
      rw [lowerBetween, lowerBetween, meetsCased_append hpassed]

theorem lowerAfter_append {as : List Char} (has : ∀ c ∈ as, IsSmall c) (bs : List Char) :
    ∀ before, lowerAfter before (as ++ bs) = as ++ lowerAfter (as.reverse ++ before) bs := by
  induction as with
  | nil => exact fun _ => rfl
  | cons a rest ih =>
      intro before
      obtain ⟨⟨hform, hsigma, hdotted⟩, hrest⟩ := List.forall_mem_cons.1 has
      rw [List.cons_append, lowerAfter, ih hrest, lowerBetween, if_neg hsigma, if_neg hdotted,
        hform]
      simp

/-- Dots before a text stay, and the text is lowered as if it stood alone. -/
theorem lowerChars_append_of_dots {dots : List Char} (hdots : ∀ c ∈ dots, c = '.')
    (cs : List Char) : lowerChars (dots ++ cs) = dots ++ lowerChars cs := by
  have hdot : IsSmall '.' ∧ isPassedOver '.' = true := by decide +kernel
  have hsmall : ∀ c ∈ dots, IsSmall c := fun c hc => hdots c hc ▸ hdot.1
  have hpassed : ∀ c ∈ dots.reverse, isPassedOver c = true :=
    fun c hc => hdots c (List.mem_reverse.1 hc) ▸ hdot.2
  rw [lowerChars, lowerAfter_append hsmall, List.append_nil, lowerChars]
  exact congrArg (dots ++ ·) (lowerAfter_append_of_passedOver hpassed cs [])

end BroadcastIntake.Text
