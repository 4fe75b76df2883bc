import BroadcastIntake.Text.Case
import Mathlib.Data.List.Forall2

/-!
# Letters and their small forms

Letters are compared by their small forms, so much depends on which characters have a given small
form.  `smallForm_eq_cases` lists them: the character itself and the capitals that the table of
small letters maps to it, which `capitalCodes` computes.  Two kinds of characters need no list.

* A character before the small letters is the small form of itself only (`eq_of_smallForm`), so
  lowering a text adds no such character to it (`mem_of_mem_lowerChars`).
* A letter that shares its place with no other is equal to those with its small form
  (`smallForm_of_sameLetter`), and a character without case to itself only (`eq_of_sameLetter`).
-/

namespace BroadcastIntake.Text

/-! ## Small forms -/

namespace CaseRun

theorem image?_eq_some {run : CaseRun} {code image : Nat} (himage : run.image? code = some image) :
    run.first ≤ code ∧ image = run.target + (code - run.first) := by
  unfold image? at himage
  split at himage
  · rename_i hrange
    exact ⟨hrange.1, (Option.some.inj himage).symm⟩
  · cases himage

/-- A code point is its own image, or one of the runs maps it. -/
theorem apply_cases (runs : List CaseRun) (code : Nat) :
    apply runs code = code ∨ ∃ run ∈ runs, run.image? code = some (apply runs code) := by
  unfold apply
  rcases himage : runs.findSome? fun run => run.image? code with _ | image <;> rw [himage]
  · exact .inl rfl
  · exact .inr (List.exists_of_findSome?_eq_some himage)

end CaseRun

/-- No code point has a small form before the small letters, itself apart. -/
theorem apply_smallRuns (code : Nat) :
    CaseRun.apply smallRuns code = code ∨ 0x61 ≤ CaseRun.apply smallRuns code := by
  have htargets : ∀ run ∈ smallRuns, 0x61 ≤ run.target := by decide +kernel
  refine (CaseRun.apply_cases smallRuns code).imp_right ?_
  rintro ⟨run, hrun, himage⟩
  have htarget := htargets run hrun
  have hsum := (CaseRun.image?_eq_some himage).2
  omega

/-- The small form of a character has the code that the table gives, or is the null character. -/
theorem toNat_smallForm (c : Char) :
    (smallForm c).toNat = CaseRun.apply smallRuns c.toNat ∨ (smallForm c).toNat = 0 := by
  rw [smallForm, Char.ofNat]
  by_cases hvalid : (CaseRun.apply smallRuns c.toNat).isValidChar
  · rw [dif_pos hvalid]
    exact .inl rfl
  · rw [dif_neg hvalid]
    exact .inr rfl

theorem eq_of_smallForm {c u : Char} (hu : 0 < u.toNat ∧ u.toNat < 0x61)
    (hc : smallForm c = u) : c = u := by
  rcases apply_smallRuns c.toNat with hsame | hletter
  · rw [← hc, smallForm, hsame, Char.ofNat_toNat]
  · have hcode := toNat_smallForm c
    rw [hc] at hcode
    omega

/-- The code points that the table of small letters maps to a character. -/
def capitalCodes (a : Char) : List Nat :=
  smallRuns.filterMap fun run =>
    let code := run.first + (a.toNat - run.target)
    if run.image? code = some a.toNat then some code else none

theorem mem_capitalCodes {a : Char} {code : Nat} {run : CaseRun} (hrun : run ∈ smallRuns)
    (himage : run.image? code = some a.toNat) : code ∈ capitalCodes a := by
  refine List.mem_filterMap.2 ⟨run, hrun, ?_⟩
  have hcode : run.first + (a.toNat - run.target) = code := by
    have hsum := CaseRun.image?_eq_some himage
    omega
  simp only [hcode, himage, if_true]

/-- A character has a given small form when it is that form, or one of its capitals. -/
theorem smallForm_eq_cases {c a : Char} (ha : a ≠ '\x00') (hc : smallForm c = a) :
    c = a ∨ c.toNat ∈ capitalCodes a := by
  have hcode : CaseRun.apply smallRuns c.toNat = a.toNat := by
    rcases toNat_smallForm c with hform | hform
    · rw [← hform, hc]
    · rw [hc] at hform
      exact absurd (Char.toNat_inj.1 hform) ha
  have hcases := CaseRun.apply_cases smallRuns c.toNat
  rw [hcode] at hcases
  rcases hcases with hsame | ⟨run, hrun, himage⟩
  · exact .inl (Char.toNat_inj.1 hsame).symm
  · exact .inr (mem_capitalCodes hrun himage)

/-! ## Equal letters -/

theorem sameLetter_comm (c d : Char) : sameLetter c d = sameLetter d c := by
  rw [sameLetter, sameLetter, Bool.beq_comm]
  congr 2
  funext mates
  exact Bool.and_comm _ _

theorem sameLetters_refl (cs : List Char) : sameLetters cs cs = true := by
  induction cs with
  | nil => rfl
  | cons c cs ih => simp [sameLetters, sameLetter, ih]

theorem forall₂_sameLetter_iff {as bs : List Char} :
    List.Forall₂ (fun a b => sameLetter a b = true) as bs ↔ sameLetters as bs = true := by
  induction as generalizing bs with
  | nil => cases bs <;> simp [sameLetters]
  | cons a as ih =>
      cases bs with
      | nil => simp [sameLetters]
      | cons b bs => simp [sameLetters, ih]

/-- What holds of letters that are equal holds along rows of equal letters. -/
theorem forall₂_of_sameLetters {R : Char → Char → Prop} {as bs : List Char}
    (hletter : ∀ a ∈ as, ∀ b, sameLetter a b = true → R a b) (hsame : sameLetters as bs = true) :
    List.Forall₂ R as bs := by
  have hrows := (List.forall₂_and_left as bs).2 ⟨hletter, forall₂_sameLetter_iff.2 hsame⟩
  exact hrows.imp fun a b ⟨hmates, hab⟩ => hmates b hab

/-- Rows of equal letters are of the same length. -/
theorem length_eq_of_sameLetters {as bs : List Char} (hsame : sameLetters as bs = true) :
    as.length = bs.length :=
  (forall₂_sameLetter_iff.2 hsame).length_eq

/-- A letter is equal to one with the same small form, or to a mate of it. -/
theorem sameLetter_cases {a c : Char} (hsame : sameLetter a c = true) :
    smallForm c = smallForm a ∨
      ∃ mates ∈ letterMates, smallForm a ∈ mates ∧ smallForm c ∈ mates := by
  rw [sameLetter, Bool.or_eq_true] at hsame
  refine hsame.imp (fun hform => (eq_of_beq hform).symm) fun hmate => ?_
  simpa using hmate

/-- A letter without mates is equal to those with its small form. -/
theorem smallForm_of_sameLetter {a c : Char}
    (halone : ∀ mates ∈ letterMates, smallForm a ∉ mates) (hsame : sameLetter a c = true) :
    smallForm c = smallForm a := by
  rcases sameLetter_cases hsame with hform | ⟨mates, hmates, ha, -⟩
  · exact hform
  · exact absurd ha (halone mates hmates)

/-- The character is the small form of itself only, and has no mates. -/
def IsCaseless (u : Char) : Prop :=
  u ≠ '\x00' ∧ smallForm u = u ∧ capitalCodes u = [] ∧ ∀ mates ∈ letterMates, u ∉ mates

instance (u : Char) : Decidable (IsCaseless u) :=
  inferInstanceAs (Decidable (_ ∧ _ ∧ _ ∧ _))

/-- What has no case is equal to itself only. -/
theorem eq_of_sameLetter {c u : Char} (hu : IsCaseless u) (hc : sameLetter u c = true) : c = u := by
  obtain ⟨hnull, hform, hcapitals, halone⟩ := hu
  rw [← hform] at halone
  rcases smallForm_eq_cases hnull ((smallForm_of_sameLetter halone hc).trans hform) with h | h
  · exact h
  · rw [hcapitals] at h
    cases h

/-! ## Lowering -/

theorem mem_lowerAfter {d : Char} {cs : List Char} :
    ∀ {before : List Char}, d ∈ lowerAfter before cs →
      ∃ c ∈ cs, ∃ before after, d ∈ lowerBetween before c after := by
  induction cs with
  | nil =>
      intro before hd
      cases hd
  | cons c rest ih =>
      intro before hd
      rcases List.mem_append.1 hd with hd | hd
      · exact ⟨c, List.mem_cons_self, before, rest, hd⟩
      · obtain ⟨c', hc', hfound⟩ := ih hd
        exact ⟨c', List.mem_cons_of_mem c hc', hfound⟩

/-- What a character is lowered to is in the lowered text. -/
theorem lowerBetween_subset_lowerAfter {c : Char} {cs : List Char} :
    ∀ before : List Char, c ∈ cs →
      ∃ left right, lowerBetween left c right ⊆ lowerAfter before cs := by
  induction cs with
  | nil =>
      intro before hc
      cases hc
  | cons d rest ih =>
      intro before hc
      rcases List.mem_cons.1 hc with rfl | hc
      · exact ⟨before, rest, List.subset_append_left _ _⟩
      · obtain ⟨left, right, hsub⟩ := ih (d :: before) hc
        exact ⟨left, right, List.subset_append_of_subset_right _ hsub⟩

theorem lowerBetween_ne_nil (before : List Char) (c : Char) (after : List Char) :
    lowerBetween before c after ≠ [] := by
  unfold lowerBetween
  split <;> split <;> exact List.cons_ne_nil _ _

/-- Lowering drops no character. -/
theorem length_le_lowerAfter (cs : List Char) :
    ∀ before, cs.length ≤ (lowerAfter before cs).length := by
  induction cs with
  | nil => exact fun _ => Nat.le_refl 0
  | cons c rest ih =>
      intro before
      have hrest := ih (c :: before)
      have hfirst := List.length_pos_iff.2 (lowerBetween_ne_nil before c rest)
      rw [lowerAfter, List.length_append, List.length_cons]
      omega

/-- A text is lowered letter by letter, but for a sigma and a dotted i. -/
theorem lowerAfter_eq_map {cs : List Char} :
    ∀ {before : List Char}, (∀ c ∈ cs, c ≠ 'Σ' ∧ c ≠ 'İ') →
      lowerAfter before cs = cs.map smallForm := by
  induction cs with
  | nil => exact fun _ => rfl
  | cons c rest ih =>
      intro before hplain
      obtain ⟨hc, hrest⟩ := List.forall_mem_cons.1 hplain
      rw [lowerAfter, ih hrest, lowerBetween, if_neg hc.1, if_neg hc.2]
      rfl

/-- A character before the small letters is what itself is lowered to, and no other. -/
theorem eq_of_mem_lowerBetween {u : Char} (hu : 0 < u.toNat ∧ u.toNat < 0x61)
    {before after : List Char} {c : Char} (hmem : u ∈ lowerBetween before c after) : c = u := by
  have hne : ∀ d : Char, 0x61 ≤ d.toNat → u ≠ d := by
    rintro d hd rfl
    omega
  unfold lowerBetween at hmem
  split at hmem
  · split at hmem
    · exact absurd (List.mem_singleton.1 hmem) (hne _ (by decide))
    · exact absurd (List.mem_singleton.1 hmem) (hne _ (by decide))
  · split at hmem
    · simp [hne 'i' (by decide), hne '\u0307' (by decide)] at hmem
    · exact eq_of_smallForm hu (List.mem_singleton.1 hmem).symm

/-- Lowering adds no character from before the small letters. -/
theorem mem_of_mem_lowerChars {u : Char} (hu : 0 < u.toNat ∧ u.toNat < 0x61) {cs : List Char}
    (hmem : u ∈ lowerChars cs) : u ∈ cs := by
  obtain ⟨c, hc, before, after, hform⟩ := mem_lowerAfter hmem
  rwa [← eq_of_mem_lowerBetween hu hform]

end BroadcastIntake.Text
