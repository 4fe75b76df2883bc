import BroadcastIntake.Proofs.OutputName.Values
import Mathlib.Data.List.Chain

/-!
# Safe names

Making a text safe replaces what may not stand in a name and makes rows of underscores one, in a
single pass.  It comes to the same as three passes, one for each kind of character that is replaced
or dropped, and a trim that has nothing left to do (`sanitize_eq_passes`).

`sanitize_spec` says what comes out.

* The text is safe (`IsSafe`): no refused character, no blank, no two underscores in a row.
* Underscores apart, it has the characters of the text before that may stay, in their order.
* It stays as it is when it is made safe once more.  For a safe text has no character that is
  replaced, and no underscore that is dropped (`sanitize_eq_self_iff`).
-/

namespace BroadcastIntake.OutputName

variable {c : Char} {cs : List Char}

/-- The text has none of the refused characters, no blank and no two underscores in a row. -/
structure IsSafe (name : String) : Prop where
  noUnsafe : ∀ c ∈ unsafeChars, c ∉ name.toList
  noBlank : ∀ c ∈ name.toList, Text.isBlank c = false
  noRow : ¬ ['_', '_'] <:+: name.toList

/-- Whether a character is kept: it is no underscore and nothing that an underscore replaces. -/
def isKept (c : Char) : Bool :=
  c ≠ '_' && !unsafeChars.contains c && !Text.isBlank c

/-! ## Single characters -/

theorem safeChar_eq_self_iff : safeChar c = c ↔ c ∉ unsafeChars ∧ Text.isBlank c = false := by
  have hscore : '_' ∉ unsafeChars ∧ Text.isBlank '_' = false := by decide
  unfold safeChar
  split
  · rename_i hreplaced
    constructor
    · rintro rfl
      exact hscore
    · rintro ⟨hsafe, hblank⟩
      simp [hsafe, hblank] at hreplaced
  · rename_i hkept
    simpa using hkept

/-- What stands for a character stands for itself. -/
theorem safeChar_safeChar (c : Char) : safeChar (safeChar c) = safeChar c := by
  rcases hreplaced : unsafeChars.contains c || Text.isBlank c with _ | _
  · have hsame : safeChar c = c := by rw [safeChar, hreplaced, if_neg Bool.false_ne_true]
    rw [hsame, hsame]
  · have hscore : safeChar c = '_' := by rw [safeChar, hreplaced, if_pos rfl]
    rw [hscore]
    decide

/-- A character that is kept is its own safe form, and all others become underscores. -/
theorem safeChar_eq_ite (c : Char) : safeChar c = if isKept c then c else '_' := by
  unfold safeChar isKept
  by_cases hscore : c = '_'
  · simp [hscore]
  · simp only [hscore, ne_eq, not_false_eq_true, decide_true, Bool.true_and]
    rcases unsafeChars.contains c with _ | _ <;> rcases Text.isBlank c with _ | _ <;> rfl

/-! ## Rows of underscores -/

/-- Two characters that are not both underscores. -/
def NotBothScores (c d : Char) : Prop :=
  ¬ (c = '_' ∧ d = '_')

theorem isChain_notBothScores_iff : cs.IsChain NotBothScores ↔ ¬ ['_', '_'] <:+: cs := by
  induction cs with
  | nil => simp
  | cons c rest ih =>
      have hstart : ['_', '_'] <+: c :: rest ↔ c = '_' ∧ rest.head? = some '_' := by
        cases rest <;> simp [eq_comm]
      have hpair : (∀ d ∈ rest.head?, NotBothScores c d) ↔ ¬ (c = '_' ∧ rest.head? = some '_') := by
        refine ⟨fun h hboth => h '_' hboth.2 ⟨hboth.1, rfl⟩, ?_⟩
        rintro h d hd ⟨hc, rfl⟩
        exact h ⟨hc, hd⟩
      rw [List.isChain_cons, ih, List.infix_cons_iff, hstart, hpair, not_or]

/-- No row of underscores is left. -/
theorem isChain_collapse (cs : List Char) : (collapse cs).IsChain NotBothScores := by
  fun_induction collapse cs with
  | case1 => exact .nil
  | case2 c => exact .singleton c
  | case3 rest ih => exact ih
  | case4 c rest _ hother ih =>
      refine List.isChain_cons.2 ⟨fun d hd => ?_, ih⟩
      rw [head?_collapse] at hd
      rintro ⟨hc, rfl⟩
      obtain ⟨more, hrest⟩ := List.head?_eq_some_iff.1 hd
      exact hother more hc hrest

theorem collapse_eq_self (hcs : cs.IsChain NotBothScores) : collapse cs = cs := by
  fun_induction collapse cs with
  | case1 => rfl
  | case2 c => rfl
  | case3 rest ih => exact absurd ⟨rfl, rfl⟩ (List.isChain_cons_cons.1 hcs).1
  | case4 c rest _ _ ih => rw [ih (List.isChain_cons.1 hcs).2]

/-- Nothing but underscores is dropped. -/
theorem filter_collapse (cs : List Char) :
    (collapse cs).filter (· ≠ '_') = cs.filter (· ≠ '_') := by
  fun_induction collapse cs with
  | case1 => rfl
  | case2 c => rfl
  | case3 rest ih => exact ih
  | case4 c rest _ _ ih => rw [List.filter_cons, List.filter_cons, ih]

/-- The characters that are kept are those that come out, the underscores apart. -/
theorem filter_map_safeChar (cs : List Char) :
    (cs.map safeChar).filter (· ≠ '_') = cs.filter isKept := by
  induction cs with
  | nil => rfl
  | cons c rest ih =>
      rw [List.map_cons, List.filter_cons, List.filter_cons, ih, safeChar_eq_ite]
      rcases hkept : isKept c with _ | _
      · rfl
      · have hne : c ≠ '_' := by
          rintro rfl
          exact absurd hkept (by decide)
        simp [hne]

/-! ## Three passes -/

/-- The characters with every row of those that satisfy `p` made one underscore; `inRow` says
whether such a row has begun. -/
def scoreRows (p : Char → Bool) (inRow : Bool) : List Char → List Char
  | [] => []
  | c :: rest =>
    if p c then (if inRow then [] else ['_']) ++ scoreRows p true rest
    else c :: scoreRows p false rest

/-- The characters with an underscore for each that satisfies `p`. -/
def scoreEach (p : Char → Bool) (cs : List Char) : List Char :=
  cs.map fun c => if p c then '_' else c

/-- Making rows of underscores one goes on after an underscore as if that had been the first. -/
theorem collapse_cons_eq_scoreRows (cs : List Char) :
    collapse cs = scoreRows (· = '_') false cs ∧
      collapse ('_' :: cs) = '_' :: scoreRows (· = '_') true cs := by
  induction cs with
  | nil => exact ⟨rfl, rfl⟩
  | cons c rest ih =>
      by_cases hc : c = '_'
      · subst hc
        exact ⟨ih.2, ih.2⟩
      · have hfirst : collapse (c :: rest) = c :: scoreRows (· = '_') false rest := by
          rw [← ih.1]
          cases rest with
          | nil => rfl
          | cons d more => simp [collapse, hc]
        refine ⟨?_, ?_⟩
        · rw [hfirst, scoreRows, if_neg (by simpa using hc)]
        · rw [scoreRows, if_neg (by simpa using hc), ← hfirst]
          simp [collapse, hc]

/-- Underscores that stand for rows are made one like those that stand for single characters.  In a
row an underscore has been written, so a row of underscores has begun with it. -/
theorem scoreRows_scoreRows (p : Char → Bool) (cs : List Char) :
    ∀ {inRow inScores : Bool}, (inRow = true → inScores = true) →
      scoreRows (· = '_') inScores (scoreRows p inRow cs) =
        scoreRows (· = '_') inScores (scoreEach p cs) := by
  induction cs with
  | nil => exact fun _ => rfl
  | cons c rest ih =>
      intro inRow inScores hbegun
      cases hc : p c with
      | true =>
          have hafter := @ih true true fun _ => rfl
          cases inRow with
          | true => simpa [scoreRows, scoreEach, hc, hbegun rfl] using hafter
          | false => simpa [scoreRows, scoreEach, hc] using hafter
      | false =>
          have hplain : ¬ p c = true := by simp [hc]
          have hrows : scoreRows p inRow (c :: rest) = c :: scoreRows p false rest := by
            rw [scoreRows, if_neg hplain]
          have heach : scoreEach p (c :: rest) = c :: scoreEach p rest := by
            rw [scoreEach, List.map_cons, if_neg hplain, scoreEach]
          rw [hrows, heach, scoreRows, scoreRows, @ih false true nofun, @ih false false nofun]

/-! ## Safe texts -/

theorem isSafe_sanitize (s : String) : IsSafe (sanitize s) := by
  have hsafe : ∀ c ∈ (sanitize s).toList, c ∉ unsafeChars ∧ Text.isBlank c = false := by
    intro c hc
    rw [sanitize, String.toList_ofList] at hc
    obtain ⟨d, -, rfl⟩ := List.mem_map.1 (mem_of_mem_collapse _ hc)
    exact safeChar_eq_self_iff.1 (safeChar_safeChar d)
  refine ⟨fun c hunsafe hc => (hsafe c hc).1 hunsafe, fun c hc => (hsafe c hc).2, ?_⟩
  rw [sanitize, String.toList_ofList, ← isChain_notBothScores_iff]
  exact isChain_collapse _

/-- The safe texts are those that making them safe does not change. -/
theorem sanitize_eq_self_iff {s : String} : sanitize s = s ↔ IsSafe s := by
  refine ⟨fun hsame => hsame ▸ isSafe_sanitize s, fun hs => ?_⟩
  have hsafe : ∀ c ∈ s.toList, safeChar c = c := fun c hc =>
    safeChar_eq_self_iff.2 ⟨fun hunsafe => hs.noUnsafe c hunsafe hc, hs.noBlank c hc⟩
  have hrow := isChain_notBothScores_iff.2 hs.noRow
  rw [sanitize, sanitizeChars, List.map_congr_left hsafe, List.map_id', collapse_eq_self hrow,
    String.ofList_toList]

/-- Making a text safe is replacing the refused characters, then each row of blanks, then each row
of underscores, and trimming what is left. -/
theorem sanitize_eq_passes (s : String) :
    sanitize s = Text.trim (String.ofList (scoreRows (· = '_') false (scoreRows Text.isBlank false
      (scoreEach unsafeChars.contains s.toList)))) := by
  have hpasses : scoreEach Text.isBlank (scoreEach unsafeChars.contains s.toList) =
      s.toList.map safeChar := by
    have hscore : Text.isBlank '_' = false := by decide
    simp only [scoreEach, List.map_map]
    refine List.map_congr_left fun c _ => ?_
    simp only [Function.comp_apply, safeChar]
    rcases unsafeChars.contains c with _ | _ <;> simp [hscore]
  have hsame : scoreRows (· = '_') false (scoreRows Text.isBlank false
      (scoreEach unsafeChars.contains s.toList)) = (sanitize s).toList := by
    rw [scoreRows_scoreRows _ _ id, hpasses, ← (collapse_cons_eq_scoreRows _).1, sanitize,
      String.toList_ofList, sanitizeChars]
  rw [hsame, String.ofList_toList, Text.trim, Text.trimBy,
    Text.trim_eq_self (isSafe_sanitize s).noBlank, String.ofList_toList]

/-- **Safe names**: what comes out is safe, has what may stay of the text in its order, and stays as
it is when it is made safe again. -/
theorem sanitize_spec (s : String) :
    IsSafe (sanitize s) ∧ (sanitize s).toList.filter (· ≠ '_') = s.toList.filter isKept ∧
      sanitize (sanitize s) = sanitize s := by
  refine ⟨isSafe_sanitize s, ?_, sanitize_eq_self_iff.2 (isSafe_sanitize s)⟩
  rw [sanitize, String.toList_ofList, sanitizeChars, filter_collapse, filter_map_safeChar]

end BroadcastIntake.OutputName
