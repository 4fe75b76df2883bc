import BroadcastIntake.Pattern.Basic
import BroadcastIntake.Proofs.Text.Case
import Mathlib.Data.List.Forall2

/-!
# Cuts of a file name

A pattern matches a file name that can be cut into one segment for each token.  `Cut` says what such
a cut is, without saying how it is found.  The matcher finds only cuts (`cut_of_segments?`), and it
finds one if there is any (`Cut.isSome_segments?`): at every token it tries the lengths of all words
(`Placeholder.mem_wordLengths_of_isWord`), so whichever cut there is, it comes upon its segments
unless it has found others before.  It has not when each of these segments is of the length that is
tried first (`segments?_of_preferred`).
-/

namespace BroadcastIntake

/-! ## The lengths that are tried -/

namespace Placeholder

variable {p : Placeholder} {cs : List Char} {n : Nat}

theorem le_length_takeWhile_of_all (q : Char → Bool) :
    ∀ {cs : List Char} {n : Nat}, n ≤ cs.length → (cs.take n).all q = true →
      n ≤ (cs.takeWhile q).length := by
  intro cs
  induction cs with
  | nil => intro n hn _; exact hn
  | cons c cs ih =>
      intro n hn hall
      cases n with
      | zero => exact Nat.zero_le _
      | succ n =>
          simp only [List.take_succ_cons, List.all_cons, Bool.and_eq_true] at hall
          rw [List.takeWhile_cons_of_pos hall.1, List.length_cons]
          exact Nat.succ_le_succ (ih (Nat.le_of_succ_le_succ hn) hall.2)

theorem mem_lengthsFrom_takeWhile {q : Char → Bool} (hn : n ≤ cs.length)
    (hword : (!(cs.take n).isEmpty && (cs.take n).all q) = true) :
    n ∈ lengthsFrom (cs.takeWhile q).length := by
  rw [Bool.and_eq_true] at hword
  have hpos : 1 ≤ n := by
    rcases Nat.eq_zero_or_pos n with rfl | hpos
    · simp at hword
    · exact hpos
  exact mem_lengthsFrom.2 ⟨hpos, le_length_takeWhile_of_all q hn hword.2⟩

theorem length_of_isTimePart (hpart : isTimePart cs = true) : cs.length = 3 := by
  unfold isTimePart at hpart
  split at hpart
  · rfl
  · cases hpart

theorem length_of_isTimeTail (htail : isTimeTail cs = true) : cs.length = 3 ∨ cs.length = 6 := by
  simp only [isTimeTail, Bool.or_eq_true, Bool.and_eq_true] at htail
  rcases htail with hpart | ⟨-, hsecond⟩
  · exact .inl (length_of_isTimePart hpart)
  · have hlength := length_of_isTimePart hsecond
    rw [List.length_drop] at hlength
    omega

theorem length_of_isTime (hword : isTime cs = true) : cs.length ∈ [8, 5, 7, 4] := by
  simp only [isTime, Bool.or_eq_true, Bool.and_eq_true] at hword
  simp only [List.mem_cons, List.not_mem_nil, or_false]
  rcases hword with ⟨-, htail⟩ | ⟨-, htail⟩ <;>
    have hlength := length_of_isTimeTail htail <;> rw [List.length_drop] at hlength <;> omega

/-- The lengths of all words at the start of the characters are tried. -/
theorem mem_wordLengths_of_isWord (hn : n ≤ cs.length) (hword : p.isWord (cs.take n) = true) :
    n ∈ p.wordLengths cs := by
  have hlength : (cs.take n).length = n := List.length_take_of_le hn
  have hfits : ∀ lengths, n ∈ lengths → n ∈ p.fitting cs lengths := by
    intro lengths hmem
    simpa [fitting, hmem, hn] using hword
  -- a free text is tried at each length up to the longest, any other word at the few it can have
  cases p with
  | year | shortYear =>
      refine hfits _ (List.mem_singleton.2 ?_)
      simp only [isWord, Bool.and_eq_true, decide_eq_true_eq] at hword
      rw [← hlength]
      exact hword.1
  | month | day =>
      refine hfits _ ?_
      simp only [isWord, Bool.and_eq_true, Bool.or_eq_true, decide_eq_true_eq] at hword
      rw [hlength] at hword
      simpa [or_comm] using hword.1
  | weekday =>
      refine hfits _ ?_
      obtain ⟨spelling, hspelling, hsame⟩ := List.any_eq_true.1 hword
      have hspelled : spelling.length = n := by
        rw [← hlength, ← Text.length_eq_of_sameLetters hsame, String.length_toList]
      refine List.mem_map.2 ⟨spelling, List.mem_filter.2 ⟨hspelling, ?_⟩, hspelled⟩
      rw [hspelled]
      exact hsame
  | «show» => exact mem_lengthsFrom_takeWhile hn hword
  | episode | segment | any => exact mem_lengthsFrom_takeWhile hn hword
  | time =>
      refine hfits _ ?_
      rw [← hlength]
      exact length_of_isTime hword

end Placeholder

namespace Pattern

/-! ## Cuts -/

/-- The characters are a segment for the token. -/
def Fits (ignoreCase : Bool) (token : Token) (segment : List Char) : Prop :=
  match token with
  | .literal l => (if ignoreCase then Text.sameLetters l segment else l == segment) = true
  | .field _ p => p.isWord segment = true

/-- The characters are cut into one segment for each token; a newline at the end may be left. -/
inductive Cut (ignoreCase : Bool) : List Token → List Char → List (List Char) → Prop
  | done : Cut ignoreCase [] [] []
  | newline : Cut ignoreCase [] ['\n'] []
  | token {t : Token} {tokens : List Token} {segment cs : List Char}
      {segments : List (List Char)} (hfits : Fits ignoreCase t segment)
      (hrest : Cut ignoreCase tokens cs segments) :
      Cut ignoreCase (t :: tokens) (segment ++ cs) (segment :: segments)

variable {ignoreCase : Bool} {tokens : List Token} {cs : List Char} {segments : List (List Char)}

theorem fits_of_mem_segmentLengths {t : Token} {n : Nat}
    (hn : n ∈ segmentLengths ignoreCase cs t) : Fits ignoreCase t (cs.take n) := by
  cases t with
  | literal l =>
      by_cases hsegment : (if ignoreCase then Text.sameLetters l (cs.take l.length)
          else l == cs.take l.length) = true
      · rw [segmentLengths, if_pos hsegment] at hn
        rw [List.mem_singleton.1 hn]
        exact hsegment
      · rw [segmentLengths, if_neg hsegment] at hn
        cases hn
  | field _ p => exact (Placeholder.isWord_of_mem_wordLengths hn).2

/-- What the matcher finds is a cut. -/
theorem cut_of_segments? :
    ∀ {cs : List Char} {segments : List (List Char)},
      segments? ignoreCase tokens cs = some segments → Cut ignoreCase tokens cs segments := by
  induction tokens with
  | nil =>
      intro cs segments hsegments
      unfold segments? at hsegments
      split at hsegments
      · rename_i hend
        obtain rfl := Option.some.inj hsegments
        rw [Bool.or_eq_true, decide_eq_true_eq, decide_eq_true_eq] at hend
        rcases hend with rfl | rfl
        · exact .done
        · exact .newline
      · cases hsegments
  | cons t rest ih =>
      intro cs segments hsegments
      obtain ⟨n, hn, hfound⟩ := List.exists_of_findSome?_eq_some hsegments
      obtain ⟨others, hothers, rfl⟩ := Option.map_eq_some_iff.1 hfound
      have hcut := Cut.token (fits_of_mem_segmentLengths hn) (ih hothers)
      rwa [List.take_append_drop] at hcut

namespace Cut

/-- Every segment fits its token. -/
theorem fits_of_mem_zip (hcut : Cut ignoreCase tokens cs segments) :
    ∀ entry ∈ tokens.zip segments, Fits ignoreCase entry.1 entry.2 := by
  induction hcut with
  | done | newline => simp
  | token hfits _ ih =>
      intro entry hentry
      rcases List.mem_cons.1 hentry with rfl | hentry
      · exact hfits
      · exact ih entry hentry

theorem length_eq (hcut : Cut ignoreCase tokens cs segments) :
    tokens.length = segments.length := by
  induction hcut with
  | done | newline => rfl
  | token _ _ ih => rw [List.length_cons, List.length_cons, ih]

/-- The segments are no longer than the characters that are cut. -/
theorem length_flatten_le (hcut : Cut ignoreCase tokens cs segments) :
    segments.flatten.length ≤ cs.length := by
  induction hcut with
  | done | newline => simp
  | token _ _ ih =>
      rw [List.flatten_cons, List.length_append, List.length_append]
      omega

theorem mem_segmentLengths_of_fits {t : Token} {segment : List Char}
    (hfits : Fits ignoreCase t segment) :
    segment.length ∈ segmentLengths ignoreCase (segment ++ cs) t := by
  cases t with
  | literal l =>
      have hsame : (if ignoreCase then Text.sameLetters l segment else l == segment) = true := hfits
      have hlength : l.length = segment.length := by
        cases ignoreCase with
        | true => exact Text.length_eq_of_sameLetters hsame
        | false => rw [eq_of_beq hsame]
      rw [segmentLengths, hlength, List.take_left, if_pos hsame]
      exact List.mem_singleton_self _
  | field _ p =>
      refine Placeholder.mem_wordLengths_of_isWord ?_ ?_
      · rw [List.length_append]
        exact Nat.le_add_right _ _
      · rw [List.take_left]
        exact hfits

/-- If there is a cut at all, the matcher finds one. -/
theorem isSome_segments? (hcut : Cut ignoreCase tokens cs segments) :
    (segments? ignoreCase tokens cs).isSome = true := by
  induction hcut with
  | done | newline => rfl
  | @token t tokens segment cs segments hfits hrest ih =>
      rw [segments?, List.findSome?_isSome_iff]
      refine ⟨segment.length, mem_segmentLengths_of_fits hfits, ?_⟩
      rw [List.drop_left, Option.isSome_map]
      exact ih

end Cut

/-- When the length of each segment is the first that is tried for its token, whatever follows, the
matcher finds these segments. -/
theorem segments?_of_preferred
    (hpreferred : List.Forall₂ (fun t segment => ∀ rest,
      (segmentLengths ignoreCase (segment ++ rest) t).head? = some segment.length)
      tokens segments) :
    segments? ignoreCase tokens segments.flatten = some segments := by
  induction hpreferred with
  | nil => rfl
  | @cons t segment tokens segments hfirst _ ih =>
      obtain ⟨others, hlengths⟩ := List.head?_eq_some_iff.1 (hfirst segments.flatten)
      rw [segments?, List.flatten_cons, hlengths, List.findSome?_cons, List.drop_left,
        List.take_left, ih]
      rfl

end Pattern

end BroadcastIntake
