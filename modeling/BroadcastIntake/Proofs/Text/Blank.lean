import BroadcastIntake.Text.Blank
import Mathlib.Data.List.DropRight
import Mathlib.Data.List.TakeWhile

/-!
# Trimming

Trimming takes characters off the ends of a text and no others.  So a text is left as it is exactly
when neither its first nor its last character is to be taken off (`Chars.trim_eq_self_iff`).
-/

namespace BroadcastIntake.Text

variable {p : Char → Bool} {cs : List Char}

namespace Chars

theorem trimLeft_eq_self_iff : trimLeft p cs = cs ↔ ∀ c ∈ cs.head?, p c = false := by
  cases cs with
  | nil => exact iff_of_true rfl nofun
  | cons c rest =>
      have hhead : (∀ d ∈ (c :: rest).head?, p d = false) ↔ p c = false := by simp
      rw [hhead, trimLeft]
      cases hc : p c with
      | false => exact iff_of_true (List.dropWhile_cons_of_neg (by simp [hc])) rfl
      | true =>
          refine iff_of_false (fun hsame => ?_) nofun
          -- without its first character the text is shorter
          rw [List.dropWhile_cons_of_pos hc] at hsame
          have hle := (List.dropWhile_sublist p (l := rest)).length_le
          rw [hsame, List.length_cons] at hle
          omega

theorem trimRight_eq_self_iff : trimRight p cs = cs ↔ ∀ c ∈ cs.getLast?, p c = false := by
  rw [← List.head?_reverse, ← trimLeft_eq_self_iff, trimRight, trimLeft, List.reverse_eq_iff]

theorem trim_eq_self_iff :
    trim p cs = cs ↔ (∀ c ∈ cs.head?, p c = false) ∧ ∀ c ∈ cs.getLast?, p c = false := by
  rw [← trimLeft_eq_self_iff, ← trimRight_eq_self_iff, trim]
  refine ⟨fun hsame => ?_, fun h => by rw [h.1, h.2]⟩
  have hright : (trimRight p (trimLeft p cs)).length ≤ (trimLeft p cs).length := by
    rw [trimRight, List.length_reverse, ← (trimLeft p cs).length_reverse]
    exact (List.dropWhile_sublist p).length_le
  have hleft : trimLeft p cs = cs :=
    (List.dropWhile_sublist p).eq_of_length_le (by rw [hsame] at hright; exact hright)
  exact ⟨hleft, by rw [hleft] at hsame; exact hsame⟩

/-- A character that is not trimmed keeps what stands behind it. -/
theorem trimLeft_append_cons {c : Char} (hc : p c = false) (before after : List Char) :
    trimLeft p (before ++ c :: after) = trimLeft p before ++ c :: after := by
  have hkept : ¬ p c = true := by simp [hc]
  rw [trimLeft, List.dropWhile_append, List.dropWhile_cons_of_neg hkept]
  split
  · rename_i hnil
    rw [trimLeft, List.isEmpty_iff.1 hnil, List.nil_append]
  · rfl

/-- A character that is not trimmed keeps what stands before it. -/
theorem trimRight_append_cons {c : Char} (hc : p c = false) (before after : List Char) :
    trimRight p (before ++ c :: after) = before ++ c :: trimRight p after := by
  have hkept : ¬ p c = true := by simp [hc]
  unfold trimRight
  rw [List.reverse_append, List.reverse_cons, List.append_assoc, List.dropWhile_append]
  split
  · rename_i hnil
    rw [List.isEmpty_iff.1 hnil, List.singleton_append, List.dropWhile_cons_of_neg hkept]
    simp
  · simp

theorem trimRight_isPrefix (p : Char → Bool) (cs : List Char) : trimRight p cs <+: cs := by
  rw [trimRight, ← List.reverse_suffix, List.reverse_reverse]
  exact List.dropWhile_suffix p

theorem trim_isInfix (p : Char → Bool) (cs : List Char) : trim p cs <:+: cs :=
  (trimRight_isPrefix p _).isInfix.trans (List.dropWhile_suffix p).isInfix

theorem trimRight_concat {c : Char} (hc : p c = true) (before : List Char) :
    trimRight p (before ++ [c]) = trimRight p before := by
  rw [trimRight, List.reverse_append, List.reverse_singleton, List.singleton_append,
    List.dropWhile_cons_of_pos hc, trimRight]

/-- After trimming there is nothing more to trim. -/
theorem head?_trimLeft {c : Char} (hc : c ∈ (trimLeft p cs).head?) : p c = false :=
  trimLeft_eq_self_iff.1 (List.dropWhile_idempotent (p := p) (l := cs)) c hc

theorem getLast?_trimRight {c : Char} (hc : c ∈ (trimRight p cs).getLast?) : p c = false := by
  refine trimRight_eq_self_iff.1 ?_ c hc
  rw [trimRight, trimRight, List.reverse_reverse, List.dropWhile_idempotent]

/-- Neither end of a trimmed text is to be trimmed. -/
theorem trim_trim (p : Char → Bool) (cs : List Char) : trim p (trim p cs) = trim p cs := by
  refine trim_eq_self_iff.2 ⟨fun c hc => ?_, fun c hc => getLast?_trimRight hc⟩
  obtain ⟨rest, hrest⟩ := List.head?_eq_some_iff.1 hc
  -- what is trimmed on the right begins as before
  obtain ⟨after, hafter⟩ := trimRight_isPrefix p (trimLeft p cs)
  have hfirst : c ∈ (trimLeft p cs).head? := by
    rw [← hafter, ← trim, hrest]
    rfl
  exact head?_trimLeft hfirst

/-- A character that is not trimmed is kept wherever it stands. -/
theorem mem_trim {c : Char} (hc : p c = false) (hmem : c ∈ cs) : c ∈ trim p cs := by
  obtain ⟨before, after, rfl⟩ := List.append_of_mem hmem
  rw [trim, trimLeft_append_cons hc, trimRight_append_cons hc]
  exact List.mem_append_right _ List.mem_cons_self

/-- What is trimmed of one character is a row of it. -/
theorem exists_eq_trimRight_append (c : Char) (cs : List Char) :
    ∃ n, cs = trimRight (· = c) cs ++ List.replicate n c := by
  have hrow : cs.reverse.takeWhile (· = c) =
      List.replicate (cs.reverse.takeWhile (· = c)).length c := by
    refine List.eq_replicate_iff.2 ⟨rfl, fun d hd => ?_⟩
    simpa using List.mem_takeWhile_imp hd
  refine ⟨(cs.reverse.takeWhile (· = c)).length, ?_⟩
  calc cs = (cs.reverse.takeWhile (· = c) ++ cs.reverse.dropWhile (· = c)).reverse := by
        rw [List.takeWhile_append_dropWhile, List.reverse_reverse]
    _ = trimRight (· = c) cs ++ (cs.reverse.takeWhile (· = c)).reverse := List.reverse_append
    _ = _ := by rw [hrow, List.reverse_replicate, List.length_replicate]

end Chars

/-- Nothing is trimmed where no character is to be trimmed. -/
theorem trim_eq_self (hcs : ∀ c ∈ cs, p c = false) : Chars.trim p cs = cs :=
  Chars.trim_eq_self_iff.2
    ⟨fun c hc => hcs c (List.mem_of_mem_head? hc), fun c hc => hcs c (List.mem_of_getLast? hc)⟩

end BroadcastIntake.Text
