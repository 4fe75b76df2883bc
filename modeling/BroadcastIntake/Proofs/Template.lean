import BroadcastIntake.Proofs.Pattern.Tokens
import BroadcastIntake.Proofs.Text.Case
import BroadcastIntake.Template

/-!
# Filling a template piece by piece

A template is a row of pieces, literals and brace groups.  Replacing a key goes through the
characters one by one, but when no brace stands in a piece it comes to the same as replacing the
groups that spell the key, each on its own (`Template.replace_flatMap`): a group that is longer or
shorter than the key does not close where the key ends (`Template.spells_group_iff`).
-/

namespace BroadcastIntake

namespace PatternPiece

/-- The piece after a key is replaced by a value. -/
def put (key value : String) : PatternPiece → PatternPiece
  | literal cs => literal cs
  | group body =>
    if Text.sameLetters key.toList body then literal value.toList else group body

@[simp]
theorem put_literal (key value : String) (cs : List Char) :
    (literal cs).put key value = literal cs :=
  rfl

theorem HasNoBrace.put {piece : PatternPiece} (hpiece : piece.HasNoBrace) (key : String)
    {value : String} (hvalue : '{' ∉ value.toList ∧ '}' ∉ value.toList) :
    (piece.put key value).HasNoBrace := by
  cases piece with
  | literal cs => exact hpiece
  | group body =>
      simp only [PatternPiece.put]
      split
      · exact hvalue
      · exact hpiece

end PatternPiece

namespace Template

variable {key value cs body rest : List Char}

/-! ## Replacing -/

/-- Characters that belong to a replaced group are passed over. -/
theorem replaceFrom_eq_drop (n : Nat) :
    replaceFrom key value n cs = replaceFrom key value 0 (cs.drop n) := by
  induction cs generalizing n with
  | nil => rw [List.drop_nil]; rfl
  | cons c cs ih =>
      cases n with
      | zero => rfl
      | succ n => exact ih n

/-- Characters that open no group stay. -/
theorem replaceFrom_append (hopen : '{' ∉ cs) :
    replaceFrom key value 0 (cs ++ rest) = cs ++ replaceFrom key value 0 rest := by
  induction cs with
  | nil => rfl
  | cons c cs ih =>
      rw [List.mem_cons, not_or] at hopen
      have hc : ¬ c = '{' := fun h => hopen.1 h.symm
      rw [List.cons_append, replaceFrom, ih hopen.2]
      simp [hc]

/-- Without an opening brace there is nothing to replace. -/
theorem replace_eq_self {key value : String} (hopen : '{' ∉ cs) : replace key value cs = cs := by
  have hstays := @replaceFrom_append key.toList value.toList cs [] hopen
  rwa [List.append_nil, replaceFrom, List.append_nil] at hstays

/-- A group that closes where the key ends spells the key, and no other group does. -/
theorem spells_group_iff (hkey : ∀ k ∈ key, Text.sameLetter k '}' = false) (hbody : '}' ∉ body) :
    (Text.sameLetters key ((body ++ '}' :: rest).take key.length) = true ∧
        ((body ++ '}' :: rest).drop key.length).head? = some '}') ↔
      Text.sameLetters key body = true := by
  induction key generalizing body with
  | nil =>
      cases body with
      | nil => simp [Text.sameLetters]
      | cons c body =>
          rw [List.mem_cons, not_or] at hbody
          have hc : ¬ c = '}' := fun h => hbody.1 h.symm
          simp [Text.sameLetters, hc]
  | cons k key ih =>
      obtain ⟨hk, hkey⟩ := List.forall_mem_cons.1 hkey
      cases body with
      | nil => simp [Text.sameLetters, hk]
      | cons c body =>
          rw [List.mem_cons, not_or] at hbody
          have hrest := ih hkey hbody.2
          simp only [List.cons_append, List.length_cons, List.take_succ_cons, List.drop_succ_cons,
            Text.sameLetters, Bool.and_eq_true]
          rw [and_assoc, hrest]

theorem replaceFrom_group (hkey : ∀ k ∈ key, Text.sameLetter k '}' = false)
    (hbody : '{' ∉ body ∧ '}' ∉ body) :
    replaceFrom key value 0 ('{' :: body ++ '}' :: rest) =
      if Text.sameLetters key body then value ++ replaceFrom key value 0 rest
      else '{' :: body ++ '}' :: replaceFrom key value 0 rest := by
  have hcond : (decide ('{' = '{') &&
      Text.sameLetters key ((body ++ '}' :: rest).take key.length) &&
      decide (((body ++ '}' :: rest).drop key.length).head? = some '}')) =
      Text.sameLetters key body := by
    rw [Bool.eq_iff_iff, ← @spells_group_iff key body rest hkey hbody.2]
    simp only [decide_true, Bool.true_and, Bool.and_eq_true, decide_eq_true_eq]
  rw [List.cons_append, replaceFrom]
  rw [hcond]
  split
  · rename_i hspells
    have hdrop : (body ++ '}' :: rest).drop (key.length + 1) = rest := by
      rw [Text.length_eq_of_sameLetters hspells, ← List.drop_drop, List.drop_left]
      rfl
    rw [replaceFrom_eq_drop (key.length + 1), hdrop]
  · have hopen : '{' ∉ body ++ ['}'] := by simp [hbody.1]
    have hstays := @replaceFrom_append key value _ rest hopen
    rw [List.append_assoc, List.singleton_append] at hstays
    rw [hstays, List.append_assoc, List.singleton_append]
    rfl

/-- **Replacing** a key replaces the groups that spell it, each on its own. -/
theorem replace_flatMap {key value : String}
    (hkey : ∀ k ∈ key.toList, Text.sameLetter k '}' = false) {pieces : List PatternPiece}
    (hpieces : ∀ piece ∈ pieces, piece.HasNoBrace) :
    replace key value (pieces.flatMap PatternPiece.chars) =
      (pieces.map (PatternPiece.put key value)).flatMap PatternPiece.chars := by
  unfold replace
  induction pieces with
  | nil => rfl
  | cons piece pieces ih =>
      obtain ⟨hpiece, hrest⟩ := List.forall_mem_cons.1 hpieces
      rw [List.flatMap_cons, List.map_cons, List.flatMap_cons]
      cases piece with
      | literal cs =>
          simp only [PatternPiece.chars, PatternPiece.put]
          rw [replaceFrom_append hpiece.1, ih hrest]
      | group body =>
          simp only [PatternPiece.chars, PatternPiece.put]
          rw [List.append_assoc, List.singleton_append, replaceFrom_group hkey hpiece, ih hrest]
          split <;> simp

end Template

end BroadcastIntake
