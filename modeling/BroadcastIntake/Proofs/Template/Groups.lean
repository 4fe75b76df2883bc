import BroadcastIntake.Proofs.Text.Blank
import BroadcastIntake.Template
import Mathlib.Data.List.Infix

/-!
# Brace groups

A brace group is an opening brace, at least one character that is no closing brace, and a closing
brace.  Filling a template drops such groups in one pass from left to right, and what is left holds
none (`Template.not_hasGroup_dropGroups`).

This is not plain, because dropping a group brings together what stood on both sides of it.  But an
opening brace is kept for one of two reasons only: a closing brace stands right behind it, or no
closing brace stands behind it at all.  Whatever is dropped further on, the first stays true because
a closing brace begins no group, and the second because dropping adds no character
(`Template.Closes.of_dropGroups`).
-/

namespace BroadcastIntake.Template

variable {cs ds : List Char} {c : Char}

/-- Somewhere in the characters stands a brace group. -/
def HasGroup (cs : List Char) : Prop :=
  ∃ body, body ≠ [] ∧ '}' ∉ body ∧ '{' :: body ++ ['}'] <:+: cs

/-- The characters close a group that was opened right before them. -/
def Closes (cs : List Char) : Prop :=
  '}' ∈ cs ∧ cs.head? ≠ some '}'

theorem closes_iff : Closes cs ↔ ∃ body, body ≠ [] ∧ '}' ∉ body ∧ body ++ ['}'] <+: cs := by
  constructor
  · rintro ⟨hmem, hhead⟩
    obtain ⟨body, after, rfl, hbody⟩ := List.eq_append_cons_of_mem hmem
    refine ⟨body, ?_, hbody, after, by simp⟩
    rintro rfl
    exact hhead rfl
  · rintro ⟨body, hne, hbody, after, rfl⟩
    obtain ⟨first, others, rfl⟩ := List.exists_cons_of_ne_nil hne
    refine ⟨by simp, ?_⟩
    rintro hhead
    obtain rfl := Option.some.inj hhead
    exact hbody List.mem_cons_self

theorem not_hasGroup_nil : ¬ HasGroup [] := by
  rintro ⟨body, -, -, hinside⟩
  cases List.eq_nil_of_infix_nil hinside

/-- A group begins at the first character, or stands behind it. -/
theorem hasGroup_cons_iff : HasGroup (c :: cs) ↔ c = '{' ∧ Closes cs ∨ HasGroup cs := by
  rw [closes_iff]
  constructor
  · rintro ⟨body, hne, hbody, hinside⟩
    rcases List.infix_cons_iff.1 hinside with hfirst | hinside
    · obtain ⟨hopen, hstart⟩ := List.cons_prefix_cons.1 hfirst
      exact .inl ⟨hopen.symm, body, hne, hbody, hstart⟩
    · exact .inr ⟨body, hne, hbody, hinside⟩
  · rintro (⟨rfl, body, hne, hbody, hstart⟩ | ⟨body, hne, hbody, hinside⟩)
    · exact ⟨body, hne, hbody, List.infix_cons_iff.2 (.inl (List.cons_prefix_cons.2 ⟨rfl, hstart⟩))⟩
    · exact ⟨body, hne, hbody, List.infix_cons_iff.2 (.inr hinside)⟩

theorem HasGroup.of_isInfix (hgroup : HasGroup cs) (hinside : cs <:+: ds) : HasGroup ds := by
  obtain ⟨body, hne, hbody, hthere⟩ := hgroup
  exact ⟨body, hne, hbody, hthere.trans hinside⟩

theorem not_hasGroup_of_notMem (hopen : '{' ∉ cs) : ¬ HasGroup cs := by
  rintro ⟨body, -, -, hinside⟩
  exact hopen (hinside.subset List.mem_cons_self)

/-! ## Trimming -/

/-- A brace is no blank, so trimming keeps the groups and adds none. -/
theorem hasGroup_trim_iff : HasGroup (Text.Chars.trim Text.isBlank cs) ↔ HasGroup cs := by
  refine ⟨fun hgroup => hgroup.of_isInfix (Text.Chars.trim_isInfix _ cs), ?_⟩
  rintro ⟨body, hne, hbody, before, after, rfl⟩
  refine ⟨body, hne, hbody, Text.Chars.trimLeft Text.isBlank before,
    Text.Chars.trimRight Text.isBlank after, ?_⟩
  have hopen : Text.isBlank '{' = false := by decide
  have hclose : Text.isBlank '}' = false := by decide
  have hleft := Text.Chars.trimLeft_append_cons hopen before (body ++ '}' :: after)
  have hright := Text.Chars.trimRight_append_cons hclose
    (Text.Chars.trimLeft Text.isBlank before ++ '{' :: body) after
  simp only [List.append_assoc, List.cons_append, List.nil_append] at hleft hright ⊢
  rw [Text.Chars.trim, hleft, hright]

/-! ## Dropping -/

/-- A group begins where it is also closed. -/
theorem groupLength?_eq_none_iff : groupLength? cs = none ↔ ¬ Closes cs := by
  cases cs with
  | nil => simp [groupLength?, Closes]
  | cons first rest =>
      by_cases hfirst : first = '}'
      · simp [groupLength?, Closes, hfirst]
      · have hshort : (rest.takeWhile (· ≠ '}')).length < rest.length ↔ '}' ∈ rest := by
          have hle := (List.takeWhile_prefix (l := rest) (· ≠ '}')).length_le
          have hall : rest.takeWhile (· ≠ '}') = rest ↔ '}' ∉ rest := by
            rw [List.takeWhile_eq_self_iff]
            exact ⟨fun h hmem => by simpa using h _ hmem, fun h c hc => by
              simpa using fun heq : c = '}' => h (heq ▸ hc)⟩
          rw [← not_iff_not, ← hall, Nat.not_lt]
          refine ⟨fun hlong => ?_, fun hsame => by rw [hsame]⟩
          exact (List.takeWhile_prefix _).eq_of_length (Nat.le_antisymm hle hlong)
        have hne : ¬ '}' = first := fun h => hfirst h.symm
        simp [groupLength?, Closes, hfirst, hne, ← hshort]

/-- An opening brace is kept where no group begins, and every other character is kept. -/
theorem dropGroups_cons (hkept : ¬ (c = '{' ∧ Closes cs)) :
    dropGroups (c :: cs) = c :: dropGroups cs := by
  have hnone : (if c = '{' then groupLength? cs else none) = none := by
    split
    · rename_i hopen
      exact groupLength?_eq_none_iff.2 fun hcloses => hkept ⟨hopen, hcloses⟩
    · rfl
  rw [dropGroups, dropGroupsFrom, hnone]
  rfl

/-- Nothing but groups is dropped. -/
theorem dropGroups_eq_self (hgroup : ¬ HasGroup cs) : dropGroups cs = cs := by
  induction cs with
  | nil => rfl
  | cons c cs ih =>
      rw [hasGroup_cons_iff, not_or] at hgroup
      rw [dropGroups_cons hgroup.1, ih hgroup.2]

/-- Dropping adds no character. -/
theorem dropGroupsFrom_subset (cs : List Char) : ∀ skip, dropGroupsFrom skip cs ⊆ cs := by
  induction cs with
  | nil => exact fun skip => List.Subset.refl []
  | cons c cs ih =>
      intro skip
      cases skip with
      | succ skip => exact List.subset_cons_of_subset c (ih skip)
      | zero =>
          rw [dropGroupsFrom]
          split
          · exact List.subset_cons_of_subset c (ih _)
          · exact List.cons_subset_cons c (ih 0)

/-- No group is closed after dropping that was not closed before. -/
theorem Closes.of_dropGroups (hcloses : Closes (dropGroups cs)) : Closes cs := by
  refine ⟨dropGroupsFrom_subset cs 0 hcloses.1, fun hhead => ?_⟩
  obtain ⟨rest, rfl⟩ := List.head?_eq_some_iff.1 hhead
  rw [dropGroups_cons fun hopen => absurd hopen.1 (by decide)] at hcloses
  exact hcloses.2 rfl

theorem not_hasGroup_dropGroupsFrom (cs : List Char) :
    ∀ skip, ¬ HasGroup (dropGroupsFrom skip cs) := by
  induction cs with
  | nil => exact fun skip => not_hasGroup_nil
  | cons c cs ih =>
      intro skip
      cases skip with
      | succ skip => exact ih skip
      | zero =>
          rw [dropGroupsFrom]
          split
          · exact ih _
          · rename_i hnone
            rw [hasGroup_cons_iff, not_or]
            refine ⟨fun ⟨hopen, hcloses⟩ => ?_, ih 0⟩
            rw [if_pos hopen] at hnone
            exact groupLength?_eq_none_iff.1 hnone (Closes.of_dropGroups hcloses)

/-- **Dropping groups** from left to right leaves no group. -/
theorem not_hasGroup_dropGroups (cs : List Char) : ¬ HasGroup (dropGroups cs) :=
  not_hasGroup_dropGroupsFrom cs 0

/-- Groups are what is dropped. -/
theorem dropGroups_eq_self_iff : dropGroups cs = cs ↔ ¬ HasGroup cs :=
  ⟨fun hsame => hsame ▸ not_hasGroup_dropGroups cs, dropGroups_eq_self⟩

instance (cs : List Char) : Decidable (HasGroup cs) :=
  decidable_of_iff (¬ dropGroups cs = cs) (by rw [dropGroups_eq_self_iff, not_not])

end BroadcastIntake.Template
