import BroadcastIntake.Proofs.Pattern.Tokens
import Mathlib.Data.List.Chain

/-!
# The one way to cut a pattern

A pattern is cut at its brace groups, and there is no other way to cut it so that every brace group
is a piece of its own.  Two facts carry this.

* Reading from left to right finds a cut of that kind (`isCutting_patternPieces`).  What has been
  read since the last group has a group in it only when a closing brace has been read after an
  opening one, and that is when a piece is closed.
* A group is not cut through (`exists_group_of_append`).  Where characters begin with a group and a
  first part of them is cut off, the group is in that part, or the other part begins inside the
  group; but then it does not begin with a brace, as it would if a group began there.  So every
  group in the text is a piece of the cut (`IsCutting.exists_split`), and two cuts agree
  (`IsCutting.unique`).

A token is a piece with the placeholder that it calls.  So the tokens of a pattern are determined by
what a row of tokens is (`tokenize_unambiguous`).
-/

namespace BroadcastIntake

/-! ## Groups in a text -/

/-- A brace group with the given body stands in the characters between `before` and `after`. -/
structure IsGroupIn (cs before body after : List Char) : Prop where
  noBrace : '{' ∉ body ∧ '}' ∉ body
  eq : cs = before ++ ((PatternPiece.group body).chars ++ after)

/-- There is a brace group in the characters. -/
def HoldsGroup (cs : List Char) : Prop :=
  ∃ before body after, IsGroupIn cs before body after

section Groups

/-- Where a text is cut in two ways, the first part of one cut goes at least as far as that of the
other, or stops before it. -/
theorem append_eq_append_cases {α : Type} {xs ys us vs : List α} (heq : xs ++ ys = us ++ vs) :
    (∃ more, us = xs ++ more ∧ ys = more ++ vs) ∨
      ∃ rest, rest ≠ [] ∧ xs = us ++ rest ∧ rest ++ ys = vs := by
  rcases List.append_eq_append_iff.1 heq with h | ⟨rest, hxs, hvs⟩
  · exact .inl h
  · rcases eq_or_ne rest [] with rfl | hne
    · exact .inl ⟨[], by simpa using hxs.symm, by simpa using hvs.symm⟩
    · exact .inr ⟨rest, hne, hxs, hvs.symm⟩

variable {cs ds before body after : List Char}

theorem IsGroupIn.append (hgroup : IsGroupIn cs before body after) (left right : List Char) :
    IsGroupIn (left ++ (cs ++ right)) (left ++ before) body (after ++ right) := by
  refine ⟨hgroup.noBrace, ?_⟩
  rw [hgroup.eq]
  simp only [List.append_assoc]

theorem not_holdsGroup_of_notMem (hopen : '{' ∉ cs) : ¬ HoldsGroup cs := by
  rintro ⟨before, body, after, -, rfl⟩
  exact hopen (List.mem_append_right before List.mem_cons_self)

/-- The characters before the first closing brace are determined by the text. -/
theorem eq_of_append_close {left right : List Char} (hcs : '}' ∉ cs) (hds : '}' ∉ ds)
    (heq : cs ++ '}' :: left = ds ++ '}' :: right) : cs = ds ∧ left = right := by
  have hspan : ∀ {es more : List Char}, '}' ∉ es →
      (es ++ '}' :: more).takeWhile (· ≠ '}') = es := by
    intro es more hes
    rw [List.takeWhile_append_of_pos fun c hc => by simpa using ne_of_mem_of_not_mem hc hes,
      List.takeWhile_cons_of_neg (by decide), List.append_nil]
  have hsame : cs = ds := by rw [← hspan hcs, heq, hspan hds]
  subst hsame
  exact ⟨rfl, (List.cons.inj (List.append_cancel_left heq)).2⟩

/-- Without a closing brace no group is added. -/
theorem not_holdsGroup_append (hgroup : ¬ HoldsGroup cs) (hclose : '}' ∉ ds) :
    ¬ HoldsGroup (cs ++ ds) := by
  rintro ⟨before, body, after, hbody, heq⟩
  have hsplit : cs ++ ds = (before ++ '{' :: body) ++ '}' :: after := by
    rw [heq]
    simp [PatternPiece.chars]
  rcases append_eq_append_cases hsplit with ⟨more, -, rfl⟩ | ⟨rest, hne, rfl, hrest⟩
  · exact hclose (List.mem_append_right more List.mem_cons_self)
  · obtain ⟨c, more, rfl⟩ := List.exists_cons_of_ne_nil hne
    obtain ⟨rfl, -⟩ := List.cons.inj hrest
    exact hgroup ⟨before, body, more, hbody, by simp [PatternPiece.chars]⟩

/-- A group is not cut through: where characters begin with one and are cut in two parts, the group
is in the first part, if the second does not begin inside the group. -/
theorem exists_group_of_append {first second : List Char} (hbody : '{' ∉ body ∧ '}' ∉ body)
    (hsplit : first ++ second = (PatternPiece.group body).chars ++ after) (hfirst : first ≠ [])
    (hsecond : ∀ c ∈ second.head?, c = '{') :
    ∃ more, IsGroupIn first [] body more := by
  rcases List.append_eq_append_iff.1 hsplit with ⟨more, hmore, rfl⟩ | ⟨more, rfl, -⟩
  · cases more with
    | nil => exact ⟨[], hbody, by rw [hmore, List.append_nil, List.append_nil, List.nil_append]⟩
    | cons c more =>
        -- the second part would begin with an opening brace behind the first one of the group
        obtain rfl := hsecond c rfl
        obtain ⟨d, first, rfl⟩ := List.exists_cons_of_ne_nil hfirst
        have hinside : body ++ ['}'] = first ++ '{' :: more := (List.cons.inj hmore).2
        have hmem : '{' ∈ body ++ ['}'] := by
          rw [hinside]
          exact List.mem_append_right first List.mem_cons_self
        rcases List.mem_append.1 hmem with hopen | hopen
        · exact absurd hopen hbody.1
        · exact absurd hopen (by decide)
  · exact ⟨more, hbody, rfl⟩

end Groups

/-! ## Cuttings -/

namespace PatternPiece

/-- The pieces are groups and, between them, literals that are not empty and hold no group. -/
structure IsCutting (pieces : List PatternPiece) : Prop where
  bodies : ∀ body, .group body ∈ pieces → '{' ∉ body ∧ '}' ∉ body
  literals : ∀ cs, .literal cs ∈ pieces → cs ≠ [] ∧ ¬ HoldsGroup cs
  apart : pieces.IsChain fun piece next => ∀ cs ds, ¬ (piece = .literal cs ∧ next = .literal ds)

section Cutting

variable {cs body : List Char} {pieces others : List PatternPiece}

theorem isCutting_nil : IsCutting [] :=
  ⟨nofun, nofun, .nil⟩

theorem isCutting_group_iff :
    IsCutting (group body :: pieces) ↔ ('{' ∉ body ∧ '}' ∉ body) ∧ IsCutting pieces := by
  constructor
  · rintro ⟨hbodies, hliterals, hapart⟩
    refine ⟨hbodies body List.mem_cons_self, ?_⟩
    exact ⟨fun body h => hbodies body (List.mem_cons_of_mem _ h),
      fun cs h => hliterals cs (List.mem_cons_of_mem _ h), hapart.tail⟩
  · rintro ⟨hbody, hbodies, hliterals, hapart⟩
    refine ⟨fun other h => ?_, fun cs h => ?_, ?_⟩
    · rcases List.mem_cons.1 h with h | h
      · exact PatternPiece.group.inj h ▸ hbody
      · exact hbodies other h
    · rcases List.mem_cons.1 h with h | h
      · cases h
      · exact hliterals cs h
    · refine List.isChain_cons.2 ⟨?_, hapart⟩
      rintro next - cs ds ⟨h, -⟩
      cases h

theorem isCutting_literal_iff :
    IsCutting (literal cs :: pieces) ↔
      (cs ≠ [] ∧ ¬ HoldsGroup cs) ∧ (∀ ds, literal ds ∉ pieces.head?) ∧ IsCutting pieces := by
  constructor
  · rintro ⟨hbodies, hliterals, hapart⟩
    obtain ⟨hnext, hapart⟩ := List.isChain_cons.1 hapart
    refine ⟨hliterals cs List.mem_cons_self, fun ds h => hnext _ h cs ds ⟨rfl, rfl⟩, ?_⟩
    exact ⟨fun body h => hbodies body (List.mem_cons_of_mem _ h),
      fun cs h => hliterals cs (List.mem_cons_of_mem _ h), hapart⟩
  · rintro ⟨hcs, hnext, hbodies, hliterals, hapart⟩
    refine ⟨fun body h => ?_, fun other h => ?_, ?_⟩
    · rcases List.mem_cons.1 h with h | h
      · cases h
      · exact hbodies body h
    · rcases List.mem_cons.1 h with h | h
      · exact PatternPiece.literal.inj h ▸ hcs
      · exact hliterals other h
    · refine List.isChain_cons.2 ⟨?_, hapart⟩
      rintro next hmem left right ⟨-, rfl⟩
      exact hnext right hmem

theorem IsCutting.of_cons {piece : PatternPiece} (hcut : IsCutting (piece :: pieces)) :
    IsCutting pieces := by
  cases piece with
  | literal cs => exact (isCutting_literal_iff.1 hcut).2.2
  | group body => exact (isCutting_group_iff.1 hcut).2

/-- No piece of a cut is empty. -/
theorem IsCutting.chars_ne_nil {piece : PatternPiece} (hcut : IsCutting (piece :: pieces)) :
    piece.chars ≠ [] := by
  cases piece with
  | literal cs => exact (isCutting_literal_iff.1 hcut).1.1
  | group body => exact List.cons_ne_nil _ _

/-- What follows a literal begins with a brace, if anything follows it. -/
theorem head?_flatMap_chars (hnext : ∀ ds, literal ds ∉ pieces.head?) :
    ∀ c ∈ (pieces.flatMap chars).head?, c = '{' := by
  intro c hc
  cases pieces with
  | nil => cases hc
  | cons piece pieces =>
      cases piece with
      | literal ds => exact absurd rfl (hnext ds)
      | group body => exact (Option.some.inj hc).symm

/-- Where a cut begins with a literal, no group begins inside it. -/
theorem IsCutting.not_group_inside (hcut : IsCutting (literal cs :: pieces))
    {before rest after : List Char} (hne : rest ≠ []) (hcs : cs = before ++ rest)
    (hbody : '{' ∉ body ∧ '}' ∉ body) :
    rest ++ pieces.flatMap chars ≠ (group body).chars ++ after := by
  intro hsplit
  obtain ⟨⟨-, hnone⟩, hnext, -⟩ := isCutting_literal_iff.1 hcut
  obtain ⟨more, hgroup⟩ := exists_group_of_append hbody hsplit hne (head?_flatMap_chars hnext)
  have hthere := hgroup.append before []
  rw [List.append_nil, ← hcs] at hthere
  exact hnone ⟨_, _, _, hthere⟩

/-- A group that begins where another one does, or inside it, is the same group. -/
theorem eq_of_group_inside {first before rest more after : List Char}
    (hfirst : '{' ∉ first ∧ '}' ∉ first) (hne : rest ≠ [])
    (hchars : (group first).chars = before ++ rest) (hbody : '}' ∉ body)
    (hsplit : rest ++ more = (group body).chars ++ after) :
    before = [] ∧ first = body ∧ more = after := by
  obtain ⟨c, rest, rfl⟩ := List.exists_cons_of_ne_nil hne
  obtain ⟨rfl, hrest⟩ := List.cons.inj hsplit
  cases before with
  | nil =>
      have hclosed : first ++ ['}'] = rest := (List.cons.inj hchars).2
      have hread : first ++ '}' :: more = body ++ '}' :: after := by
        simpa [← hclosed] using hrest
      exact ⟨rfl, eq_of_append_close hfirst.2 hbody hread⟩
  | cons d before =>
      -- the group would begin behind the opening brace, but no other opening brace is there
      have hclosed : first ++ ['}'] = before ++ '{' :: rest := (List.cons.inj hchars).2
      have hmem : '{' ∈ first ++ ['}'] := by
        rw [hclosed]
        exact List.mem_append_right before List.mem_cons_self
      rcases List.mem_append.1 hmem with hopen | hopen
      · exact absurd hopen hfirst.1
      · exact absurd hopen (by decide)

/-- Every group in the text is a piece of the cut. -/
theorem IsCutting.exists_split (hcut : IsCutting pieces) :
    ∀ {before after : List Char}, IsGroupIn (pieces.flatMap chars) before body after →
      ∃ left right, pieces = left ++ group body :: right ∧ left.flatMap chars = before ∧
        right.flatMap chars = after := by
  induction pieces with
  | nil =>
      rintro before after ⟨-, heq⟩
      simp [chars] at heq
  | cons piece pieces ih =>
      rintro before after ⟨hbody, heq⟩
      rw [List.flatMap_cons] at heq
      rcases append_eq_append_cases heq with ⟨more, rfl, hmore⟩ | ⟨rest, hne, hchars, hrest⟩
      · obtain ⟨left, right, rfl, rfl, rfl⟩ := ih hcut.of_cons ⟨hbody, hmore⟩
        exact ⟨piece :: left, right, rfl, rfl, rfl⟩
      · -- the group begins in the first piece
        cases piece with
        | literal cs => exact absurd hrest (hcut.not_group_inside hne hchars hbody)
        | group first =>
            obtain ⟨hfirst, -⟩ := isCutting_group_iff.1 hcut
            obtain ⟨rfl, rfl, rfl⟩ := eq_of_group_inside hfirst hne hchars hbody.2 hrest
            exact ⟨[], pieces, rfl, rfl, rfl⟩

/-- A cut whose text begins with a group begins with that group. -/
theorem IsCutting.head_of_group (hcut : IsCutting pieces) {after : List Char}
    (hbody : '{' ∉ body ∧ '}' ∉ body) (heq : pieces.flatMap chars = (group body).chars ++ after) :
    ∃ right, pieces = group body :: right ∧ right.flatMap chars = after := by
  have hgroup : IsGroupIn (pieces.flatMap chars) [] body after := ⟨hbody, heq⟩
  obtain ⟨left, right, rfl, hleft, hright⟩ := hcut.exists_split hgroup
  cases left with
  | nil => exact ⟨right, rfl, hright⟩
  | cons piece left =>
      rw [List.flatMap_cons, List.append_eq_nil_iff] at hleft
      exact absurd hleft.1 hcut.chars_ne_nil

/-- The literal at the start of a cut is not longer than that of another cut. -/
theorem IsCutting.eq_nil_of_longer {rest : List Char}
    (hcut : IsCutting (literal (cs ++ rest) :: pieces)) (hother : IsCutting (literal cs :: others))
    (hsame : rest ++ pieces.flatMap chars = others.flatMap chars) : rest = [] := by
  by_contra hne
  obtain ⟨-, hnext, hothers⟩ := isCutting_literal_iff.1 hother
  cases others with
  | nil => exact hne (List.append_eq_nil_iff.1 hsame).1
  | cons next others =>
      cases next with
      | literal ds => exact hnext ds rfl
      | group body =>
          exact hcut.not_group_inside hne rfl (isCutting_group_iff.1 hothers).1 hsame

/-- **One cut**: a text is cut in no more than one way. -/
theorem IsCutting.unique (hcut : IsCutting pieces) (hother : IsCutting others)
    (hsame : pieces.flatMap chars = others.flatMap chars) : pieces = others := by
  induction pieces generalizing others with
  | nil =>
      cases others with
      | nil => rfl
      | cons other others =>
          rw [List.flatMap_nil, eq_comm, List.flatMap_cons, List.append_eq_nil_iff] at hsame
          exact absurd hsame.1 hother.chars_ne_nil
  | cons piece pieces ih =>
      have hrest := hcut.of_cons
      cases piece with
      | group body =>
          have hbody := (isCutting_group_iff.1 hcut).1
          obtain ⟨right, rfl, hright⟩ := hother.head_of_group hbody hsame.symm
          rw [ih hrest hother.of_cons hright.symm]
      | literal cs =>
          cases others with
          | nil =>
              rw [List.flatMap_nil, List.flatMap_cons, List.append_eq_nil_iff] at hsame
              exact absurd hsame.1 hcut.chars_ne_nil
          | cons other others =>
              cases other with
              | group body =>
                  have hbody := (isCutting_group_iff.1 hother).1
                  obtain ⟨right, hright, -⟩ := hcut.head_of_group hbody hsame
                  cases hright
              | literal ds =>
                  have hequal : cs = ds ∧ pieces.flatMap chars = others.flatMap chars := by
                    rcases List.append_eq_append_iff.1 hsame with
                      ⟨more, hds, hmore⟩ | ⟨more, hcs, hmore⟩
                    · obtain rfl : ds = cs ++ more := hds
                      obtain rfl := hother.eq_nil_of_longer hcut hmore.symm
                      exact ⟨(List.append_nil cs).symm, hmore⟩
                    · obtain rfl : cs = ds ++ more := hcs
                      obtain rfl := hcut.eq_nil_of_longer hother hmore.symm
                      exact ⟨List.append_nil ds, hmore.symm⟩
                  rw [hequal.1, ih hrest hother.of_cons hequal.2]

end Cutting

/-! ## The cut that is found -/

theorem isCutting_ofLiteral {cs : List Char} (hcs : ¬ HoldsGroup cs) :
    IsCutting (ofLiteral cs) := by
  unfold ofLiteral
  split
  · exact isCutting_nil
  · rename_i hne
    exact isCutting_literal_iff.2 ⟨⟨fun h => hne (h ▸ rfl), hcs⟩, nofun, isCutting_nil⟩

theorem isCutting_ofLiteral_append {cs body : List Char} {pieces : List PatternPiece}
    (hcs : ¬ HoldsGroup cs) (hgroup : IsCutting (group body :: pieces)) :
    IsCutting (ofLiteral cs ++ group body :: pieces) := by
  unfold ofLiteral
  split
  · exact hgroup
  · rename_i hne
    refine isCutting_literal_iff.2 ⟨⟨fun h => hne (h ▸ rfl), hcs⟩, fun ds h => ?_, hgroup⟩
    cases h

/-- What has been read since the last group: no opening brace, or none behind which a group ends
before the one that is open. -/
def IsOpenAt (before : List Char) : Option (List Char) → Prop
  | none => '{' ∉ before
  | some body => ¬ HoldsGroup before.reverse ∧ '{' ∉ body ∧ '}' ∉ body

/-- Characters that are read keep what is open, and every piece that is closed is in order. -/
theorem isCutting_cut (cs : List Char) :
    ∀ {before : List Char} {body? : Option (List Char)}, IsOpenAt before body? →
      IsCutting (cut before body? cs) := by
  have hpending : ∀ {before body : List Char}, IsOpenAt before (some body) →
      ¬ HoldsGroup (before.reverse ++ '{' :: body.reverse) := by
    rintro before body ⟨hbefore, -, hclose⟩
    exact not_holdsGroup_append hbefore (by simpa using hclose)
  induction cs with
  | nil =>
      intro before body? hopen
      cases body? with
      | none =>
          exact isCutting_ofLiteral (not_holdsGroup_of_notMem (by simpa [IsOpenAt] using hopen))
      | some body => exact isCutting_ofLiteral (hpending hopen)
  | cons c rest ih =>
      intro before body? hopen
      unfold cut
      cases body? with
      | none =>
          have hnone : '{' ∉ before := hopen
          dsimp only
          split
          · exact ih ⟨not_holdsGroup_of_notMem (by simpa using hnone), List.not_mem_nil,
              List.not_mem_nil⟩
          · rename_i hc
            exact ih (List.not_mem_cons_of_ne_of_not_mem (fun h => hc h.symm) hnone)
      | some body =>
          obtain ⟨hbefore, hbody⟩ := hopen
          dsimp only
          split
          · refine isCutting_ofLiteral_append hbefore (isCutting_group_iff.2 ⟨?_, ?_⟩)
            · simpa using hbody
            · exact ih List.not_mem_nil
          · split
            · refine ih ⟨?_, List.not_mem_nil, List.not_mem_nil⟩
              simpa using hpending ⟨hbefore, hbody⟩
            · rename_i hclose hc
              exact ih ⟨hbefore,
                List.not_mem_cons_of_ne_of_not_mem (fun h => hc h.symm) hbody.1,
                List.not_mem_cons_of_ne_of_not_mem (fun h => hclose h.symm) hbody.2⟩

end PatternPiece

/-- A pattern is cut at its brace groups. -/
theorem isCutting_patternPieces (pattern : String) :
    PatternPiece.IsCutting (patternPieces pattern) :=
  PatternPiece.isCutting_cut pattern.toList List.not_mem_nil

/-! ## Tokens -/

namespace Placeholder

/-- The text between two braces calls the placeholder: trimmed and in capital letters it is the key
of the placeholder. -/
def IsCalledBy (p : Placeholder) (body : List Char) : Prop :=
  Text.upper (Text.trim (String.ofList body)) = p.key

theorem ofKey?_eq_some_iff {key : String} {p : Placeholder} :
    ofKey? key = some p ↔ key = p.key := by
  constructor
  · intro h
    have hkey := List.find?_some h
    exact (of_decide_eq_true hkey).symm
  · rintro rfl
    cases p <;> decide

theorem ofBody?_eq_some_iff {body : List Char} {p : Placeholder} :
    ofBody? body = some p ↔ p.IsCalledBy body := by
  rw [ofBody?, ofKey?_eq_some_iff, IsCalledBy, Text.trim, Text.trimBy, String.toList_ofList]

end Placeholder

namespace Token

/-- The token is as it may stand in a pattern: a literal is not empty and holds no group that calls
a placeholder, and a field is a group that calls its placeholder. -/
def IsSpelled : Token → Prop
  | literal cs => cs ≠ [] ∧
      ¬ ∃ before body after p, IsGroupIn cs before body after ∧ Placeholder.IsCalledBy p body
  | field cs p => ∃ body, cs = '{' :: body ++ ['}'] ∧ '{' ∉ body ∧ '}' ∉ body ∧ p.IsCalledBy body

end Token

/-- The tokens make up the pattern, each is as it may stand in a pattern, and no two literals stand
next to each other. -/
structure IsTokenization (pattern : String) (tokens : List Token) : Prop where
  chars : tokens.flatMap Token.chars = pattern.toList
  spelled : ∀ t ∈ tokens, t.IsSpelled
  apart : tokens.IsChain fun t next => ¬ (t.placeholder? = none ∧ next.placeholder? = none)

section Tokens

variable {pattern : String} {pieces : List PatternPiece} {tokens others : List Token}

theorem tokenize_eq_ok_iff :
    tokenize pattern = .ok tokens ↔
      List.Forall₂ (fun piece t => piece.token? = .ok t) (patternPieces pattern) tokens := by
  rw [← Outcome.mapM_eq_ok_iff, tokenize]
  split
  · rename_i found hfound
    rw [hfound, Except.ok.injEq, Except.ok.injEq]
  · rename_i group hgroup
    rw [hgroup]
    exact iff_of_false nofun nofun

namespace PatternPiece

theorem token?_group_iff {body : List Char} {t : Token} :
    (group body).token? = .ok t ↔
      ∃ p : Placeholder, p.IsCalledBy body ∧ t = .field (group body).chars p := by
  simp only [← Placeholder.ofBody?_eq_some_iff, token?]
  split
  · rename_i p hp
    simp [hp, eq_comm]
  · rename_i hnone
    simp [hnone]

/-- The tokens of the pieces of a cut are as they may stand in a pattern, and their literals hold no
group at all. -/
theorem IsCutting.isSpelled (hcut : IsCutting pieces)
    (htokens : List.Forall₂ (fun piece t => piece.token? = .ok t) pieces tokens) :
    (∀ t ∈ tokens, t.IsSpelled) ∧ ∀ cs, .literal cs ∈ tokens → ¬ HoldsGroup cs := by
  induction htokens with
  | nil => exact ⟨nofun, nofun⟩
  | @cons piece t pieces tokens ht htokens ih =>
      obtain ⟨hspelled, hliterals⟩ := ih hcut.of_cons
      cases piece with
      | literal cs =>
          obtain ⟨⟨hne, hcs⟩, -⟩ := isCutting_literal_iff.1 hcut
          obtain rfl := Except.ok.inj ht
          refine ⟨List.forall_mem_cons.2 ⟨⟨hne, ?_⟩, hspelled⟩, ?_⟩
          · rintro ⟨before, body, after, p, hgroup, -⟩
            exact hcs ⟨before, body, after, hgroup⟩
          · intro ds hds
            rcases List.mem_cons.1 hds with h | h
            · exact Token.literal.inj h ▸ hcs
            · exact hliterals ds h
      | group body =>
          obtain ⟨hbody, -⟩ := isCutting_group_iff.1 hcut
          obtain ⟨p, hp, rfl⟩ := token?_group_iff.1 ht
          refine ⟨List.forall_mem_cons.2 ⟨⟨body, rfl, hbody.1, hbody.2, hp⟩, hspelled⟩, ?_⟩
          intro ds hds
          rcases List.mem_cons.1 hds with h | h
          · cases h
          · exact hliterals ds h

/-- Only a literal has a token without a placeholder. -/
theorem eq_literal_of_token? {piece : PatternPiece} {t : Token} (ht : piece.token? = .ok t)
    (hnone : t.placeholder? = none) : ∃ cs, piece = literal cs := by
  cases piece with
  | literal cs => exact ⟨cs, rfl⟩
  | group body =>
      obtain ⟨p, -, rfl⟩ := token?_group_iff.1 ht
      cases hnone

theorem IsCutting.apart_tokens (hcut : IsCutting pieces)
    (htokens : List.Forall₂ (fun piece t => piece.token? = .ok t) pieces tokens) :
    tokens.IsChain fun t next => ¬ (t.placeholder? = none ∧ next.placeholder? = none) := by
  induction htokens with
  | nil => exact .nil
  | @cons piece t pieces tokens ht htokens ih =>
      refine List.isChain_cons.2 ⟨?_, ih hcut.of_cons⟩
      rintro next hnext ⟨hfirst, hsecond⟩
      cases htokens with
      | nil => cases hnext
      | cons hpiece _ =>
          obtain rfl := Option.some.inj hnext
          obtain ⟨cs, rfl⟩ := eq_literal_of_token? ht hfirst
          obtain ⟨ds, rfl⟩ := eq_literal_of_token? hpiece hsecond
          exact (isCutting_literal_iff.1 hcut).2.1 ds rfl

/-- Tokens whose literals hold no group are the tokens of the pieces of a cut. -/
theorem exists_isCutting (hspelled : ∀ t ∈ tokens, t.IsSpelled)
    (hliterals : ∀ cs, .literal cs ∈ tokens → ¬ HoldsGroup cs)
    (hapart : tokens.IsChain fun t next => ¬ (t.placeholder? = none ∧ next.placeholder? = none)) :
    ∃ pieces, IsCutting pieces ∧
      List.Forall₂ (fun piece t => piece.token? = .ok t) pieces tokens := by
  induction tokens with
  | nil => exact ⟨[], isCutting_nil, .nil⟩
  | cons t tokens ih =>
      obtain ⟨ht, hspelled⟩ := List.forall_mem_cons.1 hspelled
      obtain ⟨hnext, hapart⟩ := List.isChain_cons.1 hapart
      obtain ⟨pieces, hcut, htokens⟩ :=
        ih hspelled (fun cs h => hliterals cs (List.mem_cons_of_mem t h)) hapart
      cases t with
      | literal cs =>
          refine ⟨literal cs :: pieces, isCutting_literal_iff.2 ⟨?_, fun ds hds => ?_, hcut⟩,
            .cons rfl htokens⟩
          · exact ⟨ht.1, hliterals cs List.mem_cons_self⟩
          · obtain ⟨more, rfl⟩ := List.head?_eq_some_iff.1 hds
            obtain ⟨next, rest, hfirst, -, rfl⟩ := List.forall₂_cons_left_iff.1 htokens
            obtain rfl := Except.ok.inj hfirst
            exact hnext _ rfl ⟨rfl, rfl⟩
      | field cs p =>
          obtain ⟨body, rfl, hopen, hclose, hp⟩ := ht
          exact ⟨group body :: pieces, isCutting_group_iff.2 ⟨⟨hopen, hclose⟩, hcut⟩,
            .cons (token?_group_iff.2 ⟨p, hp, rfl⟩) htokens⟩

end PatternPiece

/-- A row of tokens without groups in its literals is what the pattern is cut into. -/
theorem tokenize_of_isTokenization (htokens : IsTokenization pattern tokens)
    (hliterals : ∀ cs, .literal cs ∈ tokens → ¬ HoldsGroup cs) : tokenize pattern = .ok tokens := by
  obtain ⟨pieces, hcut, hpieces⟩ :=
    PatternPiece.exists_isCutting htokens.spelled hliterals htokens.apart
  have hchars : pieces.flatMap PatternPiece.chars = pattern.toList := by
    rw [← PatternPiece.flatMap_chars_of_mapM (Outcome.mapM_eq_ok_iff.2 hpieces), htokens.chars]
  obtain rfl : pieces = patternPieces pattern :=
    hcut.unique (isCutting_patternPieces pattern) (by rw [hchars, flatMap_chars_patternPieces])
  exact tokenize_eq_ok_iff.2 hpieces

/-- Every group in a pattern that has tokens calls a placeholder. -/
theorem exists_isCalledBy_of_tokenize (htokens : tokenize pattern = .ok tokens)
    {before body after : List Char} (hgroup : IsGroupIn pattern.toList before body after) :
    ∃ p : Placeholder, p.IsCalledBy body := by
  rw [← flatMap_chars_patternPieces] at hgroup
  obtain ⟨left, right, hpieces, -, -⟩ := (isCutting_patternPieces pattern).exists_split hgroup
  have hcalled := Outcome.exists_mapM_iff.1
    ⟨tokens, Outcome.mapM_eq_ok_iff.2 (tokenize_eq_ok_iff.1 htokens)⟩
  rw [hpieces] at hcalled
  obtain ⟨t, ht⟩ := hcalled (.group body) (List.mem_append_right left List.mem_cons_self)
  obtain ⟨p, hp, -⟩ := PatternPiece.token?_group_iff.1 ht
  exact ⟨p, hp⟩

/-- **The tokens of a pattern** are a row of tokens that makes it up, no literal among them holds a
group, and there is no other such row: not even one whose literals may hold groups that call no
placeholder. -/
theorem tokenize_unambiguous (htokens : tokenize pattern = .ok tokens) :
    IsTokenization pattern tokens ∧ (∀ cs, .literal cs ∈ tokens → ¬ HoldsGroup cs) ∧
      ∀ others, IsTokenization pattern others → others = tokens := by
  have hcut := isCutting_patternPieces pattern
  have hread := tokenize_eq_ok_iff.1 htokens
  obtain ⟨hspelled, hliterals⟩ := hcut.isSpelled hread
  refine ⟨⟨flatMap_chars_of_tokenize htokens, hspelled, hcut.apart_tokens hread⟩, hliterals, ?_⟩
  intro others hothers
  have hnone : ∀ cs, .literal cs ∈ others → ¬ HoldsGroup cs := by
    rintro cs hcs ⟨before, body, after, hgroup⟩
    -- the group is in the pattern, so it calls a placeholder, which the literal rules out
    obtain ⟨left, right, rfl⟩ := List.append_of_mem hcs
    have hthere := hgroup.append (left.flatMap Token.chars) (right.flatMap Token.chars)
    have hpattern : pattern.toList =
        left.flatMap Token.chars ++ (cs ++ right.flatMap Token.chars) := by
      rw [← hothers.chars, List.flatMap_append, List.flatMap_cons, Token.chars]
    rw [← hpattern] at hthere
    obtain ⟨p, hp⟩ := exists_isCalledBy_of_tokenize htokens hthere
    exact (hothers.spelled _ hcs).2 ⟨before, body, after, p, hgroup, hp⟩
  have hsame := tokenize_of_isTokenization hothers hnone
  rw [htokens] at hsame
  exact (Except.ok.inj hsame).symm

end Tokens

/-- The tokens of a pattern with stray braces, with blanks and small letters in a group. -/
def strayTokens : List Token :=
  [.literal "a\x7b".toList, .field "{ yyyy }".toList .year, .literal "\x7d_".toList,
    .field "{MM}".toList .month, .literal "\x7b".toList]

theorem strayTokens_unambiguous :
    tokenize "a\x7b{ yyyy }\x7d_{MM}\x7b" = .ok strayTokens ∧
      IsTokenization "a\x7b{ yyyy }\x7d_{MM}\x7b" strayTokens ∧
      (∀ cs, .literal cs ∈ strayTokens → ¬ HoldsGroup cs) ∧
      ∀ others, IsTokenization "a\x7b{ yyyy }\x7d_{MM}\x7b" others → others = strayTokens := by
  have htokens : tokenize "a\x7b{ yyyy }\x7d_{MM}\x7b" = .ok strayTokens := by decide +kernel
  exact ⟨htokens, tokenize_unambiguous htokens⟩

end BroadcastIntake
