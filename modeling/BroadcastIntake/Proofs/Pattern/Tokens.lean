import BroadcastIntake.Pattern.Basic
import BroadcastIntake.Proofs.Outcome

/-!
# Tokens make up their pattern

Cutting a pattern at its brace groups loses nothing: the pieces, written one after the other, are
the pattern (`flatMap_chars_patternPieces`).  A token keeps the characters of its piece, so the
same holds of the tokens (`flatMap_chars_of_tokenize`).

The other way round, a pattern that is put together from literals and brace groups without braces of
their own is cut into these groups, with the literals between two groups made one
(`patternPieces_flatMap`).

An accepted pattern has the tokens of its text (`Pattern.compile_eq_ok_iff`).
-/

namespace BroadcastIntake

namespace PatternPiece

/-- A literal is written as its characters, and so is what it is made of. -/
theorem flatMap_ofLiteral {write : PatternPiece → List Char}
    (hliteral : ∀ cs, write (literal cs) = cs) (cs : List Char) :
    (ofLiteral cs).flatMap write = cs := by
  unfold ofLiteral
  split
  · rename_i hempty
    rw [List.isEmpty_iff.1 hempty]
    rfl
  · rw [List.flatMap_singleton, hliteral]

theorem flatMap_chars_ofLiteral (cs : List Char) : (ofLiteral cs).flatMap chars = cs :=
  flatMap_ofLiteral (fun _ => rfl) cs

/-- The characters that have been read and are in no piece yet. -/
def pending (before : List Char) (body? : Option (List Char)) : List Char :=
  before.reverse ++ (body?.map fun body => '{' :: body.reverse).getD []

theorem flatMap_chars_cut (cs : List Char) :
    ∀ (before : List Char) (body? : Option (List Char)),
      (cut before body? cs).flatMap chars = pending before body? ++ cs := by
  induction cs with
  | nil =>
      intro before body?
      cases body? <;> simp [cut, pending, flatMap_chars_ofLiteral]
  | cons c rest ih =>
      intro before body?
      unfold cut
      cases body? with
      | none =>
          dsimp only
          split
          · rename_i hopen
            simp [ih, pending, hopen]
          · simp [ih, pending]
      | some body =>
          dsimp only
          split
          · rename_i hclose
            simp [ih, pending, hclose, flatMap_chars_ofLiteral, chars]
          · split
            · rename_i hopen
              simp [ih, pending, hopen]
            · simp [ih, pending]

theorem chars_of_token? {piece : PatternPiece} {t : Token} (ht : piece.token? = .ok t) :
    t.chars = piece.chars := by
  cases piece with
  | literal cs =>
      obtain rfl := Except.ok.inj ht
      rfl
  | group body =>
      simp only [token?] at ht
      split at ht
      · obtain rfl := Except.ok.inj ht
        rfl
      · cases ht

theorem flatMap_chars_of_mapM {pieces : List PatternPiece} {tokens : List Token}
    (htokens : pieces.mapM token? = .ok tokens) :
    tokens.flatMap Token.chars = pieces.flatMap chars := by
  rw [Outcome.mapM_eq_ok_iff] at htokens
  induction htokens with
  | nil => rfl
  | cons ht _ ih => rw [List.flatMap_cons, List.flatMap_cons, chars_of_token? ht, ih]

end PatternPiece

theorem flatMap_chars_patternPieces (pattern : String) :
    (patternPieces pattern).flatMap PatternPiece.chars = pattern.toList :=
  PatternPiece.flatMap_chars_cut pattern.toList [] none

/-- The tokens of a pattern, written one after the other, are the pattern. -/
theorem flatMap_chars_of_tokenize {pattern : String} {tokens : List Token}
    (htokens : tokenize pattern = .ok tokens) :
    tokens.flatMap Token.chars = pattern.toList := by
  unfold tokenize at htokens
  split at htokens
  · rename_i hpieces
    obtain rfl := Except.ok.inj htokens
    rw [PatternPiece.flatMap_chars_of_mapM hpieces, flatMap_chars_patternPieces]
  · cases htokens

/-! ## Putting a pattern together -/

namespace PatternPiece

/-- No brace stands in the piece, other than those around a group. -/
def HasNoBrace : PatternPiece → Prop
  | literal cs | group cs => '{' ∉ cs ∧ '}' ∉ cs

/-- The pieces with literals that follow each other, and the characters `before`, made one. -/
def merge (before : List Char) : List PatternPiece → List PatternPiece
  | [] => ofLiteral before
  | literal cs :: rest => merge (before ++ cs) rest
  | group body :: rest => ofLiteral before ++ group body :: merge [] rest

variable {before cs body rest : List Char} {pieces : List PatternPiece}

theorem cut_append (hopen : '{' ∉ cs) :
    cut before none (cs ++ rest) = cut (cs.reverse ++ before) none rest := by
  induction cs generalizing before with
  | nil => rfl
  | cons c cs ih =>
      rw [List.mem_cons, not_or] at hopen
      rw [List.cons_append, cut]
      rw [if_neg fun h => hopen.1 h.symm, ih hopen.2, List.reverse_cons, List.append_assoc,
        List.singleton_append]

/-- A group that is open goes on to its closing brace. -/
theorem cut_open (hopen : '{' ∉ body) (hclose : '}' ∉ body) :
    ∀ start, cut before (some start) (body ++ '}' :: rest) =
      ofLiteral before.reverse ++ group (start.reverse ++ body) :: cut [] none rest := by
  induction body with
  | nil => intro start; simp [cut]
  | cons c body ih =>
      intro start
      rw [List.mem_cons, not_or] at hopen hclose
      rw [List.cons_append, cut]
      rw [if_neg fun h => hclose.1 h.symm, if_neg fun h => hopen.1 h.symm, ih hopen.2 hclose.2,
        List.reverse_cons, List.append_assoc, List.singleton_append]

theorem cut_group (hbody : '{' ∉ body ∧ '}' ∉ body) :
    cut before none ('{' :: body ++ '}' :: rest) =
      ofLiteral before.reverse ++ group body :: cut [] none rest :=
  cut_open hbody.1 hbody.2 []

theorem cut_flatMap (hpieces : ∀ piece ∈ pieces, piece.HasNoBrace) :
    ∀ before, cut before.reverse none (pieces.flatMap chars) = merge before pieces := by
  induction pieces with
  | nil => intro before; simp [cut, merge]
  | cons piece pieces ih =>
      intro before
      obtain ⟨hpiece, hrest⟩ := List.forall_mem_cons.1 hpieces
      rw [List.flatMap_cons]
      cases piece with
      | literal cs =>
          rw [chars, cut_append hpiece.1, ← List.reverse_append, ih hrest, merge]
      | group body =>
          have hnext := ih hrest []
          rw [List.reverse_nil] at hnext
          rw [chars, List.append_assoc, List.singleton_append, cut_group hpiece, hnext,
            List.reverse_reverse, merge]

theorem mem_ofLiteral {piece : PatternPiece} (hpiece : piece ∈ ofLiteral cs) :
    piece = literal cs := by
  unfold ofLiteral at hpiece
  split at hpiece
  · cases hpiece
  · exact List.mem_singleton.1 hpiece

/-- Making literals one changes no group. -/
theorem group_mem_merge :
    ∀ before, group body ∈ merge before pieces ↔ group body ∈ pieces := by
  have hother : ∀ cs, group body ∉ ofLiteral cs := fun cs hmem =>
    PatternPiece.noConfusion (mem_ofLiteral hmem)
  induction pieces with
  | nil => intro before; simp [merge, hother]
  | cons piece pieces ih =>
      intro before
      cases piece with
      | literal cs => simp [merge, ih]
      | group first => simp [merge, hother, ih]

/-- What is written for literals as they stand is written for the literal that they make. -/
theorem flatMap_merge {write : PatternPiece → List Char}
    (hliteral : ∀ cs, write (literal cs) = cs) :
    ∀ before, (merge before pieces).flatMap write = before ++ pieces.flatMap write := by
  have hone := flatMap_ofLiteral hliteral
  induction pieces with
  | nil => intro before; simp [merge, hone]
  | cons piece pieces ih =>
      intro before
      cases piece with
      | literal cs => simp [merge, ih, hliteral]
      | group body => simp [merge, ih, hone]

end PatternPiece

theorem patternPieces_flatMap {pieces : List PatternPiece}
    (hpieces : ∀ piece ∈ pieces, piece.HasNoBrace) :
    patternPieces (String.ofList (pieces.flatMap PatternPiece.chars)) =
      PatternPiece.merge [] pieces := by
  rw [patternPieces, String.toList_ofList]
  exact PatternPiece.cut_flatMap hpieces []

namespace Pattern

/-- A text is accepted as the pattern of its tokens, when it has tokens and no star in them. -/
theorem compile_eq_ok_iff {source : String} {p : Pattern} :
    compile source = .ok p ↔
      ∃ tokens, tokenize source = .ok tokens ∧ ¬ tokens.any hasWildcard = true ∧
        ⟨source, tokens⟩ = p := by
  constructor
  · intro hp
    unfold compile at hp
    split at hp
    · cases hp
    · rename_i tokens htokens
      split at hp
      · cases hp
      · rename_i hplain
        exact ⟨tokens, htokens, hplain, Except.ok.inj hp⟩
  · rintro ⟨tokens, htokens, hplain, rfl⟩
    simp only [compile, htokens, if_neg hplain]

theorem source_of_compile {source : String} {p : Pattern} (hp : compile source = .ok p) :
    p.source = source := by
  obtain ⟨tokens, -, -, rfl⟩ := compile_eq_ok_iff.1 hp
  rfl

/-- The tokens of an accepted pattern are those of its source. -/
theorem tokenize_of_compile {source : String} {p : Pattern} (hp : compile source = .ok p) :
    tokenize source = .ok p.tokens := by
  obtain ⟨tokens, htokens, -, rfl⟩ := compile_eq_ok_iff.1 hp
  exact htokens

end Pattern

end BroadcastIntake
