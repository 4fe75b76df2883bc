import BroadcastIntake.Path

/-!
# Names and paths

A path is a row of names.  Which texts are names is said by `Path.IsName`, and a path that is read
from a text has no others (`Path.isProper_ofString`).  Such a path is read back from its own text
(`Path.ofString_toString`): between two slashes stands a name as it is.

A name is its stem with its suffix, and the stem is only empty when the name is.
-/

namespace BroadcastIntake

/-! ## Pieces of a text -/

namespace Text.splitOnChar

variable {sep : Char} {cs : List Char}

theorem pieces_of_not_mem (hsep : sep ∉ cs) : pieces sep cs = [cs] := by
  induction cs with
  | nil => rfl
  | cons c rest ih =>
      rw [List.mem_cons, not_or] at hsep
      rw [pieces, if_neg fun hc => hsep.1 hc.symm, ih hsep.2]

/-- The characters before the first separator are a piece. -/
theorem pieces_append (hsep : sep ∉ cs) (rest : List Char) :
    pieces sep (cs ++ sep :: rest) = cs :: pieces sep rest := by
  induction cs with
  | nil => rw [List.nil_append, pieces, if_pos rfl]
  | cons c more ih =>
      rw [List.mem_cons, not_or] at hsep
      rw [List.cons_append, pieces, if_neg fun hc => hsep.1 hc.symm, ih hsep.2]

theorem pieces_ne_nil (cs : List Char) : pieces sep cs ≠ [] := by
  cases cs with
  | nil => exact List.cons_ne_nil _ _
  | cons c rest =>
      rw [pieces]
      split
      · exact List.cons_ne_nil _ _
      · split <;> exact List.cons_ne_nil _ _

/-- Characters without a separator are the beginning of the first piece. -/
theorem pieces_append_of_not_mem (hsep : sep ∉ cs) (more : List Char) :
    ∃ piece others, pieces sep (cs ++ more) = (cs ++ piece) :: others := by
  induction cs with
  | nil => exact List.exists_cons_of_ne_nil (pieces_ne_nil more)
  | cons c rest ih =>
      rw [List.mem_cons, not_or] at hsep
      obtain ⟨piece, others, hpieces⟩ := ih hsep.2
      refine ⟨piece, others, ?_⟩
      rw [List.cons_append, pieces, if_neg fun hc => hsep.1 hc.symm, hpieces]
      rfl

theorem not_mem_of_mem_pieces : ∀ piece ∈ pieces sep cs, sep ∉ piece := by
  induction cs with
  | nil =>
      intro piece hpiece
      rw [List.mem_singleton.1 hpiece]
      exact List.not_mem_nil
  | cons c rest ih =>
      intro piece hpiece
      rw [pieces] at hpiece
      split at hpiece
      · rcases List.mem_cons.1 hpiece with rfl | hpiece
        · exact List.not_mem_nil
        · exact ih piece hpiece
      · rename_i hc
        split at hpiece
        · rw [List.mem_singleton.1 hpiece, List.mem_singleton]
          exact fun hsep => hc hsep.symm
        · rename_i first others hpieces
          rw [hpieces] at ih
          rcases List.mem_cons.1 hpiece with rfl | hpiece
          · rw [List.mem_cons, not_or]
            exact ⟨fun hsep => hc hsep.symm, ih first List.mem_cons_self⟩
          · exact ih piece (List.mem_cons_of_mem first hpiece)

/-- Separators at the start stand before empty pieces. -/
theorem pieces_replicate (n : Nat) (rest : List Char) :
    pieces sep (List.replicate n sep ++ rest) = List.replicate n [] ++ pieces sep rest := by
  induction n with
  | zero => rfl
  | succ n ih =>
      rw [List.replicate_succ, List.cons_append, pieces, if_pos rfl, ih]
      rfl

/-- Texts without the separator are the pieces of what they are joined to. -/
theorem pieces_intercalate {words : List (List Char)} (hne : words ≠ [])
    (hwords : ∀ word ∈ words, sep ∉ word) :
    pieces sep ([sep].intercalate words) = words := by
  induction words with
  | nil => exact absurd rfl hne
  | cons word rest ih =>
      have hword := hwords word List.mem_cons_self
      cases rest with
      | nil =>
          rw [List.intercalate_singleton]
          exact pieces_of_not_mem hword
      | cons next others =>
          have hrest := ih (List.cons_ne_nil _ _) fun w hw =>
            hwords w (List.mem_cons_of_mem word hw)
          rw [List.intercalate_cons_cons, List.append_assoc, List.singleton_append,
            pieces_append hword, hrest]

end Text.splitOnChar

namespace Path

/-! ## Names -/

/-- The text may stand as a name in a path. -/
structure IsName (name : String) : Prop where
  ne_empty : name ≠ ""
  ne_dot : name ≠ "."
  noSlash : '/' ∉ name.toList

/-- The path has no more slashes than a path keeps, and its names are names. -/
structure IsProper (p : Path) : Prop where
  slashes : p.slashes ≤ 2
  names : ∀ name ∈ p.names, IsName name

theorem isProper_ofString (s : String) : (ofString s).IsProper where
  slashes := by
    show slashCount _ ≤ 2
    unfold slashCount
    split
    · decide
    · split <;> decide
  names := by
    intro name hname
    obtain ⟨hpiece, hkept⟩ := List.mem_filter.1 hname
    simp only [Bool.and_eq_true, decide_eq_true_eq] at hkept
    obtain ⟨piece, hmem, rfl⟩ := List.mem_map.1 hpiece
    refine ⟨hkept.1, hkept.2, ?_⟩
    rw [String.toList_ofList]
    exact Text.splitOnChar.not_mem_of_mem_pieces piece hmem

/-- In a path with names the last one is a name. -/
theorem IsProper.isName_name {p : Path} (hp : p.IsProper) (hname : p.name ≠ "") :
    IsName p.name := by
  unfold name at hname ⊢
  rcases hlast : p.names.getLast? with _ | last
  · rw [hlast] at hname
    exact absurd rfl hname
  · exact hp.names last (List.mem_of_getLast? hlast)

/-- A text that begins with two characters, none of them a slash, is a path with a name. -/
theorem names_ofString_ne_nil {s : String} {cs more : List Char} (hs : s.toList = cs ++ more)
    (hlength : 2 ≤ cs.length) (hslash : '/' ∉ cs) : (ofString s).names ≠ [] := by
  obtain ⟨piece, others, hpieces⟩ := Text.splitOnChar.pieces_append_of_not_mem hslash more
  rw [← hs] at hpieces
  have hlong : 2 ≤ (String.ofList (cs ++ piece)).length := by
    rw [String.length_ofList, List.length_append]
    omega
  have hname : String.ofList (cs ++ piece) ≠ "" ∧ String.ofList (cs ++ piece) ≠ "." := by
    constructor <;>
    · intro hshort
      rw [hshort] at hlong
      exact absurd hlong (by decide)
  have hmem : String.ofList (cs ++ piece) ∈ (ofString s).names := by
    refine List.mem_filter.2 ⟨?_, by simp only [hname, ne_eq, not_false_eq_true, decide_true,
      Bool.and_self]⟩
    rw [Text.splitOnChar, hpieces]
    exact List.mem_cons_self
  exact List.ne_nil_of_mem hmem

/-- A name is read as the path of that one name. -/
theorem ofString_of_isName {name : String} (hname : IsName name) : ofString name = ⟨0, [name]⟩ := by
  have hslashes : (name.toList.takeWhile (· = '/')).length = 0 := by
    rw [List.length_eq_zero_iff]
    rcases hchars : name.toList with _ | ⟨c, rest⟩
    · rfl
    · refine List.takeWhile_cons_of_neg fun hc => hname.noSlash ?_
      rw [hchars, of_decide_eq_true hc]
      exact List.mem_cons_self
  have hpieces : Text.splitOnChar '/' name = [name] := by
    unfold Text.splitOnChar
    rw [Text.splitOnChar.pieces_of_not_mem hname.noSlash, List.map_singleton, String.ofList_toList]
  unfold ofString
  rw [hslashes, hpieces]
  simp [slashCount, hname.ne_empty, hname.ne_dot]

theorem slashCount_of_le {n : Nat} (hn : n ≤ 2) : slashCount n = n := by
  unfold slashCount
  split
  · omega
  · split <;> omega

/-- A path with names is written as its slashes and the names with slashes between them. -/
theorem toList_toString (slashes : Nat) (first : String) (others : List String) :
    (toString ⟨slashes, first :: others⟩).toList =
      List.replicate slashes '/' ++ ['/'].intercalate ((first :: others).map String.toList) := by
  unfold toString
  simp [String.toList_intercalate]

/-- The first name has a character, which is no slash, so no more slashes are counted than there
are. -/
theorem takeWhile_toString {slashes : Nat} {first : String} (hfirst : IsName first)
    (others : List String) :
    (toString ⟨slashes, first :: others⟩).toList.takeWhile (· = '/') =
      List.replicate slashes '/' := by
  obtain ⟨c, rest, hc⟩ := List.exists_cons_of_ne_nil fun hnil =>
    hfirst.ne_empty (String.toList_eq_nil_iff.1 hnil)
  have hplain : c ≠ '/' := by
    rintro rfl
    apply hfirst.noSlash
    rw [hc]
    exact List.mem_cons_self
  obtain ⟨more, hmore⟩ : ∃ more,
      ['/'].intercalate ((first :: others).map String.toList) = c :: more := by
    cases others <;> simp [hc]
  rw [toList_toString, hmore, List.takeWhile_append_of_pos (by simp),
    List.takeWhile_cons_of_neg (by simpa using hplain), List.append_nil]

/-- **Paths** are read back from their texts. -/
theorem ofString_toString {p : Path} (hp : p.IsProper) : ofString p.toString = p := by
  obtain ⟨slashes, names⟩ := p
  have hle : slashes ≤ 2 := hp.slashes
  rcases names with _ | ⟨first, others⟩
  · -- only slashes, or the dot that stands for no names at all
    rcases slashes with _ | _ | _ | n
    · decide
    · decide
    · decide
    · omega
  · have hwords : ∀ word ∈ (first :: others).map String.toList, '/' ∉ word := by
      intro word hword
      obtain ⟨name, hname, rfl⟩ := List.mem_map.1 hword
      exact (hp.names name hname).noSlash
    have hpieces : Text.splitOnChar '/' (toString ⟨slashes, first :: others⟩) =
        List.replicate slashes "" ++ first :: others := by
      unfold Text.splitOnChar
      rw [toList_toString, Text.splitOnChar.pieces_replicate,
        Text.splitOnChar.pieces_intercalate (by simp) hwords]
      simp
    have hkept : (first :: others).filter (fun name => name ≠ "" && name ≠ ".") =
        first :: others := by
      refine List.filter_eq_self.2 fun name hname => ?_
      have hisName := hp.names name hname
      simp [hisName.ne_empty, hisName.ne_dot]
    unfold ofString
    rw [takeWhile_toString (hp.names first List.mem_cons_self), List.length_replicate, hpieces,
      List.filter_append, hkept, slashCount_of_le hle]
    simp

theorem toString_inj {p q : Path} (hp : p.IsProper) (hq : q.IsProper) :
    p.toString = q.toString ↔ p = q := by
  refine ⟨fun hsame => ?_, congrArg toString⟩
  rw [← ofString_toString hp, hsame, ofString_toString hq]

/-! ## Stems and suffixes -/

theorem splitName_append (cs : List Char) : (splitName cs).1 ++ (splitName cs).2 = cs := by
  unfold splitName
  dsimp only
  split
  · exact List.append_nil cs
  · exact List.take_append_drop _ cs

theorem stem_append_suffix (p : Path) : p.stem ++ p.suffix = p.name := by
  have hsplit := splitName_append p.name.toList
  rw [← String.toList_inj]
  simpa [stem, stemOf, suffix, suffixOf] using hsplit

/-- A name without a suffix is its stem. -/
theorem stem_of_suffix_eq_empty {p : Path} (hsuffix : p.suffix = "") : p.stem = p.name := by
  rw [← p.stem_append_suffix, hsuffix, String.append_empty]

/-- A name with a suffix has a stem before it. -/
theorem stem_ne_empty {p : Path} (hsuffix : p.suffix ≠ "") : p.stem ≠ "" := by
  intro hstem
  apply hsuffix
  unfold stem stemOf at hstem
  unfold suffix suffixOf
  have hempty : (splitName p.name.toList).1 = [] := by simpa using hstem
  unfold splitName at hempty ⊢
  dsimp only at hempty ⊢
  split
  · rfl
  · rename_i hsplit
    rw [if_neg hsplit] at hempty
    dsimp only at hempty
    simp only [hempty, List.isEmpty_nil, Bool.or_true, not_true] at hsplit

theorem name_ne_empty {p : Path} (hsuffix : p.suffix ≠ "") : p.name ≠ "" := by
  intro hname
  rw [suffix, hname] at hsuffix
  exact hsuffix (by decide)

/-- A suffix has a character after its dot. -/
theorem two_le_length_suffix {p : Path} (hsuffix : p.suffix ≠ "") : 2 ≤ p.suffix.toList.length := by
  have hlong : ∀ cs : List Char, (splitName cs).2 ≠ [] → 2 ≤ (splitName cs).2.length := by
    intro cs hne
    unfold splitName at hne ⊢
    dsimp only at hne ⊢
    split
    · rename_i hwhole
      rw [if_pos hwhole] at hne
      exact absurd rfl hne
    · rename_i hsplit
      simp only [Bool.or_eq_true, decide_eq_true_eq, not_or] at hsplit
      have hle : (cs.reverse.takeWhile (· ≠ '.')).length ≤ cs.length := by
        rw [← cs.length_reverse]
        exact (List.takeWhile_sublist _).length_le
      rw [List.length_drop]
      omega
  unfold suffix suffixOf at hsuffix ⊢
  rw [String.toList_ofList]
  exact hlong _ fun hnil => hsuffix (by rw [hnil])

/-- The suffix of a name has no slash. -/
theorem IsProper.slash_notMem_suffix {p : Path} (hp : p.IsProper) (hsuffix : p.suffix ≠ "") :
    '/' ∉ p.suffix.toList := by
  have hname := (hp.isName_name (name_ne_empty hsuffix)).noSlash
  rw [← p.stem_append_suffix, String.toList_append, List.mem_append, not_or] at hname
  exact hname.2

/-- The name of a path with a suffix, as a path of its own, has a stem. -/
theorem IsProper.stem_ofString_name_ne_empty {p : Path} (hp : p.IsProper)
    (hsuffix : p.suffix ≠ "") : (ofString p.name).stem ≠ "" := by
  rw [ofString_of_isName (hp.isName_name (name_ne_empty hsuffix))]
  exact stem_ne_empty hsuffix

/-- What is joined to a path gives it a name. -/
theorem name_join_ne_empty {p q : Path} (hq : q.IsProper) (hnames : q.names ≠ []) :
    (p.join q).name ≠ "" := by
  obtain ⟨last, hlast⟩ : ∃ last, q.names.getLast? = some last :=
    ⟨_, List.getLast?_eq_some_getLast hnames⟩
  have hjoin : (p.join q).names.getLast? = some last := by
    unfold join
    split
    · exact hlast
    · rw [List.getLast?_append, hlast, Option.some_or]
  rw [name, hjoin]
  exact (hq.names last (List.mem_of_getLast? hlast)).ne_empty

theorem name_withName (p : Path) (name : String) : (p.withName name).name = name := by
  simp [withName, Path.name]

theorem parent_withName (p : Path) (name : String) : (p.withName name).parent = p.parent := by
  simp [withName, parent]

end Path

end BroadcastIntake
