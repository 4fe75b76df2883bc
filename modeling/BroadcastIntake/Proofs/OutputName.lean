import BroadcastIntake.OutputName
import BroadcastIntake.Proofs.Path

/-!
# Output names are names

Whatever a show is called and whatever its template says, a safe name has no slash, and something
is left of it when there was something before.  So the name of an output for a source that has a
stem is never a path without names (`OutputName.names_forSource_ne_nil`), whatever extension it is
given.  It is one name of a path (`OutputName.IsComponent`) exactly when the extension has no slash.
-/

namespace BroadcastIntake.OutputName

theorem mem_of_mem_collapse {c : Char} (cs : List Char) : c ∈ collapse cs → c ∈ cs := by
  fun_induction collapse cs with
  | case1 => exact id
  | case2 => exact id
  | case3 rest ih => exact fun hc => List.mem_cons_of_mem _ (ih hc)
  | case4 d rest _ _ ih =>
      intro hc
      rcases List.mem_cons.1 hc with rfl | hc
      · exact List.mem_cons_self
      · exact List.mem_cons_of_mem _ (ih hc)

theorem collapse_ne_nil (cs : List Char) : cs ≠ [] → collapse cs ≠ [] := by
  fun_induction collapse cs with
  | case1 => exact id
  | case2 => exact id
  | case3 rest ih => exact fun _ => ih (List.cons_ne_nil _ _)
  | case4 => exact fun _ => List.cons_ne_nil _ _

theorem slash_notMem_sanitize (s : String) : '/' ∉ (sanitize s).toList := by
  intro hmem
  rw [sanitize, String.toList_ofList] at hmem
  obtain ⟨c, -, hc⟩ := List.mem_map.1 (mem_of_mem_collapse _ hmem)
  unfold safeChar at hc
  split at hc
  · exact absurd hc (by decide)
  · rename_i hsafe
    subst hc
    exact hsafe (by decide)

theorem sanitize_ne_empty {s : String} (hs : s ≠ "") : (sanitize s).toList ≠ [] := by
  rw [sanitize, String.toList_ofList]
  refine collapse_ne_nil _ fun hnil => hs ?_
  exact String.toList_eq_nil_iff.1 (List.map_eq_nil_iff.1 hnil)

theorem slash_notMem_stemFor (sourceStem : String) (profile : ShowProfile)
    (date? : Option BroadcastDate) (today : BroadcastDate) :
    '/' ∉ (stemFor sourceStem profile date? today).toList := by
  unfold stemFor
  split <;> exact slash_notMem_sanitize _

/-- The name of an output is a safe text that is not empty, with the extension behind it. -/
theorem forSource_eq {source : String} (hstem : (Path.ofString source).stem ≠ "")
    (profile : ShowProfile) (date? : Option BroadcastDate) (extension? : Option String)
    (today : BroadcastDate) :
    ∃ name : String, name.toList ≠ [] ∧ '/' ∉ name.toList ∧
      forSource source profile date? extension? today =
        name ++ extension?.getD ("." ++ profile.audio.format) := by
  unfold forSource
  dsimp only
  split
  · exact ⟨_, sanitize_ne_empty hstem, slash_notMem_sanitize _, rfl⟩
  · rename_i hscores
    refine ⟨_, fun hnil => hscores ?_, slash_notMem_stemFor _ profile date? today, rfl⟩
    rw [hnil]
    rfl

/-- The name of an output with an extension, or with the format of the show, is a path with a
name. -/
theorem names_forSource_ne_nil {source : String} (hstem : (Path.ofString source).stem ≠ "")
    (profile : ShowProfile) (date? : Option BroadcastDate) {extension? : Option String}
    (hdot : ∀ extension ∈ extension?, extension.toList.head? = some '.') (today : BroadcastDate) :
    (Path.ofString (forSource source profile date? extension? today)).names ≠ [] := by
  obtain ⟨name, hname, hslash, hsource⟩ := forSource_eq hstem profile date? extension? today
  obtain ⟨more, hmore⟩ : ∃ more, (extension?.getD ("." ++ profile.audio.format)).toList =
      '.' :: more := by
    cases extension? with
    | none => exact ⟨profile.audio.format.toList, String.toList_append⟩
    | some extension => exact List.head?_eq_some_iff.1 (hdot extension rfl)
  have hsplit : (forSource source profile date? extension? today).toList =
      (name.toList ++ ['.']) ++ more := by
    rw [hsource, String.toList_append, hmore, List.append_assoc]
    rfl
  refine Path.names_ofString_ne_nil hsplit ?_ ?_
  · rw [List.length_append]
    exact Nat.succ_le_succ (List.length_pos_iff.2 hname)
  · rw [List.mem_append, not_or]
    exact ⟨hslash, by decide⟩

/-- The text is one name of a path, and not that of a directory above, with something before its
extension. -/
structure IsComponent (extension name : String) : Prop extends Path.IsName name where
  ne_parent : name ≠ ".."
  stem : ∃ stem, stem ≠ "" ∧ name = stem ++ extension

/-- A safe text with an extension is one name of a path exactly when the extension has no slash. -/
theorem isComponent_iff {stem extension : String} (hstem : stem ≠ "")
    (hslash : '/' ∉ stem.toList) (hextension : 2 ≤ extension.toList.length) :
    IsComponent extension (stem ++ extension) ↔ '/' ∉ extension.toList := by
  have hlong : 3 ≤ (stem ++ extension).toList.length := by
    have hpos : 0 < stem.toList.length :=
      List.length_pos_iff.2 fun hnil => hstem (String.toList_eq_nil_iff.1 hnil)
    rw [String.toList_append, List.length_append]
    omega
  -- the name is longer than what no name may be
  have hne : ∀ short : String, short.toList.length < 3 → stem ++ extension ≠ short := by
    rintro short hshort rfl
    omega
  have hmem : '/' ∉ (stem ++ extension).toList ↔ '/' ∉ extension.toList := by
    simp [hslash]
  rw [← hmem]
  refine ⟨fun h => h.noSlash, fun h => ?_⟩
  exact ⟨⟨hne "" (by decide), hne "." (by decide), h⟩, hne ".." (by decide), stem, hstem, rfl⟩

end BroadcastIntake.OutputName
