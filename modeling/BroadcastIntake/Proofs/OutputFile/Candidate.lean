import BroadcastIntake.Proofs.FileTree.Directories
import BroadcastIntake.Proofs.OutputFile
import BroadcastIntake.Proofs.Path

/-!
# Which path a reservation hands out

A reservation hands out the path that it is asked for, unless something stands there once the
directories above it have been made; then it hands out a sibling, which is never that path.  Either
way the directory above is there afterwards.
-/

namespace BroadcastIntake

namespace FileTree

variable {tree made : FileTree} {path : Path}

theorem pathExists_of_createNew (hmade : tree.createNew path = .ok made) :
    tree.pathExists path = .ok false := by
  obtain ⟨l, hplace, hfree, -⟩ := createNew_eq_ok_iff.1 hmade
  have hlocate := locate_of_place hplace
  simp [pathExists, stat?, hlocate, hfree, Except.map]

theorem pathExists_of_alreadyExists {e : FileError} (hmade : tree.createNew path = .error e)
    (he : e.fault = .alreadyExists) : tree.pathExists path = .ok true := by
  rcases createNew_eq_error hmade with ⟨⟨l, entry, hplace, hentry⟩, -⟩ | hlocate
  · have hlocate := locate_of_place hplace
    simp [pathExists, stat?, hlocate, hentry, Except.map]
  · -- what ends a path on its way is never that something stands there
    rw [he] at hlocate
    rcases locate_eq_error hlocate with ⟨-, hfault⟩ | ⟨-, hfault⟩ <;> simp at hfault

end FileTree

namespace OutputFile

theorem parent_candidate (path : Path) (n : Nat) : (candidate path n).parent = path.parent := by
  unfold candidate
  split
  · rfl
  · exact Path.parent_withName path _

/-- A numbered sibling is another path. -/
theorem candidate_ne {path : Path} {n : Nat} (hn : n ≠ 0) : candidate path n ≠ path := by
  intro hsame
  have hname : s!"{path.stem}_{n}{path.suffix}" = path.stem ++ path.suffix := by
    rw [Path.stem_append_suffix]
    rw [candidate, if_neg hn] at hsame
    rw [← hsame, Path.name_withName, hsame]
  have hlength := congrArg String.length hname
  simp only [String.length_append] at hlength
  change path.stem.length + 1 + _ + path.suffix.length = _ at hlength
  omega

/-- A reservation makes the directory above the path that it hands out, and hands out the path that
it is asked for unless something stands there. -/
theorem reserve_found {tree reserved : FileTree} {path found : Path}
    (hreserve : (reserve tree path).value = (reserved, .ok found)) :
    reserved.LeadsToDirectory found.parent ∧
      (found = path ↔ (tree.makeDirectories path.parent).1.pathExists path ≠ .ok true) := by
  obtain ⟨made, hdirectories, hclaim⟩ := reserve_eq_ok hreserve
  have habove := FileTree.leadsToDirectory_of_makeDirectories hdirectories
  obtain ⟨m, -, rfl, hcreate, hbefore⟩ := claim_eq_ok _ hclaim
  obtain ⟨place, -, hfree, rfl⟩ := FileTree.createNew_eq_ok_iff.1 hcreate
  have hnot : made.get? place ≠ some .directory := by simp [hfree]
  have hkeeps := (FileTree.changesOnlyAt_set hnot (.file ByteArray.empty)).keeps
  refine ⟨?_, ?_⟩
  · rw [parent_candidate]
    exact hkeeps.leadsToDirectory habove
  · rw [hdirectories]
    rcases Nat.eq_zero_or_pos m with rfl | hm
    · refine iff_of_true rfl ?_
      rw [show made.pathExists path = .ok false from FileTree.pathExists_of_createNew hcreate]
      simp
    · -- the path itself was tried first, and something stands there
      obtain ⟨e, htried, htaken⟩ := hbefore 0 (Nat.le_refl 0) hm
      exact iff_of_false (candidate_ne (by omega)) fun hfreed =>
        hfreed (FileTree.pathExists_of_alreadyExists htried htaken)

end OutputFile

end BroadcastIntake
