import BroadcastIntake.OutputFile
import BroadcastIntake.Proofs.FileTree.Frame

/-!
# What becomes of output files

One statement for each operation on output files: where it changes the tree, and what stands at
the output afterwards.  The output is spoken of by its place, which stays the same while a job is
under way because directories are never removed.
-/

namespace BroadcastIntake.OutputFile

open FileTree (ChangesOnlyAt)

/-! ## Reserving -/

/-- A claim hands out the first candidate that is not taken, and makes its file. -/
theorem claim_eq_ok {tree claimed : FileTree} {path found : Path} (left : Nat) :
    ∀ {n : Nat}, claim tree path n left = .ok (found, claimed) →
      ∃ m, n ≤ m ∧ found = candidate path m ∧ tree.createNew found = .ok claimed ∧
        ∀ k, n ≤ k → k < m →
          ∃ e, tree.createNew (candidate path k) = .error e ∧ e.fault = .alreadyExists := by
  induction left with
  | zero =>
      intro n hclaim
      simp [claim] at hclaim
  | succ left ih =>
      intro n hclaim
      unfold claim at hclaim
      split at hclaim
      · rename_i hmade
        obtain ⟨rfl, rfl⟩ := Prod.mk.inj (Except.ok.inj hclaim)
        exact ⟨n, Nat.le_refl n, rfl, hmade, fun k hk hlt => absurd hlt (Nat.not_lt.2 hk)⟩
      · rename_i e hmade
        split at hclaim
        · rename_i htaken
          split at hclaim
          · cases hclaim
          · -- the candidate is taken, so the rest of the search begins after it
            obtain ⟨m, hm, hfound, hcreate, hbefore⟩ := ih hclaim
            refine ⟨m, Nat.le_of_succ_le hm, hfound, hcreate, fun k hk hlt => ?_⟩
            rcases Nat.eq_or_lt_of_le hk with rfl | hk
            · exact ⟨e, hmade, htaken⟩
            · exact hbefore k hk hlt
        · cases hclaim

/-- A reservation makes the directories and then claims a candidate. -/
theorem value_reserve (tree : FileTree) (path : Path) :
    (reserve tree path).value =
      match tree.makeDirectories path.parent with
      | (made, some e) => (made, .error (faultOr e (.noDirectory path.parent)))
      | (made, none) =>
        match claim made path 0 maxCandidates with
        | .error e => (made, .error e)
        | .ok (found, claimed) => (claimed, .ok found) := by
  unfold reserve
  rcases tree.makeDirectories path.parent with ⟨made, _ | e⟩
  · dsimp only
    rcases claim made path 0 maxCandidates with e | ⟨found, claimed⟩ <;> simp
  · rfl

theorem reserve_eq_ok {tree reserved : FileTree} {path found : Path}
    (hreserve : (reserve tree path).value = (reserved, .ok found)) :
    ∃ made, tree.makeDirectories path.parent = (made, none) ∧
      claim made path 0 maxCandidates = .ok (found, reserved) := by
  rw [value_reserve] at hreserve
  rcases hmade : tree.makeDirectories path.parent with ⟨made, _ | e⟩ <;> rw [hmade] at hreserve
  · rcases hclaim : claim made path 0 maxCandidates with e | ⟨found', claimed⟩ <;>
      simp only [hclaim, Prod.mk.injEq, Except.ok.injEq] at hreserve
    · simp at hreserve
    · obtain ⟨rfl, rfl⟩ := hreserve
      exact ⟨made, rfl, hclaim⟩
  · simp at hreserve

/-- What a reservation does: it makes an empty file in a free place, or no file at all. -/
structure Reserves (before after : FileTree) (path : Path) (place : Location) : Prop where
  place? : after.place? path = some place
  wasFree : before.get? place = none
  isEmpty : after.get? place = some (.file ByteArray.empty)
  frame : ChangesOnlyAt [place] before after

theorem reserve_ok {tree reserved : FileTree} {path found : Path}
    (hreserve : (reserve tree path).value = (reserved, .ok found)) :
    ∃ place, Reserves tree reserved found place := by
  obtain ⟨made, hdirectories, hclaim⟩ := reserve_eq_ok hreserve
  have hmade := tree.makeDirectories_changesOnlyAt path.parent
  rw [hdirectories] at hmade
  obtain ⟨m, -, -, hcreate, -⟩ := claim_eq_ok _ hclaim
  -- the claim is made in the tree with the directories, which leave the place free
  obtain ⟨place, hplace, hfree, rfl⟩ := FileTree.createNew_eq_ok_iff.1 hcreate
  have hnot : made.get? place ≠ some .directory := by simp [hfree]
  have hset := FileTree.changesOnlyAt_set hnot (.file ByteArray.empty)
  refine ⟨place, hset.place? hplace, hmade.of_none List.not_mem_nil hfree, ?_,
    hmade.of_nil.trans hset⟩
  rw [FileTree.get?_set made (FileTree.ne_nil_of_not_directory hnot), if_pos rfl]

/-- A path with a free place is reserved itself. -/
theorem reserve_of_free {tree above : FileTree} {path : Path} {place : Location}
    (habove : tree.makeDirectories path.parent = (above, none))
    (hplace : above.place? path = some place) (hfree : above.get? place = none) :
    (reserve tree path).value = (above.set place (.file ByteArray.empty), .ok path) := by
  have hmade : above.createNew (candidate path 0) = .ok (above.set place (.file ByteArray.empty)) :=
    FileTree.createNew_eq_ok_iff.2 ⟨place, hplace, hfree, rfl⟩
  have hclaim : claim above path 0 maxCandidates =
      .ok (path, above.set place (.file ByteArray.empty)) := by
    rw [show maxCandidates = 999 + 1 from rfl, claim, hmade]
    rfl
  simp only [value_reserve, habove, hclaim]

theorem reserve_error {tree left : FileTree} {path : Path} {e : CopyError}
    (hreserve : (reserve tree path).value = (left, .error e)) : ChangesOnlyAt [] tree left := by
  have hmade := tree.makeDirectories_changesOnlyAt path.parent
  rw [value_reserve] at hreserve
  rcases hdirectories : tree.makeDirectories path.parent with ⟨made, _ | e'⟩ <;>
    rw [hdirectories] at hreserve hmade
  · dsimp only at hreserve
    split at hreserve
    · obtain ⟨rfl, -⟩ := Prod.mk.inj hreserve
      exact hmade
    · cases (Prod.mk.inj hreserve).2
  · obtain ⟨rfl, -⟩ := Prod.mk.inj hreserve
    exact hmade

/-! ## Copying -/

theorem copyContent_eq_ok {tree copied : FileTree} {source destination : Path}
    (hcopy : copyContent tree source destination = .ok copied) :
    ∃ content, tree.read source = .ok content ∧ tree.write destination content = .ok copied := by
  unfold copyContent at hcopy
  split at hcopy
  · cases hcopy
  · split at hcopy
    · cases hcopy
    · split at hcopy
      · cases hcopy
      · rename_i content hread
        split at hcopy
        · cases hcopy
        · rename_i hwrite
          rw [← Except.ok.inj hcopy]
          exact ⟨content, hread, hwrite⟩

/-- A copy that succeeds leaves the bytes of the source at the destination, and nothing else. -/
theorem copy_ok {tree copied : FileTree} {source destination : Path} {place : Location}
    (hplace : tree.place? destination = some place) (hsource : (tree.place? source).isSome)
    (hcopy : (copy tree source destination).value = (copied, .ok ())) :
    ∃ content, tree.read source = .ok content ∧ copied.get? place = some (.file content) ∧
      ChangesOnlyAt [place] tree copied := by
  have hmade := tree.makeDirectories_changesOnlyAt destination.parent
  unfold copy at hcopy
  split at hcopy
  · simp at hcopy
  · rename_i made hdirectories
    rw [hdirectories] at hmade
    split at hcopy
    · simp at hcopy
    · rename_i copied' hcontent
      obtain rfl : copied' = copied := by simpa using hcopy
      obtain ⟨content, hread, hwrite⟩ := copyContent_eq_ok hcontent
      obtain ⟨hframe, hfile⟩ := FileTree.write_changesOnlyAt (hmade.place? hplace) hwrite
      refine ⟨content, ?_, hfile, hmade.of_nil.trans hframe⟩
      -- making the directories above the destination does not change where the source leads
      obtain ⟨l, hl⟩ := Option.isSome_iff_exists.1 hsource
      obtain ⟨l', hl', hsourceFile⟩ := FileTree.read_eq_ok_iff.1 hread
      obtain rfl : l = l' := Option.some.inj ((hmade.place? hl).symm.trans hl')
      exact FileTree.read_eq_ok_iff.2 ⟨l, hl, hmade.of_file List.not_mem_nil hsourceFile⟩

/-- A copy that fails touches no file. -/
theorem copy_error {tree left : FileTree} {source destination : Path} {e : CopyError}
    (hcopy : (copy tree source destination).value = (left, .error e)) :
    ChangesOnlyAt [] tree left := by
  have hmade := tree.makeDirectories_changesOnlyAt destination.parent
  unfold copy at hcopy
  split at hcopy <;> rename_i hdirectories <;> rw [hdirectories] at hmade
  · obtain ⟨rfl, -⟩ : _ ∧ _ := by simpa using hcopy
    exact hmade
  · split at hcopy
    · obtain ⟨rfl, -⟩ : _ ∧ _ := by simpa using hcopy
      exact hmade
    · simp at hcopy

/-! ## Removing -/

/-- After a removal no file stands at the path, and nothing else has changed. -/
theorem removePartial_spec {tree : FileTree} {path : Path} {place : Location}
    (hplace : tree.place? path = some place) :
    ChangesOnlyAt [place] tree (removePartial tree path).value ∧
      ∀ content, (removePartial tree path).value.get? place ≠ some (.file content) := by
  have hlocate := FileTree.locate_of_place hplace
  rcases hfound : tree.get? place with _ | (_ | content)
  · have hvalue : (removePartial tree path).value = tree := by
      simp [removePartial, FileTree.pathExists, FileTree.stat?, hlocate, hfound, Except.map]
    rw [hvalue]
    exact ⟨.refl _ tree, by simp [hfound]⟩
  · have hvalue : (removePartial tree path).value = tree := by
      simp [removePartial, FileTree.pathExists, FileTree.stat?, FileTree.remove, hlocate, hfound,
        Except.map]
    rw [hvalue]
    exact ⟨.refl _ tree, by simp [hfound]⟩
  · have hvalue : (removePartial tree path).value = tree.erase place := by
      simp [removePartial, FileTree.pathExists, FileTree.stat?, FileTree.remove, hlocate, hfound,
        Except.map]
    have hnot : tree.get? place ≠ some .directory := by simp [hfound]
    have hroot := FileTree.ne_nil_of_not_directory hnot
    rw [hvalue]
    exact ⟨FileTree.changesOnlyAt_erase hfound, by simp [FileTree.get?_erase tree hroot]⟩

end BroadcastIntake.OutputFile
