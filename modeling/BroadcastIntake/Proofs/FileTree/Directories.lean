import BroadcastIntake.Proofs.FileTree.Frame

/-!
# Directories that are there

Once a directory has been made, its path leads to a directory, and it does so in every tree that
keeps directories; making it again then changes nothing.  What can go wrong is found by the file
system, with one exception: a null character in the path is found before anything is made.

Trees with the same directories are told apart only where their files differ (`stat?_congr`).
-/

namespace BroadcastIntake.FileTree

/-- A directory stands where a path leads to. -/
def LeadsToDirectory (tree : FileTree) (path : Path) : Prop :=
  ∃ l, tree.place? path = some l ∧ tree.get? l = some .directory

variable {tree made : FileTree} {path : Path}

theorem KeepsDirectories.leadsToDirectory {before after : FileTree}
    (hkeeps : KeepsDirectories before after) (hleads : before.LeadsToDirectory path) :
    after.LeadsToDirectory path := by
  obtain ⟨l, hplace, hdirectory⟩ := hleads
  exact ⟨l, hkeeps.place? hplace, hkeeps.directory l hdirectory⟩

/-! ## The same directories -/

theorem KeepsDirectories.locate_of_nameTooLong {before after : FileTree}
    (hkeeps : KeepsDirectories before after) (hlocate : before.locate path = .error .nameTooLong) :
    after.locate path = .error .nameTooLong := by
  unfold FileTree.locate at hlocate ⊢
  rw [hkeeps.workingDirectory]
  split at hlocate
  · cases hlocate
  · rename_i hnull
    rw [if_neg hnull]
    split at hlocate
    · rename_i hlong
      rw [if_pos hlong]
    · rename_i hshort
      rw [if_neg hshort]
      exact (hkeeps.follow _).2 hlocate

/-- Trees with the same directories give the same answer about a path, unless it leads to where they
differ. -/
theorem stat?_congr {a b : FileTree} (hab : KeepsDirectories a b) (hba : KeepsDirectories b a)
    (hsame : ∀ l, a.place? path = some l → b.get? l = a.get? l) : b.stat? path = a.stat? path := by
  rcases hplace : a.place? path with _ | l
  · have hnone : b.place? path = none := by
      rcases hother : b.place? path with _ | l
      · rfl
      · rw [hba.place? hother] at hplace
        cases hplace
    obtain ⟨fault, hlocate⟩ := locate_of_no_place hplace
    obtain ⟨fault', hlocate'⟩ := locate_of_no_place hnone
    by_cases hlong : fault = .nameTooLong
    · subst hlong
      rw [stat?, stat?, hlocate, hab.locate_of_nameTooLong hlocate]
    · have hlong' : fault' ≠ .nameTooLong := by
        rintro rfl
        rw [hba.locate_of_nameTooLong hlocate'] at hlocate
        exact hlong (Except.error.inj hlocate).symm
      rw [stat?, stat?, hlocate, hlocate']
      cases fault <;> cases fault' <;> first | rfl | contradiction
  · rw [stat?, stat?, locate_of_place hplace, locate_of_place (hab.place? hplace), hsame l hplace]

/-! ## One directory -/

theorem leadsToDirectory_of_makeDirectory (hmade : tree.makeDirectory path = .ok made) :
    made.LeadsToDirectory path := by
  have hkeeps := (makeDirectory_changesOnlyAt hmade).keeps
  obtain ⟨l, hplace, hfree, rfl⟩ := makeDirectory_eq_ok hmade
  have hnot : tree.get? l ≠ some .directory := by simp [hfree]
  have hroot : l ≠ [] := ne_nil_of_not_directory hnot
  exact ⟨l, hkeeps.place? hplace, by rw [get?_set tree hroot, if_pos rfl]⟩

theorem leadsToDirectory_of_isDirectory (hthere : tree.isDirectory path = .ok true) :
    tree.LeadsToDirectory path := by
  unfold isDirectory stat? at hthere
  split at hthere
  · rename_i l found hlocate
    obtain ⟨hplace, rfl⟩ := locate_eq_ok_iff.1 hlocate
    exact ⟨l, hplace, by simpa [Except.map] using hthere⟩
  · simp [Except.map] at hthere
  · simp [Except.map] at hthere

theorem leadsToDirectory_of_ensureDirectory (hmade : tree.ensureDirectory path = .ok made) :
    made.LeadsToDirectory path := by
  rcases ensureDirectory_eq_ok hmade with hfirst | ⟨rfl, hthere⟩
  · exact leadsToDirectory_of_makeDirectory hfirst
  · exact leadsToDirectory_of_isDirectory hthere

theorem LeadsToDirectory.ensureDirectory (hleads : tree.LeadsToDirectory path) :
    tree.ensureDirectory path = .ok tree := by
  obtain ⟨l, hplace, hdirectory⟩ := hleads
  have hlocate := locate_of_place hplace
  rw [hdirectory] at hlocate
  simp [FileTree.ensureDirectory, makeDirectory, isDirectory, stat?, hlocate, Except.map,
    FileFault.isSystem]

/-! ## A directory with those above it -/

theorem leadsToDirectory_of_makeDirectories (hmade : tree.makeDirectories path = (made, none)) :
    made.LeadsToDirectory path := by
  rcases makeDirectoriesFrom_cases hmade with
    ⟨above, -, ⟨hensured, -⟩ | ⟨e, -, -, houtcome⟩⟩ | ⟨m, e, -, -, houtcome⟩
  · exact leadsToDirectory_of_ensureDirectory hensured
  · cases houtcome
  · cases houtcome

/-- Making a directory that is there changes nothing. -/
theorem LeadsToDirectory.makeDirectories (hleads : tree.LeadsToDirectory path) :
    tree.makeDirectories path = (tree, none) := by
  unfold FileTree.makeDirectories
  cases path.names.length <;> simp [makeDirectoriesFrom, hleads.ensureDirectory]

/-! ## Failures -/

theorem isSystem_of_locate {fault : FileFault} (hnull : path.hasNull = false)
    (hlocate : tree.locate path = .error fault) : fault.isSystem = true := by
  have hsystem : ∀ fault ∈ [FileFault.missing, .notDirectory, .nameTooLong],
      fault.isSystem = true := by
    decide
  rcases locate_eq_error hlocate with ⟨hnull', -⟩ | ⟨-, hfault⟩
  · rw [hnull] at hnull'
    cases hnull'
  · exact hsystem fault hfault

theorem isSystem_of_ensureDirectory {e : FileError} (hnull : path.hasNull = false)
    (hensured : tree.ensureDirectory path = .error e) : e.fault.isSystem = true := by
  rcases makeDirectory_eq_error (ensureDirectory_eq_error hensured) with hexists | hlocate
  · rw [hexists]
    rfl
  · exact isSystem_of_locate hnull hlocate

theorem hasNull_parent (hnull : path.hasNull = false) : path.parent.hasNull = false := by
  simp only [Path.hasNull, List.any_eq_false] at hnull ⊢
  intro name hname
  exact hnull name ((List.dropLast_sublist _).mem hname)

theorem isSystem_of_makeDirectoriesFrom (n : Nat) :
    ∀ {path : Path} {e : FileError}, path.hasNull = false →
      tree.makeDirectoriesFrom n path = (made, some e) → e.fault.isSystem = true := by
  induction n using Nat.strongRecOn with
  | ind n ih =>
      intro path e hnull hmade
      rcases makeDirectoriesFrom_cases hmade with
        ⟨above, -, ⟨-, houtcome⟩ | ⟨e', hensured, -, houtcome⟩⟩ | ⟨m, e', rfl, hfailed, houtcome⟩
      · cases houtcome
      · obtain rfl := Option.some.inj houtcome
        exact isSystem_of_ensureDirectory hnull hensured
      · obtain rfl := Option.some.inj houtcome
        exact ih m (Nat.lt_succ_self m) (hasNull_parent hnull) hfailed

/-- What keeps a directory from being made is found by the file system, unless the path holds a
null character. -/
theorem isSystem_of_makeDirectories {left : FileTree} {e : FileError}
    (hnull : path.hasNull = false) (hmade : tree.makeDirectories path = (left, some e)) :
    e.fault.isSystem = true :=
  isSystem_of_makeDirectoriesFrom _ hnull hmade

/-- Nothing is made for a path with a null character. -/
theorem makeDirectories_of_hasNull (hnull : path.hasNull = true) :
    tree.makeDirectories path = (tree, some ⟨.nullCharacter, path.toString⟩) := by
  have hensured : tree.ensureDirectory path = .error ⟨.nullCharacter, path.toString⟩ := by
    simp [ensureDirectory, makeDirectory, locate, hnull, FileFault.isSystem]
  unfold makeDirectories
  cases path.names.length <;> simp [makeDirectoriesFrom, hensured]

end BroadcastIntake.FileTree
