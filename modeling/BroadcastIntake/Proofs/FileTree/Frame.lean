import BroadcastIntake.Proofs.FileTree.Lookup

/-!
# What file operations leave alone

Every operation of the intake on a file tree changes files in one place at most.  Elsewhere it can
only make directories where nothing stood.  `ChangesOnlyAt` states this for a step between two
trees; it composes along a run, and it keeps the place of every path, since directories stay.
-/

namespace BroadcastIntake.FileTree

/-- Every directory of the first tree is one of the second, and relative paths start from the same
directory. -/
structure KeepsDirectories (before after : FileTree) : Prop where
  workingDirectory : after.workingDirectory = before.workingDirectory
  directory : ∀ l, before.get? l = some .directory → after.get? l = some .directory

/-- Files differ at the given locations only; elsewhere directories may have been made where
nothing stood. -/
structure ChangesOnlyAt (places : List Location) (before after : FileTree) : Prop where
  keeps : KeepsDirectories before after
  elsewhere : ∀ l, l ∉ places → after.get? l = before.get? l ∨
    before.get? l = none ∧ after.get? l = some .directory

/-! ## Places stay -/

theorem KeepsDirectories.refl (tree : FileTree) : KeepsDirectories tree tree :=
  ⟨rfl, fun _ h => h⟩

theorem KeepsDirectories.trans {a b c : FileTree} (hab : KeepsDirectories a b)
    (hbc : KeepsDirectories b c) : KeepsDirectories a c :=
  ⟨hbc.workingDirectory.trans hab.workingDirectory,
    fun l h => hbc.directory l (hab.directory l h)⟩

/-- What leads to a place leads there still, and a name that is too long stays in the way: only a
directory leads on, and it is still one. -/
theorem KeepsDirectories.follow {before after : FileTree} (hkeeps : KeepsDirectories before after)
    (names : List String) :
    ∀ {here : Location},
      (∀ l found, before.follow here names = .ok (l, found) →
        after.follow here names = .ok (l, after.get? l)) ∧
      (before.follow here names = .error .nameTooLong →
        after.follow here names = .error .nameTooLong) := by
  induction names with
  | nil =>
      intro here
      refine ⟨fun l found hfollow => ?_, nofun⟩
      simp only [FileTree.follow, Except.ok.injEq, Prod.mk.injEq] at hfollow ⊢
      exact ⟨hfollow.1, hfollow.1 ▸ rfl⟩
  | cons name rest ih =>
      intro here
      by_cases hup : name = ".."
      · simp only [hup, follow_up]
        exact ih
      by_cases hlong : nameLimit < name.utf8ByteSize
      · simp [follow_long hup hlong]
      by_cases hrest : rest = []
      · rw [hrest, follow_last hup hlong, follow_last hup hlong]
        simp
      rcases hnext : before.get? (here ++ [name]) with _ | (_ | content)
      · simp [follow_of_none hup hlong hnext hrest]
      · rw [follow_of_directory hup hlong hnext,
          follow_of_directory hup hlong (hkeeps.directory _ hnext)]
        exact ih
      · simp [follow_of_file hup hlong hnext hrest]

theorem KeepsDirectories.place? {before after : FileTree} (hkeeps : KeepsDirectories before after)
    {path : Path} {l : Location} (hplace : before.place? path = some l) :
    after.place? path = some l := by
  obtain ⟨hnull, hshort, hfollow⟩ := follow_of_locate (locate_of_place hplace)
  rw [FileTree.place?, locate, hkeeps.workingDirectory, hnull, if_neg Bool.false_ne_true,
    if_neg hshort, (hkeeps.follow _).1 _ _ hfollow]

theorem KeepsDirectories.isSome_place? {before after : FileTree}
    (hkeeps : KeepsDirectories before after) {path : Path} (hplace : (before.place? path).isSome) :
    (after.place? path).isSome := by
  obtain ⟨l, hl⟩ := Option.isSome_iff_exists.1 hplace
  rw [hkeeps.place? hl]
  rfl

/-! ## Frames compose -/

namespace ChangesOnlyAt

variable {places : List Location} {before after : FileTree}

theorem refl (places : List Location) (tree : FileTree) : ChangesOnlyAt places tree tree :=
  ⟨.refl tree, fun _ _ => .inl rfl⟩

theorem trans {later : FileTree} (hfirst : ChangesOnlyAt places before after)
    (hsecond : ChangesOnlyAt places after later) : ChangesOnlyAt places before later := by
  refine ⟨hfirst.keeps.trans hsecond.keeps, ?_⟩
  intro l hl
  rcases hfirst.elsewhere l hl with hsame | ⟨hnone, hmade⟩
  · rw [← hsame]
    exact hsecond.elsewhere l hl
  · exact .inr ⟨hnone, hsecond.keeps.directory l hmade⟩

theorem mono {more : List Location} (hchanges : ChangesOnlyAt places before after)
    (hmore : ∀ l ∈ places, l ∈ more) : ChangesOnlyAt more before after :=
  ⟨hchanges.keeps, fun l hl => hchanges.elsewhere l fun h => hl (hmore l h)⟩

/-- A step that touches no file touches none in any place. -/
theorem of_nil (hchanges : ChangesOnlyAt [] before after) : ChangesOnlyAt places before after :=
  hchanges.mono fun _ h => absurd h List.not_mem_nil

theorem place? (hchanges : ChangesOnlyAt places before after) {path : Path} {l : Location}
    (hplace : before.place? path = some l) : after.place? path = some l :=
  hchanges.keeps.place? hplace

/-- A file elsewhere keeps its content. -/
theorem file (hchanges : ChangesOnlyAt places before after) {l : Location} (hl : l ∉ places)
    {content : ByteArray} (hfile : before.get? l = some (.file content)) :
    after.get? l = some (.file content) := by
  rcases hchanges.elsewhere l hl with hsame | ⟨hnone, -⟩
  · rw [hsame, hfile]
  · rw [hnone] at hfile
    cases hfile

/-- A file elsewhere stood there before. -/
theorem of_file (hchanges : ChangesOnlyAt places before after) {l : Location} (hl : l ∉ places)
    {content : ByteArray} (hfile : after.get? l = some (.file content)) :
    before.get? l = some (.file content) := by
  rcases hchanges.elsewhere l hl with hsame | ⟨-, hmade⟩
  · rw [← hsame, hfile]
  · rw [hmade] at hfile
    cases hfile

/-- What is free elsewhere was free before. -/
theorem of_none (hchanges : ChangesOnlyAt places before after) {l : Location} (hl : l ∉ places)
    (hnone : after.get? l = none) : before.get? l = none := by
  rcases hchanges.elsewhere l hl with hsame | ⟨hfree, -⟩
  · rw [← hsame, hnone]
  · exact hfree

/-- When a file that was made in a free place is gone, no file has changed at all. -/
theorem drop {l : Location} (hchanges : ChangesOnlyAt [l] before after)
    (hfree : before.get? l = none) (hgone : ∀ content, after.get? l ≠ some (.file content)) :
    ChangesOnlyAt [] before after := by
  refine ⟨hchanges.keeps, ?_⟩
  intro k _
  by_cases hk : k = l
  · subst hk
    rcases hafter : after.get? k with _ | (_ | content)
    · exact .inl hfree.symm
    · exact .inr ⟨hfree, rfl⟩
    · exact absurd hafter (hgone content)
  · exact hchanges.elsewhere k (by simpa using hk)

end ChangesOnlyAt

/-! ## Extensions -/

/-- The second tree has all directories and files of the first, the files with the same content. -/
structure Extends (initial tree : FileTree) : Prop where
  keeps : KeepsDirectories initial tree
  file : ∀ l content, initial.get? l = some (.file content) → tree.get? l = some (.file content)

namespace Extends

variable {initial tree : FileTree}

theorem refl (tree : FileTree) : Extends tree tree :=
  ⟨.refl tree, fun _ _ h => h⟩

/-- What is free in an extension is free in the tree that it extends. -/
theorem of_none (hextends : Extends initial tree) {l : Location} (hnone : tree.get? l = none) :
    initial.get? l = none := by
  rcases hinitial : initial.get? l with _ | (_ | content)
  · rfl
  · rw [hextends.keeps.directory l hinitial] at hnone
    cases hnone
  · rw [hextends.file l content hinitial] at hnone
    cases hnone

theorem read (hextends : Extends initial tree) {path : Path} {content : ByteArray}
    (hread : initial.read path = .ok content) : tree.read path = .ok content := by
  obtain ⟨l, hplace, hfile⟩ := read_eq_ok_iff.1 hread
  exact read_eq_ok_iff.2 ⟨l, hextends.keeps.place? hplace, hextends.file l content hfile⟩

/-- A step that changes only what is new goes from one extension to another. -/
theorem step {after : FileTree} {places : List Location} (hextends : Extends initial tree)
    (hchanges : ChangesOnlyAt places tree after) (hnew : ∀ l ∈ places, initial.get? l = none) :
    Extends initial after := by
  refine ⟨hextends.keeps.trans hchanges.keeps, ?_⟩
  intro l content hfile
  refine hchanges.file ?_ (hextends.file l content hfile)
  intro hl
  rw [hnew l hl] at hfile
  cases hfile

end Extends

/-! ## Operations -/

/-- A step changes one place only when the tree is the same everywhere else and no directory has
stood in that place. -/
theorem ChangesOnlyAt.of_get?_eq {before after : FileTree} {l : Location}
    (hworking : after.workingDirectory = before.workingDirectory)
    (hl : before.get? l ≠ some .directory) (hsame : ∀ k, k ≠ l → after.get? k = before.get? k) :
    ChangesOnlyAt [l] before after := by
  refine ⟨⟨hworking, fun k hk => ?_⟩, fun k hk => .inl (hsame k (by simpa using hk))⟩
  have hne : k ≠ l := by
    rintro rfl
    exact hl hk
  rw [hsame k hne, hk]

/-- Putting something where no directory stands changes that place only. -/
theorem changesOnlyAt_set {tree : FileTree} {l : Location}
    (hl : tree.get? l ≠ some .directory) (e : Entry) : ChangesOnlyAt [l] tree (tree.set l e) :=
  .of_get?_eq rfl hl fun k hk => by rw [get?_set tree (ne_nil_of_not_directory hl), if_neg hk]

/-- Making a directory in a free place touches no file. -/
theorem changesOnlyAt_set_directory {tree : FileTree} {l : Location} (hl : tree.get? l = none) :
    ChangesOnlyAt [] tree (tree.set l .directory) := by
  have hnone : tree.get? l ≠ some .directory := by simp [hl]
  refine (changesOnlyAt_set hnone .directory).drop hl ?_
  intro content
  simp [get?_set tree (ne_nil_of_not_directory hnone)]

/-- Removing a file changes the place of the file only. -/
theorem changesOnlyAt_erase {tree : FileTree} {l : Location} {content : ByteArray}
    (hl : tree.get? l = some (.file content)) : ChangesOnlyAt [l] tree (tree.erase l) := by
  have hnot : tree.get? l ≠ some .directory := by simp [hl]
  exact .of_get?_eq rfl hnot fun k hk => by
    rw [get?_erase tree (ne_nil_of_not_directory hnot), if_neg hk]

theorem makeDirectory_changesOnlyAt {tree made : FileTree} {path : Path}
    (hmade : tree.makeDirectory path = .ok made) : ChangesOnlyAt [] tree made := by
  obtain ⟨l, -, hfree, rfl⟩ := makeDirectory_eq_ok hmade
  exact changesOnlyAt_set_directory hfree

theorem ensureDirectory_changesOnlyAt {tree made : FileTree} {path : Path}
    (hmade : tree.ensureDirectory path = .ok made) : ChangesOnlyAt [] tree made := by
  rcases ensureDirectory_eq_ok hmade with hfirst | ⟨rfl, -⟩
  · exact makeDirectory_changesOnlyAt hfirst
  · exact .refl [] made

theorem makeDirectoriesFrom_changesOnlyAt (tree : FileTree) (n : Nat) :
    ∀ {path : Path} {made : FileTree} {outcome : Option FileError},
      tree.makeDirectoriesFrom n path = (made, outcome) → ChangesOnlyAt [] tree made := by
  induction n using Nat.strongRecOn with
  | ind n ih =>
      intro path made outcome hmade
      rcases makeDirectoriesFrom_cases hmade with
        ⟨above, hfrom, hlast⟩ | ⟨m, e, rfl, hfailed, -⟩
      · have habove : ChangesOnlyAt [] tree above := by
          rcases hfrom with rfl | ⟨m, rfl, hfrom⟩
          · exact .refl [] above
          · exact ih m (Nat.lt_succ_self m) hfrom
        rcases hlast with ⟨hensured, -⟩ | ⟨e, -, rfl, -⟩
        · exact habove.trans (ensureDirectory_changesOnlyAt hensured)
        · exact habove
      · exact ih m (Nat.lt_succ_self m) hfailed

/-- Making directories touches no file, whether or not it succeeds. -/
theorem makeDirectories_changesOnlyAt (tree : FileTree) (path : Path) :
    ChangesOnlyAt [] tree (tree.makeDirectories path).1 :=
  makeDirectoriesFrom_changesOnlyAt tree _ rfl

theorem write_changesOnlyAt {tree written : FileTree} {path : Path} {content : ByteArray}
    {l : Location} (hplace : tree.place? path = some l)
    (hwrite : tree.write path content = .ok written) :
    ChangesOnlyAt [l] tree written ∧ written.get? l = some (.file content) := by
  obtain ⟨l', hplace', hdirectory, rfl⟩ := write_eq_ok_iff.1 hwrite
  obtain rfl : l = l' := Option.some.inj (hplace.symm.trans hplace')
  refine ⟨changesOnlyAt_set hdirectory _, ?_⟩
  rw [get?_set tree (ne_nil_of_not_directory hdirectory), if_pos rfl]

end BroadcastIntake.FileTree
