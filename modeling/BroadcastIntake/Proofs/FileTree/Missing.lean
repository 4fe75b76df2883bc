import BroadcastIntake.Proofs.FileTree.Directories

/-!
# Making what is missing

A direct path starts at the root and never goes up.  When such a path is missing, because nothing
stands at its end or a directory on the way is missing, then the directories above it can be made
up to the first failure, and making them leaves a mark: something stands where nothing stood
(`exists_made`).
-/

namespace BroadcastIntake

/-- The path starts at the root and never goes up. -/
structure Path.IsDirect (path : Path) : Prop where
  absolute : path.isAbsolute = true
  down : ∀ name ∈ path.names, name ≠ ".."

namespace Path

theorem IsDirect.parent {path : Path} (hdirect : path.IsDirect) : path.parent.IsDirect where
  absolute := hdirect.absolute
  down := fun name hname => hdirect.down name ((List.dropLast_sublist _).mem hname)

/-- A path that has been resolved is direct. -/
theorem isDirect_resolve (directory : List String) (path : Path) :
    (path.resolve directory).IsDirect := by
  have hdown : ∀ (names above : List String), (∀ name ∈ above, name ≠ "..") →
      ∀ name ∈ names.foldl (fun above name => if name = ".." then above.tail else name :: above)
        above, name ≠ ".." := by
    intro names
    induction names with
    | nil => exact fun above habove => habove
    | cons first rest ih =>
        intro above habove
        rw [List.foldl_cons]
        refine ih _ ?_
        split
        · exact fun name hname => habove name (List.mem_of_mem_tail hname)
        · rename_i hfirst
          intro name hname
          rcases List.mem_cons.1 hname with rfl | hname
          · exact hfirst
          · exact habove name hname
  refine ⟨rfl, fun name hname => ?_⟩
  rw [resolve, resolveNames, List.mem_reverse] at hname
  exact hdown _ [] (by simp) name hname

theorem isDirect_of_map_resolve {directory : List String} {written : Option Path} {path : Path}
    (hpath : written.map (·.resolve directory) = some path) : path.IsDirect := by
  obtain ⟨path, -, rfl⟩ := Option.map_eq_some_iff.1 hpath
  exact isDirect_resolve _ _

theorem utf8ByteSize_intercalate_le (names : List String) :
    (String.intercalate "/" names.dropLast).utf8ByteSize ≤
      (String.intercalate "/" names).utf8ByteSize := by
  induction names with
  | nil => exact Nat.le_refl _
  | cons first rest ih =>
      rcases rest with _ | ⟨second, _ | ⟨third, rest⟩⟩
      · simp
      · simp [String.intercalate_cons_cons, Nat.add_assoc]
      · simp only [List.dropLast_cons_cons, String.intercalate_cons_cons,
          String.utf8ByteSize_append] at ih ⊢
        omega

/-- The text of a path is at least as long as that of its parent. -/
theorem utf8ByteSize_parent_le {path : Path} (habsolute : path.isAbsolute = true) :
    path.parent.toString.utf8ByteSize ≤ path.toString.utf8ByteSize := by
  have hslashes : path.slashes ≠ 0 := by simpa [isAbsolute] using habsolute
  have hle := utf8ByteSize_intercalate_le path.names
  simpa [toString, Path.parent, hslashes, String.utf8ByteSize_append] using hle

end Path

namespace FileTree

variable {tree : FileTree} {path : Path}

/-- Nothing stands where the path leads to, or a directory on the way there is missing. -/
def IsMissing (tree : FileTree) (path : Path) : Prop :=
  (∃ l, tree.locate path = .ok (l, none)) ∨ tree.locate path = .error .missing

/-! ## The way to a missing path -/

/-- Names without their last one: they lead to a directory when all of them lead somewhere, and
when a directory is missing for all of them, it is missing for these or not there at their end. -/
theorem follow_concat (tree : FileTree) (last : String) (names : List String) :
    ∀ {here : Location}, tree.get? here = some .directory →
      (∀ name ∈ names ++ [last], name ≠ "..") →
        (∀ l found, tree.follow here (names ++ [last]) = .ok (l, found) →
          ∃ l', tree.follow here names = .ok (l', some .directory)) ∧
        (tree.follow here (names ++ [last]) = .error .missing →
          (∃ l', tree.follow here names = .ok (l', none)) ∨
            tree.follow here names = .error .missing) := by
  induction names with
  | nil =>
      intro here hhere hdown
      refine ⟨fun l found _ => ⟨here, by rw [follow, hhere]⟩, fun hfollow => ?_⟩
      have hlast : last ≠ ".." := hdown last List.mem_cons_self
      by_cases hlong : nameLimit < last.utf8ByteSize
      · rw [List.nil_append, follow_long hlast hlong] at hfollow
        cases hfollow
      · rw [List.nil_append, follow_last hlast hlong] at hfollow
        cases hfollow
  | cons name rest ih =>
      intro here hhere hdown
      have hname : name ≠ ".." := hdown name List.mem_cons_self
      have hmore : rest ++ [last] ≠ [] := by simp
      rw [List.cons_append]
      by_cases hlong : nameLimit < name.utf8ByteSize
      · rw [follow_long hname hlong]
        simp
      rcases hnext : tree.get? (here ++ [name]) with _ | (_ | content)
      · -- this name is the first that is missing
        rw [follow_of_none hname hlong hnext hmore]
        refine ⟨by simp, fun _ => ?_⟩
        by_cases hrest : rest = []
        · rw [hrest, follow_last hname hlong, hnext]
          exact .inl ⟨_, rfl⟩
        · exact .inr (follow_of_none hname hlong hnext hrest)
      · rw [follow_of_directory hname hlong hnext, follow_of_directory hname hlong hnext]
        exact ih hnext fun name hname => hdown name (List.mem_cons_of_mem _ hname)
      · rw [follow_of_file hname hlong hnext hmore]
        simp

/-- The same for direct paths. -/
theorem locate_parent (hdirect : path.IsDirect) (hnames : path.names ≠ []) :
    (∀ l found, tree.locate path = .ok (l, found) → tree.LeadsToDirectory path.parent) ∧
      (tree.locate path = .error .missing → tree.IsMissing path.parent) := by
  have hsplit : path.names = path.parent.names ++ [path.names.getLast hnames] :=
    (List.dropLast_concat_getLast hnames).symm
  have hdown := hdirect.down
  rw [hsplit] at hdown
  have hconcat := follow_concat tree _ path.parent.names (get?_nil tree) hdown
  rw [← hsplit] at hconcat
  have hparent : ¬ path.hasNull = true → ¬ pathLimit < path.toString.utf8ByteSize →
      tree.locate path.parent = tree.follow [] path.parent.names := by
    intro hnull hshort
    have hshort' := Path.utf8ByteSize_parent_le hdirect.absolute
    rw [locate, hasNull_parent (Bool.eq_false_iff.2 hnull), if_neg Bool.false_ne_true,
      if_neg (by omega), if_pos hdirect.parent.absolute]
  have hlocate : tree.locate path =
      if path.hasNull then .error .nullCharacter
      else if pathLimit < path.toString.utf8ByteSize then .error .nameTooLong
      else tree.follow [] path.names := by
    rw [locate, if_pos hdirect.absolute]
  rw [hlocate]
  split
  · simp
  · split
    · simp
    · rename_i hnull hshort
      have hparent := hparent hnull hshort
      refine ⟨fun l found hfollow => ?_, fun hfollow => ?_⟩
      · obtain ⟨l', hfollow'⟩ := hconcat.1 l found hfollow
        exact ⟨l', locate_eq_ok_iff.1 (hparent.trans hfollow')⟩
      · rw [IsMissing, hparent]
        exact hconcat.2 hfollow

/-! ## Making directories -/

theorem not_isMissing_of_names_eq_nil (habsolute : path.isAbsolute = true)
    (hnames : path.names = []) : ¬ tree.IsMissing path := by
  have hlocate : tree.locate path = if path.hasNull then .error .nullCharacter
      else if pathLimit < path.toString.utf8ByteSize then .error .nameTooLong
      else .ok ([], some .directory) := by
    rw [locate, if_pos habsolute, hnames, follow, get?_nil]
  rw [IsMissing, hlocate]
  split
  · simp
  · split <;> simp

theorem makeDirectory_of_locate {l : Location} (hlocate : tree.locate path = .ok (l, none)) :
    tree.makeDirectory path = .ok (tree.set l .directory) := by
  rw [makeDirectory, hlocate]

/-- Making a missing directory with those above it makes one of them at least. -/
theorem exists_made (n : Nat) :
    ∀ {path : Path}, path.IsDirect → path.names.length ≤ n → tree.IsMissing path →
      ∃ l, tree.get? l = none ∧ (tree.makeDirectoriesFrom n path).1.get? l = some .directory := by
  induction n with
  | zero =>
      intro path hdirect hlength hmissing
      have hnames := List.length_eq_zero_iff.1 (Nat.le_zero.1 hlength)
      exact absurd hmissing (not_isMissing_of_names_eq_nil hdirect.absolute hnames)
  | succ n ih =>
      intro path hdirect hlength hmissing
      rcases hmissing with ⟨l, hlocate⟩ | hlocate
      · -- nothing but the directory itself is missing
        have hfree : tree.get? l = none := (locate_eq_ok_iff.1 hlocate).2
        have hnot : tree.get? l ≠ some .directory := by simp [hfree]
        have hroot : l ≠ [] := ne_nil_of_not_directory hnot
        have hmade : tree.ensureDirectory path = .ok (tree.set l .directory) := by
          rw [ensureDirectory, makeDirectory_of_locate hlocate]
        refine ⟨l, hfree, ?_⟩
        rw [makeDirectoriesFrom, hmade]
        simp only [get?_set tree hroot, if_true]
      · have hnames : path.names ≠ [] := fun hnames =>
          not_isMissing_of_names_eq_nil hdirect.absolute hnames (.inr hlocate)
        have hensured : tree.ensureDirectory path = .error ⟨.missing, path.toString⟩ := by
          simp [ensureDirectory, makeDirectory, hlocate]
        have habove : path.parent.names.length ≤ n := by
          simp only [Path.parent, List.length_dropLast]
          omega
        obtain ⟨l, hfree, hthere⟩ :=
          ih hdirect.parent habove ((locate_parent hdirect hnames).2 hlocate)
        refine ⟨l, hfree, ?_⟩
        have hempty : path.names.isEmpty = false := by simpa using hnames
        rw [makeDirectoriesFrom, hensured]
        simp only [hempty, decide_true, Bool.not_false, Bool.and_self, if_true]
        rcases hmade : tree.makeDirectoriesFrom n path.parent with ⟨above, _ | e⟩
        · rw [hmade] at hthere
          dsimp only
          rcases hlast : above.ensureDirectory path with e | made
          · exact hthere
          · exact (ensureDirectory_changesOnlyAt hlast).keeps.directory l hthere
        · rw [hmade] at hthere
          exact hthere

/-- Where nothing is missing, making directories makes none. -/
theorem makeDirectories_of_not_isMissing (hmissing : ¬ tree.IsMissing path) :
    (tree.makeDirectories path).1 = tree := by
  have hensured : tree.ensureDirectory path = .ok tree ∨
      ∃ e, tree.ensureDirectory path = .error e ∧ e.fault ≠ .missing := by
    rcases hlocate : tree.locate path with fault | ⟨l, _ | entry⟩
    · have hfault : fault ≠ .missing := by
        rintro rfl
        exact hmissing (.inr hlocate)
      refine .inr ⟨⟨fault, path.toString⟩, ?_, hfault⟩
      cases fault <;>
        simp [ensureDirectory, makeDirectory, isDirectory, stat?, hlocate, Except.map,
          FileFault.isSystem]
    · exact absurd (.inl ⟨l, hlocate⟩) hmissing
    · cases entry with
      | directory =>
          exact .inl (by simp [ensureDirectory, makeDirectory, isDirectory, stat?, hlocate,
            Except.map, FileFault.isSystem])
      | file content =>
          refine .inr ⟨⟨.alreadyExists, path.toString⟩, ?_, by simp⟩
          simp [ensureDirectory, makeDirectory, isDirectory, stat?, hlocate, Except.map,
            FileFault.isSystem]
  unfold makeDirectories
  rcases hensured with hmade | ⟨e, hfailed, hfault⟩
  · cases path.names.length <;> simp [makeDirectoriesFrom, hmade]
  · cases path.names.length <;> simp [makeDirectoriesFrom, hfailed, hfault]

end FileTree

end BroadcastIntake
