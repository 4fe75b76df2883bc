import BroadcastIntake.FileTree
import BroadcastIntake.Proofs.Members

/-!
# Looking things up in a file tree

A path is followed through directories only, so where it leads depends on the directories of a tree
and not on its files.  This file separates the two: `place?` is the location that a path denotes,
and what stands there is `get?` of that location.  Every file operation is then described by the
place of its path and the entry found there.  A directory that is made with those above it is made
last, whatever comes before (`makeDirectoriesFrom_cases`).

No tree is assumed to be well formed: files may stand below files, and entries may be doubled.
-/

namespace BroadcastIntake.FileTree

/-! ## Entries -/

@[simp] theorem get?_nil (tree : FileTree) : tree.get? [] = some .directory := by
  simp [get?]

theorem get?_of_ne_nil (tree : FileTree) {l : Location} (hl : l ≠ []) :
    tree.get? l = tree.entries.lookup l := by
  simp [get?, hl]

/-- The root is a directory, so whatever is not one stands below the root. -/
theorem ne_nil_of_not_directory {tree : FileTree} {l : Location}
    (hl : tree.get? l ≠ some .directory) : l ≠ [] := by
  rintro rfl
  exact hl (get?_nil tree)

theorem lookup_put (l k : Location) (e : Entry) (entries : List (Location × Entry)) :
    (put l e entries).lookup k = if k = l then some e else entries.lookup k := by
  induction entries with
  | nil => simp only [put, lookup_cons_ite]
  | cons head rest ih =>
      obtain ⟨l', e'⟩ := head
      by_cases hl : l' = l
      · subst hl
        simp only [put, if_true, lookup_cons_ite]
        split <;> rfl
      · simp only [put, if_neg hl, lookup_cons_ite, ih]
        by_cases hk : k = l'
        · have hkl : k ≠ l := fun h => hl (hk.symm.trans h)
          simp only [if_pos hk, if_neg hkl]
        · simp only [if_neg hk]

theorem lookup_filter_ne (l k : Location) (entries : List (Location × Entry)) :
    (entries.filter fun e => e.1 ≠ l).lookup k = if k = l then none else entries.lookup k := by
  induction entries with
  | nil => simp
  | cons head rest ih =>
      obtain ⟨l', e'⟩ := head
      by_cases hl : l' = l
      · subst hl
        rw [List.filter_cons_of_neg (by simp), ih, lookup_cons_ite]
        split <;> rfl
      · rw [List.filter_cons_of_pos (by simpa using hl), lookup_cons_ite, lookup_cons_ite, ih]
        by_cases hk : k = l'
        · have hkl : k ≠ l := fun h => hl (hk.symm.trans h)
          simp only [if_pos hk, if_neg hkl]
        · simp only [if_neg hk]

theorem get?_set (tree : FileTree) {l : Location} (hl : l ≠ []) (e : Entry) (k : Location) :
    (tree.set l e).get? k = if k = l then some e else tree.get? k := by
  by_cases hk : k = []
  · subst hk
    simp [hl.symm]
  · simp only [get?_of_ne_nil _ hk, set, lookup_put]

theorem get?_erase (tree : FileTree) {l : Location} (hl : l ≠ []) (k : Location) :
    (tree.erase l).get? k = if k = l then none else tree.get? k := by
  by_cases hk : k = []
  · subst hk
    simp [hl.symm]
  · simp only [get?_of_ne_nil _ hk, erase, lookup_filter_ne]

/-! ## One name at a time -/

section Follow

variable {tree : FileTree} {here : Location} {name : String}

theorem follow_up (rest : List String) :
    tree.follow here (".." :: rest) = tree.follow here.dropLast rest := by
  rw [follow, if_pos rfl]

theorem follow_long (hdown : name ≠ "..") (hlong : nameLimit < name.utf8ByteSize)
    (rest : List String) : tree.follow here (name :: rest) = .error .nameTooLong := by
  rw [follow, if_neg hdown, if_pos hlong]

theorem follow_last (hdown : name ≠ "..") (hshort : ¬ nameLimit < name.utf8ByteSize) :
    tree.follow here [name] = .ok (here ++ [name], tree.get? (here ++ [name])) := by
  rw [follow, if_neg hdown, if_neg hshort]

theorem follow_of_directory (hdown : name ≠ "..") (hshort : ¬ nameLimit < name.utf8ByteSize)
    (hnext : tree.get? (here ++ [name]) = some .directory) (rest : List String) :
    tree.follow here (name :: rest) = tree.follow (here ++ [name]) rest := by
  cases rest with
  | nil => rw [follow_last hdown hshort, follow]
  | cons second rest =>
      rw [follow, if_neg hdown, if_neg hshort]
      simp only [hnext]

theorem follow_of_none (hdown : name ≠ "..") (hshort : ¬ nameLimit < name.utf8ByteSize)
    (hnext : tree.get? (here ++ [name]) = none) {rest : List String} (hrest : rest ≠ []) :
    tree.follow here (name :: rest) = .error .missing := by
  obtain ⟨second, rest, rfl⟩ := List.exists_cons_of_ne_nil hrest
  rw [follow, if_neg hdown, if_neg hshort]
  simp only [hnext]

theorem follow_of_file (hdown : name ≠ "..") (hshort : ¬ nameLimit < name.utf8ByteSize)
    {content : ByteArray} (hnext : tree.get? (here ++ [name]) = some (.file content))
    {rest : List String} (hrest : rest ≠ []) :
    tree.follow here (name :: rest) = .error .notDirectory := by
  obtain ⟨second, rest, rfl⟩ := List.exists_cons_of_ne_nil hrest
  rw [follow, if_neg hdown, if_neg hshort]
  simp only [hnext]

/-- The first name leads on from another directory, ends the way, or stops it for one of three
faults. -/
theorem follow_cons_cases (tree : FileTree) (here : Location) (name : String)
    (rest : List String) :
    (∃ next, tree.follow here (name :: rest) = tree.follow next rest) ∨
      (∃ l, tree.follow here (name :: rest) = .ok (l, tree.get? l)) ∨
      ∃ fault ∈ [.missing, .notDirectory, .nameTooLong],
        tree.follow here (name :: rest) = .error fault := by
  by_cases hup : name = ".."
  · exact .inl ⟨_, hup ▸ follow_up rest⟩
  by_cases hlong : nameLimit < name.utf8ByteSize
  · exact .inr (.inr ⟨_, by simp, follow_long hup hlong rest⟩)
  by_cases hrest : rest = []
  · exact .inr (.inl ⟨_, hrest ▸ follow_last hup hlong⟩)
  rcases hnext : tree.get? (here ++ [name]) with _ | (_ | content)
  · exact .inr (.inr ⟨_, by simp, follow_of_none hup hlong hnext hrest⟩)
  · exact .inl ⟨_, follow_of_directory hup hlong hnext rest⟩
  · exact .inr (.inr ⟨_, by simp, follow_of_file hup hlong hnext hrest⟩)

end Follow

/-! ## Places of paths -/

/-- The location that a path denotes, whether or not something stands there. -/
def place? (tree : FileTree) (path : Path) : Option Location :=
  match tree.locate path with
  | .ok (location, _) => some location
  | .error _ => none

/-- Following names finds what stands at the location it leads to. -/
theorem follow_found (tree : FileTree) (names : List String) :
    ∀ {here l : Location} {found : Option Entry},
      tree.follow here names = .ok (l, found) → found = tree.get? l := by
  induction names with
  | nil =>
      intro here l found hfollow
      simp only [follow, Except.ok.injEq, Prod.mk.injEq] at hfollow
      obtain ⟨rfl, rfl⟩ := hfollow
      rfl
  | cons name rest ih =>
      intro here l found hfollow
      rcases follow_cons_cases tree here name rest with ⟨next, hon⟩ | ⟨l', hend⟩ | ⟨fault, -, hstop⟩
      · exact ih (hon ▸ hfollow)
      · rw [hend, Except.ok.injEq, Prod.mk.injEq] at hfollow
        obtain ⟨rfl, rfl⟩ := hfollow
        rfl
      · rw [hstop] at hfollow
        cases hfollow

/-- What is found is found by following the names, from a path that is neither too long nor holds a
null character. -/
theorem follow_of_locate {tree : FileTree} {path : Path} {found : Location × Option Entry}
    (hlocate : tree.locate path = .ok found) :
    path.hasNull = false ∧ ¬ pathLimit < path.toString.utf8ByteSize ∧
      tree.follow (if path.isAbsolute then [] else tree.workingDirectory) path.names =
        .ok found := by
  unfold locate at hlocate
  split at hlocate
  · cases hlocate
  · rename_i hnull
    split at hlocate
    · cases hlocate
    · rename_i hshort
      exact ⟨Bool.eq_false_iff.2 hnull, hshort, hlocate⟩

theorem locate_found {tree : FileTree} {path : Path} {l : Location} {found : Option Entry}
    (hlocate : tree.locate path = .ok (l, found)) : found = tree.get? l :=
  follow_found tree _ (follow_of_locate hlocate).2.2

theorem locate_eq_ok_iff {tree : FileTree} {path : Path} {l : Location} {found : Option Entry} :
    tree.locate path = .ok (l, found) ↔ tree.place? path = some l ∧ tree.get? l = found := by
  constructor
  · intro hlocate
    exact ⟨by simp [place?, hlocate], (locate_found hlocate).symm⟩
  · rintro ⟨hplace, rfl⟩
    unfold place? at hplace
    split at hplace
    · rename_i l' found' hlocate
      rw [← Option.some.inj hplace, hlocate, ← locate_found hlocate]
    · cases hplace

/-- A path with a place is found there with whatever stands there. -/
theorem locate_of_place {tree : FileTree} {path : Path} {l : Location}
    (hplace : tree.place? path = some l) : tree.locate path = .ok (l, tree.get? l) :=
  locate_eq_ok_iff.2 ⟨hplace, rfl⟩

theorem locate_of_no_place {tree : FileTree} {path : Path} (hplace : tree.place? path = none) :
    ∃ fault, tree.locate path = .error fault := by
  unfold place? at hplace
  split at hplace
  · cases hplace
  · exact ⟨_, by assumption⟩

/-- Following names fails for one of three faults. -/
theorem follow_eq_error (tree : FileTree) (names : List String) :
    ∀ {here : Location} {fault : FileFault}, tree.follow here names = .error fault →
      fault ∈ [.missing, .notDirectory, .nameTooLong] := by
  induction names with
  | nil =>
      intro here fault hfollow
      cases hfollow
  | cons name rest ih =>
      intro here fault hfollow
      rcases follow_cons_cases tree here name rest with
        ⟨next, hon⟩ | ⟨l, hend⟩ | ⟨fault', hfault, hstop⟩
      · exact ih (hon ▸ hfollow)
      · rw [hend] at hfollow
        cases hfollow
      · rw [hstop, Except.error.injEq] at hfollow
        exact hfollow ▸ hfault

theorem locate_eq_error {tree : FileTree} {path : Path} {fault : FileFault}
    (hlocate : tree.locate path = .error fault) :
    path.hasNull = true ∧ fault = .nullCharacter ∨
      path.hasNull = false ∧ fault ∈ [.missing, .notDirectory, .nameTooLong] := by
  unfold locate at hlocate
  split at hlocate
  · rename_i hnull
    exact .inl ⟨hnull, (Except.error.inj hlocate).symm⟩
  · rename_i hnull
    refine .inr ⟨Bool.eq_false_iff.2 hnull, ?_⟩
    split at hlocate
    · simp [← Except.error.inj hlocate]
    · exact follow_eq_error tree _ hlocate

/-- A path that denotes a place has no null character. -/
theorem hasNull_of_place? {tree : FileTree} {path : Path} {place : Location}
    (hplace : tree.place? path = some place) : path.hasNull = false :=
  (follow_of_locate (locate_of_place hplace)).1

/-! ## File operations by place -/

theorem read_eq_ok_iff {tree : FileTree} {path : Path} {content : ByteArray} :
    tree.read path = .ok content ↔
      ∃ l, tree.place? path = some l ∧ tree.get? l = some (.file content) := by
  constructor
  · intro hread
    unfold read at hread
    split at hread <;> try cases hread
    exact ⟨_, locate_eq_ok_iff.1 (by assumption)⟩
  · rintro ⟨l, hplace, hfile⟩
    simp [read, locate_of_place hplace, hfile]

theorem write_eq_ok_iff {tree written : FileTree} {path : Path} {content : ByteArray} :
    tree.write path content = .ok written ↔
      ∃ l, tree.place? path = some l ∧ tree.get? l ≠ some .directory ∧
        written = tree.set l (.file content) := by
  constructor
  · intro hwrite
    unfold write at hwrite
    split at hwrite
    · cases hwrite
    · rename_i l found hdirectory hlocate
      obtain ⟨hplace, rfl⟩ := locate_eq_ok_iff.1 hlocate
      exact ⟨l, hplace, hdirectory, (Except.ok.inj hwrite).symm⟩
    · cases hwrite
  · rintro ⟨l, hplace, hdirectory, rfl⟩
    rcases hfound : tree.get? l with _ | (_ | _)
    · simp [write, locate_of_place hplace, hfound]
    · exact absurd hfound hdirectory
    · simp [write, locate_of_place hplace, hfound]

theorem createNew_eq_ok_iff {tree made : FileTree} {path : Path} :
    tree.createNew path = .ok made ↔
      ∃ l, tree.place? path = some l ∧ tree.get? l = none ∧
        made = tree.set l (.file ByteArray.empty) := by
  constructor
  · intro hmade
    unfold createNew at hmade
    split at hmade
    · cases hmade
    · rename_i l hlocate
      obtain ⟨hplace, hfree⟩ := locate_eq_ok_iff.1 hlocate
      exact ⟨l, hplace, hfree, (Except.ok.inj hmade).symm⟩
    · cases hmade
  · rintro ⟨l, hplace, hfree, rfl⟩
    simp [createNew, locate_of_place hplace, hfree]

theorem createNew_eq_error {tree : FileTree} {path : Path} {e : FileError}
    (hmade : tree.createNew path = .error e) :
    (∃ l entry, tree.place? path = some l ∧ tree.get? l = some entry) ∧ e.fault = .alreadyExists ∨
      tree.locate path = .error e.fault := by
  unfold createNew at hmade
  split at hmade
  · rename_i l entry hlocate
    rw [← Except.error.inj hmade]
    exact .inl ⟨⟨l, entry, locate_eq_ok_iff.1 hlocate⟩, rfl⟩
  · cases hmade
  · rename_i hlocate
    rw [← Except.error.inj hmade]
    exact .inr hlocate

theorem isFile_eq_true_iff {tree : FileTree} {path : Path} :
    tree.isFile path = .ok true ↔ ∃ content, tree.read path = .ok content := by
  rw [show (∃ content, tree.read path = .ok content) ↔
    ∃ l content, tree.place? path = some l ∧ tree.get? l = some (.file content) by
      simp only [read_eq_ok_iff]
      exact exists_comm]
  rcases hplace : tree.place? path with _ | l
  · obtain ⟨fault, hlocate⟩ := locate_of_no_place hplace
    cases fault <;> simp [isFile, stat?, hlocate, Except.map]
  · rcases hfound : tree.get? l with _ | (_ | content) <;>
      simp [isFile, stat?, locate_of_place hplace, hfound, Except.map]

/-! ## Making directories -/

section Directories

variable {tree made : FileTree} {path : Path} {e : FileError}

theorem makeDirectory_eq_ok (hmade : tree.makeDirectory path = .ok made) :
    ∃ l, tree.place? path = some l ∧ tree.get? l = none ∧ made = tree.set l .directory := by
  unfold makeDirectory at hmade
  split at hmade
  · cases hmade
  · rename_i l hlocate
    obtain ⟨hplace, hfree⟩ := locate_eq_ok_iff.1 hlocate
    exact ⟨l, hplace, hfree, (Except.ok.inj hmade).symm⟩
  · cases hmade

theorem makeDirectory_eq_error (hmade : tree.makeDirectory path = .error e) :
    e.fault = .alreadyExists ∨ tree.locate path = .error e.fault := by
  unfold makeDirectory at hmade
  split at hmade
  · rw [← Except.error.inj hmade]
    exact .inl rfl
  · cases hmade
  · rename_i hlocate
    rw [← Except.error.inj hmade]
    exact .inr hlocate

theorem ensureDirectory_eq_ok (hmade : tree.ensureDirectory path = .ok made) :
    tree.makeDirectory path = .ok made ∨ made = tree ∧ tree.isDirectory path = .ok true := by
  unfold ensureDirectory at hmade
  split at hmade
  · rename_i hfirst
    rw [← Except.ok.inj hmade]
    exact .inl hfirst
  · split at hmade
    · split at hmade
      · rename_i hthere
        exact .inr ⟨(Except.ok.inj hmade).symm, hthere⟩
      · cases hmade
    · cases hmade

theorem ensureDirectory_eq_error (hmade : tree.ensureDirectory path = .error e) :
    tree.makeDirectory path = .error e := by
  unfold ensureDirectory at hmade
  split at hmade
  · cases hmade
  · rename_i hfirst
    split at hmade
    · split at hmade
      · cases hmade
      · rw [← Except.error.inj hmade, hfirst]
    · rw [← Except.error.inj hmade, hfirst]

/-- What comes last when a directory is made with those above it.  The directory itself is made or
not, in the tree as it was or with those above it made first; or one of those could not be made. -/
theorem makeDirectoriesFrom_cases {n : Nat} {outcome : Option FileError}
    (hmade : tree.makeDirectoriesFrom n path = (made, outcome)) :
    (∃ above, (above = tree ∨
          ∃ m, n = m + 1 ∧ tree.makeDirectoriesFrom m path.parent = (above, none)) ∧
        (above.ensureDirectory path = .ok made ∧ outcome = none ∨
          ∃ e, above.ensureDirectory path = .error e ∧ made = above ∧ outcome = some e)) ∨
      ∃ m e, n = m + 1 ∧ tree.makeDirectoriesFrom m path.parent = (made, some e) ∧
        outcome = some e := by
  cases n with
  | zero =>
      unfold makeDirectoriesFrom at hmade
      refine .inl ⟨tree, .inl rfl, ?_⟩
      split at hmade <;> rename_i hensured <;> obtain ⟨rfl, rfl⟩ := Prod.mk.inj hmade
      · exact .inl ⟨hensured, rfl⟩
      · exact .inr ⟨_, hensured, rfl, rfl⟩
  | succ m =>
      unfold makeDirectoriesFrom at hmade
      split at hmade
      · rename_i hensured
        obtain ⟨rfl, rfl⟩ := Prod.mk.inj hmade
        exact .inl ⟨tree, .inl rfl, .inl ⟨hensured, rfl⟩⟩
      · rename_i hensured
        split at hmade
        · split at hmade
          · rename_i habove
            obtain ⟨rfl, rfl⟩ := Prod.mk.inj hmade
            exact .inr ⟨m, _, rfl, habove, rfl⟩
          · -- those above it are made, so the directory itself is tried once more
            rename_i above habove
            refine .inl ⟨above, .inr ⟨m, rfl, habove⟩, ?_⟩
            split at hmade <;> rename_i hlast <;> obtain ⟨rfl, rfl⟩ := Prod.mk.inj hmade
            · exact .inl ⟨hlast, rfl⟩
            · exact .inr ⟨_, hlast, rfl, rfl⟩
        · obtain ⟨rfl, rfl⟩ := Prod.mk.inj hmade
          exact .inl ⟨tree, .inl rfl, .inr ⟨_, hensured, rfl, rfl⟩⟩

end Directories

end BroadcastIntake.FileTree
