import BroadcastIntake.Proofs.FileTree.Missing

/-!
# The directory above a path

A path whose parent leads to a directory denotes a place in it as soon as the file system takes the
path at all: no null character, a text and a last name that are not too long
(`LeadsToDirectory.exists_place?_iff`).  In a closed tree, where everything stands in a directory,
whatever denotes a place has such a parent (`IsClosed.leadsToDirectory_parent`).

The directories that are made for a path all stand on its way (`makeDirectories_onWay`).  So nothing
new stands beside them: for a path that never goes up, what was free before they were made is free
afterwards (`pathExists_iff_of_makeDirectories`).
-/

namespace BroadcastIntake

namespace Path

/-- The file system takes the path, whatever the tree is. -/
structure IsAccepted (path : Path) : Prop where
  noNull : path.hasNull = false
  short : path.toString.utf8ByteSize ≤ FileTree.pathLimit
  shortName : path.name.utf8ByteSize ≤ FileTree.nameLimit

instance (path : Path) : Decidable path.IsAccepted :=
  decidable_of_iff (path.hasNull = false ∧ path.toString.utf8ByteSize ≤ FileTree.pathLimit ∧
      path.name.utf8ByteSize ≤ FileTree.nameLimit)
    ⟨fun ⟨h, h', h''⟩ => ⟨h, h', h''⟩, fun ⟨h, h', h''⟩ => ⟨h, h', h''⟩⟩

/-- The first path is the second one or one of those above it. -/
structure IsOnWayTo (p path : Path) : Prop where
  slashes : p.slashes = path.slashes
  names : p.names <+: path.names

theorem IsOnWayTo.refl (path : Path) : path.IsOnWayTo path :=
  ⟨rfl, List.prefix_rfl⟩

theorem IsOnWayTo.of_parent {p path : Path} (hway : p.IsOnWayTo path.parent) :
    p.IsOnWayTo path :=
  ⟨hway.slashes, hway.names.trans (List.dropLast_prefix path.names)⟩

theorem names_ne_nil {path : Path} (hname : path.name ≠ "") : path.names ≠ [] := by
  intro hnames
  rw [name, hnames] at hname
  exact hname rfl

theorem names_eq {path : Path} (hname : path.name ≠ "") :
    path.names = path.parent.names ++ [path.name] := by
  have hnames := names_ne_nil hname
  rw [name, List.getLast?_eq_some_getLast hnames, Option.getD_some]
  exact (List.dropLast_concat_getLast hnames).symm

/-- The text of a path with a name is at least as long as that of its parent. -/
theorem utf8ByteSize_parent_le_of_name {path : Path} (hname : path.name ≠ "") :
    path.parent.toString.utf8ByteSize ≤ path.toString.utf8ByteSize := by
  by_cases habsolute : path.isAbsolute = true
  · exact utf8ByteSize_parent_le habsolute
  have hslashes : path.slashes = 0 := by simpa [isAbsolute] using habsolute
  have htext : path.toString = String.intercalate "/" path.names := by
    simp [toString, hslashes, names_ne_nil hname]
  rw [htext]
  by_cases hparent : path.parent.names = []
  · -- the parent is written as a dot, and the name has a character at least
    have hdot : path.parent.toString = "." := by
      have hnil : path.names.dropLast = [] := hparent
      simp [toString, Path.parent, hslashes, hnil]
    have hpos : path.name.utf8ByteSize ≠ 0 := by simpa using hname
    have hone : ".".utf8ByteSize = 1 := by decide
    rw [names_eq hname, hparent, List.nil_append, String.intercalate_singleton, hdot, hone]
    omega
  · have hparentText : path.parent.toString = String.intercalate "/" path.names.dropLast := by
      have hne : path.names.dropLast ≠ [] := hparent
      simp [toString, Path.parent, hslashes, hne]
    rw [hparentText]
    exact utf8ByteSize_intercalate_le path.names

end Path

namespace FileTree

variable {tree above : FileTree} {path : Path} {here l : Location}

/-! ## One name more -/

/-- Names that lead to a directory may be followed first. -/
theorem follow_append (names more : List String) :
    ∀ {here : Location}, tree.follow here names = .ok (l, some .directory) →
      tree.follow here (names ++ more) = tree.follow l more := by
  induction names with
  | nil =>
      intro here hfollow
      rw [follow, Except.ok.injEq, Prod.mk.injEq] at hfollow
      rw [List.nil_append, hfollow.1]
  | cons name rest ih =>
      intro here hfollow
      by_cases hup : name = ".."
      · rw [follow, if_pos hup] at hfollow
        rw [List.cons_append, follow, if_pos hup]
        exact ih hfollow
      by_cases hlong : nameLimit < name.utf8ByteSize
      · rw [follow_long hup hlong] at hfollow
        cases hfollow
      have hnext : tree.get? (here ++ [name]) = some .directory := by
        by_cases hrest : rest = []
        · rw [hrest, follow_last hup hlong, Except.ok.injEq, Prod.mk.injEq] at hfollow
          exact hfollow.2
        · rcases hnext : tree.get? (here ++ [name]) with _ | (_ | content)
          · rw [follow_of_none hup hlong hnext hrest] at hfollow
            cases hfollow
          · rfl
          · rw [follow_of_file hup hlong hnext hrest] at hfollow
            cases hfollow
      rw [follow_of_directory hup hlong hnext] at hfollow
      rw [List.cons_append, follow_of_directory hup hlong hnext]
      exact ih hfollow

/-- Where relative and absolute paths start. -/
def start (tree : FileTree) (path : Path) : Location :=
  if path.isAbsolute then [] else tree.workingDirectory

theorem locate_eq (tree : FileTree) (path : Path) :
    tree.locate path =
      if path.hasNull then .error .nullCharacter
      else if pathLimit < path.toString.utf8ByteSize then .error .nameTooLong
      else tree.follow (tree.start path) path.names :=
  rfl

theorem follow_of_place? (hplace : tree.place? path = some l) :
    path.hasNull = false ∧ path.toString.utf8ByteSize ≤ pathLimit ∧
      tree.follow (tree.start path) path.names = .ok (l, tree.get? l) := by
  obtain ⟨hnull, hshort, hfollow⟩ := follow_of_locate (locate_of_place hplace)
  exact ⟨hnull, Nat.not_lt.1 hshort, hfollow⟩

/-- Under a directory, the last name decides. -/
theorem locate_of_parent (hplace : tree.place? path.parent = some l)
    (hdirectory : tree.get? l = some .directory) (hname : path.name ≠ "") :
    tree.locate path =
      if path.hasNull then .error .nullCharacter
      else if pathLimit < path.toString.utf8ByteSize then .error .nameTooLong
      else tree.follow l [path.name] := by
  obtain ⟨-, -, hfollow⟩ := follow_of_place? hplace
  rw [hdirectory] at hfollow
  have hsame : tree.follow (tree.start path) path.names = tree.follow l [path.name] := by
    rw [Path.names_eq hname]
    exact follow_append _ _ hfollow
  rw [locate_eq, hsame]

theorem place?_of_parent (hplace : tree.place? path.parent = some l)
    (hdirectory : tree.get? l = some .directory) (hname : path.name ≠ "")
    (haccepted : path.IsAccepted) :
    tree.place? path = some (if path.name = ".." then l.dropLast else l ++ [path.name]) := by
  have hlocate := locate_of_parent hplace hdirectory hname
  rw [if_neg (by simp [haccepted.noNull]), if_neg (Nat.not_lt.2 haccepted.short)] at hlocate
  rw [place?, hlocate]
  by_cases hup : path.name = ".."
  · rw [follow, if_pos hup, if_pos hup, follow]
  · rw [follow_last hup (Nat.not_lt.2 haccepted.shortName), if_neg hup]

/-- A path under a directory denotes a place exactly when the file system takes it. -/
theorem LeadsToDirectory.exists_place?_iff (hleads : tree.LeadsToDirectory path.parent)
    (hname : path.name ≠ "") : (∃ l, tree.place? path = some l) ↔ path.IsAccepted := by
  obtain ⟨above, hplace, hdirectory⟩ := hleads
  constructor
  · rintro ⟨l, hl⟩
    obtain ⟨hnull, hshort, -⟩ := follow_of_place? hl
    refine ⟨hnull, hshort, Nat.not_lt.1 fun hlong => ?_⟩
    have hdown : path.name ≠ ".." := by
      intro hup
      rw [hup] at hlong
      exact absurd hlong (by decide)
    have hlocate := locate_of_parent hplace hdirectory hname
    rw [if_neg (by simp [hnull]), if_neg (Nat.not_lt.2 hshort), follow_long hdown hlong,
      locate_of_place hl] at hlocate
    cases hlocate
  · intro haccepted
    exact ⟨_, place?_of_parent hplace hdirectory hname haccepted⟩

/-! ## Closed trees -/

/-- Everything stands in a directory, and so does whoever looks at the tree. -/
structure IsClosed (tree : FileTree) : Prop where
  workingDirectory : tree.get? tree.workingDirectory = some .directory
  above : ∀ l, tree.get? l ≠ none → tree.get? l.dropLast = some .directory

theorem lookup_map_const (l : Location) (entry : Entry) (locations : List Location) :
    (locations.map fun k => (k, entry)).lookup l = if l ∈ locations then some entry else none := by
  induction locations with
  | nil => rfl
  | cons k rest ih =>
      rw [List.map_cons, List.lookup_cons, ih]
      by_cases hl : l = k
      · simp [hl]
      · simp [hl, beq_eq_false_iff_ne.2 hl]

theorem get?_empty (workingDirectory l : Location) :
    (empty workingDirectory).get? l = if l <+: workingDirectory then some .directory else none := by
  by_cases hl : l = []
  · rw [hl, get?_nil, if_pos List.nil_prefix]
  have hmem : l ∈ (List.range workingDirectory.length).map
      (fun n => workingDirectory.take (n + 1)) ↔ l <+: workingDirectory := by
    simp only [List.mem_map, List.mem_range]
    constructor
    · rintro ⟨n, -, rfl⟩
      exact List.take_prefix _ _
    · intro hway
      have hpos := List.length_pos_iff.2 hl
      have hle := hway.length_le
      refine ⟨l.length - 1, by omega, ?_⟩
      rw [Nat.sub_add_cancel hpos]
      exact (List.prefix_iff_eq_take.1 hway).symm
  have hlookup := lookup_map_const l .directory
    ((List.range workingDirectory.length).map fun n => workingDirectory.take (n + 1))
  rw [List.map_map] at hlookup
  rw [get?_of_ne_nil _ hl]
  simp only [hmem] at hlookup
  exact hlookup

/-- The tree that holds nothing but its working directory is closed. -/
theorem isClosed_empty (workingDirectory : Location) : (empty workingDirectory).IsClosed := by
  constructor
  · rw [get?_empty]
    exact if_pos List.prefix_rfl
  · intro l hl
    rw [get?_empty] at hl ⊢
    have hway : l <+: workingDirectory := by
      by_cases hway : l <+: workingDirectory
      · exact hway
      · rw [if_neg hway] at hl
        exact absurd rfl hl
    exact if_pos ((List.dropLast_prefix l).trans hway)

namespace IsClosed

/-- A tree with something more in one of its directories is closed as well. -/
theorem set (hclosed : tree.IsClosed) (habove : tree.get? l.dropLast = some .directory)
    (hfree : tree.get? l ≠ some .directory) (entry : Entry) : (tree.set l entry).IsClosed := by
  have hkeeps := (changesOnlyAt_set hfree entry).keeps
  refine ⟨hkeeps.directory _ hclosed.workingDirectory, fun k hk => hkeeps.directory _ ?_⟩
  rw [get?_set tree (ne_nil_of_not_directory hfree)] at hk
  by_cases hl : k = l
  · rw [hl]
    exact habove
  · rw [if_neg hl] at hk
    exact hclosed.above k hk

theorem start (hclosed : tree.IsClosed) (path : Path) :
    tree.get? (tree.start path) = some .directory := by
  unfold FileTree.start
  split
  · exact get?_nil tree
  · exact hclosed.workingDirectory

theorem directory_of_append (hclosed : tree.IsClosed) {names : List String} (hnames : names ≠ [])
    (hthere : tree.get? (l ++ names) ≠ none) : tree.get? l = some .directory := by
  induction names generalizing l with
  | nil => exact absurd rfl hnames
  | cons name rest ih =>
      have hnext : tree.get? (l ++ [name]) ≠ none := by
        by_cases hrest : rest = []
        · rwa [hrest] at hthere
        · rw [List.append_cons] at hthere
          simp [ih hrest hthere]
      have habove := hclosed.above _ hnext
      rwa [List.dropLast_concat] at habove

/-- Names that lead somewhere lead to a directory without the last of them. -/
theorem follow_init (hclosed : tree.IsClosed) {found : Option Entry} (last : String)
    (names : List String) :
    ∀ {here : Location}, tree.get? here = some .directory →
      tree.follow here (names ++ [last]) = .ok (l, found) →
      ∃ l', tree.follow here names = .ok (l', some .directory) := by
  induction names with
  | nil =>
      intro here hhere _
      exact ⟨here, by rw [follow, hhere]⟩
  | cons name rest ih =>
      intro here hhere hfollow
      rw [List.cons_append] at hfollow
      have hmore : rest ++ [last] ≠ [] := by simp
      by_cases hup : name = ".."
      · rw [follow, if_pos hup] at hfollow ⊢
        exact ih (hclosed.above here (by simp [hhere])) hfollow
      by_cases hlong : nameLimit < name.utf8ByteSize
      · rw [follow_long hup hlong] at hfollow
        cases hfollow
      rcases hnext : tree.get? (here ++ [name]) with _ | (_ | content)
      · rw [follow_of_none hup hlong hnext hmore] at hfollow
        cases hfollow
      · rw [follow_of_directory hup hlong hnext] at hfollow ⊢
        exact ih hnext hfollow
      · rw [follow_of_file hup hlong hnext hmore] at hfollow
        cases hfollow

/-- Whatever denotes a place has a directory above it. -/
theorem leadsToDirectory_parent (hclosed : tree.IsClosed) (hname : path.name ≠ "")
    (hplace : tree.place? path = some l) : tree.LeadsToDirectory path.parent := by
  obtain ⟨hnull, hshort, hfollow⟩ := follow_of_place? hplace
  rw [Path.names_eq hname] at hfollow
  obtain ⟨l', hfollow'⟩ := hclosed.follow_init _ _ (hclosed.start path) hfollow
  have hlocate : tree.locate path.parent = .ok (l', some .directory) := by
    have hshort' := Path.utf8ByteSize_parent_le_of_name hname
    rw [locate_eq, hasNull_parent hnull, if_neg Bool.false_ne_true, if_neg (by omega)]
    exact hfollow'
  exact ⟨l', locate_eq_ok_iff.1 hlocate⟩

end IsClosed

/-! ## What is made -/

theorem ensureDirectory_onWay (hmade : tree.ensureDirectory path = .ok above) (l : Location) :
    above.get? l = tree.get? l ∨ tree.get? l = none ∧ above.get? l = some .directory ∧
      above.place? path = some l := by
  rcases ensureDirectory_eq_ok hmade with hfirst | ⟨rfl, -⟩
  · have hkeeps := (makeDirectory_changesOnlyAt hfirst).keeps
    obtain ⟨place, hplace, hfree, rfl⟩ := makeDirectory_eq_ok hfirst
    have hnot : tree.get? place ≠ some .directory := by simp [hfree]
    rw [get?_set tree (ne_nil_of_not_directory hnot)]
    by_cases hl : l = place
    · rw [if_pos hl, hl]
      exact .inr ⟨hfree, rfl, hkeeps.place? hplace⟩
    · exact .inl (if_neg hl)
  · exact .inl rfl

/-- The directories that are made for a path stand on its way. -/
theorem makeDirectoriesFrom_onWay (n : Nat) :
    ∀ {path : Path} {above : FileTree} {outcome : Option FileError},
      tree.makeDirectoriesFrom n path = (above, outcome) → ∀ l,
        above.get? l = tree.get? l ∨ tree.get? l = none ∧ above.get? l = some .directory ∧
          ∃ p : Path, p.IsOnWayTo path ∧ above.place? p = some l := by
  induction n using Nat.strongRecOn with
  | ind n ih =>
      intro path above outcome hmade l
      rcases makeDirectoriesFrom_cases hmade with
        ⟨between, hfrom, hlast⟩ | ⟨m, e, rfl, hfailed, -⟩
      · have hbetween : between.get? l = tree.get? l ∨ tree.get? l = none ∧
            between.get? l = some .directory ∧
              ∃ p : Path, p.IsOnWayTo path ∧ between.place? p = some l := by
          rcases hfrom with rfl | ⟨m, rfl, hfrom⟩
          · exact .inl rfl
          · rcases ih m (Nat.lt_succ_self m) hfrom l with hsame | ⟨hfree, hdir, p, hway, hplace⟩
            · exact .inl hsame
            · exact .inr ⟨hfree, hdir, p, hway.of_parent, hplace⟩
        rcases hlast with ⟨hensured, -⟩ | ⟨e, -, rfl, -⟩
        · -- the directory itself is made last, if it is
          have hkeeps := (ensureDirectory_changesOnlyAt hensured).keeps
          rcases hbetween with hsame | ⟨hfree, hdir, p, hway, hplace⟩
          · rw [← hsame]
            rcases ensureDirectory_onWay hensured l with hsame' | ⟨hfree, hdir, hplace⟩
            · exact .inl hsame'
            · exact .inr ⟨hfree, hdir, path, .refl path, hplace⟩
          · exact .inr ⟨hfree, hkeeps.directory l hdir, p, hway, hkeeps.place? hplace⟩
        · exact hbetween
      · rcases ih m (Nat.lt_succ_self m) hfailed l with hsame | ⟨hfree, hdir, p, hway, hplace⟩
        · exact .inl hsame
        · exact .inr ⟨hfree, hdir, p, hway.of_parent, hplace⟩

theorem makeDirectories_onWay {outcome : Option FileError}
    (hmade : tree.makeDirectories path = (above, outcome)) (l : Location) :
    above.get? l = tree.get? l ∨ tree.get? l = none ∧ above.get? l = some .directory ∧
      ∃ p : Path, p.IsOnWayTo path ∧ above.place? p = some l :=
  makeDirectoriesFrom_onWay _ hmade l

/-! ## Paths that never go up -/

/-- Names that never go up lead to the place that they spell. -/
theorem follow_down (names : List String) :
    ∀ {here : Location} {found : Option Entry}, (∀ name ∈ names, name ≠ "..") →
      tree.follow here names = .ok (l, found) →
        l = here ++ names ∧ ∀ name ∈ names, ¬ nameLimit < name.utf8ByteSize := by
  induction names with
  | nil =>
      intro here found _ hfollow
      rw [follow, Except.ok.injEq, Prod.mk.injEq] at hfollow
      exact ⟨by rw [List.append_nil, hfollow.1], fun name hname => absurd hname List.not_mem_nil⟩
  | cons name rest ih =>
      intro here found hdown hfollow
      obtain ⟨hname, hrest⟩ := List.forall_mem_cons.1 hdown
      by_cases hlong : nameLimit < name.utf8ByteSize
      · rw [follow_long hname hlong] at hfollow
        cases hfollow
      by_cases hnil : rest = []
      · rw [hnil, follow_last hname hlong, Except.ok.injEq, Prod.mk.injEq] at hfollow
        rw [hnil]
        exact ⟨hfollow.1.symm, List.forall_mem_singleton.2 hlong⟩
      rcases hnext : tree.get? (here ++ [name]) with _ | (_ | content)
      · rw [follow_of_none hname hlong hnext hnil] at hfollow
        cases hfollow
      · rw [follow_of_directory hname hlong hnext] at hfollow
        obtain ⟨hplace, hshort⟩ := ih hrest hfollow
        rw [← List.append_cons] at hplace
        exact ⟨hplace, List.forall_mem_cons.2 ⟨hlong, hshort⟩⟩
      · rw [follow_of_file hname hlong hnext hnil] at hfollow
        cases hfollow

/-- In a closed tree, names that never go up lead to what stands at the place that they spell. -/
theorem IsClosed.follow_of_there (hclosed : tree.IsClosed) (names : List String) :
    ∀ {here : Location}, (∀ name ∈ names, name ≠ "..") →
      (∀ name ∈ names, ¬ nameLimit < name.utf8ByteSize) → tree.get? (here ++ names) ≠ none →
        tree.follow here names = .ok (here ++ names, tree.get? (here ++ names)) := by
  induction names with
  | nil =>
      intro here _ _ _
      rw [List.append_nil, follow]
  | cons name rest ih =>
      intro here hdown hshort hthere
      obtain ⟨hname, hrest⟩ := List.forall_mem_cons.1 hdown
      obtain ⟨hlong, hshortRest⟩ := List.forall_mem_cons.1 hshort
      by_cases hnil : rest = []
      · rw [hnil, follow_last hname hlong]
      · rw [List.append_cons] at hthere ⊢
        rw [follow_of_directory hname hlong (hclosed.directory_of_append hnil hthere)]
        exact ih hrest hshortRest hthere

theorem pathExists_eq_true_iff :
    tree.pathExists path = .ok true ↔ ∃ l, tree.place? path = some l ∧ tree.get? l ≠ none := by
  rcases hplace : tree.place? path with _ | l
  · obtain ⟨fault, hlocate⟩ := locate_of_no_place hplace
    cases fault <;> simp [pathExists, stat?, hlocate, Except.map]
  · have hlocate := locate_of_place hplace
    simp [pathExists, stat?, hlocate, Except.map, Option.isSome_iff_ne_none]

/-- What stands somewhere still does after directories have been made. -/
theorem ChangesOnlyAt.pathExists {before after : FileTree}
    (hchanges : ChangesOnlyAt [] before after) (hthere : before.pathExists path = .ok true) :
    after.pathExists path = .ok true := by
  obtain ⟨l, hplace, hentry⟩ := pathExists_eq_true_iff.1 hthere
  refine pathExists_eq_true_iff.2 ⟨l, hchanges.place? hplace, ?_⟩
  intro hnone
  exact hentry (hchanges.of_none List.not_mem_nil hnone)

theorem start_of_makeDirectories {outcome : Option FileError} {p : Path}
    (hmade : tree.makeDirectories p = (above, outcome)) (path : Path) :
    above.start path = tree.start path := by
  have hchanges := tree.makeDirectories_changesOnlyAt p
  rw [hmade] at hchanges
  rw [start, start, hchanges.keeps.workingDirectory]

/-- Making the directories above a path makes nothing at the place that the path spells, which is
longer than that of any directory on its way. -/
theorem get?_of_makeDirectories_parent {outcome : Option FileError}
    (hmade : tree.makeDirectories path.parent = (above, outcome)) (hname : path.name ≠ "")
    (hdown : ∀ name ∈ path.names, name ≠ "..") :
    above.get? (tree.start path ++ path.names) = tree.get? (tree.start path ++ path.names) := by
  rcases makeDirectories_onWay hmade (tree.start path ++ path.names) with
    hsame | ⟨-, -, p, hway, hplace⟩
  · exact hsame
  · exfalso
    obtain ⟨-, -, hfollow⟩ := follow_of_place? hplace
    have hon : p.names <+: path.names := hway.of_parent.names
    obtain ⟨hspelled, -⟩ := follow_down p.names (fun name h => hdown name (hon.subset h)) hfollow
    have hstart : above.start p = tree.start path := by
      rw [start_of_makeDirectories hmade, start, start, Path.isAbsolute, Path.isAbsolute,
        hway.of_parent.slashes]
    rw [hstart] at hspelled
    have hlength : p.names.length ≤ path.names.dropLast.length := hway.names.length_le
    have hpos := List.length_pos_iff.2 (Path.names_ne_nil hname)
    rw [← List.append_cancel_left hspelled, List.length_dropLast] at hlength
    omega

/-- Making the directories above a path that never goes up makes nothing at the path. -/
theorem pathExists_iff_of_makeDirectories (hclosed : tree.IsClosed)
    (hmade : tree.makeDirectories path.parent = (above, none)) (hname : path.name ≠ "")
    (hdown : ∀ name ∈ path.names, name ≠ "..") :
    above.pathExists path = .ok true ↔ tree.pathExists path = .ok true := by
  have hchanges := tree.makeDirectories_changesOnlyAt path.parent
  rw [hmade] at hchanges
  refine ⟨fun hthere => ?_, hchanges.pathExists⟩
  obtain ⟨l, hplace, hentry⟩ := pathExists_eq_true_iff.1 hthere
  obtain ⟨hnull, hshort, hfollow⟩ := follow_of_place? hplace
  obtain ⟨rfl, hnames⟩ := follow_down path.names hdown hfollow
  rw [start_of_makeDirectories hmade, get?_of_makeDirectories_parent hmade hname hdown] at hentry
  have hfollowTree := hclosed.follow_of_there path.names hdown hnames hentry
  have hlocate : tree.locate path = .ok (tree.start path ++ path.names,
      tree.get? (tree.start path ++ path.names)) := by
    rw [locate_eq, hnull, if_neg Bool.false_ne_true, if_neg (Nat.not_lt.2 hshort), hfollowTree]
  exact pathExists_eq_true_iff.2 ⟨_, (locate_eq_ok_iff.1 hlocate).1, hentry⟩

end FileTree

end BroadcastIntake
