import BroadcastIntake.Proofs.FileTree.Parents
import BroadcastIntake.Proofs.Number.Digits
import BroadcastIntake.Proofs.OutputFile.Candidate

/-!
# How conflicts are resolved

The candidates of a path are told apart by their names (`OutputFile.candidate_injective`), and so
they denote different places in one directory.  A claim passes over the candidates that are taken
(`OutputFile.claim_of_taken`) and makes a file at the first one that is not, if the file system
takes it (`OutputFile.claim_of_free`, `OutputFile.claim_of_refused`).

A reservation takes one candidate and leaves the others as they are
(`OutputFile.reserve_next`), so a row of reservations hands out one candidate after the other
(`OutputFile.reserveTimes_of_isNext`).  `OutputFile.Resolves` puts together what one reservation and
a row of them do.
-/

namespace BroadcastIntake

namespace FileTree

variable {tree : FileTree} {path : Path} {l : Location}

theorem createNew_of_pathExists (hthere : tree.pathExists path = .ok true) :
    tree.createNew path = .error ⟨.alreadyExists, path.toString⟩ := by
  obtain ⟨l, hplace, hentry⟩ := pathExists_eq_true_iff.1 hthere
  obtain ⟨entry, hfound⟩ := Option.ne_none_iff_exists'.1 hentry
  have hlocate := locate_of_place hplace
  rw [hfound] at hlocate
  rw [createNew, hlocate]

/-- A path that the file system does not take is refused in every directory. -/
theorem createNew_of_not_isAccepted (hleads : tree.LeadsToDirectory path.parent)
    (hname : path.name ≠ "") (hrefused : ¬ path.IsAccepted) :
    tree.createNew path =
      .error ⟨if path.hasNull then .nullCharacter else .nameTooLong, path.toString⟩ := by
  obtain ⟨l, hparent, hdirectory⟩ := hleads
  have hlocate := locate_of_parent hparent hdirectory hname
  by_cases hnull : path.hasNull = true
  · rw [if_pos hnull] at hlocate
    rw [createNew, hlocate, if_pos hnull]
  rw [if_neg hnull] at hlocate
  rw [if_neg hnull]
  by_cases hlong : pathLimit < path.toString.utf8ByteSize
  · rw [if_pos hlong] at hlocate
    rw [createNew, hlocate]
  · -- what is left is a name that is too long, which no name that goes up is
    have hlongName : nameLimit < path.name.utf8ByteSize :=
      Nat.not_le.1 fun hshort =>
        hrefused ⟨Bool.eq_false_iff.2 hnull, Nat.not_lt.1 hlong, hshort⟩
    have hdown : path.name ≠ ".." := by
      intro hup
      rw [hup] at hlongName
      exact absurd hlongName (by decide)
    rw [if_neg hlong, follow_long hdown hlongName] at hlocate
    rw [createNew, hlocate]

/-- Where a path is taken already, making the directories above it changes nothing. -/
theorem IsClosed.makeDirectories_parent (hclosed : tree.IsClosed) (hname : path.name ≠ "")
    (hthere : tree.pathExists path = .ok true) :
    tree.makeDirectories path.parent = (tree, none) := by
  obtain ⟨l, hplace, -⟩ := pathExists_eq_true_iff.1 hthere
  exact (hclosed.leadsToDirectory_parent hname hplace).makeDirectories

end FileTree

namespace OutputFile

open FileTree

variable {tree above : FileTree} {path : Path} {m n : Nat}

/-! ## Candidates -/

theorem name_candidate (hn : n ≠ 0) :
    (candidate path n).name = s!"{path.stem}_{n}{path.suffix}" := by
  rw [candidate, if_neg hn, Path.name_withName]

theorem toList_name_candidate (hn : n ≠ 0) :
    (candidate path n).name.toList =
      path.stem.toList ++ '_' :: (natDigits n ++ path.suffix.toList) := by
  rw [name_candidate hn]
  simp [natDigits, Nat.repr, ToString.toString]

/-- The candidates have different names. -/
theorem name_candidate_injective (path : Path) :
    ∀ {m n : Nat}, (candidate path m).name = (candidate path n).name → m = n := by
  have hzero : ∀ {n : Nat}, n ≠ 0 → (candidate path 0).name ≠ (candidate path n).name := by
    intro n hn hsame
    have hlength := congrArg (fun name => name.toList.length) hsame
    have hself : (candidate path 0).name = path.stem ++ path.suffix := path.stem_append_suffix.symm
    simp only [hself, toList_name_candidate hn, String.toList_append, List.length_append,
      List.length_cons] at hlength
    omega
  intro m n hsame
  by_cases hm : m = 0
  · by_cases hn : n = 0
    · rw [hm, hn]
    · rw [hm] at hsame
      exact absurd hsame (hzero hn)
  · by_cases hn : n = 0
    · rw [hn] at hsame
      exact absurd hsame.symm (hzero hm)
    · have hlists := congrArg String.toList hsame
      rw [toList_name_candidate hm, toList_name_candidate hn] at hlists
      have hdigits : natDigits m = natDigits n :=
        List.append_cancel_right (List.cons.inj (List.append_cancel_left hlists)).2
      rw [← Text.digitsValue_natDigits m, hdigits, Text.digitsValue_natDigits]

/-- The name of a sibling is longer by an underscore and a digit at least. -/
theorem utf8ByteSize_name_candidate (hn : n ≠ 0) :
    path.name.utf8ByteSize + 2 ≤ (candidate path n).name.utf8ByteSize := by
  have hsplit := congrArg String.utf8ByteSize path.stem_append_suffix
  have hunderscore : "_".utf8ByteSize = 1 := by decide
  have hdigits : (toString n).utf8ByteSize ≠ 0 := by
    rw [ne_eq, String.utf8ByteSize_eq_zero_iff]
    exact Nat.repr_ne_empty
  rw [name_candidate hn]
  simp only [String.utf8ByteSize_append, ToString.toString, hunderscore] at hsplit hdigits ⊢
  omega

theorem candidate_injective (hsame : candidate path m = candidate path n) : m = n :=
  name_candidate_injective path (congrArg Path.name hsame)

theorem name_candidate_ne_empty (hname : path.name ≠ "") (n : Nat) :
    (candidate path n).name ≠ "" := by
  by_cases hn : n = 0
  · rw [hn]
    exact hname
  · intro hempty
    have hlist : (candidate path n).name.toList = _ := toList_name_candidate hn
    rw [hempty] at hlist
    simp at hlist

theorem name_candidate_ne_up (hn : n ≠ 0) : (candidate path n).name ≠ ".." := by
  intro hup
  have hmem : '_' ∈ (candidate path n).name.toList := by
    rw [toList_name_candidate hn]
    simp
  rw [hup] at hmem
  exact absurd hmem (by decide)

theorem names_candidate_down (hname : path.name ≠ "") (hdown : ∀ name ∈ path.names, name ≠ "..")
    (n : Nat) : ∀ name ∈ (candidate path n).names, name ≠ ".." := by
  by_cases hn : n = 0
  · rw [hn]
    exact hdown
  · rw [Path.names_eq (name_candidate_ne_empty hname n), parent_candidate]
    intro name hmem
    rcases List.mem_append.1 hmem with hmem | hmem
    · exact hdown name ((List.dropLast_sublist _).mem hmem)
    · rw [List.mem_singleton.1 hmem]
      exact name_candidate_ne_up hn

theorem exists_place?_candidate_iff (hleads : tree.LeadsToDirectory path.parent)
    (hname : path.name ≠ "") (n : Nat) :
    (∃ l, tree.place? (candidate path n) = some l) ↔ (candidate path n).IsAccepted :=
  LeadsToDirectory.exists_place?_iff (by rwa [parent_candidate]) (name_candidate_ne_empty hname n)

/-- Different candidates denote different places. -/
theorem place?_candidate_ne (hleads : tree.LeadsToDirectory path.parent) (hname : path.name ≠ "")
    {k l : Location} (hk : tree.place? (candidate path m) = some k)
    (hl : tree.place? (candidate path n) = some l) (hne : m ≠ n) : k ≠ l := by
  obtain ⟨directory, hparent, hdirectory⟩ := hleads
  have hplace : ∀ {n : Nat} {l : Location}, tree.place? (candidate path n) = some l →
      l = if (candidate path n).name = ".." then directory.dropLast
        else directory ++ [(candidate path n).name] := by
    intro n l hl
    have haccepted := (exists_place?_candidate_iff ⟨_, hparent, hdirectory⟩ hname n).1 ⟨l, hl⟩
    have hformula := place?_of_parent (by rwa [parent_candidate]) hdirectory
      (name_candidate_ne_empty hname n) haccepted
    exact Option.some.inj (hl.symm.trans hformula)
  rw [hplace hk, hplace hl]
  have hlonger : directory.dropLast.length < directory.length + 1 := by
    rw [List.length_dropLast]
    omega
  split <;> split
  · rename_i hup hup'
    exact absurd (name_candidate_injective path (hup.trans hup'.symm)) hne
  · intro hsame
    rw [hsame, List.length_append] at hlonger
    exact absurd hlonger (by simp)
  · intro hsame
    rw [← hsame, List.length_append] at hlonger
    exact absurd hlonger (by simp)
  · intro hsame
    exact hne (name_candidate_injective path (List.singleton_inj.1 (List.append_cancel_left hsame)))

/-! ## Claiming -/

/-- A claim passes over candidates that are taken. -/
theorem claim_of_taken (hname : path.name ≠ "") (k left : Nat) :
    ∀ {n : Nat}, (∀ m, n ≤ m → m < n + k → tree.pathExists (candidate path m) = .ok true) →
      claim tree path n (k + left) = claim tree path (n + k) left := by
  induction k with
  | zero =>
      intro n _
      rw [Nat.zero_add, Nat.add_zero]
  | succ k ih =>
      intro n htaken
      have hfirst := createNew_of_pathExists (htaken n (Nat.le_refl n) (by omega))
      rw [Nat.succ_add, claim, hfirst]
      simp only [if_true, if_neg hname]
      rw [ih fun m hm hlt => htaken m (by omega) (by omega), Nat.add_right_comm, Nat.add_assoc]

theorem claim_of_free {place : Location} (hplace : tree.place? (candidate path n) = some place)
    (hfree : tree.get? place = none) (left : Nat) :
    claim tree path n (left + 1) =
      .ok (candidate path n, tree.set place (.file ByteArray.empty)) := by
  have hmade := createNew_eq_ok_iff.2 ⟨place, hplace, hfree, rfl⟩
  rw [claim, hmade]

/-- How a path that the file system does not take is refused. -/
def refusal (path : Path) : CopyError :=
  if path.hasNull then .crash (.file ⟨.nullCharacter, path.toString⟩)
  else .fault (.noFile path ⟨.nameTooLong, path.toString⟩)

theorem claim_of_refused (hleads : tree.LeadsToDirectory path.parent) (hname : path.name ≠ "")
    (hrefused : ¬ (candidate path n).IsAccepted) (left : Nat) :
    claim tree path n (left + 1) = .error (refusal (candidate path n)) := by
  rw [← parent_candidate path n] at hleads
  have hmade := createNew_of_not_isAccepted hleads (name_candidate_ne_empty hname n) hrefused
  by_cases hnull : (candidate path n).hasNull = true
  · rw [if_pos hnull] at hmade
    simp [claim, hmade, refusal, hnull, faultOr, FileFault.isSystem]
  · rw [if_neg hnull] at hmade
    simp [claim, hmade, refusal, hnull, faultOr, FileFault.isSystem]

/-! ## One reservation -/

theorem reserve_value (habove : tree.makeDirectories path.parent = (above, none)) :
    (reserve tree path).value =
      match claim above path 0 maxCandidates with
      | .error e => (above, .error e)
      | .ok (found, claimed) => (claimed, .ok found) := by
  rcases hclaim : claim above path 0 maxCandidates with e | ⟨found, claimed⟩ <;>
    simp only [value_reserve, habove, hclaim]

theorem claim_first (hname : path.name ≠ "") (hn : n < maxCandidates)
    (htaken : ∀ m < n, tree.pathExists (candidate path m) = .ok true) :
    ∃ left, claim tree path 0 maxCandidates = claim tree path n (left + 1) := by
  obtain ⟨left, hleft⟩ := Nat.exists_eq_add_of_lt hn
  refine ⟨left, ?_⟩
  rw [hleft, Nat.add_assoc, claim_of_taken hname n _ fun m _ hm => htaken m (by omega),
    Nat.zero_add]

/-- The first candidate that is free is claimed. -/
theorem reserve_next (habove : tree.makeDirectories path.parent = (above, none))
    (hname : path.name ≠ "") (hn : n < maxCandidates)
    (htaken : ∀ m < n, above.pathExists (candidate path m) = .ok true)
    (hfree : above.pathExists (candidate path n) ≠ .ok true)
    (haccepted : (candidate path n).IsAccepted) :
    ∃ place, above.place? (candidate path n) = some place ∧ above.get? place = none ∧
      (reserve tree path).value =
        (above.set place (.file ByteArray.empty), .ok (candidate path n)) := by
  have hleads := leadsToDirectory_of_makeDirectories habove
  obtain ⟨place, hplace⟩ := (exists_place?_candidate_iff hleads hname n).2 haccepted
  have hnone : above.get? place = none := by
    rcases hentry : above.get? place with _ | entry
    · rfl
    · exact absurd (pathExists_eq_true_iff.2 ⟨place, hplace, by simp [hentry]⟩) hfree
  obtain ⟨left, hclaim⟩ := claim_first hname hn htaken
  refine ⟨place, hplace, hnone, ?_⟩
  rw [reserve_value habove, hclaim, claim_of_free hplace hnone]

theorem reserve_refused (habove : tree.makeDirectories path.parent = (above, none))
    (hname : path.name ≠ "") (hn : n < maxCandidates)
    (htaken : ∀ m < n, above.pathExists (candidate path m) = .ok true)
    (hrefused : ¬ (candidate path n).IsAccepted) :
    (reserve tree path).value = (above, .error (refusal (candidate path n))) := by
  have hleads := leadsToDirectory_of_makeDirectories habove
  obtain ⟨left, hclaim⟩ := claim_first hname hn htaken
  rw [reserve_value habove, hclaim, claim_of_refused hleads hname hrefused]

theorem reserve_full (habove : tree.makeDirectories path.parent = (above, none))
    (hname : path.name ≠ "")
    (htaken : ∀ n < maxCandidates, above.pathExists (candidate path n) = .ok true) :
    (reserve tree path).value = (above, .error (.fault (.tooManyConflicts path))) := by
  have hclaim := claim_of_taken hname maxCandidates 0 (n := 0)
    fun m _ hm => htaken m (by omega)
  rw [Nat.add_zero] at hclaim
  rw [reserve_value habove, hclaim, claim]

/-! ## A row of reservations -/

/-- The tree that a row of reservations of one path leaves, and what each of them hands out. -/
def reserveTimes (path : Path) : Nat → FileTree → FileTree × List (Except CopyError Path)
  | 0, tree => (tree, [])
  | k + 1, tree =>
    let first := (reserve tree path).value
    let rest := reserveTimes path k first.1
    (rest.1, first.2 :: rest.2)

theorem reserveTimes_succ (path : Path) (k : Nat) : ∀ tree : FileTree,
    (reserveTimes path (k + 1) tree).2 =
      (reserveTimes path k tree).2 ++ [(reserve (reserveTimes path k tree).1 path).value.2] := by
  induction k with
  | zero => exact fun tree => rfl
  | succ k ih =>
      intro tree
      rw [reserveTimes, ih, reserveTimes]
      rfl

/-- What a row of reservations keeps: the directory is there, the candidates before the next one are
taken, and none after it. -/
structure IsNext (path : Path) (bound n : Nat) (tree : FileTree) : Prop where
  leads : tree.LeadsToDirectory path.parent
  taken : ∀ m < n, tree.pathExists (candidate path m) = .ok true
  free : ∀ m, n ≤ m → m < bound → tree.pathExists (candidate path m) ≠ .ok true

/-- A reservation takes the next candidate and leaves the others as they are. -/
theorem IsNext.reserve {bound : Nat} (hnext : IsNext path bound n tree) (hname : path.name ≠ "")
    (hn : n < bound) (hbound : bound ≤ maxCandidates) (haccepted : (candidate path n).IsAccepted) :
    (OutputFile.reserve tree path).value.2 = .ok (candidate path n) ∧
      IsNext path bound (n + 1) (OutputFile.reserve tree path).value.1 := by
  obtain ⟨place, hplace, hfree, hvalue⟩ := reserve_next hnext.leads.makeDirectories hname
    (Nat.lt_of_lt_of_le hn hbound) hnext.taken (hnext.free n (Nat.le_refl n) hn) haccepted
  have hnot : tree.get? place ≠ some .directory := by simp [hfree]
  have hroot := ne_nil_of_not_directory hnot
  have hkeeps := (changesOnlyAt_set hnot (.file ByteArray.empty)).keeps
  rw [hvalue]
  refine ⟨rfl, hkeeps.leadsToDirectory hnext.leads, ?taken, ?free⟩
  case taken =>
    intro m hm
    dsimp only
    by_cases hmn : m = n
    · refine pathExists_eq_true_iff.2 ⟨place, hkeeps.place? (hmn ▸ hplace), ?_⟩
      simp [get?_set tree hroot]
    · obtain ⟨l, hl, hentry⟩ := pathExists_eq_true_iff.1 (hnext.taken m (by omega))
      refine pathExists_eq_true_iff.2 ⟨l, hkeeps.place? hl, ?_⟩
      rw [get?_set tree hroot, if_neg (place?_candidate_ne hnext.leads hname hl hplace hmn)]
      exact hentry
  case free =>
    intro m hm hmb hthere
    obtain ⟨l, hl, hentry⟩ := pathExists_eq_true_iff.1 hthere
    -- the candidate denoted the same place before
    have haccepted := (exists_place?_candidate_iff (hkeeps.leadsToDirectory hnext.leads) hname m).1
      ⟨l, hl⟩
    obtain ⟨l', hl'⟩ := (exists_place?_candidate_iff hnext.leads hname m).2 haccepted
    obtain rfl := Option.some.inj (hl.symm.trans (hkeeps.place? hl'))
    rw [get?_set tree hroot,
      if_neg (place?_candidate_ne hnext.leads hname hl' hplace (by omega))] at hentry
    exact hnext.free m (by omega) hmb (pathExists_eq_true_iff.2 ⟨l, hl', hentry⟩)

/-- A row of reservations hands out one candidate after the other. -/
theorem reserveTimes_of_isNext {bound : Nat} (hname : path.name ≠ "")
    (hbound : bound ≤ maxCandidates) (k : Nat) :
    ∀ {n : Nat} {tree : FileTree}, IsNext path bound n tree → n + k ≤ bound →
      (∀ m, n ≤ m → m < n + k → (candidate path m).IsAccepted) →
        (reserveTimes path k tree).2 = (List.range' n k).map (fun m => .ok (candidate path m)) ∧
          IsNext path bound (n + k) (reserveTimes path k tree).1 := by
  induction k with
  | zero =>
      intro n tree hnext _ _
      exact ⟨rfl, hnext⟩
  | succ k ih =>
      intro n tree hnext hk haccepted
      obtain ⟨hfound, hafter⟩ := hnext.reserve hname (by omega) hbound
        (haccepted n (Nat.le_refl n) (by omega))
      obtain ⟨hrest, hlast⟩ := ih hafter (by omega)
        fun m hm hlt => haccepted m (by omega) (by omega)
      rw [reserveTimes, List.range'_succ, List.map_cons, hfound, hrest]
      refine ⟨rfl, ?_⟩
      rwa [Nat.add_right_comm, Nat.add_assoc] at hlast

/-! ## Resolving conflicts -/

/-- How conflicts at a path are resolved, where `above` is the tree with the directories above the
path: the first candidate at which nothing stands is reserved and nothing else changes, or it is
refused because the file system does not take it, or all candidates are taken. -/
structure Resolves (tree above : FileTree) (path : Path) : Prop where
  /-- Nothing is made but directories on the way to the path. -/
  made : ∀ l, above.get? l = tree.get? l ∨ tree.get? l = none ∧ above.get? l = some .directory ∧
    ∃ p : Path, p.IsOnWayTo path.parent ∧ above.place? p = some l
  /-- For a path that never goes up, these directories take no candidate. -/
  sameTaken : (∀ name ∈ path.names, name ≠ "..") → ∀ n,
    above.pathExists (candidate path n) = .ok true ↔ tree.pathExists (candidate path n) = .ok true
  distinct : ∀ m n, candidate path m = candidate path n → m = n
  free : ∀ n < maxCandidates, (∀ m < n, above.pathExists (candidate path m) = .ok true) →
    above.pathExists (candidate path n) ≠ .ok true → (candidate path n).IsAccepted →
    ∃ place claimed, (reserve tree path).value = (claimed, .ok (candidate path n)) ∧
      above.place? (candidate path n) = some place ∧ above.get? place = none ∧
      ∀ l, claimed.get? l = if l = place then some (.file ByteArray.empty) else above.get? l
  refused : ∀ n < maxCandidates, (∀ m < n, above.pathExists (candidate path m) = .ok true) →
    ¬ (candidate path n).IsAccepted →
    (reserve tree path).value = (above, .error (refusal (candidate path n)))
  full : (∀ n < maxCandidates, above.pathExists (candidate path n) = .ok true) →
    (reserve tree path).value = (above, .error (.fault (.tooManyConflicts path)))
  unchanged : (∀ n < maxCandidates, tree.pathExists (candidate path n) = .ok true) →
    (reserve tree path).value = (tree, .error (.fault (.tooManyConflicts path)))
  row : ∀ k ≤ maxCandidates,
    (∀ n < k, above.pathExists (candidate path n) ≠ .ok true ∧ (candidate path n).IsAccepted) →
    (reserveTimes path k tree).2 = (List.range k).map fun n => .ok (candidate path n)
  exhausted :
    (∀ n < maxCandidates,
      above.pathExists (candidate path n) ≠ .ok true ∧ (candidate path n).IsAccepted) →
    (reserveTimes path (maxCandidates + 1) tree).2 =
      ((List.range maxCandidates).map fun n => .ok (candidate path n)) ++
        [.error (.fault (.tooManyConflicts path))]

/-- A reservation depends on the tree with the directories above the path only. -/
theorem reserve_eq_above (habove : tree.makeDirectories path.parent = (above, none)) :
    (reserve tree path).value = (reserve above path).value := by
  have hleads := leadsToDirectory_of_makeDirectories habove
  rw [reserve_value habove, reserve_value hleads.makeDirectories]

theorem reserveTimes_eq_above (habove : tree.makeDirectories path.parent = (above, none))
    (k : Nat) : (reserveTimes path k tree).2 = (reserveTimes path k above).2 := by
  cases k with
  | zero => rfl
  | succ k => rw [reserveTimes, reserveTimes, reserve_eq_above habove]

/-- **Conflicts** at a path with a name are resolved whenever the directories above it can be
made. -/
theorem resolves_reserve (hclosed : tree.IsClosed)
    (habove : tree.makeDirectories path.parent = (above, none)) (hname : path.name ≠ "") :
    Resolves tree above path := by
  have hleads := leadsToDirectory_of_makeDirectories habove
  have hnext : ∀ k, (∀ n < k, above.pathExists (candidate path n) ≠ .ok true) →
      IsNext path k 0 above :=
    fun k hfree => ⟨hleads, fun m hm => absurd hm (Nat.not_lt_zero m), fun m _ hm => hfree m hm⟩
  refine {
    made := makeDirectories_onWay habove
    sameTaken := ?sameTaken
    distinct := fun m n => candidate_injective
    free := ?free
    refused := fun n hn htaken => reserve_refused habove hname hn htaken
    full := reserve_full habove hname
    unchanged := ?unchanged
    row := ?row
    exhausted := ?exhausted }
  case sameTaken =>
    intro hdown n
    exact pathExists_iff_of_makeDirectories hclosed (by rwa [parent_candidate])
      (name_candidate_ne_empty hname n) (names_candidate_down hname hdown n)
  case free =>
    intro n hn htaken hfree haccepted
    obtain ⟨place, hplace, hnone, hvalue⟩ := reserve_next habove hname hn htaken hfree haccepted
    have hnot : above.get? place ≠ some .directory := by simp [hnone]
    exact ⟨place, _, hvalue, hplace, hnone, get?_set above (ne_nil_of_not_directory hnot) _⟩
  case unchanged =>
    intro htaken
    have hself : tree.makeDirectories path.parent = (tree, none) :=
      hclosed.makeDirectories_parent hname (htaken 0 (by decide))
    exact reserve_full hself hname htaken
  case row =>
    intro k hk hfree
    obtain ⟨hrow, -⟩ := reserveTimes_of_isNext hname hk k (hnext k fun n hn => (hfree n hn).1)
      (by omega) fun m _ hm => (hfree m (by omega)).2
    rw [reserveTimes_eq_above habove, hrow, List.range_eq_range']
  case exhausted =>
    intro hfree
    obtain ⟨hrow, hlast⟩ := reserveTimes_of_isNext hname (Nat.le_refl _) maxCandidates
      (hnext maxCandidates fun n hn => (hfree n hn).1) (by omega)
      fun m _ hm => (hfree m (by omega)).2
    rw [Nat.zero_add] at hlast
    rw [reserveTimes_eq_above habove, reserveTimes_succ, hrow, List.range_eq_range',
      reserve_full hlast.leads.makeDirectories hname hlast.taken]

/-- A tree in which a path and its first sibling are taken. -/
def takenTwice : FileTree :=
  ((FileTree.empty []).set ["a.wav"] (.file ⟨#[1]⟩)).set ["a_1.wav"] (.file ⟨#[2]⟩)

/-- The second sibling of a path is reserved when the path and its first sibling are taken. -/
theorem takenTwice_resolves :
    ∃ claimed, (reserve takenTwice ⟨0, ["a.wav"]⟩).value = (claimed, .ok ⟨0, ["a_2.wav"]⟩) ∧
      ∀ l, claimed.get? l =
        if l = ["a_2.wav"] then some (.file ByteArray.empty) else takenTwice.get? l := by
  have hclosed : takenTwice.IsClosed :=
    ((isClosed_empty []).set (l := ["a.wav"]) (by decide) (by decide) _).set (by decide)
      (by decide) _
  have habove : takenTwice.makeDirectories (Path.parent ⟨0, ["a.wav"]⟩) = (takenTwice, none) :=
    hclosed.makeDirectories_parent (by decide) (by decide +kernel)
  obtain ⟨place, claimed, hvalue, hplace, -, hframe⟩ :=
    (resolves_reserve hclosed habove (by decide)).free 2 (by decide) (by decide +kernel)
      (by decide +kernel) (by decide +kernel)
  have hsecond : takenTwice.place? (candidate ⟨0, ["a.wav"]⟩ 2) = some ["a_2.wav"] := by
    decide +kernel
  have hsibling : candidate ⟨0, ["a.wav"]⟩ 2 = ⟨0, ["a_2.wav"]⟩ := by decide +kernel
  obtain rfl := Option.some.inj (hplace.symm.trans hsecond)
  rw [hsibling] at hvalue
  exact ⟨claimed, hvalue, hframe⟩

/-- A path whose name leaves no room for a number. -/
def fullPath : Path :=
  ⟨0, [String.ofList (List.replicate 254 'a')]⟩

theorem utf8ByteSize_fullPath : fullPath.name.utf8ByteSize = 254 := by
  have hsize : ∀ n, (String.ofList (List.replicate n 'a')).utf8ByteSize = n := by
    intro n
    induction n with
    | zero => rfl
    | succ n ih =>
        rw [List.replicate_succ', String.ofList_append, String.utf8ByteSize_append, ih]
        rfl
  exact hsize 254

theorem name_fullPath_ne {name : String} (hsize : name.utf8ByteSize ≠ 254) :
    fullPath.name ≠ name := by
  rintro rfl
  exact hsize utf8ByteSize_fullPath

theorem isAccepted_fullPath : fullPath.IsAccepted where
  noNull := by
    have hsingle : ∀ name : String, '\x00' ∉ name.toList → Path.hasNull ⟨0, [name]⟩ = false := by
      intro name hname
      simpa [Path.hasNull] using hname
    refine hsingle _ ?_
    rw [String.toList_ofList, List.mem_replicate]
    exact fun h => absurd h.2 (by decide)
  short := by
    have hsingle : ∀ name : String, Path.toString ⟨0, [name]⟩ = name := by
      intro name
      simp [Path.toString]
    have htext : fullPath.toString = fullPath.name := hsingle _
    rw [htext, utf8ByteSize_fullPath]
    decide
  shortName := by
    rw [utf8ByteSize_fullPath]
    decide

theorem not_isAccepted_candidate_fullPath (hn : n ≠ 0) :
    ¬ (candidate fullPath n).IsAccepted := by
  intro haccepted
  have hsize : fullPath.name.utf8ByteSize + 2 ≤ (candidate fullPath n).name.utf8ByteSize :=
    utf8ByteSize_name_candidate hn
  rw [utf8ByteSize_fullPath] at hsize
  exact absurd (Nat.le_trans hsize haccepted.shortName) (by decide)

/-- A tree in which nothing stands but a file at that path. -/
def fullTree : FileTree :=
  (FileTree.empty []).set [fullPath.name] (.file ByteArray.empty)

theorem isClosed_fullTree : fullTree.IsClosed := by
  have hfree : (FileTree.empty []).get? [fullPath.name] = none := by
    rw [get?_empty]
    exact if_neg (by simp)
  exact (isClosed_empty []).set (get?_nil _) (by simp [hfree]) _

theorem pathExists_fullTree : fullTree.pathExists fullPath = .ok true := by
  have hparent : fullTree.place? fullPath.parent = some [] := rfl
  have hplace := place?_of_parent hparent (get?_nil _) (name_fullPath_ne (by decide))
    isAccepted_fullPath
  rw [if_neg (name_fullPath_ne (by decide)), List.nil_append] at hplace
  refine pathExists_eq_true_iff.2 ⟨_, hplace, ?_⟩
  rw [fullTree, get?_set _ (List.cons_ne_nil _ _), if_pos rfl]
  exact Option.some_ne_none _

/-- The first candidate at which nothing stands may have a name that no file can have. -/
theorem not_resolves_reserve :
    ¬ ∀ (tree above : FileTree) (path : Path), tree.IsClosed →
      tree.makeDirectories path.parent = (above, none) → path.name ≠ "" →
      ∀ n < maxCandidates, (∀ m < n, above.pathExists (candidate path m) = .ok true) →
        above.pathExists (candidate path n) ≠ .ok true →
        (reserve tree path).value.2 = .ok (candidate path n) := by
  intro hall
  have hname : fullPath.name ≠ "" := name_fullPath_ne (by decide)
  have htaken : ∀ m < 1, fullTree.pathExists (candidate fullPath m) = .ok true := by
    intro m hm
    obtain rfl : m = 0 := by omega
    exact pathExists_fullTree
  have hrefused := not_isAccepted_candidate_fullPath Nat.one_ne_zero
  have habove := isClosed_fullTree.makeDirectories_parent hname pathExists_fullTree
  have hleads := leadsToDirectory_of_makeDirectories habove
  have hfree : fullTree.pathExists (candidate fullPath 1) ≠ .ok true := by
    intro hthere
    obtain ⟨l, hplace, -⟩ := pathExists_eq_true_iff.1 hthere
    exact hrefused ((exists_place?_candidate_iff hleads hname 1).1 ⟨l, hplace⟩)
  have hreserved := hall _ _ _ isClosed_fullTree habove hname 1 (by decide) htaken hfree
  rw [reserve_refused habove hname (by decide) htaken hrefused] at hreserved
  cases hreserved

end OutputFile

end BroadcastIntake
