import BroadcastIntake.Proofs.FileTree.Missing
import BroadcastIntake.Proofs.Report.File

/-!
# Reports that are not there

A report is called missing exactly when nothing is found at its path (`read_eq_missing_iff`), and
not for anything in its text.  Writing rows to such a path changes the tree unless there are no
rows, or neither the report nor any directory above it can be made (`write_ne_iff`).
-/

namespace BroadcastIntake

/-! ## What is called missing -/

/-- Whatever fails here, it is not that a report is missing. -/
def ReportError.IsElsewhere {α : Type} (x : Except ReportError α) : Prop :=
  ∀ path, x ≠ .error (.missing path)

namespace ReportError.IsElsewhere

variable {α β : Type}

theorem ok (a : α) : IsElsewhere (.ok a) :=
  fun _ => nofun

theorem bind {x : Except ReportError α} {f : α → Except ReportError β} (hx : IsElsewhere x)
    (hf : ∀ a, IsElsewhere (f a)) : IsElsewhere (x >>= f) := by
  intro path hfails
  rcases Outcome.bind_eq_error_iff.1 hfails with hfirst | ⟨a, -, hnext⟩
  · exact hx path hfirst
  · exact hf a path hnext

end ReportError.IsElsewhere

open ReportError (IsElsewhere)

namespace ReportRow

theorem isElsewhere_require (row : ReportRow) (column : String) :
    IsElsewhere (row.require column) := by
  intro path
  unfold require
  split <;> exact nofun

theorem isElsewhere_typed (row : ReportRow) (column : String) (whenEmpty : Json)
    {read : String → Except ReportError Json} (hread : ∀ s, IsElsewhere (read s)) :
    IsElsewhere (row.typed column whenEmpty read) := by
  refine (row.isElsewhere_require column).bind fun value => ?_
  split
  · exact .ok _
  · exact .ok _
  · exact (hread _).bind fun _ => .ok _
  · exact .ok _

theorem isElsewhere_typedFlag (row : ReportRow) (column : String) :
    IsElsewhere (row.typedFlag column) := by
  refine (row.isElsewhere_require column).bind fun value => ?_
  split
  · exact .ok _
  · exact fun _ => nofun

theorem isElsewhere_withTypes (row : ReportRow) : IsElsewhere row.withTypes := by
  have hconfidence : ∀ s, IsElsewhere (readConfidence s) := fun s path => by
    unfold readConfidence
    split <;> exact nofun
  have hduration : ∀ s, IsElsewhere (readDuration s) := fun s path => by
    unfold readDuration
    split <;> exact nofun
  have hdata : ∀ s, IsElsewhere (readData s) := fun s path => by
    unfold readData
    split <;> exact nofun
  refine (row.isElsewhere_typed _ _ hconfidence).bind fun row => ?_
  refine (row.isElsewhere_typed _ _ hduration).bind fun row => ?_
  refine (row.isElsewhere_typed _ _ hdata).bind fun row => ?_
  refine (row.isElsewhere_typedFlag _).bind fun row => ?_
  refine (row.isElsewhere_typedFlag _).bind fun row => ?_
  refine (row.isElsewhere_typedFlag _).bind fun row => ?_
  split
  · exact .ok _
  · exact row.isElsewhere_typedFlag _

end ReportRow

namespace Report

theorem isElsewhere_readRows (header : List String)
    (records : List (Except Csv.Fault (List String))) : IsElsewhere (readRows header records) := by
  induction records with
  | nil => exact .ok []
  | cons record rest ih =>
      rcases record with fault | _ | ⟨cell, cells⟩
      · exact fun _ => nofun
      · exact ih
      · exact (ReportRow.isElsewhere_withTypes _).bind fun row => ih.bind fun _ => .ok _

theorem isElsewhere_ofText (text : String) : IsElsewhere (ofText text) := by
  unfold ofText
  split
  · exact .ok []
  · exact fun _ => nofun
  · exact isElsewhere_readRows _ _

/-- A report is called missing when nothing is found at its path. -/
theorem read_eq_missing_iff {tree : FileTree} {path : Path} :
    (∃ q, read tree path = .error (.missing q)) ↔ tree.pathExists path = .ok false := by
  constructor
  · rintro ⟨q, hread⟩
    unfold read at hread
    split at hread
    · cases hread
    · assumption
    · split at hread
      · cases hread
      · split at hread
        · cases hread
        · exact absurd hread (isElsewhere_ofText _ q)
  · intro hexists
    exact ⟨path, by rw [read, hexists]⟩

/-! ## Writing where nothing is -/

/-- Something can be made for a report: its place is free, or a directory above it is missing. -/
def CanMake (tree : FileTree) (path : Path) : Prop :=
  (∃ l, tree.locate path = .ok (l, none)) ∨ tree.IsMissing path.parent

variable {tree : FileTree} {path : Path} {rows : List ReportRow}

/-- Writing rows below directories that are there fails, or makes or replaces one file. -/
theorem writeRows_cases (tree : FileTree) (rows : List ReportRow) (path : Path) :
    (writeRows tree rows path).1 = tree ∧ (∀ l, tree.locate path ≠ .ok (l, none)) ∨
      ∃ l content, tree.place? path = some l ∧ tree.get? l ≠ some .directory ∧
        (writeRows tree rows path).1 = tree.set l (.file content) := by
  unfold writeRows
  dsimp only
  rcases hwrite : tree.write path (textOf (recordsOf rows).1).toUTF8 with e | written
  · refine .inl ⟨rfl, fun l hlocate => ?_⟩
    rw [FileTree.write, hlocate] at hwrite
    cases hwrite
  · obtain ⟨l, hplace, hdirectory, hwritten⟩ := FileTree.write_eq_ok_iff.1 hwrite
    exact .inr ⟨l, _, hplace, hdirectory, hwritten⟩

theorem write_eq (hrows : rows ≠ []) (tree : FileTree) (path : Path) :
    (write tree rows path).value.1 =
      match tree.makeDirectories path.parent with
      | (made, some _) => made
      | (made, none) => (writeRows made rows path).1 := by
  rw [value_write hrows]
  rcases tree.makeDirectories path.parent with ⟨made, _ | e⟩ <;> rfl

/-- Writing rows changes one file at most, the one at the path. -/
theorem writeRows_changesOnlyAt (tree : FileTree) (rows : List ReportRow) (path : Path) :
    ∃ places : List Location, (∀ l ∈ places, tree.place? path = some l) ∧
      FileTree.ChangesOnlyAt places tree (writeRows tree rows path).1 := by
  rcases writeRows_cases tree rows path with ⟨hsame, -⟩ | ⟨l, content, hplace, hnot, hwritten⟩
  · rw [hsame]
    exact ⟨[], by simp, .refl [] tree⟩
  · rw [hwritten]
    exact ⟨[l], by simp [hplace], FileTree.changesOnlyAt_set hnot _⟩

/-- Writing a report changes one file at most, the one at the path, and makes directories. -/
theorem write_changesOnlyAt (hrows : rows ≠ []) (tree : FileTree) (path : Path) :
    ∃ places : List Location,
      (∀ l ∈ places, (write tree rows path).value.1.place? path = some l) ∧
        FileTree.ChangesOnlyAt places tree (write tree rows path).value.1 := by
  have hdirectories := tree.makeDirectories_changesOnlyAt path.parent
  rw [write_eq hrows]
  rcases hmade : tree.makeDirectories path.parent with ⟨made, _ | e⟩ <;> rw [hmade] at hdirectories
  · obtain ⟨places, hplaces, hchanges⟩ := writeRows_changesOnlyAt made rows path
    exact ⟨places, fun l hl => hchanges.keeps.place? (hplaces l hl),
      hdirectories.of_nil.trans hchanges⟩
  · exact ⟨[], by simp, hdirectories⟩

/-- What can be made for a report is made when rows are written. -/
theorem write_ne_of_canMake (hdirect : path.IsDirect) (hrows : rows ≠ [])
    (hcan : CanMake tree path) : (write tree rows path).value.1 ≠ tree := by
  rcases hcan with ⟨l, hlocate⟩ | hmissing
  · obtain ⟨hplace, hfree⟩ := FileTree.locate_eq_ok_iff.1 hlocate
    have hnames : path.names ≠ [] := fun hnames =>
      FileTree.not_isMissing_of_names_eq_nil hdirect.absolute hnames (.inl ⟨l, hlocate⟩)
    have hleads := (FileTree.locate_parent hdirect hnames).1 l none hlocate
    have hwrite : (write tree rows path).value.1 = (writeRows tree rows path).1 := by
      rw [write_eq hrows, hleads.makeDirectories]
    rcases writeRows_cases tree rows path with ⟨-, htaken⟩ | ⟨l', content, hplace', hnot, hwritten⟩
    · exact absurd hlocate (htaken l)
    · obtain rfl : l = l' := Option.some.inj (hplace.symm.trans hplace')
      intro hsame
      have hfile : (tree.set l (.file content)).get? l = some (.file content) := by
        rw [FileTree.get?_set tree (FileTree.ne_nil_of_not_directory hnot), if_pos rfl]
      rw [← hwritten, ← hwrite, hsame, hfree] at hfile
      cases hfile
  · obtain ⟨l, hfree, hmade⟩ := FileTree.exists_made path.parent.names.length
      hdirect.parent (Nat.le_refl _) hmissing
    have hthere : (write tree rows path).value.1.get? l = some .directory := by
      rw [write_eq hrows, FileTree.makeDirectories]
      rcases hdirectories : tree.makeDirectoriesFrom path.parent.names.length path.parent with
        ⟨made, _ | e⟩ <;> rw [hdirectories] at hmade
      · obtain ⟨places, -, hchanges⟩ := writeRows_changesOnlyAt made rows path
        exact hchanges.keeps.directory l hmade
      · exact hmade
    intro hsame
    rw [hsame, hfree] at hthere
    cases hthere

/-- Where nothing can be made, writing a report that is not there changes nothing. -/
theorem write_of_not_canMake (hexists : tree.pathExists path = .ok false)
    (hcan : ¬ CanMake tree path) (rows : List ReportRow) :
    (write tree rows path).value.1 = tree := by
  rw [CanMake, not_or] at hcan
  by_cases hrows : rows = []
  · rw [hrows]
    rfl
  · have hdirectories := FileTree.makeDirectories_of_not_isMissing hcan.2
    rw [write_eq hrows]
    rcases hmade : tree.makeDirectories path.parent with ⟨made, _ | e⟩ <;>
      rw [hmade] at hdirectories
    · obtain rfl : made = tree := hdirectories
      rcases writeRows_cases made rows path with ⟨hsame, -⟩ | ⟨l, content, hplace, -, -⟩
      · exact hsame
      · -- nothing is found at the path, so its place is free after all
        have hlocate := FileTree.locate_of_place hplace
        rcases hfound : made.get? l with _ | entry <;> rw [hfound] at hlocate
        · exact absurd ⟨l, hlocate⟩ hcan.1
        · simp [FileTree.pathExists, FileTree.stat?, hlocate, Except.map] at hexists
    · exact hdirectories

/-- Writing a report that is not there changes the tree unless there are no rows or nothing can be
made for it. -/
theorem write_ne_iff (hdirect : path.IsDirect) (hexists : tree.pathExists path = .ok false) :
    (write tree rows path).value.1 ≠ tree ↔ rows ≠ [] ∧ CanMake tree path := by
  constructor
  · intro hwritten
    refine ⟨?_, ?_⟩
    · rintro rfl
      exact hwritten rfl
    · exact Classical.byContradiction fun hcan =>
        hwritten (write_of_not_canMake hexists hcan rows)
  · rintro ⟨hrows, hcan⟩
    exact write_ne_of_canMake hdirect hrows hcan

end Report

end BroadcastIntake
