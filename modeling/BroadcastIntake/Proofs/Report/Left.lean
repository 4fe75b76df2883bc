import BroadcastIntake.Proofs.Outcome
import BroadcastIntake.Proofs.Report.Row
import BroadcastIntake.Report.File
import Mathlib.Data.List.Forall2

/-!
# What is left in a report

The files that a report leaves to be worked on are those of its rows that exist and are not marked.
`existing` says which of some files exist, without any rows; a report without marked rows leaves
just those, and a report of marked rows leaves none, though it looks for the same files.
-/

namespace BroadcastIntake.Report

/-- The given files that exist, in their order, as they are named in a report. -/
def existing (tree : FileTree) : List Path → Except ReportError (List Path)
  | [] => .ok []
  | file :: rest =>
    match tree.pathExists (Path.ofString file.toString) with
    | .error e => .error (.file e)
    | .ok found => do
      let others ← existing tree rest
      return if found then Path.ofString file.toString :: others else others

/-- The row is for the file and counts as processed or not. -/
structure IsMarked (marked : Bool) (file : Path) (row : ReportRow) : Prop where
  path : row.get? "file_path" = some (.str file.toString)
  processed : isProcessed row = marked

variable {tree : FileTree} {files : List Path} {rows : List ReportRow}

theorem left_cons (row : ReportRow) :
    left tree (row :: rows) = (do
      let first ← leftOf tree row
      let others ← left tree rows
      return first.toList ++ others) := by
  unfold left
  rw [List.mapM_cons]
  rcases leftOf tree row with e | first
  · rfl
  · rcases rows.mapM (leftOf tree) with e | others
    · rfl
    · cases first <;> rfl

/-- Looking for the file of a row. -/
theorem leftOf_eq {marked : Bool} {file : Path} {row : ReportRow}
    (hrow : IsMarked marked file row) :
    leftOf tree row =
      match tree.pathExists (Path.ofString file.toString) with
      | .error e => .error (.file e)
      | .ok found =>
        .ok (if found && !marked then some (Path.ofString file.toString) else none) := by
  unfold leftOf
  rw [ReportRow.require_eq_ok_iff.2 hrow.path, ← hrow.processed]
  rfl

/-- Rows that are not marked leave the files that exist; rows that are marked leave nothing, but
their files are looked for. -/
theorem left_eq {marked : Bool} (hrows : List.Forall₂ (IsMarked marked) files rows) :
    left tree rows = (existing tree files).map fun found => if marked then [] else found := by
  induction hrows with
  | nil => cases marked <;> rfl
  | @cons file row files rows hrow _ ih =>
      rw [left_cons, leftOf_eq hrow, ih, existing]
      rcases tree.pathExists (Path.ofString file.toString) with e | found
      · rfl
      · rcases existing tree files with e | others
        · rfl
        · cases found <;> cases marked <;> rfl

/-! ## No file exists -/

/-- Looking for files fails when looking for one of them does. -/
theorem existing_eq_error_iff :
    (∃ e, existing tree files = .error e) ↔
      ∃ file ∈ files, ∃ e, tree.pathExists (Path.ofString file.toString) = .error e := by
  induction files with
  | nil => simp [existing]
  | cons file rest ih =>
      rw [List.exists_mem_cons_iff, ← ih, existing]
      rcases tree.pathExists (Path.ofString file.toString) with e | found
      · simp
      · rcases existing tree rest with e | others <;> simp [bind, Except.bind, pure, Except.pure]

/-- Such a failure is one of the file system. -/
theorem existing_error {e : ReportError} (hfails : existing tree files = .error e) :
    ∃ fault, e = .file fault := by
  induction files with
  | nil => cases hfails
  | cons file rest ih =>
      rw [existing] at hfails
      split at hfails
      · exact ⟨_, (Except.error.inj hfails).symm⟩
      · rcases Outcome.bind_eq_error_iff.1 hfails with hrest | ⟨_, _, hnone⟩
        · exact ih hrest
        · cases hnone

/-- None of the files exists. -/
theorem existing_eq_nil_iff :
    existing tree files = .ok [] ↔
      ∀ file ∈ files, tree.pathExists (Path.ofString file.toString) = .ok false := by
  induction files with
  | nil => simp [existing]
  | cons file rest ih =>
      rw [List.forall_mem_cons, ← ih, existing]
      rcases tree.pathExists (Path.ofString file.toString) with e | found
      · simp
      · rcases existing tree rest with e | others
        · simp [bind, Except.bind]
        · cases found <;> simp [bind, Except.bind, pure, Except.pure]

end BroadcastIntake.Report
