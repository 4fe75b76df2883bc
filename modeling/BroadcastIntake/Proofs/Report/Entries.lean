import BroadcastIntake.Proofs.Path
import BroadcastIntake.Proofs.Report.Missing
import BroadcastIntake.Proofs.Report.RoundTrip
import BroadcastIntake.Proofs.Report.Update
import Mathlib.Data.List.Nodup

/-!
# Marks in a report

A report of planned files stays one, however often files are marked in it: it holds the records of
entries (`Report.Holds`), of which an update marks the one for its file and keeps all others
(`Report.Holds.update`).  The same entries say which files are left (`Report.left_rows`).

A row is found by the text of a path, and the path is read from that text again.  For proper paths
both lead back to the file that was planned, so it is enough that the files differ.
-/

namespace BroadcastIntake

open Outcome (bind_eq_ok_iff)
open FileTree (ChangesOnlyAt)

/-! ## Entries -/

namespace ReportEntry

/-- The file of the entry. -/
def source (e : ReportEntry) : Path :=
  e.file.plan.source

/-- The entries are for different files. -/
structure AreApart (entries : List ReportEntry) : Prop where
  proper : ∀ e ∈ entries, e.source.IsProper
  distinct : (entries.map source).Nodup

/-- Whether an entry for the file is marked. -/
def marks (entries : List ReportEntry) (file : Path) : Bool :=
  entries.any fun e => decide (e.source = file) && e.processed

/-- The entries with those for a file marked at the given time. -/
def markFile (file : Path) (date : String) (entries : List ReportEntry) : List ReportEntry :=
  entries.map fun e => if e.source = file then ⟨e.file, true, date⟩ else e

section Marking

variable {file : Path} {date : String} {entries : List ReportEntry}

theorem marks_eq_true_iff : marks entries file = true ↔
    ∃ e ∈ entries, e.source = file ∧ e.processed = true := by
  simp [marks]

/-- Marking leaves the files as they are. -/
theorem map_file_markFile (file : Path) (date : String) (entries : List ReportEntry) :
    (markFile file date entries).map (·.file) = entries.map (·.file) := by
  unfold markFile
  rw [List.map_map]
  refine List.map_congr_left fun e _ => ?_
  show (if e.source = file then _ else e : ReportEntry).file = e.file
  split <;> rfl

theorem map_source_eq {others : List ReportEntry}
    (hfiles : others.map (·.file) = entries.map (·.file)) :
    others.map source = entries.map source := by
  have hsources := congrArg (List.map fun f : PlannedFile => f.plan.source) hfiles
  rwa [List.map_map, List.map_map] at hsources

theorem AreApart.of_map_file {others : List ReportEntry} (hapart : AreApart entries)
    (hfiles : others.map (·.file) = entries.map (·.file)) : AreApart others := by
  have hsources := map_source_eq hfiles
  refine ⟨fun e he => ?_, hsources ▸ hapart.distinct⟩
  have hmem : e.source ∈ entries.map source := hsources ▸ List.mem_map_of_mem he
  obtain ⟨other, hother, hsame⟩ := List.mem_map.1 hmem
  exact hsame ▸ hapart.proper other hother

theorem markFile_of_not_mem (hfile : file ∉ entries.map source) :
    markFile file date entries = entries := by
  refine (List.map_congr_left fun e he => ?_).trans entries.map_id
  rw [if_neg fun hsame => hfile (List.mem_map.2 ⟨e, he, hsame⟩)]
  rfl

/-- Marking a file marks it and nothing else. -/
theorem marks_markFile_iff (hfile : file ∈ entries.map source) (other : Path) :
    marks (markFile file date entries) other = true ↔
      marks entries other = true ∨ other = file := by
  simp only [marks_eq_true_iff]
  constructor
  · rintro ⟨e, he, hsource, hprocessed⟩
    obtain ⟨e', he', rfl⟩ := List.mem_map.1 he
    split at hsource
    · rename_i hhere
      exact .inr (hsource.symm.trans hhere)
    · rename_i helsewhere
      rw [if_neg helsewhere] at hprocessed
      exact .inl ⟨e', he', hsource, hprocessed⟩
  · rintro (⟨e, he, rfl, hprocessed⟩ | rfl)
    · refine ⟨_, List.mem_map_of_mem he, ?_⟩
      split
      · exact ⟨rfl, rfl⟩
      · exact ⟨rfl, hprocessed⟩
    · obtain ⟨e, he, hsource⟩ := List.mem_map.1 hfile
      refine ⟨_, List.mem_map_of_mem he, ?_⟩
      rw [if_pos hsource]
      exact ⟨hsource, rfl⟩

/-- Of different files each is marked as its own entry says. -/
theorem AreApart.marks_source (hapart : AreApart entries) {e : ReportEntry} (he : e ∈ entries) :
    marks entries e.source = e.processed := by
  rw [Bool.eq_iff_iff, marks_eq_true_iff]
  constructor
  · rintro ⟨other, hother, hsource, hprocessed⟩
    rwa [List.inj_on_of_nodup_map hapart.distinct hother he hsource] at hprocessed
  · exact fun hprocessed => ⟨e, he, rfl, hprocessed⟩

end Marking

/-- The fields of a record fit if they do without a mark and the time of the mark fits. -/
theorem fits_record_iff (e : ReportEntry) : Csv.fits e.record = true ↔
    Csv.fits (fresh e.file).record = true ∧ e.date.length ≤ Csv.fieldLimit := by
  have hflag : ∀ flag, (ReportRow.columnText "processed" (.bool flag)).length ≤ Csv.fieldLimit := by
    intro flag
    cases flag <;> decide
  have hempty : "".length ≤ Csv.fieldLimit := by decide
  simp only [record, fresh, PlannedFile.record, PlannedFile.reread, PlannedFile.recordOf_rowWith,
    Csv.fits, List.all_cons, List.all_nil, Bool.and_eq_true, decide_eq_true_eq, hflag, hempty,
    and_true, true_and, and_assoc]

end ReportEntry

/-! ## What a report holds -/

namespace FileTree

/-- Whether something stands at the path. -/
def isThere (tree : FileTree) (path : Path) : Bool :=
  match tree.pathExists path with
  | .ok found => found
  | .error _ => false

theorem names_ne_nil_of_read {tree : FileTree} {path : Path} {content : ByteArray}
    (habsolute : path.isAbsolute = true) (hread : tree.read path = .ok content) :
    path.names ≠ [] := by
  intro hnames
  obtain ⟨l, hplace, hfile⟩ := read_eq_ok_iff.1 hread
  have hlocate := locate_of_place hplace
  rw [locate, if_pos habsolute, hnames, follow, get?_nil, hfile] at hlocate
  split at hlocate
  · cases hlocate
  · split at hlocate <;> cases hlocate

/-- The directory of a file is there. -/
theorem makeDirectories_parent_of_read {tree : FileTree} {path : Path} {content : ByteArray}
    (hdirect : path.IsDirect) (hread : tree.read path = .ok content) :
    tree.makeDirectories path.parent = (tree, none) := by
  obtain ⟨l, hplace, -⟩ := read_eq_ok_iff.1 hread
  have hnames := names_ne_nil_of_read hdirect.absolute hread
  exact ((locate_parent hdirect hnames).1 l _ (locate_of_place hplace)).makeDirectories

end FileTree

namespace Report

open ReportEntry (AreApart markFile)

/-- The report holds the records of the entries, and they can be read. -/
structure Holds (tree : FileTree) (report : Path) (entries : List ReportEntry) : Prop where
  content : tree.read report = .ok (textOf (entries.map (·.record))).toUTF8
  fits : ∀ e ∈ entries, Csv.fits e.record = true

/-- Whether a report has a row for the file that is marked as processed. -/
def marks (tree : FileTree) (report file : Path) : Bool :=
  match read tree report with
  | .ok rows => rows.any fun row =>
      match row.get? "file_path" with
      | some (.str path) => path = file.toString && isProcessed row
      | _ => false
  | .error _ => false

section Holding

variable {tree : FileTree} {report file : Path} {entries : List ReportEntry}

theorem Holds.read (hholds : Holds tree report entries) :
    read tree report = .ok (entries.map (·.row)) :=
  read_entries hholds.fits hholds.content

theorem isFor_row_iff {e : ReportEntry} (he : e.source.IsProper) (hfile : file.IsProper) :
    IsFor file.toString e.row ↔ e.source = file := by
  have hpath : e.row.get? "file_path" = some (.str e.source.toString) := rfl
  rw [IsFor, hpath, Option.some_inj, Json.str.injEq, Path.toString_inj he hfile]

/-- The report marks the files that its entries mark. -/
theorem Holds.marks_eq (hholds : Holds tree report entries)
    (hproper : ∀ e ∈ entries, e.source.IsProper) (hfile : file.IsProper) :
    marks tree report file = ReportEntry.marks entries file := by
  unfold marks ReportEntry.marks
  rw [hholds.read]
  simp only [List.any_map]
  rw [Bool.eq_iff_iff, List.any_eq_true, List.any_eq_true]
  refine exists_congr fun e => and_congr_right fun he => ?_
  show (decide (e.source.toString = file.toString) && e.processed) = true ↔ _
  rw [decide_eq_decide.2 (Path.toString_inj (hproper e he) hfile)]

/-- A report stays as it is when something happens elsewhere. -/
theorem Holds.frame {after : FileTree} {l : Location} {places : List Location}
    (hholds : Holds tree report entries) (hplace : tree.place? report = some l)
    (hframe : ChangesOnlyAt places tree after) (hl : l ∉ places) : Holds after report entries := by
  obtain ⟨l', hplace', hfile⟩ := FileTree.read_eq_ok_iff.1 hholds.content
  obtain rfl := Option.some.inj (hplace'.symm.trans hplace)
  exact ⟨FileTree.read_eq_ok_iff.2 ⟨l', hframe.place? hplace, hframe.file hl hfile⟩, hholds.fits⟩

/-! ## An update -/

theorem markFirst_rows (hapart : AreApart entries) (hfile : file ∈ entries.map (·.source))
    (date : String) :
    markFirst file.toString true date (entries.map (·.row)) =
      .ok (some ((markFile file date entries).map (·.row))) := by
  induction entries with
  | nil => cases hfile
  | cons e rest ih =>
      have he := hapart.proper e List.mem_cons_self
      obtain ⟨hnot, hdistinct⟩ := List.nodup_cons.1 hapart.distinct
      have hrest : AreApart rest :=
        ⟨fun other hother => hapart.proper other (List.mem_cons_of_mem e hother), hdistinct⟩
      by_cases hhere : e.source = file
      · subst hhere
        have hmarked : markFile e.source date (e :: rest) = ⟨e.file, true, date⟩ :: rest := by
          refine congrArg₂ List.cons (if_pos rfl) ?_
          exact ReportEntry.markFile_of_not_mem hnot
        rw [List.map_cons, markFirst_cons_of_for _ ((isFor_row_iff he he).2 rfl), hmarked]
        rfl
      · have hmem : file ∈ rest.map (·.source) :=
          (List.mem_cons.1 hfile).resolve_left fun hsame => hhere hsame.symm
        obtain ⟨other, hother, hsource⟩ := List.mem_map.1 hmem
        have hproper : file.IsProper := hsource ▸ hrest.proper other hother
        have hmarked : markFile file date (e :: rest) = e :: markFile file date rest :=
          congrArg₂ List.cons (if_neg hhere) rfl
        rw [List.map_cons, markFirst_cons_of_not rfl (mt (isFor_row_iff he hproper).1 hhere),
          ih hrest hmem, hmarked]
        rfl

/-- Rows that have been read replace those of the report. -/
theorem Holds.write {others : List ReportEntry} (hholds : Holds tree report entries)
    (hdirect : report.IsDirect) {l : Location} (hplace : tree.place? report = some l)
    (hne : others ≠ []) (hfits : ∀ e ∈ others, Csv.fits e.record = true) :
    ∃ written, (write tree (others.map (·.row)) report).value = (written, none) ∧
      ChangesOnlyAt [l] tree written ∧ Holds written report others := by
  have hrows : others.map (·.row) ≠ [] := fun hnil => hne (List.map_eq_nil_iff.1 hnil)
  have hneeded : ∀ row ∈ others.map (·.row), (row.get? "needs_processing").isSome = true := by
    intro row hrow
    obtain ⟨e, -, rfl⟩ := List.mem_map.1 hrow
    rfl
  have hrecords := recordsOf_entries (forall₂_reread others)
  obtain ⟨written, hwritten, hcontent⟩ := writeRows_of_read hholds.content (others.map (·.row))
  obtain ⟨places, hplaces, hchanges⟩ := writeRows_changesOnlyAt tree (others.map (·.row)) report
  have hframe : ChangesOnlyAt [l] tree (writeRows tree (others.map (·.row)) report).1 :=
    hchanges.mono fun l' hl' =>
      List.mem_singleton.2 (Option.some.inj ((hplaces l' hl').symm.trans hplace))
  rw [hrecords] at hwritten hcontent
  rw [hwritten] at hframe
  refine ⟨written, ?_, hframe, hcontent, hfits⟩
  rw [write_value hrows hneeded, FileTree.makeDirectories_parent_of_read hdirect hholds.content]
  exact hwritten

/-- **An update** of a report of planned files marks its file and nothing else, in the report and
nowhere else. -/
theorem Holds.update (hholds : Holds tree report entries) (hdirect : report.IsDirect)
    (hapart : AreApart entries) (hfile : file ∈ entries.map (·.source)) {now : Timestamp}
    (hnow : now.text.length ≤ Csv.fieldLimit) {l : Location}
    (hplace : tree.place? report = some l) :
    ∃ after, (update tree report file.toString true none now).value = (after, none) ∧
      ChangesOnlyAt [l] tree after ∧ Holds after report (markFile file now.text entries) := by
  have hne : markFile file now.text entries ≠ [] := by
    intro hnil
    rw [List.map_eq_nil_iff.1 hnil] at hfile
    cases hfile
  have hfits : ∀ e ∈ markFile file now.text entries, Csv.fits e.record = true := by
    intro e he
    obtain ⟨e', he', rfl⟩ := List.mem_map.1 he
    split
    · exact (ReportEntry.fits_record_iff _).2
        ⟨((ReportEntry.fits_record_iff e').1 (hholds.fits e' he')).1, hnow⟩
    · exact hholds.fits e' he'
  obtain ⟨written, hwrite, hframe, hafter⟩ := hholds.write hdirect hplace hne hfits
  refine ⟨written, ?_, hframe, hafter⟩
  have hdate : ((none : Option String).filter (· ≠ "")).getD now.text = now.text := rfl
  rw [update_of_read hholds.read, hdate, markFirst_rows hapart hfile]
  exact hwrite

/-! ## What is left -/

/-- The files that are there and not marked are left, in the order of the report. -/
theorem left_rows (hproper : ∀ e ∈ entries, e.source.IsProper)
    (hfound : ∀ e ∈ entries, ∃ found, tree.pathExists e.source = .ok found) :
    left tree (entries.map (·.row)) =
      .ok ((entries.filter fun e => tree.isThere e.source && !e.processed).map (·.source)) := by
  induction entries with
  | nil => rfl
  | cons e rest ih =>
      obtain ⟨found, hexists⟩ := hfound e List.mem_cons_self
      have hrest := ih (fun other hother => hproper other (List.mem_cons_of_mem e hother))
        fun other hother => hfound other (List.mem_cons_of_mem e hother)
      have hrow : IsMarked e.processed e.source e.row := ⟨rfl, rfl⟩
      have hthere : tree.isThere e.source = found := by
        unfold FileTree.isThere
        rw [hexists]
      rw [List.map_cons, left_cons, leftOf_eq hrow,
        Path.ofString_toString (hproper e List.mem_cons_self), hexists, hrest, List.filter_cons,
        hthere]
      cases found <;> cases e.processed <;> rfl

end Holding

end Report

end BroadcastIntake
