import BroadcastIntake.Proofs.Job.Course
import BroadcastIntake.Proofs.Plan.Output
import BroadcastIntake.Proofs.Plan.Prediction

/-!
# When a file is answered

A file of a show is answered when its job ends with a result: done, or failed with an error that
says why.  Whatever is wrong with the file becomes such a result, and so does whatever the file
system refuses, as long as the prober, the transcoder and the copier answer themselves.  Three
things do not (`FileJob.BreaksDown`):

* the path of the file is too long to be looked at;
* the pattern that reads its name is empty, and its stem is a line end, which the empty pattern
  matches without any confidence;
* a null character stands in the path of the output.

Nothing else is in the way.  A date is put together or left out (`Extraction.exists_date?`), an
output has a name that can be numbered (`Plan.name_output_ne_empty`), and a path that was reserved
has no null character (`OutputFile.hasNull_of_reserve`), so that the job for it ends with a result
(`Collaborators.ending_run`).
-/

namespace BroadcastIntake

/-! ## Reading the name -/

namespace Plan

variable {source : Path} {profile : ShowProfile} {settings : Settings} {asked : Option Path}
  {today : BroadcastDate}

/-- The plan for a file with a suffix is only missing when the empty pattern is to read a stem that
is a line end. -/
theorem ofFile_eq_error_iff (hprofile : profile.IsCompiled) (hsuffix : source.suffix ≠ "") :
    (∃ crash, (ofFile source profile settings asked today).value = .error crash) ↔
      ∃ fp, (patternFor source profile).value = some fp ∧ fp.pattern.source = "" ∧
        source.stem = "\n" := by
  rw [value_ofFile]
  rcases hpattern : (patternFor source profile).value with _ | fp
  · refine iff_of_false ?_ ?_
    · rintro ⟨_, ⟨⟩⟩
    · rintro ⟨_, ⟨⟩, -⟩
  · have hcompiled : Pattern.compile fp.pattern.source = .ok fp.pattern :=
      hprofile fp (mem_of_patternFor hpattern)
    have hiff := Extraction.ofPath_eq_error_iff hcompiled hsuffix
    rcases hread : Extraction.ofPath fp.pattern source with issues | e
    · simp [extractionBy, hread, Except.bind, hiff.1 ⟨issues, hread⟩]
    · obtain ⟨date, hdate⟩ := Extraction.exists_date? hread
      have hread' : ¬ ∃ issues, Extraction.ofPath fp.pattern source = .error issues := by
        rw [hread]
        rintro ⟨_, ⟨⟩⟩
      have hnot := mt hiff.2 hread'
      simp [extractionBy, hread, Except.bind, value_dateIn hdate, hnot]

end Plan

/-! ## Reserving the output -/

namespace FileTree

/-- Looking for a file only fails when its path is too long. -/
theorem isFile_eq_error_iff {tree : FileTree} {path : Path} {e : FileError} :
    tree.isFile path = .error e ↔
      tree.locate path = .error .nameTooLong ∧ e = ⟨.nameTooLong, path.toString⟩ := by
  unfold isFile stat?
  rcases tree.locate path with fault | ⟨place, found⟩
  · cases fault <;> simp [Except.map, eq_comm]
  · simp [Except.map]

theorem not_long_of_isFile {tree : FileTree} {path : Path} {there : Bool}
    (hfile : tree.isFile path = .ok there) : tree.locate path ≠ .error .nameTooLong := by
  intro hlong
  rw [isFile_eq_error_iff.2 ⟨hlong, rfl⟩] at hfile
  cases hfile

end FileTree

namespace OutputFile

variable {tree : FileTree} {path : Path}

theorem hasNull_of_reserve {reserved : FileTree} {found : Path}
    (hreserve : (reserve tree path).value = (reserved, .ok found)) : found.hasNull = false := by
  obtain ⟨place, hplace⟩ := reserve_ok hreserve
  exact FileTree.hasNull_of_place? hplace.place?

/-- The numbered siblings of a path have no null character that the path does not have. -/
theorem hasNull_candidate (hname : path.name ≠ "") (hnull : path.hasNull = false) (n : Nat) :
    (candidate path n).hasNull = false := by
  unfold candidate
  split
  · exact hnull
  · have hall := List.any_eq_false.1 hnull
    have hlast : path.name ∈ path.names := by
      unfold Path.name at hname ⊢
      rcases hlast : path.names.getLast? with _ | last
      · rw [hlast] at hname
        exact absurd rfl hname
      · exact List.mem_of_getLast? hlast
    have hchars : '\x00' ∉ path.name.toList := by simpa using hall path.name hlast
    rw [← path.stem_append_suffix, String.toList_append, List.mem_append, not_or] at hchars
    have hdigits : '\x00' ∉ Nat.toDigits 10 n := fun hmem =>
      absurd (Nat.isDigit_of_mem_toDigits (by decide) (by decide) hmem) (by decide)
    refine List.any_eq_false.2 fun name hmem => ?_
    rcases List.mem_append.1 hmem with hmem | hmem
    · exact hall name (List.mem_of_mem_dropLast hmem)
    · rw [List.mem_singleton.1 hmem]
      change ¬ (path.stem ++ "_" ++ Nat.repr n ++ path.suffix).toList.contains '\x00' = true
      simp [hchars.1, hchars.2, hdigits]

/-- A claim for a path that has a name and no null character does not crash. -/
theorem claim_ne_crash (hname : path.name ≠ "") (hnull : path.hasNull = false) (left : Nat) :
    ∀ {n : Nat} {crash : Crash}, claim tree path n left ≠ .error (.crash crash) := by
  induction left with
  | zero => exact nofun
  | succ left ih =>
      intro n crash hclaim
      unfold claim at hclaim
      split at hclaim
      · cases hclaim
      · rename_i e hmade
        rw [if_neg hname] at hclaim
        split at hclaim
        · exact ih hclaim
        · rename_i hother
          have hsystem : e.fault.isSystem = true := by
            rcases FileTree.createNew_eq_error hmade with ⟨-, htaken⟩ | hlocate
            · exact absurd htaken hother
            · exact FileTree.isSystem_of_locate (hasNull_candidate hname hnull n) hlocate
          rw [faultOr, if_pos hsystem] at hclaim
          cases hclaim

/-- A reservation of a path that has a name crashes exactly when a null character is met: above the
output, or in its own name once the directories above it are there. -/
theorem reserve_crashes_iff (hname : path.name ≠ "") :
    (∃ left crash, (reserve tree path).value = (left, .error (.crash crash))) ↔
      path.parent.hasNull = true ∨
        path.hasNull = true ∧ (tree.makeDirectories path.parent).2 = none := by
  rw [value_reserve]
  rcases hmade : tree.makeDirectories path.parent with ⟨made, _ | e⟩
  · have hparent : path.parent.hasNull = false := by
      by_contra hnull
      rw [FileTree.makeDirectories_of_hasNull (Bool.not_eq_false _ ▸ hnull)] at hmade
      cases hmade
    rcases hnull : path.hasNull with _ | _
    · have hclaim := @claim_ne_crash made path hname hnull maxCandidates 0
      refine iff_of_false ?_ (by simp [hparent])
      rintro ⟨left, crash, hcrash⟩
      dsimp only at hcrash
      split at hcrash
      · rename_i e hclaimed
        obtain rfl : e = CopyError.crash crash := Except.error.inj (congrArg Prod.snd hcrash)
        exact hclaim hclaimed
      · simp at hcrash
    · have hcreate : made.createNew (candidate path 0) =
          .error ⟨.nullCharacter, path.toString⟩ := by
        simp [candidate, FileTree.createNew, FileTree.locate, hnull]
      have hclaim : claim made path 0 maxCandidates =
          .error (.crash (.file ⟨.nullCharacter, path.toString⟩)) := by
        rw [show maxCandidates = 999 + 1 from rfl, claim, hcreate]
        rfl
      simp [hclaim]
  · rcases hparent : path.parent.hasNull with _ | _
    · have hsystem := FileTree.isSystem_of_makeDirectories hparent hmade
      simp [faultOr, hsystem]
    · rw [FileTree.makeDirectories_of_hasNull hparent] at hmade
      obtain ⟨rfl, he⟩ := Prod.mk.inj hmade
      obtain rfl := Option.some.inj he
      simp [faultOr, FileFault.isSystem]

end OutputFile

/-! ## The run for a file -/

/-- The result of a job in one of its two ends: done with success, or failed with an error. -/
structure JobResult.IsAnswer (r : JobResult) : Prop where
  ended : r.state = .done ∨ r.state = .failed
  success : r.success = true ↔ r.state = .done
  error : r.state = .failed → r.error.isSome = true

namespace FileJob

/-- What a file of a show breaks down at. -/
inductive BreaksDown (c : ShowContext) (source : Path) (tree : FileTree) : Prop
  /-- A file with an extension that is taken has too long a path. -/
  | lookup (hextension : c.settings.extensions.contains (Text.lower source.suffix) = true)
      (hlong : tree.locate source = .error .nameTooLong)
  /-- The empty pattern is to read a stem that is a line end. -/
  | reading (htaken : checkSource c source tree = .ok ()) (fp : FilePattern)
      (hpattern : (Plan.patternFor source c.profile).value = some fp)
      (hempty : fp.pattern.source = "") (hstem : source.stem = "\n")
  /-- A null character is met where the output is to be made. -/
  | reserving (htaken : checkSource c source tree = .ok ()) (plan : Plan)
      (hplan : (Plan.ofFile source c.profile c.settings c.outputDirectory c.today).value =
        .ok plan)
      (hnull : plan.output.parent.hasNull = true ∨
        plan.output.hasNull = true ∧ (tree.makeDirectories plan.output.parent).2 = none)

variable {c : ShowContext} {source : Path} {tree : FileTree}

theorem checkSource_eq_crash_iff {crash : Crash} :
    checkSource c source tree = .error (.crash crash) ↔
      c.settings.extensions.contains (Text.lower source.suffix) = true ∧
        tree.locate source = .error .nameTooLong ∧
          crash = .file ⟨.nameTooLong, source.toString⟩ := by
  unfold checkSource
  dsimp only
  split
  · rename_i hother
    refine iff_of_false nofun fun h => ?_
    rw [h.1] at hother
    cases hother
  · rename_i htaken
    rw [Bool.not_eq_true, Bool.not_eq_false'] at htaken
    rw [htaken]
    rcases hfile : tree.isFile source with e | (_ | _)
    · obtain ⟨hlong, rfl⟩ := FileTree.isFile_eq_error_iff.1 hfile
      simp only [hlong, true_and, Except.error.injEq, PrepareError.crash.injEq]
      exact eq_comm
    · simp [FileTree.not_long_of_isFile hfile]
    · simp [FileTree.not_long_of_isFile hfile]

/-- The output of a job that starts has no null character. -/
theorem hasNull_of_prepare {left : FileTree} {job : Job}
    (hprepare : (prepare c source tree).value = (left, .ok job)) : job.output.hasNull = false := by
  obtain ⟨plan, output, -, hreserved, rfl⟩ :=
    reserve_eq_ok_iff.1 (prepare_eq_ok_iff.1 hprepare).2
  exact OutputFile.hasNull_of_reserve hreserved

/-- A file that is not taken on crashes exactly when it breaks down. -/
theorem prepare_crashes_iff_of_error {e : PrepareError}
    (hcheck : checkSource c source tree = .error e) :
    (∃ left crash, (prepare c source tree).value = (left, .error (.crash crash))) ↔
      BreaksDown c source tree := by
  have hprepare : (prepare c source tree).value = (tree, .error e) := by
    simp [prepare, hcheck]
  rw [hprepare]
  constructor
  · rintro ⟨left, crash, hcrash⟩
    obtain rfl : e = .crash crash := Except.error.inj (congrArg Prod.snd hcrash)
    obtain ⟨hextension, hlong, -⟩ := checkSource_eq_crash_iff.1 hcheck
    exact .lookup hextension hlong
  · intro hbreaks
    cases hbreaks with
    | lookup hextension hlong =>
        have hcrash := checkSource_eq_crash_iff.2 ⟨hextension, hlong, rfl⟩
        rw [hcheck] at hcrash
        obtain rfl := Except.error.inj hcrash
        exact ⟨tree, _, rfl⟩
    | reading htaken => rw [hcheck] at htaken; cases htaken
    | reserving htaken => rw [hcheck] at htaken; cases htaken

/-- A file with a plan crashes exactly when its output cannot be reserved for a null character. -/
theorem reserve_crashes_iff_of_plan (hsource : source.IsProper)
    (hextension : c.settings.extensions.contains (Text.lower source.suffix) = true) {plan : Plan}
    (hplan : (Plan.ofFile source c.profile c.settings c.outputDirectory c.today).value =
      .ok plan) :
    (∃ left crash, (reserve c source tree).value = (left, .error (.crash crash))) ↔
      plan.output.parent.hasNull = true ∨
        plan.output.hasNull = true ∧ (tree.makeDirectories plan.output.parent).2 = none := by
  rw [← OutputFile.reserve_crashes_iff (Plan.name_output_ne_empty hsource hextension hplan)]
  rcases hreserved : (OutputFile.reserve tree plan.output).value with
    ⟨reserved, (fault | crash) | output⟩ <;> simp [reserve, hplan, hreserved]

/-- A file crashes before its job starts exactly when it breaks down. -/
theorem prepare_crashes_iff (hprofile : c.profile.IsCompiled) (hsource : source.IsProper) :
    (∃ left crash, (prepare c source tree).value = (left, .error (.crash crash))) ↔
      BreaksDown c source tree := by
  rcases hcheck : checkSource c source tree with e | _
  · exact prepare_crashes_iff_of_error hcheck
  · have hprepare : (prepare c source tree).value = (reserve c source tree).value := by
      simp [prepare, hcheck]
    obtain ⟨hextension, hfile⟩ := checkSource_eq_ok_iff.1 hcheck
    have hread := @Plan.ofFile_eq_error_iff source c.profile c.settings c.outputDirectory c.today
      hprofile (Settings.suffix_ne_empty hextension)
    rw [hprepare]
    rcases hplan : (Plan.ofFile source c.profile c.settings c.outputDirectory c.today).value with
      crash | plan
    · obtain ⟨fp, hpattern, hempty, hstem⟩ := hread.1 ⟨crash, hplan⟩
      exact iff_of_true ⟨tree, crash, by simp [reserve, hplan]⟩
        (.reading hcheck fp hpattern hempty hstem)
    · rw [reserve_crashes_iff_of_plan hsource hextension hplan]
      constructor
      · exact .reserving hcheck plan hplan
      · -- a file with a plan was found and read, so only the null character is left
        intro hbreaks
        cases hbreaks with
        | lookup _ hlong => exact absurd hlong (FileTree.not_long_of_isFile hfile)
        | reading _ fp hpattern hempty hstem =>
            obtain ⟨crash, hcrash⟩ := hread.2 ⟨fp, hpattern, hempty, hstem⟩
            rw [hplan] at hcrash
            cases hcrash
        | reserving _ other hother hnull =>
            rw [hplan] at hother
            obtain rfl := Except.ok.inj hother
            exact hnull

end FileJob

namespace JobRun

/-- Settling a job changes nothing about how it ends. -/
theorem ending_runFor_step (reply : Replier) (cancels : Bool) (n : Nat) :
    ∀ (progress : JobProgress) (tree : FileTree) (calls : List ToolCall),
      (runFor reply FileJob.step cancels n progress tree calls).value.ending =
        (runFor reply WaitingJob.step cancels n progress tree calls).value.ending := by
  induction n with
  | zero =>
      intro progress tree calls
      cases progress <;> rfl
  | succ n ih =>
      intro progress tree calls
      cases progress with
      | ended ending => rw [runFor_ended, runFor_ended]
      | waits w =>
          have hstep : ∀ (event : JobEvent) (left : FileTree) (calls : List ToolCall),
              (runFor reply FileJob.step cancels n (FileJob.step w event left).value.2
                (FileJob.step w event left).value.1 calls).value.ending =
              (runFor reply WaitingJob.step cancels n (w.step event left).value.2
                (w.step event left).value.1 calls).value.ending := by
            intro event left calls
            rcases hprogress : (w.step event left).value with ⟨changed, next | ending⟩
            · rw [FileJob.step_of_waits hprogress]
              exact ih _ _ _
            · rw [FileJob.progress_step, hprogress, runFor_ended, runFor_ended]
          simp only [runFor, Logged.value_bind]
          rcases (reply w tree).value.event with _ | event
          · cases cancels with
            | true => exact hstep .cancelled _ _
            | false => rfl
          · exact hstep event _ _

end JobRun

namespace Collaborators

/-- The run for a file of a show whose job nobody cancels. -/
def runFile (workers : Collaborators) (c : ShowContext) (source : Path) (tree : FileTree) :
    JobRun :=
  let (prepared, progress) := (FileJob.start c source tree).value
  (JobRun.runFor workers.reply FileJob.step false JobRun.stepLimit progress prepared []).value

variable {workers : Collaborators} {c : ShowContext} {source : Path} {tree left : FileTree}

/-- The job for a file that is taken on ends like the job on its own. -/
theorem ending_runFile_of_job {job : Job}
    (hprepare : (FileJob.prepare c source tree).value = (left, .ok job)) :
    (workers.runFile c source tree).ending = (workers.run job left).ending := by
  have hstart : (FileJob.start c source tree).value = (left, .waits job.start.value) := by
    simp [FileJob.start, hprepare]
  rw [runFile, hstart]
  exact JobRun.ending_runFor_step workers.reply false JobRun.stepLimit _ _ _

theorem ending_runFile_of_refusal {refusal : FileJob.Refusal}
    (hprepare : (FileJob.prepare c source tree).value = (left, .error (.refused refusal))) :
    (workers.runFile c source tree).ending =
      some (.finished (.refused refusal.message)) := by
  have hstart : (FileJob.start c source tree).value =
      (left, .ended (.finished (.refused refusal.message))) := by
    simp [FileJob.start, hprepare]
  rw [runFile, hstart]
  exact congrArg JobRun.ending (JobRun.runFor_ended _ _ _ _ _ _ _)

theorem ending_runFile_of_crash {crash : Crash}
    (hprepare : (FileJob.prepare c source tree).value = (left, .error (.crash crash))) :
    (workers.runFile c source tree).ending = some (.crashed crash) := by
  have hstart : (FileJob.start c source tree).value = (left, .ended (.crashed crash)) := by
    simp [FileJob.start, hprepare]
  rw [runFile, hstart]
  exact congrArg JobRun.ending (JobRun.runFor_ended _ _ _ _ _ _ _)

/-- The result of a job is an answer. -/
theorem isAnswer_result (workers : Collaborators) (job : Job) (tree : FileTree) :
    (workers.result job tree).IsAnswer := by
  unfold result
  rcases job.transcodes with _ | _
  · rcases workers.copied job tree with text | _ <;> constructor <;>
      simp [JobResult.copied, JobResult.failure]
  · rcases (workers.transcoded job tree).2 with failure | _
    · rcases workers.copied job tree with text | _ <;> constructor <;>
        simp [JobResult.copied, JobResult.failure]
    · constructor <;> simp [JobResult.copied]

/-- **A file is answered** unless it breaks down.  Whatever the prober, the transcoder and the
copier do for a file of a show that passed its checks, its run ends with a result that is done, or
failed with an error, exactly when the file does not break down. -/
theorem runFile_answers_iff (workers : Collaborators) {c : ShowContext} {record : Json}
    (hprofile : ShowProfile.check record = .valid c.profile) {source : Path}
    (hsource : source.IsProper) (tree : FileTree) :
    (∃ result, (workers.runFile c source tree).ending = some (.finished result) ∧
        result.IsAnswer) ↔
      ¬ FileJob.BreaksDown c source tree := by
  have hiff := @FileJob.prepare_crashes_iff c source tree
    (ShowProfile.isCompiled_of_check hprofile) hsource
  rcases hprepare : (FileJob.prepare c source tree).value with ⟨left, (refusal | crash) | job⟩
  · refine iff_of_true ⟨_, ending_runFile_of_refusal hprepare, ?_⟩ (hiff.not.1 ?_)
    · exact ⟨.inr rfl, by simp [JobResult.refused, JobResult.failure], fun _ => rfl⟩
    · rw [hprepare]
      rintro ⟨_, _, ⟨⟩⟩
  · refine iff_of_false ?_ (not_not.2 (hiff.1 ⟨left, crash, hprepare⟩))
    rintro ⟨result, hending, -⟩
    rw [ending_runFile_of_crash hprepare] at hending
    cases hending
  · refine iff_of_true ⟨workers.result job left, ?_, isAnswer_result workers job left⟩
      (hiff.not.1 ?_)
    · rw [ending_runFile_of_job hprepare]
      exact ending_run fun _ => FileTree.hasNull_parent (FileJob.hasNull_of_prepare hprepare)
    · rw [hprepare]
      rintro ⟨_, _, ⟨⟩⟩

/-- Those who do everything that they are asked for, and leave no trace. -/
def obliging : Collaborators where
  probe := fun _ tree => (tree, ⟨60, none, 1, false⟩)
  transcode := fun _ _ _ tree => (tree, .ok ())
  copy := fun _ _ tree => (tree, .ok ())

/-- A tree with one recording in it. -/
def recordingAlone : FileTree :=
  ⟨[], [(["a.wav"], .file ⟨#[1]⟩)]⟩

/-- A recording of a show that says nothing but its name is answered. -/
theorem recording_is_answered :
    ShowProfile.check (.object [("name", .str "Show")]) = .valid (.named "Show") ∧
      ∃ result, (obliging.runFile (.named "Show") ⟨0, ["a.wav"]⟩ recordingAlone).ending =
          some (.finished result) ∧ result.IsAnswer := by
  have hprofile : ShowProfile.check (.object [("name", .str "Show")]) =
      .valid (.named "Show") := rfl
  have hproper : Path.IsProper ⟨0, ["a.wav"]⟩ :=
    ⟨by decide, List.forall_mem_singleton.2 ⟨by decide, by decide, by decide⟩⟩
  refine ⟨hprofile, (runFile_answers_iff obliging (c := .named "Show") hprofile hproper
    recordingAlone).2 fun hbreaks => ?_⟩
  cases hbreaks with
  | lookup _ hlong =>
      have hfile : recordingAlone.isFile ⟨0, ["a.wav"]⟩ = .ok true := rfl
      exact FileTree.not_long_of_isFile hfile hlong
  | reading _ fp hpattern => cases hpattern
  | reserving _ plan hplan hnull =>
      rw [Plan.ofFile_of_no_patterns rfl] at hplan
      rw [← Except.ok.inj hplan] at hnull
      revert hnull
      decide +kernel

/-- Not every file is answered, even if all that work for it answer: a show may have a null
character in its name. -/
theorem not_runFile_finishes :
    ¬ ∀ (workers : Collaborators) (c : ShowContext) (record : Json),
      ShowProfile.check record = .valid c.profile →
      ∀ (source : Path), source.IsProper → ∀ tree,
        ∃ result, (workers.runFile c source tree).ending = some (.finished result) := by
  intro hall
  let source : Path := ⟨0, ["a.wav"]⟩
  have hprofile : ShowProfile.check (.object [("name", .str "Show\x00")]) =
      .valid (.named "Show\x00") := rfl
  have hproper : source.IsProper :=
    ⟨by decide, List.forall_mem_singleton.2 ⟨by decide, by decide, by decide⟩⟩
  have hbreaks : FileJob.BreaksDown (.named "Show\x00") source recordingAlone :=
    .reserving (FileJob.checkSource_eq_ok_iff.2 ⟨by decide +kernel, rfl⟩) _
      (Plan.ofFile_of_no_patterns rfl) (.inr ⟨by decide +kernel, by decide +kernel⟩)
  obtain ⟨left, crash, hprepare⟩ :=
    (FileJob.prepare_crashes_iff (ShowProfile.isCompiled_of_check hprofile) hproper).2 hbreaks
  obtain ⟨result, hending⟩ := hall obliging (.named "Show\x00") _ hprofile source hproper
    recordingAlone
  rw [ending_runFile_of_crash hprepare] at hending
  cases hending

end Collaborators

end BroadcastIntake
