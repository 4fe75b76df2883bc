import BroadcastIntake.Batch.Stats

/-!
# Statistics count results

Adding results to statistics counts them by their class, and by nothing else (`addAll_eq`).  Hence
their order does not matter (`addAll_perm`), and of results that say one thing about themselves
every count is the number of results of its class (`counts_addAll`).
-/

namespace BroadcastIntake

/-- A result says one thing about itself: it failed, or it was copied in place of a transcode, or
transcoded, or just copied. -/
structure JobResult.Classed (r : JobResult) : Prop where
  terminal : r.state.isTerminal = true
  success : r.success = true ↔ r.state = .done
  fallback : r.usedFallback = true → r.success = true ∧ r.transcoded = false
  transcoded : r.transcoded = true → r.success = true

namespace JobResult

theorem classed_failure (history : List JobState) (warnings : List String) (error : String) :
    (failure history warnings error).Classed :=
  ⟨rfl, by simp [failure], nofun, nofun⟩

theorem classed_copied (history : List JobState) (warnings : List String) (output : Path) :
    (copied history warnings output).Classed :=
  ⟨rfl, by simp [copied], nofun, nofun⟩

theorem Classed.failed_iff {r : JobResult} (hr : r.Classed) :
    r.state = .failed ↔ r.success = false := by
  have hterminal := hr.terminal
  rw [JobState.isTerminal, Bool.or_eq_true, decide_eq_true_eq, decide_eq_true_eq] at hterminal
  rw [Bool.eq_false_iff, ne_eq, hr.success]
  rcases hterminal with hdone | hfailed
  · simp [hdone]
  · simp [hfailed]

end JobResult

namespace BatchStats

/-- Every count is the number of results of its class. -/
structure Counts (s : BatchStats) (results : List JobResult) : Prop where
  total : s.total = results.length
  processed : s.processed = results.length
  failed : s.failed = results.countP fun r => r.state = .failed
  fallback : s.fallback = results.countP fun r => r.usedFallback
  transcoded : s.transcoded = results.countP fun r => r.transcoded
  copied : s.copied = results.countP fun r =>
    r.state = .done && !r.usedFallback && !r.transcoded
  skipped : s.skipped = 0
  sum : s.transcoded + s.copied + s.fallback + s.failed + s.skipped = s.total

/-- Adding results counts them by the first of four questions that a result answers. -/
theorem addAll_eq (results : List JobResult) :
    ∀ s : BatchStats, s.addAll results =
      { s with
        processed := s.processed + results.length
        failed := s.failed + results.countP fun r => !r.success
        fallback := s.fallback + results.countP fun r => r.success && r.usedFallback
        transcoded := s.transcoded +
          results.countP fun r => r.success && !r.usedFallback && r.transcoded
        copied := s.copied +
          results.countP fun r => r.success && !r.usedFallback && !r.transcoded } := by
  induction results with
  | nil => intro s; simp [addAll]
  | cons r rest ih =>
      intro s
      have hrest := ih (s.add (some r))
      rw [addAll] at hrest ⊢
      rw [List.foldl_cons, hrest]
      rcases hsuccess : r.success with _ | _ <;> rcases hfallback : r.usedFallback with _ | _ <;>
        rcases htranscoded : r.transcoded with _ | _ <;>
        simp [add, hsuccess, hfallback, htranscoded] <;> omega

/-- The order in which results are added does not matter. -/
theorem addAll_perm {results others : List JobResult} (hperm : results.Perm others)
    (s : BatchStats) : s.addAll results = s.addAll others := by
  simp only [addAll_eq, hperm.length_eq, hperm.countP_eq]

/-- Every result answers exactly one of the four questions. -/
theorem countP_classes (results : List JobResult) :
    results.countP (fun r => !r.success) +
        results.countP (fun r => r.success && r.usedFallback) +
        results.countP (fun r => r.success && !r.usedFallback && r.transcoded) +
        results.countP (fun r => r.success && !r.usedFallback && !r.transcoded) =
      results.length := by
  induction results with
  | nil => rfl
  | cons r rest ih =>
      simp only [List.countP_cons, List.length_cons]
      rcases r.success with _ | _ <;> rcases r.usedFallback with _ | _ <;>
        rcases r.transcoded with _ | _ <;> simp <;> omega

theorem counts_addAll {results : List JobResult} (hclassed : ∀ r ∈ results, r.Classed) :
    ((ofTotal results.length).addAll results).Counts results := by
  have hfailed : results.countP (fun r => decide (r.state = .failed)) =
      results.countP fun r => !r.success :=
    List.countP_congr fun r hr => by simp [(hclassed r hr).failed_iff]
  have hfallback : results.countP (fun r => r.usedFallback) =
      results.countP fun r => r.success && r.usedFallback := by
    refine List.countP_congr fun r hr => ?_
    have hsuccess := (hclassed r hr).fallback
    simp only [Bool.and_eq_true]
    exact ⟨fun h => ⟨(hsuccess h).1, h⟩, fun h => h.2⟩
  have htranscoded : results.countP (fun r => r.transcoded) =
      results.countP fun r => r.success && !r.usedFallback && r.transcoded := by
    refine List.countP_congr fun r hr => ?_
    have hsuccess := (hclassed r hr).transcoded
    have hother := (hclassed r hr).fallback
    rcases hused : r.usedFallback with _ | _
    · simpa using hsuccess
    · simp [(hother hused).2]
  have hcopied :
      results.countP (fun r => decide (r.state = .done) && !r.usedFallback && !r.transcoded) =
        results.countP fun r => r.success && !r.usedFallback && !r.transcoded := by
    refine List.countP_congr fun r hr => ?_
    simp [(hclassed r hr).success]
  have hclasses := countP_classes results
  rw [addAll_eq]
  constructor <;> simp only [ofTotal, hfailed, hfallback, htranscoded, hcopied] <;> omega

end BatchStats

end BroadcastIntake
