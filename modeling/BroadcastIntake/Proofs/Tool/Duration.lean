import BroadcastIntake.Proofs.FilterChain.Unbounded
import BroadcastIntake.Proofs.Json.Doubles
import BroadcastIntake.Proofs.Tool.Prober

/-!
# The duration that a report gives

A report is refused when its duration is not above zero, and so a duration that is taken is a
positive number, or infinite, or no number at all; the last two are taken exactly when the report
writes them (`ProbeInfo.usable_iff`).  What is taken is of double precision, as everything that is
read is (`ProbeInfo.isDouble_of_ofReport`), so the lengths in a chain are rounded from exact ones,
and a chain has a word for what is no finite number only where its cut or its fade out is without an
end (`ProbeInfo.chain_of_ofReport`).
-/

namespace BroadcastIntake

theorem Binary64.pos_of_not_le_zero {x : Binary64} (hx : x.isFinite = true) (hpos : ¬ x ≤ 0) :
    0 < x := by
  rw [le_iff_toRat hx isFinite_zero] at hpos
  exact (lt_iff_toRat isFinite_zero hx).2 (not_le.1 hpos)

namespace ProbeInfo

open FilterChain

variable {report : String} {info : ProbeInfo}

/-- The report writes a duration that is infinite or no number. -/
def WritesNonFinite (report : String) : Prop :=
  ∃ object members written duration, FormatMembers report object members ∧
    members.lookup "duration" = some written ∧ WritesDuration written duration ∧
    duration.isFinite = false

theorem exists_writesDuration (hread : ofReport report = .ok info) :
    ∃ object members written, FormatMembers report object members ∧
      members.lookup "duration" = some written ∧ WritesDuration written info.duration ∧
      ¬ info.duration ≤ 0 := by
  have hobject : ∃ object, Json.read report = .ok (.object object) := by
    rcases hvalue : readReport report with e | v
    · rw [ofReport_of_readReport hvalue] at hread
      cases hread
    · obtain ⟨object, -, hjson⟩ := readReport_eq_ok_iff.1 hvalue
      exact ⟨object, hjson⟩
  obtain ⟨object, hjson⟩ := hobject
  have hformat : ∃ members, object.lookup "format" = some (.object members) := by
    by_contra hnone
    rw [ofReport_of_no_members hjson hnone] at hread
    cases hread
  obtain ⟨members, hformat⟩ := hformat
  have hmembers : FormatMembers report object members := ⟨hjson, hformat⟩
  rcases hvalue : durationOf (members.lookup "duration") with e | duration
  · rw [ofReport_of_durationOf hmembers hvalue] at hread
    cases hread
  obtain ⟨written, hwritten, hduration⟩ := durationOf_eq_ok_iff.1 hvalue
  rw [ofReport_of_writesDuration hmembers hwritten hduration] at hread
  by_cases hpos : duration ≤ 0
  · rw [if_pos hpos] at hread
    cases hread
  · rw [if_neg hpos] at hread
    obtain ⟨streams, -, hread⟩ := Outcome.bind_eq_ok_iff.1 hread
    obtain ⟨format, -, hread⟩ := Outcome.bind_eq_ok_iff.1 hread
    rw [← Outcome.pure_eq_ok_iff.1 hread]
    exact ⟨object, members, written, hmembers, hwritten, hduration, hpos⟩

theorem isDouble_of_writesDuration {written : Json} {duration : Binary64}
    (hwritten : written.HasDoubles) (hduration : WritesDuration written duration) :
    duration.IsDouble := by
  cases hduration with
  | number =>
      cases hwritten with
      | float hvalue => exact hvalue
  | whole hi => exact Binary64.isDouble_of_ofInt? hi
  | flag b =>
      cases b with
      | false => exact Binary64.isDouble_ofNat 0
      | true => exact Binary64.isDouble_ofNat 1
  | text hs => exact isDouble_of_readBinary64 hs

/-- The duration that is taken from a report is a number of double precision. -/
theorem isDouble_of_ofReport (hread : ofReport report = .ok info) : info.duration.IsDouble := by
  obtain ⟨object, members, written, ⟨hjson, hformat⟩, hwritten, hduration, -⟩ :=
    exists_writesDuration hread
  have hmembers := (Json.hasDoubles_of_read hjson).of_lookup hformat
  exact isDouble_of_writesDuration (hmembers.of_lookup hwritten) hduration

/-- The duration that is taken from a report is finite and positive unless the report writes one
that is not finite. -/
theorem usable_iff (hread : ofReport report = .ok info) :
    (info.duration.isFinite = true ∧ 0 < info.duration) ↔ ¬ WritesNonFinite report := by
  obtain ⟨object, members, written, hmembers, hwritten, hduration, hpos⟩ :=
    exists_writesDuration hread
  constructor
  · rintro ⟨hfinite, -⟩ ⟨object', members', written', duration', hmembers', hwritten', hduration',
      hinfinite⟩
    obtain ⟨rfl, rfl⟩ := hmembers.unique hmembers'
    obtain rfl := Option.some.inj (hwritten.symm.trans hwritten')
    rw [← hduration.unique hduration', hfinite] at hinfinite
    cases hinfinite
  · intro hnot
    have hfinite : info.duration.isFinite = true := by
      by_contra hinfinite
      exact hnot ⟨object, members, written, info.duration, hmembers, hwritten, hduration,
        by simpa using hinfinite⟩
    exact ⟨hfinite, Binary64.pos_of_not_le_zero hfinite hpos⟩

/-- **A duration that is taken from a report** is finite and positive unless the report writes one
that is not finite.  With finite options a number of the chain for it is not finite exactly when the
length of the cut or the start of the fade out is not; and without trim points and fades below zero,
exactly when the duration is infinite and either a start is set without an end, or there is a fade
out and no end behind the start. -/
theorem chain_of_ofReport (hread : ofReport report = .ok info) :
    ((info.duration.isFinite = true ∧ 0 < info.duration) ↔ ¬ WritesNonFinite report) ∧
      ∀ (o : ProcessingOptions) (fadeIn fadeOut : Binary64) (source : String), o.IsFinite →
        fadeIn.isFinite = true → fadeOut.isFinite = true →
        ((∃ word ∈ nonFiniteWords, word ∈ (build o info fadeIn fadeOut source).value.words) ↔
          (∃ w, o.window? info.duration = some w ∧ w.length.isFinite = false) ∨
          (o.fadeOut = true ∧
            (fadeOutStart (o.outputDuration info.duration) fadeOut).isFinite = false)) ∧
        ((∀ x ∈ o.trimStart, 0 ≤ x) → (∀ x ∈ o.trimEnd, x.IsDouble) → 0 ≤ fadeOut →
          ((∃ word ∈ nonFiniteWords, word ∈ (build o info fadeIn fadeOut source).value.words) ↔
            info.duration = .infinity false ∧
              ((o.trimStart.isSome = true ∧ o.trimEnd = none) ∨
                (o.fadeOut = true ∧ ∀ stop ∈ o.trimEnd, ¬ o.cutStart < stop)))) := by
  obtain ⟨-, -, -, -, -, -, hpos⟩ := exists_writesDuration hread
  refine ⟨usable_iff hread, fun o fadeIn fadeOut source ho hfadeIn hfadeOut => ⟨?_, ?_⟩⟩
  · exact nonFinite_iff_of_isFinite ho hfadeIn hfadeOut
  · intro hstart hstop hnonneg
    exact nonFinite_iff_infinite ho hstart hstop hfadeIn hfadeOut hnonneg
      (isDouble_of_ofReport hread) hpos

end ProbeInfo

/-- The options that ask for nothing but a fade out. -/
def ProcessingOptions.fading : ProcessingOptions :=
  ⟨none, none, AudioSettings.passThroughFormat, none, none, none, false, true, [], none⟩

namespace ProbeInfo

open FilterChain

/-- A report of a recording without an end. -/
def endlessReport : String :=
  "\x7b\"format\": \x7b\"duration\": \"inf\"\x7d\x7d"

/-- The fade out of a recording without an end starts at no time. -/
theorem endless_chain :
    ofReport endlessReport = .ok ⟨.infinity false, none, 0, false⟩ ∧
      WritesNonFinite endlessReport ∧
      (∃ word ∈ nonFiniteWords, word ∈
        (build .fading ⟨.infinity false, none, 0, false⟩ defaultFade defaultFade "").value.words) ∧
      (build .fading ⟨.infinity false, none, 0, false⟩ defaultFade defaultFade "").value.filters =
        ["afade=t=out:st=inf:d=0.5"] := by
  have hread : ofReport endlessReport = .ok ⟨.infinity false, none, 0, false⟩ := by
    decide +kernel
  obtain ⟨husable, hchain⟩ := chain_of_ofReport hread
  have hoptions : ProcessingOptions.fading.IsFinite :=
    ⟨fun _ hx => (nomatch hx), fun _ hx => (nomatch hx), fun _ hx => (nomatch hx)⟩
  obtain ⟨-, hwords⟩ := hchain .fading defaultFade defaultFade "" hoptions (by decide +kernel)
    (by decide +kernel)
  refine ⟨hread, ?_, ?_, by decide +kernel⟩
  · by_contra hnot
    cases (husable.2 hnot).1
  · exact (hwords (fun _ hx => (nomatch hx)) (fun _ hx => (nomatch hx)) (by decide +kernel)).2
      ⟨rfl, .inr ⟨rfl, fun _ hx => (nomatch hx)⟩⟩

/-- A report of a duration that is no number. -/
def nanReport : String :=
  "\x7b\"format\": \x7b\"duration\": \"nan\"\x7d\x7d"

/-- A report is taken although its duration is no number. -/
theorem not_usable_of_ofReport :
    ¬ ∀ (report : String) (info : ProbeInfo), ofReport report = .ok info →
      info.duration.isFinite = true ∧ 0 < info.duration := by
  intro hall
  have hread : ofReport nanReport = .ok ⟨.nan, none, 0, false⟩ := by
    decide +kernel
  cases (hall _ _ hread).1

end ProbeInfo

end BroadcastIntake
