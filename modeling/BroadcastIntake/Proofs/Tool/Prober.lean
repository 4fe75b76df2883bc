import BroadcastIntake.Proofs.Number.Nearest
import BroadcastIntake.Proofs.Outcome
import BroadcastIntake.Tool.Prober

/-!
# What a prober's report is taken for

A report *says* something about a file (`ProbeInfo.SaidBy`) when it is an object whose `format` is
an object with a positive duration, and when the name of the format and the list of streams are of
their kinds wherever they are given.  Whatever else a prober prints, and however else it ends, its
fixed duration should be assumed.

* `ofReport_of_saidBy`: what a report says is read from it;
* `Misread`: the reports on which the two part, because they break the reader off or because it
  takes them although they say nothing; none of them counts as a failure of the prober
  (`Misread.ofReport_ne_fault`);
* `ofReport_of_unsaid`: every other report that says nothing counts as a failure of the prober.

`Prober.judge_tells_iff` puts the three together over all endings of a prober.
-/

namespace BroadcastIntake

namespace ProbeInfo

/-! ## What a report says -/

/-- A value writes a duration: as a number, as a flag, or as the text of a number. -/
inductive WritesDuration : Json → Binary64 → Prop
  | number (d : Binary64) : WritesDuration (.float d) d
  | whole {i : Int} {d : Binary64} (hi : Binary64.ofInt? i = some d) : WritesDuration (.int i) d
  | flag (b : Bool) : WritesDuration (.bool b) (if b then 1 else 0)
  | text {s : String} {d : Binary64} (hs : readBinary64 s = .ok d) : WritesDuration (.str s) d

/-- What stands for the name of a format names one, or says that there is none. -/
inductive NamesFormat : Option Json → Option String → Prop
  | absent : NamesFormat none none
  | null : NamesFormat (some .null) none
  | name (s : String) : NamesFormat (some (.str s)) (some s)

/-- What stands for the streams is a list of them, or says that there are none. -/
inductive ListsStreams : Option Json → Nat → Prop
  | absent : ListsStreams none 0
  | null : ListsStreams (some .null) 0
  | list (items : List Json) : ListsStreams (some (.list items)) items.length

/-- The members of a report's `format`, when the report is an object and `format` is one too. -/
def FormatMembers (report : String) (object members : List (String × Json)) : Prop :=
  Json.read report = .ok (.object object) ∧ object.lookup "format" = some (.object members)

/-- A report says what is known about a file. -/
inductive SaidBy (report : String) : ProbeInfo → Prop
  | intro {object members : List (String × Json)} {written : Json} {duration : Binary64}
      {format : Option String} {streams : Nat}
      (hmembers : FormatMembers report object members)
      (hwritten : members.lookup "duration" = some written)
      (hduration : WritesDuration written duration) (hpos : 0 < duration)
      (hformat : NamesFormat (members.lookup "format_name") format)
      (hstreams : ListsStreams (object.lookup "streams") streams) :
      SaidBy report ⟨duration, format, streams, false⟩

/-- The errors of reading JSON that are not counted as failures of the prober: those that come from
the size of the text, not from its grammar. -/
def BeyondLimits (e : JsonError) : Prop :=
  e.fault.isSyntactic = false

/-- A report is misread. -/
inductive Misread (report : String) : Prop
  | beyondLimits {e : JsonError} (hread : Json.read report = .error e) (he : BeyondLimits e)
  | durationTooLarge {object members : List (String × Json)} {i : Int}
      (hmembers : FormatMembers report object members)
      (hwritten : members.lookup "duration" = some (.int i)) (hi : Binary64.ofInt? i = none)
  | illTyped {object members : List (String × Json)} {written : Json} {duration : Binary64}
      (hmembers : FormatMembers report object members)
      (hwritten : members.lookup "duration" = some written)
      (hduration : WritesDuration written duration) (hpos : ¬ duration ≤ 0)
      (hill : ¬ (0 < duration ∧ (∃ format, NamesFormat (members.lookup "format_name") format) ∧
        ∃ streams, ListsStreams (object.lookup "streams") streams))

/-! ## Reading the parts of a report -/

theorem durationOf_eq_ok_iff {v : Option Json} {d : Binary64} :
    durationOf v = .ok d ↔ ∃ written, v = some written ∧ WritesDuration written d := by
  constructor
  · intro h
    unfold durationOf at h
    split at h
    · exact ⟨_, rfl, Except.ok.inj h ▸ .number _⟩
    · next i =>
      cases hi : Binary64.ofInt? i with
      | none => simp [hi] at h
      | some x => exact ⟨_, rfl, .whole (by simpa [hi] using h)⟩
    · exact ⟨_, rfl, Except.ok.inj h ▸ .flag _⟩
    · split at h
      · next hs => exact ⟨_, rfl, .text (by rw [hs, Except.ok.inj h])⟩
      · simp at h
    · simp at h
  · rintro ⟨written, rfl, hw⟩
    cases hw with
    | number => simp only [durationOf]
    | whole hi => simp [durationOf, hi]
    | flag => simp only [durationOf]
    | text hs => simp only [durationOf, hs]

/-- A duration that is not read is a failure of the prober, or a whole number that is too large. -/
theorem durationOf_eq_error {v : Option Json} {e : ProbeError} (h : durationOf v = .error e) :
    e = .fault .noDuration ∨
      e = .durationTooLarge ∧ ∃ i, v = some (.int i) ∧ Binary64.ofInt? i = none := by
  unfold durationOf at h
  split at h
  · simp at h
  · next i =>
    cases hi : Binary64.ofInt? i with
    | none => exact .inr ⟨by simpa [hi, eq_comm] using h, i, rfl, hi⟩
    | some x => simp [hi] at h
  · simp at h
  · split at h
    · simp at h
    · exact .inl (by simpa [eq_comm] using h)
  · exact .inl (by simpa [eq_comm] using h)

theorem formatOf_eq_ok_iff {v : Option Json} {format : Option String} :
    formatOf v = .ok format ↔ NamesFormat v format := by
  constructor
  · intro h
    rcases v with _ | v
    · exact Except.ok.inj h ▸ .absent
    · cases v with
      | null => exact Except.ok.inj h ▸ .null
      | str s => exact Except.ok.inj h ▸ .name s
      | _ => cases h
  · intro h
    cases h <;> rfl

theorem formatOf_ne_fault {v : Option Json} {f : ProbeFault} : formatOf v ≠ .error (.fault f) := by
  unfold formatOf
  split <;> simp

theorem streamCountOf_of_listsStreams {v : Option Json} {n : Nat} (h : ListsStreams v n) :
    streamCountOf v = .ok n := by
  cases h <;> rfl

theorem streamCountOf_ne_fault {v : Option Json} {f : ProbeFault} :
    streamCountOf v ≠ .error (.fault f) := by
  unfold streamCountOf
  split <;> try split
  all_goals simp

theorem readReport_eq_ok_iff {report : String} {v : Json} :
    readReport report = .ok v ↔
      ∃ object, v = .object object ∧ Json.read report = .ok (.object object) := by
  unfold readReport
  split
  · next object hread => simp [hread, eq_comm]
  · next v' hv hread =>
    simp only [reduceCtorEq, hread, Except.ok.injEq, false_iff, not_exists, not_and]
    rintro object - rfl
    exact hv object rfl
  · next e hread => split <;> simp [hread]

/-- A report that is not read as an object is a failure of the prober, unless it is too large. -/
theorem readReport_eq_error {report : String} {e : ProbeError} (h : readReport report = .error e) :
    (∃ f, e = .fault f) ↔ ¬ ∃ error, Json.read report = .error error ∧ BeyondLimits error := by
  unfold readReport at h
  split at h
  · cases h
  · next hread => cases h; simp [hread]
  · next error hread =>
    simp only [hread, Except.error.injEq, exists_eq_left', BeyondLimits]
    split at h <;> cases h <;> simp_all [JsonFault.isSyntactic]

/-! ## Reading a whole report -/

variable {report : String} {object members : List (String × Json)} {written : Json}
  {duration : Binary64}

theorem WritesDuration.unique {d : Binary64} (h : WritesDuration written duration)
    (h' : WritesDuration written d) : duration = d := by
  have hread := durationOf_eq_ok_iff.2 ⟨written, rfl, h⟩
  rw [durationOf_eq_ok_iff.2 ⟨written, rfl, h'⟩] at hread
  exact (Except.ok.inj hread).symm

theorem FormatMembers.unique {object' members' : List (String × Json)}
    (h : FormatMembers report object members) (h' : FormatMembers report object' members') :
    object = object' ∧ members = members' := by
  obtain ⟨hread, hformat⟩ := h
  obtain ⟨hread', hformat'⟩ := h'
  obtain rfl : object = object' := by simpa [hread] using hread'
  exact ⟨rfl, by simpa [hformat] using hformat'⟩

theorem ofReport_of_readReport {e : ProbeError} (h : readReport report = .error e) :
    ofReport report = .error e := by
  simp [ofReport, h, bind, Except.bind]

/-- A report whose `format` is no object has no duration. -/
theorem ofReport_of_no_members (hread : Json.read report = .ok (.object object))
    (hformat : ¬ ∃ members, object.lookup "format" = some (.object members)) :
    ofReport report = .error (.fault .noDuration) := by
  have hget : ∀ key, ((object.lookup "format").getD .null).get? key = none := by
    intro key
    rcases hvalue : object.lookup "format" with _ | value
    · rfl
    · cases value with
      | object members => exact absurd ⟨members, hvalue⟩ hformat
      | _ => rfl
  have hobject : readReport report = .ok (.object object) :=
    readReport_eq_ok_iff.2 ⟨object, rfl, hread⟩
  simp only [ofReport, hobject]
  simp [bind, Except.bind, Json.get?.eq_1, hget, durationOf]

theorem ofReport_of_durationOf (hmembers : FormatMembers report object members) {e : ProbeError}
    (h : durationOf (members.lookup "duration") = .error e) : ofReport report = .error e := by
  have hobject : readReport report = .ok (.object object) :=
    readReport_eq_ok_iff.2 ⟨object, rfl, hmembers.1⟩
  simp only [ofReport, hobject]
  simp [bind, Except.bind, Json.get?.eq_1, hmembers.2, h]

/-- With a duration at hand the sign decides, and then the streams and the name of the format. -/
theorem ofReport_of_writesDuration (hmembers : FormatMembers report object members)
    (hwritten : members.lookup "duration" = some written)
    (hduration : WritesDuration written duration) :
    ofReport report =
      if duration ≤ 0 then .error (.fault (.nonPositiveDuration duration))
      else do
        let streams ← streamCountOf (object.lookup "streams")
        let format ← formatOf (members.lookup "format_name")
        return ⟨duration, format, streams, false⟩ := by
  have hobject : readReport report = .ok (.object object) :=
    readReport_eq_ok_iff.2 ⟨object, rfl, hmembers.1⟩
  have hread : durationOf (members.lookup "duration") = .ok duration :=
    durationOf_eq_ok_iff.2 ⟨written, hwritten, hduration⟩
  simp only [ofReport, hobject]
  simp only [bind, Except.bind, Json.get?.eq_1, hmembers.2, hread, Option.getD_some]
  by_cases hpos : duration ≤ 0
  · rw [if_pos hpos, if_pos hpos]
    rfl
  · rw [if_neg hpos, if_neg hpos]

theorem isAssumed_of_ofReport {info : ProbeInfo} (h : ofReport report = .ok info) :
    info.isAssumed = false := by
  simp only [ofReport, Outcome.bind_eq_ok_iff] at h
  obtain ⟨_, -, duration, -, h⟩ := h
  split at h
  · cases h
  · simp only [Outcome.bind_eq_ok_iff, Outcome.pure_eq_ok_iff] at h
    obtain ⟨_, -, _, -, rfl⟩ := h
    rfl

/-- What a report says is read from it. -/
theorem ofReport_of_saidBy {info : ProbeInfo} (h : SaidBy report info) :
    ofReport report = .ok info := by
  obtain @⟨_, _, _, duration, _, _, hmembers, hwritten, hduration, hpos, hformat, hstreams⟩ := h
  rw [ofReport_of_writesDuration hmembers hwritten hduration,
    if_neg (Binary64.not_le_zero_of_pos hpos), streamCountOf_of_listsStreams hstreams,
    formatOf_eq_ok_iff.2 hformat]
  rfl

theorem Misread.not_saidBy {info : ProbeInfo} (h : Misread report) : ¬ SaidBy report info := by
  rintro ⟨hmembers, hwritten, hduration, hpos, hformat, hstreams⟩
  cases h with
  | beyondLimits hread he => simp [hmembers.1] at hread
  | durationTooLarge hmembers' hwritten' hi =>
    obtain ⟨rfl, rfl⟩ := hmembers.unique hmembers'
    obtain rfl := Option.some.inj (hwritten.symm.trans hwritten')
    cases hduration with
    | whole hi' => simp [hi] at hi'
  | illTyped hmembers' hwritten' hduration' hpos' hill =>
    obtain ⟨rfl, rfl⟩ := hmembers.unique hmembers'
    obtain rfl := Option.some.inj (hwritten.symm.trans hwritten')
    obtain rfl := hduration.unique hduration'
    exact hill ⟨hpos, ⟨_, hformat⟩, ⟨_, hstreams⟩⟩

/-- A misread report is not counted as a failure of the prober. -/
theorem Misread.ofReport_ne_fault {f : ProbeFault} (h : Misread report) :
    ofReport report ≠ .error (.fault f) := by
  cases h with
  | beyondLimits hread he =>
    rcases hobject : readReport report with e | v
    · rw [ofReport_of_readReport hobject]
      rintro ⟨⟩
      exact (readReport_eq_error hobject).1 ⟨f, rfl⟩ ⟨_, hread, he⟩
    · obtain ⟨object, -, hread'⟩ := readReport_eq_ok_iff.1 hobject
      simp [hread] at hread'
  | @durationTooLarge _ members _ hmembers hwritten hi =>
    have hd : durationOf (members.lookup "duration") = .error .durationTooLarge := by
      rw [hwritten]
      simp [durationOf, hi]
    simp [ofReport_of_durationOf hmembers hd]
  | illTyped hmembers hwritten hduration hpos hill =>
    rw [ofReport_of_writesDuration hmembers hwritten hduration, if_neg hpos]
    simp only [ne_eq, Outcome.bind_eq_error_iff, not_or, not_exists, not_and]
    refine ⟨streamCountOf_ne_fault, fun streams _ => ⟨formatOf_ne_fault, fun format _ => ?_⟩⟩
    simp [pure, Except.pure]

/-- A report that says nothing and is not misread counts as a failure of the prober. -/
theorem ofReport_of_unsaid (hmisread : ¬ Misread report) (hunsaid : ¬ ∃ info, SaidBy report info) :
    ∃ f, ofReport report = .error (.fault f) := by
  rcases hobject : readReport report with e | v
  · rw [ofReport_of_readReport hobject]
    obtain ⟨f, rfl⟩ := (readReport_eq_error hobject).2 fun ⟨_, hread, he⟩ =>
      hmisread (.beyondLimits hread he)
    exact ⟨f, rfl⟩
  obtain ⟨object, rfl, hread⟩ := readReport_eq_ok_iff.1 hobject
  by_cases hformat : ∃ members, object.lookup "format" = some (.object members)
  case neg => exact ⟨_, ofReport_of_no_members hread hformat⟩
  obtain ⟨members, hformat⟩ := hformat
  have hmembers : FormatMembers report object members := ⟨hread, hformat⟩
  rcases hd : durationOf (members.lookup "duration") with e | duration
  · rw [ofReport_of_durationOf hmembers hd]
    rcases durationOf_eq_error hd with rfl | ⟨-, i, hwritten, hi⟩
    · exact ⟨_, rfl⟩
    · exact absurd (.durationTooLarge hmembers hwritten hi) hmisread
  · obtain ⟨written, hwritten, hduration⟩ := durationOf_eq_ok_iff.1 hd
    rw [ofReport_of_writesDuration hmembers hwritten hduration]
    by_cases hpos : duration ≤ 0
    · exact ⟨_, if_pos hpos⟩
    · refine absurd (Misread.illTyped hmembers hwritten hduration hpos ?_) hmisread
      rintro ⟨hpos, ⟨format, hformat⟩, streams, hstreams⟩
      exact hunsaid ⟨_, .intro hmembers hwritten hduration hpos hformat hstreams⟩

end ProbeInfo

/-! ## All endings of a prober -/

/-- A prober that ends in this way reports something about the file. -/
def ToolEnding.Reports (ending : ToolEnding) (info : ProbeInfo) : Prop :=
  ∃ report errors, ending = .exited 0 report errors ∧ ProbeInfo.SaidBy report info

/-- A prober that ends in this way has printed a report that is misread. -/
def ToolEnding.IsMisread (ending : ToolEnding) : Prop :=
  ∃ report errors, ending = .exited 0 report errors ∧ ProbeInfo.Misread report

namespace Prober

/-- What is to be known about a file after the prober has ended: what it reports, or what is
assumed when it reports nothing. -/
def Tells (p : Prober) (ending : ToolEnding) (info : ProbeInfo) : Prop :=
  ending.Reports info ∨
    (¬ ∃ said, ending.Reports said) ∧ info = .assumed p.assumedDuration

variable {p : Prober} {path : Path}

/-- A prober that has no report to show is known by what is assumed. -/
theorem tells_of_no_report {ending : ToolEnding}
    (hreport : ¬ ∃ report errors, ending = .exited 0 report errors)
    (hbroken : ¬ ∃ reason, ending = .broken reason) :
    (p.judge path ending).value = .ok (.assumed p.assumedDuration) ∧
      p.Tells ending (.assumed p.assumedDuration) := by
  refine ⟨?_, .inr ⟨fun ⟨_, report, errors, he, _⟩ => hreport ⟨report, errors, he⟩, rfl⟩⟩
  cases ending with
  | timedOut => rfl
  | notStarted reason => rfl
  | broken reason => exact absurd ⟨reason, rfl⟩ hbroken
  | exited code output errors =>
    have hcode : code ≠ 0 := by
      rintro rfl
      exact hreport ⟨output, errors, rfl⟩
    simp [judge, assume, hcode]

theorem value_readReport (report : String) :
    (p.readReport path report).value =
      match ProbeInfo.ofReport report with
      | .ok info => .ok info
      | .error (.fault _) => .ok (.assumed p.assumedDuration)
      | .error e => .error (.report e) := by
  unfold readReport
  split <;> simp_all [assume]

/-- A report that is not misread tells what it says, or leads to what is assumed. -/
theorem tells_of_not_misread {report errors : String} (h : ¬ ProbeInfo.Misread report) :
    ∃ info, (p.readReport path report).value = .ok info ∧
      p.Tells (.exited 0 report errors) info := by
  by_cases hsaid : ∃ info, ProbeInfo.SaidBy report info
  · obtain ⟨info, hinfo⟩ := hsaid
    refine ⟨info, ?_, .inl ⟨report, errors, rfl, hinfo⟩⟩
    rw [value_readReport, ProbeInfo.ofReport_of_saidBy hinfo]
  · obtain ⟨f, hf⟩ := ProbeInfo.ofReport_of_unsaid h hsaid
    refine ⟨.assumed p.assumedDuration, by rw [value_readReport, hf], .inr ⟨?_, rfl⟩⟩
    rintro ⟨said, _, _, ⟨⟩, hinfo⟩
    exact hsaid ⟨said, hinfo⟩

/-- Nothing that comes of a misread report is what is to be known. -/
theorem not_tells_of_misread {report errors : String} {info : ProbeInfo}
    (h : ProbeInfo.Misread report) (hvalue : (p.readReport path report).value = .ok info) :
    ¬ p.Tells (.exited 0 report errors) info := by
  rintro (⟨_, _, ⟨⟩, hinfo⟩ | ⟨-, rfl⟩)
  · exact h.not_saidBy hinfo
  · rw [value_readReport] at hvalue
    rcases hreport : ProbeInfo.ofReport report with e | taken
    · cases e with
      | fault f => exact h.ofReport_ne_fault hreport
      | _ => simp [hreport] at hvalue
    · obtain rfl : taken = .assumed p.assumedDuration := by simpa [hreport] using hvalue
      cases ProbeInfo.isAssumed_of_ofReport hreport

/-- Whatever the prober does, what is to be known comes of it, unless the call itself breaks down
or the report is misread; and in these cases it never does. -/
theorem judge_tells_iff (p : Prober) (path : Path) (ending : ToolEnding) :
    (∃ info, (p.judge path ending).value = .ok info ∧ p.Tells ending info) ↔
      ¬ ((∃ reason, ending = .broken reason) ∨ ending.IsMisread) := by
  by_cases hbroken : ∃ reason, ending = .broken reason
  · obtain ⟨reason, rfl⟩ := hbroken
    simp [judge]
  by_cases hreport : ∃ report errors, ending = .exited 0 report errors
  · obtain ⟨report, errors, rfl⟩ := hreport
    have hjudge : p.judge path (.exited 0 report errors) = p.readReport path report := by
      simp [judge]
    have hmisread : (ToolEnding.exited 0 report errors).IsMisread ↔ ProbeInfo.Misread report := by
      simp [ToolEnding.IsMisread]
    rw [hjudge, hmisread, or_iff_right hbroken]
    exact ⟨fun ⟨info, hvalue, htells⟩ h => not_tells_of_misread h hvalue htells,
      tells_of_not_misread⟩
  · refine iff_of_true ⟨_, tells_of_no_report hreport hbroken⟩ (not_or_intro hbroken ?_)
    rintro ⟨report, errors, rfl, -⟩
    exact hreport ⟨report, errors, rfl⟩

/-- A report whose streams are a number. -/
def numberedStreams : String :=
  "\x7b\"format\": \x7b\"duration\": \"60.0\"\x7d, \"streams\": 5\x7d"

/-- A prober that ends by itself may still leave the job without an answer. -/
theorem not_judge_tells :
    ¬ ∀ (p : Prober) (path : Path) (ending : ToolEnding), (∀ reason, ending ≠ .broken reason) →
      ∃ info, (p.judge path ending).value = .ok info ∧ p.Tells ending info := by
  intro hall
  obtain ⟨info, hvalue, -⟩ :=
    hall .standard ⟨0, ["a.wav"]⟩ (.exited 0 numberedStreams "") (by simp)
  have hcrash :
      (Prober.standard.judge ⟨0, ["a.wav"]⟩ (.exited 0 numberedStreams "")).value.isOk = false := by
    decide +kernel
  simp [hvalue, Except.isOk, Except.toBool] at hcrash

end Prober

end BroadcastIntake
