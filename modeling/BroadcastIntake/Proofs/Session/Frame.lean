import BroadcastIntake.Session

/-!
# Actions that leave the tree alone

As long as there is no log file, most actions of a session leave the file tree as it is.  Such an
action is quiet (`IsQuiet`), and actions made of quiet ones are quiet.  What a quiet action comes to
then depends on the tree it found, and an action that follows it leads to the trees that it leads to
from there (`leadsTo_bind_iff`).
-/

namespace BroadcastIntake.Session

variable {α β : Type}

/-- What an action comes to in a state, and the state after it. -/
def outcome (x : Session α) (s : SessionState) : Except SessionEnd α × SessionState :=
  x.run s

/-- Without a log file the action leaves the tree as it is, and makes no log file. -/
def IsQuiet (x : Session α) : Prop :=
  ∀ s : SessionState, s.logging.file = none →
    (outcome x s).2.tree = s.tree ∧ (outcome x s).2.logging.file = none

/-- The action makes no log file. -/
def LogsNowhere (x : Session α) : Prop :=
  ∀ s : SessionState, s.logging.file = none → (outcome x s).2.logging.file = none

/-- The action leads to another tree. -/
def LeadsTo (x : Session α) (s : SessionState) (made : FileTree) : Prop :=
  (outcome x s).2.tree = made ∧ made ≠ s.tree

/-! ## Following each other -/

section Bind

variable {x : Session α} {f : α → Session β} {s after : SessionState} {made : FileTree}

theorem outcome_bind (x : Session α) (f : α → Session β) (s : SessionState) :
    outcome (x >>= f) s =
      match outcome x s with
      | (.ok a, after) => outcome (f a) after
      | (.error ending, after) => (.error ending, after) := by
  have hbind : outcome (x >>= f) s =
      ExceptT.bindCont (m := StateM SessionState) f (outcome x s).1 (outcome x s).2 := rfl
  rw [hbind]
  rcases outcome x s with ⟨ending | a, after⟩ <;> rfl

/-- Two actions that follow each other succeed when both do. -/
theorem outcome_bind_eq_ok_iff {b : β} : outcome (x >>= f) s = (.ok b, after) ↔
    ∃ a mid, outcome x s = (.ok a, mid) ∧ outcome (f a) mid = (.ok b, after) := by
  rw [outcome_bind]
  rcases outcome x s with ⟨ending | a, mid⟩
  · simp
  · refine ⟨fun hrun => ⟨a, mid, rfl, hrun⟩, ?_⟩
    rintro ⟨_, _, hfirst, hrun⟩
    obtain ⟨hsame, rfl⟩ := Prod.mk.inj hfirst
    rwa [Except.ok.inj hsame]

theorem IsQuiet.bind (hx : IsQuiet x) (hf : ∀ a, IsQuiet (f a)) : IsQuiet (x >>= f) := by
  intro s hs
  have hfirst := hx s hs
  rw [outcome_bind]
  rcases hrun : outcome x s with ⟨ending | a, after⟩ <;> rw [hrun] at hfirst
  · exact hfirst
  · have hsecond := hf a after hfirst.2
    exact ⟨hsecond.1.trans hfirst.1, hsecond.2⟩

theorem IsQuiet.logsNowhere (hx : IsQuiet x) : LogsNowhere x :=
  fun s hs => (hx s hs).2

theorem IsQuiet.not_leadsTo (hx : IsQuiet x) (hs : s.logging.file = none) : ¬ LeadsTo x s made :=
  fun hleads => hleads.2 (hleads.1.symm.trans (hx s hs).1)

theorem IsQuiet.keeps (hx : IsQuiet x) (hs : s.logging.file = none) {r : Except SessionEnd α}
    (hrun : outcome x s = (r, after)) : after.tree = s.tree ∧ after.logging.file = none := by
  have hquiet := hx s hs
  rwa [hrun] at hquiet

/-- After a quiet action, what follows leads to another tree, or nothing does.  `P` says for every
result of the action whether what follows leads there. -/
theorem leadsTo_bind_iff {P : α → FileTree → Prop} (hx : IsQuiet x) (hs : s.logging.file = none)
    (hf : ∀ a s, s.logging.file = none → (LeadsTo (f a) s made ↔ P a s.tree)) :
    LeadsTo (x >>= f) s made ↔ ∃ a, (outcome x s).1 = .ok a ∧ P a s.tree := by
  rw [LeadsTo, outcome_bind]
  rcases hrun : outcome x s with ⟨ending | a, after⟩
  · have htree := (hx.keeps hs hrun).1
    simpa using fun hmade : after.tree = made => hmade.symm.trans htree
  · obtain ⟨htree, hfile⟩ := hx.keeps hs hrun
    have hnext := hf a after hfile
    rw [LeadsTo, htree] at hnext
    simp [hnext]

theorem not_leadsTo_bind_of_error {ending : SessionEnd} {next : SessionState}
    (hrun : outcome x s = (.error ending, next)) (htree : next.tree = s.tree) :
    ¬ LeadsTo (x >>= f) s made := by
  rw [LeadsTo, outcome_bind, hrun]
  rintro ⟨rfl, hother⟩
  exact hother htree

theorem leadsTo_bind_of_ok {a : α} {next : SessionState} (hrun : outcome x s = (.ok a, next))
    (htree : next.tree = s.tree) : LeadsTo (x >>= f) s made ↔ LeadsTo (f a) next made := by
  rw [LeadsTo, LeadsTo, outcome_bind, hrun, htree]

/-- After a quiet action, what comes to a result is what follows.  `R` says for every result of the
action whether what follows comes to `b`. -/
theorem result_bind_iff {b : β} {R : α → FileTree → Prop} (hx : IsQuiet x)
    (hs : s.logging.file = none)
    (hf : ∀ a s, s.logging.file = none → ((outcome (f a) s).1 = .ok b ↔ R a s.tree)) :
    (outcome (x >>= f) s).1 = .ok b ↔ ∃ a, (outcome x s).1 = .ok a ∧ R a s.tree := by
  rw [outcome_bind]
  rcases hrun : outcome x s with ⟨ending | a, after⟩
  · simp
  · obtain ⟨htree, hfile⟩ := hx.keeps hs hrun
    have hnext := hf a after hfile
    rw [htree] at hnext
    simp [hnext]

theorem LogsNowhere.bind (hx : LogsNowhere x) (hf : ∀ a, LogsNowhere (f a)) :
    LogsNowhere (x >>= f) := by
  intro s hs
  have hfirst := hx s hs
  rw [outcome_bind]
  rcases hrun : outcome x s with ⟨ending | a, after⟩ <;> rw [hrun] at hfirst
  · exact hfirst
  · exact hf a after hfirst

/-- Before quiet actions, what comes first leads to another tree, or nothing does. -/
theorem leadsTo_bind_quiet_iff (hx : LogsNowhere x) (hs : s.logging.file = none)
    (hf : ∀ a, IsQuiet (f a)) : LeadsTo (x >>= f) s made ↔ LeadsTo x s made := by
  have hfile := hx s hs
  rw [LeadsTo, LeadsTo, outcome_bind]
  rcases hrun : outcome x s with ⟨ending | a, after⟩
  · rfl
  · rw [hrun] at hfile
    have htree := (hf a after hfile).1
    simp only [htree]

end Bind

/-! ## Small actions -/

section Small

theorem isQuiet_pure (a : α) : IsQuiet (pure a : Session α) :=
  fun _ hs => ⟨rfl, hs⟩

theorem isQuiet_stop (ending : SessionEnd) : IsQuiet (stop ending : Session α) :=
  fun _ hs => ⟨rfl, hs⟩

theorem isQuiet_fail (failure : SessionFailure) : IsQuiet (fail failure : Session α) :=
  isQuiet_stop _

theorem outcome_tree (s : SessionState) : outcome tree s = (.ok s.tree, s) :=
  rfl

theorem isQuiet_tree : IsQuiet tree :=
  fun _ hs => ⟨rfl, hs⟩

theorem isQuiet_print (item : ConsoleItem) : IsQuiet (print item) :=
  fun _ hs => ⟨rfl, hs⟩

theorem isQuiet_printAll (items : List ConsoleItem) : IsQuiet (printAll items) :=
  fun _ hs => ⟨rfl, hs⟩

theorem isQuiet_noteCalls (calls : List ToolCall) : IsQuiet (noteCalls calls) :=
  fun _ hs => ⟨rfl, hs⟩

theorem isQuiet_orFail {ε : Type} (failure : ε → SessionFailure) (x : Except ε α) :
    IsQuiet (orFail failure x) := by
  cases x with
  | ok a => exact isQuiet_pure a
  | error e => exact isQuiet_fail _

variable {s : SessionState}

/-- Without a log file, telling records is nothing but taking the result. -/
theorem outcome_told (w : World) (x : Logged α) (hs : s.logging.file = none) :
    outcome (told w x) s = (.ok x.value, s) := by
  have htree := LogSetup.noteAll_of_file_eq_none hs w.now s.tree x.records
  have htold : outcome (told w x) s =
      (.ok x.value, { s with tree := s.logging.noteAll w.now s.tree x.records }) := rfl
  rw [htold, htree]

theorem isQuiet_told (w : World) (x : Logged α) : IsQuiet (told w x) := fun s hs => by
  rw [outcome_told w x hs]
  exact ⟨rfl, hs⟩

/-- Without a log file, working on the tree is nothing but that. -/
theorem outcome_working (w : World) (f : FileTree → Logged (FileTree × α))
    (hs : s.logging.file = none) :
    outcome (working w f) s =
      (.ok (f s.tree).value.2, { s with tree := (f s.tree).value.1 }) := by
  have htree := LogSetup.noteAll_of_file_eq_none hs w.now (f s.tree).value.1 (f s.tree).records
  have hworking : outcome (working w f) s = outcome (told w ((·.2) <$> f s.tree))
      { s with tree := (f s.tree).value.1 } := rfl
  rw [hworking, outcome_told]
  · rfl
  · exact hs

theorem logsNowhere_working (w : World) (f : FileTree → Logged (FileTree × α)) :
    LogsNowhere (working w f) := fun s hs => by
  rw [outcome_working w f hs]
  exact hs

theorem isQuiet_working (w : World) {f : FileTree → Logged (FileTree × α)}
    (hf : ∀ tree, (f tree).value.1 = tree) : IsQuiet (working w f) := fun s hs => by
  rw [outcome_working w f hs]
  exact ⟨hf s.tree, hs⟩

theorem leadsTo_working_iff (w : World) (f : FileTree → Logged (FileTree × α))
    (hs : s.logging.file = none) {made : FileTree} :
    LeadsTo (working w f) s made ↔ (f s.tree).value.1 = made ∧ made ≠ s.tree := by
  rw [LeadsTo, outcome_working w f hs]

end Small

/-! ## Their results -/

section Results

variable {s : SessionState} {a : α}

@[simp] theorem result_pure_iff {b : α} : (outcome (pure b) s).1 = .ok a ↔ b = a :=
  ⟨Except.ok.inj, congrArg Except.ok⟩

@[simp] theorem result_fail_iff {failure : SessionFailure} :
    (outcome (fail failure) s).1 = .ok a ↔ False :=
  ⟨nofun, nofun⟩

@[simp] theorem result_tree_iff {t : FileTree} : (outcome tree s).1 = .ok t ↔ s.tree = t :=
  ⟨Except.ok.inj, congrArg Except.ok⟩

@[simp] theorem result_print_iff {item : ConsoleItem} {u : Unit} :
    (outcome (print item) s).1 = .ok u ↔ True :=
  ⟨fun _ => trivial, fun _ => rfl⟩

@[simp] theorem result_noteCalls_iff {calls : List ToolCall} {u : Unit} :
    (outcome (noteCalls calls) s).1 = .ok u ↔ True :=
  ⟨fun _ => trivial, fun _ => rfl⟩

@[simp] theorem result_orFail_iff {ε : Type} {failure : ε → SessionFailure} {x : Except ε α} :
    (outcome (orFail failure x) s).1 = .ok a ↔ x = .ok a := by
  cases x with
  | ok b => exact result_pure_iff.trans (Except.ok.injEq b a).to_iff.symm
  | error e => exact ⟨nofun, nofun⟩

theorem result_told_iff {w : World} {x : Logged α} (hs : s.logging.file = none) :
    (outcome (told w x) s).1 = .ok a ↔ x.value = a := by
  rw [outcome_told w x hs]
  exact result_pure_iff (s := s)

theorem result_working_iff {w : World} {f : FileTree → Logged (FileTree × α)}
    (hs : s.logging.file = none) :
    (outcome (working w f) s).1 = .ok a ↔ (f s.tree).value.2 = a := by
  rw [outcome_working w f hs]
  exact result_pure_iff (s := s)

end Results

end BroadcastIntake.Session
