import Mathlib.Data.List.Forall2

/-!
# Outcomes of several steps

A computation of several steps that may fail succeeds when every step does.
-/

namespace BroadcastIntake.Outcome

variable {ε α β : Type}

theorem bind_eq_ok_iff {x : Except ε α} {f : α → Except ε β} {b : β} :
    x >>= f = .ok b ↔ ∃ a, x = .ok a ∧ f a = .ok b := by
  cases x <;> simp [bind, Except.bind]

theorem pure_eq_ok_iff {a b : α} : (pure a : Except ε α) = .ok b ↔ a = b := by
  simp [pure, Except.pure]

/-- A failed step ends the computation. -/
theorem bind_eq_error_iff {x : Except ε α} {f : α → Except ε β} {e : ε} :
    x >>= f = .error e ↔ x = .error e ∨ ∃ a, x = .ok a ∧ f a = .error e := by
  cases x <;> simp [bind, Except.bind]

/-- Steps for the items of a list succeed with the outcomes of the single steps. -/
theorem mapM_eq_ok_iff {f : α → Except ε β} {xs : List α} {ys : List β} :
    xs.mapM f = .ok ys ↔ List.Forall₂ (fun x y => f x = .ok y) xs ys := by
  induction xs generalizing ys with
  | nil => rw [List.mapM_nil, pure_eq_ok_iff, List.forall₂_nil_left_iff, eq_comm]
  | cons x xs ih =>
      rw [List.mapM_cons, bind_eq_ok_iff, List.forall₂_cons_left_iff]
      constructor
      · rintro ⟨y, hy, hrest⟩
        obtain ⟨others, hothers, hys⟩ := bind_eq_ok_iff.1 hrest
        exact ⟨y, others, hy, ih.1 hothers, (pure_eq_ok_iff.1 hys).symm⟩
      · rintro ⟨y, others, hy, hothers, rfl⟩
        exact ⟨y, hy, bind_eq_ok_iff.2 ⟨others, ih.2 hothers, rfl⟩⟩

theorem exists_mapM_iff {f : α → Except ε β} {xs : List α} :
    (∃ ys, xs.mapM f = .ok ys) ↔ ∀ x ∈ xs, ∃ y, f x = .ok y := by
  simp only [mapM_eq_ok_iff]
  induction xs with
  | nil => simp
  | cons x xs ih =>
      simp only [List.forall_mem_cons, ← ih, List.forall₂_cons_left_iff]
      constructor
      · rintro ⟨_, y, ys, hy, hys, rfl⟩
        exact ⟨⟨y, hy⟩, ys, hys⟩
      · rintro ⟨⟨y, hy⟩, ys, hys⟩
        exact ⟨y :: ys, y, ys, hy, hys, rfl⟩

/-- Steps for the items of a list fail as the first of them that fails. -/
theorem exists_of_mapM_eq_error {f : α → Except ε β} {xs : List α} {e : ε}
    (h : xs.mapM f = .error e) :
    ∃ before x after, xs = before ++ x :: after ∧ (∀ y ∈ before, ∃ b, f y = .ok b) ∧
      f x = .error e := by
  induction xs with
  | nil => cases h
  | cons x xs ih =>
      rw [List.mapM_cons, bind_eq_error_iff] at h
      rcases h with hfirst | ⟨b, hb, hrest⟩
      · exact ⟨[], x, xs, rfl, nofun, hfirst⟩
      · rcases bind_eq_error_iff.1 hrest with herror | ⟨_, -, hpure⟩
        · obtain ⟨before, y, after, rfl, hbefore, hy⟩ := ih herror
          exact ⟨x :: before, y, after, rfl, List.forall_mem_cons.2 ⟨⟨b, hb⟩, hbefore⟩, hy⟩
        · cases hpure

@[simp] theorem mapError_ok (f : ε → β) (a : α) : (Except.ok a).mapError f = .ok a :=
  rfl

@[simp] theorem mapError_error (f : ε → β) (e : ε) :
    (Except.error e : Except ε α).mapError f = .error (f e) :=
  rfl

theorem eq_ok_of_toOption {x : Except ε α} {a : α} (h : x.toOption = some a) : x = .ok a := by
  cases x with
  | error => cases h
  | ok => exact congrArg _ (Option.some.inj h)

theorem eq_mk_ok_of_toOption {x : β × Except ε α} {a : α} (h : x.2.toOption = some a) :
    x = (x.1, .ok a) :=
  Prod.ext rfl (eq_ok_of_toOption h)

end BroadcastIntake.Outcome
