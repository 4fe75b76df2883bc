import BroadcastIntake.Json.Reader
import BroadcastIntake.Proofs.Members
import BroadcastIntake.Proofs.Number.RoundTrip
import BroadcastIntake.Proofs.Outcome

/-!
# The numbers that are read

Every number that is read from a text, as JSON or on its own, is a number of double precision: it is
rounded once, or it is one of the words for no number and for the infinities.  In a JSON value this
holds of all numbers in it (`Json.HasDoubles`), by what one item and one member add.
-/

namespace BroadcastIntake

theorem Binary64.isDouble_nan : nan.IsDouble :=
  ⟨nofun, nofun⟩

theorem Text.isDouble_of_readDecimal? {negative : Bool} {cs : List Char} {x : Binary64}
    (hx : readDecimal? negative cs = some x) : x.IsDouble := by
  unfold readDecimal? at hx
  dsimp only at hx
  -- with and without a point alike
  split at hx
  all_goals
    split at hx
    · cases hx
    · split at hx
      · rw [← Option.some.inj hx]
        exact Binary64.isDouble_ofDecimal _ _ _
      · cases hx

/-- A text is read as a number of double precision. -/
theorem isDouble_of_readBinary64 {s : String} {x : Binary64} (hx : readBinary64 s = .ok x) :
    x.IsDouble := by
  unfold readBinary64 at hx
  dsimp only at hx
  split at hx
  · rw [← Except.ok.inj hx]
    exact Binary64.isDouble_infinity _
  · split at hx
    · rw [← Except.ok.inj hx]
      exact Binary64.isDouble_nan
    · split at hx
      · rename_i hdecimal
        rw [← Except.ok.inj hx]
        exact Text.isDouble_of_readDecimal? hdecimal
      · cases hx

theorem Binary64.isDouble_of_ofInt? {i : Int} {x : Binary64} (hx : ofInt? i = some x) :
    x.IsDouble := by
  -- opened as a function and not at `i`, where the quotient would be evaluated
  have hopen : ∃ f, ofInt? = f ∧ ∀ j, f j = some x → ofRatio (j < 0) j.natAbs 1 = x := by
    delta ofInt?
    refine ⟨_, Eq.refl _, fun j hj => ?_⟩
    generalize ofRatio (j < 0) j.natAbs 1 = nearest at hj
    cases nearest with
    | finite negative quanta => exact Option.some.inj hj
    | _ => cases hj
  obtain ⟨f, hf, hall⟩ := hopen
  rw [hf] at hx
  exact hall i hx ▸ isDouble_ofRatio _ _ _

namespace Json

/-- Every number in the value that is no whole number is one of double precision. -/
inductive HasDoubles : Json → Prop
  | null : HasDoubles .null
  | bool (value : Bool) : HasDoubles (.bool value)
  | int (value : Int) : HasDoubles (.int value)
  | float {value : Binary64} (hvalue : value.IsDouble) : HasDoubles (.float value)
  | str (value : String) : HasDoubles (.str value)
  | list {items : List Json} (hitems : ∀ item ∈ items, HasDoubles item) : HasDoubles (.list items)
  | object {members : List (String × Json)} (hmembers : ∀ member ∈ members, HasDoubles member.2) :
      HasDoubles (.object members)

theorem HasDoubles.of_lookup {members : List (String × Json)} {key : String} {value : Json}
    (hmembers : (Json.object members).HasDoubles) (hvalue : members.lookup key = some value) :
    value.HasDoubles := by
  cases hmembers with
  | object hmembers =>
      obtain ⟨before, after, rfl, -⟩ := List.lookup_eq_some_iff.1 hvalue
      exact hmembers (key, value) (by simp)

/-! ## Scalars -/

theorem hasDoubles_of_readNumber {cs rest : List Char} {value : Json}
    (hread : readNumber cs = .ok (value, rest)) : value.HasDoubles := by
  unfold readNumber at hread
  dsimp only at hread
  split at hread
  · cases hread
  · split at hread
    · split at hread
      · cases hread
      · rw [← (Prod.mk.inj (Except.ok.inj hread)).1]
        exact .int _
    · rw [← (Prod.mk.inj (Except.ok.inj hread)).1]
      exact .float (Binary64.isDouble_ofDecimal _ _ _)

theorem hasDoubles_of_readWord? {cs rest : List Char} {value : Json}
    (hread : readWord? cs = some (value, rest)) : value.HasDoubles := by
  have hwords : ∀ entry ∈ words, entry.2.HasDoubles := by
    simp only [words, List.forall_mem_cons]
    exact ⟨.null, .bool true, .bool false, .float Binary64.isDouble_nan,
      .float (Binary64.isDouble_infinity false), .float (Binary64.isDouble_infinity true), nofun⟩
  obtain ⟨entry, hentry, hfound⟩ := List.exists_of_findSome?_eq_some hread
  obtain ⟨after, -, hvalue⟩ := Option.map_eq_some_iff.1 hfound
  rw [← (Prod.mk.inj hvalue).1]
  exact hwords entry hentry

theorem hasDoubles_of_readScalar {cs rest : List Char} {value : Json}
    (hread : readScalar cs = .ok (value, rest)) : value.HasDoubles := by
  unfold readScalar at hread
  split at hread
  · obtain ⟨⟨s, after⟩, -, hs⟩ := Outcome.bind_eq_ok_iff.1 hread
    rw [← (Prod.mk.inj (Except.ok.inj hs)).1]
    exact .str s
  · split at hread
    · rename_i found hfound
      exact hasDoubles_of_readWord? (hfound.trans (congrArg some (Except.ok.inj hread)))
    · exact hasDoubles_of_readNumber hread

/-! ## Arrays and objects -/

section Nested

variable {read : List Char → Except Failure (Json × List Char)}

/-- What the reader reads has only numbers of double precision. -/
def ReadsDoubles (read : List Char → Except Failure (Json × List Char)) : Prop :=
  ∀ {cs rest value}, read cs = .ok (value, rest) → value.HasDoubles

theorem hasDoubles_of_readItems (hread : ReadsDoubles read) {fuel : Nat} :
    ∀ {cs rest : List Char} {items : List Json}, readItems read fuel cs = .ok (items, rest) →
      ∀ item ∈ items, item.HasDoubles := by
  induction fuel with
  | zero => exact fun h => by cases h
  | succ fuel ih =>
      intro cs rest items hitems
      obtain ⟨⟨first, after⟩, hfirst, hmore⟩ := Outcome.bind_eq_ok_iff.1 hitems
      dsimp only at hmore
      split at hmore
      · rw [← (Prod.mk.inj (Except.ok.inj hmore)).1]
        exact List.forall_mem_singleton.2 (hread hfirst)
      · obtain ⟨⟨others, after⟩, hothers, hall⟩ := Outcome.bind_eq_ok_iff.1 hmore
        rw [← (Prod.mk.inj (Except.ok.inj hall)).1]
        exact List.forall_mem_cons.2 ⟨hread hfirst, ih hothers⟩
      · cases hmore

theorem hasDoubles_put (key : String) {value : Json} {members : List (String × Json)}
    (hvalue : value.HasDoubles) (hmembers : ∀ member ∈ members, member.2.HasDoubles) :
    ∀ member ∈ put key value members, member.2.HasDoubles := by
  induction members with
  | nil => exact List.forall_mem_singleton.2 hvalue
  | cons first rest ih =>
      obtain ⟨hfirst, hrest⟩ := List.forall_mem_cons.1 hmembers
      rw [put]
      split
      · exact List.forall_mem_cons.2 ⟨hvalue, hrest⟩
      · exact List.forall_mem_cons.2 ⟨hfirst, ih hrest⟩

theorem hasDoubles_of_readMembers (hread : ReadsDoubles read) {fuel : Nat} :
    ∀ {cs rest : List Char} {before members : List (String × Json)},
      (∀ member ∈ before, member.2.HasDoubles) →
      readMembers read fuel before cs = .ok (members, rest) →
      ∀ member ∈ members, member.2.HasDoubles := by
  induction fuel with
  | zero => exact fun _ h => by cases h
  | succ fuel ih =>
      intro cs rest before members hbefore hmembers
      unfold readMembers at hmembers
      split at hmembers
      · obtain ⟨⟨key, after⟩, -, hmore⟩ := Outcome.bind_eq_ok_iff.1 hmembers
        dsimp only at hmore
        split at hmore
        · obtain ⟨⟨value, after⟩, hvalue, hmore⟩ := Outcome.bind_eq_ok_iff.1 hmore
          have hput := hasDoubles_put key (hread hvalue) hbefore
          dsimp only at hmore
          split at hmore
          · rw [← (Prod.mk.inj (Except.ok.inj hmore)).1]
            exact hput
          · exact ih hput hmore
          · cases hmore
        · cases hmore
      · cases hmembers

end Nested

theorem readsDoubles_readValue (depth : Nat) : ReadsDoubles (readValue depth) := by
  induction depth with
  | zero =>
      intro cs rest value hvalue
      unfold readValue at hvalue
      split at hvalue
      · cases hvalue
      · cases hvalue
      · exact hasDoubles_of_readScalar hvalue
  | succ depth ih =>
      intro cs rest value hvalue
      unfold readValue at hvalue
      split at hvalue
      · split at hvalue
        · rw [← (Prod.mk.inj (Except.ok.inj hvalue)).1]
          exact .list nofun
        · obtain ⟨⟨items, after⟩, hitems, hlist⟩ := Outcome.bind_eq_ok_iff.1 hvalue
          rw [← (Prod.mk.inj (Except.ok.inj hlist)).1]
          exact .list (hasDoubles_of_readItems ih hitems)
      · split at hvalue
        · rw [← (Prod.mk.inj (Except.ok.inj hvalue)).1]
          exact .object nofun
        · obtain ⟨⟨members, after⟩, hmembers, hobject⟩ := Outcome.bind_eq_ok_iff.1 hvalue
          rw [← (Prod.mk.inj (Except.ok.inj hobject)).1]
          exact .object (hasDoubles_of_readMembers ih (List.forall_mem_nil _) hmembers)
      · exact hasDoubles_of_readScalar hvalue

/-- **All numbers of a JSON text** are read as numbers of double precision. -/
theorem hasDoubles_of_read {text : String} {value : Json} (hread : read text = .ok value) :
    value.HasDoubles := by
  unfold read at hread
  dsimp only at hread
  split at hread
  · cases hread
  · split at hread
    · cases hread
    · rename_i hvalue
      split at hread
      · rw [← Except.ok.inj hread]
        exact readsDoubles_readValue _ hvalue
      · cases hread

end Json

end BroadcastIntake
