import BroadcastIntake.Json.Basic

/-!
# Members of an object

An object is a row of keys with their values.  Setting a member changes what its own key leads to
and nothing else, and adds the key at the end when it is new.
-/

namespace BroadcastIntake

/-- Looking up in a row with one more entry, by a decision on the keys. -/
theorem lookup_cons_ite {κ α : Type} [BEq κ] [LawfulBEq κ] [DecidableEq κ] (k key : κ)
    (value : α) (rest : List (κ × α)) :
    List.lookup k ((key, value) :: rest) = if k = key then some value else rest.lookup k := by
  by_cases hk : k = key
  · simp [hk]
  · have hbeq : (k == key) = false := beq_eq_false_iff_ne.2 hk
    simp [List.lookup_cons, hk, hbeq]

/-- Looking up finds something exactly when the key is there. -/
theorem isSome_lookup {κ α : Type} [BEq κ] [LawfulBEq κ] [DecidableEq κ] (k : κ)
    (entries : List (κ × α)) :
    (entries.lookup k).isSome = true ↔ k ∈ entries.map Prod.fst := by
  induction entries with
  | nil => simp
  | cons entry rest ih =>
      rw [lookup_cons_ite, List.map_cons, List.mem_cons, ← ih]
      by_cases hk : k = entry.1 <;> simp [hk]

namespace Json

variable {α : Type}

theorem lookup_put (key k : String) (value : α) (members : List (String × α)) :
    (put key value members).lookup k = if k = key then some value else members.lookup k := by
  induction members with
  | nil => simp only [put, lookup_cons_ite]
  | cons member rest ih =>
      obtain ⟨first, old⟩ := member
      by_cases hfirst : first = key
      · subst hfirst
        simp only [put, if_true, lookup_cons_ite]
        split <;> rfl
      · simp only [put, if_neg hfirst, lookup_cons_ite, ih]
        by_cases hk : k = first
        · have hne : k ≠ key := fun h => hfirst (hk.symm.trans h)
          simp only [if_pos hk, if_neg hne]
        · simp only [if_neg hk]

/-- The keys after a member is set: a new key stands at the end. -/
theorem keys_put (key : String) (value : α) (members : List (String × α)) :
    (put key value members).map Prod.fst =
      if key ∈ members.map Prod.fst then members.map Prod.fst
      else members.map Prod.fst ++ [key] := by
  induction members with
  | nil => simp [put]
  | cons member rest ih =>
      obtain ⟨first, old⟩ := member
      by_cases hfirst : first = key
      · simp [put, hfirst]
      · have hne : key ≠ first := fun h => hfirst h.symm
        rw [put, if_neg hfirst, List.map_cons, ih]
        by_cases hkey : key ∈ rest.map Prod.fst
        · have hthere : key ∈ ((first, old) :: rest).map Prod.fst :=
            List.mem_cons_of_mem first hkey
          rw [if_pos hkey, if_pos hthere]
          rfl
        · have hnot : key ∉ ((first, old) :: rest).map Prod.fst := by
            simpa [hne] using hkey
          rw [if_neg hkey, if_neg hnot]
          rfl

theorem mem_keys_put (key k : String) (value : α) (members : List (String × α)) :
    k ∈ (put key value members).map Prod.fst ↔ k = key ∨ k ∈ members.map Prod.fst := by
  rw [keys_put]
  split
  · rename_i hkey
    refine ⟨.inr, ?_⟩
    rintro (rfl | hk)
    · exact hkey
    · exact hk
  · rw [List.mem_append, List.mem_singleton]
    exact Or.comm

/-- A new key is added at the end. -/
theorem put_of_not_mem {key : String} {members : List (String × α)}
    (hkey : key ∉ members.map Prod.fst) (value : α) :
    put key value members = members ++ [(key, value)] := by
  induction members with
  | nil => rfl
  | cons member rest ih =>
      rw [List.map_cons, List.mem_cons, not_or] at hkey
      have hfirst : member.1 ≠ key := fun h => hkey.1 h.symm
      rw [put, if_neg hfirst, ih hkey.2]
      rfl

/-- Setting a member adds no other member than the one that is set. -/
theorem mem_put {key : String} {value : α} {members : List (String × α)} {member : String × α}
    (hmember : member ∈ put key value members) : member = (key, value) ∨ member ∈ members := by
  induction members with
  | nil => exact .inl (List.mem_singleton.1 hmember)
  | cons first rest ih =>
      rw [put] at hmember
      split at hmember
      · rename_i hfirst
        rcases List.mem_cons.1 hmember with rfl | hmember
        · exact .inl (by rw [hfirst])
        · exact .inr (List.mem_cons_of_mem _ hmember)
      · rcases List.mem_cons.1 hmember with rfl | hmember
        · exact .inr List.mem_cons_self
        · exact (ih hmember).imp_right (List.mem_cons_of_mem _)

/-- Setting a member makes no key occur twice. -/
theorem nodup_keys_put {key : String} {members : List (String × α)}
    (hnodup : (members.map Prod.fst).Nodup) (value : α) :
    ((put key value members).map Prod.fst).Nodup := by
  rw [keys_put]
  split
  · exact hnodup
  · rename_i hkey
    rw [List.nodup_append]
    refine ⟨hnodup, by simp, ?_⟩
    rintro k hk _ hlast rfl
    rw [List.mem_singleton.1 hlast] at hk
    exact hkey hk

/-! ## Setting several members -/

/-- Entries set as members one after the other. -/
def putAll (members entries : List (String × α)) : List (String × α) :=
  entries.foldl (fun members (key, value) => put key value members) members

theorem mem_keys_putAll (entries : List (String × α)) :
    ∀ (members : List (String × α)) (k : String),
      k ∈ (putAll members entries).map Prod.fst ↔
        k ∈ entries.map Prod.fst ∨ k ∈ members.map Prod.fst := by
  induction entries with
  | nil => simp [putAll]
  | cons entry rest ih =>
      intro members k
      show k ∈ (putAll (put entry.1 entry.2 members) rest).map Prod.fst ↔ _
      rw [ih, mem_keys_put, List.map_cons, List.mem_cons]
      exact or_left_comm.trans or_assoc.symm

/-- Entries with new keys that differ are added as they are. -/
theorem putAll_of_nodup (entries : List (String × α)) :
    ∀ members : List (String × α), (members.map Prod.fst ++ entries.map Prod.fst).Nodup →
      putAll members entries = members ++ entries := by
  induction entries with
  | nil =>
      intro members _
      exact (List.append_nil members).symm
  | cons entry rest ih =>
      intro members hnodup
      have hnew : entry.1 ∉ members.map Prod.fst := by
        intro hmem
        exact (List.nodup_append.1 hnodup).2.2 _ hmem _ List.mem_cons_self rfl
      show putAll (put entry.1 entry.2 members) rest = _
      rw [put_of_not_mem hnew, ih, List.append_assoc]
      · rfl
      · rwa [List.map_append, List.append_assoc]

end Json

end BroadcastIntake
