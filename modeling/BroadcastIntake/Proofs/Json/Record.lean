import BroadcastIntake.Proofs.Json.Strings
import BroadcastIntake.Proofs.Members
import BroadcastIntake.Proofs.Number.Reading
import Mathlib.Data.List.TakeDrop

/-!
# JSON records that are read back

A record is an object whose members are texts and whole numbers.  Reading the text of a record gives
its members again, in the increasing order of their keys in which they were written.
-/

namespace BroadcastIntake.Json

open Text (AreDigits)

/-! ## Whole numbers -/

/-- The characters go on with the mark after a member. -/
def EndsMember (cs : List Char) : Prop :=
  ∃ c rest, cs = c :: rest ∧ (c = ',' ∨ c = '\x7d')

theorem endsMember_comma (rest : List Char) : EndsMember (',' :: rest) :=
  ⟨',', rest, rfl, .inl rfl⟩

theorem endsMember_brace (rest : List Char) : EndsMember ('\x7d' :: rest) :=
  ⟨'\x7d', rest, rfl, .inr rfl⟩

theorem spanDigits_append {cs rest : List Char} (hcs : AreDigits cs) (hrest : EndsMember rest) :
    spanDigits (cs ++ rest) = (cs, rest) := by
  unfold spanDigits
  rw [List.span_eq_takeWhile_dropWhile]
  induction cs with
  | nil =>
      obtain ⟨c, more, rfl, rfl | rfl⟩ := hrest <;> rfl
  | cons c cs ih =>
      have hc : isNumberDigit c = true := hcs c List.mem_cons_self
      have htail := ih fun d hd => hcs d (List.mem_cons_of_mem c hd)
      rw [Prod.mk.injEq] at htail ⊢
      rw [List.cons_append, List.takeWhile_cons_of_pos hc, List.dropWhile_cons_of_pos hc, htail.1]
      exact ⟨rfl, htail.2⟩

/-- Only zero is written with a zero at the start. -/
theorem natDigits_head (n : Nat) :
    natDigits n = ['0'] ∨ ∃ c cs, natDigits n = c :: cs ∧ c ≠ '0' := by
  induction n using Nat.strongRecOn with
  | ind n ih =>
      unfold natDigits at ih ⊢
      by_cases hn : n < 10
      · rw [Nat.toDigits_of_lt_base hn]
        by_cases hzero : n = 0
        · exact .inl (by rw [hzero]; rfl)
        · exact .inr ⟨_, [], rfl, fun h => hzero (Nat.digitChar_eq_zero.1 h)⟩
      · rw [Nat.toDigits_of_base_le (by decide) (Nat.not_lt.1 hn)]
        rcases ih (n / 10) (by omega) with hzero | ⟨c, cs, hcs, hc⟩
        · -- the digits before the last one would be those of zero
          have hvalue := Text.digitsValue_natDigits (n / 10)
          unfold natDigits at hvalue
          rw [hzero] at hvalue
          have hpos : 0 < n / 10 := Nat.div_pos (Nat.not_lt.1 hn) (by decide)
          rw [← hvalue] at hpos
          exact absurd hpos (by decide)
        · exact .inr ⟨c, cs ++ [Nat.digitChar (n % 10)], by rw [hcs]; rfl, hc⟩

theorem wholePart?_natDigits (n : Nat) {rest : List Char} (hrest : EndsMember rest) :
    wholePart? (natDigits n ++ rest) = some (natDigits n, rest) := by
  rcases natDigits_head n with hzero | ⟨c, cs, hcs, hc⟩
  · rw [hzero]
    rfl
  · have hdigits := Text.areDigits_natDigits n
    rw [hcs] at hdigits ⊢
    have hfirst : isNumberDigit c = true := hdigits c List.mem_cons_self
    have htail : AreDigits cs := hdigits.of_subset fun d hd => List.mem_cons_of_mem c hd
    rw [List.cons_append]
    unfold wholePart?
    split
    · rename_i h
      exact absurd (List.cons.inj h).1 hc
    · rename_i h
      obtain ⟨rfl, rfl⟩ := List.cons.inj h
      rw [if_pos hfirst, spanDigits_append htail hrest]
    · rename_i h
      cases h

/-- The minus of a whole number is split off. -/
theorem splitMinus_intText (n : Int) (rest : List Char) :
    splitMinus ((intText n).toList ++ rest) = (decide (n < 0), natDigits n.natAbs ++ rest) := by
  rw [toList_intText]
  by_cases hneg : n < 0
  · rw [if_pos (by simpa using hneg), decide_eq_true hneg]
    rfl
  · rw [if_neg (by simpa using hneg), decide_eq_false hneg]
    rcases hdigits : natDigits n.natAbs with _ | ⟨c, cs⟩
    · exact absurd hdigits (natDigits_ne_nil _)
    · have hc : c.isDigit = true :=
        Text.isDigit_of_mem_natDigits (hdigits ▸ List.mem_cons_self)
      rw [List.cons_append]
      unfold splitMinus
      split
      · rename_i h
        obtain ⟨rfl, -⟩ := List.cons.inj h
        cases hc
      · rfl

/-- Whole numbers are read up to the mark after them. -/
theorem readNumber_intText {n : Int} (hn : (natDigits n.natAbs).length ≤ NumberError.digitLimit)
    {rest : List Char} (hrest : EndsMember rest) :
    readNumber ((intText n).toList ++ rest) = .ok (.int n, rest) := by
  have hfraction : fractionPart rest = ([], rest) := by
    obtain ⟨c, more, rfl, rfl | rfl⟩ := hrest <;> rfl
  have hexponent : exponentPart rest = (none, rest) := by
    obtain ⟨c, more, rfl, rfl | rfl⟩ := hrest <;> rfl
  unfold readNumber
  rw [splitMinus_intText]
  simp only [wholePart?_natDigits n.natAbs hrest, hfraction, hexponent, List.isEmpty_nil,
    Option.isNone_none, Bool.and_self, if_true]
  rw [if_neg (Nat.not_lt.2 hn), Text.digitsValue_natDigits, signed_natAbs]

/-! ## Members -/

/-- The value is read from its text, up to the mark after it. -/
def IsReadBack (value : Json) : Prop :=
  ∀ depth rest, EndsMember rest →
    readValue depth (skipSpace (' ' :: (value.writeChars ++ rest))) = .ok (value, rest)

theorem skipSpace_cons {c : Char} (hc : isSpace c = false) (rest : List Char) :
    skipSpace (c :: rest) = c :: rest :=
  List.dropWhile_cons_of_neg (by simp [hc])

/-- What does not open an array or an object is a scalar. -/
theorem readValue_scalar (depth : Nat) {c : Char} (rest : List Char) (hlist : c ≠ '[')
    (hobject : c ≠ '\x7b') : readValue depth (c :: rest) = readScalar (c :: rest) := by
  cases depth <;> unfold readValue <;> split
  all_goals first
    | rfl
    | exact absurd (List.cons.inj ‹_›).1 hlist
    | exact absurd (List.cons.inj ‹_›).1 hobject

theorem isReadBack_str (s : String) : IsReadBack (.str s) := by
  intro depth rest _
  have hskip : skipSpace (' ' :: (writeChars (.str s) ++ rest)) =
      '"' :: (s.toList.flatMap escapeChar ++ '"' :: rest) := by
    unfold writeChars writeString
    rw [List.cons_append, List.cons_append, List.append_assoc]
    rfl
  rw [hskip, readValue_scalar depth _ (by decide) (by decide)]
  simp only [readScalar, readString_written, bind, Except.bind]

/-- A whole number starts with a minus or a digit. -/
theorem intText_head (n : Int) :
    ∃ c cs, (intText n).toList = c :: cs ∧ (c = '-' ∧ cs = natDigits n.natAbs ∨ c.isDigit) := by
  rw [toList_intText]
  split
  · exact ⟨'-', _, rfl, .inl ⟨rfl, rfl⟩⟩
  · rcases hdigits : natDigits n.natAbs with _ | ⟨c, cs⟩
    · exact absurd hdigits (natDigits_ne_nil _)
    · exact ⟨c, cs, rfl, .inr (Text.isDigit_of_mem_natDigits (hdigits ▸ List.mem_cons_self))⟩

theorem afterWord?_of_ne {w c : Char} (hne : w ≠ c) (word cs : List Char) :
    afterWord? (w :: word) (c :: cs) = none := by
  simp [afterWord?, hne]

/-- No word is read where a whole number stands. -/
theorem readScalar_intText (n : Int) (rest : List Char) :
    readScalar ((intText n).toList ++ rest) = readNumber ((intText n).toList ++ rest) := by
  obtain ⟨c, cs, hcs, hc⟩ := intText_head n
  have hne : ∀ d : Char, d.isDigit = false → d ≠ '-' → d ≠ c := by
    rintro d hd hminus rfl
    rcases hc with ⟨rfl, -⟩ | hc
    · exact hminus rfl
    · rw [hd] at hc
      cases hc
  -- the minus of the word is followed by a letter, that of a number by a digit
  have hinfinity : afterWord? ('-' :: "Infinity".toList) (c :: (cs ++ rest)) = none := by
    rcases hc with ⟨rfl, rfl⟩ | hc
    · rcases hdigits : natDigits n.natAbs with _ | ⟨d, ds⟩
      · exact absurd hdigits (natDigits_ne_nil _)
      · have hd : d.isDigit = true :=
          Text.isDigit_of_mem_natDigits (hdigits ▸ List.mem_cons_self)
        have hword : 'I' ≠ d := by
          rintro rfl
          cases hd
        simp [afterWord?, hword]
    · refine afterWord?_of_ne ?_ _ _
      rintro rfl
      cases hc
  have hwords : readWord? (c :: (cs ++ rest)) = none := by
    unfold readWord?
    rw [List.findSome?_eq_none_iff]
    intro entry hentry
    rw [Option.map_eq_none_iff]
    simp only [words, List.mem_cons, List.not_mem_nil, or_false] at hentry
    rcases hentry with rfl | rfl | rfl | rfl | rfl | rfl
    · exact afterWord?_of_ne (hne 'n' rfl (by decide)) _ _
    · exact afterWord?_of_ne (hne 't' rfl (by decide)) _ _
    · exact afterWord?_of_ne (hne 'f' rfl (by decide)) _ _
    · exact afterWord?_of_ne (hne 'N' rfl (by decide)) _ _
    · exact afterWord?_of_ne (hne 'I' rfl (by decide)) _ _
    · exact hinfinity
  rw [hcs, List.cons_append]
  unfold readScalar
  split
  · rename_i h
    exact absurd (List.cons.inj h).1.symm (hne '"' rfl (by decide))
  · rw [hwords]

theorem isReadBack_int {n : Int} (hn : (natDigits n.natAbs).length ≤ NumberError.digitLimit) :
    IsReadBack (.int n) := by
  intro depth rest hrest
  obtain ⟨c, cs, hcs, hc⟩ := intText_head n
  -- the first character is neither white space nor an opening bracket
  have hstart : isSpace c = false ∧ c ≠ '[' ∧ c ≠ '\x7b' := by
    rcases hc with ⟨rfl, -⟩ | hc
    · decide
    · refine ⟨?_, ?_, ?_⟩
      · rw [← Bool.not_eq_true]
        intro hspace
        simp only [isSpace, Bool.or_eq_true, decide_eq_true_eq] at hspace
        rcases hspace with ((rfl | rfl) | rfl) | rfl <;> cases hc
      · rintro rfl
        cases hc
      · rintro rfl
        cases hc
  have hskip : skipSpace (' ' :: ((intText n).toList ++ rest)) = (intText n).toList ++ rest := by
    rw [hcs, List.cons_append]
    exact skipSpace_cons hstart.1 _
  have hread := readNumber_intText hn hrest
  rw [← readScalar_intText] at hread
  show readValue depth (skipSpace (' ' :: ((intText n).toList ++ rest))) = _
  rw [hskip, ← hread, hcs, List.cons_append]
  exact readValue_scalar depth _ hstart.2.1 hstart.2.2

/-! ## Records -/

/-- The written form of a member. -/
def memberChars (member : String × Json) : List Char :=
  writeString member.1 ++ ':' :: ' ' :: writeChars member.2

theorem memberChars_append (key : String) (value : Json) (rest : List Char) :
    memberChars (key, value) ++ rest =
      '"' :: (key.toList.flatMap escapeChar ++
        '"' :: ':' :: ' ' :: (value.writeChars ++ rest)) := by
  unfold memberChars writeString
  simp only [List.cons_append, List.append_assoc, List.nil_append]

section Members

variable {value : Json} (hvalue : IsReadBack value) (depth fuel : Nat)
variable (members : List (String × Json)) (key : String)

include hvalue

/-- The last member ends the object. -/
theorem readMembers_last (rest : List Char) :
    readMembers (readValue depth) (fuel + 1) members
        (memberChars (key, value) ++ '\x7d' :: rest) = .ok (put key value members, rest) := by
  have hread := hvalue depth _ (endsMember_brace rest)
  rw [memberChars_append]
  simp only [readMembers, readString_written, bind, Except.bind,
    skipSpace_cons (show isSpace ':' = false by decide), hread,
    skipSpace_cons (show isSpace '\x7d' = false by decide)]

/-- After any other member the reader goes on with the next one. -/
theorem readMembers_next (next : List Char) :
    readMembers (readValue depth) (fuel + 1) members
        (memberChars (key, value) ++ ',' :: ' ' :: '"' :: next) =
      readMembers (readValue depth) fuel (put key value members) ('"' :: next) := by
  have hread := hvalue depth _ (endsMember_comma (' ' :: '"' :: next))
  rw [memberChars_append]
  have hskip : skipSpace (' ' :: '"' :: next) = '"' :: next := rfl
  simp only [readMembers, readString_written, bind, Except.bind,
    skipSpace_cons (show isSpace ':' = false by decide), hread,
    skipSpace_cons (show isSpace ',' = false by decide), hskip]

end Members

/-- The written members of a record are read one after the other. -/
theorem readMembers_written (depth : Nat) (rest : List Char) (members : List (String × Json)) :
    members ≠ [] → (∀ member ∈ members, IsReadBack member.2) →
      ∀ (fuel : Nat) (acc : List (String × Json)), members.length ≤ fuel →
        readMembers (readValue depth) fuel acc
            (joinWith [',', ' '] (members.map memberChars) ++ '\x7d' :: rest) =
          .ok (putAll acc members, rest) := by
  induction members with
  | nil =>
      intro hne
      exact absurd rfl hne
  | cons member more ih =>
      intro _ hvalues fuel acc hfuel
      obtain ⟨key, value⟩ := member
      have hvalue := hvalues _ List.mem_cons_self
      cases fuel with
      | zero => cases hfuel
      | succ fuel =>
          cases more with
          | nil => exact readMembers_last hvalue depth fuel acc key rest
          | cons second others =>
              have hmore := ih (List.cons_ne_nil _ _)
                (fun m hm => hvalues m (List.mem_cons_of_mem _ hm)) fuel (put key value acc)
                (Nat.le_of_succ_le_succ hfuel)
              -- the next member starts with the quote of its key
              have hquote : ∃ next, joinWith [',', ' '] ((second :: others).map memberChars) ++
                  '\x7d' :: rest = '"' :: next := by
                cases others <;> exact ⟨_, rfl⟩
              obtain ⟨next, hnext⟩ := hquote
              rw [hnext] at hmore
              show readMembers (readValue depth) (fuel + 1) acc (memberChars (key, value) ++
                [',', ' '] ++ joinWith [',', ' '] ((second :: others).map memberChars) ++
                '\x7d' :: rest) = _
              rw [List.append_assoc, hnext, List.append_assoc]
              exact (readMembers_next hvalue depth fuel acc key next).trans hmore

theorem length_le_length_joinWith (members : List (String × Json)) :
    members.length ≤ (joinWith [',', ' '] (members.map memberChars)).length := by
  have hpos : ∀ member, 0 < (memberChars member).length := by
    intro member
    rw [memberChars, List.length_append]
    exact Nat.add_pos_right _ (Nat.succ_pos _)
  induction members with
  | nil => exact Nat.le_refl 0
  | cons member more ih =>
      cases more with
      | nil => exact hpos member
      | cons second others =>
          have hmember := hpos member
          rw [List.map_cons, List.map_cons, joinWith, List.length_append, List.length_append,
            ← List.map_cons, List.length_cons]
          · omega
          · simp

theorem writeMembers_eq_map (members : List (String × Json)) :
    writeMembers members = members.map fun member => (member.1, memberChars member) := by
  induction members with
  | nil => rfl
  | cons member more ih => rw [writeMembers, ih, List.map_cons]; rfl

/-- The members are written in the order of their keys. -/
theorem sortMembers_writeMembers (members : List (String × Json)) :
    (sortMembers (writeMembers members)).map Prod.snd =
      (sortMembers members).map memberChars := by
  have hsort := List.map_mergeSort (f := fun member => (member.1, memberChars member))
    (r := fun a b => decide (a.1 ≤ b.1)) (s := fun a b => decide (a.1 ≤ b.1)) (l := members)
    fun _ _ _ _ => rfl
  unfold sortMembers
  rw [writeMembers_eq_map, ← hsort, List.map_map]
  rfl

/-- **Records** are read back with their members in the order of their keys. -/
theorem read_write_object {members : List (String × Json)}
    (hvalues : ∀ member ∈ members, IsReadBack member.2) :
    read (write (.object members)) = .ok (.object (putAll [] (sortMembers members))) := by
  have hchars : (write (.object members)).toList = '\x7b' ::
      (joinWith [',', ' '] ((sortMembers members).map memberChars) ++ ['\x7d']) := by
    unfold write writeChars
    rw [String.toList_ofList, sortMembers_writeMembers, List.cons_append]
  have hsorted : ∀ member ∈ sortMembers members, IsReadBack member.2 :=
    fun member hmember => hvalues member (List.mem_mergeSort.1 hmember)
  have hvalue : ∀ depth, readValue (depth + 1) ('\x7b' ::
      (joinWith [',', ' '] ((sortMembers members).map memberChars) ++ ['\x7d'])) =
      .ok (.object (putAll [] (sortMembers members)), []) := by
    intro depth
    rcases hmembers : sortMembers members with _ | ⟨first, more⟩
    · rfl
    · rw [hmembers] at hsorted
      obtain ⟨next, hnext⟩ : ∃ next, joinWith [',', ' '] ((first :: more).map memberChars) ++
          ['\x7d'] = '"' :: next := by
        cases more <;> exact ⟨_, rfl⟩
      -- every member has a character, so the fuel is enough
      have hlength := length_le_length_joinWith (first :: more)
      have hread := readMembers_written depth [] (first :: more) (List.cons_ne_nil _ _) hsorted
        (('"' :: next).length + 1) [] (by
          rw [← hnext, List.length_append]
          omega)
      rw [hnext] at hread
      rw [hnext, readValue, skipSpace_cons (show isSpace '"' = false by decide)]
      show (readMembers (readValue depth) (('"' :: next).length + 1) [] ('"' :: next) >>=
        fun found => Except.ok (object found.1, found.2)) = _
      rw [hread]
      rfl
  unfold read
  rw [hchars]
  simp only [skipSpace_cons (show isSpace '\x7b' = false by decide), nestingLimit, hvalue]
  rfl

end BroadcastIntake.Json
