import BroadcastIntake.Json.Reader
import BroadcastIntake.Json.Writer

/-!
# JSON strings that are read back

A string is written in ASCII: a character beyond it becomes the escape of one code unit, or of two
when it lies beyond the first `0x10000`.  No character is half a pair, so a single escape is never
taken for the first half of one, and every written string is read back as it was.
-/

namespace BroadcastIntake.Json

/-! ## Code units -/

theorem hexValue?_digitChar {d : Nat} (hd : d < 16) : hexValue? (Nat.digitChar d) = some d := by
  have hall : ∀ d : Fin 16, hexValue? (Nat.digitChar d) = some d.val := by decide
  exact hall ⟨d, hd⟩

/-- The last of the hexadecimal digits, and those before it. -/
theorem hexDigits_succ (width n : Nat) :
    Text.hexDigits (width + 2) n =
      Text.hexDigits (width + 1) (n / 16) ++ [Nat.digitChar (n % 16)] := by
  unfold Text.hexDigits
  dsimp only
  by_cases hn : n < 16
  · rw [Nat.toDigits_of_lt_base hn, Nat.div_eq_of_lt hn, Nat.toDigits_zero, Nat.mod_eq_of_lt hn]
    show List.replicate (width + 1) '0' ++ _ = List.replicate width '0' ++ ['0'] ++ _
    rw [List.replicate_succ']
  · rw [Nat.toDigits_of_base_le (by decide) (Nat.not_lt.1 hn), List.length_append,
      List.length_singleton, ← List.append_assoc]
    rw [show width + 2 - ((Nat.toDigits 16 (n / 16)).length + 1) =
      width + 1 - (Nat.toDigits 16 (n / 16)).length by omega]

theorem hexDigits_four {n : Nat} (hn : n < 0x10000) :
    Text.hexDigits 4 n = [Nat.digitChar (n / 4096), Nat.digitChar (n / 256 % 16),
      Nat.digitChar (n / 16 % 16), Nat.digitChar (n % 16)] := by
  have hone : Text.hexDigits 1 (n / 4096) = [Nat.digitChar (n / 4096)] := by
    unfold Text.hexDigits
    rw [Nat.toDigits_of_lt_base (by omega)]
    rfl
  rw [hexDigits_succ 2, hexDigits_succ 1, hexDigits_succ 0]
  rw [show n / 16 / 16 / 16 = n / 4096 by omega, show n / 16 / 16 = n / 256 by omega, hone]
  rfl

/-- The hexadecimal digits of a code unit are read as the unit. -/
theorem hexUnit?_hexDigits {n : Nat} (hn : n < 0x10000) (rest : List Char) :
    hexUnit? (Text.hexDigits 4 n ++ rest) = some (n, rest) := by
  have hvalue : ((n / 4096 * 16 + n / 256 % 16) * 16 + n / 16 % 16) * 16 + n % 16 = n := by omega
  rw [hexDigits_four hn]
  simp only [List.cons_append, List.nil_append, hexUnit?]
  rw [hexValue?_digitChar (by omega), hexValue?_digitChar (by omega),
    hexValue?_digitChar (by omega), hexValue?_digitChar (by omega)]
  simp only [Option.bind_eq_bind, Option.bind_some, hvalue]
  rfl

/-! ## Characters -/

theorem isHighHalf_iff {unit : Nat} : isHighHalf unit = true ↔ 0xD800 ≤ unit ∧ unit < 0xDC00 := by
  simp [isHighHalf]

theorem isLowHalf_iff {unit : Nat} : isLowHalf unit = true ↔ 0xDC00 ≤ unit ∧ unit < 0xE000 := by
  simp [isLowHalf]

/-- No character is half a pair. -/
theorem not_half (c : Char) : isHighHalf c.toNat = false ∧ isLowHalf c.toNat = false := by
  have hvalid : c.toNat < 0xD800 ∨ 0xDFFF < c.toNat ∧ c.toNat < 0x110000 := c.valid
  rw [← Bool.not_eq_true, ← Bool.not_eq_true, isHighHalf_iff, isLowHalf_iff]
  omega

/-- The escape of a character is read as the character. -/
theorem readUnit_single {c : Char} (hc : c.toNat < 0x10000) (from_ : List Char) {rest : List Char}
    (hrest : rest ≠ []) : readUnit from_ (Text.hexDigits 4 c.toNat ++ rest) = .ok (c, rest) := by
  obtain ⟨hhigh, hlow⟩ := not_half c
  unfold readUnit
  rw [hexUnit?_hexDigits hc]
  cases rest with
  | nil => exact absurd rfl hrest
  | cons d more => simp [hhigh, hlow, unitChar]

theorem isHighHalf_highHalf (c : Char) : isHighHalf (highHalf c) = true := by
  have hvalid : c.toNat < 0xD800 ∨ 0xDFFF < c.toNat ∧ c.toNat < 0x110000 := c.valid
  rw [isHighHalf_iff]
  unfold highHalf
  omega

theorem isLowHalf_lowHalf (c : Char) : isLowHalf (lowHalf c) = true := by
  rw [isLowHalf_iff]
  unfold lowHalf
  omega

theorem lt_of_isHighHalf {unit : Nat} (hunit : isHighHalf unit = true) : unit < 0x10000 :=
  Nat.lt_trans (isHighHalf_iff.1 hunit).2 (by decide)

theorem lt_of_isLowHalf {unit : Nat} (hunit : isLowHalf unit = true) : unit < 0x10000 :=
  Nat.lt_trans (isLowHalf_iff.1 hunit).2 (by decide)

theorem pairChar_halves {c : Char} (hc : 0x10000 ≤ c.toNat) :
    pairChar (highHalf c) (lowHalf c) = c := by
  have hcode : 0x10000 + (highHalf c - 0xD800) * 0x400 + (lowHalf c - 0xDC00) = c.toNat := by
    unfold highHalf lowHalf
    omega
  unfold pairChar
  rw [hcode]
  exact Char.ofNat_toNat c

/-- A pair of units is read as the character that it makes. -/
theorem readUnit_pair {high low : Nat} (hhigh : isHighHalf high = true)
    (hlow : isLowHalf low = true) (from_ : List Char) {rest : List Char} (hrest : rest ≠ []) :
    readUnit from_ (Text.hexDigits 4 high ++ (unitEscape low ++ rest)) =
      .ok (pairChar high low, rest) := by
  have hlength : ¬ (Text.hexDigits 4 low ++ rest).length ≤ 4 := by
    have hpos := List.length_pos_iff.2 hrest
    rw [hexDigits_four (lt_of_isLowHalf hlow), List.length_append]
    simp only [List.length_cons, List.length_nil]
    omega
  unfold readUnit
  rw [hexUnit?_hexDigits (lt_of_isHighHalf hhigh)]
  simp only [unitEscape, List.cons_append, hhigh, if_true]
  rw [if_neg hlength, hexUnit?_hexDigits (lt_of_isLowHalf hlow)]
  simp only [hlow, if_true]

/-- The ways in which a character is written. -/
inductive Escapes (c : Char) : List Char → Prop
  | short {e : Char} (he : shortEscape? e = some c) : Escapes c ['\\', e]
  | plain (hlow : 0x20 ≤ c.toNat) (hquote : c ≠ '"') (hslash : c ≠ '\\') : Escapes c [c]
  | unit (hsmall : c.toNat < 0x10000) : Escapes c (unitEscape c.toNat)
  | pair (hlarge : 0x10000 ≤ c.toNat) :
      Escapes c (unitEscape (highHalf c) ++ unitEscape (lowHalf c))

theorem escapes_escapeChar (c : Char) : Escapes c (escapeChar c) := by
  have hshort : ∀ {e d : Char}, shortEscape? e = some d → c = d → Escapes c ['\\', e] := by
    rintro e d he rfl
    exact .short he
  unfold escapeChar
  -- seven characters have a letter of their own
  iterate 7
    split
    · exact hshort rfl (by assumption)
  rename_i hquote hslash _ _ _ _ _
  split
  · rename_i hplain
    simp only [Bool.and_eq_true, decide_eq_true_eq] at hplain
    exact .plain hplain.1 hquote hslash
  · split
    · rename_i hsmall
      exact .unit hsmall
    · rename_i hlarge
      exact .pair (Nat.not_lt.1 hlarge)

theorem escapeChar_ne_nil (c : Char) : escapeChar c ≠ [] := by
  have hescapes := escapes_escapeChar c
  generalize escapeChar c = cs at hescapes ⊢
  cases hescapes with
  | short _ => exact List.cons_ne_nil _ _
  | plain _ _ _ => exact List.cons_ne_nil _ _
  | unit _ => exact List.cons_ne_nil _ _
  | pair _ => exact List.append_ne_nil_of_left_ne_nil (List.cons_ne_nil _ _) _

/-! ## Strings -/

/-- What the reader makes of a string, with one more character before it. -/
def withChar (c : Char) : Except Failure (List Char × List Char) →
    Except Failure (List Char × List Char)
  | .ok (ds, after) => .ok (c :: ds, after)
  | .error failure => .error failure

section Chars

variable (from_ : List Char) (fuel : Nat)

/-- A character that stands for itself is taken as it is. -/
theorem readChars_plain {c : Char} (hlow : 0x20 ≤ c.toNat) (hquote : c ≠ '"') (hslash : c ≠ '\\')
    (rest : List Char) :
    readChars from_ (fuel + 1) (c :: rest) = withChar c (readChars from_ fuel rest) := by
  have hcontrol : ¬ c.toNat ≤ 0x1F := by omega
  rw [readChars.eq_def]
  dsimp only
  rw [if_neg hquote, if_neg hslash, if_neg hcontrol]
  cases readChars from_ fuel rest <;> rfl

/-- A backslash and a letter are taken as the character that they stand for. -/
theorem readChars_short {e d : Char} (he : shortEscape? e = some d) (rest : List Char) :
    readChars from_ (fuel + 1) ('\\' :: e :: rest) = withChar d (readChars from_ fuel rest) := by
  have hu : e ≠ 'u' := by
    rintro rfl
    cases he
  rw [readChars.eq_def]
  dsimp only
  rw [if_neg (by decide), if_pos rfl]
  split
  · rename_i h
    cases h
  · rename_i h
    exact absurd (List.cons.inj h).1 hu
  · rename_i h
    obtain ⟨rfl, rfl⟩ := List.cons.inj h
    rw [he]
    cases readChars from_ fuel rest <;> rfl

/-- A unit or a pair of units is taken as its character. -/
theorem readChars_unit {c : Char} {more rest : List Char}
    (hunit : readUnit ('u' :: more) more = .ok (c, rest)) :
    readChars from_ (fuel + 1) ('\\' :: 'u' :: more) = withChar c (readChars from_ fuel rest) := by
  rw [readChars.eq_def]
  dsimp only
  rw [if_neg (by decide), if_pos rfl]
  simp only [hunit, bind, Except.bind]
  cases readChars from_ fuel rest <;> rfl

/-- A written character is taken as the character. -/
theorem readChars_escapeChar (c : Char) {rest : List Char} (hrest : rest ≠ []) :
    readChars from_ (fuel + 1) (escapeChar c ++ rest) = withChar c (readChars from_ fuel rest) := by
  have hescapes := escapes_escapeChar c
  generalize escapeChar c = cs at hescapes ⊢
  cases hescapes with
  | short he => exact readChars_short from_ fuel he rest
  | plain hlow hquote hslash => exact readChars_plain from_ fuel hlow hquote hslash rest
  | unit hsmall => exact readChars_unit from_ fuel (readUnit_single hsmall _ hrest)
  | pair hlarge =>
      have hpair := readUnit_pair (isHighHalf_highHalf c) (isLowHalf_lowHalf c)
        ('u' :: (Text.hexDigits 4 (highHalf c) ++ (unitEscape (lowHalf c) ++ rest))) hrest
      rw [pairChar_halves hlarge] at hpair
      -- rewritten, for a comparison by evaluation would count down from the halves
      rw [List.append_assoc, unitEscape, List.cons_append, List.cons_append]
      exact readChars_unit from_ fuel hpair

/-- A written string is read up to its quote. -/
theorem readChars_written (cs rest : List Char) : ∀ fuel, cs.length < fuel →
    readChars from_ fuel (cs.flatMap escapeChar ++ '"' :: rest) = .ok (cs, rest) := by
  induction cs with
  | nil =>
      intro fuel hfuel
      cases fuel with
      | zero => cases hfuel
      | succ fuel => simp [readChars]
  | cons c cs ih =>
      intro fuel hfuel
      cases fuel with
      | zero => cases hfuel
      | succ fuel =>
          rw [List.flatMap_cons, List.append_assoc, readChars_escapeChar from_ fuel c (by simp),
            ih fuel (Nat.lt_of_succ_lt_succ hfuel)]
          rfl

end Chars

theorem length_le_length_flatMap_escapeChar (cs : List Char) :
    cs.length ≤ (cs.flatMap escapeChar).length := by
  induction cs with
  | nil => exact Nat.le_refl 0
  | cons c cs ih =>
      have hpos := List.length_pos_iff.2 (escapeChar_ne_nil c)
      rw [List.flatMap_cons, List.length_append, List.length_cons]
      omega

/-- **Strings** are read back as they were written. -/
theorem readString_written (from_ : List Char) (s : String) (rest : List Char) :
    readString from_ (s.toList.flatMap escapeChar ++ '"' :: rest) = .ok (s, rest) := by
  have hlength := length_le_length_flatMap_escapeChar s.toList
  have hfuel : s.toList.length < (s.toList.flatMap escapeChar ++ '"' :: rest).length + 1 := by
    rw [List.length_append]
    omega
  unfold readString
  rw [readChars_written from_ s.toList rest _ hfuel]
  simp only [bind, Except.bind, String.ofList_toList]

end BroadcastIntake.Json
