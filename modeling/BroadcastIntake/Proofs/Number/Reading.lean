import BroadcastIntake.Proofs.Number.Digits
import BroadcastIntake.Proofs.Text.Blank

/-!
# Numbers that are read back

A whole number is read back from its text, unless it has more digits than are read.  The text of a
finite number of double precision is described by `Writes`: digits, perhaps a point and digits, and
perhaps an exponent.  Such a text is read as the number nearest to the decimal that it writes.
-/

namespace BroadcastIntake

namespace Text

/-- The characters are common digits. -/
def AreDigits (cs : List Char) : Prop :=
  ∀ c ∈ cs, c.isDigit = true

theorem areDigits_natDigits (n : Nat) : AreDigits (natDigits n) :=
  fun _ => isDigit_of_mem_natDigits

theorem AreDigits.append {cs ds : List Char} (hcs : AreDigits cs) (hds : AreDigits ds) :
    AreDigits (cs ++ ds) := by
  intro c hc
  rcases List.mem_append.1 hc with h | h
  · exact hcs c h
  · exact hds c h

theorem AreDigits.of_subset {cs ds : List Char} (hds : AreDigits ds) (hsub : ∀ c ∈ cs, c ∈ ds) :
    AreDigits cs :=
  fun c hc => hds c (hsub c hc)

theorem areDigits_replicate (n : Nat) : AreDigits (List.replicate n '0') := by
  intro c hc
  rw [(List.mem_replicate.1 hc).2]
  rfl

theorem AreDigits.isDigit {cs : List Char} (hcs : AreDigits cs) : ∀ c ∈ cs, isDigit c = true :=
  fun c hc => isDigit_of_common (hcs c hc)

/-- No digit of any script is a blank. -/
theorem isBlank_of_isDigit {c : Char} (hc : isDigit c = true) : isBlank c = false := by
  have hrows : ∀ start ∈ zeroCodes, ∀ k : Fin 10, blankCodes.contains (start + k.val) = false := by
    decide +kernel
  obtain ⟨start, hstart⟩ := Option.isSome_iff_exists.1 (Option.isSome_map.symm.trans hc)
  have hrange := List.find?_some hstart
  simp only [Bool.and_eq_true, decide_eq_true_eq] at hrange
  have hvalue : c.toNat - start < 10 := by omega
  have hcode : c.toNat = start + (c.toNat - start) := by omega
  have hblank := hrows start (List.mem_of_find?_eq_some hstart) ⟨_, hvalue⟩
  unfold isBlank
  rw [hcode, hblank]

theorem isMargin_of_isDigit {c : Char} (hc : isDigit c = true) : isMargin c = false := by
  rw [isMargin, isBlank_of_isDigit hc, Bool.false_and]

/-- No digit of any script is a capital letter. -/
theorem asciiLower_of_isDigit {c : Char} (hc : isDigit c = true) : asciiLower c = c := by
  have hcapitals : ∀ k : Fin 26, isDigit (Char.ofNat ('A'.toNat + k.val)) = false := by
    decide +kernel
  unfold asciiLower
  split
  · rename_i hcapital
    simp only [Bool.and_eq_true, decide_eq_true_eq] at hcapital
    have hlow : 'A'.toNat ≤ c.toNat := UInt32.le_iff_toNat_le.1 hcapital.1
    have hhigh : c.toNat ≤ 'Z'.toNat := UInt32.le_iff_toNat_le.1 hcapital.2
    have hrange : c.toNat - 'A'.toNat < 26 :=
      Nat.lt_of_le_of_lt (Nat.sub_le_sub_right hhigh _) (by decide)
    have hnot := hcapitals ⟨c.toNat - 'A'.toNat, hrange⟩
    rw [Nat.add_sub_cancel' hlow, Char.ofNat_toNat, hc] at hnot
    cases hnot
  · rfl

/-- Splitting off the sign of a written number. -/
theorem scanSign_written {body : List Char} (hne : body ≠ [])
    (hfirst : ∀ c ∈ body.head?, isDigit c = true) (negative : Bool) :
    scanSign (if negative then '-' :: body else body) = (negative, body) := by
  cases negative with
  | true => rfl
  | false =>
      cases body with
      | nil => exact absurd rfl hne
      | cons c rest => exact scanSign_of_isDigit (hfirst c rfl)

end Text

open Text

/-! ## Whole numbers -/

theorem toList_intText (n : Int) :
    (intText n).toList =
      if decide (n < 0) then '-' :: natDigits n.natAbs else natDigits n.natAbs := by
  unfold intText
  rw [String.toList_ofList]
  by_cases hn : n < 0 <;> simp [hn]

theorem natDigits_ne_nil (n : Nat) : natDigits n ≠ [] :=
  Nat.toDigits_ne_nil

/-- A whole number is its size with its sign. -/
theorem signed_natAbs (n : Int) : (if decide (n < 0) then -(n.natAbs : Int) else n.natAbs) = n := by
  by_cases hn : n < 0
  · rw [if_pos (by simpa using hn)]
    omega
  · rw [if_neg (by simpa using hn)]
    omega

/-- A row of digits with its sign is read as the number that it writes. -/
theorem readInt_written {body : List Char} (hne : body ≠ []) (hbody : ∀ c ∈ body, isDigit c = true)
    (hlength : body.length ≤ NumberError.digitLimit) (negative : Bool) :
    readInt (String.ofList (if negative then '-' :: body else body)) =
      .ok (if negative then -(digitsValue body : Int) else digitsValue body) := by
  have hmargin : ∀ c ∈ if negative then '-' :: body else body, isMargin c = false := by
    intro c hc
    split at hc
    · rcases List.mem_cons.1 hc with rfl | hc
      · decide
      · exact isMargin_of_isDigit (hbody c hc)
    · exact isMargin_of_isDigit (hbody c hc)
  have hscan := scanDigits_append hbody endsDigits_nil
  rw [List.append_nil] at hscan
  unfold readInt
  rw [String.toList_ofList, trim_eq_self hmargin,
    scanSign_written hne fun c hc => hbody c (List.mem_of_mem_head? hc)]
  simp only [hscan]
  split
  · rename_i hnil
    simp [hne] at hnil
  · rename_i hrest
    cases (Prod.mk.inj hrest).2
  · rename_i ds hds
    obtain ⟨rfl, -⟩ := Prod.mk.inj hds
    rw [List.length_map, if_neg (Nat.not_lt.2 hlength), ofDigitValues_map]

/-- **Whole numbers** are read back from their texts. -/
theorem readInt_intText {n : Int} (hn : (natDigits n.natAbs).length ≤ NumberError.digitLimit) :
    readInt (intText n) = .ok n := by
  have hread := readInt_written (natDigits_ne_nil n.natAbs) (areDigits_natDigits n.natAbs).isDigit
    hn (decide (n < 0))
  rw [← toList_intText, String.ofList_toList, digitsValue_natDigits, signed_natAbs] at hread
  exact hread

/-! ## Numbers of double precision -/

/-- The characters write an exponent: nothing, or an `e`, a sign and digits. -/
inductive WritesExponent : List Char → Int → Prop
  | none : WritesExponent [] 0
  | some {ds : List Char} (negative : Bool) (hne : ds ≠ []) (hds : AreDigits ds) :
      WritesExponent ('e' :: (if negative then '-' else '+') :: ds)
        (if negative then -(digitsValue ds : Int) else digitsValue ds)

/-- The characters write a decimal: digits, perhaps a point and more digits, and an exponent.  The
digits together and the exponent of the last one give its value. -/
inductive Writes : List Char → List Char → Int → Prop
  | whole {whole exponent : List Char} {k : Int} (hne : whole ≠ []) (hwhole : AreDigits whole)
      (hexponent : WritesExponent exponent k) : Writes (whole ++ exponent) whole k
  | pointed {whole fraction exponent : List Char} {k : Int} (hne : whole ≠ [])
      (hwhole : AreDigits whole) (hfraction : AreDigits fraction)
      (hexponent : WritesExponent exponent k) :
      Writes (whole ++ '.' :: (fraction ++ exponent)) (whole ++ fraction) (k - fraction.length)

theorem WritesExponent.endsDigits {cs : List Char} {k : Int} (hcs : WritesExponent cs k) :
    EndsDigits cs := by
  cases hcs with
  | none => exact endsDigits_nil
  | some negative hne hds => exact endsDigits_cons (by decide)

theorem scanExponent_of_writes {cs : List Char} {k : Int} (hcs : WritesExponent cs k) :
    scanExponent cs = some (k, []) := by
  cases hcs with
  | none => rfl
  | @some ds negative hne hds =>
      have hscan := scanDigits_append hds.isDigit endsDigits_nil
      rw [List.append_nil] at hscan
      have hsign : scanSign ((if negative then '-' else '+') :: ds) = (negative, ds) := by
        cases negative <;> rfl
      have hvalue := ofDigitValues_map ds
      unfold scanExponent
      simp only [decide_true, Bool.true_or, if_true, hsign, hscan]
      rw [← hvalue]
      cases hmap : ds.map fun c => (digitValue? c).getD 0 with
      | nil => exact absurd (List.map_eq_nil_iff.1 hmap) hne
      | cons d rest => rfl

/-- A written decimal is read as the number nearest to it. -/
theorem readDecimal?_of_writes {cs digits : List Char} {k : Int} (hcs : Writes cs digits k)
    (negative : Bool) :
    readDecimal? negative cs = some (Binary64.ofDecimal negative (digitsValue digits) k) := by
  cases hcs with
  | whole hne hwhole hexponent =>
      unfold readDecimal?
      simp only [scanDigits_append hwhole.isDigit hexponent.endsDigits]
      cases hexponent with
      | none => simp [hne, scanExponent, ofDigitValues_map]
      | some negative' hne' hds =>
          have hexp := scanExponent_of_writes (.some negative' hne' hds)
          simp [hne, hexp, ofDigitValues_map]
  | @pointed whole fraction exponent k hne hwhole hfraction hexponent =>
      have hpoint : EndsDigits ('.' :: (fraction ++ exponent)) := endsDigits_cons (by decide)
      have hboth := ofDigitValues_map (whole ++ fraction)
      rw [List.map_append] at hboth
      unfold readDecimal?
      simp only [scanDigits_append hwhole.isDigit hpoint,
        scanDigits_append hfraction.isDigit hexponent.endsDigits]
      simp [hne, scanExponent_of_writes hexponent, hboth]

/-- Nothing in a written decimal is trimmed. -/
theorem Writes.not_margin {cs digits : List Char} {k : Int} (hcs : Writes cs digits k) :
    ∀ c ∈ cs, isMargin c = false := by
  have hexponents : ∀ {ds : List Char} {j : Int}, WritesExponent ds j →
      ∀ c ∈ ds, isMargin c = false := by
    intro ds j hds c hc
    cases hds with
    | none => cases hc
    | some negative _ hdigits =>
        rcases List.mem_cons.1 hc with rfl | hc
        · decide
        · rcases List.mem_cons.1 hc with rfl | hc
          · cases negative <;> decide
          · exact isMargin_of_isDigit (hdigits.isDigit c hc)
  intro c hc
  cases hcs with
  | whole hne hwhole hexponent =>
      rcases List.mem_append.1 hc with hc | hc
      · exact isMargin_of_isDigit (hwhole.isDigit c hc)
      · exact hexponents hexponent c hc
  | pointed hne hwhole hfraction hexponent =>
      rcases List.mem_append.1 hc with hc | hc
      · exact isMargin_of_isDigit (hwhole.isDigit c hc)
      · rcases List.mem_cons.1 hc with rfl | hc
        · decide
        · rcases List.mem_append.1 hc with hc | hc
          · exact isMargin_of_isDigit (hfraction.isDigit c hc)
          · exact hexponents hexponent c hc

/-- A written decimal starts with a digit. -/
theorem Writes.head {cs digits : List Char} {k : Int} (hcs : Writes cs digits k) :
    cs ≠ [] ∧ ∀ c ∈ cs.head?, isDigit c = true := by
  have hstart : ∀ {whole rest : List Char}, whole ≠ [] → AreDigits whole →
      whole ++ rest ≠ [] ∧ ∀ c ∈ (whole ++ rest).head?, isDigit c = true := by
    intro whole rest hne hwhole
    cases whole with
    | nil => exact absurd rfl hne
    | cons c cs =>
        refine ⟨by simp, ?_⟩
        rintro d ⟨⟩
        exact hwhole.isDigit c List.mem_cons_self
  cases hcs with
  | whole hne hwhole _ => exact hstart hne hwhole
  | pointed hne hwhole _ _ => exact hstart hne hwhole

/-- A signed decimal is read as the number nearest to it. -/
theorem readBinary64_of_writes {cs digits : List Char} {k : Int} (hcs : Writes cs digits k)
    (negative : Bool) :
    readBinary64 (String.ofList (if negative then '-' :: cs else cs)) =
      .ok (Binary64.ofDecimal negative (digitsValue digits) k) := by
  have hmargin : ∀ c ∈ if negative then '-' :: cs else cs, isMargin c = false := by
    intro c hc
    split at hc
    · rcases List.mem_cons.1 hc with rfl | hc
      · decide
      · exact hcs.not_margin c hc
    · exact hcs.not_margin c hc
  obtain ⟨hne, hfirst⟩ := hcs.head
  -- the words for infinity and for no number start with a letter
  have hword : ∀ (letter : Char) (word : List Char), isDigit letter = false →
      String.ofList (cs.map asciiLower) ≠ String.ofList (letter :: word) := by
    intro letter word hletter hsame
    have hchars := String.ofList_injective hsame
    obtain ⟨c, rest, rfl⟩ := List.exists_cons_of_ne_nil hne
    have hc := hfirst c rfl
    rw [List.map_cons] at hchars
    rw [← (List.cons.inj hchars).1, asciiLower_of_isDigit hc, hc] at hletter
    cases hletter
  unfold readBinary64
  rw [String.toList_ofList, trim_eq_self hmargin, scanSign_written hne hfirst]
  simp only [readDecimal?_of_writes hcs negative]
  rw [if_neg, if_neg]
  · exact hword 'n' "an".toList (by decide)
  · simp only [Bool.or_eq_true, decide_eq_true_eq, not_or]
    exact ⟨hword 'i' "nf".toList (by decide), hword 'i' "nfinity".toList (by decide)⟩

/-! ## The texts of decimals -/

theorem areDigits_exponentDigits (n : Nat) : AreDigits (Binary64.exponentDigits n) := by
  unfold Binary64.exponentDigits
  split
  · intro c hc
    rcases List.mem_cons.1 hc with rfl | hc
    · rfl
    · exact isDigit_of_mem_natDigits hc
  · exact areDigits_natDigits n

theorem exponentDigits_ne_nil (n : Nat) : Binary64.exponentDigits n ≠ [] := by
  unfold Binary64.exponentDigits
  split
  · exact List.cons_ne_nil _ _
  · exact natDigits_ne_nil n

/-- The digits of a decimal without the zeros at their end. -/
theorem areDigits_stripped (n : Nat) :
    AreDigits ((natDigits n).reverse.dropWhile (· = '0')).reverse :=
  (areDigits_natDigits n).of_subset fun _ hc =>
    List.mem_reverse.1 ((List.dropWhile_sublist _).subset (List.mem_reverse.1 hc))

end BroadcastIntake
