import BroadcastIntake.Csv

/-!
# Records that are read back

Reading what was written gives the same records again, one by one, until a field is longer than the
reader takes.  `read_write` states both at once: the records up to the first with such a field, and
the fault in its place.

The proof follows a field through the reader.  A reader that is `Fresh` at the start of a field
takes the written field to a reader that is `Done` with it, whichever way the field was written;
and a done reader closes the field at a comma and the record at a line end.
-/

namespace BroadcastIntake.Csv

/-- Whether all fields of a record are short enough to be read. -/
def fits (record : List String) : Bool :=
  record.all fun field => field.length ≤ fieldLimit

/-- What reading gives back of records that were written. -/
def readBack : List (List String) → List (Except Fault (List String))
  | [] => []
  | record :: rest =>
    if fits record then .ok record :: readBack rest else [.error .fieldTooLong]

/-- The reader is at the start of a field. -/
structure Fresh (p : Partial) : Prop where
  place : p.place = .fieldStart ∨ p.place = .recordStart false
  field : p.field = []
  room : p.room = fieldLimit

/-- A reader that was at the start of a field has read the given characters of it. -/
structure Done (start p : Partial) (cs : List Char) : Prop where
  field : p.field = cs.reverse
  fields : p.fields = start.fields
  place : p.place = .inField ∨ p.place = .afterQuote ∨ cs = [] ∧ p.place = start.place

theorem fresh_between : Fresh (.between false) :=
  ⟨.inr rfl, rfl, rfl⟩

theorem fresh_nextField (p : Partial) : Fresh p.nextField :=
  ⟨.inl rfl, rfl, rfl⟩

/-- Characters that need no quotes are taken one by one. -/
theorem readFrom_plain (cs rest : List Char) :
    ∀ p : Partial, p.place = .inField → cs.any needsQuotes = false →
      readFrom p (cs ++ rest) =
        if cs.length ≤ p.room then
          readFrom { p with
            place := .inField
            field := cs.reverse ++ p.field
            room := p.room - cs.length } rest
        else [.error .fieldTooLong] := by
  induction cs with
  | nil =>
      intro p hplace _
      simp [← hplace]
  | cons c cs ih =>
      intro p hplace hplain
      obtain ⟨hc, hcs⟩ : needsQuotes c = false ∧ cs.any needsQuotes = false := by
        simpa using hplain
      have hscan : scan p c = (p.push .inField c).map (·, none) := by
        simp only [needsQuotes, Bool.or_eq_false_iff, decide_eq_false_iff_not] at hc
        simp [scan, hplace, scanPlain, hc]
      rw [List.cons_append, readFrom, hscan]
      rcases hroom : p.room with _ | room
      · simp [Partial.push, hroom, Except.map]
      · simp only [Partial.push, hroom, Except.map]
        rw [ih _ rfl hcs]
        simp [Nat.succ_sub_succ]

/-- Characters between quotes are taken one by one, a quote for every two. -/
theorem readFrom_quoted (cs rest : List Char) :
    ∀ p : Partial, p.place = .inQuotes →
      readFrom p (doubleQuotes cs ++ '"' :: rest) =
        if cs.length ≤ p.room then
          readFrom { p with
            place := .afterQuote
            field := cs.reverse ++ p.field
            room := p.room - cs.length } rest
        else [.error .fieldTooLong] := by
  induction cs with
  | nil =>
      intro p hplace
      simp [doubleQuotes, readFrom, scan, hplace]
  | cons c cs ih =>
      intro p hplace
      -- whatever the character, the reader goes on as after a push between quotes
      have hpush : readFrom p (doubleQuotes (c :: cs) ++ '"' :: rest) =
          match p.push .inQuotes c with
          | .error fault => [.error fault]
          | .ok next => readFrom next (doubleQuotes cs ++ '"' :: rest) := by
        by_cases hc : c = '"'
        · subst hc
          simp only [doubleQuotes, List.flatMap_cons, if_true, List.cons_append,
            List.nil_append]
          rw [readFrom]
          simp only [scan, hplace, if_true]
          rw [readFrom]
          rcases hroom : p.room with _ | room <;> simp [scan, Partial.push, hroom, Except.map]
        · simp only [doubleQuotes, List.flatMap_cons, if_neg hc, List.cons_append,
            List.nil_append]
          rw [readFrom]
          rcases hroom : p.room with _ | room <;>
            simp [scan, hplace, hc, Partial.push, hroom, Except.map]
      rw [hpush]
      rcases hroom : p.room with _ | room
      · simp [Partial.push, hroom]
      · simp only [Partial.push, hroom]
        rw [ih _ rfl]
        simp [Nat.succ_sub_succ]

/-- The first plain character of a field is taken like any other. -/
theorem scan_fresh {p : Partial} (hfresh : Fresh p) {c : Char} (hc : needsQuotes c = false) :
    scan p c = scan { p with place := .inField } c := by
  simp only [needsQuotes, Bool.or_eq_false_iff, decide_eq_false_iff_not] at hc
  rcases hfresh.place with hplace | hplace <;>
    simp [scan, hplace, scanFieldStart, scanPlain, hc, Partial.push]

/-- A reader at the start of a field reads the field that was written, unless it is too long. -/
theorem readFrom_field {p : Partial} (hfresh : Fresh p) (cs : List Char) :
    ∃ q, Done p q cs ∧ ∀ rest, readFrom p (writeField cs ++ rest) =
      if cs.length ≤ fieldLimit then readFrom q rest else [.error .fieldTooLong] := by
  unfold writeField
  by_cases hquotes : cs.any needsQuotes = true
  · refine ⟨⟨.afterQuote, cs.reverse, fieldLimit - cs.length, p.fields⟩,
      ⟨rfl, rfl, .inr (.inl rfl)⟩, fun rest => ?_⟩
    have hscan : scan p '"' = .ok ({ p with place := .inQuotes }, none) := by
      rcases hfresh.place with hplace | hplace <;> simp [scan, hplace, scanFieldStart]
    have hquoted := readFrom_quoted cs rest { p with place := .inQuotes } rfl
    simp only [hfresh.field, hfresh.room, List.append_nil] at hquoted
    simp only [if_pos hquotes, List.cons_append, List.append_assoc, List.nil_append]
    rw [readFrom, hscan, hfresh.field, hfresh.room]
    exact hquoted
  · have hplain : cs.any needsQuotes = false := by simpa using hquotes
    cases cs with
    | nil => exact ⟨p, ⟨hfresh.field, rfl, .inr (.inr ⟨rfl, rfl⟩)⟩, fun rest => by simp⟩
    | cons c cs =>
        refine ⟨⟨.inField, (c :: cs).reverse, fieldLimit - (c :: cs).length, p.fields⟩,
          ⟨rfl, rfl, .inl rfl⟩, fun rest => ?_⟩
        have hc : needsQuotes c = false := by
          simp only [List.any_cons, Bool.or_eq_false_iff] at hplain
          exact hplain.1
        have hinside := readFrom_plain (c :: cs) rest { p with place := .inField } rfl hplain
        simp only [hfresh.field, hfresh.room, List.append_nil] at hinside
        rw [if_neg hquotes, ← hinside, List.cons_append, readFrom, readFrom, scan_fresh hfresh hc,
          hfresh.field, hfresh.room]

/-! ## One record -/

/-- A comma ends a field. -/
theorem readFrom_comma {p q : Partial} {cs : List Char} (hfresh : Fresh p) (hdone : Done p q cs)
    (rest : List Char) : readFrom q (',' :: rest) = readFrom q.nextField rest := by
  have hplace : q.place = .inField ∨ q.place = .afterQuote ∨ q.place = .fieldStart ∨
      q.place = .recordStart false := by
    rcases hdone.place with h | h | ⟨-, h⟩
    · exact .inl h
    · exact .inr (.inl h)
    · rw [h]
      exact .inr (.inr hfresh.place)
  rw [readFrom]
  rcases hplace with h | h | h | h <;> simp [scan, h, scanFieldStart, scanPlain]

/-- A line end ends a record, unless nothing of it has been read. -/
theorem readFrom_lineEnd {p q : Partial} {cs : List Char} (hdone : Done p q cs)
    (hbegun : p.place = .fieldStart ∨ cs ≠ []) (rest : List Char) :
    readFrom q ('\r' :: '\n' :: rest) = .ok q.record :: readFrom (.between false) rest := by
  have hplace : q.place = .inField ∨ q.place = .afterQuote ∨ q.place = .fieldStart := by
    rcases hdone.place with h | h | ⟨hnil, h⟩
    · exact .inl h
    · exact .inr (.inl h)
    · rcases hbegun with hstart | hne
      · exact .inr (.inr (h.trans hstart))
      · exact absurd hnil hne
  rw [readFrom]
  rcases hplace with h | h | h <;>
    simp [scan, h, scanFieldStart, scanPlain, readFrom, Partial.between]

theorem Done.fields_nextField {p q : Partial} {field : String} (hdone : Done p q field.toList) :
    q.nextField.fields = field :: p.fields := by
  simp [Partial.nextField, hdone.field, hdone.fields]

theorem Done.record {p q : Partial} {field : String} (hdone : Done p q field.toList) :
    q.record = p.fields.reverse ++ [field] := by
  simp [Partial.record, hdone.field, hdone.fields]

/-- The fields of a record are read one after the other, and added to those before them. -/
theorem readFrom_fields (fields : List String) (rest : List Char) :
    ∀ {p : Partial}, Fresh p → fields ≠ [] → (p.place = .fieldStart ∨ fields ≠ [""]) →
      readFrom p (writeFields fields ++ '\r' :: '\n' :: rest) =
        if fits fields then .ok (p.fields.reverse ++ fields) :: readFrom (.between false) rest
        else [.error .fieldTooLong] := by
  induction fields with
  | nil =>
      intro p _ hne _
      exact absurd rfl hne
  | cons field more ih =>
      intro p hfresh _ hbegun
      obtain ⟨q, hdone, hread⟩ := readFrom_field hfresh field.toList
      cases more with
      | nil =>
          -- the line end is taken for a blank one after a single empty field without quotes
          have hsome : p.place = .fieldStart ∨ field.toList ≠ [] := by
            refine hbegun.imp_right fun hne hnil => hne ?_
            rw [String.toList_eq_nil_iff.1 hnil]
          rw [writeFields, hread, readFrom_lineEnd hdone hsome, hdone.record, String.length_toList]
          simp [fits]
      | cons second others =>
          rw [writeFields, List.append_assoc, hread, List.cons_append,
            readFrom_comma hfresh hdone,
            ih (fresh_nextField q) (by simp) (.inl rfl), hdone.fields_nextField,
            String.length_toList]
          · by_cases hshort : field.length ≤ fieldLimit
            · simp [fits, hshort]
            · simp [fits, hshort]
          · simp

theorem readFrom_record (record : List String) (rest : List Char) :
    readFrom (.between false) (writeRecord record ++ rest) =
      if fits record then .ok record :: readFrom (.between false) rest
      else [.error .fieldTooLong] := by
  unfold writeRecord
  by_cases hempty : record = [""]
  · subst hempty
    simp [fits, readFrom, scan, scanFieldStart, scanPlain, Partial.between, Partial.record]
  · rw [if_neg hempty]
    by_cases hnil : record = []
    · subst hnil
      simp [writeFields, fits, readFrom, scan, Partial.between]
    · rw [List.append_assoc]
      exact readFrom_fields record rest fresh_between hnil (.inr hempty)

/-! ## All records -/

/-- **Reading what was written** gives the records back. -/
theorem read_write (records : List (List String)) : read (write records) = readBack records := by
  rw [read, write, String.toList_ofList]
  induction records with
  | nil => rfl
  | cons record rest ih => rw [List.flatMap_cons, readFrom_record, readBack, ih]

end BroadcastIntake.Csv
