import RowFlow.Csv.Record
import RowFlow.Proofs.Text.Utf8

/-!
# Written Records Are Read Back

The reader goes through written records field by field. Behind a field in quotes, behind a plain one
and in front of an empty one it is in different places, but in each of them it takes the byte that
follows for what it is: a delimiter or the end of the line. So all records of a written file are read
back (`Csv.textRecords_writeTexts`), except that a record without fields comes back with an empty
one.
-/

namespace RowFlow

namespace Csv

/-! ## Reading on -/

/-- The place behind some bytes. -/
def Position.past (position : Position) (bytes : List UInt8) : Position :=
  bytes.foldl Position.after position

theorem Position.past_append (position : Position) (bytes rest : List UInt8) :
    position.past (bytes ++ rest) = (position.past bytes).past rest :=
  List.foldl_append

/-- Bytes lead the reader from one draft to another without ending the record. -/
def Leads (delimiter : UInt8) (draft : Draft) (bytes : List UInt8) (next : Draft) : Prop :=
  ∀ (start here : Position) (rest : List UInt8),
    scan delimiter draft start here (bytes ++ rest) =
      scan delimiter next start (here.past bytes) rest

section
variable {delimiter b : UInt8} {draft next last : Draft} {bytes rest : List UInt8}

theorem Leads.refl : Leads delimiter draft [] draft := fun _ _ _ => rfl

theorem Leads.cons (h : draft.step delimiter b = .inl next)
    (hrest : Leads delimiter next bytes last) : Leads delimiter draft (b :: bytes) last := by
  intro start here rest
  rw [List.cons_append, scan, h]
  exact hrest start (here.after b) rest

theorem Leads.append (h : Leads delimiter draft bytes next)
    (hrest : Leads delimiter next rest last) : Leads delimiter draft (bytes ++ rest) last := by
  intro start here tail
  rw [List.append_assoc, h, hrest, Position.past_append]

/-- A byte ends the record. -/
theorem scan_of_end {fields : List (List UInt8)} (h : draft.step delimiter b = .inr fields)
    (start here : Position) :
    scan delimiter draft start here (b :: rest) =
      ⟨start, fields⟩ :: scan delimiter .empty (here.after b) (here.after b) rest := by
  rw [scan, h]

end

/-! ## Fields -/

/-- A byte that can stand between fields: neither a quote nor the end of a line. -/
def Separates (delimiter : UInt8) : Prop := delimiter ≠ quoteByte ∧ isLineEnd delimiter = false

instance (delimiter : UInt8) : Decidable (Separates delimiter) :=
  inferInstanceAs (Decidable (_ ∧ _))

section
variable {delimiter : UInt8} {field done : List UInt8} {fields : List (List UInt8)}

theorem needsQuotes_cons_eq_false {b : UInt8} {rest : List UInt8} :
    needsQuotes delimiter (b :: rest) = false ↔
      (b ≠ delimiter ∧ b ≠ quoteByte ∧ isLineEnd b = false) ∧ needsQuotes delimiter rest = false := by
  simp only [needsQuotes, List.any_cons, Bool.or_eq_false_iff, beq_eq_false_iff_ne, and_assoc]

theorem plainByte_of_plain {b : UInt8} (hdelimiter : b ≠ delimiter) (hend : isLineEnd b = false)
    (draft : Draft) : draft.plainByte delimiter b = .inl (draft.add .plain b) := by
  rw [Draft.plainByte, if_neg hdelimiter, hend]
  rfl

/-- A field without special bytes is read as it stands. -/
theorem leads_plain (h : needsQuotes delimiter field = false) :
    Leads delimiter ⟨.plain, fields, done⟩ field ⟨.plain, fields, done ++ field⟩ := by
  induction field generalizing done with
  | nil =>
    rw [List.append_nil]
    exact .refl
  | cons b rest ih =>
    obtain ⟨⟨hdelimiter, -, hend⟩, hrest⟩ := needsQuotes_cons_eq_false.1 h
    -- the bytes read so far are carried along in the draft
    have hread := @ih (done ++ [b]) hrest
    rw [List.append_assoc, List.singleton_append] at hread
    exact .cons (plainByte_of_plain hdelimiter hend _) hread

/-- In quotes every byte is read as it stands, two quotes as one. -/
theorem leads_quoted :
    Leads delimiter ⟨.quoted, fields, done⟩ (doubleQuotes field)
      ⟨.quoted, fields, done ++ field⟩ := by
  induction field generalizing done with
  | nil =>
    rw [List.append_nil]
    exact .refl
  | cons b rest ih =>
    have hread := @ih (done ++ [b])
    rw [List.append_assoc, List.singleton_append] at hread
    rw [doubleQuotes]
    split
    · rename_i hquote
      -- a doubled quote leads behind the first one and back into the quotes
      rw [hquote] at hread ⊢
      exact .cons rfl (.cons rfl hread)
    · rename_i hquote
      exact .cons (congrArg Sum.inl (if_neg hquote)) hread

/-- Where the reader is behind a written field. -/
def behind (delimiter : UInt8) (field : List UInt8) : Place :=
  if needsQuotes delimiter field then .afterQuote
  else if field.isEmpty then .fieldStart else .plain

theorem leads_writeField :
    Leads delimiter ⟨.fieldStart, fields, []⟩ (writeField delimiter field)
      ⟨behind delimiter field, fields, field⟩ := by
  rw [writeField, behind]
  split
  · -- in quotes: an opening quote, the doubled bytes, a closing quote
    exact .cons rfl (.append leads_quoted (.cons rfl .refl))
  · rename_i hplain
    rw [Bool.not_eq_true] at hplain
    cases field with
    | nil => exact .refl
    | cons b rest =>
      obtain ⟨⟨hdelimiter, hquote, hend⟩, hrest⟩ := needsQuotes_cons_eq_false.1 hplain
      -- without quotes the first byte is none that means anything
      have hstep : Draft.step delimiter b ⟨.fieldStart, fields, []⟩ =
          .inl ⟨.plain, fields, [b]⟩ :=
        (if_neg hquote).trans (plainByte_of_plain hdelimiter hend _)
      exact .cons hstep (leads_plain hrest)

/-- Behind a field any byte but a quote is taken for what it is. -/
theorem step_behind {b : UInt8} (h : b ≠ quoteByte) :
    Draft.step delimiter b ⟨behind delimiter field, fields, field⟩ =
      Draft.plainByte delimiter b ⟨behind delimiter field, fields, field⟩ := by
  unfold behind
  split_ifs
  · exact if_neg h
  · exact if_neg h
  · rfl

/-! ## Records -/

/-- What stands behind the first field of a written record. -/
def restOfLine (delimiter : UInt8) : List (List UInt8) → List UInt8
  | [] => [lineFeed]
  | field :: rest => delimiter :: (writeField delimiter field ++ restOfLine delimiter rest)

theorem intercalate_writeField (field : List UInt8) (rest : List (List UInt8)) :
    [delimiter].intercalate ((field :: rest).map (writeField delimiter)) ++ [lineFeed] =
      writeField delimiter field ++ restOfLine delimiter rest := by
  induction rest generalizing field with
  | nil => simp [List.intercalate, restOfLine]
  | cons next rest ih =>
    rw [restOfLine, ← ih]
    simp [List.intercalate]

/-- A record with any byte is its first field and the rest of the line. -/
theorem writeRecord_cons {rest : List (List UInt8)} (h : field ≠ [] ∨ rest ≠ []) :
    writeRecord delimiter (field :: rest) =
      writeField delimiter field ++ restOfLine delimiter rest := by
  -- a line with a byte in it is not blank
  have hline : ([delimiter].intercalate ((field :: rest).map (writeField delimiter))).isEmpty =
      false := by
    rw [List.isEmpty_eq_false_iff]
    cases rest with
    | nil =>
      obtain ⟨b, tail, rfl⟩ := List.exists_cons_of_ne_nil (h.resolve_right (· rfl))
      simp only [List.map_cons, List.map_nil, List.intercalate, List.intersperse_singleton,
        List.flatten_singleton, writeField]
      split <;> exact List.cons_ne_nil _ _
    | cons next rest => simp [List.intercalate]
  rw [writeRecord, hline, if_neg Bool.false_ne_true, intercalate_writeField]

/-- A record without any byte is written as a pair of quotes. -/
theorem writeRecord_blank {fields : List (List UInt8)} (h : fields = [] ∨ fields = [[]]) :
    writeRecord delimiter fields = [quoteByte, quoteByte, lineFeed] := by
  rcases h with rfl | rfl
  · rfl
  · rfl

/-- A record cannot be without fields when it is read. -/
def orBlank {α : Type} [Inhabited α] : List α → List α
  | [] => [default]
  | fields => fields

theorem orBlank_of_ne_nil {α : Type} [Inhabited α] {fields : List α} (h : fields ≠ []) :
    orBlank fields = fields := by
  cases fields with
  | nil => exact absurd rfl h
  | cons field rest => rfl

variable {start here : Position} {tail : List UInt8}

/-- Behind a field the reader goes through the other fields to the end of the record. -/
theorem scan_restOfLine (hd : Separates delimiter) (rest : List (List UInt8)) :
    scan delimiter ⟨behind delimiter field, fields, field⟩ start here
        (restOfLine delimiter rest ++ tail) =
      let there := here.past (restOfLine delimiter rest)
      ⟨start, fields ++ field :: rest⟩ :: scan delimiter .empty there there tail := by
  induction rest generalizing field fields here with
  | nil =>
    -- the end of the line ends the record
    have hquote : lineFeed ≠ quoteByte := by decide
    have hend : isLineEnd lineFeed = true := rfl
    have hdelimiter : lineFeed ≠ delimiter := by
      rintro rfl
      cases hd.2
    refine scan_of_end ?_ start here
    rw [step_behind hquote, Draft.plainByte, if_neg hdelimiter, if_pos hend]
    rfl
  | cons next rest ih =>
    have hstep : Draft.step delimiter delimiter ⟨behind delimiter field, fields, field⟩ =
        .inl ⟨.fieldStart, fields ++ [field], []⟩ := by
      rw [step_behind hd.1, Draft.plainByte, if_pos rfl]
      rfl
    -- behind a delimiter the next field starts from nothing
    have hfield : Leads delimiter ⟨.fieldStart, fields ++ [field], []⟩ (writeField delimiter next)
        ⟨behind delimiter next, fields ++ [field], next⟩ := leads_writeField
    have hleads := Leads.cons hstep hfield
    rw [restOfLine, ← List.cons_append, List.append_assoc, hleads, ih]
    simp only [List.append_assoc, List.singleton_append, Position.past_append]

/-- In front of a record and in front of a field bytes that do not end lines are taken alike. -/
theorem scan_outside {b : UInt8} (h : isLineEnd b = false) :
    scan delimiter .empty start here (b :: tail) =
      scan delimiter ⟨.fieldStart, [], []⟩ start here (b :: tail) := by
  have hstep : Draft.empty.step delimiter b = Draft.step delimiter b ⟨.fieldStart, [], []⟩ := by
    simp only [Draft.step, Draft.empty, Draft.plainByte, h, Bool.false_eq_true, if_false]
    rfl
  rw [scan, hstep]
  rfl

theorem isLineEnd_of_writeField {b : UInt8} {rest : List UInt8}
    (h : writeField delimiter field = b :: rest) : isLineEnd b = false := by
  rw [writeField] at h
  split at h
  · -- a quoted field starts with its quote
    obtain ⟨rfl, -⟩ := List.cons.inj h
    rfl
  · rename_i hplain
    rw [h, Bool.not_eq_true] at hplain
    exact (needsQuotes_cons_eq_false.1 hplain).1.2.2

/-- A written record with any byte is entered at its first field. -/
theorem scan_line (hd : Separates delimiter) {rest : List (List UInt8)}
    (h : field ≠ [] ∨ rest ≠ []) :
    scan delimiter .empty start here
        (writeField delimiter field ++ restOfLine delimiter rest ++ tail) =
      scan delimiter ⟨.fieldStart, [], []⟩ start here
        (writeField delimiter field ++ restOfLine delimiter rest ++ tail) := by
  cases hfield : writeField delimiter field with
  | cons b bytes => exact scan_outside (isLineEnd_of_writeField hfield)
  | nil =>
    cases rest with
    | cons next rest => exact scan_outside hd.2
    | nil =>
      -- only an empty field is written as nothing
      obtain ⟨b, bytes, rfl⟩ := List.exists_cons_of_ne_nil (h.resolve_right (· rfl))
      rw [writeField] at hfield
      split at hfield <;> cases hfield

/-- A written record is read back in front of anything. -/
theorem scan_writeRecord (hd : Separates delimiter) (fields : List (List UInt8)) :
    scan delimiter .empty start here (writeRecord delimiter fields ++ tail) =
      let there := here.past (writeRecord delimiter fields)
      ⟨start, orBlank fields⟩ :: scan delimiter .empty there there tail := by
  by_cases hblank : fields = [] ∨ fields = [[]]
  · -- without the pair of quotes the line would be empty, and the reader would pass over it
    have hread : orBlank fields = [[]] := by
      rcases hblank with rfl | rfl
      · rfl
      · rfl
    have hleads : Leads delimiter .empty [quoteByte, quoteByte] ⟨.afterQuote, [], []⟩ :=
      .cons rfl (.cons rfl .refl)
    have hend : Draft.step delimiter lineFeed ⟨.afterQuote, [], []⟩ = .inr [[]] := by
      have hdelimiter : lineFeed ≠ delimiter := by
        rintro rfl
        cases hd.2
      have hquote : lineFeed ≠ quoteByte := by decide
      simp only [Draft.step, if_neg hquote, Draft.plainByte, if_neg hdelimiter]
      rfl
    rw [writeRecord_blank hblank, hread]
    exact (hleads start here (lineFeed :: tail)).trans (scan_of_end hend start _)
  · obtain ⟨field, rest, rfl⟩ := List.exists_cons_of_ne_nil (not_or.1 hblank).1
    -- otherwise the record has a field with bytes, or a second one
    have hany : field ≠ [] ∨ rest ≠ [] := by
      by_contra hnone
      obtain ⟨hfield, hrest⟩ := not_or.1 hnone
      rw [not_ne_iff] at hfield hrest
      exact hblank (.inr (by rw [hfield, hrest]))
    rw [writeRecord_cons hany, scan_line hd hany, List.append_assoc, leads_writeField,
      scan_restOfLine hd, Position.past_append]
    rfl

/-- The records of written records, whatever their positions are. -/
theorem fields_scan (hd : Separates delimiter) (written : List (List (List UInt8))) :
    (scan delimiter .empty start here (written.flatMap (writeRecord delimiter))).map Record.fields =
      written.map orBlank := by
  -- each record starts where the one before it has ended
  induction written generalizing start here with
  | nil => rfl
  | cons fields rest ih =>
    rw [List.flatMap_cons, scan_writeRecord hd, List.map_cons, ih, List.map_cons]

end

/-! ## Marks -/

/-- Bytes without a mark are scanned from the first one on. -/
theorem records_of_unmarked {delimiter : UInt8} {bytes : List UInt8}
    (h : ¬ Utf8.byteOrderMark <+: bytes) :
    records delimiter bytes = scan delimiter .empty .origin .origin bytes := by
  unfold records
  split
  · rename_i rest
    exact absurd (List.prefix_append Utf8.byteOrderMark rest) h
  · rfl

/-! ## Texts -/

/-- Records of texts as a file. -/
def writeTexts (delimiter : UInt8) (lines : List (List String)) : List UInt8 :=
  lines.flatMap fun cells => writeRecord delimiter (cells.map Utf8.encode)

/-- The first text of a file does not start with a byte order mark, which would be passed over. -/
def Unmarked (lines : List (List String)) : Prop :=
  ∀ cell ∈ lines.head?.bind List.head?, cell.toList.head? ≠ some '\uFEFF'

instance (lines : List (List String)) : Decidable (Unmarked lines) :=
  inferInstanceAs (Decidable (∀ cell ∈ lines.head?.bind List.head?, _))

section
variable {delimiter : UInt8}

theorem encode_cons {text : String} {c : Char} {chars : List Char} (h : text.toList = c :: chars) :
    Utf8.encode text = Utf8.encodeChar c ++ chars.flatMap Utf8.encodeChar := by
  rw [Utf8.encode, h, List.flatMap_cons]

/-- The byte behind a mark's first one does not start a text, quoted or not. -/
theorem writeField_ne_cons (text : String) {b : UInt8} (hb : b ≠ 0xBB) (rest rest' : List UInt8) :
    writeField delimiter (Utf8.encode text) ++ b :: rest ≠ 0xBB :: rest' := by
  intro h
  rw [writeField] at h
  split at h
  · exact absurd (List.cons.inj h).1 (by decide)
  · -- unquoted, the byte is the first of a character, or the one behind an empty field
    cases htext : text.toList with
    | nil =>
      rw [Utf8.encode, htext] at h
      exact hb (List.cons.inj h).1
    | cons c chars =>
      rw [encode_cons htext, List.append_assoc] at h
      exact Utf8.encodeChar_ne_cons c _ _ h

/-- A line starts with a mark only if its first text does. -/
theorem not_marked_line {text : String} (h : text.toList.head? ≠ some '\uFEFF')
    {others : List String} (hany : text.toList ≠ [] ∨ others ≠ []) (rest rest' : List UInt8) :
    Utf8.byteOrderMark ++ rest' ≠ writeField delimiter (Utf8.encode text) ++
      (restOfLine delimiter (others.map Utf8.encode) ++ rest) := by
  intro hmark
  rw [writeField] at hmark
  split at hmark
  · exact absurd (List.cons.inj hmark).1 (by decide)
  · cases htext : text.toList with
    | cons c chars =>
      rw [encode_cons htext, List.append_assoc] at hmark
      rw [htext, Utf8.eq_of_encodeChar_mark hmark.symm] at h
      exact h rfl
    | nil =>
      -- the delimiter may be the first byte of the mark, but no second byte can follow
      obtain ⟨next, more, rfl⟩ := List.exists_cons_of_ne_nil (hany.resolve_left (· htext))
      rw [Utf8.encode, htext, List.map_cons, restOfLine, List.cons_append, List.append_assoc]
        at hmark
      obtain ⟨hfirst, hmark⟩ := List.cons.inj hmark
      have hdelimiter : delimiter ≠ 0xBB := hfirst ▸ by decide
      cases more with
      | nil => exact writeField_ne_cons next (by decide) _ _ hmark.symm
      | cons _ _ => exact writeField_ne_cons next hdelimiter _ _ hmark.symm

/-- A written file starts with a mark only if its first text does. -/
theorem not_marked_writeTexts {lines : List (List String)} (h : Unmarked lines) :
    ¬ Utf8.byteOrderMark <+: writeTexts delimiter lines := by
  rintro ⟨rest, hmark⟩
  rcases lines with _ | ⟨_ | ⟨text, others⟩, lines⟩
  · cases hmark
  · exact absurd (List.cons.inj hmark).1 (by decide)
  · rw [writeTexts, List.flatMap_cons, List.map_cons] at hmark
    by_cases hany : text.toList ≠ [] ∨ others ≠ []
    · have hbytes : Utf8.encode text ≠ [] ∨ others.map Utf8.encode ≠ [] := by
        refine hany.imp (fun htext => ?_) fun hothers => mt List.map_eq_nil_iff.1 hothers
        obtain ⟨c, chars, htext⟩ := List.exists_cons_of_ne_nil htext
        rw [encode_cons htext]
        exact fun hnil => Utf8.encodeChar_ne_nil c (List.append_eq_nil_iff.1 hnil).1
      rw [writeRecord_cons hbytes, List.append_assoc] at hmark
      exact not_marked_line (h text rfl) hany _ _ hmark
    · obtain ⟨htext, hothers⟩ := not_or.1 hany
      rw [not_ne_iff] at htext hothers
      rw [Utf8.encode, htext, hothers] at hmark
      exact absurd (List.cons.inj hmark).1 (by decide)

theorem decodeFields_encode (number : Nat) (start : Position) (field : Nat)
    (cells : List String) :
    decodeFields number start field (cells.map Utf8.encode) = .ok cells := by
  induction cells generalizing field with
  | nil => rfl
  | cons text rest ih =>
    rw [List.map_cons, decodeFields, Utf8.decode_encode, ih]
    rfl

theorem map_orBlank_encode (cells : List String) :
    orBlank (cells.map Utf8.encode) = (orBlank cells).map Utf8.encode := by
  cases cells with
  | nil => rfl
  | cons text rest => rfl

/-- Records whose fields are encoded texts are these texts, wherever they start. -/
theorem map_decodeFields {read : List Record} {lines : List (List String)} (number : Nat)
    (h : read.map Record.fields = lines.map (·.map Utf8.encode)) :
    ((read.zipIdx number).map fun (record, number) =>
      decodeFields number record.start 0 record.fields) = lines.map .ok := by
  induction read generalizing lines number with
  | nil =>
    rw [List.map_eq_nil_iff.1 h.symm]
    rfl
  | cons record read ih =>
    cases lines with
    | nil => cases h
    | cons cells lines =>
      obtain ⟨hfields, hrest⟩ := List.cons.inj h
      have hcells : decodeFields number record.start 0 record.fields = .ok cells :=
        (congrArg _ hfields).trans (decodeFields_encode number record.start 0 cells)
      rw [List.zipIdx_cons, List.map_cons, ih (number + 1) hrest, List.map_cons]
      exact congrArg (· :: _) hcells

/-- Records of texts are read back as they were written, those without cells with a blank one. -/
theorem textRecords_writeTexts (hd : Separates delimiter) {lines : List (List String)}
    (h : Unmarked lines) :
    textRecords delimiter (writeTexts delimiter lines) =
      lines.map fun cells => .ok (orBlank cells) := by
  have hlines : writeTexts delimiter lines =
      (lines.map (·.map Utf8.encode)).flatMap (writeRecord delimiter) := by
    rw [writeTexts, List.flatMap_map]
  have hfields : (records delimiter (writeTexts delimiter lines)).map Record.fields =
      (lines.map orBlank).map (·.map Utf8.encode) := by
    rw [records_of_unmarked (not_marked_writeTexts h), hlines, fields_scan hd, List.map_map,
      List.map_map]
    exact List.map_congr_left fun cells _ => map_orBlank_encode cells
  have hread := map_decodeFields 0 hfields
  rw [List.map_map] at hread
  exact hread

end

end Csv

end RowFlow
