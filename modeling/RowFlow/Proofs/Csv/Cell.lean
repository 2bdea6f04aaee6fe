import RowFlow.Csv.Cell
import RowFlow.Proofs.Number.Numeral
import RowFlow.Proofs.Text.Blank
import RowFlow.Value.Text

/-!
# Cells Read Back

What a cell is read as under a type is null or a value of the type, and never a text that is blank
or has blanks around it. Such a value, unless it is a floating number, is read back from its own
text (`Csv.readCell_text`).
-/

namespace RowFlow

/-! ## Values of columns -/

namespace Value

/-- The type of a scalar. -/
def type? : Value → Option ColumnType
  | .int64 _ => some .int64
  | .float64 _ => some .float64
  | .bool _ => some .bool
  | .utf8 _ => some .utf8
  | .null | .tuple _ => none

/-- A value that a column of a type can hold: null, or a value of the type. -/
def Fits (type : ColumnType) (v : Value) : Prop := v = .null ∨ v.type? = some type

/-- No text that is blank or has blanks around it. -/
def Tidy : Value → Prop
  | .utf8 text => Text.trim text ≠ "" ∧ Text.trim text = text
  | _ => True

instance (type : ColumnType) (v : Value) : Decidable (v.Fits type) :=
  inferInstanceAs (Decidable (_ ∨ _))

instance : (v : Value) → Decidable v.Tidy
  | .utf8 _ => inferInstanceAs (Decidable (_ ∧ _))
  | .null | .int64 _ | .float64 _ | .bool _ | .tuple _ => isTrue trivial

end Value

namespace Csv

/-! ## Reading -/

theorem mapError_eq_ok_iff {ε ε' α : Type} {f : ε → ε'} {x : Except ε α} {a : α} :
    x.mapError f = .ok a ↔ x = .ok a := by
  cases x with
  | error e => exact ⟨nofun, nofun⟩
  | ok b => exact ⟨fun h => congrArg _ (Except.ok.inj h), fun h => congrArg _ (Except.ok.inj h)⟩

theorem readCell_of_blank (type : ColumnType) {text : String} (h : Text.trim text = "") :
    readCell type text = .ok .null := by
  have hcontent := Text.trim_eq_empty_iff.1 h
  cases type <;> simp only [readCell, hcontent] <;> rfl

/-- A cell that is not blank is read without the blanks around it. -/
theorem readCell_of_not_blank (type : ColumnType) {text : String} (h : Text.trim text ≠ "") :
    readCell type text =
      let content := Text.trimChars text.toList
      match type with
      | .utf8 => .ok (.utf8 (Text.trim text))
      | .int64 => ((Numeral.readInt64 content).map .int64).mapError .numeral
      | .float64 => ((Numeral.readBinary64 content).map .float64).mapError .numeral
      | .bool => (readBool content).map .bool := by
  have hcontent : (Text.trimChars text.toList).isEmpty = false := by
    rw [List.isEmpty_eq_false_iff]
    exact mt Text.trim_eq_empty_iff.2 h
  cases type <;> simp only [readCell, hcontent] <;> rfl

/-- What a cell is read as. -/
theorem fits_of_readCell {type : ColumnType} {text : String} {v : Value}
    (h : readCell type text = .ok v) : v.Fits type ∧ v.Tidy := by
  by_cases hblank : Text.trim text = ""
  · rw [readCell_of_blank type hblank] at h
    obtain rfl := Except.ok.inj h
    exact ⟨.inl rfl, trivial⟩
  · rw [readCell_of_not_blank type hblank] at h
    cases type with
    | utf8 =>
      obtain rfl := Except.ok.inj h
      have htrim : Text.trim (Text.trim text) = Text.trim text := Text.trim_trim text
      exact ⟨.inr rfl, by rwa [htrim], htrim⟩
    | int64 =>
      obtain ⟨n, -, rfl⟩ := map_eq_ok_iff.1 (mapError_eq_ok_iff.1 h)
      exact ⟨.inr rfl, trivial⟩
    | float64 =>
      obtain ⟨x, -, rfl⟩ := map_eq_ok_iff.1 (mapError_eq_ok_iff.1 h)
      exact ⟨.inr rfl, trivial⟩
    | bool =>
      obtain ⟨b, -, rfl⟩ := map_eq_ok_iff.1 h
      exact ⟨.inr rfl, trivial⟩

/-! ## Text first -/

/-- The value of a text cell: null or the text without the blanks around it. -/
def plain (text : String) : Value :=
  if Text.trim text = "" then .null else .utf8 (Text.trim text)

theorem readCell_utf8 (text : String) : readCell .utf8 text = .ok (plain text) := by
  unfold plain
  split
  · rename_i hblank
    exact readCell_of_blank _ hblank
  · rename_i hblank
    exact readCell_of_not_blank _ hblank

theorem readCell_trim (type : ColumnType) (text : String) :
    readCell type (Text.trim text) = readCell type text := by
  have htrim := Text.trim_trim text
  by_cases hblank : Text.trim text = ""
  · rw [readCell_of_blank type hblank, readCell_of_blank type (htrim.trans hblank)]
  · have hblank' : Text.trim (Text.trim text) ≠ "" := by rwa [htrim]
    rw [readCell_of_not_blank type hblank, readCell_of_not_blank type hblank', htrim,
      Text.toList_trim, Text.trimChars_trimChars]

/-- A cell that has been read as text is converted to what it would have been read as. -/
theorem convert_plain (type : ColumnType) (text : String) :
    convert type (plain text) = readCell type text := by
  unfold plain
  split
  · rename_i hblank
    rw [readCell_of_blank type hblank]
    rfl
  · exact readCell_trim type text

/-! ## Reading back -/

theorem isBlank_of_isDigit {c : Char} (h : c.isDigit = true) : Text.isBlank c = false := by
  obtain ⟨hlow, hhigh⟩ := Char.isDigit_iff_toNat.1 h
  simp only [Char.reduceToNat] at hlow hhigh
  simp [Text.isBlank, Text.inRanges, Text.blankRanges]
  omega

/-- Integers are written without blanks. -/
theorem noBlank_toString (n : Int) : ∀ c ∈ (toString n).toList, Text.isBlank c = false := by
  have hdigits : ∀ c ∈ Nat.toDigits 10 n.natAbs, Text.isBlank c = false := fun c hc =>
    isBlank_of_isDigit (Numeral.isDigit_of_mem_decimal hc)
  rw [Numeral.toList_toString]
  split
  · exact List.forall_mem_cons.2 ⟨rfl, hdigits⟩
  · exact hdigits

/-- A value is read back from its text. The texts of floating numbers are left out. -/
theorem readCell_text {type : ColumnType} {v : Value} (htype : v.type? = some type)
    (hfloat : type ≠ .float64) (htidy : v.Tidy) : readCell type v.text = .ok v := by
  cases v with
  | null | tuple items => cases htype
  | float64 x => exact absurd (Option.some.inj htype).symm hfloat
  | int64 n =>
    obtain rfl := Option.some.inj htype
    have hread := Numeral.readInt64_toString n
    have hcontent := Text.trimChars_of_noBlank (noBlank_toString n.toInt)
    have hblank : Text.trim (toString n.toInt) ≠ "" := by
      rw [ne_eq, Text.trim_eq_empty_iff, hcontent]
      intro hnil
      rw [hnil] at hread
      cases hread
    rw [Value.text, readCell_of_not_blank _ hblank]
    dsimp only
    rw [hcontent, hread]
    rfl
  | bool b =>
    obtain rfl := Option.some.inj htype
    cases b with
    | true => rfl
    | false => rfl
  | utf8 text =>
    obtain rfl := Option.some.inj htype
    obtain ⟨hblank, htrim⟩ := htidy
    rw [Value.text, readCell_of_not_blank _ hblank]
    dsimp only
    rw [htrim]

end Csv

end RowFlow
