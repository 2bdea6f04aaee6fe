import Mathlib.Data.List.DropRight
import RowFlow.Text.Blank

/-!
# Trimmed Texts

A trimmed text has a character other than a blank at either end, or no character at all. Nothing is
trimmed from such a text, so trimming once is enough.
-/

namespace RowFlow

namespace Text

variable {chars : List Char}

theorem trimChars_eq (chars : List Char) :
    trimChars chars = (chars.dropWhile isBlank).rdropWhile isBlank :=
  rfl

/-- Trimming twice is trimming once. -/
theorem trimChars_trimChars (chars : List Char) : trimChars (trimChars chars) = trimChars chars := by
  rw [trimChars_eq (trimChars chars)]
  have hfront : (trimChars chars).dropWhile isBlank = trimChars chars := by
    rw [List.dropWhile_eq_self_iff]
    intro hlength
    -- the first character of what is left is the first one of what had been left before
    have hstart : trimChars chars <+: chars.dropWhile isBlank := List.rdropWhile_prefix _ _
    rw [hstart.getElem hlength]
    exact List.dropWhile_get_zero_not isBlank chars (Nat.lt_of_lt_of_le hlength hstart.length_le)
  rw [hfront, trimChars_eq, List.rdropWhile_idempotent]

/-- Nothing is trimmed from a text without blanks. -/
theorem trimChars_of_noBlank (h : ∀ c ∈ chars, isBlank c = false) : trimChars chars = chars := by
  have hfront : chars.dropWhile isBlank = chars :=
    List.dropWhile_eq_self_iff.2 fun hlength => by simp [h _ (List.getElem_mem hlength)]
  have hback : chars.rdropWhile isBlank = chars :=
    List.rdropWhile_eq_self_iff.2 fun hne => by simp [h _ (List.getLast_mem hne)]
  rw [trimChars_eq, hfront, hback]

theorem toList_trim (text : String) : (trim text).toList = trimChars text.toList :=
  String.toList_ofList

theorem trim_trim (text : String) : trim (trim text) = trim text := by
  rw [trim, toList_trim, trimChars_trimChars]
  rfl

theorem trim_eq_empty_iff {text : String} : trim text = "" ↔ trimChars text.toList = [] := by
  rw [← toList_trim, String.toList_eq_nil_iff]

end Text

end RowFlow
