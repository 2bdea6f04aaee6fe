import RowFlow.Proofs.Csv.Cell

/-!
# Conversions

What a value is converted to is null or a value of the type, and no text that is blank or has blanks
around it, whatever is converted: numbers and truth values are written without blanks, and tuples in
parentheses. So converting twice is converting once (`Csv.convert_of_converted`), and a value other
than a floating number comes back from its text (`Csv.exists_convert_back`).
-/

namespace RowFlow

/-! ## Blanks at the ends -/

/-- Nothing is trimmed from a text between two characters that are not blanks. -/
theorem Text.trimChars_between {first last : Char} (hfirst : isBlank first = false)
    (hlast : isBlank last = false) (chars : List Char) :
    trimChars (first :: (chars ++ [last])) = first :: (chars ++ [last]) := by
  rw [trimChars_eq, List.dropWhile_cons_of_neg (by simp [hfirst]), ← List.cons_append,
    List.rdropWhile_concat_neg _ _ _ (by simp [hlast])]

/-- A text that trimming leaves as it is, and that is not empty, is tidy. -/
theorem Value.tidy_of_trimChars {text : String} (hsome : text.toList ≠ [])
    (h : Text.trimChars text.toList = text.toList) : (utf8 text).Tidy := by
  refine ⟨?_, ?_⟩
  · rwa [ne_eq, Text.trim_eq_empty_iff, h]
  · rw [Text.trim, h, String.ofList_toList]

/-! ## Texts of numbers -/

namespace Layout

variable {layout : Layout} {digits : List Char} {c : Char}

/-- A number in positional notation has digits, zeros and a point. -/
theorem mem_positional {point : Int} (h : c ∈ layout.positional digits point) :
    c ∈ digits ∨ c = '0' ∨ c = '.' := by
  -- the point stands behind all digits, among them, or before them
  rcases point with (_ | p) | k
  · simp only [positional] at h
    grind
  · simp only [positional] at h
    grind [List.mem_of_mem_take, List.mem_of_mem_drop]
  · simp only [positional] at h
    grind

/-- Positional notation is never empty. -/
theorem positional_ne_nil (point : Int) : layout.positional digits point ≠ [] := by
  rcases point with (_ | p) | k
  · simp [positional]
  · simp only [positional]
    split
    · -- zeros are filled in if there are no digits
      intro hnil
      have hlength := congrArg List.length hnil
      simp only [List.length_append, List.length_replicate, List.length_nil] at hlength
      omega
    · simp
  · simp [positional]

/-- Scientific notation adds an exponent to that. -/
theorem mem_scientific {exponent : Int} (h : c ∈ layout.scientific digits exponent) :
    c ∈ digits ∨ c ∈ (toString exponent).toList ∨ c = '.' ∨ c = 'e' ∨ c = '+' := by
  unfold scientific at h
  grind

/-- No number is written with blanks. -/
theorem noBlank_decimal (d : Decimal) : ∀ c ∈ layout.decimal d, Text.isBlank c = false := by
  intro c hc
  have hdigits := Csv.noBlank_toString (d.digits : Int)
  unfold decimal at hc
  dsimp only at hc
  split at hc
  · rcases mem_positional hc with hc | rfl | rfl
    exacts [hdigits c hc, rfl, rfl]
  · rcases mem_scientific hc with hc | hc | rfl | rfl | rfl
    exacts [hdigits c hc, Csv.noBlank_toString _ c hc, rfl, rfl, rfl]

/-- Every number is written with something. -/
theorem decimal_ne_nil (d : Decimal) : layout.decimal d ≠ [] := by
  unfold decimal
  dsimp only
  split
  · exact positional_ne_nil _
  · simp [scientific]

end Layout

namespace Value

/-- The text of a floating number is tidy. -/
theorem tidy_text_float64 (x : Binary64) : (utf8 (float64 x).text).Tidy := by
  -- the values without digits are tidy words
  have hwords : (utf8 "NaN").Tidy ∧ (utf8 "inf").Tidy ∧ (utf8 "-inf").Tidy := by decide
  rw [text, Layout.write]
  split
  · exact hwords.1
  split
  · split
    exacts [hwords.2.2, hwords.2.1]
  -- a sign and digits have no blanks
  · have hdecimal : ∀ c ∈ Layout.plain.decimal (.shortest Layout.plain.tie x),
        Text.isBlank c = false := Layout.noBlank_decimal _
    refine tidy_of_trimChars ?_ (Text.trimChars_of_noBlank ?_)
    · split <;> simp [Layout.decimal_ne_nil]
    · rw [String.toList_ofList]
      split
      · exact List.forall_mem_cons.2 ⟨rfl, hdecimal⟩
      · exact hdecimal

/-- The text of a tuple is tidy, since parentheses are around it. -/
theorem tidy_text_tuple (items : List Value) : (utf8 (tuple items).text).Tidy := by
  have htext : (tuple items).text.toList =
      '(' :: ((", ".intercalate (texts items)).toList ++ [')']) := by
    simp [text]
  refine tidy_of_trimChars ?_ ?_
  · simp [htext]
  · rw [htext]
    exact Text.trimChars_between rfl rfl _

/-- A value of another type than text is tidy in any case. -/
theorem tidy_of_fits {type : ColumnType} {v : Value} (h : v.Fits type) (htype : type ≠ .utf8) :
    v.Tidy := by
  rcases h with rfl | h
  · trivial
  · cases v with
    | utf8 text => exact absurd (Option.some.inj h).symm htype
    | null | int64 n | float64 x | bool b | tuple items => trivial

/-- Every value but null has a tidy text. -/
theorem tidy_text {v : Value} (hsome : v.isNull = false) (htidy : v.Tidy) :
    (utf8 v.text).Tidy := by
  cases v with
  | null => cases hsome
  | utf8 text => exact htidy
  | float64 x => exact tidy_text_float64 x
  | tuple items => exact tidy_text_tuple items
  | bool b => cases b <;> decide
  | int64 n =>
    refine tidy_of_trimChars ?_ (Text.trimChars_of_noBlank (Csv.noBlank_toString n.toInt))
    rw [text, Numeral.toList_toString]
    split <;> simp

end Value

/-! ## Converting twice -/

namespace Csv

variable {type : ColumnType} {v w : Value}

/-- What a value is converted to. -/
theorem fits_of_convert (h : convert type v = .ok w) : w.Fits type := by
  cases v with
  | null => exact .inl (Except.ok.inj h).symm
  | utf8 text => exact (fits_of_readCell h).1
  | int64 n | float64 x | bool b =>
    cases type <;> first | exact .inr (Except.ok.inj h ▸ rfl) | cases h
  -- a tuple has a text, and is no value of any other type
  | tuple items =>
    cases type with
    | utf8 => exact .inr (Except.ok.inj h ▸ rfl)
    | int64 | float64 | bool => cases h

/-- What a conversion gives is tidy. -/
theorem tidy_of_convert (h : convert type v = .ok w) : w.Tidy := by
  cases v with
  | null => exact Except.ok.inj h ▸ trivial
  | utf8 text => exact (fits_of_readCell h).2
  | int64 n | float64 x | bool b | tuple items =>
    -- a conversion to text writes the value, any other one gives no text
    cases type with
    | utf8 => exact Except.ok.inj h ▸ Value.tidy_text rfl trivial
    | int64 | float64 | bool => first | exact Except.ok.inj h ▸ trivial | cases h

/-- A tidy value that fits the type stays as it is. -/
theorem convert_of_fits (hfits : w.Fits type) (htidy : w.Tidy) : convert type w = .ok w := by
  rcases hfits with rfl | htype
  · rfl
  cases w with
  | null | tuple items => cases htype
  | int64 n | float64 x | bool b =>
    obtain rfl := Option.some.inj htype
    rfl
  | utf8 text =>
    obtain rfl := Option.some.inj htype
    exact readCell_text (v := .utf8 text) rfl nofun htidy

/-- What has been converted to a type stays when it is converted to it again. -/
theorem convert_of_converted (h : convert type v = .ok w) : convert type w = .ok w :=
  convert_of_fits (fits_of_convert h) (tidy_of_convert h)

/-! ## Converting back -/

/-- A value is converted to its text and back. The texts of floating numbers are left out. -/
theorem exists_convert_back (hfits : v.Fits type) (hfloat : type ≠ .float64) (htidy : v.Tidy) :
    ∃ w, convert .utf8 v = .ok w ∧ convert type w = .ok v := by
  rcases hfits with rfl | htype
  · exact ⟨.null, rfl, rfl⟩
  refine ⟨.utf8 v.text, ?_, readCell_text htype hfloat htidy⟩
  -- a number or a truth is written, and a tidy text is its own text
  cases v with
  | null | tuple items => cases htype
  | int64 n | float64 x | bool b => rfl
  | utf8 text => exact convert_of_fits (.inr rfl) htidy

end Csv

end RowFlow
