import RowFlow.Proofs.Json.Longer

/-!
# Documents in Longer Texts

An object is read the same if its text is longer, and also with less room for nesting as long as
there is enough for the brackets of its text (`Json.value_longer`). The readers of items and members
are compared for any two readers of documents of which one carries over to the other
(`Json.Carries`), so that the induction on the depth is done once.
-/

namespace RowFlow

namespace Json

/-! ## Numbers -/

/-- Whether a document is a number. -/
def IsNumber : Json → Prop
  | .int _ | .number _ => True
  | _ => False

section
variable {negative : Bool} {significand : Nat} {exponent : Int} {bytes rest : List UInt8} {v : Json}

/-- What a significand and an exponent make up is a number. -/
theorem isNumber_scaled (h : scaled negative significand exponent = .ok v) : v.IsNumber := by
  simp only [scaled] at h
  -- a negative power and a zero always scale, other numbers unless they get too large
  split at h
  · cases h
    trivial
  · split at h
    · cases h
      trivial
    · split at h
      · cases h
      · split at h
        · cases h
        · cases h
          trivial

theorem isNumber_wholeNumber (negative : Bool) (significand : Nat) :
    (wholeNumber negative significand).IsNumber := by
  unfold wholeNumber
  split_ifs <;> trivial

/-- An exponent makes a number of floating point. -/
theorem isNumber_exponentPart
    (h : exponentPart negative significand exponent bytes = .ok (v, rest)) : v.IsNumber := by
  simp only [exponentPart] at h
  split at h
  · cases h
  · split at h
    · split at h
      · split at h
        · cases h
        · cases h
          trivial
      · obtain ⟨number, hscaled, h⟩ := bind_eq_ok_iff.1 h
        cases h
        exact isNumber_scaled hscaled
    · cases h

/-- With or without an exponent it is a number. -/
theorem isNumber_exponentIfAny
    (h : exponentIfAny negative significand exponent bytes = .ok (v, rest)) : v.IsNumber := by
  have hscaled {rest' : List UInt8}
      (h : (do return (← scaled negative significand exponent, rest')) = Except.ok (v, rest)) :
      v.IsNumber := by
    obtain ⟨number, hscaled, h⟩ := bind_eq_ok_iff.1 h
    cases h
    exact isNumber_scaled hscaled
  -- without a mark of an exponent the number is the significand, scaled
  cases bytes with
  | nil => exact hscaled h
  | cons b tail =>
    simp only [exponentIfAny] at h
    split at h
    · exact isNumber_exponentPart h
    · exact hscaled h

theorem isNumber_fractionPart
    (h : fractionPart negative significand exponent bytes = .ok (v, rest)) : v.IsNumber := by
  cases bytes with
  | nil => cases h
  | cons b tail =>
    simp only [fractionPart] at h
    split at h
    · exact isNumber_exponentIfAny h
    · cases h

/-- The digits of the whole part are a number, whatever follows them. -/
theorem isNumber_afterWhole (h : afterWhole negative significand bytes = .ok (v, rest)) :
    v.IsNumber := by
  cases bytes with
  | nil =>
    cases h
    exact isNumber_wholeNumber _ _
  | cons b tail =>
    simp only [afterWhole] at h
    split at h
    · exact isNumber_fractionPart h
    · split at h
      · exact isNumber_exponentPart h
      · cases h
        exact isNumber_wholeNumber _ _

theorem isNumber_wholeDigits (h : wholeDigits negative significand bytes = .ok (v, rest)) :
    v.IsNumber := by
  induction bytes generalizing significand with
  | nil => exact isNumber_afterWhole h
  | cons b tail ih =>
    simp only [wholeDigits] at h
    split at h
    · split at h
      · simp only [afterLongWhole] at h
        split at h
        · split at h
          · exact isNumber_fractionPart h
          · exact isNumber_exponentIfAny h
        · exact isNumber_exponentIfAny h
      · exact ih h
    · exact isNumber_afterWhole h

/-- What is read as a number is one. -/
theorem isNumber_numeral (h : numeral negative bytes = .ok (v, rest)) : v.IsNumber := by
  cases bytes with
  | nil => cases h
  | cons b tail =>
    simp only [numeral] at h
    -- it starts with a digit, and a zero is not followed by another one
    split at h
    · cases h
    · split at h
      · split at h
        · cases h
        · exact isNumber_afterWhole h
      · exact isNumber_wholeDigits h

end

/-! ## Containers -/

/-- What one reader takes from a text that nests within a limit and goes on, another one takes from
    any longer text. -/
def Carries (limit opened : Nat) (item item' : Reader Json) : Prop :=
  ∀ {bytes rest : List UInt8} {v : Json}, item bytes = .ok (v, rest) → rest ≠ [] →
    nestsWithin limit .outside opened bytes = true →
      (∀ more, item' (bytes ++ more) = .ok (v, rest ++ more)) ∧
        nestsWithin limit .outside opened rest = true

/-- A longer text has more steps to be read in. -/
theorem steps_append (bytes more : List UInt8) : bytes.length + 1 ≤ (bytes ++ more).length + 1 := by
  rw [List.length_append]
  omega

/-- A quote leads into a string. -/
theorem nestsWithin_quote {limit opened : Nat} {b : UInt8} {rest : List UInt8}
    (hb : b = '"'.toUInt8) (h : nestsWithin limit .outside opened (b :: rest) = true) :
    nestsWithin limit .inString opened rest = true := by
  rwa [nestsWithin, if_pos hb] at h

/-- A closing bracket takes one from the count. -/
theorem nestsWithin_closing {limit opened : Nat} {b : UInt8} {rest : List UInt8}
    (hb : b = ']'.toUInt8 ∨ b = '\x7d'.toUInt8)
    (h : nestsWithin limit .outside (opened + 1) (b :: rest) = true) :
    nestsWithin limit .outside opened rest = true := by
  rcases hb with rfl | rfl <;> exact h

/-- An opening bracket must be within the limit, and adds one to the count. -/
theorem nestsWithin_opening {limit opened : Nat} {b : UInt8} {rest : List UInt8}
    (hb : b = '['.toUInt8 ∨ b = '\x7b'.toUInt8)
    (h : nestsWithin limit .outside opened (b :: rest) = true) :
    opened + 1 ≤ limit ∧ nestsWithin limit .outside (opened + 1) rest = true := by
  have hquote : b ≠ '"'.toUInt8 := by rcases hb with rfl | rfl <;> decide
  have hopening : (b = '['.toUInt8 || b = '\x7b'.toUInt8) = true := by
    rwa [Bool.or_eq_true, decide_eq_true_eq, decide_eq_true_eq]
  rw [nestsWithin, if_neg hquote, if_pos hopening, Bool.and_eq_true, decide_eq_true_eq] at h
  exact h

section
variable {limit opened : Nat} {item item' : Reader Json}
  (hitem : Carries limit (opened + 1) item item') {fuel : Nat} {first : Bool}
  {bytes rest : List UInt8}
include hitem

/-- The items of an array are read in any longer text, up to the bracket that closes it. -/
theorem items_longer {values : List Json} (h : items item fuel first bytes = .ok (values, rest))
    (hn : nestsWithin limit .outside (opened + 1) bytes = true) :
    (∀ more fuel', fuel ≤ fuel' →
      items item' fuel' first (bytes ++ more) = .ok (values, rest ++ more)) ∧
        nestsWithin limit .outside opened rest = true := by
  -- a step for each item; between the brackets one more is open than outside
  induction fuel generalizing first bytes values with
  | zero => cases h
  | succ fuel ih =>
    obtain ⟨start?, hnext, h⟩ := bind_eq_ok_iff.1 h
    cases start? with
    -- the bracket of the array is closed
    | none =>
      obtain ⟨tail, hskip⟩ := nextItem?_eq_none_iff.1 hnext
      dsimp only at h
      rw [hskip] at h
      cases h
      refine ⟨fun more fuel' hfuel => ?_, nestsWithin_closing (.inl rfl) ?_⟩
      · obtain ⟨fuel', rfl⟩ := Nat.exists_eq_add_of_le' (Nat.le_of_add_left_le hfuel)
        have hend : nextItem? first (bytes ++ more) = .ok none :=
          nextItem?_eq_none_iff.2 ⟨_, skipBlanks_append hskip more⟩
        simp only [items, hend, bind, Except.bind, skipBlanks_append hskip]
        rfl
      · exact hskip ▸ through_skipBlanks bytes hn
    | some start =>
      obtain ⟨b, tail, hstart, hb, rfl⟩ := nextItem?_eq_some_iff.1 hnext
      obtain ⟨⟨value, left⟩, hvalue, h⟩ := bind_eq_ok_iff.1 h
      obtain ⟨⟨others, left'⟩, hothers, h⟩ := bind_eq_ok_iff.1 h
      cases h
      -- at least the bracket of the array follows the item
      have hleft : left ≠ [] := by
        rintro rfl
        cases fuel <;> cases hothers
      obtain ⟨hread, hn'⟩ := hitem hvalue hleft (hstart.through hn)
      obtain ⟨hreads, hn''⟩ := ih hothers hn'
      refine ⟨fun more fuel' hfuel => ?_, hn''⟩
      obtain ⟨fuel', rfl⟩ := Nat.exists_eq_add_of_le' (Nat.le_of_add_left_le hfuel)
      have hlonger : nextItem? first (bytes ++ more) = .ok (some (b :: tail ++ more)) :=
        nextItem?_eq_some_iff.2 ⟨b, tail ++ more, hstart.append more, hb, rfl⟩
      simp only [items, hlonger, bind, Except.bind, hread more,
        hreads more fuel' (Nat.le_of_succ_le_succ hfuel)]
      rfl

/-- So are the members of an object, up to its brace. -/
theorem members_longer {pairs : List (String × Json)}
    (h : members item fuel first bytes = .ok (pairs, rest))
    (hn : nestsWithin limit .outside (opened + 1) bytes = true) :
    (∀ more fuel', fuel ≤ fuel' →
      members item' fuel' first (bytes ++ more) = .ok (pairs, rest ++ more)) ∧
        nestsWithin limit .outside opened rest = true := by
  -- as for arrays, with a name and a colon in front of each value
  induction fuel generalizing first bytes pairs with
  | zero => cases h
  | succ fuel ih =>
    obtain ⟨start?, hnext, h⟩ := bind_eq_ok_iff.1 h
    cases start? with
    -- the brace of the object is closed
    | none =>
      obtain ⟨tail, hskip⟩ := nextName?_eq_none_iff.1 hnext
      dsimp only at h
      rw [hskip] at h
      cases h
      refine ⟨fun more fuel' hfuel => ?_, nestsWithin_closing (.inr rfl) ?_⟩
      · obtain ⟨fuel', rfl⟩ := Nat.exists_eq_add_of_le' (Nat.le_of_add_left_le hfuel)
        have hend : nextName? first (bytes ++ more) = .ok none :=
          nextName?_eq_none_iff.2 ⟨_, skipBlanks_append hskip more⟩
        simp only [members, hend, bind, Except.bind, skipBlanks_append hskip]
        rfl
      · exact hskip ▸ through_skipBlanks bytes hn
    | some start =>
      have hstart := nextName?_eq_some_iff.1 hnext
      obtain ⟨⟨name, behind⟩, hname, h⟩ := bind_eq_ok_iff.1 h
      obtain ⟨⟨⟨⟩, colon⟩, hmark, h⟩ := bind_eq_ok_iff.1 h
      obtain ⟨⟨value, left⟩, hvalue, h⟩ := bind_eq_ok_iff.1 h
      obtain ⟨⟨others, left'⟩, hothers, h⟩ := bind_eq_ok_iff.1 h
      cases h
      have hleft : left ≠ [] := by
        rintro rfl
        cases fuel <;> cases hothers
      -- the name, its colon and the value, each where the one before has ended
      obtain ⟨hnamed, hunquoted⟩ := stringBody_longer hname
      obtain ⟨hmarked, hcolon⟩ := reach_mark (by decide) hmark
      have hquoted := nestsWithin_quote rfl (hstart.through hn)
      obtain ⟨hread, hn'⟩ := hitem hvalue hleft (hcolon (hunquoted hquoted))
      obtain ⟨hreads, hn''⟩ := ih hothers hn'
      refine ⟨fun more fuel' hfuel => ?_, hn''⟩
      obtain ⟨fuel', rfl⟩ := Nat.exists_eq_add_of_le' (Nat.le_of_add_left_le hfuel)
      have hlonger := nextName?_eq_some_iff.2 (hstart.append more)
      simp only [members, hlonger, bind, Except.bind, hnamed more, hmarked more, hread more,
        hreads more fuel' (Nat.le_of_succ_le_succ hfuel)]
      rfl

end

/-! ## Documents -/

theorem IsNumber.members?_eq_none {v : Json} (h : v.IsNumber) : v.members? = none := by
  cases v with
  | object members => exact h.elim
  | _ => rfl

/-- Whatever holds of the readers of what is inside, holds of the reader of documents. A document
    that ends with the text must be an object, since a number could go on. -/
theorem valueWith_longer {limit opened : Nat} {inner inner' : Option (Reader Json)}
    (hinner : ∀ item ∈ inner, opened + 1 ≤ limit →
      ∃ item', inner' = some item' ∧ Carries limit (opened + 1) item item')
    {bytes rest : List UInt8} {v : Json} (h : valueWith inner bytes = .ok (v, rest))
    (hend : rest = [] → v.members? ≠ none) (hn : nestsWithin limit .outside opened bytes = true) :
    (∀ more, valueWith inner' (bytes ++ more) = .ok (v, rest ++ more)) ∧
      nestsWithin limit .outside opened rest = true := by
  rw [valueWith] at h
  split at h
  · cases h
  · rename_i b tail hskip
    replace hn : nestsWithin limit .outside opened (b :: tail) = true :=
      hskip ▸ through_skipBlanks bytes hn
    -- words and numbers have no brackets
    have hscan {reader : Reader Json} (hb : b ∉ marks) (h : Reach reader tail v rest) :
        (∀ more, reader (tail ++ more) = .ok (v, rest ++ more)) ∧
          nestsWithin limit .outside opened rest = true :=
      ⟨h.reads, h.through (through_cons hb tail hn)⟩
    have hnumber (h : v.IsNumber) : rest ≠ [] := fun hrest => hend hrest h.members?_eq_none
    simp only [valueWith, skipBlanks_append hskip]
    -- the first byte tells what the document is, in the longer text as well
    split_ifs at h ⊢ with hnull htrue hfalse hminus hdigit hquote harray hobject
    · exact hscan (hnull ▸ by decide) (reach_word rfl h)
    · exact hscan (htrue ▸ by decide) (reach_word rfl h)
    · exact hscan (hfalse ▸ by decide) (reach_word rfl h)
    · exact hscan (hminus ▸ by decide) (reach_numeral (hnumber (isNumber_numeral h)) h)
    · obtain ⟨hreads, hthrough⟩ := reach_numeral (hnumber (isNumber_numeral h)) h
      exact ⟨hreads, hthrough hn⟩
    · obtain ⟨⟨text, left⟩, htext, h⟩ := bind_eq_ok_iff.1 h
      cases h
      obtain ⟨hreads, hthrough⟩ := stringBody_longer htext
      refine ⟨fun more => ?_, hthrough (nestsWithin_quote hquote hn)⟩
      rw [hreads more]
      rfl
    -- inside of an array one more bracket is open, which is what the inner reader has been told
    · obtain ⟨hlimit, hopened⟩ := nestsWithin_opening (.inl harray) hn
      cases inner with
      | none => cases h
      | some item =>
        obtain ⟨item', rfl, hitem⟩ := hinner item rfl hlimit
        obtain ⟨⟨values, left⟩, hvalues, h⟩ := bind_eq_ok_iff.1 h
        cases h
        obtain ⟨hreads, hrest⟩ := items_longer hitem hvalues hopened
        refine ⟨fun more => ?_, hrest⟩
        dsimp only
        rw [hreads more _ (steps_append tail more)]
        rfl
    · obtain ⟨hlimit, hopened⟩ := nestsWithin_opening (.inr hobject) hn
      cases inner with
      | none => cases h
      | some item =>
        obtain ⟨item', rfl, hitem⟩ := hinner item rfl hlimit
        obtain ⟨⟨pairs, left⟩, hpairs, h⟩ := bind_eq_ok_iff.1 h
        cases h
        obtain ⟨hreads, hrest⟩ := members_longer hitem hpairs hopened
        refine ⟨fun more => ?_, hrest⟩
        dsimp only
        rw [hreads more _ (steps_append tail more)]
        rfl

/-- What reads inside of documents that nest at most `depth` deep, if there may be anything. -/
def inside : Nat → Option (Reader Json)
  | 0 => none
  | depth + 1 => some (value depth)

/-- A document is read with readers for what is inside of it. -/
theorem value_eq (depth : Nat) : value depth = valueWith (inside depth) := by
  cases depth <;> rfl

/-- A document is read in any longer text, and with less depth if it does not nest as deep. -/
theorem value_longer (depth : Nat) {limit opened depth' : Nat} (hdepth : limit ≤ opened + depth')
    {bytes rest : List UInt8} {v : Json} (h : value depth bytes = .ok (v, rest))
    (hend : rest = [] → v.members? ≠ none) (hn : nestsWithin limit .outside opened bytes = true) :
    (∀ more, value depth' (bytes ++ more) = .ok (v, rest ++ more)) ∧
      nestsWithin limit .outside opened rest = true := by
  -- the induction is on the depth that the text has been read with; inside of brackets one more is
  -- open and one less is left of either depth
  rw [value_eq] at h ⊢
  induction depth generalizing opened depth' bytes rest v with
  | zero =>
    refine valueWith_longer (fun item hitem => ?_) h hend hn
    cases hitem
  | succ depth ih =>
    refine valueWith_longer (fun item hitem hopened => ?_) h hend hn
    cases hitem
    obtain ⟨depth', rfl⟩ : ∃ d, depth' = d + 1 := Nat.exists_eq_succ_of_ne_zero (by omega)
    refine ⟨value depth', rfl, fun {bytes rest v} h hrest hn => ?_⟩
    rw [value_eq] at h ⊢
    exact ih (by omega) h (absurd · hrest) hn

end Json

end RowFlow
