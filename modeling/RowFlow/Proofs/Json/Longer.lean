import Mathlib.Data.List.TakeWhile
import RowFlow.Json.Reader
import RowFlow.Proofs.Json.Scalars
import RowFlow.Proofs.Success

/-!
# Scanners in Longer Texts

A scanner that has read the front of a text reads the same if the text is longer. Words and strings
have an end of their own (`Json.reach_word`, `Json.stringBody_longer`), while a number could go on,
so that something must follow it (`Json.reach_numeral`). What a scanner passes over leaves a count
of open brackets as it is, since brackets in strings do not count (`Json.nestsWithin`).
-/

namespace RowFlow

namespace Json

/-! ## Nesting -/

/-- Where a scan for brackets stands. -/
inductive Place where
  | outside
  | inString
  /-- behind a backslash in a string -/
  | escaped

/-- Whether never more than `limit` brackets are open in a text, in front of which `opened` are. -/
def nestsWithin (limit : Nat) : Place → Nat → List UInt8 → Bool
  | _, _, [] => true
  | .outside, opened, b :: rest =>
    if b = '"'.toUInt8 then nestsWithin limit .inString opened rest
    else if b = '['.toUInt8 || b = '\x7b'.toUInt8 then
      opened + 1 ≤ limit && nestsWithin limit .outside (opened + 1) rest
    else if b = ']'.toUInt8 || b = '\x7d'.toUInt8 then
      nestsWithin limit .outside (opened - 1) rest
    else nestsWithin limit .outside opened rest
  | .inString, opened, b :: rest =>
    if b = '"'.toUInt8 then nestsWithin limit .outside opened rest
    else if b = '\\'.toUInt8 then nestsWithin limit .escaped opened rest
    else nestsWithin limit .inString opened rest
  | .escaped, opened, _ :: rest => nestsWithin limit .inString opened rest

/-- A text that nests within bounds goes on to a rest that does. -/
def Through (bytes rest : List UInt8) : Prop :=
  ∀ ⦃limit opened : Nat⦄, nestsWithin limit .outside opened bytes = true →
    nestsWithin limit .outside opened rest = true

theorem Through.refl (bytes : List UInt8) : Through bytes bytes := fun _ _ h => h

theorem Through.trans {bytes rest rest' : List UInt8} (h : Through bytes rest)
    (h' : Through rest rest') : Through bytes rest' :=
  fun _ _ hn => h' (h hn)

/-- The bytes that a scan for brackets looks at. -/
def marks : List UInt8 := ['"', '[', ']', '\x7b', '\x7d'].map Char.toUInt8

/-- A byte of a kind to which no mark belongs is no mark. -/
theorem not_mem_marks {p : UInt8 → Bool} (hp : marks.any p = false) {b : UInt8}
    (h : p b = true) : b ∉ marks :=
  fun hb => List.any_eq_false.1 hp b hb h

/-- A byte that the scan does not look at may be left out. -/
theorem through_cons {b : UInt8} (h : b ∉ marks) (rest : List UInt8) :
    Through (b :: rest) rest := by
  intro limit opened hn
  simp only [marks, List.map_cons, List.map_nil, List.mem_cons, List.not_mem_nil, or_false,
    not_or] at h
  obtain ⟨hquote, hopen, hclose, hopen', hclose'⟩ := h
  -- none of the tests of the scan is for this byte
  simpa only [nestsWithin, hquote, hopen, hclose, hopen', hclose', decide_false, Bool.or_self,
    if_false, Bool.false_eq_true] using hn

/-- So may any number of such bytes. -/
theorem through_append {front : List UInt8} (h : ∀ b ∈ front, b ∉ marks) (rest : List UInt8) :
    Through (front ++ rest) rest := by
  induction front with
  | nil => exact Through.refl rest
  | cons b front ih =>
    obtain ⟨hb, hfront⟩ := List.forall_mem_cons.1 h
    exact (through_cons hb _).trans (ih hfront)

/-- What is dropped is of a kind to which no mark belongs. -/
theorem through_dropWhile {p : UInt8 → Bool} (hp : marks.any p = false) (bytes : List UInt8) :
    Through bytes (bytes.dropWhile p) := by
  have hfront : ∀ b ∈ bytes.takeWhile p, b ∉ marks :=
    fun b hb => not_mem_marks hp (List.mem_takeWhile_imp hb)
  -- a text is what is dropped from it and what is left
  have hthrough := through_append hfront (bytes.dropWhile p)
  rwa [List.takeWhile_append_dropWhile] at hthrough

theorem through_skipBlanks (bytes : List UInt8) : Through bytes (skipBlanks bytes) :=
  through_dropWhile rfl bytes

theorem through_digits (bytes : List UInt8) : Through bytes (bytes.dropWhile isDigit) :=
  through_dropWhile rfl bytes

/-! ## Reading on -/

/-- A reader takes the front of a text, whatever follows the text, and passes over no bracket. -/
structure Reach {α : Type} (reader : Reader α) (bytes : List UInt8) (a : α) (rest : List UInt8) :
    Prop where
  reads (more : List UInt8) : reader (bytes ++ more) = .ok (a, rest ++ more)
  through : Through bytes rest

namespace Reach

variable {α : Type} {f g : Reader α} {b : UInt8} {bytes rest : List UInt8} {a : α}

theorem here (h : ∀ more, g (bytes ++ more) = .ok (a, bytes ++ more)) : Reach g bytes a bytes :=
  ⟨h, .refl bytes⟩

/-- A reader may go on as another one. -/
theorem go_on (h : Reach f bytes a rest) (hg : ∀ more, g (bytes ++ more) = f (bytes ++ more)) :
    Reach g bytes a rest :=
  ⟨fun more => (hg more).trans (h.reads more), h.through⟩

/-- A reader may pass over a byte and go on as another one. -/
theorem cons (h : Reach f bytes a rest) (hb : b ∉ marks)
    (hg : ∀ more, g (b :: (bytes ++ more)) = f (bytes ++ more)) : Reach g (b :: bytes) a rest :=
  ⟨fun more => (hg more).trans (h.reads more), (through_cons hb bytes).trans h.through⟩

end Reach

/-- Where a run of bytes has ended before the text does, it ends there in a longer text. -/
theorem span_append {p : UInt8 → Bool} {bytes : List UInt8} (h : bytes.dropWhile p ≠ [])
    (more : List UInt8) :
    (bytes ++ more).takeWhile p = bytes.takeWhile p ∧
      (bytes ++ more).dropWhile p = bytes.dropWhile p ++ more := by
  induction bytes with
  | nil => exact absurd rfl h
  | cons b rest ih =>
    rw [List.dropWhile_cons] at h
    cases hb : p b with
    | false => simp [hb]
    | true =>
      rw [hb, if_pos rfl] at h
      obtain ⟨htake, hdrop⟩ := ih h
      simp [hb, htake, hdrop]

/-- Blanks end where they ended in the shorter text. -/
theorem skipBlanks_append {bytes rest : List UInt8} {b : UInt8} (h : skipBlanks bytes = b :: rest)
    (more : List UInt8) : skipBlanks (bytes ++ more) = b :: (rest ++ more) := by
  -- a byte that is no blank has been seen behind them
  have hsome : bytes.dropWhile isBlank ≠ [] := by
    rw [show bytes.dropWhile isBlank = b :: rest from h]
    exact List.cons_ne_nil _ _
  exact (span_append hsome more).2.trans (congrArg (· ++ more) h)

/-! ## Words -/

/-- A word is taken just where its letters stand. -/
theorem word_eq_ok_iff {α : Type} {result a : α} {cs : List Char} {bytes rest : List UInt8} :
    word result cs bytes = .ok (a, rest) ↔
      result = a ∧ bytes = cs.map Char.toUInt8 ++ rest := by
  induction cs generalizing bytes with
  | nil => simp only [word, Except.ok.injEq, Prod.mk.injEq, List.map_nil, List.nil_append]
  | cons c cs ih =>
    cases bytes with
    | nil => simp [word]
    | cons b bytes =>
      rw [word]
      split
      · rename_i hb
        rw [ih, hb, List.map_cons, List.cons_append, List.cons_eq_cons, eq_self, true_and]
      · rename_i hb
        simp [hb]

/-- A word has an end of its own, so nothing needs to follow it. -/
theorem reach_word {α : Type} {result a : α} {cs : List Char} {bytes rest : List UInt8}
    (hcs : (cs.map Char.toUInt8).all (· ∉ marks) = true)
    (h : word result cs bytes = .ok (a, rest)) : Reach (word result cs) bytes a rest := by
  obtain ⟨rfl, rfl⟩ := word_eq_ok_iff.1 h
  refine ⟨fun more => word_eq_ok_iff.2 ⟨rfl, List.append_assoc _ _ _⟩, through_append ?_ rest⟩
  exact fun b hb => of_decide_eq_true (List.all_eq_true.1 hcs b hb)

/-! ## Numbers -/

/-- A sign is passed over. -/
theorem exponentSign_append {bytes digits : List UInt8} {down : Bool}
    (h : exponentSign bytes = (down, digits)) (hdigits : digits ≠ []) :
    (∀ more, exponentSign (bytes ++ more) = (down, digits ++ more)) ∧ Through bytes digits := by
  cases bytes with
  | nil =>
    cases h
    exact absurd rfl hdigits
  | cons b rest =>
    simp only [List.cons_append, exponentSign] at h ⊢
    -- the first byte decides, and it is the first byte of the longer text, too
    split_ifs at h ⊢ with hplus hminus
    · cases h
      exact ⟨fun _ => rfl, through_cons (hplus ▸ by decide) _⟩
    · cases h
      exact ⟨fun _ => rfl, through_cons (hminus ▸ by decide) _⟩
    · cases h
      exact ⟨fun _ => rfl, .refl _⟩

/-- The digits of a number end where something else follows. -/
theorem digits_append {bytes rest : List UInt8} (h : bytes.dropWhile isDigit = rest)
    (hrest : rest ≠ []) (more : List UInt8) :
    (bytes ++ more).takeWhile isDigit = bytes.takeWhile isDigit ∧
      (bytes ++ more).dropWhile isDigit = rest ++ more :=
  h ▸ span_append (h ▸ hrest) more

section
variable {negative : Bool} {significand : Nat} {exponent : Int} {bytes rest : List UInt8} {v : Json}
  (hrest : rest ≠ [])
include hrest

/-- An exponent is read on where something follows its digits. -/
theorem reach_exponentPart (h : exponentPart negative significand exponent bytes = .ok (v, rest)) :
    Reach (exponentPart negative significand exponent) bytes v rest := by
  rcases hsign : exponentSign bytes with ⟨down, digits⟩
  simp only [exponentPart, hsign] at h
  cases digits with
  | nil => cases h
  | cons b tail =>
    -- a sign must have digits behind it, so it is the sign in a longer text, too
    obtain ⟨hsign, hskip⟩ := exponentSign_append hsign (List.cons_ne_nil _ _)
    dsimp only at h
    split at h
    · rename_i hb
      -- the exponent's size decides on the value only
      have hdrop : (b :: tail).dropWhile isDigit = rest := by
        split at h
        · split at h
          · cases h
          · cases h
            rfl
        · obtain ⟨number, -, h⟩ := bind_eq_ok_iff.1 h
          cases h
          rfl
      refine ⟨fun more => ?_, hskip.trans (hdrop ▸ through_digits _)⟩
      obtain ⟨htake, hmore⟩ := digits_append hdrop hrest more
      rw [List.cons_append] at htake hmore
      simp only [exponentPart, hsign, List.cons_append, hb, if_true, htake, hmore]
      -- the value has been found from the same digits
      split at h
      · rename_i hlarge
        rw [if_pos hlarge]
        split at h
        · cases h
        · rename_i hsmall
          cases h
          exact if_neg hsmall
      · rename_i hlarge
        obtain ⟨number, hscaled, h⟩ := bind_eq_ok_iff.1 h
        cases h
        rw [if_neg hlarge, hscaled]
        rfl
    · cases h

/-- Without an exponent the number ends where it would have begun. -/
theorem reach_exponentIfAny
    (h : exponentIfAny negative significand exponent bytes = .ok (v, rest)) :
    Reach (exponentIfAny negative significand exponent) bytes v rest := by
  cases bytes with
  | nil =>
    -- a number that ends with the text has nothing behind it
    obtain ⟨number, -, h⟩ := bind_eq_ok_iff.1 h
    cases h
    exact absurd rfl hrest
  | cons b tail =>
    simp only [exponentIfAny] at h
    split at h
    · rename_i hmark
      exact (reach_exponentPart hrest h).cons (not_mem_marks rfl hmark)
        fun _ => if_pos hmark
    · rename_i hmark
      obtain ⟨number, hscaled, h⟩ := bind_eq_ok_iff.1 h
      cases h
      refine .here fun more => ?_
      rw [List.cons_append, exponentIfAny, if_neg hmark, hscaled]
      rfl

/-- The digits of a fraction end where something else follows, however many of them count. -/
theorem fractionDigits_append {count digits taken : Nat}
    (h : fractionDigits significand count bytes = (digits, taken, rest)) :
    (∀ more, fractionDigits significand count (bytes ++ more) = (digits, taken, rest ++ more)) ∧
      Through bytes rest := by
  -- the induction is on the text; the significand grows on the way
  induction bytes generalizing significand count with
  | nil =>
    cases h
    exact absurd rfl hrest
  | cons b tail ih =>
    simp only [fractionDigits] at h
    split at h
    · rename_i hb
      have hskip := through_cons (not_mem_marks rfl hb) tail
      split at h
      · rename_i hlimit
        -- the significand is full, and further digits are passed over
        obtain ⟨hfirst, h⟩ := Prod.mk.inj h
        obtain ⟨hsecond, hdrop⟩ := Prod.mk.inj h
        refine ⟨fun more => ?_, hskip.trans (hdrop ▸ through_digits tail)⟩
        simp only [List.cons_append, fractionDigits, hb, hlimit, if_true,
          (digits_append hdrop hrest more).2]
        rw [hfirst, hsecond]
      · rename_i hlimit
        obtain ⟨hreads, hthrough⟩ := ih h
        refine ⟨fun more => ?_, hskip.trans hthrough⟩
        simp only [List.cons_append, fractionDigits, hb, hlimit, if_true, if_false, hreads more]
    · rename_i hb
      obtain ⟨hfirst, h⟩ := Prod.mk.inj h
      obtain ⟨hsecond, rfl⟩ := Prod.mk.inj h
      refine ⟨fun more => ?_, .refl _⟩
      rw [List.cons_append, fractionDigits, if_neg hb, hfirst, hsecond]

/-- A fraction has at least one digit, and may have an exponent behind it. -/
theorem reach_fractionPart
    (h : fractionPart negative significand exponent bytes = .ok (v, rest)) :
    Reach (fractionPart negative significand exponent) bytes v rest := by
  cases bytes with
  | nil => cases h
  | cons b tail =>
    simp only [fractionPart] at h
    split at h
    · rename_i hb
      rcases hdigits : fractionDigits significand 0 (b :: tail) with ⟨digits, count, left⟩
      rw [hdigits] at h
      dsimp only at h
      -- a fraction that ended with the text would have nothing behind it
      have hleft : left ≠ [] := by
        rintro rfl
        obtain ⟨number, -, h⟩ := bind_eq_ok_iff.1 h
        cases h
        exact hrest rfl
      obtain ⟨hlonger, hskip⟩ := fractionDigits_append hleft hdigits
      obtain ⟨hreads, hthrough⟩ := reach_exponentIfAny hrest h
      refine ⟨fun more => ?_, hskip.trans hthrough⟩
      have hlonger := hlonger more
      rw [List.cons_append] at hlonger ⊢
      simp only [fractionPart, hb, if_true, hlonger]
      exact hreads more
    · cases h

/-- Behind the whole part of a number come a fraction, an exponent or the end of the number. -/
theorem reach_afterWhole (h : afterWhole negative significand bytes = .ok (v, rest)) :
    Reach (afterWhole negative significand) bytes v rest := by
  cases bytes with
  | nil =>
    cases h
    exact absurd rfl hrest
  | cons b tail =>
    simp only [afterWhole] at h
    -- the byte behind the digits tells which of them it is
    split at h
    · rename_i hpoint
      exact (reach_fractionPart hrest h).cons (hpoint ▸ by decide) fun _ => if_pos hpoint
    · rename_i hpoint
      split at h
      · rename_i hmark
        exact (reach_exponentPart hrest h).cons (not_mem_marks rfl hmark)
          fun _ => (if_neg hpoint).trans (if_pos hmark)
      · rename_i hmark
        cases h
        exact .here fun _ => (if_neg hpoint).trans (if_neg hmark)

/-- It is the same behind digits that are too many to count. -/
theorem reach_afterLongWhole {digits : Nat}
    (h : afterLongWhole negative significand digits bytes = .ok (v, rest)) :
    Reach (afterLongWhole negative significand digits) bytes v rest := by
  cases bytes with
  | nil =>
    obtain ⟨number, -, h⟩ := bind_eq_ok_iff.1 h
    cases h
    exact absurd rfl hrest
  | cons b tail =>
    simp only [afterLongWhole] at h
    split at h
    · rename_i hpoint
      exact (reach_fractionPart hrest h).cons (hpoint ▸ by decide) fun _ => if_pos hpoint
    · rename_i hpoint
      exact (reach_exponentIfAny hrest h).go_on fun _ => if_neg hpoint

/-- The digits of the whole part are read on, up to the first one that does not count any more. -/
theorem reach_wholeDigits (h : wholeDigits negative significand bytes = .ok (v, rest)) :
    Reach (wholeDigits negative significand) bytes v rest := by
  induction bytes generalizing significand with
  | nil =>
    cases h
    exact absurd rfl hrest
  | cons b tail ih =>
    simp only [wholeDigits] at h
    split at h
    · rename_i hb
      have hskip : b ∉ marks := not_mem_marks rfl hb
      split at h
      · rename_i hlimit
        -- further digits are passed over, and something follows them
        have hleft : tail.dropWhile isDigit ≠ [] := by
          intro hnil
          rw [hnil] at h
          obtain ⟨number, -, h⟩ := bind_eq_ok_iff.1 h
          cases h
          exact hrest rfl
        obtain ⟨hreads, hthrough⟩ := reach_afterLongWhole hrest h
        refine ⟨fun more => ?_, ((through_cons hskip _).trans (through_digits tail)).trans hthrough⟩
        obtain ⟨htake, hdrop⟩ := digits_append rfl hleft more
        simp only [List.cons_append, wholeDigits, hb, if_true, hlimit, htake, hdrop]
        exact hreads more
      · rename_i hlimit
        exact (ih h).cons hskip fun _ => (if_pos hb).trans (if_neg hlimit)
    · rename_i hb
      exact (reach_afterWhole hrest h).go_on fun _ => if_neg hb

/-- A number that something follows is read in any longer text. -/
theorem reach_numeral (h : numeral negative bytes = .ok (v, rest)) :
    Reach (numeral negative) bytes v rest := by
  cases bytes with
  | nil => cases h
  | cons b tail =>
    simp only [numeral] at h
    split at h
    · cases h
    · rename_i hb
      -- a number starts with a digit, and the sign in front of it has been taken already
      have hskip : b ∉ marks := not_mem_marks (p := isDigit) rfl (by simpa using hb)
      split at h
      · rename_i hzero
        split at h
        · cases h
        · rename_i hhead
          -- whether a digit follows the zero has been seen in the shorter text
          have hsome : tail ≠ [] := by
            rintro rfl
            cases h
            exact hrest rfl
          refine (reach_afterWhole hrest h).cons hskip fun more => ?_
          have hlonger : (tail ++ more).head? = tail.head? :=
            List.head?_append_of_ne_nil _ hsome
          rw [← hlonger] at hhead
          exact (if_neg hb).trans ((if_pos hzero).trans (if_neg hhead))
      · rename_i hzero
        exact (reach_wholeDigits hrest h).cons hskip
          fun _ => (if_neg hb).trans (if_neg hzero)

end

/-! ## Strings -/

/-- Bytes that a scan for brackets passes over inside a string. -/
def Hidden (bytes : List UInt8) : Prop :=
  ∀ (limit opened : Nat) (rest : List UInt8),
    nestsWithin limit .inString opened (bytes ++ rest) = nestsWithin limit .inString opened rest

theorem hidden_nil : Hidden [] := fun _ _ _ => rfl

theorem Hidden.cons {b : UInt8} {bytes : List UInt8} (h : Hidden bytes) (hquote : b ≠ '"'.toUInt8)
    (hslash : b ≠ '\\'.toUInt8) : Hidden (b :: bytes) := by
  intro limit opened rest
  rw [List.cons_append, nestsWithin, if_neg hquote, if_neg hslash]
  exact h limit opened rest

theorem Hidden.append {bytes more : List UInt8} (h : Hidden bytes) (h' : Hidden more) :
    Hidden (bytes ++ more) := by
  intro limit opened rest
  rw [List.append_assoc, h, h']

/-- A byte behind a backslash is passed over, whatever it is. -/
theorem Hidden.escaped {bytes : List UInt8} (h : Hidden bytes) (b : UInt8) :
    Hidden ('\\'.toUInt8 :: b :: bytes) := by
  have hquote : '\\'.toUInt8 ≠ '"'.toUInt8 := by decide
  intro limit opened rest
  rw [List.cons_append, nestsWithin, if_neg hquote, if_pos rfl, List.cons_append, nestsWithin]
  exact h limit opened rest

theorem hidden_hexDigit {b : UInt8} {n : Nat} {bytes : List UInt8} (h : Hidden bytes)
    (hb : hexDigit? b = some n) : Hidden (b :: bytes) := by
  -- neither a quote nor a backslash is a digit
  refine h.cons ?_ ?_
  · rintro rfl
    cases hb
  · rintro rfl
    cases hb

/-- A unit is four digits, whatever follows them. -/
theorem exists_of_leadingUnit {bytes : List UInt8} {unit : Nat} (h : leadingUnit bytes = .ok unit) :
    ∃ code rest, bytes = code ++ rest ∧ code.length = 4 ∧ Hidden code ∧
      ∀ more, leadingUnit (code ++ more) = .ok unit := by
  match bytes with
  | h₁ :: h₂ :: h₃ :: h₄ :: rest =>
    have hunit : hexUnit h₁ h₂ h₃ h₄ = .ok unit := h
    simp only [hexUnit] at hunit
    split at hunit
    · rename_i hw hx hy hz
      have hlast := hidden_hexDigit (hidden_hexDigit hidden_nil hz) hy
      exact ⟨[h₁, h₂, h₃, h₄], rest, rfl, rfl, hidden_hexDigit (hidden_hexDigit hlast hx) hw,
        fun _ => h⟩
    · cases hunit
  | [] | [_] | [_, _] | [_, _, _] => cases h

/-- An escape is one unit, or a leading surrogate with a trailing one behind it. -/
theorem unicodeEscape_cases {bytes : List UInt8} {c : Char} {length : Nat}
    (h : unicodeEscape bytes = .ok (c, length)) :
    ∃ unit, leadingUnit bytes = .ok unit ∧ ¬(0xDC00 ≤ unit && unit < 0xE000) = true ∧
      (¬(0xD800 ≤ unit && unit < 0xDC00) = true ∧ (Char.ofNat unit, 5) = (c, length) ∨
        (0xD800 ≤ unit && unit < 0xDC00) = true ∧ ∃ digits trailing,
          bytes.drop 4 = '\\'.toUInt8 :: 'u'.toUInt8 :: digits ∧
            leadingUnit digits = .ok trailing ∧ (0xDC00 ≤ trailing && trailing < 0xE000) = true ∧
              (surrogatePair unit trailing, 11) = (c, length)) := by
  obtain ⟨unit, hunit, h⟩ := bind_eq_ok_iff.1 h
  -- a unit that must not stand alone is refused at once
  split at h
  · cases h
  · rename_i hlone
    refine ⟨unit, hunit, hlone, ?_⟩
    split at h
    · rename_i hleading
      split at h
      · cases h
      · rename_i s rest hdrop
        split at h
        · cases h
        · rename_i hs
          split at h
          · cases h
          · rename_i u digits
            split at h
            · cases h
            · rename_i hu
              -- the second escape has been recognized, and its unit has to be a trailing one
              obtain ⟨trailing, htrailing, h⟩ := bind_eq_ok_iff.1 h
              split at h
              · rename_i hrange
                rw [Classical.not_not.1 hs, Classical.not_not.1 hu] at hdrop
                exact .inr ⟨hleading, digits, trailing, hdrop, htrailing, hrange,
                  Except.ok.inj h⟩
              · cases h
    · rename_i hleading
      exact .inl ⟨hleading, Except.ok.inj h⟩

/-- The bytes of a unicode escape behind its letter: those of one unit, or of two with an escape
    between them. -/
theorem exists_of_unicodeEscape {bytes : List UInt8} {c : Char} {length : Nat}
    (h : unicodeEscape bytes = .ok (c, length)) :
    ∃ code rest, bytes = code ++ rest ∧ code.length + 1 = length ∧ Hidden code ∧
      ∀ more, unicodeEscape (code ++ more) = .ok (c, length) := by
  obtain ⟨unit, hunit, hlone, h⟩ := unicodeEscape_cases h
  obtain ⟨code, rest, rfl, hlength, hhidden, hlonger⟩ := exists_of_leadingUnit hunit
  have hdrop (more : List UInt8) : (code ++ more).drop 4 = more := hlength ▸ List.drop_left
  rcases h with ⟨hleading, hpair⟩ | ⟨hleading, digits, trailing, hrest, htrailing, hrange, hpair⟩
  · obtain ⟨rfl, rfl⟩ := Prod.mk.inj hpair
    refine ⟨code, rest, rfl, by rw [hlength], hhidden, fun more => ?_⟩
    rw [unicodeEscape, hlonger]
    simp only [bind, Except.bind, hlone, hleading]
    rfl
  · obtain ⟨rfl, rfl⟩ := Prod.mk.inj hpair
    -- a surrogate pair has a backslash and a letter between its units
    obtain ⟨code', rest', rfl, hlength', hhidden', hlonger'⟩ := exists_of_leadingUnit htrailing
    rw [hdrop] at hrest
    refine ⟨code ++ '\\'.toUInt8 :: 'u'.toUInt8 :: code', rest', ?_, ?_,
      hhidden.append (hhidden'.escaped _), fun more => ?_⟩
    · simp only [hrest, List.append_assoc, List.cons_append]
    · simp only [List.length_append, List.length_cons, hlength, hlength']
    · rw [List.append_assoc, unicodeEscape, hlonger]
      simp only [bind, Except.bind, hlone, hleading, if_true, hdrop, List.cons_append, ne_eq,
        not_true_eq_false, if_false, hlonger', hrange]
      rfl

/-- The bytes of an escape behind its backslash. -/
theorem exists_of_escape {bytes content : List UInt8} {length : Nat}
    (h : escape bytes = .ok (content, length)) :
    ∃ e code rest, bytes = e :: code ++ rest ∧ code.length + 1 = length ∧ Hidden code ∧
      ∀ more, escape (e :: code ++ more) = .ok (content, length) := by
  cases bytes with
  | nil => cases h
  | cons e bytes =>
    simp only [escape] at h
    split at h
    · rename_i byte hletter
      cases h
      -- a single letter stands for its byte
      refine ⟨e, [], bytes, rfl, rfl, hidden_nil, fun more => ?_⟩
      simp only [List.cons_append, escape, hletter]
    · rename_i hletter
      split at h
      · rename_i hu
        obtain ⟨⟨c, length⟩, hunicode, h⟩ := bind_eq_ok_iff.1 h
        cases h
        obtain ⟨code, rest, rfl, hlength, hhidden, hlonger⟩ := exists_of_unicodeEscape hunicode
        refine ⟨e, code, rest, rfl, hlength, hhidden, fun more => ?_⟩
        simp only [List.cons_append, escape, hu, if_true, hlonger]
        rfl
      · cases h

/-- A string is read in any longer text, and the scan for brackets leaves it where it ends. -/
theorem stringBytes_longer (before : List UInt8) {bytes content rest : List UInt8}
    (h : stringBytes before 0 bytes = .ok (content, rest)) :
    (∀ more, stringBytes before 0 (bytes ++ more) = .ok (content, rest ++ more)) ∧
      ∀ {limit opened}, nestsWithin limit .inString opened bytes = true →
        nestsWithin limit .outside opened rest = true := by
  -- an escape is left behind as a whole, so the induction is on what is left of the text
  induction hsize : bytes.length using Nat.strongRecOn generalizing before bytes with
  | ind size ih =>
    cases bytes with
    | nil => cases h
    | cons b tail =>
      simp only [stringBytes] at h
      split at h
      · rename_i hquote
        cases h
        refine ⟨fun more => ?_, fun hn => ?_⟩
        · rw [List.cons_append, stringBytes, if_pos hquote]
        · rwa [nestsWithin, if_pos hquote] at hn
      · rename_i hquote
        split at h
        · rename_i hslash
          obtain ⟨⟨content', length⟩, hescape, h⟩ := bind_eq_ok_iff.1 h
          obtain ⟨e, code, left, rfl, rfl, hhidden, hlonger⟩ := exists_of_escape hescape
          obtain rfl := hslash
          dsimp only at h
          -- the bytes of the escape are not looked at again
          rw [← List.length_cons, stringBytes_resolved] at h
          obtain ⟨hreads, hthrough⟩ := ih left.length (by simp at hsize; omega) _ h rfl
          refine ⟨fun more => ?_, fun hn => hthrough ?_⟩
          · rw [← hreads more, List.cons_append, List.append_assoc]
            exact stringBytes_escape (hlonger _) before
          · have hskip := hhidden.escaped e
            rw [← hskip]
            exact hn
        · rename_i hslash
          split at h
          · cases h
          · rename_i hcontrol
            -- any other byte stands for itself
            obtain ⟨hreads, hthrough⟩ := ih tail.length (by simp at hsize; omega) _ h rfl
            refine ⟨fun more => ?_, fun hn => hthrough ?_⟩
            · rw [List.cons_append, stringBytes, if_neg hquote, if_neg hslash, if_neg hcontrol]
              exact hreads more
            · rwa [nestsWithin, if_neg hquote, if_neg hslash] at hn

/-- The same of the text that a string holds, which has to be well-formed. -/
theorem stringBody_longer {bytes rest : List UInt8} {text : String}
    (h : stringBody bytes = .ok (text, rest)) :
    (∀ more, stringBody (bytes ++ more) = .ok (text, rest ++ more)) ∧
      ∀ {limit opened}, nestsWithin limit .inString opened bytes = true →
        nestsWithin limit .outside opened rest = true := by
  obtain ⟨⟨content, left⟩, hbytes, h⟩ := bind_eq_ok_iff.1 h
  dsimp only at h
  split at h
  · rename_i decoded hdecode
    cases h
    obtain ⟨hreads, hthrough⟩ := stringBytes_longer [] hbytes
    refine ⟨fun more => ?_, hthrough⟩
    rw [stringBody, hreads more]
    simp only [bind, Except.bind, hdecode]
    rfl
  · cases h

/-! ## Separators -/

/-- A mark may have blanks in front of it. -/
theorem mark_eq_ok_iff {c : Char} {bytes rest : List UInt8} :
    mark c bytes = .ok ((), rest) ↔ skipBlanks bytes = c.toUInt8 :: rest := by
  rw [mark]
  split
  · rename_i hskip
    simp [hskip]
  · rename_i b tail hskip
    split
    · rename_i hb
      simp [hskip, hb]
    · rename_i hb
      simp [hskip, hb]

/-- A mark is read on, and if it is no bracket, the scan passes over it. -/
theorem reach_mark {c : Char} (hc : c.toUInt8 ∉ marks) {bytes rest : List UInt8}
    (h : mark c bytes = .ok ((), rest)) : Reach (mark c) bytes () rest := by
  have hskip := mark_eq_ok_iff.1 h
  refine ⟨fun more => mark_eq_ok_iff.2 (skipBlanks_append hskip more), ?_⟩
  exact (hskip ▸ through_skipBlanks bytes).trans (through_cons hc rest)

/-- The next part of an array or object starts at once if it is the first one, or behind a comma. -/
inductive PartStart : Bool → List UInt8 → UInt8 → List UInt8 → Prop
  | first {bytes tail : List UInt8} {b : UInt8} : skipBlanks bytes = b :: tail →
    PartStart true bytes b tail
  | later {bytes behind tail : List UInt8} {b : UInt8} :
    skipBlanks bytes = ','.toUInt8 :: behind → skipBlanks behind = b :: tail →
      PartStart false bytes b tail

section
variable {first : Bool} {bytes tail start : List UInt8} {b : UInt8}

/-- Where a part starts, it starts in a longer text. -/
theorem PartStart.append (h : PartStart first bytes b tail) (more : List UInt8) :
    PartStart first (bytes ++ more) b (tail ++ more) := by
  cases h with
  | first hskip => exact .first (skipBlanks_append hskip more)
  | later hcomma hskip =>
    exact .later (skipBlanks_append hcomma more) (skipBlanks_append hskip more)

/-- In front of a part there are blanks and a comma, but no brackets. -/
theorem PartStart.through (h : PartStart first bytes b tail) : Through bytes (b :: tail) := by
  cases h with
  | first hskip => exact hskip ▸ through_skipBlanks bytes
  | @later _ behind _ _ hcomma hskip =>
    have hbehind : Through bytes behind :=
      (hcomma ▸ through_skipBlanks bytes).trans (through_cons (by decide) behind)
    exact hbehind.trans (hskip ▸ through_skipBlanks behind)

/-- There is no next item just where the array is closed. -/
theorem nextItem?_eq_none_iff :
    nextItem? first bytes = .ok none ↔ ∃ rest, skipBlanks bytes = ']'.toUInt8 :: rest := by
  constructor
  · intro h
    rw [nextItem?] at h
    split at h
    · cases h
    · rename_i b tail hskip
      split at h
      · rename_i hb
        exact ⟨tail, hb ▸ hskip⟩
      · split_ifs at h
        · cases h
        · split at h
          · cases h
          · split_ifs at h
            cases h
  · rintro ⟨rest, hskip⟩
    rw [nextItem?, hskip]
    exact if_pos rfl

/-- The next item starts where a part starts that does not close the array. -/
theorem nextItem?_eq_some_iff :
    nextItem? first bytes = .ok (some start) ↔
      ∃ b tail, PartStart first bytes b tail ∧ b ≠ ']'.toUInt8 ∧ start = b :: tail := by
  constructor
  · intro h
    rw [nextItem?] at h
    split at h
    · cases h
    · rename_i b tail hskip
      -- the first item starts at once, and a later one behind a comma
      split_ifs at h with hb hfirst hcomma
      · cases h
      · cases h
        exact ⟨b, tail, hfirst ▸ .first hskip, hb, rfl⟩
      · split at h
        · cases h
        · rename_i c behind hskip'
          split_ifs at h with hc
          cases h
          obtain rfl := eq_false_of_ne_true hfirst
          exact ⟨c, behind, .later (hcomma ▸ hskip) hskip', hc, rfl⟩
  · rintro ⟨b, tail, hstart, hb, rfl⟩
    have hend : ','.toUInt8 ≠ ']'.toUInt8 := by decide
    cases hstart with
    | first hskip =>
      rw [nextItem?, hskip]
      exact if_neg hb
    | later hcomma hskip =>
      rw [nextItem?, hcomma]
      dsimp only
      rw [if_neg hend, if_neg Bool.false_ne_true, if_pos rfl, hskip]
      exact if_neg hb

/-- There is no next member just where the object is closed. -/
theorem nextName?_eq_none_iff :
    nextName? first bytes = .ok none ↔ ∃ rest, skipBlanks bytes = '\x7d'.toUInt8 :: rest := by
  constructor
  · intro h
    rw [nextName?] at h
    split at h
    · cases h
    · rename_i b tail hskip
      split at h
      · rename_i hb
        exact ⟨tail, hb ▸ hskip⟩
      · split_ifs at h
        · cases h
        · split at h
          · cases h
          · split_ifs at h
            cases h
  · rintro ⟨rest, hskip⟩
    rw [nextName?, hskip]
    exact if_pos rfl

/-- The next member starts where a part starts with a quote. -/
theorem nextName?_eq_some_iff :
    nextName? first bytes = .ok (some start) ↔ PartStart first bytes '"'.toUInt8 start := by
  constructor
  · intro h
    rw [nextName?] at h
    split at h
    · cases h
    · rename_i b tail hskip
      -- the first name starts at once, and a later one behind a comma
      split_ifs at h with hb hfirst hquote hcomma
      · cases h
      · cases h
        exact hfirst ▸ .first (hquote ▸ hskip)
      · split at h
        · cases h
        · rename_i c behind hskip'
          split_ifs at h with hquote
          cases h
          obtain rfl := eq_false_of_ne_true hfirst
          exact .later (hcomma ▸ hskip) (hquote ▸ hskip')
  · intro hstart
    have hend : ','.toUInt8 ≠ '\x7d'.toUInt8 := by decide
    cases hstart with
    | first hskip =>
      rw [nextName?, hskip]
      rfl
    | later hcomma hskip =>
      rw [nextName?, hcomma]
      dsimp only
      rw [if_neg hend, if_neg Bool.false_ne_true, if_pos rfl, hskip]
      exact if_pos rfl

end

end Json

end RowFlow
