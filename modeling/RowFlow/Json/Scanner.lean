import RowFlow.Error
import RowFlow.Json.Basic
import RowFlow.Number.Arithmetic
import RowFlow.Text.Utf8

/-!
# Scanning JSON

The parts of JSON texts that do not nest: blanks, words, strings and numbers. Scanners work on bytes
and return what is left of them. A text that ends too early is `truncated`; any other break of the
grammar is `malformed`.
-/

namespace RowFlow

namespace Json

/-- Reads something from the front of a text and returns the rest. -/
abbrev Reader (α : Type) := List UInt8 → Except JsonFault (α × List UInt8)

/-! ## Blanks, words and marks -/

def isBlank (b : UInt8) : Bool :=
  b == ' '.toUInt8 || b == '\n'.toUInt8 || b == '\t'.toUInt8 || b == '\r'.toUInt8

def skipBlanks (bytes : List UInt8) : List UInt8 := bytes.dropWhile isBlank

/-- Reads the rest of a word. -/
def word {α : Type} (result : α) : List Char → Reader α
  | [], bytes => .ok (result, bytes)
  | _ :: _, [] => .error .truncated
  | c :: cs, b :: bytes => if b = c.toUInt8 then word result cs bytes else .error .malformed

/-- Skips blanks and one mark. -/
def mark (c : Char) : Reader Unit := fun bytes =>
  match skipBlanks bytes with
  | [] => .error .truncated
  | b :: rest => if b = c.toUInt8 then .ok ((), rest) else .error .malformed

/-! ## Strings -/

/-- The byte that an escape letter stands for. -/
def escapeLetter? (b : UInt8) : Option UInt8 :=
  if b = '"'.toUInt8 || b = '\\'.toUInt8 || b = '/'.toUInt8 then some b
  else if b = 'b'.toUInt8 then some 0x08
  else if b = 'f'.toUInt8 then some 0x0C
  else if b = 'n'.toUInt8 then some 0x0A
  else if b = 'r'.toUInt8 then some 0x0D
  else if b = 't'.toUInt8 then some 0x09
  else none

/-- The value of a hexadecimal digit. -/
def hexDigit? (b : UInt8) : Option Nat :=
  let n := b.toNat
  if 0x30 ≤ n && n ≤ 0x39 then some (n - 0x30)
  else if 0x41 ≤ n && n ≤ 0x46 then some (n - 0x37)
  else if 0x61 ≤ n && n ≤ 0x66 then some (n - 0x57)
  else none

/-- The value of four hexadecimal digits. -/
def hexUnit (a b c d : UInt8) : Except JsonFault Nat :=
  match hexDigit? a, hexDigit? b, hexDigit? c, hexDigit? d with
  | some w, some x, some y, some z => .ok (((w * 16 + x) * 16 + y) * 16 + z)
  | _, _, _, _ => .error .malformed

/-- The value of the four hexadecimal digits at the front of a text. -/
def leadingUnit : List UInt8 → Except JsonFault Nat
  | h₁ :: h₂ :: h₃ :: h₄ :: _ => hexUnit h₁ h₂ h₃ h₄
  | _ => .error .truncated

/-- The character of a leading and a trailing surrogate. -/
def surrogatePair (leading trailing : Nat) : Char :=
  Char.ofNat (0x10000 + (leading - 0xD800) * 0x400 + (trailing - 0xDC00))

/-- The character of the digits behind an escape mark, with the number of bytes behind the
    backslash. Surrogates must come in pairs. -/
def unicodeEscape (bytes : List UInt8) : Except JsonFault (Char × Nat) := do
  let unit ← leadingUnit bytes
  -- a trailing surrogate cannot come first, a leading one needs one behind it
  if 0xDC00 ≤ unit && unit < 0xE000 then .error .malformed
  else if 0xD800 ≤ unit && unit < 0xDC00 then
    match bytes.drop 4 with
    | [] => .error .truncated
    | s :: rest =>
      if s ≠ '\\'.toUInt8 then .error .malformed
      else match rest with
        | [] => .error .truncated
        | u :: digits =>
          if u ≠ 'u'.toUInt8 then .error .malformed
          else do
            let trailing ← leadingUnit digits
            if 0xDC00 ≤ trailing && trailing < 0xE000 then
              return (surrogatePair unit trailing, 11)
            else .error .malformed
  else return (Char.ofNat unit, 5)

/-- The bytes that an escape stands for, with the number of its bytes behind the backslash. -/
def escape : List UInt8 → Except JsonFault (List UInt8 × Nat)
  | [] => .error .truncated
  | e :: rest =>
    match escapeLetter? e with
    | some byte => .ok ([byte], 1)
    | none =>
      if e = 'u'.toUInt8 then do
        let (c, length) ← unicodeEscape rest
        return (Utf8.encodeChar c, length)
      else .error .malformed

/-- The bytes of a string up to its closing quote, escapes resolved. `before` holds the bytes
    already read, the last one first, and so many bytes are passed over as belong to an escape that
    has been resolved. -/
def stringBytes (before : List UInt8) : Nat → Reader (List UInt8)
  | _, [] => .error .truncated
  | resolved + 1, _ :: rest => stringBytes before resolved rest
  | 0, b :: rest =>
    if b = '"'.toUInt8 then .ok (before.reverse, rest)
    else if b = '\\'.toUInt8 then do
      let (content, length) ← escape rest
      stringBytes (content.reverse ++ before) length rest
    else if b.toNat < 0x20 then .error .malformed
    else stringBytes (b :: before) 0 rest

/-- Reads a string behind its opening quote. -/
def stringBody : Reader String := fun bytes => do
  let (content, rest) ← stringBytes [] 0 bytes
  match Utf8.decode content with
  | .ok text => return (text, rest)
  | .error _ => throw .malformed

/-- Skips a string behind its opening quote. Surrogates need not come in pairs. -/
def skipString : List UInt8 → Except JsonFault (List UInt8)
  | [] => .error .truncated
  | b :: rest =>
    if b = '"'.toUInt8 then .ok rest
    else if b = '\\'.toUInt8 then
      match rest with
      | [] => .error .truncated
      | e :: rest₁ =>
        if (escapeLetter? e).isSome then skipString rest₁
        else if e = 'u'.toUInt8 then
          match rest₁ with
          | h₁ :: h₂ :: h₃ :: h₄ :: rest₂ => do
            let _ ← hexUnit h₁ h₂ h₃ h₄
            skipString rest₂
          | _ => .error .truncated
        else .error .malformed
    else if b.toNat < 0x20 then .error .malformed
    else skipString rest

/-! ## Numbers -/

def isDigit (b : UInt8) : Bool := 0x30 ≤ b.toNat && b.toNat ≤ 0x39

def digitValue (b : UInt8) : Nat := b.toNat - 0x30

def isExponentMark (b : UInt8) : Bool := b == 'e'.toUInt8 || b == 'E'.toUInt8

/-- The greatest significand that is kept exactly. -/
def significandLimit : Nat := 2 ^ 64 - 1

/-- Divides by a power of ten, in strides of at most `10 ^ 308`. -/
def divideByPower (x : Binary64) (exponent : Nat) : Binary64 :=
  if exponent ≤ 308 then x.div (.ofInt (10 ^ exponent))
  else if x.isZero then x
  else divideByPower (x.div (.ofInt (10 ^ 308))) (exponent - 308)
termination_by exponent

/-- The number of a significand and a power of ten, rounded once for each of the two steps. Numbers
    beyond the largest one are refused. -/
def scaled (negative : Bool) (significand : Nat) (exponent : Int) : Except JsonFault Json := do
  let x := Binary64.ofInt significand
  let y ← match exponent with
    | .negSucc e => pure (divideByPower x (e + 1))
    | .ofNat e =>
      if x.isZero then pure x
      else if 308 < e then throw .malformed
      else
        let y := x.mul (.ofInt (10 ^ e))
        if y.isInfinite then throw .malformed else pure y
  return .number (if negative then y.neg else y)

/-- An optional sign in front of an exponent, `true` for minus, and what follows it. -/
def exponentSign : List UInt8 → Bool × List UInt8
  | b :: rest =>
    if b = '+'.toUInt8 then (false, rest)
    else if b = '-'.toUInt8 then (true, rest)
    else (false, b :: rest)
  | [] => (false, [])

/-- Reads an exponent behind its mark and completes the number. -/
def exponentPart (negative : Bool) (significand : Nat) (exponent : Int) (bytes : List UInt8) :
    Except JsonFault (Json × List UInt8) :=
  let (down, digits) := exponentSign bytes
  match digits with
  | [] => .error .truncated
  | b :: _ =>
    if isDigit b then
      let n := (digits.takeWhile isDigit).foldl (fun n b => 10 * n + digitValue b) 0
      let rest := digits.dropWhile isDigit
      -- an exponent that large leaves nothing but zero, or is refused
      if 2 ^ 31 ≤ n then
        if significand ≠ 0 && !down then .error .malformed
        else .ok (.number (.ofMagnitude negative 0), rest)
      else do
        let number ← scaled negative significand (if down then exponent - n else exponent + n)
        return (number, rest)
    else .error .malformed

/-- An exponent if there is one, and the end of the number otherwise. -/
def exponentIfAny (negative : Bool) (significand : Nat) (exponent : Int) : Reader Json
  | b :: rest =>
    if isExponentMark b then exponentPart negative significand exponent rest
    else do return (← scaled negative significand exponent, b :: rest)
  | [] => do return (← scaled negative significand exponent, [])

/-- Takes digits behind the point into the significand while it stays within its limit, and counts
    them. All digits after those are passed over. -/
def fractionDigits (significand count : Nat) : List UInt8 → Nat × Nat × List UInt8
  | [] => (significand, count, [])
  | b :: rest =>
    if isDigit b then
      let next := 10 * significand + digitValue b
      -- digits that no longer fit are too small to be kept
      if significandLimit < next then (significand, count, rest.dropWhile isDigit)
      else fractionDigits next (count + 1) rest
    else (significand, count, b :: rest)

/-- Reads the digits behind the point, at least one, and completes the number. -/
def fractionPart (negative : Bool) (significand : Nat) (exponent : Int) : Reader Json
  | [] => .error .truncated
  | b :: tail =>
    if isDigit b then
      let (digits, count, rest) := fractionDigits significand 0 (b :: tail)
      exponentIfAny negative digits (exponent - count) rest
    else .error .malformed

/-- A whole number that ends here. Negative zero and numbers below 64 bits are binary64. -/
def wholeNumber (negative : Bool) (significand : Nat) : Json :=
  if !negative then .int significand
  else if significand = 0 || 2 ^ 63 < significand then .number (Binary64.ofInt significand).neg
  else .int (-(significand : Int))

/-- Completes a number behind the digits of its whole part. -/
def afterWhole (negative : Bool) (significand : Nat) : Reader Json := fun bytes =>
  match bytes with
  | b :: rest =>
    if b = '.'.toUInt8 then fractionPart negative significand 0 rest
    else if isExponentMark b then exponentPart negative significand 0 rest
    else .ok (wholeNumber negative significand, bytes)
  | [] => .ok (wholeNumber negative significand, [])

/-- Completes a number whose whole part has `more` digits beyond its significand. -/
def afterLongWhole (negative : Bool) (significand more : Nat) : Reader Json := fun bytes =>
  match bytes with
  | b :: rest =>
    if b = '.'.toUInt8 then fractionPart negative significand more rest
    else exponentIfAny negative significand more bytes
  | [] => exponentIfAny negative significand more []

/-- Takes digits of the whole part into the significand while it stays within its limit. -/
def wholeDigits (negative : Bool) (significand : Nat) : Reader Json
  | [] => afterWhole negative significand []
  | b :: rest =>
    if isDigit b then
      let next := 10 * significand + digitValue b
      if significandLimit < next then
        -- from here on digits count as powers of ten only
        let more := rest.takeWhile isDigit
        afterLongWhole negative significand (more.length + 1) (rest.dropWhile isDigit)
      else wholeDigits negative next rest
    else afterWhole negative significand (b :: rest)

/-- Reads a number behind its sign. The whole part has no superfluous zero. -/
def numeral (negative : Bool) : Reader Json
  | [] => .error .truncated
  | b :: rest =>
    if !isDigit b then .error .malformed
    else if b = '0'.toUInt8 then
      if rest.head?.any isDigit then .error .malformed else afterWhole negative 0 rest
    else wholeDigits negative (digitValue b) rest

/-- Skips a number behind its sign. A number that stops short is malformed, also at the end. -/
def skipNumber (bytes : List UInt8) : Except JsonFault (List UInt8) := do
  let digits (bytes : List UInt8) : Except JsonFault (List UInt8) :=
    if bytes.head?.any isDigit then .ok (bytes.dropWhile isDigit) else .error .malformed
  let exponent (bytes : List UInt8) : Except JsonFault (List UInt8) :=
    match bytes with
    | b :: rest =>
      if isExponentMark b then
        if rest.head?.any (fun s => s == '+'.toUInt8 || s == '-'.toUInt8) then digits rest.tail
        else digits rest
      else .ok bytes
    | [] => .ok []
  let rest ← match bytes with
    | b :: tail =>
      if b = '0'.toUInt8 then
        if tail.head?.any isDigit then throw .malformed else pure tail
      else digits bytes
    | [] => throw .malformed
  match rest with
  | b :: tail =>
    if b = '.'.toUInt8 then do exponent (← digits tail) else exponent rest
  | [] => return []

/-! ## Separators -/

/-- Where the next item of an array starts, or nothing at the closing bracket. -/
def nextItem? (first : Bool) (bytes : List UInt8) : Except JsonFault (Option (List UInt8)) :=
  match skipBlanks bytes with
  | [] => .error .truncated
  | b :: rest =>
    if b = ']'.toUInt8 then .ok none
    else if first then .ok (some (b :: rest))
    else if b = ','.toUInt8 then
      match skipBlanks rest with
      | [] => .error .truncated
      | c :: rest₁ => if c = ']'.toUInt8 then .error .malformed else .ok (some (c :: rest₁))
    else .error .malformed

/-- What follows the opening quote of the next name in an object, or nothing at the closing
    brace. -/
def nextName? (first : Bool) (bytes : List UInt8) : Except JsonFault (Option (List UInt8)) :=
  match skipBlanks bytes with
  | [] => .error .truncated
  | b :: rest =>
    if b = '\x7d'.toUInt8 then .ok none
    else if first then
      if b = '"'.toUInt8 then .ok (some rest) else .error .malformed
    else if b = ','.toUInt8 then
      match skipBlanks rest with
      | [] => .error .truncated
      | c :: rest₁ => if c = '"'.toUInt8 then .ok (some rest₁) else .error .malformed
    else .error .malformed

end Json

end RowFlow
