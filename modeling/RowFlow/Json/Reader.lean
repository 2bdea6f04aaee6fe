import RowFlow.Json.Scanner

/-!
# Reading JSON

JSON texts as documents: a single one, or several one after another. Documents nest at most 127
deep.
-/

namespace RowFlow

namespace Json

/-! ## Documents -/

/-- Reads the items of an array behind its opening bracket, at most `fuel` of them. -/
def items (item : Reader Json) : Nat → Bool → Reader (List Json)
  | 0, _, _ => .error .malformed
  | fuel + 1, first, bytes => do
    match ← nextItem? first bytes with
    | none => return ([], (skipBlanks bytes).tail)
    | some start =>
      let (value, rest) ← item start
      let (values, rest) ← items item fuel false rest
      return (value :: values, rest)

/-- Reads the members of an object behind its opening brace, at most `fuel` of them. -/
def members (item : Reader Json) : Nat → Bool → Reader (List (String × Json))
  | 0, _, _ => .error .malformed
  | fuel + 1, first, bytes => do
    match ← nextName? first bytes with
    | none => return ([], (skipBlanks bytes).tail)
    | some start =>
      let (name, rest) ← stringBody start
      let (_, rest) ← mark ':' rest
      let (value, rest) ← item rest
      let (others, rest) ← members item fuel false rest
      return ((name, value) :: others, rest)

/-- Reads a document whose arrays and objects hold what `inner` reads, if they may nest at all. -/
def valueWith (inner : Option (Reader Json)) : Reader Json := fun bytes =>
  match skipBlanks bytes with
  | [] => .error .truncated
  | b :: rest =>
    if b = 'n'.toUInt8 then word .null ['u', 'l', 'l'] rest
    else if b = 't'.toUInt8 then word (.bool true) ['r', 'u', 'e'] rest
    else if b = 'f'.toUInt8 then word (.bool false) ['a', 'l', 's', 'e'] rest
    else if b = '-'.toUInt8 then numeral true rest
    else if isDigit b then numeral false (b :: rest)
    else if b = '"'.toUInt8 then do
      let (text, rest) ← stringBody rest
      return (.string text, rest)
    else if b = '['.toUInt8 then
      match inner with
      | none => .error .malformed
      | some item => do
        let (values, rest) ← items item (rest.length + 1) true rest
        return (.array values, rest)
    else if b = '\x7b'.toUInt8 then
      match inner with
      | none => .error .malformed
      | some item => do
        let (pairs, rest) ← members item (rest.length + 1) true rest
        return (ofMembers pairs, rest)
    else .error .malformed

/-- Reads a document that nests at most `depth` deep. -/
def value : Nat → Reader Json
  | 0 => valueWith none
  | depth + 1 => valueWith (some (value depth))

/-- How deep documents may nest. -/
def depthLimit : Nat := 127

/-! ## Texts of documents -/

/-- Whether a document without closing mark may end before a byte. -/
def mayFollow (b : UInt8) : Bool :=
  isBlank b || ['"', '[', ']', '\x7b', '\x7d', ',', ':'].any fun c => b == c.toUInt8

/-- Reads documents one after another until the text ends or one of them fails, at most `fuel` of
    them. -/
def documents : Nat → List UInt8 → List (Except JsonFault Json)
  | 0, _ => []
  | fuel + 1, bytes =>
    match skipBlanks bytes with
    | [] => []
    | b :: rest =>
      match value depthLimit (b :: rest) with
      | .error fault => [.error fault]
      | .ok (document, after) =>
        let closed := b == '['.toUInt8 || b == '"'.toUInt8 || b == '\x7b'.toUInt8
        if closed || after.head?.all mayFollow then .ok document :: documents fuel after
        else [.error .malformed]

/-- Reads a text that is one document. -/
def ofBytes (bytes : List UInt8) : Except JsonFault Json := do
  let (document, rest) ← value depthLimit bytes
  if (skipBlanks rest).isEmpty then return document else throw .malformed

/-- Blanks before the first document, among which form feeds count. -/
def isLeadingBlank (b : UInt8) : Bool := isBlank b || b == 0x0C

/-- The documents of a text. A text that starts with an array is read whole and stands for the items
    of the array; other texts are read as they are asked for. -/
def stream (bytes : List UInt8) : Except JsonFault (List (Except JsonFault Json)) :=
  match bytes.dropWhile isLeadingBlank with
  | [] => .ok []
  | b :: rest =>
    if b = '['.toUInt8 then do
      match ← ofBytes (b :: rest) with
      | .array values => return values.map .ok
      | other => return [.ok other]
    else .ok (documents (rest.length + 1) (b :: rest))

end Json

end RowFlow
