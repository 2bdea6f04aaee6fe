import RowFlow.Text.Blank
import RowFlow.Text.CaseContext
import RowFlow.Text.CaseMapping

/-!
# Upper and Lower Case

Case conversion of whole texts. A character may become several, and a capital sigma becomes a final
sigma at the end of a word, so conversion works on lists of characters.
-/

namespace RowFlow

namespace Text

/-! ## Single characters -/

/-- The image of a code point under runs `(first, last, step, image)`. -/
def runImage? (runs : List (Nat × Nat × Nat × Nat)) (code : Nat) : Option Nat :=
  runs.findSome? fun (first, last, step, image) =>
    if first ≤ code && code ≤ last && (code - first) % step == 0 then some (image + (code - first))
    else none

/-- The characters that one character is mapped to. -/
def mapCase (runs : List (Nat × Nat × Nat × Nat)) (sequences : List (Nat × List Nat)) (c : Char) :
    List Char :=
  match sequences.lookup c.toNat, runImage? runs c.toNat with
  | some images, _ => images.map Char.ofNat
  | none, some image => [Char.ofNat image]
  | none, none => [c]

def upperChar (c : Char) : List Char :=
  if c.toNat < 0x80 then [c.toUpper] else mapCase upperRuns upperSequences c

def lowerChar (c : Char) : List Char :=
  if c.toNat < 0x80 then [c.toLower] else mapCase lowerRuns lowerSequences c

/-! ## Texts -/

/-- Whether the first character that counts for case contexts is a letter with case. -/
def nextIsCased (chars : List Char) : Bool :=
  match chars.dropWhile fun c => inRanges caseIgnorableRanges c.toNat with
  | c :: _ => inRanges casedRanges c.toNat
  | [] => false

/-- The lower case of a text. `before` holds the characters already passed, the last one first. A
    capital sigma after a letter and before none is final. -/
def lowerFrom (before : List Char) : List Char → List Char
  | [] => []
  | c :: rest =>
    let lowered :=
      if c = 'Σ' then [if nextIsCased before && !nextIsCased rest then 'ς' else 'σ']
      else lowerChar c
    lowered ++ lowerFrom (c :: before) rest

def upper (text : String) : String := String.ofList (text.toList.flatMap upperChar)

def lower (text : String) : String := String.ofList (lowerFrom [] text.toList)

end Text

end RowFlow
