import RowFlow.Text.Blank
import RowFlow.Text.Unseen

/-!
# Quoted Texts

Texts in double quotes, as outlines and messages show them. Quotes, backslashes and the usual
control characters are escaped by a letter, unseen characters by their number in hexadecimal.
-/

namespace RowFlow

namespace Text

/-- A code point in braces, in hexadecimal without leading zeros. -/
def byNumber (c : Char) : List Char :=
  ['\\', 'u', '\x7b'] ++ Nat.toDigits 16 c.toNat ++ ['\x7d']

/-- What stands for a character inside a quoted text. -/
def quoteChar (c : Char) : List Char :=
  match c with
  | '\x00' => ['\\', '0']
  | '\t' => ['\\', 't']
  | '\n' => ['\\', 'n']
  | '\r' => ['\\', 'r']
  | '"' => ['\\', '"']
  | '\\' => ['\\', '\\']
  | _ =>
    if 0x20 ≤ c.toNat && c.toNat < 0x7F then [c]
    else if inRanges unseenRanges c.toNat then byNumber c
    else [c]

/-- The text in double quotes. -/
def quoted (text : String) : String :=
  String.ofList ('"' :: text.toList.flatMap quoteChar ++ ['"'])

end Text

end RowFlow
