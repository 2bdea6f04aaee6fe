import RowFlow.Number.Layout

/-!
# JSON Values

JSON documents as values, and their compact text. Whole numbers that fit 64 bits, with or without
sign, stay integers; all other numbers are binary64.
-/

namespace RowFlow

/-- A JSON document. -/
inductive Json where
  | null
  | bool (b : Bool)
  | int (n : Int)
  | number (x : Binary64)
  | string (text : String)
  | array (items : List Json)
  /-- members in the order of their names, which are distinct -/
  | object (members : List (String × Json))
  deriving Inhabited

namespace Json

/-! ## Objects -/

/-- Sets a member, in the order of names. A member that is there already is replaced. -/
def insertMember (name : String) (value : Json) : List (String × Json) → List (String × Json)
  | [] => [(name, value)]
  | (n, v) :: rest =>
    match compare name n with
    | .lt => (name, value) :: (n, v) :: rest
    | .eq => (name, value) :: rest
    | .gt => (n, v) :: insertMember name value rest

/-- The object of members in the order of a text; of members with one name the last one stays. -/
def ofMembers (members : List (String × Json)) : Json :=
  .object (members.foldl (fun acc (name, value) => insertMember name value acc) [])

/-- The members of an object. -/
def members? : Json → Option (List (String × Json))
  | .object members => some members
  | _ => none

/-! ## Compact text -/

/-- What stands for a character inside a JSON string. -/
def escapeChar (c : Char) : List Char :=
  match c with
  | '"' => ['\\', '"']
  | '\\' => ['\\', '\\']
  | '\x08' => ['\\', 'b']
  | '\x0c' => ['\\', 'f']
  | '\n' => ['\\', 'n']
  | '\r' => ['\\', 'r']
  | '\t' => ['\\', 't']
  | _ =>
    if c.toNat < 0x20 then
      ['\\', 'u', '0', '0', Nat.digitChar (c.toNat / 16), Nat.digitChar (c.toNat % 16)]
    else [c]

/-- A text as a JSON string. -/
def stringText (text : String) : String :=
  String.ofList ('"' :: text.toList.flatMap escapeChar ++ ['"'])

/-- Parts separated by commas between two brackets. -/
def between (opening : String) (parts : List String) (closing : String) : String :=
  opening ++ ",".intercalate parts ++ closing

mutual

/-- The text of a document without blanks. -/
def text : Json → String
  | .null => "null"
  | .bool b => if b then "true" else "false"
  | .int n => toString n
  | .number x => Layout.json.write x
  | .string s => stringText s
  | .array items => between "[" (texts items) "]"
  | .object members => between "\x7b" (memberTexts members) "\x7d"

def texts : List Json → List String
  | [] => []
  | item :: items => text item :: texts items

def memberTexts : List (String × Json) → List String
  | [] => []
  | (name, value) :: rest => (stringText name ++ ":" ++ text value) :: memberTexts rest

end

end Json

end RowFlow
