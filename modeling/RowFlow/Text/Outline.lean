/-!
# Outlines

The shapes in which values and definitions are outlined for a reader: a name with fields in braces,
a name with arguments in parentheses, lists in brackets. Two dots stand for parts that are left out.
-/

namespace RowFlow

namespace Outline

/-- Parts separated by commas. -/
def commas (parts : List String) : String := ", ".intercalate parts

def list (items : List String) : String := "[" ++ commas items ++ "]"

/-- A name with arguments. -/
def call (name : String) (arguments : List String) : String :=
  name ++ "(" ++ commas arguments ++ ")"

def option : Option String → String
  | none => "None"
  | some text => call "Some" [text]

def bool (b : Bool) : String := if b then "true" else "false"

private def inBraces (name : String) (parts : List String) : String :=
  name ++ " \x7b " ++ commas parts ++ " \x7d"

private def field (part : String × String) : String := part.1 ++ ": " ++ part.2

/-- A name with its fields. -/
def record (name : String) (fields : List (String × String)) : String :=
  inBraces name (fields.map field)

/-- A name with some of its fields. -/
def openRecord (name : String) (fields : List (String × String)) : String :=
  inBraces name (fields.map field ++ [".."])

end Outline

end RowFlow
