import RowFlow.Csv.Writer
import RowFlow.Error
import RowFlow.Text.Utf8

/-!
# CSV Records

The records of a CSV file. Line feeds and carriage returns end records, and empty lines are none. A
field that starts with a quote runs to the next single quote; what follows that quote belongs to the
field as it stands.
-/

namespace RowFlow

namespace Csv

/-! ## Positions -/

/-- A place in a file. -/
structure Position where
  line : Nat
  byte : Nat
  deriving DecidableEq, Inhabited

namespace Position

/-- The start of a file. -/
def origin : Position := ⟨1, 0⟩

/-- The place behind a byte. -/
def after (position : Position) (b : UInt8) : Position :=
  ⟨if b = lineFeed then position.line + 1 else position.line, position.byte + 1⟩

end Position

/-! ## Records under way -/

/-- Where in a record the reader is. -/
inductive Place where
  /-- in front of a record -/
  | outside
  /-- in front of a field -/
  | fieldStart
  | plain
  | quoted
  /-- behind a quote in a quoted field: it ends the quotes, or is the first of two -/
  | afterQuote
  deriving DecidableEq, Inhabited

/-- A record of which some bytes have been read. -/
structure Draft where
  place : Place
  /-- complete fields -/
  fields : List (List UInt8)
  /-- the field that is being read -/
  field : List UInt8
  deriving DecidableEq, Inhabited

namespace Draft

/-- In front of a record. -/
def empty : Draft := ⟨.outside, [], []⟩

/-- All fields, the current one included. -/
def finish (draft : Draft) : List (List UInt8) := draft.fields ++ [draft.field]

/-- Goes on in another place. -/
def enter (draft : Draft) (place : Place) : Draft := { draft with place }

/-- Adds a byte to the current field. -/
def add (draft : Draft) (place : Place) (b : UInt8) : Draft :=
  { draft with place, field := draft.field ++ [b] }

/-- Completes the current field. -/
def endField (draft : Draft) : Draft := ⟨.fieldStart, draft.finish, []⟩

/-- Reads a byte of a field that is not in quotes, or no longer. -/
def plainByte (delimiter b : UInt8) (draft : Draft) : Draft ⊕ List (List UInt8) :=
  if b = delimiter then .inl draft.endField
  else if isLineEnd b then .inr draft.finish
  else .inl (draft.add .plain b)

/-- Reads a byte. Gives the fields of the record if the byte ends it. -/
def step (delimiter b : UInt8) (draft : Draft) : Draft ⊕ List (List UInt8) :=
  match draft.place with
  | .outside =>
    -- an empty line is no record
    if isLineEnd b then .inl draft
    else if b = quoteByte then .inl (draft.enter .quoted)
    else draft.plainByte delimiter b
  | .fieldStart =>
    if b = quoteByte then .inl (draft.enter .quoted) else draft.plainByte delimiter b
  | .plain => draft.plainByte delimiter b
  | .quoted => .inl (if b = quoteByte then draft.enter .afterQuote else draft.add .quoted b)
  | .afterQuote =>
    -- a doubled quote stands for itself
    if b = quoteByte then .inl (draft.add .quoted b) else draft.plainByte delimiter b

end Draft

/-! ## Records -/

/-- A record: its fields as bytes, and where the one before it ended. -/
structure Record where
  start : Position
  fields : List (List UInt8)
  deriving DecidableEq, Inhabited

/-- The records of the rest of a file. A record that the end of the file cuts off counts. -/
def scan (delimiter : UInt8) (draft : Draft) (start here : Position) : List UInt8 → List Record
  | [] => if draft.place = .outside then [] else [⟨start, draft.finish⟩]
  | b :: rest =>
    match draft.step delimiter b with
    | .inl draft => scan delimiter draft start (here.after b) rest
    | .inr fields =>
      ⟨start, fields⟩ :: scan delimiter .empty (here.after b) (here.after b) rest

/-- The records of a file. A byte order mark at its start is passed over. -/
def records (delimiter : UInt8) (bytes : List UInt8) : List Record :=
  match bytes with
  -- the mark is counted in positions, though it belongs to no field
  | 0xEF :: 0xBB :: 0xBF :: rest =>
    scan delimiter .empty .origin { Position.origin with byte := 3 } rest
  | _ => scan delimiter .empty .origin .origin bytes

/-! ## Texts -/

/-- The fields of a record as texts. The first one that is not text, with the length of its valid
    start, is the error. -/
def decodeFields (number : Nat) (start : Position) (field : Nat) : List (List UInt8) →
    Except Error (List String)
  | [] => .ok []
  | bytes :: rest =>
    match Utf8.decode bytes with
    | .error valid => .error (.source (.notText number start.line start.byte field valid))
    | .ok text => do return text :: (← decodeFields number start (field + 1) rest)

/-- The records of a file as texts. -/
def textRecords (delimiter : UInt8) (bytes : List UInt8) : List (Except Error (List String)) :=
  (records delimiter bytes).zipIdx.map fun (record, number) =>
    decodeFields number record.start 0 record.fields

end Csv

end RowFlow
