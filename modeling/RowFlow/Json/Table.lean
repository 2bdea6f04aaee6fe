import RowFlow.Json.Reader
import RowFlow.Table.Basic

/-!
# Tables as JSON

The JSON text of a table and reading it back. A table is an object with a schema and rows, a value
an object that names its type, and null the word `Null`. The reader also takes objects as arrays of
their members in order, passes over unknown members, and fails at the first byte that breaks the
grammar or the shape.
-/

namespace RowFlow

namespace Json

/-! ## Writing -/

/-- A JSON object with one member. -/
def tagged (name text : String) : String :=
  between "\x7b" [stringText name ++ ":" ++ text] "\x7d"

mutual

/-- The text of a value, named by its type. -/
def valueText : Value → String
  | .null => stringText "Null"
  | .int64 n => tagged "Int64" (toString n.toInt)
  | .float64 x => tagged "Float64" (Layout.json.write x)
  | .bool b => tagged "Bool" (if b then "true" else "false")
  | .utf8 text => tagged "Utf8" (stringText text)
  | .tuple parts => tagged "Tuple" (between "[" (valueTexts parts) "]")

def valueTexts : List Value → List String
  | [] => []
  | v :: vs => valueText v :: valueTexts vs

end

def fieldText (field : Field) : String :=
  between "\x7b"
    ["\"name\":" ++ stringText field.name, "\"data_type\":" ++ stringText field.type.name] "\x7d"

/-- The text of a table. -/
def tableText (table : Table) : String :=
  between "\x7b"
    ["\"schema\":" ++ tagged "fields" (between "[" (table.schema.fields.map fieldText) "]"),
     "\"rows\":" ++ between "[" (table.rows.map fun row => between "[" (valueTexts row) "]") "]"]
    "\x7d"

/-! ## Reading scalars -/

/-- Fails because a value has another shape than expected. Scalars are read first, so that a break
    of the grammar inside them counts. -/
def mismatch {α : Type} : Reader α := fun bytes =>
  match skipBlanks bytes with
  | [] => .error .truncated
  | b :: rest =>
    if b = '['.toUInt8 || b = '\x7b'.toUInt8 then .error .mismatched
    else do
      let _ ← valueWith none (b :: rest)
      throw .mismatched

/-- Reads a value that starts with one of the given bytes. -/
def startingWith {α : Type} (accepts : UInt8 → Bool) (reader : Reader α) : Reader α := fun bytes =>
  match skipBlanks bytes with
  | [] => .error .truncated
  | b :: rest => if accepts b then reader (b :: rest) else mismatch (b :: rest)

def stringValue : Reader String :=
  startingWith (· == '"'.toUInt8) fun bytes => stringBody bytes.tail

def nullValue : Reader Unit :=
  startingWith (· == 'n'.toUInt8) fun bytes => word () ['u', 'l', 'l'] bytes.tail

def boolValue : Reader Bool :=
  startingWith (fun b => b == 't'.toUInt8 || b == 'f'.toUInt8) fun bytes =>
    if bytes.head? = some 't'.toUInt8 then word true ['r', 'u', 'e'] bytes.tail
    else word false ['a', 'l', 's', 'e'] bytes.tail

/-- Reads a number as what `convert` makes of it. -/
def numberValue {α : Type} (convert : Json → Option α) : Reader α :=
  startingWith (fun b => b == '-'.toUInt8 || isDigit b) fun bytes => do
    let (document, rest) ← valueWith none bytes
    match convert document with
    | some result => return (result, rest)
    | none => throw .mismatched

def int64Value : Reader Int64 := numberValue fun
  | .int n => Operator.fit? n
  | _ => none

def binary64Value : Reader Binary64 := numberValue fun
  | .int n => some (.ofInt n)
  | .number x => some x
  | _ => none

/-! ## Skipping -/

/-- What a skipping reader stands before. -/
private inductive Skipping where
  | value
  /-- the first item or name, or the end of a container -/
  | opened
  /-- the comma or the end after an item or member -/
  | after

/-- Skips a value of any depth. `inside` holds the open containers, the innermost one first, `true`
    for objects. -/
private def skipSteps : Nat → Skipping → List Bool → List UInt8 → Except JsonFault (List UInt8)
  | 0, _, _, _ => .error .malformed
  | fuel + 1, .value, inside, bytes =>
    match skipBlanks bytes with
    | [] => .error .truncated
    | b :: rest =>
      -- a container is entered, anything else is skipped as a whole
      if b = '['.toUInt8 then skipSteps fuel .opened (false :: inside) rest
      else if b = '\x7b'.toUInt8 then skipSteps fuel .opened (true :: inside) rest
      else do
        let rest ←
          if b = '"'.toUInt8 then skipString rest
          else if b = '-'.toUInt8 then skipNumber rest
          else if isDigit b then skipNumber (b :: rest)
          else Prod.snd <$> valueWith none (b :: rest)
        skipSteps fuel .after inside rest
  | _ + 1, .after, [], bytes => .ok bytes
  | _ + 1, .opened, [], bytes => .ok bytes
  | fuel + 1, place, isObject :: outer, bytes => do
    let closing := if isObject then '\x7d'.toUInt8 else ']'.toUInt8
    let rest ← match skipBlanks bytes, place with
      | [], _ => throw .truncated
      | b :: rest, .after =>
        if b = closing then return ← skipSteps fuel .after outer rest
        else if b = ','.toUInt8 then pure rest
        else throw .malformed
      | b :: rest, _ =>
        if b = closing then return ← skipSteps fuel .after outer rest else pure (b :: rest)
    if isObject then
      -- a member has its name in front of its value
      let (_, rest) ← mark '"' rest
      let rest ← skipString rest
      let (_, rest) ← mark ':' rest
      skipSteps fuel .value (isObject :: outer) rest
    else skipSteps fuel .value (isObject :: outer) rest

/-- Skips a value of any depth. -/
def skipValue : Reader Unit := fun bytes => do
  return ((), ← skipSteps (2 * bytes.length + 2) .value [] bytes)

/-! ## Reading containers -/

/-- Reads the closing bracket of an array that should end here. -/
def arrayEnd : Reader Unit := fun bytes =>
  match skipBlanks bytes with
  | [] => .error .truncated
  | b :: rest => if b = ']'.toUInt8 then .ok ((), rest) else .error .malformed

/-- Reads the items of an array up to its closing bracket, at most `fuel` of them. -/
def itemsOf {α : Type} (item : Reader α) : Nat → Bool → Reader (List α)
  | 0, _, _ => .error .malformed
  | fuel + 1, first, bytes => do
    match ← nextItem? first bytes with
    | none => return ([], (skipBlanks bytes).tail)
    | some start =>
      let (value, rest) ← item start
      let (values, rest) ← itemsOf item fuel false rest
      return (value :: values, rest)

/-- Reads an array of items. -/
def arrayOf {α : Type} (item : Reader α) : Reader (List α) :=
  startingWith (· == '['.toUInt8) fun bytes =>
    itemsOf item (bytes.length + 1) true bytes.tail

/-- A member of a record format: its name, whether it has been read, and how it is read. -/
structure Member (σ : Type) where
  name : String
  isRead : σ → Bool
  read : σ → Reader σ

/-- Reads members of an object up to its closing brace, at most `fuel` of them. Members of other
    names are skipped; none may be repeated. -/
def membersOf {σ : Type} (format : List (Member σ)) : Nat → Bool → σ → Reader σ
  | 0, _, _, _ => .error .malformed
  | fuel + 1, first, state, bytes => do
    match ← nextName? first bytes with
    | none => return (state, skipBlanks bytes)
    | some start =>
      let (name, rest) ← stringBody start
      match format.find? (·.name == name) with
      | none =>
        let (_, rest) ← mark ':' rest
        let (_, rest) ← skipValue rest
        membersOf format fuel false state rest
      | some member =>
        if member.isRead state then throw .mismatched
        let (_, rest) ← mark ':' rest
        let (state, rest) ← member.read state rest
        membersOf format fuel false state rest

/-- Reads all members of a format in order, as items of an array. -/
def inOrder {σ : Type} : List (Member σ) → Bool → σ → Reader σ
  | [], _, state, bytes => .ok (state, bytes)
  | member :: others, first, state, bytes => do
    match ← nextItem? first bytes with
    | none => throw .mismatched
    | some start =>
      let (state, rest) ← member.read state start
      inOrder others false state rest

/-- Reads a record, given as an object or as an array of its members in order. -/
def recordOf {σ α : Type} (format : List (Member σ)) (start : σ) (finish : σ → Option α) :
    Reader α :=
  startingWith (fun b => b == '\x7b'.toUInt8 || b == '['.toUInt8) fun bytes => do
    let complete (state : σ) : Except JsonFault α :=
      match finish state with
      | some result => .ok result
      | none => .error .mismatched
    if bytes.head? = some '['.toUInt8 then
      let (state, rest) ← inOrder format true start bytes.tail
      let result ← complete state
      let (_, rest) ← arrayEnd rest
      return (result, rest)
    else
      let (state, rest) ← membersOf format (bytes.length + 1) true start bytes.tail
      return (← complete state, rest.tail)

/-- Reads one of several named variants: its bare name, or an object that maps its name to what the
    variant holds. -/
def variantOf {α : Type} (nested : Bool) (bare : String → Option α)
    (holding : String → Option (Reader α)) : Reader α := fun bytes =>
  match skipBlanks bytes with
  | [] => .error .truncated
  | b :: rest =>
    if b = '"'.toUInt8 then do
      let (name, rest) ← stringBody rest
      match bare name with
      | some result => return (result, rest)
      | none => throw .mismatched
    else if b = '\x7b'.toUInt8 then do
      if !nested then throw .malformed
      let (_, rest) ← mark '"' rest
      let (name, rest) ← stringBody rest
      match holding name with
      | none => throw .mismatched
      | some reader =>
        let (_, rest) ← mark ':' rest
        let (result, rest) ← reader rest
        let (_, rest) ← mark '\x7d' rest
        return (result, rest)
    else .error .malformed

/-- A reader whose result is converted. -/
def mapReader {α β : Type} (f : α → β) (reader : Reader α) : Reader β := fun bytes => do
  let (result, rest) ← reader bytes
  return (f result, rest)

/-! ## Reading tables -/

/-- Reads a value. `nested` tells whether it may be an object, and `part` reads the parts of a tuple
    if those may nest. -/
def tableValueWith (nested : Bool) (part : Option (Reader Value)) : Reader Value :=
  variantOf nested
    (fun
      | "Null" => some .null
      | _ => none)
    (fun
      | "Null" => some (mapReader (fun _ => .null) nullValue)
      | "Int64" => some (mapReader .int64 int64Value)
      | "Float64" => some (mapReader .float64 binary64Value)
      | "Bool" => some (mapReader .bool boolValue)
      | "Utf8" => some (mapReader .utf8 stringValue)
      | "Tuple" => some (match part with
        | some reader => mapReader .tuple (arrayOf reader)
        | none => startingWith (· == '['.toUInt8) fun _ => .error .malformed)
      | _ => none)

/-- Reads a value that nests at most `depth` deep. -/
def tableValue : Nat → Reader Value
  | 0 => tableValueWith false none
  | 1 => tableValueWith true none
  | depth + 2 => tableValueWith true (some (tableValue depth))

/-- The column type of a name. -/
def columnType? : String → Option ColumnType
  | "Int64" => some .int64
  | "Float64" => some .float64
  | "Bool" => some .bool
  | "Utf8" => some .utf8
  | _ => none

def columnTypeValue : Reader ColumnType :=
  variantOf true columnType? fun name =>
    (columnType? name).map fun type => mapReader (fun _ => type) nullValue

/-- A column under way. -/
abbrev FieldDraft := Option String × Option ColumnType

def fieldFormat : List (Member FieldDraft) :=
  [⟨"name", fun s => s.1.isSome, fun s => mapReader (fun name => (some name, s.2)) stringValue⟩,
   ⟨"data_type", fun s => s.2.isSome, fun s =>
     mapReader (fun type => (s.1, some type)) columnTypeValue⟩]

def fieldValue : Reader Field :=
  recordOf fieldFormat (none, none) fun s => do return ⟨← s.1, ← s.2⟩

def schemaFormat : List (Member (Option (List Field))) :=
  [⟨"fields", Option.isSome, fun _ => mapReader some (arrayOf fieldValue)⟩]

def schemaValue : Reader Schema := recordOf schemaFormat none fun s => do return ⟨← s⟩

/-- A table under way. -/
abbrev TableDraft := Option Schema × Option (List (List Value))

/-- The format of a table. Its values stand three levels below it. -/
def tableFormat : List (Member TableDraft) :=
  [⟨"schema", fun s => s.1.isSome, fun s =>
     mapReader (fun schema => (some schema, s.2)) schemaValue⟩,
   ⟨"rows", fun s => s.2.isSome, fun s =>
     mapReader (fun rows => (s.1, some rows)) (arrayOf (arrayOf (tableValue (depthLimit - 3))))⟩]

def tableReader : Reader Table :=
  recordOf tableFormat (none, none) fun s => do return ⟨← s.1, ← s.2⟩

/-- The table of a JSON text. -/
def tableOfText (text : String) : Except JsonFault Table := do
  let (table, rest) ← tableReader (Utf8.encode text)
  if (skipBlanks rest).isEmpty then return table else throw .malformed

end Json

end RowFlow
