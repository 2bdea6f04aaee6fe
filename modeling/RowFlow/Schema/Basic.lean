import RowFlow.Text.Outline
import RowFlow.Text.Quoted

/-!
# Schemas

The columns of a table: named, typed fields in order. A `Column` refers to one of them by name or by
position.
-/

namespace RowFlow

/-! ## Fields -/

/-- The type that a column declares. -/
inductive ColumnType where
  | int64
  | float64
  | bool
  | utf8
  deriving DecidableEq, Inhabited

/-- The name of a column type. -/
def ColumnType.name : ColumnType → String
  | .int64 => "Int64"
  | .float64 => "Float64"
  | .bool => "Bool"
  | .utf8 => "Utf8"

/-- A column of a table. -/
structure Field where
  name : String
  type : ColumnType
  deriving DecidableEq, Inhabited

def Field.outline (field : Field) : String :=
  Outline.record "Field" [("name", Text.quoted field.name), ("data_type", field.type.name)]

/-! ## References to columns -/

/-- A reference to a column. -/
inductive Column where
  | name (label : String)
  | index (position : Nat)
  deriving DecidableEq, Inhabited

/-- A reference as messages show it. -/
def Column.text : Column → String
  | .name label => "'" ++ label ++ "'"
  | .index position => "#" ++ toString position

def Column.outline : Column → String
  | .name label => Outline.call "Name" [Text.quoted label]
  | .index position => Outline.call "Index" [toString position]

/-! ## Schemas -/

/-- The fields of a table in order. -/
structure Schema where
  fields : List Field
  deriving DecidableEq, Inhabited

namespace Schema

/-- The number of columns. -/
def width (schema : Schema) : Nat := schema.fields.length

def names (schema : Schema) : List String := schema.fields.map Field.name

/-- The position of the first field with a name. -/
def indexOf? (schema : Schema) (name : String) : Option Nat :=
  schema.fields.findIdx? (·.name == name)

def outline (schema : Schema) : String :=
  Outline.record "Schema" [("fields", Outline.list (schema.fields.map Field.outline))]

end Schema

/-! ## Picking by position -/

/-- The members of a list at the given positions, in the order of the positions. Positions outside
    the list are passed over. -/
def pick {α : Type} (positions : List Nat) (items : List α) : List α :=
  positions.filterMap (items[·]?)

/-- Picking at positions that are all there looks each of them up. -/
theorem getElem?_pick {α : Type} {positions : List Nat} {items : List α}
    (h : ∀ q ∈ positions, q < items.length) (p : Nat) :
    (pick positions items)[p]? = positions[p]?.bind (items[·]?) := by
  induction positions generalizing p with
  | nil => rfl
  | cons position rest ih =>
    obtain ⟨hposition, hrest⟩ := List.forall_mem_cons.1 h
    have ih := ih hrest
    simp only [pick, List.filterMap_cons, List.getElem?_eq_getElem hposition] at ih ⊢
    cases p with
    | zero => simp [hposition]
    | succ p => simpa using ih p

theorem pick_range {α : Type} (items : List α) : pick (List.range items.length) items = items := by
  apply List.ext_getElem?
  intro p
  rw [getElem?_pick fun q hq => List.mem_range.1 hq]
  by_cases hp : p < items.length
  · simp [hp]
  · simp [hp]

end RowFlow
