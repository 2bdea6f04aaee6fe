import RowFlow.Proofs.Expr.References
import RowFlow.Proofs.Step.Admission
import RowFlow.Proofs.Step.Rearranging

/-!
# Moved Columns

Columns that are moved stand together among the others, which stay in order
(`pick_moveOrder`). No column is lost or repeated, because a move opens only if no column
is moved twice (`Transform.exists_openOn_move_iff`). So fields and values are put in a new order of
all positions, and a selection of the old names puts both back (`Transform.openOn_select_names`).
-/

namespace RowFlow

/-! ## Picking in order -/

section
variable {α : Type} {positions : List Nat} {items : List α}

theorem mem_pick_iff {x : α} : x ∈ pick positions items ↔ ∃ p ∈ positions, items[p]? = some x :=
  List.mem_filterMap

/-- Where all positions are there, one item is picked for each of them. -/
theorem pick_eq_map (h : ∀ p ∈ positions, p < items.length) (default : α) :
    pick positions items = positions.map (items.getD · default) := by
  -- no lookup fails, so filtering them out does nothing
  rw [pick, ← List.filterMap_eq_map]
  refine List.filterMap_congr fun p hp => ?_
  rw [Function.comp_apply, List.getD_eq_getElem _ _ (h p hp), List.getElem?_eq_getElem (h p hp)]

theorem pick_append (front back : List Nat) (items : List α) :
    pick (front ++ back) items = pick front items ++ pick back items :=
  List.filterMap_append

theorem pick_take [Inhabited α] (h : ∀ p ∈ positions, p < items.length) (n : Nat) :
    pick (positions.take n) items = (pick positions items).take n := by
  rw [pick_eq_map h default, pick_eq_map (fun p hp => h p (List.mem_of_mem_take hp)) default,
    List.map_take]

theorem pick_drop [Inhabited α] (h : ∀ p ∈ positions, p < items.length) (n : Nat) :
    pick (positions.drop n) items = (pick positions items).drop n := by
  rw [pick_eq_map h default, pick_eq_map (fun p hp => h p (List.mem_of_mem_drop hp)) default,
    List.map_drop]

/-- An item of different ones is picked at its own position only. -/
theorem getElem_mem_pick_iff (hitems : items.Nodup) {p : Nat} (hp : p < items.length) :
    items[p] ∈ pick positions items ↔ p ∈ positions := by
  have hitem : items[p]? = some items[p] := List.getElem?_eq_getElem hp
  rw [mem_pick_iff]
  refine ⟨fun ⟨q, hq, hsame⟩ => ?_, fun hp => ⟨p, hp, hitem⟩⟩
  obtain ⟨hlt, -⟩ := List.getElem?_eq_some_iff.1 hsame
  rwa [← (List.getElem?_inj hlt hitems).1 (hsame.trans hitem.symm)]

theorem nodup_pick_iff (hitems : items.Nodup) (h : ∀ p ∈ positions, p < items.length) :
    (pick positions items).Nodup ↔ positions.Nodup := by
  -- an item is repeated just if its position is, since the items differ
  induction positions with
  | nil => simp [pick]
  | cons p rest ih =>
    obtain ⟨hp, hrest⟩ := List.forall_mem_cons.1 h
    rw [pick, List.filterMap_cons_some (List.getElem?_eq_getElem hp), ← pick, List.nodup_cons,
      List.nodup_cons, ih hrest, getElem_mem_pick_iff hitems hp]

theorem perm_pick (h : positions.Perm (List.range items.length)) :
    (pick positions items).Perm items := by
  have hpicked := h.filterMap (items[·]?)
  rwa [← pick, ← pick, pick_range] at hpicked

/-- Picking from what has been picked is picking from the positions. -/
theorem pick_pick (h : ∀ p ∈ positions, p < items.length) (again : List Nat) :
    pick again (pick positions items) = pick (pick again positions) items := by
  conv_rhs => rw [pick, pick, List.filterMap_filterMap]
  exact List.filterMap_congr fun p _ => getElem?_pick h p

end

/-- An order of all positions is undone by the place that each position has in it. -/
theorem pick_idxOf {order : List Nat} {n : Nat} (h : order.Perm (List.range n)) :
    pick ((List.range n).map (order.idxOf ·)) order = List.range n := by
  rw [pick, List.filterMap_map]
  refine (List.filterMap_congr fun p hp => ?_).trans List.filterMap_some
  exact List.getElem?_idxOf (h.mem_iff.2 hp)

theorem pick_idxOf_pick {α : Type} {order : List Nat} {items : List α}
    (h : order.Perm (List.range items.length)) :
    pick ((List.range items.length).map (order.idxOf ·)) (pick order items) = items := by
  have hwithin : ∀ p ∈ order, p < items.length := fun p hp => List.mem_range.1 (h.mem_iff.1 hp)
  rw [pick_pick hwithin, pick_idxOf h, pick_range]

/-! ## Orders of positions -/

/-- The positions that are not moved. -/
def staying (width : Nat) (moved : List Nat) : List Nat :=
  (List.range width).filter (!moved.contains ·)

section
variable {width place : Nat} {moved : List Nat}

theorem mem_staying_iff {p : Nat} : p ∈ staying width moved ↔ p < width ∧ p ∉ moved := by
  simp [staying]

/-- The moved positions stand between some of the staying ones and the others. -/
theorem moveOrder_eq : moveOrder width moved place =
    (staying width moved).take place ++ moved ++ (staying width moved).drop place :=
  rfl

theorem moveOrder_perm_append :
    (moveOrder width moved place).Perm (moved ++ staying width moved) := by
  -- the part in front of the place changes sides with the moved positions
  have hfront : ((staying width moved).take place ++ moved).Perm
      (moved ++ (staying width moved).take place) := List.perm_append_comm
  have hall := hfront.append_right ((staying width moved).drop place)
  rwa [List.append_assoc moved, List.take_append_drop] at hall

theorem nodup_moveOrder_iff : (moveOrder width moved place).Nodup ↔ moved.Nodup := by
  rw [moveOrder_perm_append.nodup_iff, List.nodup_append']
  refine ⟨And.left, fun h => ⟨h, List.nodup_range.filter _, fun p hp hstays => ?_⟩⟩
  exact (mem_staying_iff.1 hstays).2 hp

/-- No position is lost or repeated. -/
theorem moveOrder_perm_range (hmoved : ∀ p ∈ moved, p < width) (hnodup : moved.Nodup) :
    (moveOrder width moved place).Perm (List.range width) := by
  -- both orders have no repetition and the same members
  refine (List.perm_ext_iff_of_nodup (nodup_moveOrder_iff.2 hnodup) List.nodup_range).2 fun p => ?_
  rw [List.mem_range]
  exact ⟨lt_of_mem_moveOrder hmoved p, mem_moveOrder moved place⟩

end

section
variable {α : Type} {items : List α} {moved : List Nat}

/-- What is picked at the staying positions are the items that are not picked at the moved ones. -/
theorem pick_staying [DecidableEq α] (hitems : items.Nodup) :
    pick (staying items.length moved) items = items.filter (· ∉ pick moved items) := by
  -- item by item: a position is moved just if its item is picked
  have hpicked : ∀ p ∈ List.range items.length,
      (if !moved.contains p then items[p]? else none) =
        items[p]?.filter (· ∉ pick moved items) := by
    intro p hp
    have hlt := List.mem_range.1 hp
    have hmem : items[p] ∈ pick moved items ↔ p ∈ moved := getElem_mem_pick_iff hitems hlt
    rw [List.getElem?_eq_getElem hlt]
    simp [Option.filter_some, hmem]
  calc pick (staying items.length moved) items
    _ = (List.range items.length).filterMap
          fun p => if !moved.contains p then items[p]? else none := List.filterMap_filter ..
    _ = (List.range items.length).filterMap
          fun p => items[p]?.filter (· ∉ pick moved items) := List.filterMap_congr hpicked
    _ = (pick (List.range items.length) items).filter (· ∉ pick moved items) :=
      List.filter_filterMap.symm
    _ = items.filter (· ∉ pick moved items) := by rw [pick_range]

/-- Moved items stand together among the others, at the end if there are not as many of these. -/
theorem pick_moveOrder [DecidableEq α] [Inhabited α] (hitems : items.Nodup) (position : Nat) :
    pick (moveOrder items.length moved position) items =
      let others := items.filter (· ∉ pick moved items)
      let place := min position others.length
      others.take place ++ pick moved items ++ others.drop place := by
  -- taking and dropping is done on positions, and carries over to the items
  have hstaying : ∀ p ∈ staying items.length moved, p < items.length := fun p hp =>
    (mem_staying_iff.1 hp).1
  rw [moveOrder_eq, pick_append, pick_append, pick_take hstaying, pick_drop hstaying,
    pick_staying hitems, List.take_eq_take_min, List.drop_eq_drop_min]

end

/-! ## Opened moves -/

namespace Schema

variable {schema : Schema} {columns : List Column} {moved : List Nat}

/-- References to different columns resolve to different positions. -/
theorem pairwise_resolve_iff (h : schema.resolveEach columns = .ok moved) :
    (columns.Pairwise fun c c' => schema.resolve c ≠ schema.resolve c') ↔ moved.Nodup := by
  have hresolved : columns.map schema.resolve = moved.map .ok := by
    have hall := mapM_eq_ok_iff.1 h
    clear h
    induction hall with
    | nil => rfl
    | cons hposition _ ih => rw [List.map_cons, List.map_cons, hposition, ih]
  rw [← List.nodup_map_iff (f := (Except.ok : Nat → Except Error Nat)) fun _ _ => Except.ok.inj,
    ← hresolved, List.Nodup, List.pairwise_map]

theorem nodup_names_pick_iff (hnames : schema.names.Nodup)
    (hmoved : ∀ p ∈ moved, p < schema.width) :
    ((pick moved schema.fields).map Field.name).Nodup ↔ moved.Nodup := by
  rw [map_pick]
  exact nodup_pick_iff hnames (by simpa [names, width] using hmoved)

end Schema

namespace Transform

variable {entropy : Entropy} {schema output : Schema} {columns : List Column} {position : Nat}
  {moved : List Nat} {stage : Stage}

theorem openOn_move (hposition : position ≤ schema.width)
    (hmoved : schema.resolveEach columns = .ok moved) :
    (move columns position).openOn entropy schema = (do
      return (.each (.project schema.width (moveOrder schema.width moved position)),
        ← Schema.ofFields (pick (moveOrder schema.width moved position) schema.fields))) := by
  rw [openOn, if_neg (Nat.not_lt.2 hposition), hmoved]
  rfl

/-- A move of different columns rearranges the fields of the schema and the values of each row in
    the same order. -/
theorem openOn_move_eq_ok_iff (hnames : schema.names.Nodup) :
    (move columns position).openOn entropy schema = .ok (stage, output) ↔
      position ≤ schema.width ∧ ∃ moved, schema.resolveEach columns = .ok moved ∧ moved.Nodup ∧
        stage = .each (.project schema.width (moveOrder schema.width moved position)) ∧
        output = ⟨pick (moveOrder schema.width moved position) schema.fields⟩ := by
  -- the names of the output are checked, and a column that is moved twice has its name twice
  have hnodup {moved : List Nat} (hmoved : schema.resolveEach columns = .ok moved) :
      ((pick (moveOrder schema.width moved position) schema.fields).map Field.name).Nodup ↔
        moved.Nodup := by
    have hwithin : ∀ p ∈ moveOrder schema.width moved position, p < schema.width :=
      lt_of_mem_moveOrder (Schema.lt_width_of_resolveEach hmoved)
    rw [Schema.nodup_names_pick_iff hnames hwithin, nodup_moveOrder_iff]
  constructor
  · intro h
    -- a position beyond the width is refused first
    have hposition : position ≤ schema.width := by
      refine Nat.not_lt.1 fun hbeyond => ?_
      rw [openOn, if_pos hbeyond] at h
      cases h
    cases opens_of_openOn h with
    | move houtput horder =>
      obtain ⟨moved, hmoved, rfl⟩ := horder
      have hfields := Schema.fields_of_ofFields houtput
      have houtput := Schema.nodup_of_ofFields houtput
      rw [Schema.names, hfields, hnodup hmoved] at houtput
      exact ⟨hposition, moved, hmoved, houtput, rfl, congrArg Schema.mk hfields⟩
  · rintro ⟨hposition, moved, hmoved, hmovedOnce, rfl, rfl⟩
    rw [openOn_move hposition hmoved, Schema.ofFields_of_nodup ((hnodup hmoved).2 hmovedOnce)]
    rfl

/-- A move opens if its position is there, all columns are there and none is moved twice. -/
theorem exists_openOn_move_iff (hnames : schema.names.Nodup) :
    (∃ stage output, (move columns position).openOn entropy schema = .ok (stage, output)) ↔
      position ≤ schema.width ∧ (∀ c ∈ columns, schema.Has c) ∧
        columns.Pairwise fun c c' => schema.resolve c ≠ schema.resolve c' := by
  simp only [openOn_move_eq_ok_iff hnames, ← Schema.exists_resolveEach_iff]
  constructor
  · rintro ⟨_, _, hposition, moved, hmoved, hnodup, -⟩
    exact ⟨hposition, ⟨moved, hmoved⟩, (Schema.pairwise_resolve_iff hmoved).2 hnodup⟩
  · rintro ⟨hposition, ⟨moved, hmoved⟩, hdifferent⟩
    have hnodup := (Schema.pairwise_resolve_iff hmoved).1 hdifferent
    exact ⟨_, _, hposition, moved, hmoved, hnodup, rfl, rfl⟩

/-! ## The old order -/

/-- Behind fields in a new order, the old names select the place of each field in it. -/
theorem resolveEach_names {order : List Nat} (hnames : schema.names.Nodup)
    (horder : order.Perm (List.range schema.width)) :
    Schema.resolveEach ⟨pick order schema.fields⟩ (schema.names.map .name) =
      .ok ((List.range schema.width).map (order.idxOf ·)) := by
  have hwithin : ∀ p ∈ order, p < schema.width := fun p hp =>
    List.mem_range.1 (horder.mem_iff.1 hp)
  -- in the new order the names are still different, so each is found at one place
  have hnames' : ((pick order schema.fields).map Field.name).Nodup :=
    (Schema.nodup_names_pick_iff hnames hwithin).2 (horder.nodup_iff.2 List.nodup_range)
  rw [Schema.resolveEach, mapM_eq_ok_iff, Schema.names, List.map_map, List.forall₂_map_left_iff,
    List.forall₂_map_right_iff, List.forall₂_iff_get]
  refine ⟨List.length_range.symm, fun p hp _ => ?_⟩
  simp only [List.get_eq_getElem, List.getElem_range, Function.comp_apply]
  have hplace : order[order.idxOf p]? = some p :=
    List.getElem?_idxOf (horder.mem_iff.2 (List.mem_range.2 hp))
  have hfield : (pick order schema.fields)[order.idxOf p]? = some schema.fields[p] := by
    rw [getElem?_pick hwithin, hplace]
    exact List.getElem?_eq_getElem hp
  exact Schema.resolve_eq_ok_iff.2 (Schema.indexOf?_of_nodup hnames' hfield)

/-- A selection of the old names puts fields and values back. -/
theorem openOn_select_names (entropy : Entropy) {order : List Nat} (hnames : schema.names.Nodup)
    (horder : order.Perm (List.range schema.width)) :
    (select (schema.names.map .name) none).openOn entropy ⟨pick order schema.fields⟩ =
      .ok (.each (.project schema.width ((List.range schema.width).map (order.idxOf ·))),
        schema) := by
  have hwidth : Schema.width ⟨pick order schema.fields⟩ = schema.width :=
    (perm_pick horder).length_eq
  have hfields : pick ((List.range schema.width).map (order.idxOf ·)) (pick order schema.fields) =
      schema.fields := pick_idxOf_pick horder
  have hschema : Schema.ofFields schema.fields = .ok schema := Schema.ofFields_of_nodup hnames
  rw [openOn, resolveEach_names hnames horder]
  simp only [bind, Except.bind, pure, Except.pure, hfields, hschema, hwidth]

end Transform

/-! ## Rows -/

namespace RowRule

variable {row : Row} {order : List Nat}

theorem apply_project {width : Nat} (positions : List Nat) (h : row.length = width) :
    (project width positions).apply row =
      .ok (some (row.withValues (pick positions row.values))) := by
  rw [apply, expectWidth_eq_ok_iff.2 h]
  rfl

end RowRule

end RowFlow
