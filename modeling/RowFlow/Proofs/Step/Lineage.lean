import RowFlow.Proofs.Step.Failures

/-!
# Origins of Columns

A transform takes most columns over from its input, at the same positions or at others. Where a
column of the output comes from is said here by counting positions (`Transform.origin?`), without
the values and the fields that a transform rebuilds. A row that a freshly opened stage passes on
has the number of the row that it was made of, and the values of that row wherever a column has an
origin (`Transform.descends_of_openOn`).
-/

namespace RowFlow

/-! ## Origins -/

/-- The position in the input of the column that a transform passes on at a position. There is none
    if the column is inserted there, or if its values are replaced or converted. -/
def Transform.origin? (schema : Schema) (t : Transform) (p : Nat) : Option Nat :=
  match t with
  | .filter _ _ | .limit _ | .sample _ _ | .sort _ _ | .rename _ _ => some p
  | .select columns _ => columns[p]?.bind schema.position?
  | .move columns place =>
    -- the others keep their order, in front of the moved columns and behind them
    let moved := columns.filterMap schema.position?
    let others := (List.range schema.width).filter (!moved.contains ·)
    let first := min place others.length
    if p < first then others[p]?
    else if p < first + moved.length then moved[p - first]?
    else others[p - moved.length]?
  | .insert names place _ =>
    let first := place.getD schema.width
    if p < first then some p
    else if p < first + names.length then none
    else some (p - names.length)
  | .update columns _ => if p ∈ columns.filterMap schema.position? then none else some p
  | .typecast casts =>
    if p ∈ casts.filterMap fun cast => schema.position? cast.1 then none else some p

/-- A row has the number of another one, and its values at the origins of positions. -/
structure Row.DescendsFrom (image row : Row) (origin : Nat → Option Nat) : Prop where
  id : image.id = row.id
  values {p q : Nat} : origin p = some q → image.values[p]? = row.values[q]?

namespace Row.DescendsFrom

variable {image row source : Row} {origin origin' : Nat → Option Nat}

theorem refl (row : Row) : row.DescendsFrom row some :=
  ⟨rfl, fun h => Option.some.inj h ▸ rfl⟩

/-- Fewer positions with origins. -/
theorem mono (h : image.DescendsFrom row origin)
    (horigin : ∀ p q, origin' p = some q → origin p = some q) : image.DescendsFrom row origin' :=
  ⟨h.id, fun hpq => h.values (horigin _ _ hpq)⟩

/-- Other values at some positions alone. -/
theorem of_frame {positions : List Nat} (hid : image.id = row.id)
    (h : ∀ p ∉ positions, image.values[p]? = row.values[p]?) :
    image.DescendsFrom row fun p => if p ∈ positions then none else some p where
  id := hid
  values hpq := by
    obtain ⟨hp, hpq⟩ := Option.ite_none_left_eq_some.1 hpq
    exact Option.some.inj hpq ▸ h _ hp

/-- Origins are followed backwards. -/
theorem trans (h : image.DescendsFrom row origin) (h' : row.DescendsFrom source origin') :
    image.DescendsFrom source fun p => (origin p).bind origin' where
  id := h.id.trans h'.id
  values hpq := by
    obtain ⟨m, hpm, hmq⟩ := Option.bind_eq_some_iff.1 hpq
    exact (h.values hpm).trans (h'.values hmq)

end Row.DescendsFrom

/-! ## Resolved positions -/

namespace Schema

variable {schema : Schema}

theorem resolve_eq_ok_iff {column : Column} {position : Nat} :
    schema.resolve column = .ok position ↔ schema.position? column = some position := by
  unfold resolve
  cases schema.position? column with
  | none => simp
  | some p => simp

theorem filterMap_position?_of_resolveEach {columns : List Column} {positions : List Nat}
    (h : schema.resolveEach columns = .ok positions) :
    columns.filterMap schema.position? = positions := by
  have hall := mapM_eq_ok_iff.1 h
  clear h
  induction hall with
  | nil => rfl
  | cons hposition _ ih => rw [List.filterMap_cons, resolve_eq_ok_iff.1 hposition, ih]

theorem getElem?_bind_position?_of_resolveEach {columns : List Column} {positions : List Nat}
    (h : schema.resolveEach columns = .ok positions) (p : Nat) :
    columns[p]?.bind schema.position? = positions[p]? := by
  have hall := mapM_eq_ok_iff.1 h
  clear h
  induction hall generalizing p with
  | nil => rfl
  | cons hposition _ ih =>
    cases p with
    | zero => simpa using resolve_eq_ok_iff.1 hposition
    | succ p => simpa using ih p

end Schema

theorem filterMap_position?_of_resolveCasts {schema : Schema} {fields out : List Field}
    {casts : List (Column × ColumnType)} {resolved : List (Nat × ColumnType)}
    (h : resolveCasts schema fields casts = .ok (out, resolved)) :
    (casts.filterMap fun cast => schema.position? cast.1) = resolved.map Prod.fst := by
  induction casts generalizing fields resolved with
  | nil => exact (Prod.mk.inj (Except.ok.inj h)).2 ▸ rfl
  | cons cast rest ih =>
    obtain ⟨position, behind, hposition, hbehind, rfl⟩ := resolveCasts_cons_eq_ok_iff.1 h
    rw [List.filterMap_cons, Schema.resolve_eq_ok_iff.1 hposition, ih hbehind]
    rfl

/-! ## Values at positions -/

/-- Items between others: the first ones stay, the last ones move up. -/
theorem getElem?_splice {α : Type} (xs ys : List α) (place p : Nat) :
    (xs.take place ++ ys ++ xs.drop place)[p]? =
      if p < min place xs.length then xs[p]?
      else if p < min place xs.length + ys.length then ys[p - min place xs.length]?
      else xs[p - ys.length]? := by
  have hfirst : (xs.take place).length = min place xs.length := List.length_take
  split
  · rename_i h
    rw [List.append_assoc, List.getElem?_append_left (hfirst ▸ h),
      List.getElem?_take_of_lt (by omega)]
  · split
    · rename_i h h'
      rw [List.append_assoc, List.getElem?_append_right (by omega), hfirst,
        List.getElem?_append_left (by omega)]
    · rename_i h h'
      rw [List.getElem?_append_right (by rw [List.length_append]; omega), List.getElem?_drop,
        List.length_append, hfirst]
      -- a place behind the end is the end
      by_cases hplace : place ≤ xs.length
      · congr 1
        omega
      · rw [List.getElem?_eq_none (by omega), List.getElem?_eq_none (by omega)]

theorem getElem?_assignAt {values out : List Value} {position : Nat} {value : Value}
    (h : assignAt values position value = .ok out) {p : Nat} (hp : p ≠ position) :
    out[p]? = values[p]? := by
  unfold assignAt at h
  split at h
  · rw [← Except.ok.inj h, List.getElem?_set_ne (Ne.symm hp)]
  · cases h

theorem getElem?_assignEach {values out : List Value} {assignments : List (Nat × Value)}
    (h : assignEach values assignments = .ok out) {p : Nat} (hp : p ∉ assignments.map Prod.fst) :
    out[p]? = values[p]? := by
  induction assignments generalizing values with
  | nil => exact (Except.ok.inj h) ▸ rfl
  | cons assignment rest ih =>
    obtain ⟨next, hnext, hrest⟩ := bind_eq_ok_iff.1 h
    rw [List.map_cons, List.mem_cons, not_or] at hp
    exact (ih hrest hp.2).trans (getElem?_assignAt hnext hp.1)

/-- Assigning a result leaves the values at all other positions. -/
theorem getElem?_assign {values out : List Value} {positions : List Nat} {result : Value}
    (h : assign values positions result = .ok out) {p : Nat} (hp : p ∉ positions) :
    out[p]? = values[p]? := by
  unfold assign at h
  split at h
  · exact getElem?_assignAt h (List.ne_of_not_mem_cons hp)
  · split at h
    · split at h
      · rename_i hlength
        refine getElem?_assignEach h ?_
        rwa [List.map_fst_zip (Nat.le_of_eq hlength.symm)]
      · cases h
    · cases h

/-- Conversions leave the values at all other positions. -/
theorem getElem?_castEach {id : Nat} {names : List String} {values out : List Value}
    {casts : List (Nat × ColumnType)} (h : castEach id names values casts = .ok out) {p : Nat}
    (hp : p ∉ casts.map Prod.fst) : out[p]? = values[p]? := by
  induction casts generalizing values with
  | nil => exact (Except.ok.inj h) ▸ rfl
  | cons cast rest ih =>
    rw [List.map_cons, List.mem_cons, not_or] at hp
    unfold castEach at h
    split at h
    · rw [ih h hp.2, List.getElem?_set_ne (Ne.symm hp.1)]
    · cases h

/-! ## Images under rules -/

namespace RowRule

variable {row image : Row}

theorem descends_filter {evaluator : Evaluator} {negated : Bool}
    (himage : (filter evaluator negated).apply row = .ok (some image)) :
    image.DescendsFrom row some := by
  obtain ⟨_, _, himage⟩ := bind_eq_ok_iff.1 himage
  have hkept := Except.ok.inj himage
  split at hkept
  · cases hkept
  · obtain rfl := Option.some.inj hkept
    exact .refl row

/-- A projection passes on the values at its positions. -/
theorem descends_project {width : Nat} {positions : List Nat} (h : ∀ q ∈ positions, q < width)
    (himage : (project width positions).apply row = .ok (some image)) :
    image.DescendsFrom row (positions[·]?) := by
  obtain ⟨_, hwidth, himage⟩ := bind_eq_ok_iff.1 himage
  obtain rfl := Option.some.inj (Except.ok.inj himage)
  refine ⟨rfl, fun {p q} hpq => ?_⟩
  have hlength := expectWidth_eq_ok_iff.1 hwidth
  rw [Row.values_withValues, getElem?_pick (fun q hq => hlength ▸ h q hq), hpq]
  rfl

/-- Values put in at a place move up the ones behind it. -/
theorem descends_insert {width place count : Nat} {cells : Cells}
    (hcount : ∀ inserted, cells.values row.values = .ok inserted → inserted.length = count)
    (hplace : place ≤ width)
    (himage : (insert width place cells).apply row = .ok (some image)) :
    image.DescendsFrom row fun p =>
      if p < place then some p else if p < place + count then none else some (p - count) := by
  obtain ⟨_, hwidth, himage⟩ := bind_eq_ok_iff.1 himage
  obtain ⟨inserted, hinserted, himage⟩ := bind_eq_ok_iff.1 himage
  obtain rfl := Option.some.inj (Except.ok.inj himage)
  refine ⟨rfl, fun {p q} hpq => ?_⟩
  have hlength : place ≤ row.values.length := expectWidth_eq_ok_iff.1 hwidth ▸ hplace
  rw [Row.values_withValues, getElem?_splice, hcount inserted hinserted, Nat.min_eq_left hlength]
  -- the cases of the origin are those of the splice
  split at hpq
  · obtain rfl := Option.some.inj hpq
    rw [if_pos ‹_›]
  · split at hpq
    · cases hpq
    · obtain rfl := Option.some.inj hpq
      rw [if_neg ‹_›, if_neg ‹_›]

/-- An update leaves the values at all positions but its own. -/
theorem descends_update {positions : List Nat} {evaluator : Evaluator}
    (himage : (update positions evaluator).apply row = .ok (some image)) :
    image.DescendsFrom row fun p => if p ∈ positions then none else some p := by
  obtain ⟨result, _, himage⟩ := bind_eq_ok_iff.1 himage
  obtain ⟨values, hvalues, himage⟩ := bind_eq_ok_iff.1 himage
  obtain rfl := Option.some.inj (Except.ok.inj himage)
  exact .of_frame rfl fun p hp => getElem?_assign hvalues hp

/-- A conversion leaves the values at all positions but its own. -/
theorem descends_cast {width : Nat} {names : List String} {casts : List (Nat × ColumnType)}
    (himage : (cast width names casts).apply row = .ok (some image)) :
    image.DescendsFrom row fun p => if p ∈ casts.map Prod.fst then none else some p := by
  obtain ⟨_, _, himage⟩ := bind_eq_ok_iff.1 himage
  obtain ⟨values, hvalues, himage⟩ := bind_eq_ok_iff.1 himage
  obtain rfl := Option.some.inj (Except.ok.inj himage)
  exact .of_frame rfl fun p hp => getElem?_castEach hvalues hp

end RowRule

/-! ## Opened transforms -/

/-- The moved columns and the others, by position. -/
theorem Transform.origin?_move {schema : Schema} {columns : List Column} {moved : List Nat}
    (h : schema.resolveEach columns = .ok moved) (place p : Nat) :
    (Transform.move columns place).origin? schema p =
      (moveOrder schema.width moved place)[p]? := by
  simp only [origin?, moveOrder, Schema.filterMap_position?_of_resolveEach h, getElem?_splice]

theorem lt_of_mem_moveOrder {width place : Nat} {moved : List Nat} (h : ∀ q ∈ moved, q < width) :
    ∀ q ∈ moveOrder width moved place, q < width := by
  intro q hq
  have hothers {q : Nat} (hq : q ∈ (List.range width).filter (!moved.contains ·)) : q < width :=
    List.mem_range.1 (List.mem_filter.1 hq).1
  rcases List.mem_append.1 hq with hq | hq
  · rcases List.mem_append.1 hq with hq | hq
    · exact hothers (List.mem_of_mem_take hq)
    · exact h q hq
  · exact hothers (List.mem_of_mem_drop hq)

/-- A row that a freshly opened rule passes on descends from the row that the rule was applied to,
    by way of the origins of its transform. -/
theorem Transform.descends_of_openOn {entropy : Entropy} {schema output : Schema} {t : Transform}
    {rule : RowRule} (h : t.openOn entropy schema = .ok (.each rule, output)) {row image : Row}
    (himage : rule.apply row = .ok (some image)) : image.DescendsFrom row (t.origin? schema) := by
  cases opens_of_openOn h with
  | filter _ => exact RowRule.descends_filter himage
  | select hpositions =>
    have hproject := RowRule.descends_project (Schema.lt_width_of_resolveEach hpositions) himage
    refine hproject.mono fun p q hpq => ?_
    rwa [← Schema.getElem?_bind_position?_of_resolveEach hpositions]
  | rename _ _ =>
    obtain rfl := Option.some.inj (Except.ok.inj himage)
    exact .refl row
  | move _ horder =>
    obtain ⟨moved, hmoved, rfl⟩ := horder
    have hwithin := Schema.lt_width_of_resolveEach hmoved
    have hproject := RowRule.descends_project (lt_of_mem_moveOrder hwithin) himage
    refine hproject.mono fun p q hpq => ?_
    rwa [← origin?_move hmoved]
  | insert hcells _ hplace =>
    obtain ⟨rfl, hplace⟩ := hplace
    exact RowRule.descends_insert (fun _ => Cells.length_values hcells) hplace himage
  | update hpositions _ =>
    have hupdate := RowRule.descends_update himage
    rwa [← Schema.filterMap_position?_of_resolveEach hpositions] at hupdate
  | typecast hcasts _ =>
    have hcast := RowRule.descends_cast himage
    rwa [← filterMap_position?_of_resolveCasts hcasts] at hcast

end RowFlow
