import Mathlib.Data.List.Perm.Subperm
import RowFlow.Proofs.Random.Reservoir
import RowFlow.Proofs.Step.Lineage
import RowFlow.Proofs.Stream.Basic

/-!
# Descent of Streams

The rows that come out of a stage descend from rows that have gone in, no row from the same one as
another (`Transform.follows_of_openOn`). Rules and limits keep the rows in order and samples restore
their order; only a sort rearranges them.
-/

namespace RowFlow

/-! ## Rows of a stream -/

namespace RowStream

/-- The rows in front of the end of a stream, whatever the end is. -/
def rows : RowStream → List Row
  | .ended | .failed _ => []
  | .row r rest => r :: rest.rows

@[simp] theorem rows_ofRows (rows : List Row) : (ofRows rows).rows = rows := by
  induction rows with
  | nil => rfl
  | cons r rest ih => rw [ofRows, RowStream.rows, ih]

theorem rows_of_result {s : RowStream} {rows : List Row} (h : s.result = .ok rows) :
    s.rows = rows := by
  induction s generalizing rows with
  | ended => exact Except.ok.inj h
  | failed e => cases h
  | row r rest ih =>
    obtain ⟨tail, htail, h⟩ := bind_eq_ok_iff.1 h
    rw [RowStream.rows, ih htail]
    exact Except.ok.inj h

theorem HasWidth.length_of_mem {width : Nat} {s : RowStream} (h : s.HasWidth width) :
    ∀ r ∈ s.rows, r.length = width := by
  induction s with
  | ended | failed e => exact nofun
  | row r rest ih => exact List.forall_mem_cons.2 ⟨h.1, ih h.2⟩

/-- The stream of rows is these rows up to the first one of another width. -/
theorem rows_ofItems_sublist (width : Nat) (rows : List Row) :
    (ofItems width (rows.map .ok)).rows.Sublist rows := by
  induction rows with
  | nil => exact .slnil
  | cons row rows ih =>
    simp only [List.map_cons, ofItems]
    split
    · exact List.nil_sublist _
    · exact ih.cons_cons row

/-- The rows that a rule passes on are images of some of the rows, in order. -/
theorem exists_kept_mapRows (f : Row → Except Error (Option Row)) (s : RowStream) :
    ∃ kept : List Row, kept.Sublist s.rows ∧
      List.Forall₂ (fun row image => f row = .ok (some image)) kept (s.mapRows f).rows := by
  induction s with
  | ended | failed e => exact ⟨[], .slnil, .nil⟩
  | row r rest ih =>
    obtain ⟨kept, hkept, himages⟩ := ih
    simp only [mapRows]
    split
    · exact ⟨[], List.nil_sublist _, .nil⟩
    · exact ⟨kept, hkept.cons r, himages⟩
    · rename_i image himage
      exact ⟨r :: kept, hkept.cons_cons r, .cons himage himages⟩

theorem rows_limit (n : Nat) (s : RowStream) : (s.limit n).rows = s.rows.take n := by
  fun_induction RowStream.limit n s with
  | case1 => rfl
  | case2 r rest => simp [rows]
  | case3 n r rest ih => simp [rows, ih]
  | case4 => simp [rows]
  | case5 => simp [rows]

/-- Rows are rearranged all at once, or none of them come out. -/
theorem rows_rearrange (f : List Row → List Row) (s : RowStream) :
    (s.rearrange f).rows = f s.rows ∨ (s.rearrange f).rows = [] := by
  unfold rearrange
  split
  · rename_i rows hrows
    rw [rows_ofRows, rows_of_result hrows]
    exact .inl rfl
  · exact .inr rfl

end RowStream

/-! ## Descent -/

theorem exists_mem_of_forall₂ {α β : Type} {R : α → β → Prop} {xs : List α} {ys : List β}
    (h : List.Forall₂ R xs ys) {y : β} (hy : y ∈ ys) : ∃ x ∈ xs, R x y := by
  induction h with
  | nil => cases hy
  | @cons x _ _ _ hxy _ ih =>
    rcases List.mem_cons.1 hy with rfl | hy
    · exact ⟨x, List.mem_cons_self, hxy⟩
    · obtain ⟨x, hx, hxy⟩ := ih hy
      exact ⟨x, List.mem_cons_of_mem _ hx, hxy⟩

/-- Rows that come out where some rows have gone in: each of them descends from one of those, and
    no two from the same one. -/
structure Follows (origin : Nat → Option Nat) (ordered : Prop) (out rows : List Row) : Prop where
  ids : (out.map Row.id).Subperm (rows.map Row.id)
  order : ordered → (out.map Row.id).Sublist (rows.map Row.id)
  descent : ∀ image ∈ out, ∃ row ∈ rows, image.DescendsFrom row origin

namespace Follows

variable {origin origin' : Nat → Option Nat} {ordered ordered' : Prop} {out between rows : List Row}

theorem trans (h : Follows origin ordered out between)
    (h' : Follows origin' ordered' between rows) :
    Follows (fun p => (origin p).bind origin') (ordered' ∧ ordered) out rows where
  ids := h.ids.trans h'.ids
  order ho := (h.order ho.2).trans (h'.order ho.1)
  descent image himage := by
    obtain ⟨row, hrow, hdescends⟩ := h.descent image himage
    obtain ⟨source, hsource, hdescends'⟩ := h'.descent row hrow
    exact ⟨source, hsource, hdescends.trans hdescends'⟩

theorem mono (h : Follows origin ordered out rows)
    (horigin : ∀ p q, origin' p = some q → origin p = some q) :
    Follows origin' ordered out rows where
  ids := h.ids
  order := h.order
  descent image himage := by
    obtain ⟨row, hrow, hdescends⟩ := h.descent image himage
    exact ⟨row, hrow, hdescends.mono horigin⟩

/-- Some of the rows. -/
theorem of_sublist (h : out.Sublist rows) : Follows some ordered out rows where
  ids := (h.map Row.id).subperm
  order _ := h.map Row.id
  descent image himage := ⟨image, h.subset himage, .refl image⟩

/-- The same rows in another order. -/
theorem of_perm (h : out.Perm rows) : Follows some False out rows where
  ids := (h.map Row.id).subperm
  order := False.elim
  descent image himage := ⟨image, h.mem_iff.1 himage, .refl image⟩

/-- Images of some of the rows. -/
theorem of_images {kept : List Row} (hkept : kept.Sublist rows)
    (himages : List.Forall₂ (fun row image => image.DescendsFrom row origin) kept out) :
    Follows origin ordered out rows := by
  have hids : (out.map Row.id).Sublist (rows.map Row.id) := by
    -- an image has the number of its row
    have hmap : out.map Row.id = kept.map Row.id := by
      clear hkept
      induction himages with
      | nil => rfl
      | cons himage _ ih => rw [List.map_cons, List.map_cons, himage.id, ih]
    rw [hmap]
    exact hkept.map Row.id
  refine ⟨hids.subperm, fun _ => hids, fun image himage => ?_⟩
  obtain ⟨row, hrow, hdescends⟩ := exists_mem_of_forall₂ himages himage
  exact ⟨row, hkept.subset hrow, hdescends⟩

end Follows

/-! ## Opened transforms -/

/-- A transform passes rows on in the order in which they come. -/
def Transform.KeepsOrder : Transform → Prop
  | .sort _ _ => False
  | _ => True

/-- What comes out of a freshly opened stage follows what goes in. -/
theorem Transform.follows_of_openOn {entropy : Entropy} {schema output : Schema} {t : Transform}
    {stage : Stage} (h : t.openOn entropy schema = .ok (stage, output)) (s : RowStream) :
    Follows (t.origin? schema) t.KeepsOrder (stage.onStream s).rows s.rows := by
  cases stage with
  | each rule =>
    obtain ⟨kept, hkept, himages⟩ := RowStream.exists_kept_mapRows rule.apply s
    have hdescends : List.Forall₂ (fun row image => image.DescendsFrom row (t.origin? schema)) kept
        (s.mapRows rule.apply).rows :=
      himages.imp fun _ _ himage => descends_of_openOn h himage
    exact .of_images hkept hdescends
  | limit rows seen =>
    cases opens_of_openOn h
    refine Follows.of_sublist ?_
    rw [Stage.onStream, RowStream.rows_limit]
    exact List.take_sublist _ _
  | sample reservoir =>
    cases opens_of_openOn h
    refine Follows.of_sublist ?_
    rw [Stage.onStream_sample]
    -- the rows in the reservoir come out only after all rows have been on offer
    rcases RowStream.rows_rearrange _ s with hrows | hrows
    · rw [hrows]
      exact ((Reservoir.holds_start _ _).offers s.rows).rows_sublist
    · rw [hrows]
      exact List.nil_sublist _
  | sort width keys descending held =>
    cases opens_of_openOn h
    rw [Stage.onStream_sort]
    rcases RowStream.rows_rearrange _ s with hrows | hrows
    · rw [hrows]
      exact Follows.of_perm (List.mergeSort_perm _ _)
    · rw [hrows]
      exact Follows.of_sublist (List.nil_sublist _)

end RowFlow
