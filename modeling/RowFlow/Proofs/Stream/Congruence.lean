import RowFlow.Proofs.Stream.Basic

/-!
# Streams up to Errors

Streams are alike if they have the same rows and then both end normally or both fail, be it by
different errors. No stage tells such streams apart (`RowStream.Alike.through`).
-/

namespace RowFlow

namespace RowStream

/-- The same rows, and an end of the same kind. -/
inductive Alike : RowStream → RowStream → Prop where
  | ended : Alike .ended .ended
  | failed (e e' : Error) : Alike (.failed e) (.failed e')
  | row (r : Row) {rest rest' : RowStream} : Alike rest rest' → Alike (.row r rest) (.row r rest')

/-- The items of a source stand for a stream, and a function makes of them, one by one, the items of
    another source. -/
theorem alike_ofItems {f : Row → Except Error (Option Row)} {width width' : Nat}
    {items items' : List (Except Error Row)}
    (h : List.Forall₂ (fun item item' => Agree (item >>= f) (some <$> item')) items items')
    (hwidth : ∀ row, .ok row ∈ items → row.length = width)
    (hwidth' : ∀ row, .ok row ∈ items' → row.length = width') :
    Alike ((ofItems width items).mapRows f) (ofItems width' items') := by
  induction h with
  | nil => exact .ended
  | @cons item item' items items' hitem _ ih =>
    have ih := ih (fun row hrow => hwidth row (List.mem_cons_of_mem _ hrow))
      fun row hrow => hwidth' row (List.mem_cons_of_mem _ hrow)
    cases item' with
    | ok row' =>
      -- the item is a row, of which the function makes the other one
      obtain ⟨row, rfl, himage⟩ := bind_eq_ok_iff.1 ((hitem (some row')).2 rfl)
      have hfits : expectWidth row.values width = .ok () :=
        expectWidth_eq_ok_iff.2 (hwidth row List.mem_cons_self)
      have hfits' : expectWidth row'.values width' = .ok () :=
        expectWidth_eq_ok_iff.2 (hwidth' row' List.mem_cons_self)
      simp only [ofItems, hfits, hfits', mapRows, himage]
      exact .row row' ih
    | error e' =>
      cases item with
      | error e => exact .failed e e'
      | ok row =>
        have hfits : expectWidth row.values width = .ok () :=
          expectWidth_eq_ok_iff.2 (hwidth row List.mem_cons_self)
        cases himage : f row with
        | ok image => cases (hitem image).1 himage
        | error e =>
          simp only [ofItems, hfits, mapRows, himage]
          exact .failed e e'

namespace Alike

variable {s s' : RowStream}

protected theorem refl (s : RowStream) : Alike s s := by
  induction s with
  | ended => exact .ended
  | failed e => exact .failed e e
  | row r rest ih => exact .row r ih

theorem result (h : Alike s s') : Agree s.result s'.result := by
  induction h with
  | ended => exact .refl _
  | failed e e' => exact fun _ => ⟨nofun, nofun⟩
  | row r _ ih => exact ih.bind fun _ _ => .refl _

theorem mapRows (h : Alike s s') (f : Row → Except Error (Option Row)) :
    Alike (s.mapRows f) (s'.mapRows f) := by
  induction h with
  | ended => exact .ended
  | failed e e' => exact .failed e e'
  | row r _ ih =>
    simp only [RowStream.mapRows]
    rcases f r with e | _ | image
    · exact .failed e e
    · exact ih
    · exact .row image ih

theorem limit (h : Alike s s') (n : Nat) : Alike (s.limit n) (s'.limit n) := by
  induction h generalizing n with
  | ended => exact .refl _
  | failed e e' =>
    rw [limit_failed, limit_failed]
    exact .failed e e'
  | row r _ ih =>
    cases n with
    | zero => exact .ended
    | succ n =>
      rw [limit_succ_row, limit_succ_row]
      refine .row r ?_
      split
      · exact .ended
      · exact ih n

theorem rearrange (h : Alike s s') (f : List Row → List Row) :
    Alike (s.rearrange f) (s'.rearrange f) := by
  unfold RowStream.rearrange
  cases hs : s.result with
  | ok rows =>
    rw [(h.result rows).1 hs]
    exact .refl _
  | error e =>
    cases hs' : s'.result with
    | ok rows => exact nomatch hs.symm.trans ((h.result rows).2 hs')
    | error e' => exact .failed e e'

theorem onStream (h : Alike s s') (stage : Stage) : Alike (stage.onStream s) (stage.onStream s') := by
  cases stage with
  | each rule => exact h.mapRows rule.apply
  | limit rows seen => exact h.limit (rows - seen)
  | sample reservoir => exact h.rearrange _
  | sort width keys descending held => exact h.rearrange _

/-- Stages make streams that are alike of streams that are alike. -/
theorem through (h : Alike s s') (stages : List Stage) :
    Alike (s.through stages) (s'.through stages) := by
  induction stages generalizing s s' with
  | nil => exact h
  | cons stage rest ih => exact ih (h.onStream stage)

end Alike

end RowStream

end RowFlow
