import RowFlow.Proofs.Chain.Release
import RowFlow.Proofs.Pipeline.Effects
import RowFlow.Proofs.Stream.Sorting

/-!
# Sorting in Pipelines

A sort welcomes all rows and lets them out at the close, in the order of their keys, and rows with
the same keys in the order of their arrival (`Pipeline.sorts_stably`). Therefore sorting twice is
sorting once, and rows are sorted by several keys if they are sorted by the last ones first. Filters
may be put before or behind a sort (`Pipeline.sort_filter_agree`).
-/

namespace RowFlow

variable {α : Type}

/-! ## Sorts at work -/

namespace Stage

variable (width : Nat) (keys : List Nat) (descending : Bool)

/-- A sort holds back rows of its width. -/
theorem holdsBack_sort {rows : List Row} (h : ∀ row ∈ rows, row.length = width)
    (held : List Row) : HoldsBack (sort width keys descending held) rows
      (sort width keys descending (held ++ rows)) := by
  induction rows generalizing held with
  | nil =>
    rw [List.append_nil]
    exact .nil _
  | cons row rows ih =>
    obtain ⟨hrow, hrows⟩ := List.forall_mem_cons.1 h
    have hwidth : expectWidth row.values width = .ok () := expectWidth_eq_ok_iff.2 hrow
    have hhandle : Producer.handle row (sort width keys descending held) =
        .done (.ok .more, sort width keys descending (held ++ [row])) := by
      simp only [Producer.handle, handle, hwidth]
    have hrest := ih hrows (held ++ [row])
    rw [List.append_assoc] at hrest
    exact .cons hhandle hrest

theorem releases_sort {rows : List Row} (h : ∀ row ∈ rows, row.length = width) :
    Releases (sort width keys descending []) rows (sortRows keys descending rows) :=
  (holdsBack_sort width keys descending h []).releases rfl

end Stage

/-! ## Sorts one behind another -/

namespace Transform

variable (entropy : Entropy) (schema : Schema) (keys keys' : List Column) (descending : Bool)

theorem effect_sort_sort :
    effect entropy schema [.sort keys descending, .sort keys descending] =
      effect entropy schema [.sort keys descending] := by
  simp only [effect_sort, effect_nil]
  cases schema.resolveEach keys with
  | error e => rfl
  | ok positions =>
    simp only [bind, Except.bind, pure, Except.pure, id, RowStream.rearrange_rearrange,
      sortRows_sortRows]

/-- The last keys are sorted by first. -/
theorem effect_sort_append :
    Agree (effect entropy schema [.sort (keys ++ keys') descending])
      (effect entropy schema [.sort keys' descending, .sort keys descending]) := by
  have hresolve : schema.resolveEach (keys ++ keys') = (do
      return (← schema.resolveEach keys) ++ (← schema.resolveEach keys')) := List.mapM_append
  have hsort (positions positions' : List Nat) :
      sortRows (positions ++ positions') descending =
        fun rows => sortRows positions descending (sortRows positions' descending rows) :=
    funext (sortRows_append positions positions' descending)
  simp only [effect_sort, effect_nil, hresolve, hsort, bind_assoc, pure_bind, id,
    RowStream.rearrange_rearrange]
  exact .swap _ _ _

end Transform

namespace Pipeline

/-- **Sorts are stable.** A sort welcomes all rows of the width of its schema and passes none on
    before the close. Then it lets out the same rows in another order: their key tuples are in the
    order of the values, or in the reverse order, and rows with the same keys are in the order of
    their arrival, either way. Whatever transforms are before and behind, sorting twice by the same
    keys is sorting once, with the same rows and errors; and sorting by some keys and then by others
    is sorting by the others first and then by the former: both give the same rows or both fail. The
    runs that are compared draw from the same tape. -/
theorem sorts_stably :
    (∀ (schema : Schema) (keys : List Column) (descending : Bool) (positions : List Nat),
      schema.resolveEach keys = .ok positions →
      ∃ stage,
        (∀ entropy, Transform.openOn entropy schema (.sort keys descending) = .ok (stage, schema)) ∧
        ∀ rows : List Row, (∀ row ∈ rows, row.length = schema.width) →
          ∃ out, Releases stage rows out ∧ out.Perm rows ∧
            (out.Pairwise fun a b =>
              (if descending then ((a.keyAt positions).totalCompare (b.keyAt positions)).swap
                else (a.keyAt positions).totalCompare (b.keyAt positions)).isLE) ∧
            ∀ key, out.filter (·.keyAt positions = key) = rows.filter (·.keyAt positions = key)) ∧
    ∀ (source : Source) (before after : List Transform) (options : Options α)
      (session : Session α) (keys keys' : List Column) (descending : Bool),
      let collected (sorts : List Transform) :=
        ((ofTransforms source (before ++ sorts ++ after) options).collectRows session).1
      collected [.sort keys descending, .sort keys descending] =
          collected [.sort keys descending] ∧
        Agree (collected [.sort (keys ++ keys') descending])
          (collected [.sort keys' descending, .sort keys descending]) := by
  refine ⟨fun schema keys descending positions hkeys => ?_, ?_⟩
  · refine ⟨.sort schema.width positions descending [], ?_, fun rows hrows => ?_⟩
    · intro entropy
      rw [Transform.openOn, hkeys]
      rfl
    · exact ⟨sortRows positions descending rows,
        Stage.releases_sort schema.width positions descending hrows,
        List.mergeSort_perm rows _, pairwise_sortRows positions descending rows,
        filter_keyAt_sortRows positions descending rows⟩
  · intro source before after options session keys keys' descending collected
    have hdrawn (ks ks' ks'' : List Column) : Transform.drawn [.sort ks descending] =
        Transform.drawn [.sort ks' descending, .sort ks'' descending] := rfl
    exact ⟨collectRows_congr source options session (hdrawn keys keys keys).symm
        (Transform.effect_sort_sort · · keys descending) before after,
      collectRows_agree source options session (hdrawn (keys ++ keys') keys' keys)
        (Transform.effect_sort_append · · keys keys' descending) before after⟩

/-- Three purchases, two of them by the same customer. -/
def purchases : List Row :=
  [⟨0, [.utf8 "ann", .int64 3]⟩, ⟨1, [.utf8 "bob", .int64 5]⟩, ⟨2, [.utf8 "ann", .int64 1]⟩]

def purchaseSchema : Schema := ⟨[⟨"customer", .utf8⟩, ⟨"amount", .int64⟩]⟩

/-- The purchases of the customer stay in order when the last customers come first. -/
theorem purchases_sorted :
    purchaseSchema.resolveEach [.name "customer"] = .ok [0] ∧
      (∀ row ∈ purchases, row.length = purchaseSchema.width) ∧
      ∃ stage out,
        Transform.openOn (.seeded 0) purchaseSchema (.sort [.name "customer"] true) =
          .ok (stage, purchaseSchema) ∧
        Releases stage purchases out ∧ out.Perm purchases ∧
        out.filter (·.keyAt [0] = .tuple [.utf8 "ann"]) =
          [⟨0, [.utf8 "ann", .int64 3]⟩, ⟨2, [.utf8 "ann", .int64 1]⟩] := by
  have hkeys : purchaseSchema.resolveEach [.name "customer"] = .ok [0] := by decide
  have hrows : ∀ row ∈ purchases, row.length = purchaseSchema.width := by decide
  obtain ⟨hall, -⟩ := @sorts_stably Unit
  obtain ⟨stage, hopen, hsorts⟩ := hall purchaseSchema [.name "customer"] true [0] hkeys
  obtain ⟨out, hreleases, hperm, -, hties⟩ := hsorts purchases hrows
  refine ⟨hkeys, hrows, stage, out, hopen _, hreleases, hperm, ?_⟩
  rw [hties]
  decide

/-- **Filters may be put before sorts.** Behind whatever transforms, sorting and then filtering
    gives the same rows in the same order, with their numbers, as filtering and then sorting, or
    both fail; samples without a seed before them draw alike in both runs, from the tape of the
    session. The errors may differ, since the rows come to the filter in another order. -/
theorem sort_filter_agree (source : Source) (before : List Transform) (keys : List Column)
    (descending : Bool) (predicate : Expr) (negated : Bool) (options : Options α)
    (session : Session α) :
    Agree
      ((ofTransforms source (before ++ [.sort keys descending, .filter predicate negated])
        options).collectRows session).1
      ((ofTransforms source (before ++ [.filter predicate negated, .sort keys descending])
        options).collectRows session).1 := by
  simp only [collectRows_eq_effect, Transform.effect_append, Transform.effect_sort,
    Transform.effect_filter, Transform.effect_nil, bind_assoc, pure_bind]
  refine .bind (.refl _) fun schema _ => .bind (.refl _) fun effect _ => ?_
  -- the keys are resolved and the predicate is prepared in either order
  refine (Agree.swap _ _ _).trans (.bind (.refl _) fun evaluator _ => .bind (.refl _)
    fun positions _ => .bind (.refl _) fun items _ => ?_)
  exact RowStream.sieve_sorted_agree (RowStream.isSieve_filter evaluator negated) positions
    descending _

end Pipeline

end RowFlow
