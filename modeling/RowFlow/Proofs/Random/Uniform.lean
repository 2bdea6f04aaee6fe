import Mathlib.Combinatorics.Enumerative.DoubleCounting
import Mathlib.Data.List.GetD
import RowFlow.Proofs.Random.Reservoir
import RowFlow.Proofs.Random.Script

/-!
# Reservoirs Hold Every Set of Places Alike

A reservoir with `size` places draws a position at each row from row `size` on, among the places of
all rows so far. The answers determine the places that it holds at the end (`places`), and each set
of `size` places is held for the same number of lists of answers (`card_places`): a set of places
has as many predecessors in the draw before as that draw has answers beyond the first `size - 1`.
With independent uniform draws, all sets are therefore equally likely
(`Reservoir.places_equally_likely`).
-/

namespace RowFlow

open Nat (factorial)

namespace Reservoir

/-! ## Places held -/

/-- The places in a reservoir after some draws. The answer to a draw is the position whose place is
    exchanged for the place of the new row; beyond the reservoir, there is none. -/
def places (size : Nat) (answers : List Nat) : List Nat :=
  answers.zipIdx.foldl (fun held (answer, draw) => held.set answer (size + draw)) (List.range size)

/-- The last draw exchanges one place. -/
theorem places_concat (size : Nat) (answers : List Nat) (answer : Nat) :
    places size (answers ++ [answer]) =
      (places size answers).set answer (size + answers.length) := by
  simp [places, List.zipIdx_append]

/-- A reservoir of a size holds as many places. -/
theorem length_places (size : Nat) (answers : List Nat) :
    (places size answers).length = size := by
  -- draws are added at the end, so the induction is on the last one
  induction answers using List.reverseRecOn with
  | nil => exact List.length_range
  | append_singleton answers answer ih => rw [places_concat, List.length_set, ih]

/-- All places are those of rows so far. -/
theorem lt_of_mem_places {size : Nat} {answers : List Nat} :
    ∀ place ∈ places size answers, place < size + answers.length := by
  induction answers using List.reverseRecOn with
  | nil => exact fun place h => List.mem_range.1 h
  | append_singleton answers answer ih =>
    intro place hplace
    rw [places_concat] at hplace
    rw [List.length_append, List.length_singleton]
    rcases List.mem_or_eq_of_mem_set hplace with h | rfl
    · have := ih place h
      omega
    · omega

/-- No place is held twice. -/
theorem nodup_places (size : Nat) (answers : List Nat) : (places size answers).Nodup := by
  induction answers using List.reverseRecOn with
  | nil => exact List.nodup_range
  | append_singleton answers answer ih =>
    rw [places_concat]
    -- the new place is greater than all that are held
    exact ih.set fun h => Nat.lt_irrefl _ (lt_of_mem_places _ h)

/-- The places in a reservoir are some of those so far, as many as it has room for. -/
theorem places_mem_powersetCard (size : Nat) (answers : List Nat) :
    (places size answers).toFinset ∈
      (Finset.range (size + answers.length)).powersetCard size := by
  rw [Finset.mem_powersetCard, List.toFinset_card_of_nodup (nodup_places size answers)]
  refine ⟨fun place h => ?_, length_places size answers⟩
  exact Finset.mem_range.2 (lt_of_mem_places place (List.mem_toFinset.1 h))

/-! ## Predecessors of a set of places -/

section
variable {held : List Nat} {slot place : Nat} {target : Finset Nat}

/-- An exchange takes one place out of the set and puts another in. -/
theorem toFinset_set (hnodup : held.Nodup) (hslot : slot < held.length) :
    (held.set slot place).toFinset = insert place (held.toFinset.erase held[slot]) := by
  -- as a set, the exchanged list is the new place and the others
  rw [List.toFinset_eq_of_perm _ _ (List.set_perm_cons_eraseIdx hslot place), List.toFinset_cons,
    ← hnodup.erase_getElem slot hslot]
  ext other
  simp [hnodup.mem_erase_iff]

/-- A set of places with a new one has come from the sets with any other place instead. -/
theorem toFinset_set_eq_iff_of_mem (hnodup : held.Nodup) (hnew : place ∉ held)
    (hmem : place ∈ target) :
    (held.set slot place).toFinset = target ↔ ∃ hslot : slot < held.length,
      held[slot] ∉ target.erase place ∧ held.toFinset = insert held[slot] (target.erase place) := by
  constructor
  · intro heq
    -- beyond the reservoir nothing is exchanged, and the new place would be missing
    have hslot : slot < held.length := by
      by_contra hbeyond
      rw [List.set_eq_of_length_le (Nat.not_lt.1 hbeyond)] at heq
      exact hnew (List.mem_toFinset.1 (heq ▸ hmem))
    have hrest : held.toFinset.erase held[slot] = target.erase place := by
      rw [← heq, toFinset_set hnodup hslot, Finset.erase_insert]
      exact fun h => hnew (List.mem_toFinset.1 (Finset.mem_of_mem_erase h))
    rw [← hrest]
    exact ⟨hslot, Finset.notMem_erase _ _,
      (Finset.insert_erase (List.mem_toFinset.2 (List.getElem_mem hslot))).symm⟩
  · rintro ⟨hslot, hout, heq⟩
    rw [toFinset_set hnodup hslot, heq, Finset.erase_insert hout, Finset.insert_erase hmem]

/-- A set of places without the new one has come from itself. -/
theorem toFinset_set_eq_iff_of_notMem (hmem : place ∉ target) :
    (held.set slot place).toFinset = target ↔ held.length ≤ slot ∧ held.toFinset = target := by
  constructor
  · intro heq
    -- within the reservoir the new place would be put in
    have hbeyond : held.length ≤ slot := by
      by_contra hslot
      exact hmem (heq ▸ List.mem_toFinset.2 (List.mem_set (Nat.not_le.1 hslot) place))
    rw [List.set_eq_of_length_le hbeyond] at heq
    exact ⟨hbeyond, heq⟩
  · rintro ⟨hbeyond, heq⟩
    rw [List.set_eq_of_length_le hbeyond, heq]

/-- As many answers lead to a set of places with a new one as there are places that may have been
    exchanged. -/
theorem card_slots_of_mem (hnodup : held.Nodup) (hnew : place ∉ held) (hmem : place ∈ target)
    (hheld : held.toFinset ⊆ Finset.range place) (hlength : held.length ≤ place) :
    ((Finset.range (place + 1)).filter fun slot => (held.set slot place).toFinset = target).card =
      ((Finset.range place \ target.erase place).filter fun other =>
        held.toFinset = insert other (target.erase place)).card := by
  simp only [toFinset_set_eq_iff_of_mem hnodup hnew hmem]
  -- a slot is counted with the place that stands in it, and no place stands in two
  refine Finset.card_bij (fun slot _ => held.getD slot 0) ?_ ?_ ?_
  · intro slot hslot
    obtain ⟨hslot, hout, heq⟩ := (Finset.mem_filter.1 hslot).2
    rw [List.getD_eq_getElem _ _ hslot, Finset.mem_filter, Finset.mem_sdiff]
    exact ⟨⟨hheld (List.mem_toFinset.2 (List.getElem_mem hslot)), hout⟩, heq⟩
  · intro slot hslot slot' hslot' hsame
    obtain ⟨hslot, -⟩ := (Finset.mem_filter.1 hslot).2
    obtain ⟨hslot', -⟩ := (Finset.mem_filter.1 hslot').2
    rw [List.getD_eq_getElem _ _ hslot, List.getD_eq_getElem _ _ hslot'] at hsame
    exact (hnodup.getElem_inj_iff).1 hsame
  · intro other hother
    obtain ⟨hother, heq⟩ := Finset.mem_filter.1 hother
    have hin : other ∈ held :=
      List.mem_toFinset.1 (heq ▸ Finset.mem_insert_self other (target.erase place))
    obtain ⟨slot, hslot, rfl⟩ := List.getElem_of_mem hin
    have hrange : slot ∈ Finset.range (place + 1) := Finset.mem_range.2 (by omega)
    exact ⟨slot, Finset.mem_filter.2 ⟨hrange, hslot, (Finset.mem_sdiff.1 hother).2, heq⟩,
      List.getD_eq_getElem _ _ hslot⟩

/-- A draw leads to a set of places from `place + 1 - size` sets, counted with the answers that lead
    there. -/
theorem exists_predecessors {size : Nat}
    (htarget : target ∈ (Finset.range (place + 1)).powersetCard size) (hplace : size ≤ place) :
    ∃ (ways : Finset Nat) (before : Nat → Finset Nat), ways.card = place + 1 - size ∧
      (∀ way ∈ ways, before way ∈ (Finset.range place).powersetCard size) ∧
      ∀ held : List Nat, held.Nodup → held.toFinset ∈ (Finset.range place).powersetCard size →
        ((Finset.range (place + 1)).filter fun slot =>
            (held.set slot place).toFinset = target).card =
          (ways.filter fun way => held.toFinset = before way).card := by
  obtain ⟨hsubset, hcard⟩ := Finset.mem_powersetCard.1 htarget
  rw [Finset.range_add_one] at hsubset
  by_cases hmem : place ∈ target
  · -- any place outside the rest of the set may have been exchanged for the new one
    have hrest : target.erase place ⊆ Finset.range place := Finset.subset_insert_iff.1 hsubset
    have hcard' : (target.erase place).card + 1 = size := hcard ▸ Finset.card_erase_add_one hmem
    refine ⟨Finset.range place \ target.erase place, fun way => insert way (target.erase place),
      ?_, ?_, ?_⟩
    · rw [Finset.card_sdiff_of_subset hrest, Finset.card_range]
      omega
    · intro way hway
      obtain ⟨hway, hout⟩ := Finset.mem_sdiff.1 hway
      rw [Finset.mem_powersetCard, Finset.card_insert_of_notMem hout]
      exact ⟨Finset.insert_subset hway hrest, hcard'⟩
    · intro held hnodup hheld
      obtain ⟨hheld, hlength⟩ := Finset.mem_powersetCard.1 hheld
      rw [List.toFinset_card_of_nodup hnodup] at hlength
      -- the place of the new row is greater than all before
      have hnew : place ∉ held := fun h => Finset.notMem_range_self
        (hheld (List.mem_toFinset.2 h))
      exact card_slots_of_mem hnodup hnew hmem hheld (hlength.trans_le hplace)
  · -- the set has been there before, and the answer was beyond the reservoir
    refine ⟨Finset.Ico size (place + 1), fun _ => target, Nat.card_Ico _ _, ?_, ?_⟩
    · exact fun _ _ => Finset.mem_powersetCard.2
        ⟨(Finset.subset_insert_iff_of_notMem hmem).1 hsubset, hcard⟩
    · intro held hnodup hheld
      have hlength : held.length = size :=
        (List.toFinset_card_of_nodup hnodup).symm.trans (Finset.mem_powersetCard.1 hheld).2
      congr 1
      ext slot
      simp only [Finset.mem_filter, Finset.mem_range, Finset.mem_Ico,
        toFinset_set_eq_iff_of_notMem hmem, hlength]
      tauto

end

/-! ## Lists of answers -/

/-- A list of answers has one for each draw. -/
theorem length_of_mem_answersTo {size draws : Nat} {answers : List Nat}
    (h : answers ∈ answersTo (List.range' size draws)) : answers.length = draws :=
  (mem_answersTo.1 h).length_eq.trans List.length_range'

/-- Every set of places is held after as many lists of answers. -/
theorem card_places {size draws : Nat} {target : Finset Nat}
    (htarget : target ∈ (Finset.range (size + draws)).powersetCard size) :
    ((answersTo (List.range' size draws)).filter fun answers =>
      (places size answers).toFinset = target).card = factorial draws := by
  induction draws generalizing target with
  -- without a draw the reservoir holds the first places
  | zero =>
    have hrange : target = Finset.range size :=
      Finset.eq_of_subset_of_card_le (Finset.mem_powersetCard.1 htarget).1
        (by rw [Finset.card_range]; exact (Finset.mem_powersetCard.1 htarget).2.ge)
    simp [answersTo, hrange, places, Finset.filter_singleton, List.toFinset_range]
  | succ draws ih =>
    rw [← Nat.add_assoc] at htarget
    obtain ⟨ways, before, hways, hbefore, hcount⟩ :=
      exists_predecessors htarget (Nat.le_add_right size draws)
    rw [List.range'_1_concat, card_filter_answersTo_concat]
    -- draws before the last one are counted by the set that they lead to, which is one of the
    -- predecessors
    calc ∑ answers ∈ answersTo (List.range' size draws),
          ((Finset.range (size + draws + 1)).filter fun answer =>
            (places size (answers ++ [answer])).toFinset = target).card
      _ = ∑ answers ∈ answersTo (List.range' size draws),
          (ways.filter fun way => (places size answers).toFinset = before way).card := by
        refine Finset.sum_congr rfl fun answers hanswers => ?_
        have hlength := length_of_mem_answersTo hanswers
        simp only [places_concat, hlength]
        exact hcount _ (nodup_places size answers) (hlength ▸ places_mem_powersetCard size answers)
      _ = ∑ way ∈ ways, ((answersTo (List.range' size draws)).filter fun answers =>
            (places size answers).toFinset = before way).card :=
        Finset.sum_card_bipartiteAbove_eq_sum_card_bipartiteBelow _
      _ = ∑ way ∈ ways, factorial draws :=
        Finset.sum_congr rfl fun way hway => ih (hbefore way hway)
      _ = factorial (draws + 1) := by
        rw [Finset.sum_const, hways, smul_eq_mul, Nat.factorial_succ]
        congr 1
        omega

/-- Each list of answers leads to one of the sets of places. -/
theorem card_answersTo (size draws : Nat) :
    (answersTo (List.range' size draws)).card =
      (size + draws).choose size * factorial draws := by
  -- the fibres of the map from answers to sets of places are all of one size
  have hmaps (answers : List Nat) (h : answers ∈ answersTo (List.range' size draws)) :
      (places size answers).toFinset ∈ (Finset.range (size + draws)).powersetCard size := by
    have hplaces := places_mem_powersetCard size answers
    rwa [length_of_mem_answersTo h] at hplaces
  rw [Finset.card_eq_sum_card_fiberwise hmaps, Finset.sum_congr rfl fun _ h => card_places h,
    Finset.sum_const, Finset.card_powersetCard, Finset.card_range, smul_eq_mul]

/-! ## Reservoirs under a script -/

/-- A full reservoir has drawn `answers`, one at each row from row `size` on, and `later` are the
    answers to come. -/
structure HasDrawn (reservoir : Reservoir Script) (size : Nat) (answers later : List Nat) :
    Prop where
  size_eq : reservoir.size = size
  seen_eq : reservoir.seen = size + answers.length
  places_eq : reservoir.held.map Prod.fst = places size answers
  generator_eq : reservoir.generator = ⟨later, List.range' size answers.length⟩

namespace HasDrawn

variable {reservoir : Reservoir Script} {size : Nat} {answers later : List Nat}

/-- After the first rows a reservoir is full and has drawn nothing. -/
theorem start {rows : List Row} (hrows : rows.length = size) (later : List Nat) :
    (rows.foldl offer (start size ⟨later, []⟩)).HasDrawn size [] later := by
  rw [foldl_offer_of_le hrows.le]
  refine ⟨rfl, hrows, ?_, rfl⟩
  simp [places, List.range_eq_range', Function.comp_def, ← hrows]

/-- The next row draws the next answer. -/
theorem offer {answer : Nat} (h : reservoir.HasDrawn size answers (answer :: later))
    (hsize : 0 < size) (row : Row) :
    (reservoir.offer row).HasDrawn size (answers ++ [answer]) later := by
  -- the held places are as many as the size
  have hfull : reservoir.held.length = reservoir.size := by
    rw [← List.length_map Prod.fst, h.places_eq, length_places, h.size_eq]
  rw [offer_of_full row hfull (h.size_eq ▸ hsize), h.generator_eq, h.seen_eq]
  refine ⟨h.size_eq, ?_, ?_, ?_⟩
  · rw [List.length_append, List.length_singleton, Nat.add_assoc]
  · rw [places_concat, ← h.places_eq]
    exact List.map_set
  · rw [List.length_append, List.length_singleton, List.range'_1_concat]
    rfl

/-- All further rows draw all further answers. -/
theorem offers (h : reservoir.HasDrawn size answers later) (hsize : 0 < size) {rows : List Row}
    (hrows : rows.length = later.length) :
    (rows.foldl Reservoir.offer reservoir).HasDrawn size (answers ++ later) [] := by
  induction later generalizing reservoir answers rows with
  | nil =>
    rw [List.append_nil, List.length_eq_zero_iff.1 hrows]
    exact h
  | cons answer later ih =>
    obtain ⟨row, rows, rfl⟩ := List.exists_cons_of_length_eq_add_one hrows
    have hrest := ih (h.offer hsize row) (Nat.succ.inj hrows)
    rwa [List.append_assoc] at hrest

end HasDrawn

/-- A reservoir after some rows, with its positions from a list. -/
def replay (size : Nat) (answers : List Nat) (rows : List Row) : Reservoir Script :=
  rows.foldl offer (start size ⟨answers, []⟩)

/-- A reservoir that is replayed has drawn all answers. -/
theorem hasDrawn_replay {size : Nat} (hsize : 0 < size) {answers : List Nat} {rows : List Row}
    (hrows : rows.length = size + answers.length) :
    (replay size answers rows).HasDrawn size answers [] := by
  have hfirst : (rows.take size).length = size := by
    rw [List.length_take]
    omega
  have hrest : (rows.drop size).length = answers.length := by
    rw [List.length_drop]
    omega
  -- the first rows fill the reservoir, and each of the others draws
  have h := (HasDrawn.start hfirst answers).offers hsize hrest
  rwa [← List.foldl_append, List.take_append_drop, List.nil_append] at h

/-! ## Sets of places -/

/-- A reservoir holds exactly the rows of a stream that stand at some places. -/
structure HoldsAt (reservoir : Reservoir Script) (rows : List Row) (target : Finset Nat) :
    Prop where
  holds : reservoir.Holds rows
  places_eq : (reservoir.held.map Prod.fst).toFinset = target

/-- The rows at the places are let out, in order. -/
theorem HoldsAt.rows_eq {reservoir : Reservoir Script} {rows : List Row} {target : Finset Nat}
    (h : reservoir.HoldsAt rows target) : reservoir.rows = pick target.sort rows := by
  rw [h.holds.rows_eq_pick, h.places_eq]

theorem holdsAt_replay_iff {size : Nat} (hsize : 0 < size) {answers : List Nat} {rows : List Row}
    (hrows : rows.length = size + answers.length) {target : Finset Nat} :
    (replay size answers rows).HoldsAt rows target ↔
      (places size answers).toFinset = target := by
  have hplaces := (hasDrawn_replay hsize hrows).places_eq
  constructor
  · intro h
    rw [← hplaces]
    exact h.places_eq
  · intro h
    exact ⟨(holds_start size _).offers rows, hplaces ▸ h⟩

open scoped Classical in
/-- The lists of answers after which a reservoir holds some places are as many for each set of
    places. -/
theorem card_filter_holdsAt {size : Nat} {rows : List Row} (hsize : 0 < size)
    (hrows : size ≤ rows.length) {target : Finset Nat}
    (htarget : target ∈ (Finset.range rows.length).powersetCard size) :
    ((answersTo (List.range' size (rows.length - size))).filter fun answers =>
      (replay size answers rows).HoldsAt rows target).card = factorial (rows.length - size) := by
  rw [← Nat.add_sub_cancel' hrows] at htarget
  rw [← card_places htarget]
  refine congrArg Finset.card (Finset.filter_congr fun answers hanswers => ?_)
  have hlength := length_of_mem_answersTo hanswers
  exact holdsAt_replay_iff hsize (by omega)

/-- **All samples are equally likely.** A reservoir with `size` places that is fed a stream of at
    least as many rows draws one position for each row from row `size` on, among the places of all
    rows up to that one. Of the lists of answers, `(rows.length - size)!` let it end up with the
    rows at given `size` places, whichever these are. With independent uniform draws, each set of
    `size` places is thus held with the same probability. -/
theorem places_equally_likely {size : Nat} {rows : List Row} (hsize : 0 < size)
    (hrows : size ≤ rows.length) :
    (∀ answers ∈ answersTo (List.range' size (rows.length - size)),
      (replay size answers rows).generator =
        ⟨[], List.range' size (rows.length - size)⟩) ∧
    ∀ target ∈ (Finset.range rows.length).powersetCard size,
      {answers | answers ∈ answersTo (List.range' size (rows.length - size)) ∧
        (replay size answers rows).HoldsAt rows target}.ncard =
          factorial (rows.length - size) ∧
      ((drawn (List.range' size (rows.length - size))).map fun answers =>
        replay size answers rows).toOuterMeasure
          {reservoir | reservoir.HoldsAt rows target} =
            (rows.length.choose size : ENNReal)⁻¹ := by
  classical
  refine ⟨fun answers hanswers => ?_, fun target htarget => ⟨?_, ?_⟩⟩
  · have hlength := length_of_mem_answersTo hanswers
    rw [(hasDrawn_replay hsize (by omega)).generator_eq, hlength]
  · rw [← Finset.coe_filter, Set.ncard_coe_finset, card_filter_holdsAt hsize hrows htarget]
  · rw [PMF.toOuterMeasure_map_apply, drawn_eq_uniform, PMF.toOuterMeasure_uniformOfFinset_apply]
    simp only [Set.mem_preimage, Set.mem_ofPred_eq]
    have hdraws : (factorial (rows.length - size) : ENNReal) ≠ 0 :=
      Nat.cast_ne_zero.2 (Nat.factorial_ne_zero _)
    have hfinite (n : Nat) : (n : ENNReal) ≠ ⊤ := ENNReal.natCast_ne_top n
    rw [card_filter_holdsAt hsize hrows htarget, card_answersTo, Nat.add_sub_cancel' hrows,
      Nat.cast_mul, ENNReal.div_eq_inv_mul, ENNReal.mul_inv (.inr (hfinite _)) (.inl (hfinite _)),
      mul_assoc, ENNReal.inv_mul_cancel hdraws (hfinite _), mul_one]

/-- With one place for three rows, each row is held after two of the six lists of answers. -/
theorem last_of_three_equally_likely :
    let rows : List Row := [⟨0, [.null]⟩, ⟨1, [.bool true]⟩, ⟨2, [.null]⟩]
    {answers | answers ∈ answersTo [1, 2] ∧ (replay 1 answers rows).HoldsAt rows {2}}.ncard = 2 ∧
      ((drawn [1, 2]).map fun answers => replay 1 answers rows).toOuterMeasure
        {reservoir | reservoir.HoldsAt rows {2}} = 3⁻¹ := by
  intro rows
  have hrows : 1 ≤ rows.length := by decide
  have htarget : {2} ∈ (Finset.range rows.length).powersetCard 1 := by decide
  have hrequests : List.range' 1 (rows.length - 1) = [1, 2] := rfl
  have hchoose : rows.length.choose 1 = 3 := rfl
  obtain ⟨hcount, hchance⟩ := (places_equally_likely Nat.one_pos hrows).2 {2} htarget
  rw [hrequests] at hcount hchance
  rw [hchoose] at hchance
  exact ⟨hcount, hchance⟩

end Reservoir

end RowFlow
