import RowFlow.Proofs.Step.Opening

/-!
# Distinct Names

Where a transform rebuilds the schema, it checks that no name occurs twice; elsewhere it passes the
schema on. So the columns of all schemas along a pipeline have distinct names if those of the source
do (`Transform.nodup_of_openOn`).
-/

namespace RowFlow

/-! ## Repeated names -/

namespace Schema

theorem nodup_of_repeatedName?_eq_none {seen : List String} {fields : List Field}
    (h : repeatedName? seen fields = none) :
    (fields.map Field.name).Nodup ∧ ∀ name ∈ fields.map Field.name, name ∉ seen := by
  induction fields generalizing seen with
  | nil => exact ⟨.nil, nofun⟩
  | cons field rest ih =>
    unfold repeatedName? at h
    split at h
    · cases h
    · rename_i hnew
      obtain ⟨hnodup, hfresh⟩ := ih h
      have hfield : field.name ∉ seen := fun hmem => hnew (List.contains_iff_mem.2 hmem)
      constructor
      · -- the rest has been searched for the first name too
        exact List.nodup_cons.2 ⟨fun hmem => hfresh _ hmem List.mem_cons_self, hnodup⟩
      · exact List.forall_mem_cons.2
          ⟨hfield, fun name hname hmem => hfresh name hname (List.mem_cons_of_mem _ hmem)⟩

theorem repeatedName?_eq_none {seen : List String} {fields : List Field}
    (hnames : (fields.map Field.name).Nodup)
    (hfresh : ∀ name ∈ fields.map Field.name, name ∉ seen) : repeatedName? seen fields = none := by
  induction fields generalizing seen with
  | nil => rfl
  | cons field rest ih =>
    obtain ⟨hnew, hnames⟩ := List.nodup_cons.1 hnames
    obtain ⟨hfield, hrest⟩ := List.forall_mem_cons.1 hfresh
    rw [repeatedName?, if_neg (mt List.contains_iff_mem.1 hfield)]
    refine ih hnames fun name hname hseen => ?_
    rcases List.mem_cons.1 hseen with rfl | hseen
    · exact hnew hname
    · exact hrest name hname hseen

theorem ofFields_of_nodup {fields : List Field} (h : (fields.map Field.name).Nodup) :
    ofFields fields = .ok ⟨fields⟩ := by
  rw [ofFields, repeatedName?_eq_none h fun _ _ => List.not_mem_nil]

theorem nodup_of_ofFields {fields : List Field} {schema : Schema}
    (h : ofFields fields = .ok schema) : schema.names.Nodup := by
  unfold ofFields at h
  split at h
  · cases h
  · rename_i hnone
    rw [← Except.ok.inj h]
    exact (nodup_of_repeatedName?_eq_none hnone).1

end Schema

/-! ## Opened transforms -/

/-- A transform keeps names distinct. -/
theorem Transform.nodup_of_openOn {entropy : Entropy} {schema output : Schema} {t : Transform}
    {stage : Stage} (h : t.openOn entropy schema = .ok (stage, output))
    (hnames : schema.names.Nodup) : output.names.Nodup := by
  cases opens_of_openOn h with
  | select _ _ houtput => exact Schema.nodup_of_ofFields houtput
  | rename _ _ houtput => exact Schema.nodup_of_ofFields houtput
  | move houtput => exact Schema.nodup_of_ofFields houtput
  | insert _ houtput => exact Schema.nodup_of_ofFields houtput
  | typecast _ houtput => exact Schema.nodup_of_ofFields houtput
  | filter _ | limit _ | update _ _ | sample _ _ | sort _ => exact hnames

end RowFlow
