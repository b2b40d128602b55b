import Redaction.Derivation.Plan
import Redaction.Proofs.Result

/-!
# The steps of a plan and the list of annotated fields

The steps of an arm and the list of annotated fields are made in two passes: the steps count on from
the entries of the arms before, the list is filtered out of all fields at once. The two agree, so
the index of a step leads to the entry of the step's own field.
-/

namespace Redaction.Derivation

/-- The fields as an item declares them, arm by arm; a record is one arm without a variant name. -/
def Body.arms : Body → List (Option String × Shape × List FieldDecl)
  | .struct shape fields => [(none, shape, fields)]
  | .enum variants => variants.map fun v => (some v.name, v.shape, v.fields)
  | .union => []

/-- A planned field is the declared field at a position, treated as its attributes say. -/
structure PlannedField.Plans (f : PlannedField) (position : Nat) (d : FieldDecl) : Prop where
  name_eq : f.name = d.name
  position_eq : f.position = position
  type_eq : f.type = d.type
  treatment_eq : Treatment.ofAttributes d.attributes = .ok f.treatment

/-- An arm plans each declared field at the position where it is declared. -/
structure Arm.Plans (a : Arm) (declared : Option String × Shape × List FieldDecl) : Prop where
  variant_eq : a.variant = declared.1
  shape_eq : a.shape = declared.2.1
  length_eq : a.fields.length = declared.2.2.length
  fields_plan : ∀ (p : Nat) (f : PlannedField) (d : FieldDecl),
    a.fields[p]? = some f → declared.2.2[p]? = some d → f.Plans p d

theorem Arm.Plans.exists_plans {a : Arm} {declared : Option String × Shape × List FieldDecl}
    (h : a.Plans declared) {p : Nat} {f : PlannedField} (hf : a.fields[p]? = some f) :
    ∃ d, declared.2.2[p]? = some d ∧ f.Plans p d := by
  have hlt : p < declared.2.2.length := by
    rw [← h.length_eq]
    exact (List.getElem?_eq_some_iff.mp hf).1
  have hd := List.getElem?_eq_getElem hlt
  exact ⟨_, hd, h.fields_plan p f _ hf hd⟩

theorem planFields_cons {position : Nat} {d : FieldDecl} {rest : List FieldDecl}
    {fields : List PlannedField} (h : planFields position (d :: rest) = .ok fields) :
    ∃ treatment later, Treatment.ofAttributes d.attributes = .ok treatment ∧
      planFields (position + 1) rest = .ok later ∧
        fields = ⟨d.name, position, d.type, treatment⟩ :: later := by
  rw [planFields] at h
  obtain ⟨treatment, ht, h⟩ := bind_eq_ok_iff.mp h
  obtain ⟨later, hl, h⟩ := bind_eq_ok_iff.mp h
  exact ⟨treatment, later, ht, hl, (pure_eq_ok_iff.mp h).symm⟩

theorem length_planFields {position : Nat} {decls : List FieldDecl} {fields : List PlannedField}
    (h : planFields position decls = .ok fields) : fields.length = decls.length := by
  induction decls generalizing position fields with
  | nil =>
      cases h
      rfl
  | cons d rest ih =>
      obtain ⟨treatment, later, -, hl, rfl⟩ := planFields_cons h
      simp [ih hl]

theorem planFields_plans {position : Nat} {decls : List FieldDecl} {fields : List PlannedField}
    (h : planFields position decls = .ok fields) {p : Nat} {f : PlannedField} {d : FieldDecl}
    (hf : fields[p]? = some f) (hd : decls[p]? = some d) : f.Plans (position + p) d := by
  induction decls generalizing position fields p with
  | nil => simp at hd
  | cons first rest ih =>
      obtain ⟨treatment, later, ht, hl, rfl⟩ := planFields_cons h
      cases p with
      | zero =>
          simp only [List.getElem?_cons_zero, Option.some.injEq] at hf hd
          subst hf hd
          exact ⟨rfl, rfl, rfl, ht⟩
      | succ p =>
          have hp := ih hl (by simpa using hf) (by simpa using hd)
          rwa [Nat.add_right_comm, Nat.add_assoc] at hp

theorem arm_plans_of_planFields {variant : Option String} {shape : Shape} {decls : List FieldDecl}
    {fields : List PlannedField} (h : planFields 0 decls = .ok fields) :
    Arm.Plans ⟨variant, shape, fields⟩ (variant, shape, decls) := by
  refine ⟨rfl, rfl, length_planFields h, ?_⟩
  intro p f d hf hd
  simpa using planFields_plans h hf hd

theorem VariantDecl.arm_plans {v : VariantDecl} {a : Arm} (h : v.arm = .ok a) :
    a.Plans (some v.name, v.shape, v.fields) := by
  obtain ⟨fields, hf, rfl⟩ := map_eq_ok_iff.mp h
  exact arm_plans_of_planFields hf

theorem Item.plan_arms {item : Item} {p : Plan} (h : item.plan = .ok p) :
    List.Forall₂ (fun declared a => Arm.Plans a declared) item.body.arms p.arms := by
  unfold Item.plan at h
  split at h
  · next shape fields hb =>
      obtain ⟨planned, hf, rfl⟩ := map_eq_ok_iff.mp h
      rw [hb]
      exact .cons (arm_plans_of_planFields hf) .nil
  · next variants hb =>
      obtain ⟨arms, hm, rfl⟩ := map_eq_ok_iff.mp h
      rw [hb, Body.arms, List.forall₂_map_left_iff]
      exact (mapM_eq_ok_iff.mp hm).imp fun v a ha => VariantDecl.arm_plans ha
  · cases h

/-! ## Steps -/

/-- Whether a step does what the treatment of its field says. An instruction is looked up at an
index where `specs` has the entry of the step's own field. -/
def Step.Aligned (specs : List FieldSpec) (variant : Option String) (s : Step) : Prop :=
  match s.field.treatment with
  | .apply _ instruction => ∃ index, s.action = .apply index ∧
      specs[index]? = some (.ofInstruction (s.field.specName variant) instruction)
  | .nested | .walk => s.action = .walk
  | .skip => False

/-- There is one step for each field that takes part, in the order of the fields. -/
theorem map_field_stepsFrom (index : Nat) (fields : List PlannedField) :
    (stepsFrom index fields).map (·.field) = fields.filter (·.isWalked) := by
  induction fields generalizing index with
  | nil => rfl
  | cons f rest ih =>
      rw [stepsFrom, List.filter_cons]
      cases ht : f.treatment <;> simp [PlannedField.isWalked, ht, ih]

theorem field_mem_of_map_field {steps : List Step} {fields : List PlannedField}
    (h : steps.map (·.field) = fields.filter (·.isWalked)) {s : Step} (hs : s ∈ steps) :
    s.field ∈ fields ∧ s.field.isWalked = true := by
  have hmem := List.mem_map_of_mem (f := Step.field) hs
  rw [h] at hmem
  exact List.mem_filter.mp hmem

/-- The running index of the steps is the number of entries before, which carries the induction. -/
theorem aligned_stepsFrom (variant : Option String) (before after : List FieldSpec)
    (fields : List PlannedField) {s : Step} (hs : s ∈ stepsFrom before.length fields) :
    s.Aligned (before ++ fields.filterMap (·.spec? variant) ++ after) variant := by
  induction fields generalizing before with
  | nil => simp [stepsFrom] at hs
  | cons f rest ih =>
      have hlater : ∀ entry, f.spec? variant = some entry →
          s ∈ stepsFrom (before.length + 1) rest →
            s.Aligned (before ++ (f :: rest).filterMap (·.spec? variant) ++ after) variant := by
        intro entry he hs
        have h := ih (before ++ [entry]) (by simpa using hs)
        simpa [List.filterMap_cons, he] using h
      have hsame : f.spec? variant = none → s ∈ stepsFrom before.length rest →
          s.Aligned (before ++ (f :: rest).filterMap (·.spec? variant) ++ after) variant := by
        intro he hs
        simpa [List.filterMap_cons, he] using ih before hs
      rw [stepsFrom] at hs
      cases ht : f.treatment with
      | apply literal instruction =>
          have he : f.spec? variant = some (.ofInstruction (f.specName variant) instruction) := by
            simp [PlannedField.spec?, ht]
          simp only [ht, List.mem_cons] at hs
          rcases hs with rfl | hs
          · simp [Step.Aligned, ht, he]
          · exact hlater _ he hs
      | nested =>
          have he : f.spec? variant = some (.ofNested (f.specName variant)) := by
            simp [PlannedField.spec?, ht]
          simp only [ht, List.mem_cons] at hs
          rcases hs with rfl | hs
          · simp [Step.Aligned, ht]
          · exact hlater _ he hs
      | walk =>
          simp only [ht, List.mem_cons] at hs
          rcases hs with rfl | hs
          · simp [Step.Aligned, ht]
          · exact hsame (by simp [PlannedField.spec?, ht]) hs
      | skip =>
          simp only [ht] at hs
          exact hsame (by simp [PlannedField.spec?, ht]) hs

/-- The steps of an arm count on from the entries of the arms before it. -/
theorem getElem?_armStepsFrom (index : Nat) (arms : List Arm) (variant : Nat) :
    (armStepsFrom index arms)[variant]? = arms[variant]?.map fun a =>
      stepsFrom (index + ((arms.take variant).flatMap Arm.specs).length) a.fields := by
  induction arms generalizing index variant with
  | nil => simp [armStepsFrom]
  | cons a rest ih =>
      cases variant with
      | zero => simp [armStepsFrom]
      | succ variant =>
          simp only [armStepsFrom, List.getElem?_cons_succ, ih, List.take_succ_cons,
            List.flatMap_cons, List.length_append, Nat.add_assoc]

theorem Plan.length_steps (p : Plan) : p.steps.length = p.arms.length := by
  suffices h : ∀ index arms, (armStepsFrom index arms).length = arms.length from h 0 p.arms
  intro index arms
  induction arms generalizing index with
  | nil => rfl
  | cons a rest ih => simp [armStepsFrom, ih]

theorem Plan.specs_eq (p : Plan) {variant : Nat} {a : Arm} (ha : p.arms[variant]? = some a) :
    p.specs = (p.arms.take variant).flatMap Arm.specs ++ a.specs ++
      (p.arms.drop (variant + 1)).flatMap Arm.specs := by
  obtain ⟨hlt, rfl⟩ := List.getElem?_eq_some_iff.mp ha
  have hsplit : p.arms = p.arms.take variant ++ p.arms[variant] :: p.arms.drop (variant + 1) := by
    rw [← List.drop_eq_getElem_cons hlt, List.take_append_drop]
  calc
    p.specs = (p.arms.take variant ++ p.arms[variant] :: p.arms.drop (variant + 1)).flatMap
        Arm.specs := by rw [← hsplit, Plan.specs]
    _ = _ := by simp only [List.flatMap_append, List.flatMap_cons, List.append_assoc]

/-- Of an arm's steps: the fields they are for, and that each finds its own entry. -/
theorem Plan.steps_aligned (p : Plan) {variant : Nat} {a : Arm}
    (ha : p.arms[variant]? = some a) :
    ∃ steps, p.steps[variant]? = some steps ∧
      steps.map (·.field) = a.fields.filter (·.isWalked) ∧
        ∀ s ∈ steps, s.Aligned p.specs a.variant := by
  refine ⟨_, by rw [Plan.steps, getElem?_armStepsFrom, ha]; rfl, map_field_stepsFrom _ _, ?_⟩
  intro s hs
  rw [Nat.zero_add] at hs
  rw [p.specs_eq ha]
  exact aligned_stepsFrom a.variant _ _ a.fields hs

end Redaction.Derivation
