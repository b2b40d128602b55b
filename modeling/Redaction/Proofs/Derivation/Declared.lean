import Redaction.Proofs.Derivation.Alignment

/-!
# The fields that an item declares

All fields of an item in one row, arm after arm. A plan is made by going over this row: it fails
with the first field whose attributes are at fault, and otherwise lists the annotated fields in the
order of the row.
-/

namespace Redaction.Derivation

/-- A declared field with the name of its variant and its place among the fields there. A field of
a record has no variant. -/
structure DeclaredField where
  variant : Option String
  position : Nat
  decl : FieldDecl

namespace DeclaredField

def label (d : DeclaredField) : String :=
  match d.decl.name with
  | some name => unraw name
  | none => toString d.position

/-- The name under which a field is listed; that of the variant is taken as it is written. -/
def listedName (d : DeclaredField) : String :=
  match d.variant with
  | some v => v ++ "." ++ d.label
  | none => d.label

/-- The entry in the list of annotated fields, for a field that has one. -/
def spec? (d : DeclaredField) : Option FieldSpec :=
  match Treatment.ofAttributes d.decl.attributes with
  | .ok (.apply _ instruction) => some (.ofInstruction d.listedName instruction)
  | .ok .nested => some (.ofNested d.listedName)
  | _ => none

def fault? (d : DeclaredField) : Option ItemError :=
  failure? (Treatment.ofAttributes d.decl.attributes)

theorem name_of_spec? {d : DeclaredField} {spec : FieldSpec} (h : d.spec? = some spec) :
    spec.name = d.listedName := by
  unfold spec? at h
  split at h <;> cases h <;> rfl

end DeclaredField

def fieldsOfArm (variant : Option String) (decls : List FieldDecl) : List DeclaredField :=
  decls.mapIdx fun position decl => ⟨variant, position, decl⟩

def Body.declaredFields (b : Body) : List DeclaredField :=
  b.arms.flatMap fun arm => fieldsOfArm arm.1 arm.2.2

theorem mem_fieldsOfArm_iff {variant : Option String} {decls : List FieldDecl}
    {d : DeclaredField} :
    d ∈ fieldsOfArm variant decls ↔ d.variant = variant ∧ decls[d.position]? = some d.decl := by
  rw [fieldsOfArm, List.mem_mapIdx]
  constructor
  · rintro ⟨i, hi, rfl⟩
    exact ⟨rfl, List.getElem?_eq_getElem hi⟩
  · rintro ⟨rfl, hd⟩
    obtain ⟨hi, hd⟩ := List.getElem?_eq_some_iff.mp hd
    exact ⟨d.position, hi, by rw [hd]⟩

theorem mem_declaredFields_iff {b : Body} {d : DeclaredField} :
    d ∈ b.declaredFields ↔
      ∃ arm ∈ b.arms, d.variant = arm.1 ∧ arm.2.2[d.position]? = some d.decl := by
  simp only [Body.declaredFields, List.mem_flatMap, mem_fieldsOfArm_iff]

theorem map_decl_fieldsOfArm (variant : Option String) (decls : List FieldDecl) :
    (fieldsOfArm variant decls).map (·.decl) = decls := by
  refine List.ext_getElem (by simp [fieldsOfArm]) ?_
  intro i hi hi'
  simp [fieldsOfArm]

/-! ## The plan of the row -/

/-- The plan of an arm as it is declared. -/
def planArm (declared : Option String × Shape × List FieldDecl) : Except ItemError Arm :=
  (planFields 0 declared.2.2).map fun fields => ⟨declared.1, declared.2.1, fields⟩

theorem Item.plan_eq_mapM {item : Item} (h : item.body ≠ .union) :
    item.plan = (item.body.arms.mapM planArm).map Plan.mk := by
  unfold Item.plan
  split
  · next shape decls hb =>
      rw [hb, Body.arms, List.mapM_cons, planArm]
      cases planFields 0 decls <;> rfl
  · next variants hb =>
      rw [hb, Body.arms, List.mapM_map]
      rfl
  · next hb => exact absurd hb h

theorem failure?_planFields (position : Nat) (decls : List FieldDecl) :
    failure? (planFields position decls) =
      decls.findSome? fun decl => failure? (Treatment.ofAttributes decl.attributes) := by
  induction decls generalizing position with
  | nil => rfl
  | cons decl rest ih =>
      have hlater : ∀ treatment : Treatment, failure? (do
          let later ← planFields (position + 1) rest
          pure (PlannedField.mk decl.name position decl.type treatment :: later)) =
            rest.findSome? fun decl => failure? (Treatment.ofAttributes decl.attributes) := by
        intro treatment
        rw [failure?_bind_of_none fun later _ => rfl, ih]
      rw [planFields, failure?_bind fun treatment _ => hlater treatment, List.findSome?_cons]
      cases failure? (Treatment.ofAttributes decl.attributes) <;> rfl

theorem failure?_planArm (declared : Option String × Shape × List FieldDecl) :
    failure? (planArm declared) =
      (fieldsOfArm declared.1 declared.2.2).findSome? DeclaredField.fault? := by
  have hrow := map_decl_fieldsOfArm declared.1 declared.2.2
  rw [planArm, failure?_map, failure?_planFields, ← hrow, List.findSome?_map, hrow]
  rfl

/-- A plan fails with the first field of the row that is at fault. -/
theorem Item.failure?_plan {item : Item} (h : item.body ≠ .union) :
    failure? item.plan = item.body.declaredFields.findSome? DeclaredField.fault? := by
  rw [plan_eq_mapM h, failure?_map, failure?_mapM, Body.declaredFields, findSome?_flatMap]
  simp only [failure?_planArm]

/-! ## The list of annotated fields -/

theorem PlannedField.spec?_eq {f : PlannedField} {position : Nat} {decl : FieldDecl}
    (h : f.Plans position decl) (variant : Option String) :
    f.spec? variant = DeclaredField.spec? ⟨variant, position, decl⟩ := by
  obtain ⟨name, position, type, treatment⟩ := f
  obtain ⟨hname, hposition, -, ht⟩ := h
  cases hname
  cases hposition
  simp only [DeclaredField.spec?, ht]
  cases treatment <;> rfl

theorem specs_planFields {position : Nat} {decls : List FieldDecl} {fields : List PlannedField}
    (h : planFields position decls = .ok fields) (variant : Option String) :
    fields.filterMap (·.spec? variant) =
      (decls.mapIdx fun i decl => DeclaredField.mk variant (position + i) decl).filterMap
        DeclaredField.spec? := by
  induction decls generalizing position fields with
  | nil =>
      cases h
      rfl
  | cons decl rest ih =>
      obtain ⟨treatment, later, ht, hl, rfl⟩ := planFields_cons h
      have hfirst : PlannedField.spec? variant ⟨decl.name, position, decl.type, treatment⟩ =
          DeclaredField.spec? ⟨variant, position, decl⟩ :=
        PlannedField.spec?_eq ⟨rfl, rfl, rfl, ht⟩ variant
      rw [List.mapIdx_cons, List.filterMap_cons, List.filterMap_cons, hfirst, Nat.add_zero, ih hl]
      simp only [Nat.add_assoc, Nat.add_comm 1]

theorem specs_planArm {declared : Option String × Shape × List FieldDecl} {a : Arm}
    (h : planArm declared = .ok a) :
    a.specs = (fieldsOfArm declared.1 declared.2.2).filterMap DeclaredField.spec? := by
  obtain ⟨fields, hf, rfl⟩ := map_eq_ok_iff.mp h
  have hspecs := specs_planFields hf declared.1
  simp only [Nat.zero_add] at hspecs
  exact hspecs

theorem flatMap_specs {declared : List (Option String × Shape × List FieldDecl)} {arms : List Arm}
    (h : List.Forall₂ (fun d a => planArm d = .ok a) declared arms) :
    arms.flatMap Arm.specs = (declared.flatMap fun arm => fieldsOfArm arm.1 arm.2.2).filterMap
      DeclaredField.spec? := by
  induction h with
  | nil => rfl
  | cons ha _ ih =>
      rw [List.flatMap_cons, List.flatMap_cons, List.filterMap_append, specs_planArm ha, ih]

/-- A plan lists the annotated fields of the row, and no others. -/
theorem Item.specs_plan {item : Item} {p : Plan} (h : item.plan = .ok p) :
    p.specs = item.body.declaredFields.filterMap DeclaredField.spec? := by
  have hbody : item.body ≠ .union := by
    intro hb
    rw [Item.plan, hb] at h
    cases h
  rw [plan_eq_mapM hbody] at h
  obtain ⟨arms, hm, rfl⟩ := map_eq_ok_iff.mp h
  exact flatMap_specs (mapM_eq_ok_iff.mp hm)

end Redaction.Derivation
