import Redaction.Proofs.Rule.Segments
import Redaction.Record.Metadata

/-!
# What compiled metadata holds

The metadata of a type has one entry for each of its annotated fields, in the same order, and the
evaluator of an entry is compiled from the instruction of the same field.
-/

namespace Redaction

variable {σ : Type}

/-- An evaluator is compiled from an instruction with the factories in some state. -/
def Evaluator.CompiledFrom (e : Evaluator) (registry : Registry σ) (instruction : String) : Prop :=
  ∃ factories, ((compile registry instruction).runFrom factories).1 = .ok e

theorem Evaluator.CompiledFrom.exists_madeOf {registry : Registry σ} {e : Evaluator}
    {instruction : String} (h : e.CompiledFrom registry instruction) :
    ∀ r ∈ e.rules, ∃ seg s t, r.MadeOf registry seg s t := by
  obtain ⟨factories, hc⟩ := h
  obtain ⟨-, segs, -, -, hmade⟩ := compileNodes_eq_ok_iff.mp (Prod.ext (y := (_, _)) hc rfl)
  exact hmade.forall_mem fun seg r s t hrule => ⟨seg, s, t, hrule⟩

/-- The entry of metadata that a specification is compiled to. -/
structure FieldMetadata.CompiledFrom (entry : FieldMetadata) (registry : Registry σ)
    (spec : FieldSpec) : Prop where
  name_eq : entry.name = spec.name
  nested_eq : entry.nested = spec.nested
  evaluator_none : spec.instruction = none → entry.evaluator = none
  evaluator_some : ∀ instruction, spec.instruction = some instruction →
    ∃ e, entry.evaluator = some e ∧ e.CompiledFrom registry instruction

namespace Metadata

variable {registry : Registry σ} {typeName : String}

theorem compileField_eq_ok {spec : FieldSpec} {entry : FieldMetadata} {s u : σ}
    (h : (compileField registry typeName spec).runFrom s = (.ok entry, u)) :
    entry.CompiledFrom registry spec := by
  obtain ⟨evaluator, t, he, h⟩ := CompileM.runFrom_bind_eq_ok_iff.mp h
  cases h
  refine ⟨rfl, rfl, ?_, ?_⟩
  · intro hn
    rw [hn, Option.mapM_none] at he
    cases he
    rfl
  · intro instruction hi
    rw [hi, Option.mapM_some] at he
    obtain ⟨e, hc, rfl⟩ := CompileM.runFrom_map_eq_ok_iff.mp he
    exact ⟨e, rfl, s, congrArg Prod.fst (CompileM.runFrom_adapt_eq_ok_iff.mp hc)⟩

theorem compile_eq_ok {specs : List FieldSpec} {m : Metadata} {s : σ}
    (h : ((compile registry typeName specs).runFrom s).1 = .ok m) :
    m.typeName = typeName ∧
      List.Forall₂ (fun spec entry => FieldMetadata.CompiledFrom entry registry spec) specs
        m.fields := by
  rcases hr : (compile registry typeName specs).runFrom s with ⟨result, u⟩
  rw [hr] at h
  cases h
  obtain ⟨fields, t, hf, h⟩ := CompileM.runFrom_bind_eq_ok_iff.mp hr
  cases h
  refine ⟨rfl, (CompileM.runFrom_mapM_eq_ok_iff.mp hf).forall₂.imp ?_⟩
  rintro spec entry ⟨a, b, he⟩
  exact compileField_eq_ok he

theorem getElem?_of_compile_eq_ok {specs : List FieldSpec} {m : Metadata} {s : σ}
    (h : ((compile registry typeName specs).runFrom s).1 = .ok m) {index : Nat} {spec : FieldSpec}
    (hs : specs[index]? = some spec) :
    ∃ entry, m.fields[index]? = some entry ∧ entry.CompiledFrom registry spec :=
  exists_getElem?_of_forall₂ (compile_eq_ok h).2 hs

theorem compileField_eq_error {spec : FieldSpec} {e : RedactError} {s u : σ}
    (h : (compileField registry typeName spec).runFrom s = (.error e, u)) :
    ∃ source, e = .compile typeName spec.name source := by
  rcases CompileM.runFrom_bind_eq_error_iff.mp h with he | ⟨evaluator, t, -, h⟩
  · cases hi : spec.instruction with
    | none =>
        rw [hi, Option.mapM_none] at he
        cases he
    | some instruction =>
        rw [hi, Option.mapM_some] at he
        have hc := CompileM.runFrom_map_eq_error_iff.mp he
        obtain ⟨source, -, rfl⟩ := CompileM.runFrom_adapt_eq_error_iff.mp hc
        exact ⟨source, rfl⟩
  · cases h

/-- A type is left without metadata only by the instruction of one of its fields. -/
theorem compile_eq_error {specs : List FieldSpec} {e : RedactError} {s : σ}
    (h : ((compile registry typeName specs).runFrom s).1 = .error e) :
    ∃ spec ∈ specs, ∃ source, e = .compile typeName spec.name source := by
  rcases hr : (compile registry typeName specs).runFrom s with ⟨result, u⟩
  rw [hr] at h
  cases h
  rcases CompileM.runFrom_bind_eq_error_iff.mp hr with hf | ⟨fields, t, -, h⟩
  · obtain ⟨spec, hs, a, b, he⟩ := CompileM.exists_runFrom_of_mapM_eq_error hf
    exact ⟨spec, hs, compileField_eq_error he⟩
  · cases h

theorem steady_compileField (h : registry.Steady) (spec : FieldSpec) :
    (compileField registry typeName spec).Steady := by
  have hevaluator : (spec.instruction.mapM fun instruction => (Redaction.compile registry
      instruction).adapt (.compile typeName spec.name) : CompileM RedactError σ _).Steady := by
    cases spec.instruction with
    | none => exact CompileM.steady_pure none
    | some instruction =>
        rw [Option.mapM_some]
        exact ((steady_compileNodes h instruction _).adapt _).map some
  exact hevaluator.bind fun evaluator => CompileM.steady_pure _

theorem steady_compile (h : registry.Steady) (specs : List FieldSpec) :
    (compile registry typeName specs).Steady :=
  (CompileM.Steady.mapM fun spec _ => steady_compileField h spec).bind fun _ =>
    CompileM.steady_pure _

/-! ## The first fault -/

end Metadata

/-- What is wrong with the instruction of a specification: that it does not compile. -/
def FieldSpec.fault? (registry : Registry σ) (factories : σ) (typeName : String)
    (spec : FieldSpec) : Option RedactError :=
  spec.instruction.bind fun instruction =>
    (failure? ((compile registry instruction).runFrom factories).1).map
      (.compile typeName spec.name)

/-- The instruction of a specification compiles, if it has one. -/
def FieldSpec.Compiles (registry : Registry σ) (factories : σ) (spec : FieldSpec) : Prop :=
  ∀ instruction, spec.instruction = some instruction →
    ∃ e, ((compile registry instruction).runFrom factories).1 = .ok e

theorem FieldSpec.fault?_eq_none_iff {registry : Registry σ} {factories : σ} {typeName : String}
    {spec : FieldSpec} :
    spec.fault? registry factories typeName = none ↔ spec.Compiles registry factories := by
  simp only [fault?, Option.bind_eq_none_iff, Option.map_eq_none_iff, failure?_eq_none_iff,
    Compiles]

theorem FieldSpec.fault?_eq_some_iff {registry : Registry σ} {factories : σ} {typeName : String}
    {spec : FieldSpec} {e : RedactError} :
    spec.fault? registry factories typeName = some e ↔
      ∃ instruction source, spec.instruction = some instruction ∧
        ((compile registry instruction).runFrom factories).1 = .error source ∧
          .compile typeName spec.name source = e := by
  simp only [fault?, Option.bind_eq_some_iff, Option.map_eq_some_iff, failure?_eq_some_iff]
  constructor
  · rintro ⟨instruction, hi, source, hc, he⟩
    exact ⟨instruction, source, hi, hc, he⟩
  · rintro ⟨instruction, source, hi, hc, he⟩
    exact ⟨instruction, hi, source, hc, he⟩

theorem Evaluator.CompiledFrom.instruction_eq {registry : Registry σ} {e : Evaluator}
    {instruction : String} (h : e.CompiledFrom registry instruction) :
    e.instruction = instruction := by
  obtain ⟨factories, hc⟩ := h
  exact (compileNodes_eq_ok_iff.mp (Prod.ext (y := (_, _)) hc rfl)).1

/-- With steady factories an instruction compiles to one evaluator only. -/
theorem Evaluator.CompiledFrom.compile_eq {registry : Registry σ} (hr : registry.Steady)
    {e : Evaluator} {instruction : String} (h : e.CompiledFrom registry instruction)
    (factories : σ) : ((compile registry instruction).runFrom factories).1 = .ok e := by
  obtain ⟨factories', hc⟩ := h
  rw [← hc]
  exact steady_compileNodes hr instruction _ factories factories'

theorem FieldMetadata.CompiledFrom.instruction?_eq {registry : Registry σ} {spec : FieldSpec}
    {entry : FieldMetadata} (h : entry.CompiledFrom registry spec) :
    entry.instruction? = spec.instruction := by
  rw [FieldMetadata.instruction?]
  cases hi : spec.instruction with
  | none => rw [h.evaluator_none hi, Option.map_none]
  | some instruction =>
      obtain ⟨e, he, hfrom⟩ := h.evaluator_some instruction hi
      rw [he, Option.map_some, hfrom.instruction_eq]

namespace Metadata

variable {registry : Registry σ} {typeName : String}

/-- Metadata tells of each specification in order. -/
theorem map_fields_of_compile_eq_ok {specs : List FieldSpec} {m : Metadata} {s : σ}
    (h : ((compile registry typeName specs).runFrom s).1 = .ok m) :
    m.fields.map (fun entry => (entry.name, entry.nested, entry.instruction?)) =
      specs.map fun spec => (spec.name, spec.nested, spec.instruction) := by
  rw [← List.forall₂_eq_eq_eq, List.forall₂_map_left_iff, List.forall₂_map_right_iff]
  refine (compile_eq_ok h).2.flip.imp ?_
  intro entry spec hfrom
  rw [hfrom.name_eq, hfrom.nested_eq, hfrom.instruction?_eq]

theorem map_name_of_compile_eq_ok {specs : List FieldSpec} {m : Metadata} {s : σ}
    (h : ((compile registry typeName specs).runFrom s).1 = .ok m) :
    m.fields.map (·.name) = specs.map (·.name) := by
  have hfields := congrArg (List.map Prod.fst) (map_fields_of_compile_eq_ok h)
  simpa only [List.map_map, Function.comp_def] using hfields

/-- Where names differ, each leads back to its own entry. -/
theorem fieldNamed?_of_getElem? {m : Metadata} (hnodup : (m.fields.map (·.name)).Nodup)
    {index : Nat} {entry : FieldMetadata} (h : m.fields[index]? = some entry) :
    m.fieldNamed? entry.name = some entry := by
  rw [List.Nodup, List.pairwise_map, List.pairwise_iff_getElem] at hnodup
  obtain ⟨hi, hentry⟩ := List.getElem?_eq_some_iff.mp h
  refine List.find?_eq_some_iff_getElem.mpr ⟨beq_self_eq_true _, index, hi, hentry, ?_⟩
  intro j hj
  have hne := hnodup j index (Nat.lt_trans hj hi) hi hj
  rw [hentry] at hne
  simpa using hne

theorem failure?_compileField (spec : FieldSpec) (s : σ) :
    failure? ((compileField registry typeName spec).runFrom s).1 =
      spec.fault? registry s typeName := by
  rw [compileField, CompileM.Steady.fst_runFrom_bind _ fun _ => CompileM.steady_pure _,
    failure?_bind_of_none fun _ _ => rfl, FieldSpec.fault?]
  cases spec.instruction with
  | none => rfl
  | some instruction =>
      rw [Option.mapM_some, map_eq_pure_bind,
        CompileM.Steady.fst_runFrom_bind _ fun _ => CompileM.steady_pure _,
        failure?_bind_of_none fun _ _ => rfl, CompileM.runFrom_adapt,
        failure?_mapError]
      rfl

/-- A type is left without metadata by the first of its instructions that does not compile. -/
theorem failure?_compile (h : registry.Steady) (specs : List FieldSpec) (s : σ) :
    failure? ((compile registry typeName specs).runFrom s).1 =
      specs.findSome? (·.fault? registry s typeName) := by
  rw [compile, CompileM.Steady.fst_runFrom_bind _ fun _ => CompileM.steady_pure _,
    failure?_bind_of_none fun _ _ => rfl,
    CompileM.Steady.fst_runFrom_mapM fun spec _ => steady_compileField h spec, failure?_mapM]
  simp only [failure?_compileField]

theorem exists_compile_eq_ok_iff (h : registry.Steady) {specs : List FieldSpec} {s : σ} :
    (∃ m, ((compile registry typeName specs).runFrom s).1 = .ok m) ↔
      ∀ spec ∈ specs, spec.Compiles registry s := by
  rw [← failure?_eq_none_iff, failure?_compile h, List.findSome?_eq_none_iff]
  simp only [FieldSpec.fault?_eq_none_iff]

end Metadata

end Redaction
