import Redaction.Proofs.Method.InPlace
import Redaction.Proofs.Rule.ForAll
import Redaction.Proofs.Value.Indirection

/-!
# What the built-in methods refuse

An evaluator of built-in methods is run at the place where a field holds its scalar. It fails when
the deciding rule is carried out with a method for texts and the scalar is no text, and in no other
case. The field is then what it was, as it is when no rule decides or when the deciding rule leaves
the group out.
-/

namespace Redaction

/-! ## In place -/

variable {α : Type}

namespace Evaluator

/-- The evaluation at the place of the scalar, where each rule takes its own step. It tells whether
some rule has decided. -/
def evaluateInPlace (step : Rule → InPlace Unit) (e : Evaluator) (groups : List String) :
    InPlace Bool := do
  Outcome.matched <$> e.evaluateWith (fun r _ => (step r).held) (← get) groups

variable {e : Evaluator} {groups : List String} {step : Rule → InPlace Unit}

/-- Steps that do what the transformers do make an evaluation that does what the evaluator does. -/
theorem runFrom_evaluateInPlace (h : ∀ r ∈ e.rules, (step r).Performs r.transformer) (s : Scalar) :
    (e.evaluateInPlace step groups).runFrom s =
      match e.evaluate s groups with
      | .ok o => (.ok o.matched, o.value)
      | .error source => (.error source, s) := by
  have hstart : (e.evaluateInPlace step groups).runFrom s = CompileM.runFrom
      (Outcome.matched <$> e.evaluateWith (fun r _ => (step r).held) s groups) s := rfl
  rw [hstart, evaluate, CompileM.runFrom_map]
  -- Which rule decides has nothing to do with how rules are carried out: both evaluations have it.
  rcases e.exists_decidedBy_or_abstains groups with ⟨r, group, hdecided⟩ | habstains
  · rw [evaluateWith_of_decidedBy hdecided, evaluateWith_of_decidedBy hdecided]
    by_cases hruns : r.RunsFor group
    · rw [Rule.carryOut_of_runsFor hruns, Rule.carryOut_of_runsFor hruns, CompileM.runFrom_map,
        (h r hdecided.mem).runFrom_held]
      cases r.transformer s <;> rfl
    · rw [Rule.carryOut_of_not_runsFor hruns, Rule.carryOut_of_not_runsFor hruns]
      rfl
  · rw [evaluateWith_of_abstains habstains, evaluateWith_of_abstains habstains]
    rfl

end Evaluator

/-- A step taken at the scalar that a field holds behind its layers. If one of them is empty there is
no scalar, and no step is taken. -/
def Field.atScalar (step : InPlace α) : Field → Except TransformError (Option α) × Field
  | .scalar s => ((step.runFrom s).1.map some, .scalar (step.runFrom s).2)
  | .absent => (.ok none, .absent)
  | .layer outer f => ((f.atScalar step).1, .layer outer (f.atScalar step).2)

theorem Field.atScalar_eq (step : InPlace α) (f : Field) :
    f.atScalar step =
      match f.scalar? with
      | none => (.ok none, f)
      | some s => ((step.runFrom s).1.map some, f.replace (step.runFrom s).2) := by
  induction f with
  | scalar s => rfl
  | absent => rfl
  | layer outer f ih =>
      rw [atScalar, ih, scalar?]
      cases f.scalar? <;> rfl

/-- What an evaluation in place does to a field: nothing, unless it succeeds and the field is not
absent. -/
theorem Field.atScalar_evaluateInPlace {e : Evaluator} {step : Rule → InPlace Unit}
    (h : ∀ r ∈ e.rules, (step r).Performs r.transformer) (groups : List String) (f : Field) :
    f.atScalar (e.evaluateInPlace step groups) =
      match f.scalar? with
      | none => (.ok none, f)
      | some s =>
          match e.evaluate s groups with
          | .ok o => (.ok (some o.matched), f.replace o.value)
          | .error source => (.error source, f) := by
  rw [atScalar_eq]
  cases hs : f.scalar? with
  | none => rfl
  | some s =>
      simp only [Evaluator.runFrom_evaluateInPlace h]
      cases e.evaluate s groups with
      | ok o => rfl
      | error source => exact Prod.ext rfl (replace_of_scalar?_eq_some hs)

/-! ## Evaluators of built-in methods -/

theorem Evaluator.CompiledFrom.exists_builtinCall {σ : Type} {registry : Registry σ}
    (hr : registry.HasOnlyBuiltin) {e : Evaluator} {instruction : String}
    (h : e.CompiledFrom registry instruction) :
    ∀ r ∈ e.rules, ∃ call : BuiltinCall, call.IsOf r := by
  intro r hrule
  obtain ⟨seg, s, t, hmade⟩ := h.exists_madeOf r hrule
  exact hmade.exists_builtinCall hr

/-- The deciding rule is carried out with a method for texts on a scalar that is no text, and the
error says so. -/
def Evaluator.Refuses (e : Evaluator) (groups : List String) (s : Scalar)
    (error : TransformError) : Prop :=
  ∃ r group, e.DecidedBy groups r group ∧ r.RunsFor group ∧
    r.method ∈ ["star", "remove", "redact"] ∧ s.type ≠ .text ∧ error = .notText r.method s.type

theorem Evaluator.evaluate_eq_error_iff_refuses {e : Evaluator}
    (h : ∀ r ∈ e.rules, ∃ call : BuiltinCall, call.IsOf r) {groups : List String} {s : Scalar}
    {error : TransformError} : e.evaluate s groups = .error error ↔ e.Refuses groups s error := by
  have hrule : ∀ r group, e.DecidedBy groups r group → (r.transformer s = .error error ↔
      r.method ∈ ["star", "remove", "redact"] ∧ s.type ≠ .text ∧
        error = .notText r.method s.type) := by
    intro r group hdecided
    obtain ⟨call, hcall⟩ := h r hdecided.mem
    rw [hcall.transformer_eq, hcall.method_eq, call.transformer_eq_error_iff]
  rw [evaluate_eq_error_iff]
  constructor
  · rintro ⟨r, group, hdecided, hruns, ht⟩
    exact ⟨r, group, hdecided, hruns, (hrule r group hdecided).mp ht⟩
  · rintro ⟨r, group, hdecided, hruns, hrefused⟩
    exact ⟨r, group, hdecided, hruns, (hrule r group hdecided).mpr hrefused⟩

/-- What becomes of a field in an evaluation: it fails exactly when a method refuses the scalar, and
the field changes only when a rule is carried out. So it is with a field of a record too. -/
structure Evaluator.LeavesAs (e : Evaluator) (groups : List String) (f : Field)
    (result : Except TransformError (Option Bool)) (after : Field) : Prop where
  error_iff : ∀ error, result = .error error ↔ ∃ s, f.scalar? = some s ∧ e.Refuses groups s error
  of_error : ∀ error, result = .error error → after = f
  of_not_matched : result = .ok (some false) → after = f
  of_excluded : ∀ r group selector, e.DecidedBy groups r group → r.namer? group = some selector →
    selector.inverted = true → after = f
  applyAt_eq : ∀ (m : Metadata) (index : Nat) (entry : FieldMetadata),
    m.fields[index]? = some entry → entry.evaluator = some e → m.applyAt groups index f =
      (result.mapError (.transform m.typeName entry.name)).map fun _ => after

namespace Evaluator

variable {e : Evaluator} {groups : List String} {f : Field}

theorem leavesAs_of_absent (hf : f.scalar? = none) : e.LeavesAs groups f (.ok none) f where
  error_iff error := by simp [hf]
  of_error _ _ := rfl
  of_not_matched _ := rfl
  of_excluded _ _ _ _ _ _ := rfl
  applyAt_eq m index entry hm _ := Metadata.applyAt_of_absent hm hf

variable {s : Scalar}

theorem leavesAs_of_error (hrules : ∀ r ∈ e.rules, ∃ call : BuiltinCall, call.IsOf r)
    (hf : f.scalar? = some s) {source : TransformError} (hs : e.evaluate s groups = .error source) :
    e.LeavesAs groups f (.error source) f where
  error_iff error := by
    rw [Except.error.injEq, ← Except.error.injEq, ← hs, evaluate_eq_error_iff_refuses hrules, hf]
    simp
  of_error _ _ := rfl
  of_not_matched _ := rfl
  of_excluded _ _ _ _ _ _ := rfl
  applyAt_eq m index entry hm he := by
    rw [Metadata.applyAt_of_present hm he hf, hs]
    rfl

theorem leavesAs_of_ok (hrules : ∀ r ∈ e.rules, ∃ call : BuiltinCall, call.IsOf r)
    (hf : f.scalar? = some s) {o : Outcome} (hs : e.evaluate s groups = .ok o) :
    e.LeavesAs groups f (.ok (some o.matched)) (f.replace o.value) where
  error_iff error := by
    have hnot : ¬e.Refuses groups s error := by
      rw [← evaluate_eq_error_iff_refuses hrules, hs]
      simp
    simp [hf, hnot]
  of_error _ h := by cases h
  of_not_matched h := by
    rw [value_of_not_matched hs (Option.some.inj (Except.ok.inj h))]
    exact Field.replace_of_scalar?_eq_some hf
  of_excluded r group selector hdecided hn hinverted := by
    have hruns : ¬r.RunsFor group := by
      intro hruns
      simp [hruns selector hn] at hinverted
    rw [value_of_excluded hdecided hruns hs]
    exact Field.replace_of_scalar?_eq_some hf
  applyAt_eq m index entry hm he := by
    rw [Metadata.applyAt_of_present hm he hf, hs]
    rfl

/-- An evaluator compiled with the built-in methods, run at the place where a field holds its scalar,
fails exactly when a method for texts is carried out on another scalar. The field is then what it was
before, as it is when no rule decides or the deciding selector leaves the group out. -/
theorem CompiledFrom.fails_iff_refuses {σ : Type} {instruction : String}
    (h : e.CompiledFrom (.builtin : Registry σ) instruction) :
    ∃ call : Rule → BuiltinCall, (∀ r ∈ e.rules, (call r).IsOf r) ∧
      ∀ (f : Field) (groups : List String), ∃ result after,
        f.atScalar (e.evaluateInPlace (fun r => (call r).inPlace) groups) = (result, after) ∧
          e.LeavesAs groups f result after := by
  have hrules := h.exists_builtinCall .builtin
  choose! call hcall using hrules
  have hperforms : ∀ r ∈ e.rules, (call r).inPlace.Performs r.transformer := by
    intro r hr
    rw [(hcall r hr).transformer_eq]
    exact (call r).performs_inPlace
  refine ⟨call, hcall, fun f groups => ?_⟩
  have hdone := f.atScalar_evaluateInPlace hperforms groups
  cases hf : f.scalar? with
  | none =>
      simp only [hf] at hdone
      exact ⟨_, _, hdone, leavesAs_of_absent hf⟩
  | some s =>
      have hrules : ∀ r ∈ e.rules, ∃ call : BuiltinCall, call.IsOf r := fun r hr => ⟨_, hcall r hr⟩
      cases hs : e.evaluate s groups with
      | error source =>
          simp only [hf, hs] at hdone
          exact ⟨_, _, hdone, leavesAs_of_error hrules hf hs⟩
      | ok o =>
          simp only [hf, hs] at hdone
          exact ⟨_, _, hdone, leavesAs_of_ok hrules hf hs⟩

/-- A number behind two layers is left as it is by a method that stars texts. -/
theorem fails_iff_refuses_number :
    ∃ (e : Evaluator) (call : Rule → BuiltinCall),
      e.CompiledFrom (.builtin : Registry Unit) "all=star()" ∧ (∀ r ∈ e.rules, (call r).IsOf r) ∧
        ((Field.scalar (.int .u32 5)).within [.present, .dynamic]).atScalar
            (e.evaluateInPlace (fun r => (call r).inPlace) ["csr"]) =
          (.error (.notText "star" (.int .u32)),
            (Field.scalar (.int .u32 5)).within [.present, .dynamic]) := by
  have hfind : (Registry.builtin : Registry Unit).find?
      (Instruction.Grammar.identifier "star" rfl rfl (by decide)).text = some Method.star :=
    Registry.find?_builtin_star
  have hmade : (Method.star []).runFrom () = (.ok (Method.onText "star" (Method.starText 0)), ()) :=
    rfl
  have hcompiles := compile_forAll .nil .nil hfind hmade
  have hcompiled : CompiledFrom _ (.builtin : Registry Unit) "all=star()" :=
    ⟨(), congrArg Prod.fst hcompiles⟩
  obtain ⟨call, hcall, hruns⟩ := hcompiled.fails_iff_refuses
  obtain ⟨result, after, hdone, hleaves⟩ :=
    hruns ((Field.scalar (.int .u32 5)).within [.present, .dynamic]) ["csr"]
  have hrefuses := (evaluate_eq_error_iff_refuses fun r hr => ⟨call r, hcall r hr⟩).mp
    (evaluate_forAll "all=star()" "star" _ (.int .u32 5) ["csr"])
  have hresult := (hleaves.error_iff _).mpr ⟨_, rfl, hrefuses⟩
  rw [hresult, hleaves.of_error _ hresult] at hdone
  exact ⟨_, call, hcompiled, hcall, hdone⟩

end Evaluator

end Redaction
