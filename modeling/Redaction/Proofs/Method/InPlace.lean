import Redaction.Proofs.Method.Masking

/-!
# Methods in the place of a value

A transformer is a function of a scalar. Here the built-in methods are steps at the place where the
scalar is held: they look at it, may refuse it, and write. A step that fails could have written
before; those of the built-in methods have not, and so do in place what their transformers do.
-/

namespace Redaction

open Redaction.Instruction Redaction.Text

/-- A step at the place of a scalar: it may fail, and what it has written by then stays written. -/
abbrev InPlace := CompileM TransformError Scalar

/-- The step writes what the transformer gives, and writes nothing if the transformer refuses. -/
def InPlace.Performs (step : InPlace Unit) (t : Transformer) : Prop :=
  ∀ s, step.runFrom s =
    match t s with
    | .ok u => (.ok (), u)
    | .error e => (.error e, s)

/-- A step, and the scalar that is held after it. -/
def InPlace.held (step : InPlace Unit) : InPlace Scalar := do
  step
  get

theorem InPlace.Performs.runFrom_held {step : InPlace Unit} {t : Transformer}
    (h : step.Performs t) (s : Scalar) :
    step.held.runFrom s =
      match t s with
      | .ok u => (.ok u, u)
      | .error e => (.error e, s) := by
  have hstep := h s
  cases ht : t s with
  | ok u =>
      rw [ht] at hstep
      exact CompileM.runFrom_bind_of_ok hstep _
  | error e =>
      rw [ht] at hstep
      exact CompileM.runFrom_bind_of_error hstep _

namespace Method

/-- The text that is held, for a method that takes nothing else. -/
def heldText (method : String) : InPlace String := do
  match ← get with
  | .text s => pure s
  | s => throw (.notText method s.type)

def rewriteText (method : String) (change : List Char → List Char) : InPlace Unit := do
  let text ← heldText method
  set (Scalar.text (String.ofList (change text.toList)))

def writeZero : InPlace Unit := modify Scalar.zero

/-- The text is asked for before anything is written. -/
theorem performs_rewriteText (method : String) (change : List Char → List Char) :
    (rewriteText method change).Performs (onText method change) := by
  intro s
  cases s <;> rfl

theorem performs_writeZero : writeZero.Performs reset := fun _ => rfl

/-- A method that takes texts only refuses everything else, and nothing else. -/
theorem onText_eq_error_iff {method : String} {change : List Char → List Char} {s : Scalar}
    {e : TransformError} :
    onText method change s = .error e ↔ s.type ≠ .text ∧ e = .notText method s.type := by
  cases s with
  | text a => simp [onText, Transformer.onText, Scalar.type]
  | _ =>
      rw [onText_of_text?_eq_none _ _ rfl]
      simp [Scalar.type, eq_comm]

end Method

/-! ## Calls of the built-in methods -/

def Masking.inPlace : Masking → InPlace Unit
  | zero => Method.writeZero
  | star offset => Method.rewriteText "star" (Method.starText offset)
  | redact mask allowed => Method.rewriteText "redact" (Method.maskText mask allowed)

/-- A built-in method with what it has taken from its arguments. -/
inductive BuiltinCall where
  | mask (masking : Masking)
  | remove (offset : Int)
  deriving DecidableEq, Repr

namespace BuiltinCall

instance : Inhabited BuiltinCall := ⟨.mask .zero⟩

def method : BuiltinCall → String
  | mask masking => masking.method
  | remove _ => "remove"

def transformer : BuiltinCall → Transformer
  | mask masking => masking.transformer
  | remove offset => Method.onText "remove" (Method.removeText offset)

def inPlace : BuiltinCall → InPlace Unit
  | mask masking => masking.inPlace
  | remove offset => Method.rewriteText "remove" (Method.removeText offset)

/-- The rule is of this method, and was given these arguments. -/
structure IsOf (call : BuiltinCall) (r : Rule) : Prop where
  method_eq : r.method = call.method
  transformer_eq : r.transformer = call.transformer

/-- A call resets, or rewrites texts for a method that takes nothing else. -/
theorem reset_or_onText (call : BuiltinCall) :
    (call.method = "zero" ∧ call.transformer = Method.reset ∧ call.inPlace = Method.writeZero) ∨
      ∃ change, call.method ∈ ["star", "remove", "redact"] ∧
        call.transformer = Method.onText call.method change ∧
          call.inPlace = Method.rewriteText call.method change := by
  cases call with
  | mask masking =>
      cases masking with
      | zero => exact .inl ⟨rfl, rfl, rfl⟩
      | star offset => exact .inr ⟨_, by simp [method, Masking.method], rfl, rfl⟩
      | redact mask allowed => exact .inr ⟨_, by simp [method, Masking.method], rfl, rfl⟩
  | remove offset => exact .inr ⟨_, by simp [method], rfl, rfl⟩

theorem performs_inPlace (call : BuiltinCall) : call.inPlace.Performs call.transformer := by
  rcases call.reset_or_onText with ⟨-, htransformer, hstep⟩ | ⟨change, -, htransformer, hstep⟩
  · rw [htransformer, hstep]
    exact Method.performs_writeZero
  · rw [htransformer, hstep]
    exact Method.performs_rewriteText _ _

theorem transformer_eq_error_iff (call : BuiltinCall) {s : Scalar} {e : TransformError} :
    call.transformer s = .error e ↔ call.method ∈ ["star", "remove", "redact"] ∧
      s.type ≠ .text ∧ e = .notText call.method s.type := by
  rcases call.reset_or_onText with ⟨hmethod, htransformer, -⟩ | ⟨change, hmethod, htransformer, -⟩
  · rw [htransformer, hmethod]
    simp [Method.reset]
  · rw [htransformer, Method.onText_eq_error_iff]
    exact ⟨fun h => ⟨hmethod, h⟩, fun h => h.2⟩

end BuiltinCall

/-- With no methods but the built-in ones, every rule is a call of one of them. -/
theorem Rule.MadeOf.exists_builtinCall {σ : Type} {registry : Registry σ}
    (hr : registry.HasOnlyBuiltin) {seg : Segment} {r : Rule} {s t : σ}
    (h : r.MadeOf registry seg s t) : ∃ call : BuiltinCall, call.IsOf r := by
  -- `remove` is the only one that is no masking method, so its factory is looked up by itself.
  by_cases hmethod : r.method = "remove"
  · obtain ⟨factory, args, transformer, hf, -, htransformer, rfl⟩ := h
    have hremove := hr _ _ hf
    rw [Registry.find?_builtin, show lower seg.method = "remove" from hmethod] at hremove
    cases hremove
    cases htransformer
    exact ⟨.remove (Method.offset args), hmethod, rfl⟩
  · obtain ⟨masking, hmasking⟩ := h.exists_masking hr hmethod
    exact ⟨.mask masking, hmasking.method_eq, hmasking.transformer_eq⟩

end Redaction
