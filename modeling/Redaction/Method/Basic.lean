import Redaction.Error

/-!
# Methods

A method is a factory: from the arguments of a rule it makes a transformer, which is what runs on
every value. A factory may read and change a state of its own, so that one can tell how often and in
which order factories are called; transformers are functions. A transformer changes a scalar in the
place where it is held, so it cannot make a scalar of another type of it.
-/

namespace Redaction

open Redaction.Instruction

structure Transformer where
  run : Scalar → Except TransformError Scalar
  type_run : ∀ s t, run s = .ok t → t.type = s.type

instance : CoeFun Transformer fun _ => Scalar → Except TransformError Scalar := ⟨Transformer.run⟩

namespace Transformer

/-- The change of a text by a function on texts, and of any other scalar by another transformer. -/
def onText (change : String → String) (other : Transformer) : Transformer where
  run
    | .text s => .ok (.text (change s))
    | s => other s
  type_run s t h := by
    cases s with
    | text => cases h; rfl
    | _ => exact other.type_run _ t h

def keep : Transformer where
  run := .ok
  type_run s t h := by
    cases h
    rfl

def refuse (error : Scalar → TransformError) : Transformer where
  run s := .error (error s)
  type_run s t h := by cases h

end Transformer

/-- A step of compiling: it may fail, and keeps its effect on the factories' state when it does. -/
abbrev CompileM (ε σ : Type) := ExceptT ε (StateM σ)

namespace CompileM

variable {ε ε' σ α β : Type}

/-- A step begun in a state: its result, and the state after it. -/
def runFrom (x : CompileM ε σ α) (s : σ) : Except ε α × σ := x.run.run s

theorem runFrom_bind_of_ok {x : CompileM ε σ α} {s t : σ} {a : α} (h : runFrom x s = (.ok a, t))
    (f : α → CompileM ε σ β) : runFrom (x >>= f) s = runFrom (f a) t := by
  change (x >>= f).run.run s = _
  rw [ExceptT.run_bind, StateT.run_bind, show x.run.run s = (Except.ok a, t) from h]
  rfl

theorem runFrom_bind_of_error {x : CompileM ε σ α} {s t : σ} {e : ε}
    (h : runFrom x s = (.error e, t)) (f : α → CompileM ε σ β) :
    runFrom (x >>= f) s = (.error e, t) := by
  change (x >>= f).run.run s = _
  rw [ExceptT.run_bind, StateT.run_bind, show x.run.run s = (Except.error e, t) from h]
  rfl

theorem runFrom_bind_eq_ok_iff {x : CompileM ε σ α} {f : α → CompileM ε σ β} {s u : σ} {b : β} :
    runFrom (x >>= f) s = (.ok b, u) ↔
      ∃ a t, runFrom x s = (.ok a, t) ∧ runFrom (f a) t = (.ok b, u) := by
  rcases hx : runFrom x s with ⟨e | a, t⟩
  · simp [runFrom_bind_of_error hx]
  · rw [runFrom_bind_of_ok hx]
    constructor
    · exact fun h => ⟨a, t, rfl, h⟩
    · rintro ⟨_, _, h, hf⟩
      cases h
      exact hf

theorem runFrom_bind_eq_error_iff {x : CompileM ε σ α} {f : α → CompileM ε σ β} {s u : σ} {e : ε} :
    runFrom (x >>= f) s = (.error e, u) ↔ runFrom x s = (.error e, u) ∨
      ∃ a t, runFrom x s = (.ok a, t) ∧ runFrom (f a) t = (.error e, u) := by
  rcases hx : runFrom x s with ⟨e' | a, t⟩
  · simp [runFrom_bind_of_error hx]
  · rw [runFrom_bind_of_ok hx]
    constructor
    · exact fun h => .inr ⟨a, t, rfl, h⟩
    · rintro (h | ⟨_, _, h, hf⟩)
      · cases h
      · cases h
        exact hf

theorem runFrom_adapt (f : ε → ε') (x : CompileM ε σ α) (s : σ) :
    runFrom (x.adapt f : CompileM ε' σ α) s = ((runFrom x s).1.mapError f, (runFrom x s).2) := rfl

end CompileM

/-- What makes a transformer from the arguments of a rule. -/
abbrev Factory (σ : Type) := List Literal → CompileM TransformError σ Transformer

namespace Factory

def ofFunction {σ : Type} (make : List Literal → Transformer) : Factory σ := fun args =>
  pure (make args)

/-- A factory whose state is a part of a larger one. -/
def zoom {σ τ : Type} (get : σ → τ) (set : τ → σ → σ) (factory : Factory τ) : Factory σ :=
  fun args => ExceptT.mk fun s =>
    let (result, part) := (factory args).run.run (get s)
    pure (result, set part s)

end Factory

end Redaction
