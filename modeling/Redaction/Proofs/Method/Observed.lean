import Redaction.Proofs.Method.Run

/-!
# Observed factories

A registry whose factories keep a log of their calls next to their own state. Each call appends to
the log what was called, with which arguments and what came of it, and changes nothing else. A step
is set beside the same step with observed factories, and the calls are what the log has grown by.
-/

namespace Redaction

open Redaction.Instruction Redaction.Text

variable {ε ε' σ α β : Type}

/-- A call of the factory that is registered under a name. -/
structure FactoryCall where
  method : String
  args : List Literal
  result : Except TransformError Transformer

/-- The factory with a log of its calls. -/
def Factory.observed (method : String) (factory : Factory σ) : Factory (σ × List FactoryCall) :=
  fun args => ExceptT.mk fun s =>
    let (result, t) := (factory args).runFrom s.1
    pure (result, t, s.2 ++ [⟨method, args, result⟩])

def Registry.observed (r : Registry σ) : Registry (σ × List FactoryCall) :=
  ⟨r.methods.map Factory.observed⟩

theorem Registry.find?_observed (r : Registry σ) (name : String) :
    r.observed.find? name = (r.find? name).map (Factory.observed (lower name)) := by
  rw [find?, find?, observed, Std.TreeMap.getElem?_map]

/-- A step and the same step with a log, from a state: they have one result and leave one state, and
the log has grown by the calls. -/
structure Logged (x : CompileM ε σ α) (y : CompileM ε (σ × List FactoryCall) α) (s : σ)
    (result : Except ε α) (t : σ) (calls : List FactoryCall) : Prop where
  run_eq : x.runFrom s = (result, t)
  observed_eq : ∀ log, y.runFrom (s, log) = (result, t, log ++ calls)

namespace Logged

variable {x : CompileM ε σ α} {y : CompileM ε (σ × List FactoryCall) α} {s t u : σ}
  {calls later : List FactoryCall}

theorem mk_pure (result : Except ε α) (s : σ) :
    Logged (ExceptT.mk (pure result)) (ExceptT.mk (pure result)) s result s [] where
  run_eq := rfl
  observed_eq log := by
    rw [List.append_nil]
    rfl

theorem pure (a : α) (s : σ) : Logged (ε := ε) (pure a) (pure a) s (.ok a) s [] :=
  mk_pure (.ok a) s

theorem throw (e : ε) (s : σ) : Logged (α := α) (throw e) (throw e) s (.error e) s [] :=
  mk_pure (.error e) s

theorem bind {a : α} {f : α → CompileM ε σ β} {g : α → CompileM ε (σ × List FactoryCall) β}
    {result : Except ε β} (h : Logged x y s (.ok a) t calls)
    (hlater : Logged (f a) (g a) t result u later) :
    Logged (x >>= f) (y >>= g) s result u (calls ++ later) where
  run_eq := by rw [CompileM.runFrom_bind_of_ok h.run_eq, hlater.run_eq]
  observed_eq log := by
    rw [CompileM.runFrom_bind_of_ok (h.observed_eq log), hlater.observed_eq, List.append_assoc]

theorem bind_of_error {e : ε} (h : Logged x y s (.error e) t calls) (f : α → CompileM ε σ β)
    (g : α → CompileM ε (σ × List FactoryCall) β) :
    Logged (x >>= f) (y >>= g) s (.error e) t calls where
  run_eq := CompileM.runFrom_bind_of_error h.run_eq f
  observed_eq log := CompileM.runFrom_bind_of_error (h.observed_eq log) g

theorem map {result : Except ε α} (h : Logged x y s result t calls) (f : α → β) :
    Logged (f <$> x) (f <$> y) s (result.map f) t calls where
  run_eq := by rw [CompileM.runFrom_map, h.run_eq]
  observed_eq log := by rw [CompileM.runFrom_map, h.observed_eq]

theorem adapt {result : Except ε α} (h : Logged x y s result t calls) (f : ε → ε') :
    Logged (x.adapt f : CompileM ε' σ α) (y.adapt f) s (result.mapError f) t calls where
  run_eq := by rw [CompileM.runFrom_adapt, h.run_eq]
  observed_eq log := by rw [CompileM.runFrom_adapt, h.observed_eq]

end Logged

/-- A call of an observed factory is logged, whether or not it succeeds. -/
theorem Factory.logged_observed (method : String) (factory : Factory σ) (args : List Literal)
    (s : σ) :
    Logged (factory args) (factory.observed method args) s ((factory args).runFrom s).1
      ((factory args).runFrom s).2 [⟨method, args, ((factory args).runFrom s).1⟩] :=
  ⟨rfl, fun _ => rfl⟩

end Redaction
