import Redaction.Proofs.Method.Run

/-!
# Steps with like results

Two compilations side by side. Steps that are taken from the same state have like results when both
fail or both succeed, with failures or successes that are related, and when they leave the same
state in either case. Rows of such steps have like results too.
-/

namespace Redaction

variable {ε ε' σ α α' β β' : Type}

/-- Two results that are both failures or both successes. -/
inductive ResultsAlike (E : ε → ε' → Prop) (R : α → α' → Prop) : Except ε α → Except ε' α' → Prop
  | error {e : ε} {e' : ε'} (h : E e e') : ResultsAlike E R (.error e) (.error e')
  | ok {a : α} {a' : α'} (h : R a a') : ResultsAlike E R (.ok a) (.ok a')

theorem ResultsAlike.refl {E : ε → ε → Prop} {R : α → α → Prop} (hE : ∀ e, E e e)
    (hR : ∀ a, R a a) (x : Except ε α) : ResultsAlike E R x x := by
  cases x with
  | error e => exact .error (hE e)
  | ok a => exact .ok (hR a)

theorem ResultsAlike.imp {E : ε → ε' → Prop} {R S : α → α' → Prop} {x : Except ε α}
    {y : Except ε' α'} (h : ResultsAlike E R x y) (himp : ∀ a a', R a a' → S a a') :
    ResultsAlike E S x y := by
  cases h with
  | error h => exact .error h
  | ok h => exact .ok (himp _ _ h)

theorem ResultsAlike.bind {E : ε → ε' → Prop} {R : α → α' → Prop} {S : β → β' → Prop}
    {x : Except ε α} {y : Except ε' α'} {f : α → Except ε β} {g : α' → Except ε' β'}
    (h : ResultsAlike E R x y) (hfg : ∀ a a', R a a' → ResultsAlike E S (f a) (g a')) :
    ResultsAlike E S (x >>= f) (y >>= g) := by
  cases h with
  | error he => exact .error he
  | ok ha => exact hfg _ _ ha

namespace CompileM

/-- From every state two steps come to like results and to the same state. -/
def Alike (E : ε → ε' → Prop) (R : α → α' → Prop) (x : CompileM ε σ α) (y : CompileM ε' σ α') :
    Prop :=
  ∀ s, ResultsAlike E R (runFrom x s).1 (runFrom y s).1 ∧ (runFrom x s).2 = (runFrom y s).2

namespace Alike

variable {E : ε → ε' → Prop} {R : α → α' → Prop} {S : β → β' → Prop}

theorem pure {a : α} {a' : α'} (h : R a a') :
    Alike E R (pure a : CompileM ε σ α) (pure a' : CompileM ε' σ α') := fun _ => ⟨.ok h, rfl⟩

theorem throw {e : ε} {e' : ε'} (h : E e e') :
    Alike E R (throw e : CompileM ε σ α) (throw e' : CompileM ε' σ α') := fun _ => ⟨.error h, rfl⟩

theorem mk_pure {x : Except ε α} {y : Except ε' α'} (h : ResultsAlike E R x y) :
    Alike E R (ExceptT.mk (Pure.pure x) : CompileM ε σ α) (ExceptT.mk (Pure.pure y)) :=
  fun _ => ⟨h, rfl⟩

theorem adapt {ε'' : Type} {x : CompileM ε'' σ α} {f : ε'' → ε} {g : ε'' → ε'}
    (h : ∀ e, E (f e) (g e)) :
    Alike E Eq (x.adapt f : CompileM ε σ α) (x.adapt g : CompileM ε' σ α) := by
  intro s
  rw [runFrom_adapt, runFrom_adapt]
  cases (runFrom x s).1 with
  | error e => exact ⟨.error (h e), rfl⟩
  | ok a => exact ⟨.ok rfl, rfl⟩

theorem bind {x : CompileM ε σ α} {y : CompileM ε' σ α'} {f : α → CompileM ε σ β}
    {g : α' → CompileM ε' σ β'} (h : Alike E R x y)
    (hfg : ∀ a a', R a a' → Alike E S (f a) (g a')) :
    Alike E S (x >>= f) (y >>= g) := by
  intro s
  obtain ⟨hresult, hstate⟩ := h s
  rcases hx : runFrom x s with ⟨rx, t⟩
  rcases hy : runFrom y s with ⟨ry, t'⟩
  rw [hx, hy] at hresult hstate
  obtain rfl : t = t' := hstate
  cases hresult with
  | error he =>
      rw [runFrom_bind_of_error hx, runFrom_bind_of_error hy]
      exact ⟨.error he, rfl⟩
  | ok ha =>
      rw [runFrom_bind_of_ok hx, runFrom_bind_of_ok hy]
      exact hfg _ _ ha t

theorem map {x : CompileM ε σ α} {y : CompileM ε' σ α'} {f : α → β} {g : α' → β'}
    (h : Alike E R x y) (hfg : ∀ a a', R a a' → S (f a) (g a')) :
    Alike E S (f <$> x) (g <$> y) := by
  rw [map_eq_pure_bind, map_eq_pure_bind]
  exact h.bind fun a a' ha => pure (hfg a a' ha)

theorem mapM {Q : α → α' → Prop} {f : α → CompileM ε σ β} {g : α' → CompileM ε' σ β'}
    (hfg : ∀ a a', Q a a' → Alike E S (f a) (g a')) {xs : List α} {ys : List α'}
    (h : List.Forall₂ Q xs ys) : Alike E (List.Forall₂ S) (xs.mapM f) (ys.mapM g) := by
  induction h with
  | nil => exact pure .nil
  | @cons a a' xs ys ha _ ih =>
      rw [List.mapM_cons, List.mapM_cons]
      refine (hfg a a' ha).bind fun b b' hb => ih.bind fun bs bs' hbs => ?_
      exact pure (.cons hb hbs)

end Alike

end CompileM

end Redaction
