import Mathlib.Data.List.Forall2
import Redaction.Method.Registry

/-!
# Rows of compiling steps

Steps taken for the elements of a list, one after another: each begins in the state that the one
before has left, and the row succeeds when every step does. A step may also take no notice of the
state at all, and then a row of such steps does not either.
-/

namespace Redaction

variable {α β ε σ : Type}

/-- The elements of two lists are related one by one, each pair from one state to the next. -/
inductive Threads (R : α → β → σ → σ → Prop) : List α → List β → σ → σ → Prop
  | nil (s : σ) : Threads R [] [] s s
  | cons {x : α} {y : β} {xs : List α} {ys : List β} {s t u : σ} (h : R x y s t)
      (hrest : Threads R xs ys t u) : Threads R (x :: xs) (y :: ys) s u

namespace Threads

variable {R : α → β → σ → σ → Prop} {xs : List α} {ys : List β} {s u : σ}

theorem forall₂ (h : Threads R xs ys s u) : List.Forall₂ (fun x y => ∃ a b, R x y a b) xs ys := by
  induction h with
  | nil s => exact .nil
  | @cons x y xs ys s t u h _ ih => exact .cons ⟨s, t, h⟩ ih

theorem forall_mem {P : β → Prop} (h : Threads R xs ys s u)
    (hp : ∀ x y a b, R x y a b → P y) : ∀ y ∈ ys, P y := by
  induction h with
  | nil s => exact List.forall_mem_nil P
  | @cons x y xs ys s t u h _ ih => exact List.forall_mem_cons.mpr ⟨hp x y s t h, ih⟩

theorem imp {T : α → β → σ → σ → Prop} (h : Threads R xs ys s u)
    (himp : ∀ x y a b, R x y a b → T x y a b) : Threads T xs ys s u := by
  induction h with
  | nil s => exact .nil s
  | @cons x y xs ys s t u h _ ih => exact .cons (himp x y s t h) ih

/-- What each pair of a row has in addition is a property of the second list. -/
theorem and_iff {P : β → Prop} :
    Threads (fun x y a b => R x y a b ∧ P y) xs ys s u ↔ Threads R xs ys s u ∧ ∀ y ∈ ys, P y := by
  constructor
  · intro h
    exact ⟨h.imp fun _ _ _ _ h => h.1, h.forall_mem fun _ _ _ _ h => h.2⟩
  · rintro ⟨h, hp⟩
    induction h with
    | nil s => exact .nil s
    | cons h _ ih =>
        obtain ⟨hy, hys⟩ := List.forall_mem_cons.mp hp
        exact .cons ⟨h, hy⟩ (ih hys)

theorem map {γ : Type} {f : γ → α} {T : γ → β → σ → σ → Prop} {zs : List γ}
    (h : Threads T zs ys s u) (himp : ∀ z y a b, T z y a b → R (f z) y a b) :
    Threads R (zs.map f) ys s u := by
  induction h with
  | nil s => exact .nil s
  | @cons z y zs ys s t u h _ ih => exact .cons (himp z y s t h) ih

theorem exists_map {γ : Type} {f : γ → α} {T : γ → β → σ → σ → Prop} (h : Threads R xs ys s u)
    (himp : ∀ x y a b, R x y a b → ∃ z, x = f z ∧ T z y a b) :
    ∃ zs, xs = zs.map f ∧ Threads T zs ys s u := by
  induction h with
  | nil s => exact ⟨[], rfl, .nil s⟩
  | @cons x y xs ys s t u h _ ih =>
      obtain ⟨z, rfl, hz⟩ := himp x y s t h
      obtain ⟨zs, rfl, hzs⟩ := ih
      exact ⟨z :: zs, rfl, .cons hz hzs⟩

/-- A row can be gone through when each of its steps can be taken from every state. -/
theorem exists_of_forall (h : ∀ x ∈ xs, ∀ a, ∃ y b, R x y a b) (s : σ) :
    ∃ ys u, Threads R xs ys s u := by
  induction xs generalizing s with
  | nil => exact ⟨[], s, .nil s⟩
  | cons x rest ih =>
      obtain ⟨hx, hrest⟩ := List.forall_mem_cons.mp h
      obtain ⟨y, t, hy⟩ := hx s
      obtain ⟨later, u, hl⟩ := ih hrest t
      exact ⟨y :: later, u, .cons hy hl⟩

end Threads

namespace CompileM

theorem runFrom_map (f : α → β) (x : CompileM ε σ α) (s : σ) :
    runFrom (f <$> x) s = ((runFrom x s).1.map f, (runFrom x s).2) := by
  rw [map_eq_pure_bind]
  rcases hx : runFrom x s with ⟨e | a, t⟩
  · exact runFrom_bind_of_error hx _
  · exact runFrom_bind_of_ok hx _

theorem runFrom_map_eq_ok_iff {x : CompileM ε σ α} {f : α → β} {s u : σ} {b : β} :
    runFrom (f <$> x) s = (.ok b, u) ↔ ∃ a, runFrom x s = (.ok a, u) ∧ f a = b := by
  rw [runFrom_map]
  rcases runFrom x s with ⟨e | a, t⟩ <;> simp [Except.map, and_comm]

theorem runFrom_map_eq_error_iff {x : CompileM ε σ α} {f : α → β} {s u : σ} {e : ε} :
    runFrom (f <$> x) s = (.error e, u) ↔ runFrom x s = (.error e, u) := by
  rw [runFrom_map]
  rcases runFrom x s with ⟨e' | a, t⟩ <;> simp [Except.map]

theorem runFrom_adapt_eq_ok_iff {ε' : Type} {f : ε → ε'} {x : CompileM ε σ α} {s u : σ} {a : α} :
    runFrom (x.adapt f : CompileM ε' σ α) s = (.ok a, u) ↔ runFrom x s = (.ok a, u) := by
  rw [runFrom_adapt]
  rcases runFrom x s with ⟨e | b, t⟩ <;> simp [Except.mapError]

theorem runFrom_adapt_eq_error_iff {ε' : Type} {f : ε → ε'} {x : CompileM ε σ α} {s u : σ}
    {e : ε'} :
    runFrom (x.adapt f : CompileM ε' σ α) s = (.error e, u) ↔
      ∃ source, runFrom x s = (.error source, u) ∧ f source = e := by
  rw [runFrom_adapt]
  rcases runFrom x s with ⟨e' | b, t⟩ <;> simp [Except.mapError, and_comm]

theorem runFrom_mapM_eq_ok_iff {f : α → CompileM ε σ β} {xs : List α} {ys : List β} {s u : σ} :
    runFrom (xs.mapM f) s = (.ok ys, u) ↔
      Threads (fun x y a b => runFrom (f x) a = (.ok y, b)) xs ys s u := by
  induction xs generalizing ys s with
  | nil =>
      constructor
      · intro h
        cases h
        exact .nil _
      · intro h
        cases h
        rfl
  | cons x rest ih =>
      rw [List.mapM_cons, runFrom_bind_eq_ok_iff]
      constructor
      · rintro ⟨y, t, hy, h⟩
        obtain ⟨later, v, hl, h⟩ := runFrom_bind_eq_ok_iff.mp h
        cases h
        exact .cons hy (ih.mp hl)
      · intro h
        cases h with
        | @cons _ y _ later _ t _ hy hl =>
            exact ⟨y, t, hy, runFrom_bind_eq_ok_iff.mpr ⟨later, u, ih.mpr hl, rfl⟩⟩

theorem exists_runFrom_of_mapM_eq_error {f : α → CompileM ε σ β} {xs : List α} {e : ε} {s u : σ}
    (h : runFrom (xs.mapM f) s = (.error e, u)) :
    ∃ x ∈ xs, ∃ a b, runFrom (f x) a = (.error e, b) := by
  induction xs generalizing s with
  | nil => cases h
  | cons x rest ih =>
      rw [List.mapM_cons] at h
      rcases runFrom_bind_eq_error_iff.mp h with h | ⟨y, t, -, h⟩
      · exact ⟨x, List.mem_cons_self, s, u, h⟩
      · rcases runFrom_bind_eq_error_iff.mp h with h | ⟨later, v, -, h⟩
        · obtain ⟨z, hz, hf⟩ := ih h
          exact ⟨z, List.mem_cons_of_mem x hz, hf⟩
        · cases h

/-! ## Steady steps -/

/-- The result does not depend on the state in which the step begins. -/
def Steady (x : CompileM ε σ α) : Prop := ∀ s t, (runFrom x s).1 = (runFrom x t).1

theorem steady_pure (a : α) : Steady (pure a : CompileM ε σ α) := fun _ _ => rfl

theorem steady_throw (e : ε) : Steady (throw e : CompileM ε σ α) := fun _ _ => rfl

theorem steady_mk_pure (x : Except ε α) : Steady (ExceptT.mk (pure x) : CompileM ε σ α) :=
  fun _ _ => rfl

namespace Steady

theorem bind {x : CompileM ε σ α} {f : α → CompileM ε σ β} (hx : Steady x)
    (hf : ∀ a, Steady (f a)) : Steady (x >>= f) := by
  intro s t
  have hsame := hx s t
  rcases hs : runFrom x s with ⟨e | a, s'⟩
  · rw [hs] at hsame
    have ht : runFrom x t = (.error e, (runFrom x t).2) := Prod.ext hsame.symm rfl
    rw [runFrom_bind_of_error hs, runFrom_bind_of_error ht]
  · rw [hs] at hsame
    have ht : runFrom x t = (.ok a, (runFrom x t).2) := Prod.ext hsame.symm rfl
    rw [runFrom_bind_of_ok hs, runFrom_bind_of_ok ht]
    exact hf a s' (runFrom x t).2

theorem adapt {ε' : Type} {x : CompileM ε σ α} (hx : Steady x) (f : ε → ε') :
    Steady (x.adapt f : CompileM ε' σ α) := by
  intro s t
  rw [runFrom_adapt, runFrom_adapt, hx s t]

theorem map {x : CompileM ε σ α} (hx : Steady x) (f : α → β) : Steady (f <$> x) := by
  rw [map_eq_pure_bind]
  exact hx.bind fun a => steady_pure (f a)

theorem mapM {f : α → CompileM ε σ β} {xs : List α} (h : ∀ x ∈ xs, Steady (f x)) :
    Steady (xs.mapM f) := by
  induction xs with
  | nil => exact steady_pure []
  | cons x rest ih =>
      obtain ⟨hx, hrest⟩ := List.forall_mem_cons.mp h
      rw [List.mapM_cons]
      exact hx.bind fun y => (ih hrest).bind fun later => steady_pure (y :: later)

/-- The state that a step leaves does not matter to steady steps after it. -/
theorem fst_runFrom_bind (x : CompileM ε σ α) {f : α → CompileM ε σ β} (hf : ∀ a, Steady (f a))
    (s : σ) : (runFrom (x >>= f) s).1 = (runFrom x s).1 >>= fun a => (runFrom (f a) s).1 := by
  rcases hx : runFrom x s with ⟨e | a, t⟩
  · rw [runFrom_bind_of_error hx]
    rfl
  · rw [runFrom_bind_of_ok hx]
    exact hf a t s

theorem fst_runFrom_mapM {f : α → CompileM ε σ β} {xs : List α} (h : ∀ x ∈ xs, Steady (f x))
    (s : σ) : (runFrom (xs.mapM f) s).1 = xs.mapM fun x => (runFrom (f x) s).1 := by
  induction xs with
  | nil => rfl
  | cons x rest ih =>
      obtain ⟨-, hrest⟩ := List.forall_mem_cons.mp h
      have hlater := Steady.mapM hrest
      rw [List.mapM_cons, List.mapM_cons,
        fst_runFrom_bind _ fun y => hlater.bind fun later => steady_pure (y :: later)]
      refine bind_congr fun y => ?_
      rw [fst_runFrom_bind _ fun later => steady_pure (y :: later), ih hrest]
      rfl

end Steady

end CompileM

/-! ## Registries -/

/-- All transformers that a registry's factories make have a property. -/
def Registry.Makes (r : Registry σ) (P : Transformer → Prop) : Prop :=
  ∀ name factory, r.find? name = some factory → ∀ args t s u,
    (factory args).runFrom s = (.ok t, u) → P t

/-- No factory of a registry takes notice of the state. -/
def Registry.Steady (r : Registry σ) : Prop :=
  ∀ name factory, r.find? name = some factory → ∀ args, (factory args).Steady

namespace Registry.Steady

theorem disable {registry : Registry σ} (h : registry.Steady) (name : String) :
    (registry.disable name).Steady := by
  intro n factory hf args
  rw [find?_disable] at hf
  by_cases hn : Text.lower name = Text.lower n
  · rw [if_pos hn] at hf
    cases hf
  · rw [if_neg hn] at hf
    exact h n factory hf args

theorem foldl_disable {registry : Registry σ} (h : registry.Steady) (names : List String) :
    (names.foldl Registry.disable registry).Steady := by
  induction names generalizing registry with
  | nil => exact h
  | cons name rest ih => exact ih (h.disable name)

end Registry.Steady

end Redaction
