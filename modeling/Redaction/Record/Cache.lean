import Redaction.Record.Metadata

/-!
# The cache of metadata

Metadata by a key for each record type. A type is compiled when it is first asked for; what was
stored stays until the cache is cleared, and a failure stores nothing.
-/

namespace Redaction

/-- The metadata compiled so far, each under a key of its own. -/
structure Cache (κ : Type) where
  entries : List (κ × Metadata)

namespace Cache

variable {κ : Type} [DecidableEq κ]

def empty : Cache κ := ⟨[]⟩

def find? (c : Cache κ) (key : κ) : Option Metadata := c.entries.lookup key

/-- The cache with metadata under a key, unless there is some already. -/
def insert (c : Cache κ) (key : κ) (m : Metadata) : Cache κ :=
  if (c.find? key).isSome then c else ⟨(key, m) :: c.entries⟩

def size (c : Cache κ) : Nat := c.entries.length

def isEmpty (c : Cache κ) : Bool := c.entries.isEmpty

@[simp] theorem find?_empty (key : κ) : (empty : Cache κ).find? key = none := rfl

theorem find?_insert (c : Cache κ) (key : κ) (m : Metadata) (k : κ) :
    (c.insert key m).find? k = if k = key then some ((c.find? key).getD m) else c.find? k := by
  unfold insert
  split
  · next h =>
      obtain ⟨stored, hs⟩ := Option.isSome_iff_exists.mp h
      split
      · next hk => simp [hk, hs]
      · rfl
  · next h =>
      have hn : c.find? key = none := by simpa using h
      by_cases hk : k = key
      · subst hk
        rw [if_pos rfl, hn]
        simp [find?]
      · have hb : (k == key) = false := by simpa using hk
        rw [if_neg hk]
        simp [find?, List.lookup_cons, hb]

end Cache

/-- What changes as metadata is asked for: the cache and the state of the factories. -/
structure WorkState (κ σ : Type) where
  cache : Cache κ
  factories : σ

/-- A step with a cache; when it fails, the cache and the factories keep what came before. -/
abbrev CacheM (κ σ : Type) := CompileM RedactError (WorkState κ σ)

namespace CacheM

variable {κ σ : Type} {α : Type}

def ofCompile (x : CompileM RedactError σ α) : CacheM κ σ α := ExceptT.mk fun s =>
  let (result, factories) := x.runFrom s.factories
  pure (result, { s with factories })

theorem runFrom_ofCompile (x : CompileM RedactError σ α) (s : WorkState κ σ) :
    (ofCompile x : CacheM κ σ α).runFrom s =
      ((x.runFrom s.factories).1, ⟨s.cache, (x.runFrom s.factories).2⟩) := rfl

end CacheM

section

variable {κ σ : Type} [DecidableEq κ]

/-- The metadata compiled from specifications that are only now asked for. -/
def Metadata.compileBy (registry : Registry σ) (typeName : String)
    (specs : StateM σ (List FieldSpec)) : CompileM RedactError σ Metadata := do
  Metadata.compile registry typeName (← specs)

/-- The metadata under a key: the stored one, or else the one that is compiled from what `specs`
gives, and which is then stored. -/
def getOrCompileBy (registry : Registry σ) (key : κ) (typeName : String)
    (specs : StateM σ (List FieldSpec)) : CacheM κ σ Metadata := do
  match (← get).cache.find? key with
  | some m => pure m
  | none =>
      let m ← CacheM.ofCompile (Metadata.compileBy registry typeName specs)
      modify fun s => { s with cache := s.cache.insert key m }
      pure m

def getOrCompile (registry : Registry σ) (key : κ) (typeName : String) (specs : List FieldSpec) :
    CacheM κ σ Metadata :=
  getOrCompileBy registry key typeName (pure specs)

theorem Metadata.runFrom_compileBy (registry : Registry σ) (typeName : String)
    (specs : StateM σ (List FieldSpec)) (s : σ) :
    (Metadata.compileBy registry typeName specs).runFrom s =
      (Metadata.compile registry typeName (specs.run s).1).runFrom (specs.run s).2 := rfl

/-- What asking for metadata does: specifications and factories are called only if nothing is
stored, and only what was compiled is stored. -/
theorem runFrom_getOrCompileBy (registry : Registry σ) (key : κ) (typeName : String)
    (specs : StateM σ (List FieldSpec)) (s : WorkState κ σ) :
    (getOrCompileBy registry key typeName specs).runFrom s =
      match s.cache.find? key with
      | some m => (.ok m, s)
      | none =>
          match (Metadata.compileBy registry typeName specs).runFrom s.factories with
          | (.ok m, factories) => (.ok m, ⟨s.cache.insert key m, factories⟩)
          | (.error e, factories) => (.error e, ⟨s.cache, factories⟩) := by
  have hget : (getOrCompileBy registry key typeName specs).runFrom s =
      CompileM.runFrom (match s.cache.find? key with
        | some m => pure m
        | none => do
            let m ← CacheM.ofCompile (Metadata.compileBy registry typeName specs)
            modify fun s => { s with cache := s.cache.insert key m }
            pure m) s := rfl
  rw [hget]
  cases s.cache.find? key with
  | some m => rfl
  | none =>
      have hc := CacheM.runFrom_ofCompile (Metadata.compileBy registry typeName specs) s
      rcases hx : (Metadata.compileBy registry typeName specs).runFrom s.factories with
        ⟨e | m, f⟩
      · rw [hx] at hc
        exact CompileM.runFrom_bind_of_error hc _
      · rw [hx] at hc
        exact CompileM.runFrom_bind_of_ok hc _

theorem runFrom_getOrCompile (registry : Registry σ) (key : κ) (typeName : String)
    (specs : List FieldSpec) (s : WorkState κ σ) :
    (getOrCompile registry key typeName specs).runFrom s =
      match s.cache.find? key with
      | some m => (.ok m, s)
      | none =>
          match (Metadata.compile registry typeName specs).runFrom s.factories with
          | (.ok m, factories) => (.ok m, ⟨s.cache.insert key m, factories⟩)
          | (.error e, factories) => (.error e, ⟨s.cache, factories⟩) :=
  runFrom_getOrCompileBy registry key typeName (pure specs) s

end

end Redaction
