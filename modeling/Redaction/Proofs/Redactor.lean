import Redaction.Proofs.Value.Knowledge

/-!
# The states of a redactor

A redactor starts with an empty cache, and only its own calls fill it. In every state that comes
about so, what is stored was compiled from the instructions of its own type, whatever the factories
of the registry did in between.
-/

namespace Redaction

variable {σ : Type}

/-- The states in which a redactor can be. Apart from its calls, its cache may be cleared, and the
state of the factories may change in any way. -/
inductive Redactor.Reached (r : Redactor σ) : WorkState RecordType σ → Prop
  | start (factories : σ) : Reached r ⟨.empty, factories⟩
  | redact {s : WorkState RecordType σ} (v : Value) (groups : List String) (h : Reached r s) :
      Reached r ((r.redact v groups).runFrom s).2
  | metadata {s : WorkState RecordType σ} (t : RecordType) (h : Reached r s) :
      Reached r ((r.metadata t).runFrom s).2
  | clear {s : WorkState RecordType σ} (h : Reached r s) : Reached r ⟨.empty, s.factories⟩
  | elsewhere {s : WorkState RecordType σ} (factories : σ) (h : Reached r s) :
      Reached r ⟨s.cache, factories⟩

namespace Redactor

variable {r : Redactor σ} {s t : WorkState RecordType σ}

theorem Reached.sound (h : r.Reached s) : s.cache.Sound r.registry := by
  induction h with
  | start factories => exact .empty r.registry
  | redact v groups _ ih => exact (Agrees.walk v (r.walker groups) _).2.1 ih
  | metadata t _ ih => exact (Agrees.metadata t _).2.1 ih
  | clear _ _ => exact .empty r.registry
  | elsewhere factories _ ih => exact ih

/-- A redaction as a walk with all metadata known beforehand, all of it compiled. -/
theorem Reached.exists_walk_eq (hs : r.Reached s) (v : Value) (groups : List String) :
    ∃ known : Knowledge, known.Truthful r.registry ∧
      v.walk known (r.walker groups) = ((r.redact v groups).runFrom s).1 := by
  obtain ⟨-, hkeeps, hresult⟩ := Agrees.walk v (r.walker groups) s
  have hsound := hkeeps hs.sound
  have hdef : r.redact v groups = v.walk (·.metadata r.registry) (r.walker groups) := rfl
  rw [hdef]
  cases hr : ((v.walk (·.metadata r.registry) (r.walker groups)).runFrom s).1 with
  | ok copy =>
      rw [hr] at hresult
      set t := ((v.walk (·.metadata r.registry) (r.walker groups)).runFrom s).2
      exact ⟨t.cache.complete r.registry t.factories, Cache.complete_truthful hsound t.factories,
        hresult _ (t.cache.complete_covers r.registry t.factories)⟩
  | error e =>
      rw [hr] at hresult
      obtain ⟨known, -, htrue, he⟩ := hresult
      exact ⟨known, htrue hs.sound, he⟩

/-- All that a state can bring into a redaction is compiled metadata, and there is only one such
metadata for each type. -/
theorem Reached.redact_eq (hs : r.Reached s) (hr : r.registry.Steady) (ht : r.Reached t) (v : Value)
    (groups : List String) :
    ((r.redact v groups).runFrom s).1 = ((r.redact v groups).runFrom t).1 := by
  obtain ⟨known, hknown, hwalk⟩ := hs.exists_walk_eq v groups
  obtain ⟨known', hknown', hwalk'⟩ := ht.exists_walk_eq v groups
  have hsame : known = known' := hknown.unique hr hknown'
  rw [← hwalk, ← hwalk', hsame]

/-- Metadata that a redactor gives was compiled, now or before. -/
theorem Reached.metadata_compiled (hs : r.Reached s) {t : RecordType} {m : Metadata}
    (h : ((r.metadata t).runFrom s).1 = .ok m) : t.CompilesTo r.registry (.ok m) := by
  obtain ⟨-, hkeeps, hresult⟩ := Agrees.metadata t s
  have hsound := hkeeps hs.sound
  have hm : ((t.metadata r.registry).runFrom s).1 = .ok m := h
  rw [hm] at hresult
  set u := ((t.metadata r.registry).runFrom s).2
  have hknown := hresult _ (u.cache.complete_covers r.registry u.factories)
  rw [← hknown]
  exact Cache.complete_truthful hsound u.factories t

end Redactor

end Redaction
