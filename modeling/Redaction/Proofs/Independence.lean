import Redaction.Proofs.Value.Idempotence
import Redaction.Proofs.Value.Misconfigured

/-!
# Redactions do not depend on what came before

A redactor keeps metadata from call to call. With steady factories that does not show: what a
redaction gives is the same after any calls as at the start, also where calls failed midway and left
the metadata of some types behind.
-/

namespace Redaction

variable {σ : Type}

namespace Redactor

/-- What a caller can ask of a redactor. -/
inductive Call where
  | redact (v : Value) (groups : List String)
  | metadata (type : RecordType)
  | compile (instruction : String)
  | clear

/-- The state after a call, whether it succeeds or fails. -/
def after (r : Redactor σ) (s : WorkState RecordType σ) : Call → WorkState RecordType σ
  | .redact v groups => ((r.redact v groups).runFrom s).2
  | .metadata type => ((r.metadata type).runFrom s).2
  | .compile instruction => ⟨s.cache, ((r.compile instruction).runFrom s.factories).2⟩
  | .clear => ⟨.empty, s.factories⟩

variable {r : Redactor σ} {s : WorkState RecordType σ}

theorem Reached.after (h : r.Reached s) (call : Call) : r.Reached (r.after s call) := by
  cases call with
  | redact v groups => exact h.redact v groups
  | metadata type => exact h.metadata type
  | compile instruction => exact h.elsewhere ((r.compile instruction).runFrom s.factories).2
  | clear => exact h.clear

theorem Reached.foldl_after (h : r.Reached s) (calls : List Call) :
    r.Reached (calls.foldl r.after s) := by
  induction calls generalizing s with
  | nil => exact h
  | cons call rest ih => exact ih (h.after call)

/-- After any calls a redactor gives what a new redactor with the same registry and configuration
gives, the same copy or the same failure. -/
theorem redact_foldl_after {registry : Registry σ} (hr : registry.Steady) (config : Config)
    (elementKey : Value → String) (calls : List Call) (factories fresh : σ) (v : Value)
    (groups : List String) :
    ((redact (.ofConfig registry config elementKey) v groups).runFrom
        (calls.foldl (after (.ofConfig registry config elementKey)) ⟨.empty, factories⟩)).1 =
      ((redact (.ofConfig registry config elementKey) v groups).runFrom ⟨.empty, fresh⟩).1 := by
  have hsteady : (ofConfig registry config elementKey).registry.Steady :=
    hr.foldl_disable config.disabledMethods
  have hstart : (ofConfig registry config elementKey).Reached ⟨.empty, factories⟩ :=
    .start factories
  exact (hstart.foldl_after calls).redact_eq hsteady (.start fresh) v groups

/-- The last call fails at the pass, behind a card of which the metadata stays in the cache. -/
def failingCalls : List Call :=
  [.redact (card "12" []) [], .clear, .compile "all=shred", .metadata passType,
    .redact (.sequence .vector [card "34" [], openPass []]) ["guest"]]

theorem redact_foldl_after_failingCalls :
    ((failingCalls.foldl unstarred.after ⟨.empty, ()⟩).cache.find? cardType).isSome = true ∧
      ((unstarred.redact (card "56" []) ["guest"]).runFrom
          (failingCalls.foldl unstarred.after ⟨.empty, ()⟩)).1 =
        ((unstarred.redact (card "56" []) ["guest"]).runFrom ⟨.empty, ()⟩).1 := by
  refine ⟨by decide +kernel, ?_⟩
  exact redact_foldl_after Registry.HasOnlyBuiltin.builtin.steady _ _ failingCalls () () _ _

end Redactor

end Redaction
