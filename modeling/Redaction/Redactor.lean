import Redaction.Config.Basic
import Redaction.Value.Walk

/-!
# Redactors

A redactor is a registry of methods and a configuration. It gives redacted copies of values, and
keeps the metadata of the record types that it has met.
-/

namespace Redaction

/-- What makes redacted copies. Elements of sets have the order and the equality of a key. -/
structure Redactor (σ : Type) where
  registry : Registry σ
  config : Config
  elementKey : Value → String

namespace Redactor

variable {σ : Type}

/-- The redactor of a registry without the methods that a configuration switches off. -/
def ofConfig (registry : Registry σ) (config : Config) (elementKey : Value → String) : Redactor σ :=
  ⟨config.disabledMethods.foldl Registry.disable registry, config, elementKey⟩

def ofRegistry (registry : Registry σ) (elementKey : Value → String) : Redactor σ :=
  ⟨registry, .standard, elementKey⟩

def standard (elementKey : Value → String) : Redactor σ := ofRegistry .builtin elementKey

/-- The groups of a call: those that it names, or else the configured ones. -/
def groupsFor (r : Redactor σ) (groups : List String) : List String :=
  if groups.isEmpty then r.config.defaultGroups else groups

def walker (r : Redactor σ) (groups : List String) : Walker :=
  ⟨r.elementKey, r.groupsFor groups, false⟩

def redact (r : Redactor σ) (v : Value) (groups : List String) : RedactM σ Value :=
  v.walk (·.metadata r.registry) (r.walker groups)

def compile (r : Redactor σ) (instruction : String) : CompileM CompileError σ Evaluator :=
  Redaction.compile r.registry instruction

def metadata (r : Redactor σ) (t : RecordType) : RedactM σ Metadata := t.metadata r.registry

end Redactor

end Redaction
