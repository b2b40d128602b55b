import Redaction.Record.Spec
import Redaction.Rule.Compile

/-!
# Metadata of record types

A record type lists its annotated fields as specifications. Its metadata is the same list with every
instruction compiled; one instruction that does not compile leaves the type without metadata.
-/

namespace Redaction

structure FieldMetadata where
  name : String
  nested : Bool
  evaluator : Option Evaluator

def FieldMetadata.instruction? (f : FieldMetadata) : Option String :=
  f.evaluator.map (·.instruction)

structure Metadata where
  typeName : String
  fields : List FieldMetadata

namespace Metadata

variable {σ : Type}

def compileField (registry : Registry σ) (typeName : String) (spec : FieldSpec) :
    CompileM RedactError σ FieldMetadata := do
  let evaluator ← spec.instruction.mapM fun instruction =>
    (Redaction.compile registry instruction).adapt (.compile typeName spec.name)
  pure ⟨spec.name, spec.nested, evaluator⟩

/-- The metadata of a type; the first instruction that does not compile ends it. -/
def compile (registry : Registry σ) (typeName : String) (specs : List FieldSpec) :
    CompileM RedactError σ Metadata := do
  let fields ← specs.mapM (compileField registry typeName)
  pure ⟨typeName, fields⟩

def fieldNamed? (m : Metadata) (name : String) : Option FieldMetadata :=
  m.fields.find? fun f => f.name == name

end Metadata

end Redaction
