/-!
# Annotated fields

A record type lists the fields that carry an annotation: an instruction, or the mark of a composite
field.
-/

namespace Redaction

structure FieldSpec where
  name : String
  instruction : Option String
  nested : Bool
  deriving DecidableEq, Repr

namespace FieldSpec

def ofInstruction (name instruction : String) : FieldSpec := ⟨name, some instruction, false⟩

def ofNested (name : String) : FieldSpec := ⟨name, none, true⟩

end FieldSpec

end Redaction
