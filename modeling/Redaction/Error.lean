import Redaction.Field.Scalar
import Redaction.Instruction.Node

/-!
# Errors

Errors are split by the phase that raises them: a method that is bound to arguments or meets a
value, an instruction that is compiled, and a whole redaction. Each is a cause, worded by its
`message`.
-/

namespace Redaction

open Redaction.Instruction

inductive TransformError where
  | notText (method : String) (found : ScalarType)
  | invalidArgument (method : String) (reason : String)
  deriving DecidableEq, Repr

def TransformError.message : TransformError → String
  | notText method found =>
      "in redaction method " ++ method ++ ": value can only be a string, found " ++ found.name
  | invalidArgument method reason =>
      "in redaction method " ++ method ++ ": invalid argument: " ++ reason

inductive ChainFault where
  | noSelector (instruction : String)
  | selectorEntry (found : Kind)
  | noRun (instruction : String)
  | methodName (instruction : String) (found : Kind)
  deriving DecidableEq, Repr

def ChainFault.message : ChainFault → String
  | noSelector instruction => "no group selector found in '" ++ instruction ++ "'"
  | selectorEntry found => "group selector entries must be identifiers, found " ++ found.name
  | noRun instruction => "group selector in '" ++ instruction ++ "' is not followed by '='"
  | methodName instruction found =>
      "method name in '" ++ instruction ++ "' must be a string, found " ++ found.name

inductive CompileError where
  | invalidChain (fault : ChainFault)
  | unknownMethod (method : String)
  | invalidArgument (found : Kind)
  | method (method : String) (instruction : String) (source : TransformError)
  deriving DecidableEq, Repr

def CompileError.message : CompileError → String
  | invalidChain fault => "invalid operation chain: " ++ fault.message
  | unknownMethod name =>
      "no matching transformer found: transformer for " ++ name ++ " not found"
  | invalidArgument found =>
      "invalid argument: " ++ found.name ++ " is not a valid opcode for an argument"
  | method name instruction source =>
      "could not compile method " ++ name ++ " for rule " ++ instruction ++ ": " ++ source.message

inductive RedactError where
  | notRecord (typeName : String)
  | compile (typeName : String) (field : String) (source : CompileError)
  | transform (typeName : String) (field : String) (source : TransformError)
  | noMetadata (typeName : String) (index : Nat)
  | arrayLength (expected : Nat) (found : Nat)
  deriving DecidableEq, Repr

def RedactError.message : RedactError → String
  | notRecord typeName => "must be struct or map/slice of structs, found " ++ typeName
  | compile typeName field source =>
      "failed to compile instruction for field '" ++ field ++ "' of " ++ typeName ++ ": " ++
        source.message
  | transform typeName field source =>
      "failed to redact field '" ++ field ++ "' of " ++ typeName ++ ": " ++ source.message
  | noMetadata typeName index =>
      "internal redaction error: " ++ typeName ++ " has no field metadata at index " ++
        toString index
  | arrayLength expected found =>
      "internal redaction error: array of length " ++ toString expected ++ " rebuilt with " ++
        toString found ++ " elements"

end Redaction
