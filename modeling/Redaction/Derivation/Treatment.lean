import Redaction.Derivation.Item
import Redaction.Text.Blank

/-!
# The treatment of a field

The attribute `redact` of a field says what a redaction does with it. A field has at most one, and
the attribute holds an instruction, or one of two words; anything else is an error of the item.
-/

namespace Redaction.Derivation

/-- What a redaction does with a field: it applies an instruction, walks a field that is listed as
nested or one that is not listed at all, or only copies the field. -/
inductive Treatment where
  | apply (literal : SourceToken) (instruction : String)
  | nested
  | walk
  | skip
  deriving DecidableEq, Repr

inductive ItemError where
  | isUnion
  | duplicateAttribute
  | emptyInstruction
  | unknownOption
  | unexpectedToken
  | notIdentifier
  | keyword (word : String)
  | noArgument
  | noBrackets
  | valueForm
  deriving DecidableEq, Repr

def ItemError.message : ItemError → String
  | isUnion => "Redact cannot be derived for unions"
  | duplicateAttribute => "duplicate #[redact] attribute"
  | emptyInstruction => "redact instruction cannot be empty"
  | unknownOption => "expected an instruction string, `nested` or `skip`"
  | unexpectedToken => "unexpected token"
  | notIdentifier => "expected identifier"
  | keyword word => "expected identifier, found keyword `" ++ word ++ "`"
  | noArgument => "unexpected end of input, expected identifier"
  | noBrackets => "expected attribute arguments in parentheses: #[redact(...)]"
  | valueForm => "expected parentheses: #[redact(...)]"

def Treatment.ofWord (name : String) : Except ItemError Treatment :=
  if name ∈ keywords then .error (.keyword name)
  else if name = "nested" then .ok .nested
  else if name = "skip" then .ok .skip
  else .error .unknownOption

def Treatment.ofArgument : Argument → Except ItemError Treatment
  | .text literal value =>
      if Text.isBlank value then .error .emptyInstruction else .ok (.apply literal value)
  | .word name => Treatment.ofWord name
  | .mark _ => .error .notIdentifier

/-- The treatment that an attribute states. A fault of the first argument comes before one of those
after it. -/
def Treatment.ofForm : AttributeForm → Except ItemError Treatment
  | .bare => .error .noBrackets
  | .value => .error .valueForm
  | .list [] => .error .noArgument
  | .list (first :: more) => do
      let treatment ← ofArgument first
      if more.isEmpty then pure treatment else throw .unexpectedToken

def Treatment.ofAttributesAfter (found : Option Treatment) :
    List Attribute → Except ItemError Treatment
  | [] => .ok (found.getD .walk)
  | a :: rest =>
      if a.path ≠ ["redact"] then ofAttributesAfter found rest
      else if found.isSome then .error .duplicateAttribute
      else do
        let treatment ← ofForm a.form
        ofAttributesAfter (some treatment) rest

def Treatment.ofAttributes (attributes : List Attribute) : Except ItemError Treatment :=
  ofAttributesAfter none attributes

end Redaction.Derivation
