import Redaction.Instruction.Coercion
import Redaction.Rule.Basic

/-!
# Evaluators in diagnostics

The form in which diagnostics show an evaluator and its rules; transformers are not shown.
-/

namespace Redaction

open Redaction.Text Redaction.Instruction

/-- A named group of values: each as its name, a colon and its text. -/
def describeRecord (name : String) (fields : List (String × String)) : String :=
  name ++ " \x7b " ++ ", ".intercalate (fields.map fun f => f.1 ++ ": " ++ f.2) ++ " \x7d"

def describeList (items : List String) : String := "[" ++ ", ".intercalate items ++ "]"

def GroupSelector.describe (s : GroupSelector) : String :=
  describeRecord "GroupSelector"
    [("identifier", quoted s.identifier), ("inverted", Literal.writeBool s.inverted)]

def Rule.describe (r : Rule) : String :=
  describeRecord "Rule"
    [("groups", describeList (r.groups.map (·.describe))),
      ("run_on_no_match", Literal.writeBool r.runOnNoMatch), ("method", quoted r.method)]

def Evaluator.describe (e : Evaluator) : String :=
  describeRecord "Evaluator"
    [("instruction", quoted e.instruction), ("rules", describeList (e.rules.map (·.describe)))]

end Redaction
