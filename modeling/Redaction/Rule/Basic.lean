import Redaction.Method.Basic
import Redaction.Text.LowerCase
import Redaction.Text.Quoted

/-!
# Rules and their evaluation

A rule says for which caller groups a transformer applies. An evaluator is the compiled form of an
instruction: it asks its rules in order, for the caller's groups in order, and the first rule with
an answer decides.
-/

namespace Redaction

open Redaction.Text

/-- The group of a caller who names none. -/
def noGroup : String := "none"

/-- The selector that every group falls under. -/
def wildcard : String := "all"

/-- A group named by a rule; an inverted one excludes the group from the rule. -/
structure GroupSelector where
  identifier : String
  inverted : Bool
  deriving DecidableEq, Repr

/-- A compiled rule. With `runOnNoMatch` it applies also to groups that it does not name. -/
structure Rule where
  groups : List GroupSelector
  runOnNoMatch : Bool
  method : String
  transformer : Transformer

structure Evaluator where
  instruction : String
  rules : List Rule

inductive Verdict where
  | apply
  | exclude
  | pass
  deriving DecidableEq, Repr

/-- What selectors say about a group: the first that names the group decides; if none does, the rule
applies when it is open to other groups, or when a selector is inverted or the wildcard. -/
def verdictOf (group : String) (runOnNoMatch : Bool) : List GroupSelector → Verdict
  | [] => if runOnNoMatch then .apply else .pass
  | s :: rest =>
      if s.identifier = group then if s.inverted then .exclude else .apply
      else verdictOf group (runOnNoMatch || s.inverted || s.identifier == wildcard) rest

def Rule.verdict (r : Rule) (group : String) : Verdict := verdictOf group r.runOnNoMatch r.groups

/-- The outcome of an evaluation: whether some rule decided, and the value afterwards. -/
structure Outcome where
  matched : Bool
  value : Scalar
  deriving DecidableEq, Repr

namespace Evaluator

section

variable {μ : Type → Type} [Monad μ] (run : Rule → Scalar → μ Scalar)

def evaluateGroupWith (rules : List Rule) (group : String) (value : Scalar) : μ Outcome :=
  match rules with
  | [] => pure ⟨false, value⟩
  | r :: rest =>
      match r.verdict group with
      | .apply => (⟨true, ·⟩) <$> run r value
      | .exclude => pure ⟨true, value⟩
      | .pass => evaluateGroupWith rest group value

/-- The evaluation of rules for groups in order, up to the first group for which a rule decides. -/
def evaluateGroupsWith (rules : List Rule) (value : Scalar) : List String → μ Outcome
  | [] => pure ⟨false, value⟩
  | g :: rest => do
      let outcome ← evaluateGroupWith run rules (lower g) value
      if outcome.matched then pure outcome else evaluateGroupsWith rules value rest

/-- An evaluation in which `run` runs the transformer of a rule; what else that does is left to the
monad. -/
def evaluateWith (e : Evaluator) (value : Scalar) (groups : List String) : μ Outcome :=
  if groups.isEmpty then evaluateGroupWith run e.rules noGroup value
  else evaluateGroupsWith run e.rules value groups

end

def evaluate (e : Evaluator) (value : Scalar) (groups : List String) :
    Except TransformError Outcome :=
  e.evaluateWith (fun r s => r.transformer s) value groups

end Evaluator

end Redaction
