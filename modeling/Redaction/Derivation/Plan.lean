import Redaction.Derivation.Treatment
import Redaction.Record.Spec

/-!
# The plan of a redaction

From an item comes the list of its annotated fields, and for each variant the steps by which a value
of it is redacted. A step that applies an instruction names the entry of the list that holds it.
-/

namespace Redaction.Derivation

/-- A field with its treatment and its place among the fields of its variant. -/
structure PlannedField where
  name : Option String
  position : Nat
  type : String
  treatment : Treatment
  deriving DecidableEq, Repr

/-- A variant, or the whole of a record, which has no variant name. -/
structure Arm where
  variant : Option String
  shape : Shape
  fields : List PlannedField
  deriving DecidableEq, Repr

inductive Action where
  | apply (index : Nat)
  | walk
  deriving DecidableEq, Repr

structure Step where
  field : PlannedField
  action : Action
  deriving DecidableEq, Repr

namespace PlannedField

def label (f : PlannedField) : String :=
  match f.name with
  | some name => unraw name
  | none => toString f.position

/-- The name under which a field of a variant is listed. -/
def specName (variant : Option String) (f : PlannedField) : String :=
  match variant with
  | some v => v ++ "." ++ f.label
  | none => f.label

def spec? (variant : Option String) (f : PlannedField) : Option FieldSpec :=
  match f.treatment with
  | .apply _ instruction => some (.ofInstruction (f.specName variant) instruction)
  | .nested => some (.ofNested (f.specName variant))
  | .walk | .skip => none

def isWalked (f : PlannedField) : Bool := f.treatment != .skip

end PlannedField

/-- The steps for fields of which the first that is listed has the place `index` in the list. -/
def stepsFrom (index : Nat) : List PlannedField → List Step
  | [] => []
  | f :: rest =>
      match f.treatment with
      | .apply .. => ⟨f, .apply index⟩ :: stepsFrom (index + 1) rest
      | .nested => ⟨f, .walk⟩ :: stepsFrom (index + 1) rest
      | .walk => ⟨f, .walk⟩ :: stepsFrom index rest
      | .skip => stepsFrom index rest

def Arm.specs (a : Arm) : List FieldSpec := a.fields.filterMap (·.spec? a.variant)

/-- The steps of arms of which the first listed field has the place `index` in the list. -/
def armStepsFrom (index : Nat) : List Arm → List (List Step)
  | [] => []
  | a :: rest => stepsFrom index a.fields :: armStepsFrom (index + a.specs.length) rest

structure Plan where
  arms : List Arm
  deriving DecidableEq, Repr

namespace Plan

def specs (p : Plan) : List FieldSpec := p.arms.flatMap Arm.specs

def steps (p : Plan) : List (List Step) := armStepsFrom 0 p.arms

end Plan

/-- The fields of a variant with their treatments; the first fault ends it. -/
def planFields (position : Nat) : List FieldDecl → Except ItemError (List PlannedField)
  | [] => .ok []
  | f :: rest => do
      let treatment ← Treatment.ofAttributes f.attributes
      let later ← planFields (position + 1) rest
      pure (⟨f.name, position, f.type, treatment⟩ :: later)

def VariantDecl.arm (v : VariantDecl) : Except ItemError Arm :=
  (planFields 0 v.fields).map fun fields => ⟨some v.name, v.shape, fields⟩

def Item.plan (item : Item) : Except ItemError Plan :=
  match item.body with
  | .struct shape fields => (planFields 0 fields).map fun fields => ⟨[⟨none, shape, fields⟩]⟩
  | .enum variants => (variants.mapM VariantDecl.arm).map fun arms => ⟨arms⟩
  | .union => .error .isUnion

end Redaction.Derivation
