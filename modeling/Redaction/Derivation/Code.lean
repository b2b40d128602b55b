import Redaction.Derivation.Plan
import Redaction.Derivation.TypeText
import Redaction.Text.Quoted

/-!
# The code of a derived redaction

The two implementations that are written for an item: the walk, which carries out the steps of its
plan on a copy, and the list of its annotated fields.
-/

namespace Redaction.Derivation

def braced (inner : List SourceToken) : List SourceToken := "\x7b" :: inner ++ ["\x7d"]

def commaSeparated (rows : List (List SourceToken)) : List SourceToken :=
  [","].intercalate rows

/-- The expression for a field of a record, which is reached through the copy. -/
def PlannedField.access (f : PlannedField) : List SourceToken :=
  ["out", ".", f.name.getD (toString f.position)]

def PlannedField.binding (f : PlannedField) : SourceToken := "__redact_" ++ f.label

/-- The statement of a step. In a variant the field is bound by the pattern. -/
def Step.code (inVariant : Bool) (s : Step) : List SourceToken :=
  match s.action, inVariant with
  | .apply index, false =>
      sourceTokens "walker.apply(&metadata," ++ [toString index ++ "usize"] ++
        sourceTokens ", &mut" ++ s.field.access ++ sourceTokens ")?;"
  | .apply index, true =>
      sourceTokens "walker.apply(&metadata," ++ [toString index ++ "usize", ",", s.field.binding] ++
        sourceTokens ")?;"
  | .walk, false =>
      s.field.access ++ sourceTokens "= ::redact_core::Redact::walk(&" ++ s.field.access ++
        sourceTokens ", &walker)?;"
  | .walk, true =>
      "*" :: s.field.binding :: sourceTokens "= ::redact_core::Redact::walk(&*" ++
        s.field.binding :: sourceTokens ", &walker)?;"

def stepsCode (inVariant : Bool) (steps : List Step) : List SourceToken :=
  steps.flatMap (·.code inVariant)

def PlannedField.namedPattern (f : PlannedField) : List SourceToken :=
  [f.name.getD f.label, ":", f.binding, ","]

def Arm.pattern (a : Arm) : List SourceToken :=
  sourceTokens "Self::" ++ a.variant.toList ++
    match a.shape with
    | .named =>
        braced ((a.fields.filter (·.isWalked)).flatMap (·.namedPattern) ++ sourceTokens "..")
    | .tuple =>
        "(" :: commaSeparated
          (a.fields.map fun f => if f.isWalked then [f.binding] else ["_"]) ++ [")"]
    | .unit => []

def Arm.code (a : Arm) (steps : List Step) : List SourceToken :=
  a.pattern ++ sourceTokens "=>" ++ braced (stepsCode true steps)

def walkOpening : List SourceToken :=
  sourceTokens "let metadata = walker.metadata::<Self>()?; let walker = walker.enter_record();" ++
    sourceTokens "let mut out = ::core::clone::Clone::clone(self);"

def walkClosing : List SourceToken := sourceTokens "::core::result::Result::Ok(out)"

/-- The body of the walk. An item without variants has no value to walk. -/
def Plan.walkBody (p : Plan) (body : Body) : List SourceToken :=
  match body with
  | .enum [] => sourceTokens "match *self" ++ braced []
  | .enum _ =>
      walkOpening ++ sourceTokens "match &mut out" ++
        braced ((p.arms.zip p.steps).flatMap fun (arm, steps) => arm.code steps) ++ walkClosing
  | _ => walkOpening ++ stepsCode false p.steps.flatten ++ walkClosing

def PlannedField.specCode? (variant : Option String) (f : PlannedField) :
    Option (List SourceToken) :=
  let name := Text.quoted (f.specName variant)
  match f.treatment with
  | .apply literal _ =>
      some (sourceTokens "::redact_core::FieldSpec::instruction(" ++ [name, ",", literal, ")"])
  | .nested => some (sourceTokens "::redact_core::FieldSpec::nested(" ++ [name, ")"])
  | .walk | .skip => none

def Plan.specsCode (p : Plan) : List SourceToken :=
  sourceTokens "::std::vec![" ++
    commaSeparated (p.arms.flatMap fun a => a.fields.filterMap (·.specCode? a.variant)) ++ ["]"]

/-- A bound after a name; no bound writes no colon. -/
def boundCode (bounds : String) : List SourceToken :=
  let tokens := typeTokens bounds
  if tokens.isEmpty then [] else ":" :: tokens

namespace Param

def isLifetime : Param → Bool
  | lifetime .. => true
  | _ => false

def declaration : Param → List SourceToken
  | lifetime name bounds => sourceTokens name ++ boundCode bounds
  | type name bounds => name :: boundCode bounds
  | const name valueType => "const" :: name :: ":" :: typeTokens valueType

def use : Param → List SourceToken
  | lifetime name _ => sourceTokens name
  | type name _ | const name _ => [name]

end Param

/-- Parameters in angle brackets; none writes no brackets. -/
def paramsCode (write : Param → List SourceToken) (params : List Param) : List SourceToken :=
  if params.isEmpty then []
  else
    "<" :: Entry.write write (Entry.lifetimesFirst Param.isLifetime (Entry.ofList params)) ++ [">"]

def PlannedField.predicate? (f : PlannedField) : Option (List SourceToken) :=
  match f.treatment with
  | .apply .. => some (typeTokens f.type ++ sourceTokens ": ::redact_core::RedactField")
  | .nested | .walk => some (typeTokens f.type ++ sourceTokens ": ::redact_core::Redact")
  | .skip => none

/-- The predicates of the implementations. A generic item asks for more than it declares: that it
can be copied, and that each field that takes part can be redacted. -/
def Item.predicateCode (item : Item) (p : Plan) : List (List SourceToken) :=
  item.predicates.map typeTokens ++
    if item.params.isEmpty then []
    else
      sourceTokens "Self: ::core::clone::Clone + 'static" ::
        (p.arms.flatMap (·.fields)).filterMap (·.predicate?)

def whereCode (predicates : List (List SourceToken)) : List SourceToken :=
  if predicates.isEmpty then [] else "where" :: commaSeparated predicates

def Item.implementation (item : Item) (p : Plan) (interface : String)
    (members : List SourceToken) : List SourceToken :=
  "impl" :: paramsCode Param.declaration item.params ++ sourceTokens interface ++
    "for" :: item.name :: paramsCode Param.use item.params ++
    whereCode (item.predicateCode p) ++ braced members

def walkHead : List SourceToken :=
  sourceTokens "#[allow(unused_variables, unused_mut)]" ++
    sourceTokens "fn walk(&self, walker: &::redact_core::Walker<'_>,)" ++
    sourceTokens "-> ::core::result::Result<Self, ::redact_core::RedactError>"

def specsHead : List SourceToken :=
  sourceTokens "fn field_specs() -> ::std::vec::Vec<::redact_core::FieldSpec>"

def Item.code (item : Item) : Except ItemError (List SourceToken) :=
  item.plan.map fun p =>
    item.implementation p "::redact_core::Redact" (walkHead ++ braced (p.walkBody item.body)) ++
      item.implementation p "::redact_core::RedactRecord" (specsHead ++ braced p.specsCode)

end Redaction.Derivation
