import Redaction.Derivation.Source

/-!
# Described items

A type as it is declared: its name, its generic parameters, and its fields with their types and
attributes. Types, bounds and predicates are source text. Of the arguments of an attribute a text
literal denotes a text, a word is an identifier or a keyword, and every other token is a mark.
-/

namespace Redaction.Derivation

/-- A token among the arguments of an attribute. A text literal carries the text that it denotes. -/
inductive Argument where
  | text (literal : SourceToken) (value : String)
  | word (name : String)
  | mark (source : SourceToken)
  deriving DecidableEq, Repr

namespace Argument

def ofToken (t : SourceToken) : Argument :=
  match textValue? t.toList with
  | some value => text t value
  | none => if isWord t then word t else mark t

/-- The literal of a text in which only quotes and backslashes are escaped. -/
def ofText (s : String) : Argument := ofToken (textLiteral s)

def ofSource (source : String) : List Argument := (sourceTokens source).map ofToken

end Argument

/-- How an attribute is written: with arguments in brackets, alone, or with a value after `=`. -/
inductive AttributeForm where
  | list (arguments : List Argument)
  | bare
  | value
  deriving DecidableEq, Repr

structure Attribute where
  path : List SourceToken
  form : AttributeForm
  deriving DecidableEq, Repr

/-- A declared field; in a tuple it has no name. -/
structure FieldDecl where
  name : Option String
  type : String
  attributes : List Attribute
  deriving DecidableEq, Repr

inductive Shape where
  | named
  | tuple
  | unit
  deriving DecidableEq, Repr

structure VariantDecl where
  name : String
  shape : Shape
  fields : List FieldDecl
  deriving DecidableEq, Repr

inductive Body where
  | struct (shape : Shape) (fields : List FieldDecl)
  | enum (variants : List VariantDecl)
  | union
  deriving DecidableEq, Repr

/-- A generic parameter; defaults play no part here. -/
inductive Param where
  | lifetime (name : String) (bounds : String)
  | type (name : String) (bounds : String)
  | const (name : String) (type : String)
  deriving DecidableEq, Repr

structure Item where
  name : String
  params : List Param
  predicates : List String
  body : Body
  deriving DecidableEq, Repr

end Redaction.Derivation
