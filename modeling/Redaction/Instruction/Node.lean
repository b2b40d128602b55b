import Redaction.Number.Binary

/-!
# The nodes of an instruction

An instruction is a list of nodes: literals, sets in square brackets, parameter lists in round ones,
and two markers. A mark of inversion may stand before all but the markers.
-/

namespace Redaction.Instruction

open Redaction.Number

inductive Literal where
  | nil
  | text (value : String)
  | int (value : Int)
  | float (value : Binary)
  | bool (value : Bool)
  deriving DecidableEq, Repr

inductive Kind where
  | set
  | params
  | text
  | float
  | int
  | bool
  | run
  | nil
  | chain
  deriving DecidableEq, Repr

def Kind.name : Kind → String
  | set => "set"
  | params => "params"
  | text => "string"
  | float => "float"
  | int => "int"
  | bool => "bool"
  | run => "run"
  | nil => "nil"
  | chain => "chain"

def Literal.kind : Literal → Kind
  | nil => .nil
  | text _ => .text
  | int _ => .int
  | float _ => .float
  | bool _ => .bool

/-- An element of an instruction. A run marker parts a selector from a method, a chain marker parts
rules. -/
inductive Node where
  | scalar (literal : Literal) (inverted : Bool)
  | set (children : List Node) (inverted : Bool)
  | params (children : List Node) (inverted : Bool)
  | run
  | chain
  deriving Repr

namespace Node

def kind : Node → Kind
  | scalar literal _ => literal.kind
  | set .. => .set
  | params .. => .params
  | run => .run
  | chain => .chain

def isInverted : Node → Bool
  | scalar _ inverted | set _ inverted | params _ inverted => inverted
  | run | chain => false

def children : Node → List Node
  | set children _ | params children _ => children
  | _ => []

def text? : Node → Option String
  | scalar (.text s) _ => some s
  | _ => none

end Node

end Redaction.Instruction
