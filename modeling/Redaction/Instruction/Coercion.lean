import Redaction.Instruction.Node
import Redaction.Number.Decimal

/-!
# Literals read as other types

A method takes each of its arguments as the type that it needs. Reading never fails: a literal that
has no value of that type gives the zero of the type.
-/

namespace Redaction.Instruction.Literal

open Redaction.Number

/-- The words for the two truth values in configuration files. -/
def readBool? (s : String) : Option Bool :=
  if s ∈ ["1", "t", "T", "TRUE", "true", "True"] then some true
  else if s ∈ ["0", "f", "F", "FALSE", "false", "False"] then some false
  else none

def writeBool (b : Bool) : String := if b then "true" else "false"

def asText : Literal → String
  | nil => ""
  | text s => s
  | int n => writeInt n
  | float x => x.write .double
  | bool b => writeBool b

/-- A literal as an integer of 64 bits; a float loses its fraction and is held to the range. -/
def asInt : Literal → Int
  | nil => 0
  | text s => (readInt64? s).getD 0
  | int n => n
  | float .nan => 0
  | float (.infinite negative) => if negative then least64 else greatest64
  | float x => (x.truncate?.map clamp64).getD 0
  | bool b => if b then 1 else 0

def asFloat : Literal → Binary
  | nil => Format.double.zero false
  | text s => (Binary.read? .double s).getD (Format.double.zero false)
  | int n => Format.double.ofInt n
  | float x => x
  | bool b => Format.double.ofInt (if b then 1 else 0)

/-- A literal as a truth value; a number is true unless it is zero. -/
def asBool : Literal → Bool
  | nil => false
  | text s => (readBool? s).getD false
  | int n => n != 0
  | float x => !x.isZero
  | bool b => b

end Redaction.Instruction.Literal
