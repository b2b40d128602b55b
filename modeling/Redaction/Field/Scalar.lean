import Redaction.Number.Binary

/-!
# Scalars

What a redaction method sees of a field: a text, a number, a truth value or a character.
-/

namespace Redaction

open Redaction.Number

inductive IntType where
  | i8
  | i16
  | i32
  | i64
  | i128
  | isize
  | u8
  | u16
  | u32
  | u64
  | u128
  | usize
  deriving DecidableEq, Repr

def IntType.name : IntType → String
  | i8 => "i8"
  | i16 => "i16"
  | i32 => "i32"
  | i64 => "i64"
  | i128 => "i128"
  | isize => "isize"
  | u8 => "u8"
  | u16 => "u16"
  | u32 => "u32"
  | u64 => "u64"
  | u128 => "u128"
  | usize => "usize"

inductive FloatType where
  | f32
  | f64
  deriving DecidableEq, Repr

namespace FloatType

def name : FloatType → String
  | f32 => "f32"
  | f64 => "f64"

def format : FloatType → Format
  | f32 => .single
  | f64 => .double

end FloatType

/-- A leaf that a method can change. -/
inductive Scalar where
  | text (value : String)
  | int (type : IntType) (value : Int)
  | float (type : FloatType) (value : Binary)
  | bool (value : Bool)
  | char (value : Char)
  deriving DecidableEq, Repr

inductive ScalarType where
  | text
  | int (type : IntType)
  | float (type : FloatType)
  | bool
  | char
  deriving DecidableEq, Repr

def ScalarType.name : ScalarType → String
  | text => "string"
  | int type => type.name
  | float type => type.name
  | bool => "bool"
  | char => "char"

namespace Scalar

def type : Scalar → ScalarType
  | text _ => .text
  | int type _ => .int type
  | float type _ => .float type
  | bool _ => .bool
  | char _ => .char

def text? : Scalar → Option String
  | text s => some s
  | _ => none

def zero : Scalar → Scalar
  | text _ => text ""
  | int type _ => int type 0
  | float type _ => float type (type.format.zero false)
  | bool _ => bool false
  | char _ => char '\x00'

@[simp] theorem type_zero (s : Scalar) : s.zero.type = s.type := by
  cases s <;> rfl

end Scalar

end Redaction
