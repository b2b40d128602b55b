/-!
# Delimiters

The nine octets that carry grammar in an instruction. Every other octet is content.
-/

namespace Redaction.Instruction

inductive Delimiter where
  | openSet
  | closeSet
  | openParams
  | closeParams
  | comma
  | quote
  | run
  | invert
  | chain
  deriving DecidableEq, Repr

namespace Delimiter

def char : Delimiter → Char
  | openSet => '['
  | closeSet => ']'
  | openParams => '('
  | closeParams => ')'
  | comma => ','
  | quote => '"'
  | run => '='
  | invert => '~'
  | chain => '|'

def byte (d : Delimiter) : UInt8 := d.char.toNat.toUInt8

def all : List Delimiter :=
  [openSet, closeSet, openParams, closeParams, comma, quote, run, invert, chain]

def ofChar? (c : Char) : Option Delimiter := all.find? fun d => d.char == c

def ofByte? (b : UInt8) : Option Delimiter := all.find? fun d => d.byte == b

@[simp] theorem mem_all (d : Delimiter) : d ∈ all := by
  cases d <;> decide

@[simp] theorem ofChar?_char (d : Delimiter) : ofChar? d.char = some d := by
  cases d <;> decide

theorem char_of_ofChar? {c : Char} {d : Delimiter} (h : ofChar? c = some d) : d.char = c := by
  simpa using List.find?_some h

theorem byte_of_ofByte? {b : UInt8} {d : Delimiter} (h : ofByte? b = some d) : d.byte = b := by
  simpa using List.find?_some h

/-- An octet of a character beyond ASCII is never a delimiter. -/
theorem byte_lt (d : Delimiter) : d.byte < 0x80 := by
  cases d <;> decide

end Delimiter

def isStructural (b : UInt8) : Bool := (Delimiter.ofByte? b).isSome

/-- The character that makes the next one literal within quotes. -/
def escape : Char := '\\'

def escapeByte : UInt8 := escape.toNat.toUInt8

end Redaction.Instruction
