import Redaction.Instruction.Token

/-!
# A cursor over an instruction

A scanner stands between two octets of an instruction. It gives one octet after another, can step
back over the last one, and reads tokens from where it stands.
-/

namespace Redaction.Instruction

/-- One octet as seen by its role, or the end of the instruction. -/
inductive Scanned where
  | content (b : UInt8)
  | delimiter (d : Delimiter)
  | finish
  deriving DecidableEq, Repr

namespace Scanned

def ofByte (b : UInt8) : Scanned :=
  match Delimiter.ofByte? b with
  | some d => .delimiter d
  | none => .content b

/-- Whether an octet bounds a bare text; the end does too. -/
def isStructural : Scanned → Bool
  | content _ => false
  | _ => true

end Scanned

/-- A place in an instruction: the octets before it, the last one first, and the octets after it. -/
structure Scanner where
  passed : List UInt8
  ahead : List UInt8
  deriving DecidableEq, Repr

namespace Scanner

def ofString (s : String) : Scanner := ⟨[], Text.Utf8.encode s⟩

def offset (s : Scanner) : Nat := s.passed.length

def atEnd (s : Scanner) : Bool := s.ahead.isEmpty

/-- The place `n` octets further on, or the end. -/
def advance (s : Scanner) (n : Nat) : Scanner :=
  ⟨(s.ahead.take n).reverse ++ s.passed, s.ahead.drop n⟩

/-- The place from which `left` octets are left, for a `left` that ends the octets ahead. -/
def leaving (s : Scanner) (left : List UInt8) : Scanner :=
  s.advance (s.ahead.length - left.length)

def next (s : Scanner) : Scanned × Scanner :=
  match s.ahead with
  | [] => (.finish, s)
  | b :: rest => (.ofByte b, ⟨b :: s.passed, rest⟩)

/-- The place one octet back; at the start, the start. -/
def rewind (s : Scanner) : Scanner :=
  match s.passed with
  | [] => s
  | b :: before => ⟨before, b :: s.ahead⟩

def bareText (s : Scanner) : String × Scanner := (readBare octets s.ahead).map id s.leaving

def quotedText (s : Scanner) : String × Scanner := (readQuoted octets s.ahead).map id s.leaving

def list (s : Scanner) : List Token × Scanner := (readList octets [] s.ahead).map id s.leaving

def remaining (s : Scanner) : List Scanned × Scanner :=
  (s.ahead.map .ofByte, s.leaving [])

end Scanner

end Redaction.Instruction
