/-!
# UTF-8

Texts as octets. `encode` writes a text; `decode` reads any octets and is total: a maximal part that
begins a character and does not finish it, and an octet that begins none, are each read as U+FFFD.
-/

namespace Redaction.Text.Utf8

def encode (s : String) : List UInt8 := s.toList.flatMap String.utf8EncodeChar

/-- The character that stands for octets that spell none. -/
def replacement : Char := '\uFFFD'

/-- A character of which the first octets are read: how many octets follow the next one, the least
and the greatest value of the next one, and the bits read so far. -/
structure Begun where
  later : Nat
  low : UInt8
  high : UInt8
  bits : Nat
  deriving DecidableEq, Repr

inductive Lead where
  | whole (c : Char)
  | begun (b : Begun)
  | stray
  deriving DecidableEq, Repr

/-- The leading octets, by the table of well-formed sequences. -/
def lead (b : UInt8) : Lead :=
  if b < 0x80 then .whole (Char.ofNat b.toNat)
  else if b < 0xC2 then .stray
  else if b < 0xE0 then .begun ⟨0, 0x80, 0xBF, b.toNat - 0xC0⟩
  else if b = 0xE0 then .begun ⟨1, 0xA0, 0xBF, 0⟩
  else if b = 0xED then .begun ⟨1, 0x80, 0x9F, 0xD⟩
  else if b < 0xF0 then .begun ⟨1, 0x80, 0xBF, b.toNat - 0xE0⟩
  else if b = 0xF0 then .begun ⟨2, 0x90, 0xBF, 0⟩
  else if b < 0xF4 then .begun ⟨2, 0x80, 0xBF, b.toNat - 0xF0⟩
  else if b = 0xF4 then .begun ⟨2, 0x80, 0x8F, 4⟩
  else .stray

/-- The bits of a begun character with those of one more octet. -/
def Begun.extend (p : Begun) (b : UInt8) : Nat := p.bits * 64 + (b.toNat - 0x80)

/-- The reading of octets after a begun character, if there is one. -/
def decodeFrom : Option Begun → List UInt8 → List Char
  | none, [] => []
  | some _, [] => [replacement]
  | none, b :: rest =>
      match lead b with
      | .whole c => c :: decodeFrom none rest
      | .begun p => decodeFrom (some p) rest
      | .stray => replacement :: decodeFrom none rest
  | some p, b :: rest =>
      if p.low ≤ b ∧ b ≤ p.high then
        match p.later with
        | 0 => Char.ofNat (p.extend b) :: decodeFrom none rest
        | n + 1 => decodeFrom (some ⟨n, 0x80, 0xBF, p.extend b⟩) rest
      else
        replacement ::
          match lead b with
          | .whole c => c :: decodeFrom none rest
          | .begun p => decodeFrom (some p) rest
          | .stray => replacement :: decodeFrom none rest

def decode (bytes : List UInt8) : String := String.ofList (decodeFrom none bytes)

/-- The text that octets spell when every one of them belongs to a character. -/
def decode? (bytes : List UInt8) : Option String :=
  let s := decode bytes
  if encode s = bytes then some s else none

end Redaction.Text.Utf8
