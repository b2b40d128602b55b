/-!
# Integers in decimal digits

Reading takes one optional sign and at least one digit, and nothing else; leading zeros are allowed.
Offsets are integers of 64 bits, so the reader for them refuses what does not fit.
-/

namespace Redaction.Number

def digitsValue (ds : List Char) : Nat :=
  ds.foldl (fun n d => 10 * n + (d.toNat - '0'.toNat)) 0

def readNat? (cs : List Char) : Option Nat :=
  if cs.isEmpty then none
  else if cs.all Char.isDigit then some (digitsValue cs)
  else none

/-- An integer from an optional sign and digits. -/
def readInt? : List Char → Option Int
  | '-' :: cs => (readNat? cs).map fun n => -(n : Int)
  | '+' :: cs => (readNat? cs).map fun n => (n : Int)
  | cs => (readNat? cs).map fun n => (n : Int)

/-- The least integer of 64 bits with a sign, and the greatest. -/
def least64 : Int := -9223372036854775808

def greatest64 : Int := 9223372036854775807

def Fits64 (n : Int) : Prop := least64 ≤ n ∧ n ≤ greatest64

instance (n : Int) : Decidable (Fits64 n) := inferInstanceAs (Decidable (_ ∧ _))

def readInt64? (s : String) : Option Int :=
  (readInt? s.toList).filter fun n => Fits64 n

/-- The integer of 64 bits that is nearest to an integer. -/
def clamp64 (n : Int) : Int := max least64 (min n greatest64)

/-- The digits of a number, the most significant first, without leading zeros. -/
def digits (n : Nat) : List Char := Nat.toDigits 10 n

def writeInt (n : Int) : String :=
  String.ofList (if n < 0 then '-' :: digits n.natAbs else digits n.natAbs)

end Redaction.Number
