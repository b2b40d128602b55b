/-!
# Binary floating-point numbers

A finite number is a sign, a mantissa and a power of two. A format bounds both; rounding takes a
fraction to the nearest number of a format, and of two equally near ones to that with the even
mantissa.
-/

namespace Redaction.Number

/-- A binary format: mantissas have at most `precision` bits, and exponents run from `least` to
`greatest`. -/
structure Format where
  precision : Nat
  least : Int
  greatest : Int
  deriving DecidableEq, Repr

def Format.double : Format := ⟨53, -1074, 971⟩

def Format.single : Format := ⟨24, -149, 104⟩

/-- A floating-point number; `finite` stands for `mantissa * 2 ^ exponent` under its sign. -/
inductive Binary where
  | nan
  | infinite (negative : Bool)
  | finite (negative : Bool) (mantissa : Nat) (exponent : Int)
  deriving DecidableEq, Repr

/-- A fraction rounded to a whole number, a half going to the even neighbour. -/
def roundHalfEven (num den : Nat) : Nat :=
  let q := num / den
  let twice := 2 * (num % den)
  if twice > den || (twice == den && q % 2 == 1) then q + 1 else q

/-- The greatest `e` with `2 ^ e ≤ num / den`. -/
def binaryOrder (num den : Nat) : Int :=
  let e : Int := (num.log2 : Int) - den.log2
  if den * Nat.pow 2 e.toNat ≤ num * Nat.pow 2 (-e).toNat then e else e - 1

namespace Format

def zero (f : Format) (negative : Bool) : Binary := .finite negative 0 f.least

/-- The exponent of the numbers of a format next to a positive fraction. -/
def exponentAt (f : Format) (num den : Nat) : Int :=
  max f.least (binaryOrder num den - (f.precision - 1))

def round (f : Format) (negative : Bool) (num den : Nat) : Binary :=
  if num = 0 then f.zero negative
  else
    let e := f.exponentAt num den
    let m := roundHalfEven (num * Nat.pow 2 (-e).toNat) (den * Nat.pow 2 e.toNat)
    let carried := m == Nat.pow 2 f.precision
    let e := if carried then e + 1 else e
    if e > f.greatest then .infinite negative
    else .finite negative (if carried then Nat.pow 2 (f.precision - 1) else m) e

def ofInt (f : Format) (n : Int) : Binary := f.round (n < 0) n.natAbs 1

end Format

namespace Binary

def isZero : Binary → Bool
  | finite _ m _ => m == 0
  | _ => false

def truncate? : Binary → Option Int
  | finite negative m e =>
      let whole : Nat := if 0 ≤ e then m * Nat.pow 2 e.toNat else m / Nat.pow 2 (-e).toNat
      some (if negative then -(whole : Int) else whole)
  | _ => none

end Binary

end Redaction.Number
