import Redaction.Number.Binary
import Redaction.Number.Integer

/-!
# Floating-point numbers in decimal

Reading is exact: the decimal is taken as a fraction and rounded once. Writing takes the fewest
digits that read back as the same number, the nearest of those to it, and of two equally near ones
the greater; it never writes an exponent.
-/

namespace Redaction.Number

/-- The number `digits * 10 ^ exponent` under a sign. -/
structure Decimal where
  negative : Bool
  digits : Nat
  exponent : Int
  deriving DecidableEq, Repr

/-- The exponent after an `e`: an optional sign and digits up to the end; nothing at all is zero. -/
def readExponent? : List Char → Option Int
  | [] => some 0
  | c :: cs => if c = 'e' ∨ c = 'E' then readInt? cs else none

/-- A decimal without its sign: digits with a point somewhere, of which one digit must be there, and
an exponent. -/
def Decimal.readUnsigned? (negative : Bool) (cs : List Char) : Option Decimal :=
  let whole := cs.takeWhile Char.isDigit
  let rest := cs.dropWhile Char.isDigit
  let afterPoint := if rest.head? = some '.' then rest.tail else []
  let fraction := afterPoint.takeWhile Char.isDigit
  let rest := if rest.head? = some '.' then afterPoint.dropWhile Char.isDigit else rest
  if whole.isEmpty && fraction.isEmpty then none
  else
    (readExponent? rest).map fun e =>
      ⟨negative, digitsValue (whole ++ fraction), e - fraction.length⟩

/-- The number of a format nearest to a decimal. Decimals far beyond the format on either side are
told by the count of their digits alone. -/
def Decimal.toBinary (f : Format) (d : Decimal) : Binary :=
  let order := d.exponent + (Number.digits d.digits).length
  if d.digits = 0 ∨ order < f.least then f.zero d.negative
  else if order > f.greatest + f.precision + 1 then .infinite d.negative
  else f.round d.negative (d.digits * Nat.pow 10 d.exponent.toNat)
    (Nat.pow 10 (-d.exponent).toNat)

/-- A number from its text without the sign; infinity and not-a-number are words, in any case. -/
def readUnsigned? (f : Format) (negative : Bool) (cs : List Char) : Option Binary :=
  let word := String.ofList (cs.map Char.toLower)
  if word = "inf" ∨ word = "infinity" then some (.infinite negative)
  else if word = "nan" then some .nan
  else (Decimal.readUnsigned? negative cs).map (·.toBinary f)

def Binary.read? (f : Format) (s : String) : Option Binary :=
  match s.toList with
  | '-' :: cs => readUnsigned? f true cs
  | '+' :: cs => readUnsigned? f false cs
  | cs => readUnsigned? f false cs

/-- The fractions that round to a number, over a common denominator: the ends of their interval, the
number itself, and whether the ends round to it too. -/
structure Neighbourhood where
  low : Nat
  value : Nat
  high : Nat
  den : Nat
  closed : Bool
  deriving DecidableEq, Repr

/-- The neighbourhood of `m * 2 ^ e`. Below a power of two the numbers lie twice as dense. -/
def Format.neighbourhood (f : Format) (m : Nat) (e : Int) : Neighbourhood :=
  let unit := Nat.pow 2 (e - 2).toNat
  let below := if m = Nat.pow 2 (f.precision - 1) ∧ f.least < e then 1 else 2
  { low := (4 * m - below) * unit
    value := 4 * m * unit
    high := (4 * m + 2) * unit
    den := Nat.pow 2 (2 - e).toNat
    closed := m % 2 == 0 }

namespace Neighbourhood

def holds (r : Neighbourhood) (scale grid n : Nat) : Bool :=
  if r.closed then r.low * scale ≤ n * grid && n * grid ≤ r.high * scale
  else r.low * scale < n * grid && n * grid < r.high * scale

/-- The multiple of `10 ^ k` that is nearest to the number among those in its neighbourhood, as the
factor of `10 ^ k`. -/
def multiple? (r : Neighbourhood) (k : Int) : Option Nat :=
  let scale := Nat.pow 10 (-k).toNat
  let grid := Nat.pow 10 k.toNat * r.den
  let value := r.value * scale
  let n := value / grid
  let below := r.holds scale grid n
  let above := r.holds scale grid (n + 1)
  if below && (!above || 2 * (value - n * grid) < grid) then some n
  else if above then some (n + 1)
  else none

/-- An exponent of ten at which the number has no digit yet. -/
def decimalOrder (r : Neighbourhood) : Int :=
  if r.den ≤ r.value then (digits (r.value / r.den)).length
  else 2 - (digits (r.den / r.value)).length

/-- The fewest digits of a decimal in the neighbourhood, with the exponent of the last of them. -/
def shortest (r : Neighbourhood) (bound : Nat) : Nat × Int :=
  ((List.range bound).findSome? fun i : Nat =>
    let k := r.decimalOrder - (i : Int)
    (r.multiple? k).map (·, k)).getD (0, 0)

end Neighbourhood

/-- Digits times a power of ten, written out without an exponent. -/
def writePositional (ds : List Char) (k : Int) : List Char :=
  if 0 ≤ k then ds ++ List.replicate k.toNat '0'
  else
    let places := (-k).toNat
    if places < ds.length then
      ds.take (ds.length - places) ++ '.' :: ds.drop (ds.length - places)
    else '0' :: '.' :: (List.replicate (places - ds.length) '0' ++ ds)

def Format.writeMagnitude (f : Format) (m : Nat) (e : Int) : List Char :=
  if m = 0 then ['0']
  else
    let (n, k) := (f.neighbourhood m e).shortest (f.precision + 3)
    writePositional (digits n) k

def Binary.write (f : Format) : Binary → String
  | nan => "NaN"
  | infinite negative => if negative then "-inf" else "inf"
  | finite negative m e =>
      String.ofList (if negative then '-' :: f.writeMagnitude m e else f.writeMagnitude m e)

end Redaction.Number
