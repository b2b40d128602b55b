import Redaction.Derivation.Identifier
import Redaction.Number.Integer

/-!
# Numerals

A numeral is whole unless it has a fraction or an exponent. A point makes no fraction before another
point or before an identifier, and an exponent needs a digit; a suffix ends the numeral.
-/

namespace Redaction.Derivation

def isDigitOrGap (c : Char) : Bool := c.isDigit || c == '_'

/-- The exponent at the front, `e` and an optional sign before its digits, and what follows. -/
def splitExponent? (cs : List Char) : Option (List Char × List Char) :=
  match cs with
  | e :: rest =>
      let gap := rest.takeWhile (· == '_')
      let signed := rest.dropWhile (· == '_')
      let sign := signed.take (if signed.head? = some '+' ∨ signed.head? = some '-' then 1 else 0)
      let unsigned := signed.drop sign.length
      let digits := unsigned.takeWhile isDigitOrGap
      if (e = 'e' ∨ e = 'E') ∧ digits.any Char.isDigit then
        some (e :: gap ++ sign ++ digits, unsigned.dropWhile isDigitOrGap)
      else none
  | [] => none

def splitNumeral (cs : List Char) : List Char × List Char :=
  let whole := cs.takeWhile isDigitOrGap
  let afterWhole := cs.dropWhile isDigitOrGap
  let plain := (cs.takeWhile isIdentRest, cs.dropWhile isIdentRest)
  match afterWhole with
  | '.' :: rest =>
      if rest.head?.any fun c => c == '.' || isIdentStart c then plain
      else
        let fraction := whole ++ '.' :: rest.takeWhile isDigitOrGap
        let afterFraction := rest.dropWhile isDigitOrGap
        match splitExponent? afterFraction with
        | some (exponent, left) => withSuffix (fraction ++ exponent, left)
        | none => withSuffix (fraction, afterFraction)
  | _ =>
      match splitExponent? afterWhole with
      | some (exponent, left) => withSuffix (whole ++ exponent, left)
      | none => plain

def digitValue? (c : Char) : Option Nat :=
  if c.isDigit then some (c.toNat - '0'.toNat)
  else if 'a' ≤ c ∧ c ≤ 'f' then some (c.toNat - 'a'.toNat + 10)
  else if 'A' ≤ c ∧ c ≤ 'F' then some (c.toNat - 'A'.toNat + 10)
  else none

/-- The number that digits of a base spell; other characters are passed over. -/
def spelledValue (base : Nat) (cs : List Char) : Nat :=
  (cs.filterMap digitValue?).foldl (fun n d => base * n + d) 0

def wholeValue : List Char → Nat
  | '0' :: 'x' :: cs => spelledValue 16 cs
  | '0' :: 'o' :: cs => spelledValue 8 cs
  | '0' :: 'b' :: cs => spelledValue 2 cs
  | cs => spelledValue 10 cs

/-- A place in a tuple is a number without a base, gaps or leading zeros. -/
def placeToken? (part : List Char) : Option String :=
  if part.isEmpty then none else some (String.ofList (Number.digits (wholeValue part)))

/-- The tokens of a numeral that stands for places in nested tuples, of which `part` is read: its
points are marks of their own. -/
def placeTokens (part : List Char) : List Char → List String
  | [] => (placeToken? part).toList
  | c :: rest =>
      if c = '.' then (placeToken? part).toList ++ "." :: placeTokens [] rest
      else placeTokens (part ++ [c]) rest

end Redaction.Derivation
