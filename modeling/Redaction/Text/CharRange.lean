/-!
# Ranges of characters

A property of characters is a list of closed ranges of code points, and a character has the property
when some range holds it.
-/

namespace Redaction.Text

/-- The code points from `first` to `last`, both included. -/
structure CharRange where
  first : Nat
  last : Nat
  deriving DecidableEq, Repr

def CharRange.holds (r : CharRange) (c : Char) : Bool :=
  r.first ≤ c.toNat && c.toNat ≤ r.last

def inRanges (rs : List CharRange) (c : Char) : Bool :=
  rs.any (·.holds c)

end Redaction.Text
