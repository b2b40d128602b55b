import Redaction.Derivation.Source

/-!
# Lists with the lifetimes first

Wherever lifetimes stand in a list of arguments or parameters, they are written before the rest of
it. The comma between two entries is always written, and the one after the last entry only if that
entry had one.
-/

namespace Redaction.Derivation

/-- An entry of a list, and whether a comma follows it in the source. -/
structure Entry (α : Type) where
  value : α
  comma : Bool
  deriving DecidableEq, Repr

namespace Entry

variable {α : Type}

def ofList : List α → List (Entry α)
  | [] => []
  | [x] => [⟨x, false⟩]
  | x :: rest => ⟨x, true⟩ :: ofList rest

def lifetimesFirst (isLifetime : α → Bool) (entries : List (Entry α)) : List (Entry α) :=
  entries.filter (isLifetime ·.value) ++ entries.filter (!isLifetime ·.value)

def write (writeValue : α → List SourceToken) : List (Entry α) → List SourceToken
  | [] => []
  | [e] => writeValue e.value ++ if e.comma then [","] else []
  | e :: rest => writeValue e.value ++ "," :: write writeValue rest

end Entry

end Redaction.Derivation
