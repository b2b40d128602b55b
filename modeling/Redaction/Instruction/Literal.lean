import Redaction.Instruction.Node
import Redaction.Instruction.Token
import Redaction.Number.Decimal

/-!
# From tokens to literals

Quoted text is always text. Bare text is a number if it looks like one and reads as one, a truth
value if it is one of the two words in any case, and text otherwise. A leading `~` inverts the node
and is taken off, except from a number.
-/

namespace Redaction.Instruction

open Redaction.Number

/-- A text without the inversion mark at its start, and whether there was one. -/
def stripInversion (s : String) : String × Bool :=
  match s.toList with
  | '~' :: rest => (String.ofList rest, true)
  | _ => (s, false)

def looksNumeric (s : String) : Bool :=
  s.toList.all fun c => c.isDigit || c == '.' || c == '-'

/-- The literal of a text that looks like a number. A point makes it a float. -/
def Literal.ofNumeric (s : String) : Literal :=
  if '.' ∈ s.toList then ((Binary.read? .double s).map .float).getD (.text s)
  else ((readInt64? s).map .int).getD (.text s)

def Literal.ofWord (s : String) : Literal :=
  let word := String.ofList (s.toList.map Char.toLower)
  if word = "true" then .bool true
  else if word = "false" then .bool false
  else .text s

/-- The literal of a token, and whether the token itself inverts it. -/
def Token.literal : Token → Literal × Bool
  | quoted s => (stripInversion s).map .text id
  | bare s =>
      if s.isEmpty then (.nil, false)
      else if looksNumeric s then (.ofNumeric s, false)
      else (stripInversion s).map .ofWord id

/-- The node of a token; `pending` tells of an inversion mark right before it. -/
def Node.ofToken (token : Token) (pending : Bool) : Node :=
  .scalar token.literal.1 (token.literal.2 || pending)

end Redaction.Instruction
