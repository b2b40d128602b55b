import Redaction.Instruction.Coercion
import Redaction.Instruction.Delimiter
import Redaction.Number.Integer

/-!
# The grammar of instructions

Instructions as they are documented: rules joined by `|`, each a selector, a method and perhaps
arguments. The parts carry what the grammar asks of them, so that whatever is written from them is
in the grammar, and reading it gives the nodes that the parts stand for.
-/

namespace Redaction.Instruction.Grammar

open Redaction.Number

/-- A name without any of the nine delimiters, which is neither a number nor a truth value. -/
structure Identifier where
  text : String
  plain : ∀ c ∈ text.toList, Delimiter.ofChar? c = none
  other : ∃ c ∈ text.toList, c.isDigit = false ∧ c ≠ '.' ∧ c ≠ '-'
  not_truth : ∀ b : Bool, text.toList.map Char.toLower ≠ (Literal.writeBool b).toList

def signedValue (negative : Bool) (digits : List Char) : Int :=
  if negative then -(digitsValue digits : Int) else digitsValue digits

/-- Decimal digits under an optional minus sign, whose value fits into 64 bits. -/
structure Numeral where
  negative : Bool
  digits : List Char
  ne_nil : digits ≠ []
  isDigit : ∀ d ∈ digits, d.isDigit = true
  fits : Fits64 (signedValue negative digits)

def Numeral.value (n : Numeral) : Int := signedValue n.negative n.digits

/-- Decimal digits under an optional minus sign, however many there are. -/
structure Integral where
  negative : Bool
  digits : List Char
  ne_nil : digits ≠ []
  isDigit : ∀ d ∈ digits, d.isDigit = true

def Integral.value (n : Integral) : Int := signedValue n.negative n.digits

def Numeral.integral (n : Numeral) : Integral := ⟨n.negative, n.digits, n.ne_nil, n.isDigit⟩

inductive Argument where
  | quoted (text : String) (h : text.toList.head? ≠ some '~')
  | word (name : Identifier)
  | int (value : Numeral)
  | truth (value : Bool) (spelling : String)
      (h : spelling.toList.map Char.toLower = (Literal.writeBool value).toList)

structure Group where
  inverted : Bool
  name : Identifier

inductive Selector where
  | single (name : Identifier)
  | list (groups : List Group) (h : groups ≠ [])

structure Rule where
  inverted : Bool
  selector : Selector
  method : Identifier
  params : Option (List Argument)

/-! ## Writing -/

def mark (inverted : Bool) : List Char := if inverted then ['~'] else []

/-- Text between quotes, where quotes and escapes are escaped. -/
def escaped (cs : List Char) : List Char :=
  cs.flatMap fun c => if c = '"' ∨ c = escape then [escape, c] else [c]

def Numeral.write (n : Numeral) : List Char := if n.negative then '-' :: n.digits else n.digits

def Integral.write (n : Integral) : List Char := if n.negative then '-' :: n.digits else n.digits

def Argument.write : Argument → List Char
  | quoted text _ => '"' :: escaped text.toList ++ ['"']
  | word name => name.text.toList
  | int value => value.write
  | truth _ spelling _ => spelling.toList

def Group.write (g : Group) : List Char := mark g.inverted ++ g.name.text.toList

def Selector.write : Selector → List Char
  | single name => name.text.toList
  | list groups _ => '[' :: [','].intercalate (groups.map Group.write) ++ [']']

def Rule.write (r : Rule) : List Char :=
  mark r.inverted ++ r.selector.write ++ '=' :: r.method.text.toList ++
    match r.params with
    | none => []
    | some args => '(' :: [','].intercalate (args.map Argument.write) ++ [')']

def write (rules : List Rule) : String := String.ofList (['|'].intercalate (rules.map Rule.write))

/-! ## What the parts stand for -/

def Argument.literal : Argument → Literal
  | quoted text _ => .text text
  | word name => .text name.text
  | int value => .int value.value
  | truth value _ _ => .bool value

def Selector.groups : Selector → List Group
  | single name => [⟨false, name⟩]
  | list groups _ => groups

def Group.node (g : Group) : Node := .scalar (.text g.name.text) g.inverted

def Selector.node (inverted : Bool) : Selector → Node
  | single name => .scalar (.text name.text) inverted
  | list groups _ => .set (groups.map Group.node) inverted

def Argument.node (a : Argument) : Node := .scalar a.literal false

def Rule.paramNodes (r : Rule) : List Node :=
  match r.params with
  | none => []
  | some args => [.params (args.map Argument.node) false]

def Rule.nodes (r : Rule) : List Node :=
  r.selector.node r.inverted :: .run :: .scalar (.text r.method.text) false :: r.paramNodes

end Redaction.Instruction.Grammar
