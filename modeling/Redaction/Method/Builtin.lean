import Redaction.Method.Basic
import Redaction.Instruction.Coercion

/-!
# The built-in methods

`zero` resets a value, `star` masks the characters beyond an offset, `remove` cuts them off, and
`redact` masks every character that is not allowed. Offsets count characters, from the start if they
are positive and from the end if they are negative, and reach no further than the text.
-/

namespace Redaction.Method

open Redaction.Instruction

/-- The change of a text by a function on its characters; other scalars are refused. -/
def onText (method : String) (change : List Char → List Char) : Transformer :=
  .onText (fun s => String.ofList (change s.toList)) (.refuse fun s => .notText method s.type)

/-- The first argument as an offset; without one, zero. -/
def offset (args : List Literal) : Int := (args.head?.map (·.asInt)).getD 0

/-- How many of `length` characters an offset keeps. -/
def keptCount (offset : Int) (length : Nat) : Nat := min offset.natAbs length

def starText (offset : Int) (cs : List Char) : List Char :=
  let keep := keptCount offset cs.length
  cs.mapIdx fun i c =>
    if (if 0 ≤ offset then i < keep else cs.length - keep ≤ i) then c else '*'

def removeText (offset : Int) (cs : List Char) : List Char :=
  let keep := keptCount offset cs.length
  if 0 ≤ offset then cs.take keep else cs.drop (cs.length - keep)

def maskText (mask : Char) (allowed : List Char) (cs : List Char) : List Char :=
  cs.map fun c => if c ∈ allowed then c else mask

/-- The mask of the method `redact`: the first character of its first argument, or a star. -/
def maskOf (args : List Literal) : Char := (args.head?.bind (·.asText.toList.head?)).getD '*'

/-- The characters that the method `redact` lets stand: those of its second argument. -/
def allowedOf (args : List Literal) : List Char := (args[1]?.map (·.asText.toList)).getD []

variable {σ : Type}

/-- The transformer of the method `zero`. -/
def reset : Transformer where
  run s := .ok s.zero
  type_run s t h := by
    cases h
    exact s.type_zero

def zero : Factory σ := .ofFunction fun _ => reset

def star : Factory σ := .ofFunction fun args => onText "star" (starText (offset args))

def remove : Factory σ := .ofFunction fun args => onText "remove" (removeText (offset args))

def redact : Factory σ :=
  .ofFunction fun args => onText "redact" (maskText (maskOf args) (allowedOf args))

end Redaction.Method
