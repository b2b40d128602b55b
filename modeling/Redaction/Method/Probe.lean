import Redaction.Method.Builtin

/-!
# Probing methods

Methods that bring to light how rules are compiled and run: which arguments a factory gets, how
often it is called, and what becomes of a method that refuses its arguments or its value.
-/

namespace Redaction.Method

open Redaction.Instruction Redaction.Number

/-- The change of a text; other scalars are left alone. -/
def ifText (change : String → String) : Transformer := .onText change .keep

/-- An argument under every reading: its kind, and it as text, integer, float and truth value. -/
def describeArgument (arg : Literal) : String :=
  "<" ++ " ".intercalate
    [arg.kind.name, arg.asText, writeInt arg.asInt, arg.asFloat.write .double,
      Literal.writeBool arg.asBool] ++ ">"

section

variable {σ : Type}

def upper : Factory σ :=
  .ofFunction fun _ => ifText fun s => String.ofList (s.toList.map Char.toUpper)

def pick : Factory σ := fun args =>
  if args.isEmpty then throw (.invalidArgument "pick" "expected one argument")
  else pure .keep

def showArguments : Factory σ :=
  .ofFunction fun args => ifText fun _ => String.join (args.map describeArgument)

/-- A method whose transformer always fails, for the reason given as its argument. -/
def fail : Factory σ := .ofFunction fun args =>
  .refuse fun _ => .invalidArgument "fail" ((args.head?.map (·.asText)).getD "")

end

/-- A method that counts the calls of its factory, and adds the count to the text. -/
def tally : Factory Nat := fun _ => do
  let n := (← get) + 1
  set n
  pure (ifText fun s => s ++ "#" ++ toString n)

end Redaction.Method
