import Redaction.Yaml.Lexeme

/-!
# Trees of YAML

A document as a tree of scalars, sequences and mappings. Whatever is missing, such as the value of a
key with nothing after it, is the empty plain scalar.
-/

namespace Redaction.Yaml

/-- A node of a document; the entries of a mapping keep their order, and keys may repeat. -/
inductive Tree where
  | scalar (style : Style) (text : String)
  | sequence (items : List Tree)
  | mapping (entries : List (Tree × Tree))
  deriving Repr

namespace Tree

def empty : Tree := .scalar .plain ""

/-- What is left of lexemes without the first one, if it is the given one. -/
def expect (l : Lexeme) : List Lexeme → Option (List Lexeme)
  | m :: rest => if m = l then some rest else none
  | [] => none

def nextIn (ls : List Lexeme) (rest : List Lexeme) : Bool := rest.head?.any ls.contains

mutual

/-- The node at the front of lexemes and what is left after it, with a bound on the depth of calls.
Blocks stand only outside of brackets; as a value of a block mapping a sequence may stand without a
block of its own. -/
def read (n : Nat) (block bare : Bool) (ls : List Lexeme) : Option (Tree × List Lexeme) :=
  match n with
  | 0 => none
  | n + 1 =>
      match ls with
      | .scalar style text :: rest => some (.scalar style text, rest)
      | .openSequence :: rest => (readFlowItems n true rest).map fun r => (.sequence r.1, r.2)
      | .openMapping :: rest => (readFlowEntries n true rest).map fun r => (.mapping r.1, r.2)
      | .entry :: rest =>
          if bare then (readBareItems n (.entry :: rest)).map fun r => (.sequence r.1, r.2)
          else none
      | .blockSequence :: rest =>
          if block then (readItems n rest).map fun r => (.sequence r.1, r.2) else none
      | .blockMapping :: rest =>
          if block then (readEntries n rest).map fun r => (.mapping r.1, r.2) else none
      | _ => none

def readUnless (n : Nat) (ends : List Lexeme) (block bare : Bool) (ls : List Lexeme) :
    Option (Tree × List Lexeme) :=
  match n with
  | 0 => none
  | n + 1 => if nextIn ends ls then some (.empty, ls) else read n block bare ls

def readValueUnless (n : Nat) (ends : List Lexeme) (block : Bool) (ls : List Lexeme) :
    Option (Tree × List Lexeme) :=
  match n with
  | 0 => none
  | n + 1 =>
      match expect .value ls with
      | some rest => readUnless n ends block block rest
      | none => some (.empty, ls)

def readItems (n : Nat) (ls : List Lexeme) : Option (List Tree × List Lexeme) :=
  match n with
  | 0 => none
  | n + 1 =>
      match ls with
      | .blockEnd :: rest => some ([], rest)
      | .entry :: rest => do
          let (item, rest) ← readUnless n [.entry, .blockEnd] true false rest
          let (items, rest) ← readItems n rest
          pure (item :: items, rest)
      | _ => none

/-- The entries of a sequence without a block of its own. -/
def readBareItems (n : Nat) (ls : List Lexeme) : Option (List Tree × List Lexeme) :=
  match n with
  | 0 => none
  | n + 1 =>
      match expect .entry ls with
      | none => some ([], ls)
      | some rest => do
          let (item, rest) ← readUnless n [.entry, .key, .value, .blockEnd] true false rest
          let (items, rest) ← readBareItems n rest
          pure (item :: items, rest)

def readEntries (n : Nat) (ls : List Lexeme) : Option (List (Tree × Tree) × List Lexeme) :=
  match n with
  | 0 => none
  | n + 1 =>
      match ls with
      | .blockEnd :: rest => some ([], rest)
      | .key :: rest => do
          let ends : List Lexeme := [.key, .value, .blockEnd]
          let (key, rest) ← readUnless n ends true true rest
          let (value, rest) ← readValueUnless n ends true rest
          let (entries, rest) ← readEntries n rest
          pure ((key, value) :: entries, rest)
      | _ => none

/-- The entries of a sequence in brackets. A key among them makes a mapping of one entry. A key mark
with no key after it uses up the lexeme that follows, be it the colon, the comma or the bracket. -/
def readFlowItems (n : Nat) (first : Bool) (ls : List Lexeme) :
    Option (List Tree × List Lexeme) :=
  match n with
  | 0 => none
  | n + 1 =>
      match expect .closeSequence ls with
      | some rest => some ([], rest)
      | none => do
          let ls ← if first then some ls else expect .comma ls
          match ls with
          | .closeSequence :: rest => pure ([], rest)
          | .key :: rest => do
              let (key, rest) ←
                if nextIn [.value, .comma, .closeSequence] rest then some (.empty, rest.tail)
                else read n false false rest
              let (value, rest) ← readValueUnless n [.comma, .closeSequence] false rest
              let (items, rest) ← readFlowItems n false rest
              pure (.mapping [(key, value)] :: items, rest)
          | _ => do
              let (item, rest) ← read n false false ls
              let (items, rest) ← readFlowItems n false rest
              pure (item :: items, rest)

/-- The entries of a mapping in brackets. An entry without a colon has the empty value. -/
def readFlowEntries (n : Nat) (first : Bool) (ls : List Lexeme) :
    Option (List (Tree × Tree) × List Lexeme) :=
  match n with
  | 0 => none
  | n + 1 =>
      match expect .closeMapping ls with
      | some rest => some ([], rest)
      | none => do
          let ls ← if first then some ls else expect .comma ls
          match ls with
          | .closeMapping :: rest => pure ([], rest)
          | .key :: rest => do
              let (key, rest) ← readUnless n [.value, .comma, .closeMapping] false false rest
              let (value, rest) ← readValueUnless n [.comma, .closeMapping] false rest
              let (entries, rest) ← readFlowEntries n false rest
              pure ((key, value) :: entries, rest)
          | _ => do
              let (key, rest) ← read n false false ls
              let (entries, rest) ← readFlowEntries n false rest
              pure ((key, .empty) :: entries, rest)

end

/-- The only document of lexemes; without any content it is the empty node. -/
def ofLexemes? (ls : List Lexeme) : Option Tree := do
  let bound := 3 * ls.length + 3
  let (tree, rest) ←
    match ls with
    | [] => some (empty, [])
    | .documentStart :: rest =>
        if rest.isEmpty then some (empty, [])
        else readUnless bound [.documentStart, .documentEnd] true false rest
    | _ => read bound true false ls
  if rest.all (· == .documentEnd) then some tree else none

def ofText? (text : String) : Option Tree := (lexemes? text).bind ofLexemes?

end Tree

end Redaction.Yaml
