import Redaction.Text.Blank

/-!
# Identifiers

Which characters form an identifier and which part tokens. A character beyond ASCII does the one or
the other: no token but a literal holds any more of them.
-/

namespace Redaction.Derivation

/-- White space parts tokens, and so do the two marks of writing direction. -/
def isGap (c : Char) : Bool := Text.isWhiteSpace c || c == '\u200E' || c == '\u200F'

def isIdentStart (c : Char) : Bool := c.isAlpha || c == '_' || (0x80 ≤ c.toNat && !isGap c)

def isIdentRest (c : Char) : Bool := isIdentStart c || c.isDigit

/-- The identifier at the front, with the mark of a raw one, and the characters after it. -/
def splitIdent : List Char → List Char × List Char
  | 'r' :: '#' :: cs => ('r' :: '#' :: cs.takeWhile isIdentRest, cs.dropWhile isIdentRest)
  | cs => (cs.takeWhile isIdentRest, cs.dropWhile isIdentRest)

def withSuffix : List Char × List Char → List Char × List Char
  | (literal, c :: rest) =>
      if isIdentStart c then
        (literal ++ (c :: rest).takeWhile isIdentRest, (c :: rest).dropWhile isIdentRest)
      else (literal, c :: rest)
  | (literal, []) => (literal, [])

def keywords : List String :=
  ["_", "abstract", "as", "async", "await", "become", "box", "break", "const", "continue", "crate",
   "do", "dyn", "else", "enum", "extern", "false", "final", "fn", "for", "if", "impl", "in", "let",
   "loop", "macro", "match", "mod", "move", "mut", "override", "priv", "pub", "ref", "return",
   "Self", "self", "static", "struct", "super", "trait", "true", "try", "type", "typeof", "unsafe",
   "unsized", "use", "virtual", "where", "while", "yield"]

def unraw (name : String) : String :=
  match name.toList with
  | 'r' :: '#' :: rest => String.ofList rest
  | _ => name

end Redaction.Derivation
