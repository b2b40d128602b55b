/-!
# Characters of YAML

Which characters a document may hold, which of them are blanks and line breaks, and where a reader
stands among them.
-/

namespace Redaction.Yaml

def isAllowed (c : Char) : Bool :=
  c == '\t' || c == '\n' || c == '\r' || c == '\u0085' ||
    (0x20 ≤ c.toNat && c.toNat ≤ 0x7E) ||
    (0xA0 ≤ c.toNat && c != '\uFFFE' && c != '\uFFFF')

def isBlank (c : Char) : Bool := c == ' ' || c == '\t'

def isBreak (c : Char) : Bool := c == '\n' || c == '\u2028' || c == '\u2029'

def blankNext (cs : List Char) : Bool :=
  match cs with
  | [] => true
  | c :: _ => isBlank c || isBreak c

/-- A text with each of the breaks `\r\n`, `\r` and U+0085 as `\n`. -/
def unifyBreaks : List Char → List Char
  | [] => []
  | '\r' :: '\n' :: rest => '\n' :: unifyBreaks rest
  | c :: rest => (if c = '\r' ∨ c = '\u0085' then '\n' else c) :: unifyBreaks rest

/-- The mark that may stand before the first character of a line. It takes up a column. -/
def byteOrderMark : Char := '\uFEFF'

/-- The place of a character: how many octets come before it in the document, how many lines, and
how many characters on its line. -/
structure Place where
  index : Nat
  line : Nat
  column : Nat
  deriving DecidableEq, Repr

def Place.after (p : Place) (c : Char) : Place :=
  if isBreak c then ⟨p.index + c.utf8Size, p.line + 1, 0⟩
  else ⟨p.index + c.utf8Size, p.line, p.column + 1⟩

def markerAt (p : Place) (cs : List Char) : Bool :=
  p.column == 0 && (cs.take 3 == ['-', '-', '-'] || cs.take 3 == ['.', '.', '.']) &&
    blankNext (cs.drop 3)

end Redaction.Yaml
