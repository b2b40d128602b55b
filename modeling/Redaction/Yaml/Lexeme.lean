import Redaction.Yaml.Scalar

/-!
# Lexemes of YAML

A document as a row of lexemes, in which the indentation of blocks is spelled out by lexemes that
open and close them. Whether a scalar or a bracketed collection is the key of a block mapping shows
only at the colon after it, on the same line; the lexemes for the key are then put before it.

Anchors, tags, directives and block scalars are not read.
-/

namespace Redaction.Yaml

/-- A scalar that is plain means nothing when it is empty. -/
inductive Style where
  | plain
  | quoted
  deriving DecidableEq, Repr

inductive Lexeme where
  | documentStart
  | documentEnd
  | blockSequence
  | blockMapping
  | blockEnd
  | openSequence
  | closeSequence
  | openMapping
  | closeMapping
  | entry
  | comma
  | key
  | value
  | scalar (style : Style) (text : String)
  deriving DecidableEq, Repr

/-- A lexeme that a colon can turn into a key: how many lexemes come before it, where it begins, and
whether its line makes sense in no other way. -/
structure Candidate where
  lexemes : Nat
  place : Place
  required : Bool
  deriving DecidableEq, Repr

/-- A reader of lexemes: the characters ahead and their place, the lexemes read, the indentations of
the open blocks, the innermost first, the candidate at each depth of brackets, the innermost first,
and whether a key may begin here. -/
structure Lexer where
  ahead : List Char
  place : Place
  lexemes : List Lexeme
  indents : List Int
  candidates : List (Option Candidate)
  keyAllowed : Bool

namespace Lexer

def start (cs : List Char) : Lexer :=
  ⟨cs, ⟨0, 0, 0⟩, [], [-1], [none], true⟩

/-- The indentation of the innermost block; there is none outside of blocks. -/
def indent (s : Lexer) : Int := s.indents.head?.getD (-1)

def inFlow (s : Lexer) : Bool := 1 < s.candidates.length

def column (s : Lexer) : Int := s.place.column

def skip (s : Lexer) : Lexer :=
  match s.ahead with
  | [] => s
  | c :: rest => { s with ahead := rest, place := s.place.after c }

def insert (s : Lexer) (index : Nat) (l : Lexeme) : Lexer :=
  { s with lexemes := s.lexemes.take index ++ l :: s.lexemes.drop index }

def push (s : Lexer) (l : Lexeme) : Lexer := s.insert s.lexemes.length l

def candidate (s : Lexer) : Option Candidate := s.candidates.head?.join

def setCandidate (s : Lexer) (c : Option Candidate) : Lexer :=
  { s with candidates := c :: s.candidates.tail }

/-- A key begins at most this many octets before its colon. -/
def keyReach : Nat := 1024

def isStale (s : Lexer) (c : Candidate) : Bool :=
  c.place.line < s.place.line || c.place.index + keyReach < s.place.index

/-- The reader without the candidates that are too far back; none of those may be required. -/
def dropStale (s : Lexer) : Option Lexer :=
  if (s.candidates.any fun c => c.any fun c => s.isStale c && c.required) then none
  else some { s with candidates := s.candidates.map (·.filter fun c => !s.isStale c) }

/-- The reader without the innermost candidate, which may not be required. -/
def dropCandidate (s : Lexer) : Option Lexer :=
  if s.candidate.any (·.required) then none else some (s.setCandidate none)

/-- The reader with the next lexeme as a candidate, if a key may begin here. -/
def saveCandidate (s : Lexer) : Option Lexer :=
  if s.keyAllowed then
    let c : Candidate := ⟨s.lexemes.length, s.place, !s.inFlow && s.indent == s.column⟩
    (s.dropCandidate).map (·.setCandidate (some c))
  else some s

/-- The reader after the blocks that are indented by more than a column are closed. -/
def unrollTo (column : Int) (s : Lexer) : Lexer :=
  if s.inFlow then s
  else
    let closed := s.indents.takeWhile fun i => column < i
    { s with
      lexemes := s.lexemes ++ closed.map fun _ => .blockEnd
      indents := s.indents.drop closed.length }

/-- The reader within a block at a column, which opens there unless the innermost block is already
as far indented. -/
def rollTo (column : Int) (index : Nat) (opening : Lexeme) (s : Lexer) : Lexer :=
  if !s.inFlow && s.indent < column then
    { s with indents := column :: s.indents }.insert index opening
  else s

def take (l : Lexeme) (s : Lexer) : Lexer := s.skip.push l

def readMarker (l : Lexeme) (s : Lexer) : Option Lexer := do
  let s ← (s.unrollTo (-1)).dropCandidate
  pure { s.skip.skip.skip.push l with keyAllowed := false }

def openBracket (l : Lexeme) (s : Lexer) : Option Lexer := do
  let s ← s.saveCandidate
  pure { s.take l with candidates := none :: s.candidates, keyAllowed := true }

def closeBracket (l : Lexeme) (s : Lexer) : Option Lexer := do
  let s ← s.dropCandidate
  let outer := if s.inFlow then s.candidates.tail else s.candidates
  pure { s.take l with candidates := outer, keyAllowed := false }

def readComma (s : Lexer) : Option Lexer := do
  let s ← s.dropCandidate
  pure { s.take .comma with keyAllowed := true }

def readEntry (s : Lexer) : Option Lexer :=
  if !s.inFlow && !s.keyAllowed then none
  else do
    let s ← (s.rollTo s.column s.lexemes.length .blockSequence).dropCandidate
    pure { s.take .entry with keyAllowed := true }

def readKey (s : Lexer) : Option Lexer :=
  if !s.inFlow && !s.keyAllowed then none
  else do
    let s ← (s.rollTo s.column s.lexemes.length .blockMapping).dropCandidate
    pure { s.take .key with keyAllowed := !s.inFlow }

def readValue (s : Lexer) : Option Lexer :=
  match s.candidate with
  | some c =>
      let s := (s.insert c.lexemes .key).rollTo c.place.column c.lexemes .blockMapping
      some { (s.setCandidate none).take .value with keyAllowed := false }
  | none =>
      if !s.inFlow && !s.keyAllowed then none
      else
        let s := s.rollTo s.column s.lexemes.length .blockMapping
        some { s.take .value with keyAllowed := !s.inFlow }

def takeScalar (style : Style) (r : ReadScalar) (s : Lexer) : Lexer :=
  { s.push (.scalar style r.text) with
    ahead := r.rest
    place := r.place
    keyAllowed := r.lineEnded }

def readQuoted (read : Place → List Char → Option ReadScalar) (s : Lexer) : Option Lexer := do
  let s ← s.saveCandidate
  let r ← read s.skip.place s.skip.ahead
  pure (s.takeScalar .quoted r)

def readPlainScalar (s : Lexer) : Option Lexer := do
  let s ← s.saveCandidate
  let r ← readPlain ⟨s.inFlow, s.indent + 1⟩ [] .none s.place s.ahead
  pure (s.takeScalar .plain r)

def plainBegins (inFlow : Bool) (c : Char) (rest : List Char) : Bool :=
  if c = '-' then !blankNext rest
  else if c = '?' ∨ c = ':' then !inFlow && !blankNext rest
  else !isBlank c && !"-?:,[]\x7b\x7d#&*!|>'\"%@`".toList.contains c

def readLexeme (s : Lexer) (c : Char) (rest : List Char) : Option Lexer :=
  if markerAt s.place (c :: rest) then
    s.readMarker (if c = '-' then .documentStart else .documentEnd)
  else if c = '[' then s.openBracket .openSequence
  else if c = '\x7b' then s.openBracket .openMapping
  else if c = ']' then s.closeBracket .closeSequence
  else if c = '\x7d' then s.closeBracket .closeMapping
  else if c = ',' then s.readComma
  else if c = '-' ∧ blankNext rest then s.readEntry
  else if c = '?' ∧ (s.inFlow ∨ blankNext rest) then s.readKey
  else if c = ':' ∧ (s.inFlow ∨ blankNext rest) then s.readValue
  else if c = '"' then s.readQuoted (readDouble .outside [] .none)
  else if c = '\'' then s.readQuoted (readSingle [] .none)
  else if plainBegins s.inFlow c rest then s.readPlainScalar
  else none

/-- One step of reading: over a blank, a comment or a line break, or over a lexeme. A tab is a blank
only where no key may begin, and a byte order mark only at the start of a line. -/
def step (s : Lexer) (c : Char) (rest : List Char) : Option Lexer :=
  if c = ' ' ∨ (c = byteOrderMark ∧ s.column = 0) ∨
      (c = '\t' ∧ (s.inFlow ∨ !s.keyAllowed)) then some s.skip
  else if c = '#' then
    let comment := (c :: rest).takeWhile fun d => !isBreak d
    some (comment.foldl (fun s _ => s.skip) s)
  else if isBreak c then some { s.skip with keyAllowed := s.skip.keyAllowed || !s.inFlow }
  else do
    let s ← s.dropStale
    (s.unrollTo s.column).readLexeme c rest

/-- The lexemes after all characters are read: the open blocks are closed. -/
def finish (s : Lexer) : Option (List Lexeme) := do
  let s ← s.dropStale
  let s ← (s.unrollTo (-1)).dropCandidate
  pure s.lexemes

def run : Nat → Lexer → Option (List Lexeme)
  | n, s =>
      match n, s.ahead with
      | _, [] => s.finish
      | 0, _ => none
      | n + 1, c :: rest => (s.step c rest).bind (run n)

end Lexer

def lexemes? (text : String) : Option (List Lexeme) :=
  if text.toList.all isAllowed then
    let cs := unifyBreaks text.toList
    (Lexer.start cs).run (cs.length + 1)
  else none

end Redaction.Yaml
