import Redaction.Yaml.Character

/-!
# Scalars of YAML

Plain and quoted scalars may run over several lines. Blanks around a line break are dropped; one
break becomes a space, and of several all but the first stay.
-/

namespace Redaction.Yaml

/-- What was passed over since the last character of a scalar: blanks, or line breaks with blanks
around them. An escaped break counts for no break. -/
inductive Gap where
  | blanks (cs : List Char)
  | breaks (first : Option Char) (later : List Char)
  deriving DecidableEq, Repr

namespace Gap

def none : Gap := blanks []

def hasBreak : Gap → Bool
  | blanks _ => false
  | breaks .. => true

def add (c : Char) : Gap → Gap
  | blanks cs => if isBreak c then breaks (some c) [] else blanks (cs ++ [c])
  | breaks first later => if isBreak c then breaks first (later ++ [c]) else breaks first later

def text : Gap → List Char
  | blanks cs => cs
  | breaks first later =>
      if first = some '\n' then if later.isEmpty then [' '] else later
      else first.toList ++ later

end Gap

/-- A scalar that was read: its text, what is left after it, and whether a line ended right before
what is left. -/
structure ReadScalar where
  text : String
  rest : List Char
  place : Place
  lineEnded : Bool

/-- Where a scalar stands: within brackets, or in a block that is indented by a number of columns.
-/
structure Surroundings where
  inFlow : Bool
  indent : Int
  deriving DecidableEq, Repr

/-- Whether a plain scalar ends before a character that `rest` follows. After a gap a comment or a
marker ends it too, and so does a line that is not indented as its block. -/
def plainEnds (s : Surroundings) (gap : Gap) (p : Place) (c : Char) (rest : List Char) : Bool :=
  (c == ':' && blankNext rest) ||
    (s.inFlow && [',', '[', ']', '{', '}'].contains c) ||
    (gap != .none && c == '#') ||
    (gap.hasBreak && (markerAt p (c :: rest) || (!s.inFlow && (p.column : Int) < s.indent)))

/-- Whether a colon stands where it neither belongs to a plain scalar nor ends it. -/
def strayColon (s : Surroundings) (c : Char) (rest : List Char) : Bool :=
  s.inFlow && c == ':' && rest.head?.any [',', '?', '[', ']', '{', '}'].contains

def readPlain (s : Surroundings) (text : List Char) (gap : Gap) (p : Place) :
    List Char → Option ReadScalar
  | [] => some ⟨String.ofList text, [], p, gap.hasBreak⟩
  | c :: rest =>
      if isBlank c || isBreak c then
        if c == '\t' && gap.hasBreak && decide ((p.column : Int) < s.indent) then none
        else readPlain s text (gap.add c) (p.after c) rest
      else if plainEnds s gap p c rest then
        some ⟨String.ofList text, c :: rest, p, gap.hasBreak⟩
      else if strayColon s c rest then none
      else readPlain s (text ++ gap.text ++ [c]) .none (p.after c) rest

def escapeOf? (c : Char) : Option Char :=
  [('0', '\x00'), ('a', '\x07'), ('b', '\x08'), ('t', '\t'), ('\t', '\t'), ('n', '\n'),
    ('v', '\x0b'), ('f', '\x0c'), ('r', '\r'), ('e', '\x1b'), (' ', ' '), ('"', '"'), ('/', '/'),
    ('\\', '\\'), ('N', '\u0085'), ('_', '\u00a0'), ('L', '\u2028'), ('P', '\u2029')].lookup c

def hexCount? (c : Char) : Option Nat := [('x', 2), ('u', 4), ('U', 8)].lookup c

def hexDigit? (c : Char) : Option Nat :=
  if c.isDigit then some (c.toNat - '0'.toNat)
  else if 'a' ≤ c ∧ c ≤ 'f' then some (c.toNat - 'a'.toNat + 10)
  else if 'A' ≤ c ∧ c ≤ 'F' then some (c.toNat - 'A'.toNat + 10)
  else none

/-- Where a reader stands within double quotes: between characters, after a backslash, or within the
digits of a code point. -/
inductive EscapeState where
  | outside
  | backslash
  | digits (left : Nat) (value : Nat)
  deriving DecidableEq, Repr

/-- A scalar in double quotes, its opening quote read, after the text and the gap that were read. -/
def readDouble (state : EscapeState) (text : List Char) (gap : Gap) (p : Place) :
    List Char → Option ReadScalar
  | [] => none
  | c :: rest =>
      match state with
      | .outside =>
          if isBlank c || isBreak c then readDouble .outside text (gap.add c) (p.after c) rest
          else if gap.hasBreak && markerAt p (c :: rest) then none
          else if c = '"' then
            some ⟨String.ofList (text ++ gap.text), rest, p.after c, false⟩
          else if c = '\\' then readDouble .backslash (text ++ gap.text) .none (p.after c) rest
          else readDouble .outside (text ++ gap.text ++ [c]) .none (p.after c) rest
      | .backslash =>
          if isBreak c then readDouble .outside text (.breaks none []) (p.after c) rest
          else
            match escapeOf? c, hexCount? c with
            | some e, _ => readDouble .outside (text ++ [e]) .none (p.after c) rest
            | none, some n => readDouble (.digits n 0) text .none (p.after c) rest
            | none, none => none
      | .digits left value =>
          match hexDigit? c with
          | none => none
          | some d =>
              let value := 16 * value + d
              if 1 < left then readDouble (.digits (left - 1) value) text .none (p.after c) rest
              else if value.isValidChar then
                readDouble .outside (text ++ [Char.ofNat value]) .none (p.after c) rest
              else none

/-- A scalar in single quotes, its opening quote read, after the text and the gap that were read. A
quote within it is written twice. -/
def readSingle (text : List Char) (gap : Gap) (p : Place) : List Char → Option ReadScalar
  | [] => none
  | '\'' :: '\'' :: rest =>
      readSingle (text ++ gap.text ++ ['\'']) .none ((p.after '\'').after '\'') rest
  | c :: rest =>
      if isBlank c || isBreak c then readSingle text (gap.add c) (p.after c) rest
      else if gap.hasBreak && markerAt p (c :: rest) then none
      else if c = '\'' then some ⟨String.ofList (text ++ gap.text), rest, p.after c, false⟩
      else readSingle (text ++ gap.text ++ [c]) .none (p.after c) rest

end Redaction.Yaml
