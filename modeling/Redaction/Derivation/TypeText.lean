import Redaction.Derivation.Arrangement

/-!
# The text of types

A type, a bound or a predicate is written as it stands in the source, but the lists of arguments and
parameters within it have the lifetimes first. A lifetime stands alone between commas in no other
list, so `<` may be taken for the bracket of a list wherever it stands, and a comparison that is taken
for one is written as it was. The `::` between a path and round brackets is not written, and the `?`
of a bound is written before the lifetimes that the bound is for. The arguments of an invocation and
of an attribute are not looked into.
-/

namespace Redaction.Derivation

/-- Brackets that are still open: the bracket that closes them, whether their inside is looked into,
their finished entries, and the tokens of the entry begun, the latest first. -/
structure Frame where
  closing : Option SourceToken
  verbatim : Bool
  entries : List (Entry (List SourceToken))
  row : List SourceToken
  deriving DecidableEq, Repr

/-- Whether an entry is a lifetime, with its bounds if it is a parameter. An argument that goes on
otherwise is a type. -/
def isLifetimeEntry : List SourceToken → Bool
  | [quote, _] => quote == "'"
  | quote :: _ :: mark :: _ => quote == "'" && mark == ":"
  | _ => false

namespace Frame

def start (closing : Option SourceToken) (verbatim : Bool) : Frame := ⟨closing, verbatim, [], []⟩

def isList (f : Frame) : Bool := f.closing == some ">"

def allEntries (f : Frame) : List (Entry (List SourceToken)) :=
  if f.row.isEmpty then f.entries else f.entries ++ [⟨f.row.reverse, false⟩]

/-- The inside as it was read. -/
def unarranged (f : Frame) : List SourceToken := Entry.write id f.allEntries

def inside (f : Frame) : List SourceToken :=
  Entry.write id (Entry.lifetimesFirst isLifetimeEntry f.allEntries)

def append (f : Frame) (tokens : List SourceToken) : Frame :=
  { f with row := tokens.reverse ++ f.row }

/-- Whether the next brackets hold the arguments of an invocation, which has a name. If it defines
something, the name of that follows the mark. -/
def invokes (f : Frame) : Bool :=
  match if f.row.head?.any isWord then f.row.tail else f.row with
  | "!" :: name :: _ => isWord name && !keywords.contains name
  | _ => false

def opensAttribute (f : Frame) : Bool :=
  match f.row with
  | "[" :: "#" :: _ | "[" :: "!" :: "#" :: _ => true
  | _ => false

/-- The frame before round brackets, without the `::` that may lead to them. -/
def beforeRound (f : Frame) : Frame :=
  match f.row with
  | ":" :: ":" :: row => if f.verbatim then f else { f with row := row }
  | _ => f

/-- The frame with the mark of a relaxed bound, which goes before the lifetimes that the bound is
for. -/
def addRelaxed (f : Frame) : Frame :=
  match f.row.head?, f.row.span (· != "<") with
  | some ">", (binder, "<" :: "for" :: row) =>
      { f with row := binder ++ "<" :: "for" :: "?" :: row }
  | _, _ => f.append ["?"]

/-- Whether a token closes the brackets; that of an arrow does not. -/
def isClosedBy (f : Frame) (t : SourceToken) : Bool :=
  f.closing == some t &&
    !(f.isList && (f.row.head? == some "-" || f.row.head? == some "="))

/-- The frame with one more token. After a single `.` a numeral stands for places in tuples. -/
def add (f : Frame) (t : SourceToken) : Frame :=
  if f.verbatim then f.append [t]
  else if isNumeral t && f.row.head? == some "." && f.row[1]? != some "." then
    f.append (placeTokens [] t.toList)
  else if t = "?" then f.addRelaxed
  else f.append [t]

end Frame

def closingOf? (t : SourceToken) : Option SourceToken :=
  [("(", ")"), ("[", "]"), ("\x7b", "\x7d")].lookup t

/-- A reader of types: the innermost open brackets, and those around them. -/
structure TypeReader where
  frame : Frame
  outer : List Frame

namespace TypeReader

def enter (r : TypeReader) (t : SourceToken) (inner : Frame) : TypeReader :=
  ⟨inner, r.frame.append [t] :: r.outer⟩

/-- Whether the inside of the next brackets is not looked into. In an attribute that holds for what
comes before a value. -/
def isVerbatimNext (r : TypeReader) : Bool :=
  r.frame.verbatim || r.frame.invokes ||
    (r.outer.head?.any Frame.opensAttribute && !r.frame.row.contains "=")

def enterBrackets (r : TypeReader) (t closing : SourceToken) : TypeReader :=
  let frame := if t = "(" then r.frame.beforeRound else r.frame
  enter ⟨frame, r.outer⟩ t (.start (some closing) r.isVerbatimNext)

def leave (r : TypeReader) (t : SourceToken) : TypeReader :=
  match r.outer with
  | [] => ⟨r.frame.append [t], []⟩
  | f :: rest => ⟨f.append (r.frame.inside ++ [t]), rest⟩

/-- The reader without the lists that were begun since the brackets which a token closes: they were
none. -/
def dropLists (t : SourceToken) : Frame → List Frame → TypeReader
  | f, [] => ⟨f, []⟩
  | f, g :: rest =>
      if f.isList ∧ t ∈ [")", "]", "\x7d"] then dropLists t (g.append f.unarranged) rest
      else ⟨f, g :: rest⟩

def step (r : TypeReader) (t : SourceToken) : TypeReader :=
  let r := dropLists t r.frame r.outer
  let f := r.frame
  if f.isClosedBy t then r.leave t
  else if t = "<" ∧ !f.verbatim then r.enter t (.start (some ">") false)
  else if t = "," ∧ f.isList then
    { r with frame := { f with entries := f.entries ++ [⟨f.row.reverse, true⟩], row := [] } }
  else
    match closingOf? t with
    | some closing => r.enterBrackets t closing
    | none => { r with frame := f.add t }

/-- All tokens, those within brackets that stay open as they were read. -/
def finish : Frame → List Frame → List SourceToken
  | f, [] => f.unarranged
  | f, g :: rest => finish (g.append f.unarranged) rest

end TypeReader

def typeTokens (source : String) : List SourceToken :=
  let r := (sourceTokens source).foldl TypeReader.step ⟨.start none false, []⟩
  TypeReader.finish r.frame r.outer

end Redaction.Derivation
