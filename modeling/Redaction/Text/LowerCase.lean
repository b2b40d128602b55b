import Redaction.Text.CaseTable
import Redaction.Text.Cased

/-!
# Lowercase text

The full lowercase mapping of Unicode. One character becomes one character, except that `İ` becomes
an `i` and a combining dot, and that a capital sigma becomes `ς` at the end of a word and `σ`
elsewhere. Group and method names are compared by their lowercase text.
-/

namespace Redaction.Text

/-- The lowercase form of a character, a sigma aside. -/
def lowerChar (c : Char) : List Char :=
  if c.toNat < 0x80 then [c.toLower]
  else if c = '\u0130' then ['i', '\u0307']
  else
    match caseRuns.findSome? (·.lower? c.toNat) with
    | some n => [Char.ofNat n]
    | none => [c]

/-- Whether the first character that is not passed over is a cased one. -/
def casedNext (cs : List Char) : Bool :=
  (cs.dropWhile isCaseIgnorable).head?.any isCased

/-- The form of a capital sigma between the text before it, read backwards, and the text after it:
it is final when a letter comes before it and none after it. -/
def lowerSigma (before after : List Char) : Char :=
  if casedNext before && !casedNext after then '\u03C2' else '\u03C3'

/-- The lowercase form of a text that follows `before`, which is read backwards. -/
def lowerAfter (before : List Char) : List Char → List Char
  | [] => []
  | c :: rest =>
      (if c = '\u03A3' then [lowerSigma before rest] else lowerChar c) ++
        lowerAfter (c :: before) rest

def lower (s : String) : String := String.ofList (lowerAfter [] s.toList)

end Redaction.Text
