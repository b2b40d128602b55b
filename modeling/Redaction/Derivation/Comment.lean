import Redaction.Text.Quoted

/-!
# Comments

A comment runs to the end of its line, or to its end mark, and may hold further comments of the
second kind. A documentation comment stands for an attribute; any other comment only parts tokens.
-/

namespace Redaction.Derivation

/-- The documentation of what follows, or of what it stands in. -/
inductive Comment where
  | plain
  | documentation (inner : Bool) (text : List Char)
  deriving DecidableEq, Repr

/-- The inside of a comment whose opening mark is read, with `depth` more comments open within it,
and the characters after its end mark. -/
def splitBlock : Nat → List Char → List Char × List Char
  | depth, '/' :: '*' :: rest => (splitBlock (depth + 1) rest).map ('/' :: '*' :: ·) id
  | 0, '*' :: '/' :: rest => ([], rest)
  | depth + 1, '*' :: '/' :: rest => (splitBlock depth rest).map ('*' :: '/' :: ·) id
  | depth, c :: rest => (splitBlock depth rest).map (c :: ·) id
  | _, [] => ([], [])

namespace Comment

/-- A comment by its inside: one mark more than a comment needs makes it documentation, and two more
do not. -/
def ofInside (mark : Char) : List Char → Comment
  | [] => plain
  | c :: text =>
      if c = '!' then documentation true text
      else if c = mark ∧ text.head? ≠ some mark then documentation false text
      else plain

def split? : List Char → Option (Comment × List Char)
  | '/' :: '/' :: rest =>
      let line := rest.takeWhile (· != '\n')
      let after := rest.dropWhile (· != '\n')
      let inside := if !after.isEmpty && line.getLast? == some '\r' then line.dropLast else line
      some (ofInside '/' inside, after)
  | '/' :: '*' :: rest =>
      let (inside, after) := splitBlock 0 rest
      some (if rest.take 2 = ['*', '*'] then plain else ofInside '*' inside, after)
  | _ => none

def tokens : Comment → List String
  | plain => []
  | documentation inner text =>
      "#" :: (if inner then ["!"] else []) ++
        ["[", "doc", "=", Text.quoted (String.ofList text), "]"]

end Comment

end Redaction.Derivation
