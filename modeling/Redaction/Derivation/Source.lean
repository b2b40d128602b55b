import Redaction.Derivation.Comment
import Redaction.Derivation.Literal

/-!
# Source text as tokens

A piece of source text is a row of tokens: identifiers, literals, single marks of punctuation and
brackets. A raw identifier is one token; the quote of a lifetime is a token apart from its name.
-/

namespace Redaction.Derivation

abbrev SourceToken := String

def splitToken (c : Char) (rest : List Char) : List Char × List Char :=
  match splitLiteral? (c :: rest) with
  | some found => found
  | none =>
      if isIdentStart c then splitIdent (c :: rest)
      else if c.isDigit then splitNumeral (c :: rest)
      else ([c], rest)

/-- The tokens of source text, given as many turns as it has characters. -/
def tokensWithin : Nat → List Char → List SourceToken
  | 0, _ => []
  | _, [] => []
  | n + 1, c :: rest =>
      if isGap c then tokensWithin n rest
      else
        match Comment.split? (c :: rest) with
        | some (comment, left) => comment.tokens ++ tokensWithin n left
        | none =>
            let (token, left) := splitToken c rest
            String.ofList token :: tokensWithin n left

def sourceTokens (s : String) : List SourceToken := tokensWithin s.length s.toList

def isWord (token : SourceToken) : Bool :=
  match token.toList with
  | [] => false
  | c :: rest => isIdentStart c && (splitLiteral? (c :: rest)).isNone

def isNumeral (token : SourceToken) : Bool := token.toList.head?.any Char.isDigit

end Redaction.Derivation
