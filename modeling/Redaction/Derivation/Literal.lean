import Redaction.Derivation.Numeral

/-!
# Text literals

A text stands between quotes, with escapes or raw, and a character between single quotes. Of a text
literal the characters that it denotes can be read back.
-/

namespace Redaction.Derivation

/-- The characters up to an unescaped quote, the quote included, and the characters after it. -/
def splitQuoted (quote : Char) : List Char → List Char × List Char
  | [] => ([], [])
  | '\\' :: c :: rest => (splitQuoted quote rest).map ('\\' :: c :: ·) id
  | c :: rest => if c = quote then ([c], rest) else (splitQuoted quote rest).map (c :: ·) id

/-- The characters up to a quote with as many `#` after it as opened a raw text, and what follows.
-/
def splitRaw (hashes : Nat) : List Char → List Char × List Char
  | [] => ([], [])
  | c :: rest =>
      if c = '"' ∧ rest.take hashes = List.replicate hashes '#' then
        (c :: rest.take hashes, rest.drop hashes)
      else (splitRaw hashes rest).map (c :: ·) id

/-- The count of `#` before the quote that opens a raw text, if there is such a quote. -/
def rawOpening? (cs : List Char) : Option Nat :=
  let hashes := cs.takeWhile (· == '#')
  if (cs.drop hashes.length).head? = some '"' then some hashes.length else none

/-- The text in quotes at the front, without its suffix, and the characters after it. -/
def splitText? : List Char → Option (List Char × List Char)
  | '"' :: rest => some ((splitQuoted '"' rest).map ('"' :: ·) id)
  | 'r' :: rest =>
      (rawOpening? rest).map fun hashes =>
        (splitRaw hashes (rest.drop (hashes + 1))).map ('r' :: rest.take (hashes + 1) ++ ·) id
  | _ => none

/-- The character in quotes at the front, which a lifetime is not, and the characters after it. -/
def splitCharacter? : List Char → Option (List Char × List Char)
  | '\'' :: '\\' :: rest => some ((splitQuoted '\'' ('\\' :: rest)).map ('\'' :: ·) id)
  | '\'' :: c :: '\'' :: rest => some (['\'', c, '\''], rest)
  | _ => none

/-- The literal of a text or a character at the front, with its suffix, and the characters after
it. A `b` before it makes it one of octets, and a `c` before a text one for foreign functions. -/
def splitLiteral? (cs : List Char) : Option (List Char × List Char) :=
  let unmarked (cs : List Char) := (splitText? cs).or (splitCharacter? cs)
  let found := match cs with
    | 'b' :: rest => (unmarked rest).map (Prod.map ('b' :: ·) id)
    | 'c' :: rest => (splitText? rest).map (Prod.map ('c' :: ·) id)
    | _ => unmarked cs
  found.map withSuffix

def textLiteral (s : String) : String :=
  "\"" ++ String.join (s.toList.map fun c =>
    if c = '"' ∨ c = '\\' then "\\" ++ c.toString else c.toString) ++ "\""

def shortEscape (c : Char) : Char :=
  if c = 'n' then '\n'
  else if c = 'r' then '\r'
  else if c = 't' then '\t'
  else if c = '0' then '\x00'
  else c

/-- The characters that the inside of a text literal denotes, given as many turns as it has
characters. A backslash at the end of a line joins the next line without its indentation. -/
def unescapeWithin : Nat → List Char → List Char
  | 0, _ => []
  | _, [] => []
  | n + 1, '\\' :: 'x' :: a :: b :: rest =>
      Char.ofNat (spelledValue 16 [a, b]) :: unescapeWithin n rest
  | n + 1, '\\' :: 'u' :: rest =>
      Char.ofNat (spelledValue 16 (rest.takeWhile (· != '\x7d'))) ::
        unescapeWithin n (rest.dropWhile (· != '\x7d')).tail
  | n + 1, '\\' :: '\n' :: rest => unescapeWithin n (rest.dropWhile Text.isWhiteSpace)
  | n + 1, '\\' :: '\r' :: rest => unescapeWithin n (rest.dropWhile Text.isWhiteSpace)
  | n + 1, '\\' :: c :: rest => shortEscape c :: unescapeWithin n rest
  | n + 1, '\r' :: '\n' :: rest => '\n' :: unescapeWithin n rest
  | n + 1, c :: rest => c :: unescapeWithin n rest

def unescape (cs : List Char) : String := String.ofList (unescapeWithin cs.length cs)

/-- The text that a token denotes, if it is the literal of one. A suffix adds nothing to it. -/
def textValue? (token : List Char) : Option String :=
  match token with
  | '"' :: rest => some (unescape (splitQuoted '"' rest).1.dropLast)
  | 'r' :: rest =>
      (rawOpening? rest).map fun hashes =>
        let body := (splitRaw hashes (rest.drop (hashes + 1))).1
        String.ofList (body.take (body.length - (hashes + 1)))
  | _ => none

end Redaction.Derivation
