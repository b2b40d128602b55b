import Redaction.Instruction.Delimiter
import Redaction.Text.Utf8

/-!
# Tokens

Three ways to read the units of a text from where a reader stands: a bare run up to the next
delimiter, a quoted part, and the entries of a bracketed list. Each gives what it read and the units
that are left, and none of them fails. The units are octets; an alphabet says which of them are
delimiters and what text a row of them spells, so that characters can be read in the same way.
-/

namespace Redaction.Instruction

open Redaction.Text

/-- What reading has to know about the units of a text. -/
structure Alphabet (α : Type) where
  delimiter? : α → Option Delimiter
  isEscape : α → Bool
  text : List α → String

/-- Octets; a row of them that is cut within a character is read as well as can be. -/
def octets : Alphabet UInt8 := ⟨Delimiter.ofByte?, (· == escapeByte), Utf8.decode⟩

def characters : Alphabet Char := ⟨Delimiter.ofChar?, (· == escape), String.ofList⟩

/-- A piece of text that remembers whether it stood between quotes. -/
inductive Token where
  | bare (text : String)
  | quoted (text : String)
  deriving DecidableEq, Repr

variable {α : Type} (A : Alphabet α)

def Alphabet.isContent (u : α) : Bool := (A.delimiter? u).isNone

def bareRun (input : List α) : List α × List α :=
  (input.takeWhile A.isContent, input.dropWhile A.isContent)

/-- The units of a quoted part whose opening quote is read, and the units after its closing quote.
An escape makes the unit after it literal; an escape with nothing after it is dropped. -/
def quotedRun (escaped : Bool) : List α → List α × List α
  | [] => ([], [])
  | u :: rest =>
      if escaped then (quotedRun false rest).map (u :: ·) id
      else if A.delimiter? u = some .quote then ([], rest)
      else if A.isEscape u then quotedRun true rest
      else (quotedRun false rest).map (u :: ·) id

def readBare (input : List α) : String × List α := (bareRun A input).map A.text id

def readQuoted (input : List α) : String × List α := (quotedRun A false input).map A.text id

/-- The entry held in a buffer; an empty buffer holds none. -/
def flush (buffer : List α) : List Token :=
  if buffer.isEmpty then [] else [.bare (A.text buffer)]

theorem length_bareRun_le (input : List α) : (bareRun A input).2.length ≤ input.length :=
  (List.dropWhile_sublist _).length_le

theorem length_quotedRun_le (escaped : Bool) (input : List α) :
    (quotedRun A escaped input).2.length ≤ input.length := by
  induction input generalizing escaped with
  | nil => simp [quotedRun]
  | cons u rest ih =>
      rw [quotedRun]
      split
      · exact Nat.le_succ_of_le (ih false)
      · split
        · exact Nat.le_succ _
        · split
          · exact Nat.le_succ_of_le (ih true)
          · exact Nat.le_succ_of_le (ih false)

theorem length_readBare_le (input : List α) : (readBare A input).2.length ≤ input.length :=
  length_bareRun_le A input

theorem length_readQuoted_le (input : List α) : (readQuoted A input).2.length ≤ input.length :=
  length_quotedRun_le A false input

/-- The entries of a list whose opening bracket is read, and the units after its closing bracket,
given the units of the entry begun. Commas part entries, a quoted part is an entry of its own, an
inversion mark belongs to the entry, and other delimiters are passed over. -/
def readList (buffer : List α) : List α → List Token × List α
  | [] => (flush A buffer, [])
  | u :: rest =>
      match A.delimiter? u with
      | none | some .invert => readList (buffer ++ [u]) rest
      | some .closeSet | some .closeParams => (flush A buffer, rest)
      | some .comma => (readList [] rest).map (flush A buffer ++ ·) id
      | some .quote =>
          have : (readQuoted A rest).2.length < rest.length + 1 :=
            Nat.lt_succ_of_le (length_readQuoted_le A rest)
          (readList [] (readQuoted A rest).2).map
            (flush A buffer ++ .quoted (readQuoted A rest).1 :: ·) id
      | some .openSet | some .openParams | some .run | some .chain => readList buffer rest
  termination_by input => input.length

theorem length_readList_le (buffer input : List α) :
    (readList A buffer input).2.length ≤ input.length := by
  fun_induction readList A buffer input with
  | case1 => simp
  | case2 buffer u rest hd ih => exact Nat.le_succ_of_le ih
  | case3 buffer u rest hd ih => exact Nat.le_succ_of_le ih
  | case4 buffer u rest hd => exact Nat.le_succ _
  | case5 buffer u rest hd => exact Nat.le_succ _
  | case6 buffer u rest hd ih => exact Nat.le_succ_of_le ih
  | case7 buffer u rest hd h ih => exact Nat.le_trans ih (Nat.le_of_lt h)
  | case8 buffer u rest hd ih => exact Nat.le_succ_of_le ih
  | case9 buffer u rest hd ih => exact Nat.le_succ_of_le ih
  | case10 buffer u rest hd ih => exact Nat.le_succ_of_le ih
  | case11 buffer u rest hd ih => exact Nat.le_succ_of_le ih

end Redaction.Instruction
