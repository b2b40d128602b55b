import Redaction.Instruction.Literal

/-!
# Reading an instruction

An instruction such as `~[admin,csr]=star(-4)` is read in one pass, node after node. Reading never
fails; whether the nodes form rules is decided when they are compiled. It works on the octets of the
instruction, and could as well work on its characters.
-/

namespace Redaction.Instruction

open Redaction.Text

variable {α : Type} (A : Alphabet α)

/-- What one turn of reading yields: a node, if one was completed, whether an inversion waits for
the next node, and the units left. -/
structure Turn (α : Type) where
  node : Option Node
  pending : Bool
  rest : List α

def readChildren (input : List α) : List Node × List α :=
  (readList A [] input).map (·.map (Node.ofToken · false)) id

/-- One turn, at the unit `u` with `rest` after it. Markers leave a waiting inversion alone; a stray
closing bracket or comma begins a bare text, which may be empty. -/
def turn (pending : Bool) (u : α) (rest : List α) : Turn α :=
  match A.delimiter? u with
  | some .invert => ⟨none, true, rest⟩
  | some .run => ⟨some .run, pending, rest⟩
  | some .chain => ⟨some .chain, pending, rest⟩
  | some .openSet =>
      let (children, left) := readChildren A rest
      ⟨some (.set children pending), false, left⟩
  | some .openParams =>
      let (children, left) := readChildren A rest
      ⟨some (.params children pending), false, left⟩
  | some .quote =>
      let (text, left) := readQuoted A rest
      ⟨some (.ofToken (.quoted text) pending), false, left⟩
  | some .closeSet | some .closeParams | some .comma =>
      let (text, left) := readBare A rest
      ⟨some (.ofToken (.bare text) pending), false, left⟩
  | none =>
      let (text, left) := readBare A (u :: rest)
      ⟨some (.ofToken (.bare text) pending), false, left⟩

theorem length_readBare_cons_le {u : α} (h : A.delimiter? u = none) (rest : List α) :
    (readBare A (u :: rest)).2.length ≤ rest.length := by
  have hu : A.isContent u = true := by simp [Alphabet.isContent, h]
  simp only [readBare, bareRun, Prod.map_snd, id_eq]
  rw [List.dropWhile_cons_of_pos hu]
  exact (List.dropWhile_sublist _).length_le

/-- Every turn uses up the unit at which it begins. -/
theorem length_turn_le (pending : Bool) (u : α) (rest : List α) :
    (turn A pending u rest).rest.length ≤ rest.length := by
  unfold turn
  split
  · exact Nat.le_refl _
  · exact Nat.le_refl _
  · exact Nat.le_refl _
  · exact length_readList_le A [] rest
  · exact length_readList_le A [] rest
  · exact length_readQuoted_le A rest
  · exact length_readBare_le A rest
  · exact length_readBare_le A rest
  · exact length_readBare_le A rest
  · exact length_readBare_cons_le A ‹_› rest

/-- The nodes of units, given whether an inversion waits for the first of them. -/
def readNodes (pending : Bool) : List α → List Node
  | [] => []
  | u :: rest =>
      have : (turn A pending u rest).rest.length < rest.length + 1 :=
        Nat.lt_succ_of_le (length_turn_le A pending u rest)
      (turn A pending u rest).node.toList ++
        readNodes (turn A pending u rest).pending (turn A pending u rest).rest
  termination_by input => input.length

def parse (instruction : String) : List Node :=
  readNodes octets false (Utf8.encode instruction)

def parseCharacters (instruction : String) : List Node :=
  readNodes characters false instruction.toList

end Redaction.Instruction
