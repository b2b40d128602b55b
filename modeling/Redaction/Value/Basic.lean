import Redaction.Derivation.Plan
import Redaction.Field.Basic

/-!
# Values

What a redaction copies: leaves, layers of indirection, sequences, sets and maps, and records. A
record carries its type and a slot for each field of its variant.
-/

namespace Redaction

open Redaction.Derivation

/-- A record type: its name, and the plan by which its values are redacted. -/
structure RecordType where
  name : String
  plan : Plan
  deriving DecidableEq, Repr

def RecordType.ofItem (name : String) (item : Item) : Except ItemError RecordType :=
  item.plan.map fun plan => ⟨name, plan⟩

/-- The steps for values of a variant; a record without variants has its steps at zero. -/
def RecordType.steps (t : RecordType) (variant : Nat) : List Step :=
  (t.plan.steps[variant]?).getD []

/-- A value that a redaction copies as it is: a scalar, a fixed text, the empty value, or a field
whose type is known only when the program runs. -/
inductive Leaf where
  | scalar (value : Scalar)
  | fixedText (value : String)
  | unit
  | anyField (value : Field)
  deriving DecidableEq, Repr

def Leaf.typeName : Leaf → String
  | scalar (.text _) => "alloc::string::String"
  | scalar s => s.type.name
  | fixedText _ => "&str"
  | unit => "()"
  | anyField _ => "redact_core::field::AnyValue"

/-- The sequences, which keep their order. -/
inductive SequenceKind where
  | vector
  | deque
  | array
  | tuple
  deriving DecidableEq, Repr

/-- The sets; only the elements of a sorted one have an order of their own. -/
inductive SetKind where
  | hashed
  | sorted
  deriving DecidableEq, Repr

/-- The maps: from texts, hashed or sorted, and sorted from integers. -/
inductive MapKind where
  | hashed
  | sorted
  | numbered
  deriving DecidableEq, Repr

inductive Key where
  | text (value : String)
  | int (value : Int)
  deriving DecidableEq, Repr

/-- The order of keys; texts come by their octets. -/
def Key.before : Key → Key → Bool
  | text a, text b => a < b
  | int a, int b => a < b
  | int _, text _ => true
  | text _, int _ => false

mutual

/-- A value. Sets and maps hold their elements and entries in order and without repetition. -/
inductive Value where
  | leaf (value : Leaf)
  | absent
  | layer (outer : Layer) (inner : Value)
  | sequence (kind : SequenceKind) (items : List Value)
  | set (kind : SetKind) (items : List Value)
  | map (kind : MapKind) (entries : List (Key × Value))
  | record (type : RecordType) (variant : Nat) (slots : List Slot)

/-- A field of a record: one that an instruction can reach, or a value to be walked. -/
inductive Slot where
  | field (value : Field)
  | value (value : Value)

end

/-- A list with an element put in its place by a key, instead of the one with the same key. -/
def placeBy {α : Type} (key : α → String) (x : α) : List α → List α
  | [] => [x]
  | y :: rest =>
      if key x < key y then x :: y :: rest
      else if key x = key y then x :: rest
      else y :: placeBy key x rest

/-- The elements of a list in the order of a key, the last of each key alone. -/
def arrangeBy {α : Type} (key : α → String) (xs : List α) : List α :=
  xs.foldl (fun done x => placeBy key x done) []

/-- Entries with one put in its place by its key, instead of the one with the same key. -/
def placeEntry {α : Type} (e : Key × α) : List (Key × α) → List (Key × α)
  | [] => [e]
  | d :: rest =>
      if e.1.before d.1 then e :: d :: rest
      else if e.1 = d.1 then e :: rest
      else d :: placeEntry e rest

namespace Value

def ofSet (key : Value → String) (kind : SetKind) (items : List Value) : Value :=
  .set kind (arrangeBy key items)

/-- The map of the given entries; of two with one key the later stays. -/
def ofMap (kind : MapKind) (entries : List (Key × Value)) : Value :=
  .map kind (entries.foldl (fun done e => placeEntry e done) [])

end Value

end Redaction
