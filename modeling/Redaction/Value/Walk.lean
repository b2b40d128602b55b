import Redaction.Record.Cache
import Redaction.Value.Basic

/-!
# The walk

A walk copies a value. It rebuilds containers element by element; of a record it first asks for the
metadata of the type, and then carries out the steps of the type's plan. A leaf may be copied only
below a record. The first failure ends the walk. How metadata is come by is left to the monad of the
walk: a redactor keeps it in a cache.
-/

namespace Redaction

open Redaction.Derivation

/-- What a walk carries along: the order of set elements, the caller's groups, and whether a record
is above. -/
structure Walker where
  elementKey : Value → String
  groups : List String
  inRecord : Bool

def Walker.enterRecord (w : Walker) : Walker := { w with inRecord := true }

/-- A field after the instruction at an index of its type's metadata. A field without an instruction
and an absent field stay as they are. -/
def Metadata.applyAt (m : Metadata) (groups : List String) (index : Nat) (f : Field) :
    Except RedactError Field :=
  match m.fields[index]? with
  | none => .error (.noMetadata m.typeName index)
  | some entry =>
      match entry.evaluator, f.scalar? with
      | some e, some s =>
          match e.evaluate s groups with
          | .error source => .error (.transform m.typeName entry.name source)
          | .ok outcome => .ok (f.replace outcome.value)
      | _, _ => .ok f

section

variable {μ : Type → Type} [Monad μ] [MonadExceptOf RedactError μ]

/-- The sequence of the copies of `length` items; the type of an array fixes how many it has. -/
def rebuildSequence (kind : SequenceKind) (length : Nat) (copies : List Value) : μ Value :=
  if kind = .array ∧ copies.length ≠ length then throw (.arrayLength length copies.length)
  else pure (.sequence kind copies)

mutual

/-- The redacted copy of a value. `metadata` is asked for the metadata of each record type. -/
def Value.walk (metadata : RecordType → μ Metadata) (w : Walker) : Value → μ Value
  | .leaf l => if w.inRecord then pure (.leaf l) else throw (.notRecord l.typeName)
  | .absent => pure .absent
  | .layer outer inner => do pure (.layer outer (← inner.walk metadata w))
  | .sequence kind items => do
      rebuildSequence kind items.length (← walkItems metadata w items)
  | .set kind items => do pure (.ofSet w.elementKey kind (← walkItems metadata w items))
  | .map kind entries => do pure (.map kind (← walkEntries metadata w entries))
  | .record type variant slots => do
      let m ← metadata type
      pure (.record type variant
        (← walkSlots metadata w.enterRecord m (type.steps variant) 0 slots))

def walkItems (metadata : RecordType → μ Metadata) (w : Walker) : List Value → μ (List Value)
  | [] => pure []
  | v :: rest => do
      let copy ← v.walk metadata w
      let copies ← walkItems metadata w rest
      pure (copy :: copies)

/-- The copies of entries; keys stay as they are. -/
def walkEntries (metadata : RecordType → μ Metadata) (w : Walker) :
    List (Key × Value) → μ (List (Key × Value))
  | [] => pure []
  | (k, v) :: rest => do
      let copy ← v.walk metadata w
      let copies ← walkEntries metadata w rest
      pure ((k, copy) :: copies)

/-- The copies of slots from a position on. A slot is changed by the step for its position; a slot
without a step is copied. -/
def walkSlots (metadata : RecordType → μ Metadata) (w : Walker) (m : Metadata) (steps : List Step)
    (position : Nat) : List Slot → μ (List Slot)
  | [] => pure []
  | slot :: rest => do
      match steps with
      | [] => pure (slot :: rest)
      | step :: later =>
          if step.field.position = position then
            let copy ← walkSlot metadata w m step.action slot
            let copies ← walkSlots metadata w m later (position + 1) rest
            pure (copy :: copies)
          else
            let copies ← walkSlots metadata w m steps (position + 1) rest
            pure (slot :: copies)

def walkSlot (metadata : RecordType → μ Metadata) (w : Walker) (m : Metadata) (action : Action) :
    Slot → μ Slot
  | .field f =>
      match action with
      | .apply index => do pure (.field (← MonadExcept.ofExcept (m.applyAt w.groups index f)))
      | .walk => pure (.field f)
  | .value v =>
      match action with
      | .walk => do pure (.value (← v.walk metadata w))
      | .apply _ => pure (.value v)

end

end

/-- A step of a redaction, which keeps the metadata of the record types that it meets. -/
abbrev RedactM (σ : Type) := CacheM RecordType σ

def RecordType.metadata {σ : Type} (t : RecordType) (registry : Registry σ) : RedactM σ Metadata :=
  getOrCompile registry t t.name t.plan.specs

end Redaction
