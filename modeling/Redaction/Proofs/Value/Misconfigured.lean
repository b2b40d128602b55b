import Redaction.Proofs.Method.Builtin
import Redaction.Proofs.Value.Stops

/-!
# Types with an instruction that does not compile

A type is compiled as a whole, for all of its variants, before a record of it is copied. So one
instruction that does not compile keeps every record of the type from being copied, also a record
that does not hold the field.
-/

namespace Redaction

open Redaction.Derivation

variable {σ : Type}

namespace RecordType

/-- Some instruction of the type does not compile, whichever variant it is declared in. -/
def Misconfigured (t : RecordType) (registry : Registry σ) : Prop :=
  ∃ arm ∈ t.plan.arms, ∃ f ∈ arm.fields, ∃ literal instruction,
    f.treatment = .apply literal instruction ∧
      ∃ factories source, ((compile registry instruction).runFrom factories).1 = .error source

/-- Of the instructions that a type lists, that of `spec` is the first that does not compile. -/
structure FirstFault (t : RecordType) (registry : Registry σ) (factories : σ) (spec : FieldSpec)
    (source : CompileError) : Prop where
  first : ∃ earlier later, t.plan.specs = earlier ++ spec :: later ∧
    ∀ other ∈ earlier, other.Compiles registry factories
  fails : ∃ instruction, spec.instruction = some instruction ∧
    ((compile registry instruction).runFrom factories).1 = .error source

variable {t : RecordType} {registry : Registry σ} {factories : σ}

theorem mem_specs_iff {spec : FieldSpec} :
    spec ∈ t.plan.specs ↔
      ∃ arm ∈ t.plan.arms, ∃ f ∈ arm.fields, f.spec? arm.variant = some spec := by
  simp only [Plan.specs, Arm.specs, List.mem_flatMap, List.mem_filterMap]

theorem fault?_eq_some_iff {groups : List String} {e : RedactError} :
    (Stop.record t).fault? registry factories groups = some e ↔
      ∃ spec source, t.FirstFault registry factories spec source ∧
        .compile t.name spec.name source = e := by
  rw [Stop.fault?, List.findSome?_eq_some_iff]
  constructor
  · rintro ⟨earlier, spec, later, hspecs, hspec, hearlier⟩
    obtain ⟨instruction, source, hi, hc, he⟩ := FieldSpec.fault?_eq_some_iff.mp hspec
    refine ⟨spec, source, ⟨⟨earlier, later, hspecs, ?_⟩, instruction, hi, hc⟩, he⟩
    intro other hother
    exact FieldSpec.fault?_eq_none_iff.mp (hearlier other hother)
  · rintro ⟨spec, source, ⟨⟨earlier, later, hspecs, hearlier⟩, instruction, hi, hc⟩, he⟩
    refine ⟨earlier, spec, later, hspecs, ?_, ?_⟩
    · exact FieldSpec.fault?_eq_some_iff.mpr ⟨instruction, source, hi, hc, he⟩
    · intro other hother
      exact FieldSpec.fault?_eq_none_iff.mpr (hearlier other hother)

/-- With steady factories it is the same instruction that fails first in every state. -/
theorem misconfigured_iff (hr : registry.Steady) (factories : σ) :
    t.Misconfigured registry ↔ ∃ spec source, t.FirstFault registry factories spec source := by
  constructor
  · rintro ⟨arm, ha, f, hf, literal, instruction, ht, factories', source, hc⟩
    have hlisted : FieldSpec.ofInstruction (f.specName arm.variant) instruction ∈ t.plan.specs :=
      mem_specs_iff.mpr ⟨arm, ha, f, hf, by rw [PlannedField.spec?, ht]⟩
    have hsteady := steady_compileNodes hr instruction (Instruction.parse instruction)
    cases hfault : (Stop.record t).fault? registry factories [] with
    | some e =>
        obtain ⟨spec, source', hfirst, -⟩ := fault?_eq_some_iff.mp hfault
        exact ⟨spec, source', hfirst⟩
    | none =>
        -- the instruction at fault is listed, and in this state it fails just as well
        rw [Stop.fault?, List.findSome?_eq_none_iff] at hfault
        obtain ⟨e, he⟩ := FieldSpec.fault?_eq_none_iff.mp (hfault _ hlisted) instruction rfl
        cases he.symm.trans ((hsteady factories factories').trans hc)
  · rintro ⟨spec, source, ⟨earlier, later, hspecs, -⟩, instruction, hi, hc⟩
    have hmem : spec ∈ t.plan.specs := by simp [hspecs]
    obtain ⟨arm, ha, f, hf, hspec⟩ := mem_specs_iff.mp hmem
    cases ht : f.treatment with
    | apply literal instruction' =>
        rw [PlannedField.spec?, ht] at hspec
        cases hspec
        cases hi
        exact ⟨arm, ha, f, hf, literal, instruction, ht, factories, source, hc⟩
    | nested =>
        rw [PlannedField.spec?, ht] at hspec
        cases hspec
        cases hi
    | walk =>
        rw [PlannedField.spec?, ht] at hspec
        cases hspec
    | skip =>
        rw [PlannedField.spec?, ht] at hspec
        cases hspec

end RecordType

/-- No copy is made of a value with a record of a misconfigured type in it. If nothing fails before
the first such record, then the first instruction of its type that does not compile is reported.
A type of which all instructions compile has metadata for all that it lists. -/
theorem Redactor.Reached.redact_misconfigured {r : Redactor σ} {s : WorkState RecordType σ}
    (hs : r.Reached s) (hr : r.registry.Steady) {v : Value} (hv : v.Derived)
    (groups : List String) (factories : σ) :
    (∀ t, v.Reaches t → t.Misconfigured r.registry →
      ∃ e, ((r.redact v groups).runFrom s).1 = .error e) ∧
    (∀ t : RecordType, t.Misconfigured r.registry ↔
      ∃ spec source, t.FirstFault r.registry factories spec source) ∧
    (∀ t, v.Reaches t ↔ .record t ∈ v.stops false) ∧
    (∀ before t after, v.stops false = before ++ .record t :: after →
      (∀ stop ∈ before, stop.fault? r.registry factories (r.groupsFor groups) = none) →
      ∀ spec source, t.FirstFault r.registry factories spec source →
        ((r.redact v groups).runFrom s).1 = .error (.compile t.name spec.name source)) ∧
    ∀ typeName specs,
      ((∃ m, ((Metadata.compile r.registry typeName specs).runFrom factories).1 = .ok m) ↔
        ∀ spec ∈ specs, spec.Compiles r.registry factories) ∧
      ∀ m, ((Metadata.compile r.registry typeName specs).runFrom factories).1 = .ok m →
        m.typeName = typeName ∧
          m.fields.map (fun entry => (entry.name, entry.nested, entry.instruction?)) =
            specs.map fun spec => (spec.name, spec.nested, spec.instruction) := by
  have hfails := hs.failure?_redact hr factories hv groups
  refine ⟨?_, fun t => RecordType.misconfigured_iff hr factories,
    fun t => Value.record_mem_stops_iff.symm, ?_, ?_⟩
  · intro t hreaches hmisconfigured
    obtain ⟨spec, source, hfirst⟩ := (RecordType.misconfigured_iff hr factories).mp hmisconfigured
    cases hresult : ((r.redact v groups).runFrom s).1 with
    | error e => exact ⟨e, rfl⟩
    | ok copy =>
        rw [hresult] at hfails
        have hnone := List.findSome?_eq_none_iff.mp hfails.symm _ (hreaches.mem_stops false)
        rw [RecordType.fault?_eq_some_iff.mpr ⟨spec, source, hfirst, rfl⟩] at hnone
        cases hnone
  · intro before t after hstops hbefore spec source hfirst
    have hfault : (Stop.record t).fault? r.registry factories (r.groupsFor groups) =
        some (.compile t.name spec.name source) :=
      RecordType.fault?_eq_some_iff.mpr ⟨spec, source, hfirst, rfl⟩
    rw [← failure?_eq_some_iff, hfails]
    exact List.findSome?_eq_some_iff.mpr ⟨before, .record t, after, hstops, hfault, hbefore⟩
  · intro typeName specs
    refine ⟨Metadata.exists_compile_eq_ok_iff hr, ?_⟩
    intro m hm
    exact ⟨(Metadata.compile_eq_ok hm).1, Metadata.map_fields_of_compile_eq_ok hm⟩

/-- A record with three variants. Of the fields of the last one the second has an instruction that
does not compile, and the first and the third have one that does. -/
def passItem : Item :=
  ⟨"Pass", [], [], .enum [⟨"Void", .unit, []⟩,
    ⟨"Open", .tuple, [⟨none, "Vec<Card>", []⟩]⟩,
    ⟨"Sealed", .named, [⟨some "number", "String", [⟨["redact"], .list [.ofText "guest=zero"]⟩]⟩,
      ⟨some "seal", "Option<String>", [⟨["redact"], .list [.ofText "all=shred"]⟩]⟩,
      ⟨some "holder", "String", [⟨["redact"], .list [.ofText "all=star"]⟩]⟩]⟩]⟩

def passType : RecordType :=
  ⟨"shop::Pass", ⟨[⟨some "Void", .unit, []⟩,
    ⟨some "Open", .tuple, [⟨none, 0, "Vec<Card>", .walk⟩]⟩,
    ⟨some "Sealed", .named, [
      ⟨some "number", 0, "String", .apply "\"guest=zero\"" "guest=zero"⟩,
      ⟨some "seal", 1, "Option<String>", .apply "\"all=shred\"" "all=shred"⟩,
      ⟨some "holder", 2, "String", .apply "\"all=star\"" "all=star"⟩]⟩]⟩⟩

theorem ofItem_passItem : RecordType.ofItem "shop::Pass" passItem = .ok passType := by
  decide +kernel

def openPass (cards : List Value) : Value :=
  .record passType 1 [.value (.sequence .vector cards)]

theorem derived_openPass {cards : List Value} (h : ∀ v ∈ cards, v.Derived) :
    (openPass cards).Derived := by
  have harm : passType.plan.arms[1]? =
      some ⟨some "Open", .tuple, [⟨none, 0, "Vec<Card>", .walk⟩]⟩ := rfl
  refine .record ofItem_passItem harm rfl ?_
  intro p f slot hf hslot
  rcases p with _ | p
  · cases hf
    cases hslot
    exact .walked (.inr rfl) (.sequence .vector h)
  · cases hf

theorem firstFault_passType : passType.FirstFault Registry.builtin ()
    (.ofInstruction "Sealed.seal" "all=shred") (.unknownMethod "shred") := by
  refine ⟨⟨[.ofInstruction "Sealed.number" "guest=zero"],
    [.ofInstruction "Sealed.holder" "all=star"], rfl, ?_⟩, "all=shred", rfl, ?_⟩
  · intro other hother
    obtain rfl := List.mem_singleton.mp hother
    have hnumber : (FieldSpec.ofInstruction "Sealed.number" "guest=zero").fault?
        Registry.builtin () "shop::Pass" = none := by decide +kernel
    exact FieldSpec.fault?_eq_none_iff.mp hnumber
  · apply failure?_eq_some_iff.mp
    decide +kernel

/-- The card before the pass is copied, and its type is in the cache from an earlier redaction. The
field at fault is in a variant of which there is no record. -/
theorem redact_misconfigured_openPass :
    (((Redactor.standard fun _ => "").redact
      (.sequence .vector [card "12" [], openPass [card "34" []]]) ["guest"]).runFrom
        (((Redactor.standard fun _ => "").redact (card "56" []) []).runFrom ⟨.empty, ()⟩).2).1 =
      .error (.compile "shop::Pass" "Sealed.seal" (.unknownMethod "shred")) := by
  have hcard : ∀ number, (card number []).Derived := fun number => derived_card number (by simp)
  have hpass : (openPass [card "34" []]).Derived := derived_openPass (by simp [hcard])
  have hderived : Value.Derived (.sequence .vector [card "12" [], openPass [card "34" []]]) :=
    .sequence .vector (by simp [hcard, hpass])
  have hreached := (Redactor.Reached.start (r := .standard fun _ => "") ()).redact (card "56" []) []
  obtain ⟨-, -, -, hfirst, -⟩ := hreached.redact_misconfigured
    Registry.HasOnlyBuiltin.builtin.steady hderived ["guest"] ()
  apply hfirst [.record cardType, .field cardType "Issued.1" "guest=zero"
    (.layer .present (.scalar (.text "12")))] passType _ rfl _ _ _ firstFault_passType
  decide +kernel

end Redaction
