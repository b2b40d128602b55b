import Redaction.Proofs.Value.Misconfigured

/-!
# How a redaction fails

A redaction gives the error of the first stop at which something goes wrong, and a copy if nothing
does. That a value is no record is said only of a leaf to which the walk comes without having
entered a record; below a record no leaf is at fault, however it is wrapped.
-/

namespace Redaction

/-- The walk comes to a leaf and has not entered a record before. -/
inductive Value.Bare (l : Leaf) : Value → Prop
  | here : Bare l (.leaf l)
  | layer (outer : Layer) {inner : Value} (h : inner.Bare l) : Bare l (.layer outer inner)
  | item (kind : SequenceKind) {items : List Value} {v : Value} (hv : v ∈ items)
      (h : v.Bare l) : Bare l (.sequence kind items)
  | element (kind : SetKind) {items : List Value} {v : Value} (hv : v ∈ items)
      (h : v.Bare l) : Bare l (.set kind items)
  | entry (kind : MapKind) {entries : List (Key × Value)} {e : Key × Value} (he : e ∈ entries)
      (h : e.2.Bare l) : Bare l (.map kind entries)

namespace Value

variable {l : Leaf} {v : Value}

/-- A walk that has entered a record does not leave it again on its way down. -/
theorem inRecord_of_leaf_mem_stops {b : Bool} (h : .leaf l b ∈ v.stops true) : b = true := by
  induction v using Value.induction with
  | leaf k =>
      cases List.mem_singleton.mp h
      rfl
  | absent => cases h
  | layer outer inner ih => exact ih h
  | sequence kind items ih =>
      obtain ⟨v, hv, h⟩ := mem_itemStops_iff.mp h
      exact ih v hv h
  | set kind items ih =>
      obtain ⟨v, hv, h⟩ := mem_itemStops_iff.mp h
      exact ih v hv h
  | map kind entries ih =>
      obtain ⟨e, he, h⟩ := mem_entryStops_iff.mp h
      exact ih e he h
  | record t variant slots ih =>
      rcases mem_stops_record h with heq | ⟨_, _, _, heq⟩ | ⟨_, p, _, v, -, -, -, hv, h⟩
      · cases heq
      · cases heq
      · exact ih v (List.mem_of_getElem? hv) h

theorem Bare.mem_stops (h : v.Bare l) : .leaf l false ∈ v.stops false := by
  induction h with
  | here => exact List.mem_singleton_self _
  | layer outer _ ih => exact ih
  | item kind hv _ ih => exact mem_itemStops_iff.mpr ⟨_, hv, ih⟩
  | element kind hv _ ih => exact mem_itemStops_iff.mpr ⟨_, hv, ih⟩
  | entry kind he _ ih => exact mem_entryStops_iff.mpr ⟨_, he, ih⟩

theorem leaf_mem_stops_iff : .leaf l false ∈ v.stops false ↔ v.Bare l := by
  refine ⟨fun h => ?_, fun h => h.mem_stops⟩
  induction v using Value.induction with
  | leaf k =>
      cases List.mem_singleton.mp h
      exact .here
  | absent => cases h
  | layer outer inner ih => exact .layer outer (ih h)
  | sequence kind items ih =>
      obtain ⟨v, hv, h⟩ := mem_itemStops_iff.mp h
      exact .item kind hv (ih v hv h)
  | set kind items ih =>
      obtain ⟨v, hv, h⟩ := mem_itemStops_iff.mp h
      exact .element kind hv (ih v hv h)
  | map kind entries ih =>
      obtain ⟨e, he, h⟩ := mem_entryStops_iff.mp h
      exact .entry kind he (ih e he h)
  | record t variant slots ih =>
      rcases mem_stops_record h with heq | ⟨_, _, _, heq⟩ | ⟨_, _, _, _, -, -, -, -, h⟩
      · cases heq
      · cases heq
      · cases inRecord_of_leaf_mem_stops h

/-- Without an element there is no leaf, and those of a record are below it. -/
theorem not_bare_of_form (h : v = .absent ∨ (∃ kind, v = .sequence kind []) ∨
    (∃ kind, v = .set kind []) ∨ (∃ kind, v = .map kind []) ∨
      ∃ t variant slots, v = .record t variant slots) : ¬v.Bare l := by
  intro hbare
  rcases h with rfl | ⟨kind, rfl⟩ | ⟨kind, rfl⟩ | ⟨kind, rfl⟩ | ⟨t, variant, slots, rfl⟩
  · cases hbare
  · cases hbare with
    | item _ hv _ => cases hv
  · cases hbare with
    | element _ hv _ => cases hv
  · cases hbare with
    | entry _ he _ => cases he
  · cases hbare

end Value

variable {σ : Type} {registry : Registry σ} {factories : σ} {groups : List String}

theorem Stop.fault?_eq_notRecord_iff {stop : Stop} {name : String} :
    stop.fault? registry factories groups = some (.notRecord name) ↔
      ∃ l, stop = .leaf l false ∧ l.typeName = name := by
  cases stop with
  | leaf l inRecord =>
      cases inRecord with
      | true => simp [fault?]
      | false => simp [fault?]
  | record t =>
      rw [RecordType.fault?_eq_some_iff]
      constructor
      · rintro ⟨spec, source, -, he⟩
        cases he
      · rintro ⟨l, heq, -⟩
        cases heq
  | field t name instruction held =>
      rw [fault?]
      split
      · simp
      · simp

/-- Something goes wrong at a stop, and at none before it. -/
def Value.FailsFirstAt (v : Value) (registry : Registry σ) (factories : σ) (groups : List String)
    (stop : Stop) : Prop :=
  ∃ before after, v.stops false = before ++ stop :: after ∧
    (∀ other ∈ before, other.fault? registry factories groups = none) ∧
      stop.fault? registry factories groups ≠ none

section

variable {r : Redactor σ} {s : WorkState RecordType σ} {v : Value}

theorem Redactor.Reached.redact_eq_error_iff (hs : r.Reached s) (hr : r.registry.Steady)
    (hv : v.Derived) (groups : List String) (factories : σ) {e : RedactError} :
    ((r.redact v groups).runFrom s).1 = .error e ↔
      ∃ stop, v.FailsFirstAt r.registry factories (r.groupsFor groups) stop ∧
        stop.fault? r.registry factories (r.groupsFor groups) = some e := by
  rw [← failure?_eq_some_iff, hs.failure?_redact hr factories hv groups,
    List.findSome?_eq_some_iff]
  constructor
  · rintro ⟨before, stop, after, hstops, hstop, hbefore⟩
    exact ⟨stop, ⟨before, after, hstops, hbefore, by simp [hstop]⟩, hstop⟩
  · rintro ⟨stop, ⟨before, after, hstops, hbefore, -⟩, hstop⟩
    exact ⟨before, stop, after, hstops, hstop, hbefore⟩

theorem Redactor.Reached.redact_eq_notRecord_iff (hs : r.Reached s) (hr : r.registry.Steady)
    (hv : v.Derived) (groups : List String) (factories : σ) {name : String} :
    ((r.redact v groups).runFrom s).1 = .error (.notRecord name) ↔
      ∃ l, v.FailsFirstAt r.registry factories (r.groupsFor groups) (.leaf l false) ∧
        l.typeName = name := by
  rw [hs.redact_eq_error_iff hr hv groups factories]
  constructor
  · rintro ⟨stop, hfirst, hstop⟩
    obtain ⟨l, rfl, hname⟩ := Stop.fault?_eq_notRecord_iff.mp hstop
    exact ⟨l, hfirst, hname⟩
  · rintro ⟨l, hfirst, hname⟩
    exact ⟨.leaf l false, hfirst, Stop.fault?_eq_notRecord_iff.mpr ⟨l, rfl, hname⟩⟩

theorem Redactor.Reached.redact_ne_notRecord (hs : r.Reached s) (hr : r.registry.Steady)
    (hv : v.Derived) (groups : List String) (h : ∀ l, ¬v.Bare l) (name : String) :
    ((r.redact v groups).runFrom s).1 ≠ .error (.notRecord name) := by
  intro hresult
  obtain ⟨l, ⟨before, after, hstops, -⟩, -⟩ :=
    (hs.redact_eq_notRecord_iff hr hv groups s.factories).mp hresult
  apply h l
  rw [← Value.leaf_mem_stops_iff, hstops]
  exact List.mem_append_right before List.mem_cons_self

/-- A redaction gives the error of the first of its stops that fails, and a copy if none of them
does. The error is that the value is no record just if that stop is a leaf without a record above
it, and then the type of this leaf is named. -/
theorem Redactor.Reached.redact_fails_first (hs : r.Reached s) (hr : r.registry.Steady)
    (hv : v.Derived) (groups : List String) (factories : σ) :
    (∀ e, ((r.redact v groups).runFrom s).1 = .error e ↔
      ∃ stop, v.FailsFirstAt r.registry factories (r.groupsFor groups) stop ∧
        stop.fault? r.registry factories (r.groupsFor groups) = some e) ∧
    ((∃ copy, ((r.redact v groups).runFrom s).1 = .ok copy) ↔
      ∀ stop ∈ v.stops false, stop.fault? r.registry factories (r.groupsFor groups) = none) ∧
    (∀ name, ((r.redact v groups).runFrom s).1 = .error (.notRecord name) ↔
      ∃ l, v.FailsFirstAt r.registry factories (r.groupsFor groups) (.leaf l false) ∧
        l.typeName = name) ∧
    (∀ l, .leaf l false ∈ v.stops false ↔ v.Bare l) ∧
    ((∀ l, ¬v.Bare l) → ∀ name, ((r.redact v groups).runFrom s).1 ≠ .error (.notRecord name)) ∧
    (v = .absent ∨ (∃ kind, v = .sequence kind []) ∨ (∃ kind, v = .set kind []) ∨
      (∃ kind, v = .map kind []) ∨ (∃ t variant slots, v = .record t variant slots) →
        ∀ name, ((r.redact v groups).runFrom s).1 ≠ .error (.notRecord name)) := by
  refine ⟨fun e => hs.redact_eq_error_iff hr hv groups factories, ?_,
    fun name => hs.redact_eq_notRecord_iff hr hv groups factories,
    fun l => Value.leaf_mem_stops_iff, hs.redact_ne_notRecord hr hv groups, ?_⟩
  · rw [← failure?_eq_none_iff, hs.failure?_redact hr factories hv groups,
      List.findSome?_eq_none_iff]
  · intro hform
    apply hs.redact_ne_notRecord hr hv groups
    intro l
    exact Value.not_bare_of_form hform

end

/-- A number after a record, beside an absent value and an empty list. The record before it does
not count as above it. -/
theorem redact_fails_first_uncovered :
    (((Redactor.standard fun _ => "").redact (.sequence .tuple [.absent, card "12" [],
      .sequence .vector [], .layer .dynamic (.leaf (.scalar (.int .u8 3)))]) ["guest"]).runFrom
        ⟨.empty, ()⟩).1 = .error (.notRecord "u8") := by
  have hcard : (card "12" []).Derived := derived_card "12" (by simp)
  have hderived : Value.Derived (.sequence .tuple [.absent, card "12" [],
      .sequence .vector [], .layer .dynamic (.leaf (.scalar (.int .u8 3)))]) := by
    refine .sequence .tuple ?_
    simp only [List.forall_mem_cons]
    exact ⟨.absent, hcard, .sequence .vector (by simp), .layer .dynamic (.leaf _), by simp⟩
  have hstart : (Redactor.standard fun _ => "").Reached ⟨.empty, ()⟩ := .start ()
  obtain ⟨-, -, hnotRecord, -⟩ := hstart.redact_fails_first
    Registry.HasOnlyBuiltin.builtin.steady hderived ["guest"] ()
  apply (hnotRecord "u8").mpr
  refine ⟨.scalar (.int .u8 3), ⟨[.record cardType, .field cardType "Issued.1" "guest=zero"
    (.layer .present (.scalar (.text "12")))], [], rfl, ?_, by simp [Stop.fault?]⟩, rfl⟩
  decide +kernel

end Redaction
