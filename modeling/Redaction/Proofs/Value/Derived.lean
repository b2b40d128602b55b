import Redaction.Proofs.Derivation.Alignment
import Redaction.Proofs.Record.Metadata
import Redaction.Proofs.Redactor

/-!
# Values of derived types

A value is derived when every record in it that can be reached has a type with a derived redaction,
and has a slot for each declared field. A walk meets no fault of the derivation in such a value:
each step is taken at the slot of its own field, and the index of a step leads to the entry of that
field.
-/

namespace Redaction

open Redaction.Derivation

namespace RecordType

variable {name : String} {item : Item} {t : RecordType} {variant : Nat} {arm : Arm}

theorem plan_of_ofItem (ht : ofItem name item = .ok t) : item.plan = .ok t.plan := by
  obtain ⟨plan, hp, rfl⟩ := map_eq_ok_iff.mp ht
  exact hp

/-- The position of a planned field is its index, also behind fields that are skipped. -/
theorem position_eq (ht : ofItem name item = .ok t) (ha : t.plan.arms[variant]? = some arm)
    {p : Nat} {f : PlannedField} (hf : arm.fields[p]? = some f) : f.position = p := by
  have harms := (Item.plan_arms (plan_of_ofItem ht)).flip
  obtain ⟨declared, -, hplans⟩ := exists_getElem?_of_forall₂ harms ha
  obtain ⟨d, -, hd⟩ := hplans.exists_plans hf
  exact hd.position_eq

theorem steps_of_arm (ha : t.plan.arms[variant]? = some arm) :
    (t.steps variant).map (·.field) = arm.fields.filter (·.isWalked) ∧
      ∀ s ∈ t.steps variant, s.Aligned t.plan.specs arm.variant := by
  obtain ⟨steps, hs, hfields, haligned⟩ := t.plan.steps_aligned ha
  have hsteps : t.steps variant = steps := by rw [RecordType.steps, hs, Option.getD_some]
  rw [hsteps]
  exact ⟨hfields, haligned⟩

theorem field_mem_of_step (ha : t.plan.arms[variant]? = some arm) {s : Step}
    (hs : s ∈ t.steps variant) : s.field ∈ arm.fields ∧ s.field.isWalked = true :=
  field_mem_of_map_field (steps_of_arm ha).1 hs

theorem exists_step (ha : t.plan.arms[variant]? = some arm) {f : PlannedField}
    (hf : f ∈ arm.fields) (hw : f.isWalked = true) : ∃ s ∈ t.steps variant, s.field = f := by
  have hmem : f ∈ (t.steps variant).map (·.field) := by
    rw [(steps_of_arm ha).1]
    exact List.mem_filter.mpr ⟨hf, hw⟩
  exact List.mem_map.mp hmem

theorem steps_ordered (ht : ofItem name item = .ok t) (ha : t.plan.arms[variant]? = some arm) :
    OrderedFrom 0 (t.steps variant) := by
  refine ⟨?_, fun s _ => Nat.zero_le _⟩
  have hfields : arm.fields.Pairwise fun f g => f.position < g.position := by
    rw [List.pairwise_iff_getElem]
    intro i j hi hj hij
    rw [position_eq ht ha (List.getElem?_eq_getElem hi),
      position_eq ht ha (List.getElem?_eq_getElem hj)]
    exact hij
  have hwalked := hfields.sublist (List.filter_sublist (p := (·.isWalked)))
  rw [← (steps_of_arm ha).1, List.pairwise_map] at hwalked
  exact hwalked

/-- A step is for the field at the position where it is taken. -/
theorem getElem?_of_step (ht : ofItem name item = .ok t) (ha : t.plan.arms[variant]? = some arm)
    {s : Step} (hs : s ∈ t.steps variant) : arm.fields[s.field.position]? = some s.field := by
  obtain ⟨p, hp⟩ := List.mem_iff_getElem?.mp (field_mem_of_step ha hs).1
  rw [position_eq ht ha hp]
  exact hp

end RecordType

/-- What the steps of an arm make of slots: a skipped field stays as it is, and any other is changed
by its own step. -/
structure SlotsCopied (known : Knowledge) (w : Walker) (m : Metadata) (arm : Arm)
    (steps : List Step) (slots copies : List Slot) : Prop where
  length_eq : copies.length = slots.length
  skipped : ∀ (p : Nat) (f : PlannedField) (slot copy : Slot), arm.fields[p]? = some f →
    slots[p]? = some slot → copies[p]? = some copy → f.isWalked = false → copy = slot
  stepped : ∀ (p : Nat) (s : Step) (slot copy : Slot), arm.fields[p]? = some s.field →
    slots[p]? = some slot → copies[p]? = some copy → s ∈ steps →
      walkSlot known w m s.action slot = .ok copy

theorem walk_record_eq_ok {name : String} {item : Item} {t : RecordType} {variant : Nat}
    {arm : Arm} {known : Knowledge} {w : Walker} {slots : List Slot} {v : Value}
    (ht : RecordType.ofItem name item = .ok t) (ha : t.plan.arms[variant]? = some arm)
    (h : (Value.record t variant slots).walk known w = .ok v) :
    ∃ m copies, known t = .ok m ∧ v = .record t variant copies ∧
      SlotsCopied known w.enterRecord m arm (t.steps variant) slots copies := by
  obtain ⟨m, hm, copies, hc, rfl⟩ := walk_record_eq_ok_iff.mp h
  have hordered := RecordType.steps_ordered ht ha
  refine ⟨m, copies, hm, rfl, length_walkSlots hc, ?_, ?_⟩
  · intro p f slot copy hf hslot hcopy hw
    have hnone := (walkSlots_eq_ok hordered hc hslot hcopy).2
    apply hnone
    intro s hs hposition
    -- a step at this position would be for the skipped field
    have hfield := RecordType.getElem?_of_step ht ha hs
    rw [hposition, Nat.zero_add, hf] at hfield
    cases hfield
    exact Bool.false_ne_true (hw.symm.trans (RecordType.field_mem_of_step ha hs).2)
  · intro p s slot copy hf hslot hcopy hs
    have hstep := (walkSlots_eq_ok hordered hc hslot hcopy).1
    have hposition := RecordType.position_eq ht ha hf
    exact hstep s hs (by rw [hposition, Nat.zero_add])

/-! ## Derived values -/

mutual

/-- A value built from records of derived types. -/
inductive Value.Derived : Value → Prop
  | leaf (l : Leaf) : Value.Derived (.leaf l)
  | absent : Value.Derived .absent
  | layer (outer : Layer) {inner : Value} (h : Value.Derived inner) :
      Value.Derived (.layer outer inner)
  | sequence (kind : SequenceKind) {items : List Value} (h : ∀ v ∈ items, Value.Derived v) :
      Value.Derived (.sequence kind items)
  | set (kind : SetKind) {items : List Value} (h : ∀ v ∈ items, Value.Derived v) :
      Value.Derived (.set kind items)
  | map (kind : MapKind) {entries : List (Key × Value)} (h : ∀ e ∈ entries, Value.Derived e.2) :
      Value.Derived (.map kind entries)
  | record {name : String} {item : Item} {t : RecordType} {variant : Nat} {arm : Arm}
      {slots : List Slot} (ht : RecordType.ofItem name item = .ok t)
      (ha : t.plan.arms[variant]? = some arm) (hlength : slots.length = arm.fields.length)
      (h : ∀ (p : Nat) (f : PlannedField) (slot : Slot), arm.fields[p]? = some f →
        slots[p]? = some slot → Slot.Fits f slot) : Value.Derived (.record t variant slots)

/-- What a declared field holds; anything may be in a field that is skipped. -/
inductive Slot.Fits : PlannedField → Slot → Prop
  | skipped {f : PlannedField} (hf : f.isWalked = false) (slot : Slot) : Slot.Fits f slot
  | instruction {f : PlannedField} {literal : SourceToken} {instruction : String}
      (hf : f.treatment = .apply literal instruction) (held : Field) : Slot.Fits f (.field held)
  | walked {f : PlannedField} {v : Value} (hf : f.treatment = .nested ∨ f.treatment = .walk)
      (hv : Value.Derived v) : Slot.Fits f (.value v)

end

theorem Value.Derived.of_slot {t : RecordType} {variant : Nat} {arm : Arm} {slots : List Slot}
    (h : (Value.record t variant slots).Derived) (ha : t.plan.arms[variant]? = some arm)
    {p : Nat} {f : PlannedField} {v : Value} (hf : arm.fields[p]? = some f)
    (hw : f.isWalked = true) (hv : slots[p]? = some (.value v)) : v.Derived := by
  cases h with
  | record ht ha' hlength hfits =>
      rw [ha] at ha'
      cases ha'
      cases hfits p f _ hf hv with
      | skipped hs _ => exact absurd (hw.symm.trans hs) (by simp)
      | walked _ hv => exact hv

/-- The failures that are faults of a derivation, and not of an instruction or of a value. -/
def RedactError.isInternal : RedactError → Bool
  | .noMetadata .. | .arrayLength .. => true
  | .notRecord .. | .compile .. | .transform .. => false

/-- An index that has its entry is never out of range. -/
theorem Metadata.isInternal_of_applyAt {m : Metadata} {index : Nat} {entry : FieldMetadata}
    (hm : m.fields[index]? = some entry) {groups : List String} {f : Field} {e : RedactError}
    (h : m.applyAt groups index f = .error e) : e.isInternal = false := by
  simp only [Metadata.applyAt, hm] at h
  cases hv : entry.evaluator with
  | none =>
      rw [hv] at h
      cases h
  | some evaluator =>
      cases hs : f.scalar? with
      | none =>
          rw [hv, hs] at h
          cases h
      | some s =>
          simp only [hv, hs] at h
          split at h
          · cases h
            rfl
          · cases h

/-- The entry that a step finds in compiled metadata is that of its own field. -/
theorem RecordType.entry_of_step {σ : Type} {registry : Registry σ} {t : RecordType}
    {variant : Nat} {arm : Arm} {m : Metadata} (ha : t.plan.arms[variant]? = some arm)
    (hm : t.CompilesTo registry (.ok m)) {s : Step} (hs : s ∈ t.steps variant) {index : Nat}
    (hi : s.action = .apply index) :
    ∃ literal instruction entry, s.field.treatment = .apply literal instruction ∧
      m.fields[index]? = some entry ∧ entry.CompiledFrom registry
        (.ofInstruction (s.field.specName arm.variant) instruction) := by
  have haligned := (steps_of_arm ha).2 s hs
  rw [Step.Aligned] at haligned
  cases ht : s.field.treatment with
  | apply literal instruction =>
      rw [ht] at haligned
      obtain ⟨i, hi', hspec⟩ := haligned
      rw [hi] at hi'
      cases hi'
      obtain ⟨factories, hc⟩ := hm
      obtain ⟨entry, he, hfrom⟩ := Metadata.getElem?_of_compile_eq_ok hc hspec
      exact ⟨literal, instruction, entry, rfl, he, hfrom⟩
  | nested =>
      rw [ht, hi] at haligned
      cases haligned
  | walk =>
      rw [ht, hi] at haligned
      cases haligned
  | skip =>
      rw [ht] at haligned
      exact haligned.elim

/-- The step for a field with an instruction applies it. -/
theorem RecordType.action_of_instruction {t : RecordType} {variant : Nat} {arm : Arm}
    (ha : t.plan.arms[variant]? = some arm) {s : Step} (hs : s ∈ t.steps variant)
    {literal : SourceToken} {instruction : String}
    (hf : s.field.treatment = .apply literal instruction) : ∃ index, s.action = .apply index := by
  have haligned := (steps_of_arm ha).2 s hs
  rw [Step.Aligned, hf] at haligned
  obtain ⟨index, hi, -⟩ := haligned
  exact ⟨index, hi⟩

theorem RecordType.action_of_walked {t : RecordType} {variant : Nat} {arm : Arm}
    (ha : t.plan.arms[variant]? = some arm) {s : Step} (hs : s ∈ t.steps variant)
    (hf : s.field.treatment = .nested ∨ s.field.treatment = .walk) : s.action = .walk := by
  have haligned := (steps_of_arm ha).2 s hs
  rw [Step.Aligned] at haligned
  rcases hf with hf | hf <;> rwa [hf] at haligned

/-- The evaluator that a step finds for a field was compiled from the field's own instruction. -/
theorem RecordType.evaluator_of_step {σ : Type} {registry : Registry σ} {t : RecordType}
    {variant : Nat} {arm : Arm} {m : Metadata} (ha : t.plan.arms[variant]? = some arm)
    (hm : t.CompilesTo registry (.ok m)) {s : Step} (hs : s ∈ t.steps variant)
    {literal : SourceToken} {instruction : String}
    (hf : s.field.treatment = .apply literal instruction) :
    ∃ index entry e, s.action = .apply index ∧ m.fields[index]? = some entry ∧
      entry.name = s.field.specName arm.variant ∧ entry.evaluator = some e ∧
        e.CompiledFrom registry instruction := by
  obtain ⟨index, hi⟩ := action_of_instruction ha hs hf
  obtain ⟨literal', instruction', entry, hf', hentry, hfrom⟩ := entry_of_step ha hm hs hi
  cases hf.symm.trans hf'
  obtain ⟨e, he, hcompiled⟩ := hfrom.evaluator_some instruction rfl
  exact ⟨index, entry, e, hi, hentry, hfrom.name_eq, he, hcompiled⟩

theorem isInternal_of_walkSlot {σ : Type} {registry : Registry σ} {known : Knowledge} {w : Walker}
    {t : RecordType} {variant : Nat} {arm : Arm} {m : Metadata}
    (ha : t.plan.arms[variant]? = some arm) (hm : t.CompilesTo registry (.ok m)) {s : Step}
    (hs : s ∈ t.steps variant) {slot : Slot} {e : RedactError}
    (he : walkSlot known w m s.action slot = .error e)
    (h : ∀ v, slot = .value v → v.walk known w = .error e → e.isInternal = false) :
    e.isInternal = false := by
  cases hi : s.action with
  | apply index =>
      rw [hi] at he
      cases slot with
      | field held =>
          obtain ⟨_, _, entry, -, hentry, -⟩ := RecordType.entry_of_step ha hm hs hi
          rw [walkSlot_apply_field, map_eq_error_iff] at he
          exact Metadata.isInternal_of_applyAt hentry he
      | value v =>
          rw [walkSlot_apply_value] at he
          cases he
  | walk =>
      rw [hi] at he
      cases slot with
      | field held =>
          rw [walkSlot_walk_field] at he
          cases he
      | value v =>
          rw [walkSlot_walk_value, map_eq_error_iff] at he
          exact h v rfl he

theorem Value.Derived.isInternal_of_walk {σ : Type} {registry : Registry σ} {known : Knowledge}
    (hknown : known.Truthful registry) {v : Value} (hv : v.Derived) {w : Walker} {e : RedactError}
    (h : v.walk known w = .error e) : e.isInternal = false := by
  induction v using Value.induction generalizing w with
  | leaf l =>
      rw [Value.walk] at h
      split at h
      · cases h
      · cases h
        rfl
  | absent => cases h
  | layer outer inner ih =>
      cases hv with
      | layer _ hinner =>
          rw [Value.walk] at h
          rcases bind_eq_error_iff.mp h with h | ⟨copy, -, h⟩
          · exact ih hinner h
          · cases h
  | sequence kind items ih =>
      cases hv with
      | sequence _ hitems =>
          obtain ⟨v, hv, he⟩ := walk_sequence_eq_error h
          exact ih v hv (hitems v hv) he
  | set kind items ih =>
      cases hv with
      | set _ hitems =>
          rw [Value.walk] at h
          rcases bind_eq_error_iff.mp h with h | ⟨copies, -, h⟩
          · obtain ⟨v, hv, he⟩ := walkItems_eq_error h
            exact ih v hv (hitems v hv) he
          · cases h
  | map kind entries ih =>
      cases hv with
      | map _ hentries =>
          rw [Value.walk] at h
          rcases bind_eq_error_iff.mp h with h | ⟨copies, -, h⟩
          · obtain ⟨entry, hentry, he⟩ := walkEntries_eq_error h
            exact ih entry hentry (hentries entry hentry) he
          · cases h
  | record t variant slots ih =>
      have hderived := hv
      cases hv with
      | @record name item _ _ arm _ ht ha hlength hfits =>
          rw [Value.walk] at h
          rcases bind_eq_error_iff.mp h with h | ⟨m, hm, h⟩
          · obtain ⟨factories, hc⟩ := hknown t
            obtain ⟨spec, -, source, rfl⟩ := Metadata.compile_eq_error (hc.trans h)
            rfl
          · rcases bind_eq_error_iff.mp h with h | ⟨copies, -, h⟩
            · obtain ⟨s, hs, p, slot, hslot, hp, he⟩ := walkSlots_eq_error h
              have hfield := RecordType.getElem?_of_step ht ha hs
              rw [hp, Nat.zero_add] at hfield
              have hwalked := (RecordType.field_mem_of_step ha hs).2
              refine isInternal_of_walkSlot ha (hm ▸ hknown t) hs he ?_
              rintro u rfl hu
              exact ih u (List.mem_of_getElem? hslot) (hderived.of_slot ha hfield hwalked hslot) hu
            · cases h

/-! ## Fields and their steps -/

/-- The redaction of a type does to each declared field what is declared for it. -/
structure RecordType.AlignedWith (t : RecordType) (item : Item) : Prop where
  arms_plan : List.Forall₂ (fun declared a => Arm.Plans a declared) item.body.arms t.plan.arms
  step_fields : ∀ (variant : Nat) (arm : Arm), t.plan.arms[variant]? = some arm →
    (t.steps variant).map (·.field) = arm.fields.filter (·.isWalked)
  step_indices : ∀ (variant : Nat) (arm : Arm), t.plan.arms[variant]? = some arm →
    ∀ s ∈ t.steps variant, s.Aligned t.plan.specs arm.variant
  step_slots : ∀ (known : Knowledge) (w : Walker) (variant : Nat) (arm : Arm) (slots : List Slot)
    (v : Value), t.plan.arms[variant]? = some arm →
    (Value.record t variant slots).walk known w = .ok v →
      ∃ m copies, known t = .ok m ∧ v = .record t variant copies ∧
        SlotsCopied known w.enterRecord m arm (t.steps variant) slots copies

/-- Steps, listed fields and compiled metadata agree for every derived type and in every state of a
redactor, so that no redaction of a derived value ends in a fault of a derivation. -/
theorem Redactor.Reached.derivation_aligned {σ : Type} {r : Redactor σ}
    {s : WorkState RecordType σ} (hs : r.Reached s) {name : String} {item : Item} {t : RecordType}
    (ht : RecordType.ofItem name item = .ok t) :
    t.AlignedWith item ∧
      (∀ m, ((r.metadata t).runFrom s).1 = .ok m → ∀ (variant : Nat) (arm : Arm),
        t.plan.arms[variant]? = some arm → ∀ step ∈ t.steps variant, ∀ index,
          step.action = .apply index →
            ∃ literal instruction entry, step.field.treatment = .apply literal instruction ∧
              m.fields[index]? = some entry ∧ entry.CompiledFrom r.registry
                (.ofInstruction (step.field.specName arm.variant) instruction) ∧
              ∀ groups f e, m.applyAt groups index f = .error e → e.isInternal = false) ∧
      ∀ v groups e, v.Derived → ((r.redact v groups).runFrom s).1 = .error e →
        e.isInternal = false := by
  refine ⟨⟨Item.plan_arms (RecordType.plan_of_ofItem ht), ?_, ?_, ?_⟩, ?_, ?_⟩
  · intro variant arm ha
    exact (RecordType.steps_of_arm ha).1
  · intro variant arm ha
    exact (RecordType.steps_of_arm ha).2
  · intro known w variant arm slots v ha h
    exact walk_record_eq_ok ht ha h
  · intro m hm variant arm ha step hstep index hi
    obtain ⟨literal, instruction, entry, htreat, hentry, hfrom⟩ :=
      RecordType.entry_of_step ha (hs.metadata_compiled hm) hstep hi
    refine ⟨literal, instruction, entry, htreat, hentry, hfrom, ?_⟩
    intro groups f e he
    exact Metadata.isInternal_of_applyAt hentry he
  · intro v groups e hv he
    obtain ⟨known, htrue, hwalk⟩ := hs.exists_walk_eq v groups
    exact hv.isInternal_of_walk htrue (hwalk.trans he)

/-- A record that holds records of its own type; the first place of its tuple is skipped. -/
def cardItem : Item :=
  ⟨"Card", [], [], .enum [⟨"Blank", .unit, []⟩,
    ⟨"Issued", .tuple, [⟨none, "u64", [⟨["redact"], .list [.word "skip"]⟩]⟩,
      ⟨none, "Option<String>", [⟨["redact"], .list [.ofText "guest=zero"]⟩]⟩,
      ⟨none, "Vec<Card>", []⟩]⟩]⟩

def cardType : RecordType :=
  ⟨"shop::Card", ⟨[⟨some "Blank", .unit, []⟩,
    ⟨some "Issued", .tuple, [⟨none, 0, "u64", .skip⟩,
      ⟨none, 1, "Option<String>", .apply "\"guest=zero\"" "guest=zero"⟩,
      ⟨none, 2, "Vec<Card>", .walk⟩]⟩]⟩⟩

theorem ofItem_cardItem : RecordType.ofItem "shop::Card" cardItem = .ok cardType := by
  decide +kernel

def card (number : String) (inner : List Value) : Value :=
  .record cardType 1 [.value (.leaf (.scalar (.text "7"))),
    .field (.layer .present (.scalar (.text number))), .value (.sequence .vector inner)]

theorem derived_card (number : String) {inner : List Value} (h : ∀ v ∈ inner, v.Derived) :
    (card number inner).Derived := by
  have harm : cardType.plan.arms[1]? = some ⟨some "Issued", .tuple, [⟨none, 0, "u64", .skip⟩,
      ⟨none, 1, "Option<String>", .apply "\"guest=zero\"" "guest=zero"⟩,
      ⟨none, 2, "Vec<Card>", .walk⟩]⟩ := rfl
  refine .record ofItem_cardItem harm rfl ?_
  intro p f slot hf hslot
  rcases p with _ | _ | _ | p
  · cases hf
    cases hslot
    exact .skipped rfl _
  · cases hf
    cases hslot
    exact .instruction rfl _
  · cases hf
    cases hslot
    exact .walked (.inr rfl) (.sequence .vector h)
  · cases hf

theorem derivation_aligned_card :
    cardType.AlignedWith cardItem ∧
      ∃ m entry, (((Redactor.standard fun _ => "").metadata cardType).runFrom ⟨.empty, ()⟩).1 =
        .ok m ∧ m.fields[0]? = some entry ∧ entry.name = "Issued.1" := by
  obtain ⟨haligned, hentries, -⟩ := Redactor.Reached.derivation_aligned
    (r := .standard fun _ => "") (.start ()) ofItem_cardItem
  have hcompiles : (((Redactor.standard fun _ => "").metadata cardType).runFrom
      ⟨.empty, ()⟩).1.toBool = true := by decide +kernel
  cases hm : (((Redactor.standard fun _ => "").metadata cardType).runFrom ⟨.empty, ()⟩).1 with
  | error e =>
      rw [hm] at hcompiles
      cases hcompiles
  | ok m =>
      obtain ⟨_, _, entry, -, hentry, hfrom, -⟩ := hentries m hm 1 _ rfl
        ⟨⟨none, 1, "Option<String>", .apply "\"guest=zero\"" "guest=zero"⟩, .apply 0⟩
        (by decide) 0 rfl
      exact ⟨haligned, m, entry, rfl, hentry, hfrom.name_eq⟩

end Redaction
