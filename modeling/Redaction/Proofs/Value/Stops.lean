import Redaction.Proofs.Value.Derived

/-!
# The stops of a walk

The places at which a walk can fail, in the order in which it comes to them: a leaf, a record whose
metadata is asked for, and a field whose instruction is carried out. A walk through a derived value
fails as the first of its stops that fails, and copies the value if none does. With steady factories
what goes wrong at a stop does not depend on the cache, nor on what was compiled before.
-/

namespace Redaction

open Redaction.Derivation

/-- A leaf comes with whether there is a record above it, and a field with its listed name and its
declared instruction. -/
inductive Stop where
  | leaf (value : Leaf) (inRecord : Bool)
  | record (type : RecordType)
  | field (type : RecordType) (name instruction : String) (held : Field)

mutual

def Value.stops (inRecord : Bool) : Value → List Stop
  | .leaf l => [.leaf l inRecord]
  | .absent => []
  | .layer _ inner => inner.stops inRecord
  | .sequence _ items => itemStops inRecord items
  | .set _ items => itemStops inRecord items
  | .map _ entries => entryStops inRecord entries
  | .record t variant slots =>
      .record t :: match t.plan.arms[variant]? with
        | none => []
        | some arm => slotStops t arm.variant arm.fields slots

def itemStops (inRecord : Bool) : List Value → List Stop
  | [] => []
  | v :: rest => v.stops inRecord ++ itemStops inRecord rest

def entryStops (inRecord : Bool) : List (Key × Value) → List Stop
  | [] => []
  | (_, v) :: rest => v.stops inRecord ++ entryStops inRecord rest

/-- The stops in the slots for declared fields. -/
def slotStops (t : RecordType) (variant : Option String) (fields : List PlannedField) :
    List Slot → List Stop
  | [] => []
  | slot :: rest =>
      match fields with
      | [] => []
      | f :: later => slot.stops t variant f ++ slotStops t variant later rest

def Slot.stops (t : RecordType) (variant : Option String) (f : PlannedField) : Slot → List Stop
  | .field held =>
      match f.treatment with
      | .apply _ instruction => [.field t (f.specName variant) instruction held]
      | .nested | .walk | .skip => []
  | .value v =>
      match f.treatment with
      | .nested | .walk => v.stops true
      | .apply .. | .skip => []

end

/-! ## Which stops there are -/

theorem mem_itemStops_iff {b : Bool} {items : List Value} {stop : Stop} :
    stop ∈ itemStops b items ↔ ∃ v ∈ items, stop ∈ v.stops b := by
  induction items with
  | nil => simp [itemStops]
  | cons v rest ih => simp only [itemStops, List.mem_append, ih, List.exists_mem_cons_iff]

theorem mem_entryStops_iff {b : Bool} {entries : List (Key × Value)} {stop : Stop} :
    stop ∈ entryStops b entries ↔ ∃ e ∈ entries, stop ∈ e.2.stops b := by
  induction entries with
  | nil => simp [entryStops]
  | cons e rest ih => simp only [entryStops, List.mem_append, ih, List.exists_mem_cons_iff]

theorem mem_slotStops_iff {t : RecordType} {variant : Option String} {fields : List PlannedField}
    {slots : List Slot} {stop : Stop} :
    stop ∈ slotStops t variant fields slots ↔ ∃ (p : Nat) (f : PlannedField) (slot : Slot),
      fields[p]? = some f ∧ slots[p]? = some slot ∧ stop ∈ slot.stops t variant f := by
  induction slots generalizing fields with
  | nil => simp [slotStops]
  | cons slot rest ih =>
      cases fields with
      | nil => simp [slotStops]
      | cons f later =>
          rw [slotStops, List.mem_append, ih]
          constructor
          · rintro (h | ⟨p, g, next, hg, hnext, h⟩)
            · exact ⟨0, f, slot, rfl, rfl, h⟩
            · exact ⟨p + 1, g, next, by simpa using hg, by simpa using hnext, h⟩
          · rintro ⟨p, g, next, hg, hnext, h⟩
            cases p with
            | zero =>
                cases hg
                cases hnext
                exact .inl h
            | succ p => exact .inr ⟨p, g, next, by simpa using hg, by simpa using hnext, h⟩

/-- The walk of a value comes to a record of a type. What is in a field that is skipped or has an
instruction is not come to. -/
inductive Value.Reaches (t : RecordType) : Value → Prop
  | here (variant : Nat) (slots : List Slot) : Reaches t (.record t variant slots)
  | layer (outer : Layer) {inner : Value} (h : inner.Reaches t) : Reaches t (.layer outer inner)
  | item (kind : SequenceKind) {items : List Value} {v : Value} (hv : v ∈ items)
      (h : v.Reaches t) : Reaches t (.sequence kind items)
  | element (kind : SetKind) {items : List Value} {v : Value} (hv : v ∈ items)
      (h : v.Reaches t) : Reaches t (.set kind items)
  | entry (kind : MapKind) {entries : List (Key × Value)} {e : Key × Value} (he : e ∈ entries)
      (h : e.2.Reaches t) : Reaches t (.map kind entries)
  | field {type : RecordType} {variant : Nat} {arm : Arm} {slots : List Slot} {p : Nat}
      {f : PlannedField} {v : Value} (ha : type.plan.arms[variant]? = some arm)
      (hf : arm.fields[p]? = some f) (ht : f.treatment = .nested ∨ f.treatment = .walk)
      (hv : slots[p]? = some (.value v)) (h : v.Reaches t) :
      Reaches t (.record type variant slots)

theorem Slot.stops_value {f : PlannedField} (hf : f.treatment = .nested ∨ f.treatment = .walk)
    (t : RecordType) (variant : Option String) (v : Value) :
    (Slot.value v).stops t variant f = v.stops true := by
  rcases hf with hf | hf <;> rw [stops, hf]

/-- Below a record there are its own stops, and those of the values in its slots, which are below a
record whatever is above this one. -/
theorem Value.mem_stops_record {t : RecordType} {variant : Nat} {slots : List Slot} {b : Bool}
    {stop : Stop} (h : stop ∈ (Value.record t variant slots).stops b) :
    stop = .record t ∨ (∃ name instruction held, stop = .field t name instruction held) ∨
      ∃ (arm : Arm) (p : Nat) (f : PlannedField) (v : Value),
        t.plan.arms[variant]? = some arm ∧ arm.fields[p]? = some f ∧
          (f.treatment = .nested ∨ f.treatment = .walk) ∧ slots[p]? = some (.value v) ∧
            stop ∈ v.stops true := by
  rw [Value.stops] at h
  rcases List.mem_cons.mp h with rfl | h
  · exact .inl rfl
  · cases ha : t.plan.arms[variant]? with
    | none => simp [ha] at h
    | some arm =>
        rw [ha] at h
        obtain ⟨p, f, slot, hf, hslot, h⟩ := mem_slotStops_iff.mp h
        cases slot with
        | field held =>
            cases ht : f.treatment with
            | apply literal instruction =>
                rw [Slot.stops, ht] at h
                exact .inr (.inl ⟨_, instruction, held, List.mem_singleton.mp h⟩)
            | nested | walk | skip => simp [Slot.stops, ht] at h
        | value v =>
            by_cases ht : f.treatment = .nested ∨ f.treatment = .walk
            · rw [Slot.stops_value ht] at h
              exact .inr (.inr ⟨arm, p, f, v, rfl, hf, ht, hslot, h⟩)
            · cases hc : f.treatment <;> simp [Slot.stops, hc] at h ht

theorem Value.Reaches.mem_stops {t : RecordType} {v : Value} (h : v.Reaches t) (b : Bool) :
    .record t ∈ v.stops b := by
  induction h generalizing b with
  | here variant slots =>
      rw [Value.stops]
      exact List.mem_cons_self
  | layer outer _ ih => exact ih b
  | item kind hv _ ih => exact mem_itemStops_iff.mpr ⟨_, hv, ih b⟩
  | element kind hv _ ih => exact mem_itemStops_iff.mpr ⟨_, hv, ih b⟩
  | entry kind he _ ih => exact mem_entryStops_iff.mpr ⟨_, he, ih b⟩
  | @field type _ arm _ p f v ha hf ht hv _ ih =>
      rw [Value.stops, ha]
      refine List.mem_cons_of_mem _ (mem_slotStops_iff.mpr ⟨p, f, .value v, hf, hv, ?_⟩)
      rw [Slot.stops_value ht]
      exact ih true

/-- The record stops are the records that the walk comes to. -/
theorem Value.record_mem_stops_iff {t : RecordType} {v : Value} {b : Bool} :
    .record t ∈ v.stops b ↔ v.Reaches t := by
  refine ⟨fun h => ?_, fun h => h.mem_stops b⟩
  induction v using Value.induction generalizing b with
  | leaf l => simp [Value.stops] at h
  | absent => simp [Value.stops] at h
  | layer outer inner ih => exact .layer outer (ih h)
  | sequence kind items ih =>
      obtain ⟨v, hv, h⟩ := mem_itemStops_iff.mp h
      exact .item kind hv (ih v hv h)
  | set kind items ih =>
      obtain ⟨v, hv, h⟩ := mem_itemStops_iff.mp h
      exact .element kind hv (ih v hv h)
  | map kind entries ih =>
      obtain ⟨e, he, h⟩ := mem_entryStops_iff.mp h
      exact .entry kind he (ih e he h)
  | record type variant slots ih =>
      rcases Value.mem_stops_record h with heq | ⟨_, _, _, heq⟩ | ⟨_, p, f, v, ha, hf, ht, hv, h⟩
      · cases heq
        exact .here variant slots
      · cases heq
      · exact .field ha hf ht hv (ih v (List.mem_of_getElem? hv) h)

/-! ## What fails at a stop -/

variable {σ : Type}

/-- What goes wrong at a stop, if something does: a leaf without a record above it, the first
instruction of a type that does not compile, or a method that refuses the scalar of a field. -/
def Stop.fault? (registry : Registry σ) (factories : σ) (groups : List String) :
    Stop → Option RedactError
  | leaf l inRecord => if inRecord then none else some (.notRecord l.typeName)
  | record t => t.plan.specs.findSome? (·.fault? registry factories t.name)
  | field t name instruction held =>
      match ((compile registry instruction).runFrom factories).1, held.scalar? with
      | .ok e, some s => (failure? (e.evaluate s groups)).map (.transform t.name name)
      | _, _ => none

theorem Knowledge.Truthful.failure?_eq {registry : Registry σ} (hr : registry.Steady)
    {known : Knowledge} (h : known.Truthful registry) (t : RecordType) (factories : σ) :
    failure? (known t) = t.plan.specs.findSome? (·.fault? registry factories t.name) := by
  obtain ⟨factories', hc⟩ := h t
  rw [← hc, Metadata.steady_compile hr t.plan.specs factories' factories,
    Metadata.failure?_compile hr]

theorem Metadata.failure?_applyAt {m : Metadata} {index : Nat} {entry : FieldMetadata}
    {e : Evaluator} (hm : m.fields[index]? = some entry) (he : entry.evaluator = some e)
    (groups : List String) (held : Field) :
    failure? (m.applyAt groups index held) = held.scalar?.bind fun s =>
      (failure? (e.evaluate s groups)).map (.transform m.typeName entry.name) := by
  simp only [applyAt, hm, he]
  cases held.scalar? with
  | none => rfl
  | some s =>
      simp only [Option.bind_some]
      cases e.evaluate s groups <;> rfl

/-! ## Parts of a value -/

section

variable {known : Knowledge} {w : Walker} {m : Metadata} {fault : Stop → Option RedactError}

theorem failure?_walkItems {items : List Value} (h : ∀ v ∈ items,
      failure? (v.walk known w) = (v.stops w.inRecord).findSome? fault) :
    failure? (walkItems known w items) = (itemStops w.inRecord items).findSome? fault := by
  induction items with
  | nil => rfl
  | cons v rest ih =>
      obtain ⟨hv, hrest⟩ := List.forall_mem_cons.mp h
      rw [walkItems, itemStops, List.findSome?_append, ← hv, ← ih hrest]
      exact failure?_bind fun copy _ => failure?_bind_of_none fun _ _ => rfl

theorem failure?_walkEntries {entries : List (Key × Value)} (h : ∀ e ∈ entries,
      failure? (e.2.walk known w) = (e.2.stops w.inRecord).findSome? fault) :
    failure? (walkEntries known w entries) =
      (entryStops w.inRecord entries).findSome? fault := by
  induction entries with
  | nil => rfl
  | cons e rest ih =>
      obtain ⟨he, hrest⟩ := List.forall_mem_cons.mp h
      rw [walkEntries, entryStops, List.findSome?_append, ← he, ← ih hrest]
      exact failure?_bind fun copy _ => failure?_bind_of_none fun _ _ => rfl

theorem stops_of_skipped {f : PlannedField} (hf : f.isWalked = false) (t : RecordType)
    (variant : Option String) (slot : Slot) : slot.stops t variant f = [] := by
  have hskip : f.treatment = .skip := by simpa [PlannedField.isWalked] using hf
  cases slot <;> rw [Slot.stops, hskip]

/-- The steps are consumed field by field; a field that is skipped has no step and no stop. -/
theorem failure?_walkSlots {t : RecordType} {variant : Option String} {fields : List PlannedField}
    {steps : List Step} {position : Nat} {slots : List Slot}
    (hposition : ∀ (i : Nat) (f : PlannedField), fields[i]? = some f → f.position = position + i)
    (hsteps : steps.map (·.field) = fields.filter (·.isWalked))
    (hlength : slots.length = fields.length)
    (hslots : ∀ (p : Nat) (f : PlannedField) (slot : Slot), fields[p]? = some f →
      slots[p]? = some slot → ∀ s ∈ steps, s.field = f →
        failure? (walkSlot known w m s.action slot) = (slot.stops t variant f).findSome? fault) :
    failure? (walkSlots known w m steps position slots) =
      (slotStops t variant fields slots).findSome? fault := by
  induction slots generalizing fields steps position with
  | nil => rfl
  | cons slot rest ih =>
      obtain ⟨f, later, rfl⟩ := List.exists_cons_of_length_eq_add_one hlength.symm
      have hlater : ∀ (i : Nat) (g : PlannedField), later[i]? = some g →
          g.position = position + 1 + i := by
        intro i g hg
        rw [hposition (i + 1) g (by simpa using hg)]
        omega
      have hlength' : rest.length = later.length := by simpa using hlength
      rw [slotStops, List.findSome?_append]
      by_cases hw : f.isWalked = true
      · rw [List.filter_cons_of_pos hw] at hsteps
        obtain ⟨s, after, rfl, rfl, hafter⟩ := List.map_eq_cons_iff.mp hsteps
        have hs := hslots 0 s.field slot rfl rfl s List.mem_cons_self rfl
        have hrest := ih hlater hafter hlength' fun p g next hg hnext u hu =>
          hslots (p + 1) g next (by simpa using hg) (by simpa using hnext) u
            (List.mem_cons_of_mem s hu)
        have hhere : s.field.position = position := hposition 0 s.field rfl
        rw [walkSlots, if_pos hhere, ← hs, ← hrest]
        exact failure?_bind fun copy _ => failure?_bind_of_none fun _ _ => rfl
      · have hskipped : f.isWalked = false := by simpa using hw
        rw [List.filter_cons_of_neg hw] at hsteps
        have hrest := ih hlater hsteps hlength' fun p g next hg hnext =>
          hslots (p + 1) g next (by simpa using hg) (by simpa using hnext)
        rw [stops_of_skipped hskipped, List.findSome?_nil, Option.none_or, ← hrest]
        cases steps with
        | nil => cases rest <;> rfl
        | cons s after =>
            -- the next step is for a later field, so the slot is copied as it is
            have hmem : s.field ∈ later := by
              have hhead : s.field ∈ later.filter (·.isWalked) := hsteps ▸ List.mem_cons_self
              exact (List.mem_filter.mp hhead).1
            obtain ⟨i, hi⟩ := List.mem_iff_getElem?.mp hmem
            have hne : s.field.position ≠ position := by
              rw [hlater i s.field hi]
              omega
            rw [walkSlots, if_neg hne, failure?_bind_of_none fun _ _ => rfl]

theorem failure?_walkSlot {registry : Registry σ} (hr : registry.Steady) (factories : σ)
    {t : RecordType} {variant : Nat} {arm : Arm} (ha : t.plan.arms[variant]? = some arm)
    (hm : t.CompilesTo registry (.ok m)) {s : Step} (hs : s ∈ t.steps variant) {slot : Slot}
    (hfits : Slot.Fits s.field slot)
    (h : ∀ v, slot = .value v → v.Derived →
      failure? (v.walk known w) =
        (v.stops true).findSome? (·.fault? registry factories w.groups)) :
    failure? (walkSlot known w m s.action slot) = (slot.stops t arm.variant s.field).findSome?
      (·.fault? registry factories w.groups) := by
  cases hfits with
  | skipped hf _ =>
      exact absurd ((RecordType.field_mem_of_step ha hs).2.symm.trans hf) (by simp)
  | @instruction _ literal instruction hf held =>
      obtain ⟨index, entry, e, hi, hentry, hname, he, hcompiled⟩ :=
        RecordType.evaluator_of_step ha hm hs hf
      obtain ⟨factories', hc⟩ := hm
      have htype : m.typeName = t.name := (Metadata.compile_eq_ok hc).1
      rw [hi, walkSlot_apply_field, failure?_map, Metadata.failure?_applyAt hentry he,
        Slot.stops, hf, List.findSome?_singleton, Stop.fault?, hcompiled.compile_eq hr, htype,
        hname]
      cases held.scalar? <;> rfl
  | @walked _ v hf hv =>
      rw [RecordType.action_of_walked ha hs hf, walkSlot_walk_value, failure?_map, Slot.stops_value hf, h v rfl hv]

end

/-- A walk fails as the first of its stops that fails. The induction is on the value. -/
theorem Value.Derived.failure?_walk {registry : Registry σ} (hr : registry.Steady)
    {known : Knowledge} (hknown : known.Truthful registry) (factories : σ) {v : Value}
    (hv : v.Derived) (w : Walker) :
    failure? (v.walk known w) =
      (v.stops w.inRecord).findSome? (·.fault? registry factories w.groups) := by
  induction v using Value.induction generalizing w with
  | leaf l =>
      rw [Value.walk, Value.stops, List.findSome?_singleton, Stop.fault?]
      split <;> rfl
  | absent => rfl
  | layer outer inner ih =>
      cases hv with
      | layer _ hinner =>
          rw [Value.walk, Value.stops, ← ih hinner w, failure?_bind_of_none fun _ _ => rfl]
  | sequence kind items ih =>
      cases hv with
      | sequence _ hitems =>
          rw [Value.walk, Value.stops, ← failure?_walkItems fun v hv => ih v hv (hitems v hv) w,
            failure?_bind_of_none]
          intro copies hc
          rw [rebuildSequence_of_length_eq (walkItems_eq_ok_iff.mp hc).length_eq.symm]
          rfl
  | set kind items ih =>
      cases hv with
      | set _ hitems =>
          rw [Value.walk, Value.stops, ← failure?_walkItems fun v hv => ih v hv (hitems v hv) w,
            failure?_bind_of_none fun _ _ => rfl]
  | map kind entries ih =>
      cases hv with
      | map _ hentries =>
          rw [Value.walk, Value.stops,
            ← failure?_walkEntries fun e he => ih e he (hentries e he) w,
            failure?_bind_of_none fun _ _ => rfl]
  | record t variant slots ih =>
      cases hv with
      | @record name item _ _ arm _ ht ha hlength hfits =>
          rw [Value.walk, Value.stops, ha, List.findSome?_cons, Stop.fault?,
            ← hknown.failure?_eq hr t factories]
          cases hm : known t with
          | error e => rfl
          | ok m =>
              have hcopies : failure? (walkSlots known w.enterRecord m (t.steps variant) 0 slots) =
                  (slotStops t arm.variant arm.fields slots).findSome?
                    (·.fault? registry factories w.groups) := by
                apply failure?_walkSlots
                · intro p f hf
                  rw [RecordType.position_eq ht ha hf, Nat.zero_add]
                · exact (RecordType.steps_of_arm ha).1
                · exact hlength
                · rintro p f slot hf hslot s hs rfl
                  refine failure?_walkSlot (w := w.enterRecord) hr factories ha (hm ▸ hknown t) hs
                    (hfits p s.field slot hf hslot) ?_
                  rintro v rfl hv
                  exact ih v (List.mem_of_getElem? hslot) hv w.enterRecord
              rw [← hcopies]
              exact failure?_bind_of_none (x := walkSlots ..) fun copies _ => rfl

/-- A redaction fails as the first of its stops that fails, in whatever state the redactor is. -/
theorem Redactor.Reached.failure?_redact {r : Redactor σ} {s : WorkState RecordType σ}
    (hs : r.Reached s) (hr : r.registry.Steady) (factories : σ) {v : Value} (hv : v.Derived)
    (groups : List String) :
    failure? ((r.redact v groups).runFrom s).1 =
      (v.stops false).findSome? (·.fault? r.registry factories (r.groupsFor groups)) := by
  obtain ⟨known, hknown, hwalk⟩ := hs.exists_walk_eq v groups
  rw [← hwalk]
  exact hv.failure?_walk hr hknown factories (r.walker groups)

end Redaction
