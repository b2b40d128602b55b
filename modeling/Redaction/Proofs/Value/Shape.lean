import Redaction.Proofs.Rule.Decision
import Redaction.Proofs.Value.Derived
import Redaction.Proofs.Value.Image

/-!
# The shape of a copy

A copy differs from its source in the scalars of fields with an instruction, and in elements of sets
that have fallen together; it has the same shape otherwise, and the same leaves. This is so whatever
metadata a cache holds: an evaluator compiled for another type could change other scalars than it
should, but neither their type nor what is around them.
-/

namespace Redaction

open Redaction.Derivation

/-- The same layers, around a scalar of the same type. -/
inductive Field.Alike : Field → Field → Prop
  | scalar {s t : Scalar} (h : t.type = s.type) : Alike (.scalar s) (.scalar t)
  | absent : Alike .absent .absent
  | layer (outer : Layer) {f g : Field} (h : Alike f g) : Alike (.layer outer f) (.layer outer g)

namespace Field

theorem Alike.refl (f : Field) : f.Alike f := by
  induction f with
  | scalar s => exact .scalar rfl
  | absent => exact .absent
  | layer outer f ih => exact .layer outer ih

theorem alike_replace {f : Field} {s t : Scalar} (hs : f.scalar? = some s)
    (ht : t.type = s.type) : f.Alike (f.replace t) := by
  induction f with
  | scalar u =>
      cases hs
      exact .scalar ht
  | absent => cases hs
  | layer outer f ih => exact .layer outer (ih hs)

end Field

/-- The walk takes a value to a copy, be it below a record or not. -/
def Value.WalksTo (known : Knowledge) (w : Walker) (v copy : Value) : Prop :=
  ∃ inRecord, v.walk known { w with inRecord } = .ok copy

mutual

/-- A copy has the shape of a value: each part of it is what the source has at this place, fields
with an instruction apart. -/
inductive Value.Alike (known : Knowledge) (w : Walker) : Value → Value → Prop
  | leaf (l : Leaf) : Value.Alike known w (.leaf l) (.leaf l)
  | absent : Value.Alike known w .absent .absent
  | layer (outer : Layer) {inner copy : Value} (h : Value.Alike known w inner copy) :
      Value.Alike known w (.layer outer inner) (.layer outer copy)
  | sequence (kind : SequenceKind) {items copies : List Value}
      (h : List.Forall₂ (Value.Alike known w) items copies) :
      Value.Alike known w (.sequence kind items) (.sequence kind copies)
  | set (kind : SetKind) {items copies image : List Value}
      (hwalk : List.Forall₂ (Value.WalksTo known w) items copies)
      (h : List.Forall₂ (Value.Alike known w) items copies)
      (himage : ImageOf w.elementKey copies image) (hlength : image.length ≤ items.length) :
      Value.Alike known w (.set kind items) (.set kind image)
  | map (kind : MapKind) {entries copies : List (Key × Value)}
      (hkeys : copies.map Prod.fst = entries.map Prod.fst)
      (h : List.Forall₂ (Value.Alike known w) (entries.map Prod.snd) (copies.map Prod.snd)) :
      Value.Alike known w (.map kind entries) (.map kind copies)
  | record {t : RecordType} {variant : Nat} {arm : Arm} {slots copies : List Slot}
      (ha : t.plan.arms[variant]? = some arm) (hlength : copies.length = slots.length)
      (h : ∀ (p : Nat) (f : PlannedField) (slot copy : Slot), arm.fields[p]? = some f →
        slots[p]? = some slot → copies[p]? = some copy → Slot.Alike known w f slot copy) :
      Value.Alike known w (.record t variant slots) (.record t variant copies)

inductive Slot.Alike (known : Knowledge) (w : Walker) : PlannedField → Slot → Slot → Prop
  | skipped {f : PlannedField} (hf : f.isWalked = false) (slot : Slot) :
      Slot.Alike known w f slot slot
  | instruction {f : PlannedField} {literal : SourceToken} {instruction : String}
      {held copy : Field} (hf : f.treatment = .apply literal instruction)
      (h : held.Alike copy) : Slot.Alike known w f (.field held) (.field copy)
  | walked {f : PlannedField} {v copy : Value} (hf : f.treatment = .nested ∨ f.treatment = .walk)
      (h : Value.Alike known w v copy) : Slot.Alike known w f (.value v) (.value copy)

end

/-! ## Fields -/

theorem Metadata.alike_of_applyAt {m : Metadata} {groups : List String} {index : Nat}
    {f copy : Field} (h : m.applyAt groups index f = .ok copy) : f.Alike copy := by
  unfold applyAt at h
  split at h
  · cases h
  · split at h
    · next e s he hs =>
        split at h
        · cases h
        · next outcome ho =>
            cases h
            exact Field.alike_replace hs (Evaluator.type_of_evaluate ho)
    · cases h
      exact .refl f

variable {known : Knowledge} {w : Walker}

theorem alike_of_walkSlot {t : RecordType} {variant : Nat} {arm : Arm} {m : Metadata}
    (ha : t.plan.arms[variant]? = some arm) {s : Step} (hs : s ∈ t.steps variant)
    {slot copy : Slot} (hfits : Slot.Fits s.field slot)
    (hcopy : walkSlot known w.enterRecord m s.action slot = .ok copy)
    (h : ∀ v, slot = .value v → v.Derived → ∀ u, v.walk known w.enterRecord = .ok u →
      v.Alike known w u) : Slot.Alike known w s.field slot copy := by
  cases hfits with
  | skipped hf _ =>
      exact absurd ((RecordType.field_mem_of_step ha hs).2.symm.trans hf) (by simp)
  | @instruction _ literal instruction hf held =>
      obtain ⟨index, hi⟩ := RecordType.action_of_instruction ha hs hf
      rw [hi, walkSlot_apply_field] at hcopy
      obtain ⟨replaced, hr, rfl⟩ := map_eq_ok_iff.mp hcopy
      exact .instruction hf (Metadata.alike_of_applyAt hr)
  | @walked _ v hf hv =>
      rw [RecordType.action_of_walked ha hs hf, walkSlot_walk_value] at hcopy
      obtain ⟨u, hu, rfl⟩ := map_eq_ok_iff.mp hcopy
      exact .walked hf (h v rfl hv u hu)

/-! ## Values -/

/-- The induction is on the value, above a record and below it alike. -/
theorem Value.Derived.alike_of_walk {v copy : Value} (hv : v.Derived) {inRecord : Bool}
    (h : v.walk known { w with inRecord } = .ok copy) : v.Alike known w copy := by
  induction v using Value.induction generalizing inRecord copy with
  | leaf l =>
      obtain ⟨-, rfl⟩ := walk_leaf_eq_ok_iff.mp h
      exact .leaf l
  | absent =>
      cases h
      exact .absent
  | layer outer inner ih =>
      cases hv with
      | layer _ hinner =>
          obtain ⟨copied, hc, rfl⟩ := walk_layer_eq_ok_iff.mp h
          exact .layer outer (ih hinner hc)
  | sequence kind items ih =>
      cases hv with
      | sequence _ hitems =>
          obtain ⟨copies, hc, rfl⟩ := walk_sequence_eq_ok_iff.mp h
          exact .sequence kind (forall₂_imp_of_mem hc fun v hv u hu => ih v hv (hitems v hv) hu)
  | set kind items ih =>
      cases hv with
      | set _ hitems =>
          obtain ⟨copies, hall, rfl⟩ := walk_set_eq_ok_iff.mp h
          have himage := imageOf_arrangeBy w.elementKey copies
          have hlength := himage.length_le
          rw [← hall.length_eq] at hlength
          refine .set kind (hall.imp fun v u hu => ⟨inRecord, hu⟩) ?_ himage hlength
          exact forall₂_imp_of_mem hall fun v hv u hu => ih v hv (hitems v hv) hu
  | map kind entries ih =>
      cases hv with
      | map _ hentries =>
          obtain ⟨copies, hkeys, hvalues, rfl⟩ := walk_map_eq_ok_iff.mp h
          refine .map kind hkeys (forall₂_imp_of_mem hvalues ?_)
          intro v hv u hu
          obtain ⟨e, he, rfl⟩ := List.mem_map.mp hv
          exact ih e he (hentries e he) hu
  | record t variant slots ih =>
      cases hv with
      | @record name item _ _ arm _ ht ha hlength hfits =>
          obtain ⟨m, copies, hm, rfl, hcopied⟩ := walk_record_eq_ok ht ha h
          refine .record ha hcopied.length_eq ?_
          intro p f slot copy hf hslot hcopy
          by_cases hw : f.isWalked = true
          · obtain ⟨s, hs, rfl⟩ := RecordType.exists_step ha (List.mem_of_getElem? hf) hw
            have hstep := hcopied.stepped p s slot copy hf hslot hcopy hs
            refine alike_of_walkSlot ha hs (hfits p s.field slot hf hslot) hstep ?_
            rintro v rfl hv u hu
            exact ih v (List.mem_of_getElem? hslot) hv hu
          · have hskipped : f.isWalked = false := by simpa using hw
            rw [hcopied.skipped p f slot copy hf hslot hcopy hskipped]
            exact .skipped hskipped slot

/-- A redacted copy has the shape of its source, whatever the cache was filled with before the call.
Elements of sets are copied with the metadata that the cache holds after it. -/
theorem Redactor.alike_of_redact {σ : Type} {r : Redactor σ} {s t : WorkState RecordType σ}
    {v copy : Value} (hv : v.Derived) {groups : List String}
    (h : (r.redact v groups).runFrom s = (.ok copy, t)) (hknown : known.Covers t.cache) :
    v.Alike known (r.walker groups) copy := by
  have hagrees : Agrees r.registry (r.redact v groups) fun known =>
      v.walk known (r.walker groups) := Agrees.walk v (r.walker groups)
  obtain ⟨-, -, hresult⟩ := hagrees s
  rw [h] at hresult
  exact hv.alike_of_walk (hresult known hknown)

def twoCards : Value := .set .hashed [card "4111" [], card "5500" []]

theorem alike_of_redact_twoCards :
    ∃ copy t, ((Redactor.standard fun _ => "").redact twoCards ["guest"]).runFrom ⟨.empty, ()⟩ =
        (.ok copy, t) ∧
      twoCards.Alike (t.cache.complete .builtin t.factories)
        ((Redactor.standard fun _ => "" : Redactor Unit).walker ["guest"]) copy := by
  have hderived : twoCards.Derived := by
    refine .set .hashed ?_
    intro v hv
    rcases List.mem_pair.mp hv with rfl | rfl
    · exact derived_card "4111" nofun
    · exact derived_card "5500" nofun
  have hredacts : (((Redactor.standard fun _ => "").redact twoCards ["guest"]).runFrom
      ⟨.empty, ()⟩).1.toBool = true := by decide +kernel
  obtain ⟨copy, t, h⟩ := exists_eq_ok_of_toBool hredacts
  have hcovers := t.cache.complete_covers Registry.builtin t.factories
  exact ⟨copy, t, h, Redactor.alike_of_redact hderived h hcovers⟩

end Redaction
