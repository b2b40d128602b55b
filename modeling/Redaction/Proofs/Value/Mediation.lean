import Redaction.Proofs.Value.Derived
import Redaction.Proofs.Value.Image

/-!
# Every instruction is carried out

What a redacted copy is, read off the declared fields alone: a field with an instruction has its
scalar replaced by the outcome of that very instruction, once and for the groups of the call; all
that is not skipped is copied so at every depth; and a skipped field stays as it is. Neither the
indices of steps nor the cache occur in the description.
-/

namespace Redaction

open Redaction.Derivation

variable {σ : Type}

/-- A field after an evaluator. There is nothing to evaluate in a field with an empty layer. -/
def Field.RedactedBy (e : Evaluator) (groups : List String) (f copy : Field) : Prop :=
  match f.scalar? with
  | none => copy = f
  | some s => ∃ outcome, e.evaluate s groups = .ok outcome ∧ copy = f.replace outcome.value

mutual

inductive Value.Redacted (r : Redactor σ) (groups : List String) : Value → Value → Prop
  | leaf (l : Leaf) : Value.Redacted r groups (.leaf l) (.leaf l)
  | absent : Value.Redacted r groups .absent .absent
  | layer (outer : Layer) {inner copy : Value} (h : Value.Redacted r groups inner copy) :
      Value.Redacted r groups (.layer outer inner) (.layer outer copy)
  | sequence (kind : SequenceKind) {items copies : List Value}
      (h : List.Forall₂ (Value.Redacted r groups) items copies) :
      Value.Redacted r groups (.sequence kind items) (.sequence kind copies)
  | set (kind : SetKind) {items copies image : List Value}
      (h : List.Forall₂ (Value.Redacted r groups) items copies)
      (himage : ImageOf r.elementKey copies image) :
      Value.Redacted r groups (.set kind items) (.set kind image)
  | map (kind : MapKind) {entries copies : List (Key × Value)}
      (hkeys : copies.map Prod.fst = entries.map Prod.fst)
      (h : List.Forall₂ (Value.Redacted r groups) (entries.map Prod.snd) (copies.map Prod.snd)) :
      Value.Redacted r groups (.map kind entries) (.map kind copies)
  | record {t : RecordType} {variant : Nat} {arm : Arm} {slots copies : List Slot}
      (ha : t.plan.arms[variant]? = some arm) (hlength : copies.length = slots.length)
      (h : ∀ (p : Nat) (f : PlannedField) (slot copy : Slot), arm.fields[p]? = some f →
        slots[p]? = some slot → copies[p]? = some copy → Slot.Redacted r groups f slot copy) :
      Value.Redacted r groups (.record t variant slots) (.record t variant copies)

inductive Slot.Redacted (r : Redactor σ) (groups : List String) : PlannedField → Slot → Slot → Prop
  | skipped {f : PlannedField} (hf : f.isWalked = false) (slot : Slot) :
      Slot.Redacted r groups f slot slot
  | instruction {f : PlannedField} {literal : SourceToken} {instruction : String} {e : Evaluator}
      {held copy : Field} (hf : f.treatment = .apply literal instruction)
      (he : e.CompiledFrom r.registry instruction) (h : held.RedactedBy e groups copy) :
      Slot.Redacted r groups f (.field held) (.field copy)
  | walked {f : PlannedField} {v copy : Value} (hf : f.treatment = .nested ∨ f.treatment = .walk)
      (h : Value.Redacted r groups v copy) : Slot.Redacted r groups f (.value v) (.value copy)

end

theorem Metadata.redactedBy_of_applyAt {m : Metadata} {index : Nat} {entry : FieldMetadata}
    {e : Evaluator} (hm : m.fields[index]? = some entry) (he : entry.evaluator = some e)
    {groups : List String} {f copy : Field} (h : m.applyAt groups index f = .ok copy) :
    f.RedactedBy e groups copy := by
  simp only [Metadata.applyAt, hm, he] at h
  rw [Field.RedactedBy]
  cases hs : f.scalar? with
  | none =>
      simp only [hs] at h
      cases h
      rfl
  | some s =>
      simp only [hs] at h
      split at h
      · cases h
      · next outcome ho =>
          cases h
          exact ⟨outcome, ho, rfl⟩

variable {r : Redactor σ} {known : Knowledge} {w : Walker}

theorem redacted_of_walkSlot {t : RecordType} {variant : Nat} {arm : Arm} {m : Metadata}
    (ha : t.plan.arms[variant]? = some arm) (hm : t.CompilesTo r.registry (.ok m)) {s : Step}
    (hs : s ∈ t.steps variant) {slot copy : Slot} (hfits : Slot.Fits s.field slot)
    (hcopy : walkSlot known w m s.action slot = .ok copy)
    (h : ∀ v, slot = .value v → v.Derived → ∀ u, v.walk known w = .ok u →
      v.Redacted r w.groups u) :
    Slot.Redacted r w.groups s.field slot copy := by
  cases hfits with
  | skipped hf _ =>
      exact absurd ((RecordType.field_mem_of_step ha hs).2.symm.trans hf) (by simp)
  | @instruction _ literal instruction hf held =>
      obtain ⟨index, entry, e, hi, hentry, -, he, hcompiled⟩ :=
        RecordType.evaluator_of_step ha hm hs hf
      rw [hi, walkSlot_apply_field] at hcopy
      obtain ⟨replaced, hr, rfl⟩ := map_eq_ok_iff.mp hcopy
      exact .instruction hf hcompiled (Metadata.redactedBy_of_applyAt hentry he hr)
  | @walked _ v hf hv =>
      rw [RecordType.action_of_walked ha hs hf, walkSlot_walk_value] at hcopy
      obtain ⟨u, hu, rfl⟩ := map_eq_ok_iff.mp hcopy
      exact .walked hf (h v rfl hv u hu)

/-- The induction is on the value; a record enters it with the same groups and the same order of
elements. -/
theorem Value.Derived.redacted_of_walk (hknown : known.Truthful r.registry)
    (hkey : w.elementKey = r.elementKey) {v copy : Value} (hv : v.Derived)
    (h : v.walk known w = .ok copy) : v.Redacted r w.groups copy := by
  induction v using Value.induction generalizing w copy with
  | leaf l =>
      obtain ⟨-, rfl⟩ := walk_leaf_eq_ok_iff.mp h
      exact .leaf l
  | absent =>
      cases h
      exact .absent
  | layer outer inner ih =>
      cases hv with
      | layer _ hinner =>
          obtain ⟨copied, hc, rfl⟩ := walk_layer_eq_ok_iff.mp h
          exact .layer outer (ih hkey hinner hc)
  | sequence kind items ih =>
      cases hv with
      | sequence _ hitems =>
          obtain ⟨copies, hc, rfl⟩ := walk_sequence_eq_ok_iff.mp h
          have hcopies := forall₂_imp_of_mem hc fun v hv u hu => ih v hv hkey (hitems v hv) hu
          exact .sequence kind hcopies
  | set kind items ih =>
      cases hv with
      | set _ hitems =>
          obtain ⟨copies, hc, rfl⟩ := walk_set_eq_ok_iff.mp h
          rw [hkey]
          refine .set kind ?_ (imageOf_arrangeBy r.elementKey copies)
          exact forall₂_imp_of_mem hc fun v hv u hu => ih v hv hkey (hitems v hv) hu
  | map kind entries ih =>
      cases hv with
      | map _ hentries =>
          obtain ⟨copies, hkeys, hvalues, rfl⟩ := walk_map_eq_ok_iff.mp h
          refine .map kind hkeys (forall₂_imp_of_mem hvalues ?_)
          intro v hv u hu
          obtain ⟨e, he, rfl⟩ := List.mem_map.mp hv
          exact ih e he hkey (hentries e he) hu
  | record t variant slots ih =>
      cases hv with
      | @record name item _ _ arm _ ht ha hlength hfits =>
          obtain ⟨m, copies, hm, rfl, hcopied⟩ := walk_record_eq_ok ht ha h
          refine .record ha hcopied.length_eq ?_
          intro p f slot copy hf hslot hcopy
          by_cases hw : f.isWalked = true
          · obtain ⟨s, hs, rfl⟩ := RecordType.exists_step ha (List.mem_of_getElem? hf) hw
            have hstep := hcopied.stepped p s slot copy hf hslot hcopy hs
            have hfit := hfits p s.field slot hf hslot
            refine redacted_of_walkSlot (w := w.enterRecord) ha (hm ▸ hknown t) hs hfit hstep ?_
            rintro v rfl hv u hu
            exact ih v (List.mem_of_getElem? hslot) (w := w.enterRecord) hkey hv hu
          · have hskipped : f.isWalked = false := by simpa using hw
            rw [hcopied.skipped p f slot copy hf hslot hcopy hskipped]
            exact .skipped hskipped slot

/-- A redacted copy is what the declared fields say, in every state that the redactor can be in. -/
theorem Redactor.Reached.redacted_of_redact {s : WorkState RecordType σ} (hs : r.Reached s)
    {v copy : Value} (hv : v.Derived) {groups : List String}
    (h : ((r.redact v groups).runFrom s).1 = .ok copy) :
    v.Redacted r (r.groupsFor groups) copy := by
  obtain ⟨known, htrue, hwalk⟩ := hs.exists_walk_eq v groups
  exact hv.redacted_of_walk (w := r.walker groups) htrue rfl (hwalk.trans h)

theorem redacted_of_redact_card :
    ∃ copy, (((Redactor.standard fun _ => "").redact (card "4111" [card "5500" []])
      ["guest"]).runFrom ⟨.empty, ()⟩).1 = .ok copy ∧
        (card "4111" [card "5500" []]).Redacted (.standard fun _ => "" : Redactor Unit) ["guest"]
          copy := by
  have hinner : ∀ v ∈ [card "5500" []], v.Derived := by
    intro v hv
    rw [List.mem_singleton.mp hv]
    exact derived_card "5500" nofun
  have hredacts : (((Redactor.standard fun _ => "").redact (card "4111" [card "5500" []])
      ["guest"]).runFrom ⟨.empty, ()⟩).1.toBool = true := by decide +kernel
  cases h : (((Redactor.standard fun _ => "").redact (card "4111" [card "5500" []])
      ["guest"]).runFrom ⟨.empty, ()⟩).1 with
  | error e =>
      rw [h] at hredacts
      cases hredacts
  | ok copy =>
      have hredacted :=
        Redactor.Reached.redacted_of_redact (.start ()) (derived_card "4111" hinner) h
      exact ⟨copy, rfl, hredacted⟩

end Redaction
