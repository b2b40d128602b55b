import Redaction.Proofs.Method.Builtin
import Redaction.Proofs.Rule.Decision
import Redaction.Proofs.Value.Derived
import Redaction.Proofs.Value.Image

/-!
# Redacting a copy again

With methods that leave alone what they have done, a redacted copy is redacted to itself. The rule
that decides an evaluation does not depend on the value, so the second time it is the same rule with
the same transformer, and what succeeded once succeeds again.
-/

namespace Redaction

open Redaction.Derivation

/-- The evaluator leaves alone what it has given, for every list of groups. -/
def Evaluator.Stable (e : Evaluator) : Prop :=
  ∀ s groups o, e.evaluate s groups = .ok o → e.evaluate o.value groups = .ok o

def Metadata.Stable (m : Metadata) : Prop :=
  ∀ entry ∈ m.fields, ∀ e, entry.evaluator = some e → e.Stable

def Knowledge.Stable (known : Knowledge) : Prop := ∀ t m, known t = .ok m → m.Stable

/-! ## Evaluators -/

theorem Rule.carryOut_stable {r : Rule} (h : r.transformer.Stable) {group : String} {s : Scalar}
    {o : Outcome} (ho : r.carryOut (fun q => q.transformer) group s = .ok o) :
    r.carryOut (fun q => q.transformer) group o.value = .ok o := by
  by_cases hruns : r.RunsFor group
  · rw [carryOut_of_runsFor hruns] at ho ⊢
    obtain ⟨u, hu, rfl⟩ := map_eq_ok_iff.mp ho
    exact map_eq_ok_iff.mpr ⟨u, h s u hu, rfl⟩
  · rw [carryOut_of_not_runsFor hruns] at ho ⊢
    cases ho
    rfl

namespace Evaluator

theorem stable_of_rules {e : Evaluator} (h : ∀ r ∈ e.rules, r.transformer.Stable) : e.Stable := by
  intro s groups o ho
  rcases e.exists_decidedBy_or_abstains groups with ⟨r, group, hdecided⟩ | habstains
  · have hout := (evaluateWith_of_decidedBy hdecided s).symm.trans ho
    have hagain := Rule.carryOut_stable (h r hdecided.mem) hout
    exact (evaluateWith_of_decidedBy hdecided o.value).trans hagain
  · have hout := (evaluateWith_of_abstains habstains s).symm.trans ho
    cases hout
    exact ho

theorem CompiledFrom.stable {σ : Type} {registry : Registry σ}
    (h : registry.Makes Transformer.Stable) {e : Evaluator} {instruction : String}
    (he : e.CompiledFrom registry instruction) : e.Stable := by
  obtain ⟨factories, hc⟩ := he
  exact stable_of_rules (forall_rules_of_makes h (Prod.ext hc rfl))

end Evaluator

theorem Knowledge.Truthful.stable {σ : Type} {registry : Registry σ}
    (h : registry.Makes Transformer.Stable) {known : Knowledge} (hknown : known.Truthful registry) :
    known.Stable := by
  intro t m hm entry hentry e he
  obtain ⟨factories, hc⟩ := hknown t
  obtain ⟨-, hfields⟩ := Metadata.compile_eq_ok (hc.trans hm)
  obtain ⟨spec, -, hfrom⟩ := exists_mem_of_forall₂ hfields hentry
  cases hs : spec.instruction with
  | none =>
      rw [hfrom.evaluator_none hs] at he
      cases he
  | some instruction =>
      obtain ⟨e', he', hcompiled⟩ := hfrom.evaluator_some instruction hs
      cases he.symm.trans he'
      exact hcompiled.stable h

/-! ## Walks -/

theorem Metadata.Stable.applyAt {m : Metadata} (h : m.Stable) {groups : List String} {index : Nat}
    {f copy : Field} (hf : m.applyAt groups index f = .ok copy) :
    m.applyAt groups index copy = .ok copy := by
  have hsame := hf
  unfold Metadata.applyAt at hf
  split at hf
  · cases hf
  · next entry hentry =>
      split at hf
      · next e s he hs =>
          split at hf
          · cases hf
          · next o ho =>
              cases hf
              have hscalar : (f.replace o.value).scalar? = some o.value := by
                rw [Field.scalar?_replace, hs]
                rfl
              have hagain := h entry (List.mem_of_getElem? hentry) e he s groups o ho
              simp only [Metadata.applyAt, hentry, he, hscalar, hagain, Field.replace_replace]
      · cases hf
        exact hsame

variable {known : Knowledge} {w : Walker}

/-- Whether a copy is walked to itself. -/
def Value.Settled (known : Knowledge) (w : Walker) (v : Value) : Prop :=
  ∀ copy, v.walk known w = .ok copy → copy.walk known w = .ok copy

theorem walk_of_forall₂ {items copies : List Value} (h : ∀ v ∈ items, v.Settled known w)
    (hc : List.Forall₂ (fun v u => v.walk known w = .ok u) items copies) :
    ∀ u ∈ copies, u.walk known w = .ok u := by
  intro u hu
  obtain ⟨v, hv, hcopy⟩ := exists_mem_of_forall₂ hc hu
  exact h v hv u hcopy

theorem walkSlot_settled {m : Metadata} (hm : m.Stable) {action : Action} {slot copy : Slot}
    (h : ∀ v, slot = .value v → v.Settled known w)
    (hc : walkSlot known w m action slot = .ok copy) :
    walkSlot known w m action copy = .ok copy := by
  cases slot with
  | field f =>
      cases action with
      | apply index =>
          rw [walkSlot_apply_field] at hc
          obtain ⟨g, hg, rfl⟩ := map_eq_ok_iff.mp hc
          rw [walkSlot_apply_field, hm.applyAt hg]
          rfl
      | walk =>
          cases hc
          exact walkSlot_walk_field f
  | value v =>
      cases action with
      | apply index =>
          cases hc
          exact walkSlot_apply_value index v
      | walk =>
          rw [walkSlot_walk_value] at hc
          obtain ⟨u, hu, rfl⟩ := map_eq_ok_iff.mp hc
          rw [walkSlot_walk_value, h v rfl u hu]
          rfl

/-- The same steps are taken at the same slots. -/
theorem walkSlots_settled {m : Metadata} (hm : m.Stable) {steps : List Step} {position : Nat}
    {slots copies : List Slot} (h : ∀ v, Slot.value v ∈ slots → v.Settled known w)
    (hc : walkSlots known w m steps position slots = .ok copies) :
    walkSlots known w m steps position copies = .ok copies := by
  induction slots generalizing steps position copies with
  | nil =>
      cases hc
      rfl
  | cons slot rest ih =>
      have hrest : ∀ v, Slot.value v ∈ rest → v.Settled known w :=
        fun v hv => h v (List.mem_cons_of_mem slot hv)
      cases steps with
      | nil =>
          cases hc
          rfl
      | cons step later =>
          rw [walkSlots] at hc
          split at hc
          · next hposition =>
              obtain ⟨copy, hcopy, hc⟩ := bind_eq_ok_iff.mp hc
              obtain ⟨after, hafter, hc⟩ := bind_eq_ok_iff.mp hc
              cases hc
              have hslot : ∀ v, slot = .value v → v.Settled known w :=
                fun v hv => h v (hv ▸ List.mem_cons_self)
              rw [walkSlots, if_pos hposition]
              exact bind_eq_ok_iff.mpr ⟨copy, walkSlot_settled hm hslot hcopy,
                bind_eq_ok_iff.mpr ⟨after, ih hrest hafter, rfl⟩⟩
          · next hposition =>
              obtain ⟨after, hafter, hc⟩ := bind_eq_ok_iff.mp hc
              cases hc
              rw [walkSlots, if_neg hposition]
              exact bind_eq_ok_iff.mpr ⟨after, ih hrest hafter, rfl⟩

/-- Nothing is asked of the value. Elements of a set that have fallen together stay so, and those
that are left are in order already. -/
theorem Value.settled (hknown : known.Stable) (v : Value) (w : Walker) : v.Settled known w := by
  induction v using Value.induction generalizing w with
  | leaf l =>
      intro copy h
      obtain ⟨-, rfl⟩ := walk_leaf_eq_ok_iff.mp h
      exact h
  | absent =>
      intro copy h
      cases h
      rfl
  | layer outer inner ih =>
      intro copy h
      obtain ⟨u, hu, rfl⟩ := walk_layer_eq_ok_iff.mp h
      exact walk_layer_eq_ok_iff.mpr ⟨u, ih w u hu, rfl⟩
  | sequence kind items ih =>
      intro copy h
      obtain ⟨copies, hall, rfl⟩ := walk_sequence_eq_ok_iff.mp h
      have hcopies := walk_of_forall₂ (fun v hv => ih v hv w) hall
      exact walk_sequence_eq_ok_iff.mpr ⟨copies, List.forall₂_same.mpr hcopies, rfl⟩
  | set kind items ih =>
      intro copy h
      obtain ⟨copies, hall, rfl⟩ := walk_set_eq_ok_iff.mp h
      have hcopies := walk_of_forall₂ (fun v hv => ih v hv w) hall
      have himage := imageOf_arrangeBy w.elementKey copies
      have hsame : ∀ u ∈ arrangeBy w.elementKey copies, u.walk known w = .ok u :=
        fun u hu => hcopies u (himage.subset u hu)
      refine walk_set_eq_ok_iff.mpr ⟨_, List.forall₂_same.mpr hsame, ?_⟩
      rw [arrangeBy_of_sorted himage.sorted]
  | map kind entries ih =>
      intro copy h
      obtain ⟨copies, -, hall, rfl⟩ := walk_map_eq_ok_iff.mp h
      have hentries : ∀ v ∈ entries.map Prod.snd, v.Settled known w :=
        List.forall_mem_map.mpr fun e he => ih e he w
      have hcopies := walk_of_forall₂ hentries hall
      exact walk_map_eq_ok_iff.mpr ⟨copies, rfl, List.forall₂_same.mpr hcopies, rfl⟩
  | record t variant slots ih =>
      intro copy h
      obtain ⟨m, hm, copies, hc, rfl⟩ := walk_record_eq_ok_iff.mp h
      have hslots : ∀ v, Slot.value v ∈ slots → v.Settled known w.enterRecord :=
        fun v hv => ih v hv w.enterRecord
      have hagain := walkSlots_settled (hknown t m hm) hslots hc
      exact walk_record_eq_ok_iff.mpr ⟨m, hm, copies, hagain, rfl⟩

/-- With no methods but the built-in ones, the redacted copy of a value is redacted to itself, now
and in every state that the redactor can be in. -/
theorem Redactor.Reached.redact_idempotent {σ : Type} {r : Redactor σ}
    (hr : r.registry.HasOnlyBuiltin) {s t : WorkState RecordType σ} (hs : r.Reached s)
    (ht : r.Reached t) {v copy : Value} {groups : List String}
    (h : ((r.redact v groups).runFrom s).1 = .ok copy) :
    ((r.redact copy groups).runFrom t).1 = .ok copy := by
  obtain ⟨known, htrue, hwalk⟩ := hs.exists_walk_eq v groups
  obtain ⟨known', htrue', hagain⟩ := ht.exists_walk_eq copy groups
  have hsame : known' = known := htrue'.unique hr.steady htrue
  rw [← hagain, hsame]
  exact v.settled (htrue.stable hr.makes_stable) _ copy (hwalk.trans h)

/-- A redactor without the method `star`. -/
def unstarred : Redactor Unit := .ofConfig .builtin ⟨[noGroup], ["star"]⟩ fun _ => ""

theorem redact_idempotent_unstarred :
    ∃ copy t, (unstarred.redact (card "4111" [card "5500" []]) ["guest"]).runFrom ⟨.empty, ()⟩ =
        (.ok copy, t) ∧ ((unstarred.redact copy ["guest"]).runFrom t).1 = .ok copy := by
  have hbuiltin : unstarred.registry.HasOnlyBuiltin :=
    Registry.HasOnlyBuiltin.builtin.disable "star"
  have hredacts : ((unstarred.redact (card "4111" [card "5500" []]) ["guest"]).runFrom
      ⟨.empty, ()⟩).1.toBool = true := by decide +kernel
  have hstart : unstarred.Reached ⟨.empty, ()⟩ := .start ()
  obtain ⟨copy, t, h⟩ := exists_eq_ok_of_toBool hredacts
  have hafter : unstarred.Reached t := by
    have hreached := hstart.redact (card "4111" [card "5500" []]) ["guest"]
    rwa [h] at hreached
  have hcopy := Redactor.Reached.redact_idempotent hbuiltin hstart hafter (congrArg Prod.fst h)
  exact ⟨copy, t, h, hcopy⟩

end Redaction
