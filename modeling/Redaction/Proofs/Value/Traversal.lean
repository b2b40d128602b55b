import Redaction.Proofs.Result
import Redaction.Value.Walk

/-!
# Walks over lists of parts

Induction over values with one hypothesis for all parts of a value, and what a successful or failed
walk over a list of parts says of the parts, when metadata is known without effects.
-/

namespace Redaction

open Redaction.Derivation

@[elab_as_elim]
theorem Value.induction {P : Value → Prop} (leaf : ∀ l, P (.leaf l)) (absent : P .absent)
    (layer : ∀ outer inner, P inner → P (.layer outer inner))
    (sequence : ∀ kind items, (∀ v ∈ items, P v) → P (.sequence kind items))
    (set : ∀ kind items, (∀ v ∈ items, P v) → P (.set kind items))
    (map : ∀ kind entries, (∀ e ∈ entries, P e.2) → P (.map kind entries))
    (record : ∀ type variant slots, (∀ v, Slot.value v ∈ slots → P v) →
      P (.record type variant slots)) (v : Value) : P v := by
  refine @Value.rec P (fun slot => ∀ v, slot = .value v → P v) (fun items => ∀ v ∈ items, P v)
    (fun entries => ∀ e ∈ entries, P e.2) (fun slots => ∀ v, Slot.value v ∈ slots → P v)
    (fun e => P e.2) leaf absent layer sequence set map record ?_ ?_ ?_ ?_ ?_ ?_ ?_ ?_ ?_ v
  -- the two kinds of slots, the lists of items, of entries and of slots, and last an entry
  · intro f v h
    cases h
  · intro v hv u h
    cases h
    exact hv
  · intro v h
    cases h
  · intro head tail hhead htail v h
    rcases List.mem_cons.mp h with rfl | h
    · exact hhead
    · exact htail v h
  · intro e h
    cases h
  · intro head tail hhead htail e h
    rcases List.mem_cons.mp h with rfl | h
    · exact hhead
    · exact htail e h
  · intro v h
    cases h
  · intro head tail hhead htail v h
    rcases List.mem_cons.mp h with h | h
    · exact hhead v h.symm
    · exact htail v h
  · exact fun _ _ h => h

section

variable {μ : Type → Type} [Monad μ] [LawfulMonad μ] [MonadExceptOf RedactError μ]

theorem walkItems_eq_mapM (metadata : RecordType → μ Metadata) (w : Walker) (items : List Value) :
    walkItems metadata w items = items.mapM fun v => v.walk metadata w := by
  induction items with
  | nil => rfl
  | cons v rest ih => rw [walkItems, List.mapM_cons, ih]

theorem walkEntries_eq_mapM (metadata : RecordType → μ Metadata) (w : Walker)
    (entries : List (Key × Value)) :
    walkEntries metadata w entries =
      entries.mapM fun e => (do pure (e.1, ← e.2.walk metadata w)) := by
  induction entries with
  | nil => rfl
  | cons e rest ih => simp only [walkEntries, List.mapM_cons, ih, bind_assoc, pure_bind]

end

/-- Metadata of record types, each known without effect, or why there is none. -/
abbrev Knowledge := RecordType → Except RedactError Metadata

section

variable {known : Knowledge} {w : Walker}

theorem walkItems_eq_ok_iff {items copies : List Value} :
    walkItems known w items = .ok copies ↔
      List.Forall₂ (fun v copy => v.walk known w = .ok copy) items copies := by
  rw [walkItems_eq_mapM, mapM_eq_ok_iff]

theorem walkItems_eq_error {items : List Value} {e : RedactError}
    (h : walkItems known w items = .error e) : ∃ v ∈ items, v.walk known w = .error e := by
  rw [walkItems_eq_mapM] at h
  exact exists_of_mapM_eq_error h

theorem walkEntries_eq_ok_iff {entries copies : List (Key × Value)} :
    walkEntries known w entries = .ok copies ↔ copies.map Prod.fst = entries.map Prod.fst ∧
      List.Forall₂ (fun v copy => v.walk known w = .ok copy) (entries.map Prod.snd)
        (copies.map Prod.snd) := by
  induction entries generalizing copies with
  | nil =>
      rw [walkEntries, pure_eq_ok_iff]
      cases copies <;> simp
  | cons e rest ih =>
      obtain ⟨k, v⟩ := e
      rw [walkEntries, bind_eq_ok_iff]
      constructor
      · rintro ⟨copy, hcopy, h⟩
        obtain ⟨later, hl, h⟩ := bind_eq_ok_iff.mp h
        cases h
        obtain ⟨hkeys, hvalues⟩ := ih.mp hl
        exact ⟨congrArg (k :: ·) hkeys, .cons hcopy hvalues⟩
      · rintro ⟨hkeys, hvalues⟩
        cases copies with
        | nil => cases hkeys
        | cons c later =>
            obtain ⟨rfl, hrest⟩ := List.cons.inj hkeys
            obtain ⟨hcopy, hvalues⟩ := List.forall₂_cons.mp hvalues
            exact ⟨c.2, hcopy, bind_eq_ok_iff.mpr ⟨later, ih.mpr ⟨hrest, hvalues⟩, rfl⟩⟩

theorem walkEntries_eq_error {entries : List (Key × Value)} {e : RedactError}
    (h : walkEntries known w entries = .error e) :
    ∃ entry ∈ entries, entry.2.walk known w = .error e := by
  rw [walkEntries_eq_mapM] at h
  obtain ⟨entry, hentry, he⟩ := exists_of_mapM_eq_error h
  rcases bind_eq_error_iff.mp he with he | ⟨copy, -, he⟩
  · exact ⟨entry, hentry, he⟩
  · cases he

end

/-! ## Slots -/

/-- Steps that come in the order of the positions of their fields, all from a position on. -/
def OrderedFrom (position : Nat) (steps : List Step) : Prop :=
  steps.Pairwise (fun s t => s.field.position < t.field.position) ∧
    ∀ s ∈ steps, position ≤ s.field.position

theorem OrderedFrom.tail {position : Nat} {s : Step} {later : List Step}
    (h : OrderedFrom position (s :: later)) : OrderedFrom (s.field.position + 1) later := by
  obtain ⟨hp, -⟩ := h
  rw [List.pairwise_cons] at hp
  exact ⟨hp.2, fun t ht => hp.1 t ht⟩

theorem OrderedFrom.of_ne {position : Nat} {s : Step} {later : List Step}
    (h : OrderedFrom position (s :: later)) (hne : s.field.position ≠ position) :
    OrderedFrom (position + 1) (s :: later) := by
  refine ⟨h.1, ?_⟩
  intro t ht
  have hs := h.2 s List.mem_cons_self
  rcases List.mem_cons.mp ht with rfl | ht
  · omega
  · have := (List.pairwise_cons.mp h.1).1 t ht
    omega

section

variable {known : Knowledge} {w : Walker} {m : Metadata}

@[simp] theorem walkSlot_apply_field (index : Nat) (f : Field) :
    walkSlot known w m (.apply index) (.field f) =
      (m.applyAt w.groups index f).map Slot.field := by
  rw [walkSlot]
  cases m.applyAt w.groups index f <;> rfl

@[simp] theorem walkSlot_walk_field (f : Field) :
    walkSlot known w m .walk (.field f) = .ok (.field f) := by
  rw [walkSlot]
  rfl

@[simp] theorem walkSlot_walk_value (v : Value) :
    walkSlot known w m .walk (.value v) = (v.walk known w).map Slot.value := by
  rw [walkSlot]
  cases v.walk known w <;> rfl

@[simp] theorem walkSlot_apply_value (index : Nat) (v : Value) :
    walkSlot known w m (.apply index) (.value v) = .ok (.value v) := by
  rw [walkSlot]
  rfl

theorem length_walkSlots {steps : List Step} {position : Nat} {slots copies : List Slot}
    (h : walkSlots known w m steps position slots = .ok copies) :
    copies.length = slots.length := by
  induction slots generalizing steps position copies with
  | nil =>
      cases h
      rfl
  | cons slot rest ih =>
      cases steps with
      | nil =>
          cases h
          rfl
      | cons step later =>
          rw [walkSlots] at h
          split at h
          · obtain ⟨copy, -, h⟩ := bind_eq_ok_iff.mp h
            obtain ⟨after, ha, h⟩ := bind_eq_ok_iff.mp h
            cases h
            simp [ih ha]
          · obtain ⟨after, ha, h⟩ := bind_eq_ok_iff.mp h
            cases h
            simp [ih ha]

/-- A slot is changed by the step for its position and by no other, and a slot that no step is for
is left alone. The steps are consumed in order, so the induction needs that they are ordered. -/
theorem walkSlots_eq_ok {steps : List Step} {position : Nat} {slots copies : List Slot}
    (ho : OrderedFrom position steps) (h : walkSlots known w m steps position slots = .ok copies)
    {p : Nat} {slot copy : Slot} (hs : slots[p]? = some slot) (hc : copies[p]? = some copy) :
    (∀ s ∈ steps, s.field.position = position + p → walkSlot known w m s.action slot = .ok copy) ∧
      ((∀ s ∈ steps, s.field.position ≠ position + p) → copy = slot) := by
  induction slots generalizing steps position copies p with
  | nil => simp at hs
  | cons first rest ih =>
      cases steps with
      | nil =>
          cases h
          rw [hs] at hc
          cases hc
          simp
      | cons step later =>
          rw [walkSlots] at h
          split at h
          · next hpos =>
              obtain ⟨done, hd, h⟩ := bind_eq_ok_iff.mp h
              obtain ⟨after, ha, h⟩ := bind_eq_ok_iff.mp h
              cases h
              have htail : OrderedFrom (position + 1) later := hpos ▸ ho.tail
              cases p with
              | zero =>
                  cases hs
                  cases hc
                  have hlater : ∀ s ∈ later, s.field.position ≠ position := by
                    intro s hs
                    have := htail.2 s hs
                    omega
                  refine ⟨?_, fun hno => absurd hpos (hno step List.mem_cons_self)⟩
                  intro s hs hp
                  rcases List.mem_cons.mp hs with rfl | hs
                  · exact hd
                  · exact absurd hp (hlater s hs)
              | succ p =>
                  have hp := ih htail ha (by simpa using hs) (by simpa using hc)
                  rw [Nat.add_right_comm, Nat.add_assoc] at hp
                  refine ⟨?_, fun hno => hp.2 fun s hs => hno s (List.mem_cons_of_mem _ hs)⟩
                  intro s hs hq
                  rcases List.mem_cons.mp hs with rfl | hs
                  · omega
                  · exact hp.1 s hs hq
          · next hpos =>
              obtain ⟨after, ha, h⟩ := bind_eq_ok_iff.mp h
              cases h
              have hall := ho.of_ne hpos
              cases p with
              | zero =>
                  cases hs
                  cases hc
                  refine ⟨?_, fun _ => rfl⟩
                  intro s hs hp
                  have := hall.2 s hs
                  omega
              | succ p =>
                  have hp := ih hall ha (by simpa using hs) (by simpa using hc)
                  rwa [Nat.add_right_comm, Nat.add_assoc] at hp

theorem walkSlots_eq_error {steps : List Step} {position : Nat} {slots : List Slot}
    {e : RedactError} (h : walkSlots known w m steps position slots = .error e) :
    ∃ s ∈ steps, ∃ p slot, slots[p]? = some slot ∧ s.field.position = position + p ∧
      walkSlot known w m s.action slot = .error e := by
  induction slots generalizing steps position with
  | nil => cases h
  | cons first rest ih =>
      cases steps with
      | nil => cases h
      | cons step later =>
          rw [walkSlots] at h
          split at h
          · next hpos =>
              rcases bind_eq_error_iff.mp h with h | ⟨copy, -, h⟩
              · exact ⟨step, List.mem_cons_self, 0, first, rfl, hpos, h⟩
              · rcases bind_eq_error_iff.mp h with h | ⟨copies, -, h⟩
                · obtain ⟨s, hs, p, slot, hp, hq, he⟩ := ih h
                  exact ⟨s, List.mem_cons_of_mem _ hs, p + 1, slot, by simpa using hp,
                    by omega, he⟩
                · cases h
          · rcases bind_eq_error_iff.mp h with h | ⟨copies, -, h⟩
            · obtain ⟨s, hs, p, slot, hp, hq, he⟩ := ih h
              exact ⟨s, hs, p + 1, slot, by simpa using hp, by omega, he⟩
            · cases h

end

/-! ## Values -/

variable {known : Knowledge} {w : Walker} {copy : Value}

theorem walk_leaf_eq_ok_iff {l : Leaf} :
    (Value.leaf l).walk known w = .ok copy ↔ w.inRecord = true ∧ .leaf l = copy := by
  rw [Value.walk]
  cases w.inRecord with
  | true => simp
  | false => simp

theorem walk_layer_eq_ok_iff {outer : Layer} {inner : Value} :
    (Value.layer outer inner).walk known w = .ok copy ↔
      ∃ u, inner.walk known w = .ok u ∧ .layer outer u = copy := by
  simp only [Value.walk, bind_eq_ok_iff, pure_eq_ok_iff]

/-- The copies of a sequence are as many as its items, so that an array can always be rebuilt. -/
theorem rebuildSequence_of_length_eq {kind : SequenceKind} {items copies : List Value}
    (h : copies.length = items.length) :
    (rebuildSequence kind items.length copies : Except RedactError Value) =
      .ok (.sequence kind copies) :=
  if_neg fun hne => hne.2 h

theorem walk_sequence_eq_ok_iff {kind : SequenceKind} {items : List Value} :
    (Value.sequence kind items).walk known w = .ok copy ↔
      ∃ copies, List.Forall₂ (fun v u => v.walk known w = .ok u) items copies ∧
        .sequence kind copies = copy := by
  rw [Value.walk, bind_eq_ok_iff]
  refine exists_congr fun copies => ?_
  rw [walkItems_eq_ok_iff]
  refine and_congr_right fun hall => ?_
  rw [rebuildSequence_of_length_eq hall.length_eq.symm, Except.ok.injEq]

theorem walk_sequence_eq_error {kind : SequenceKind} {items : List Value} {e : RedactError}
    (h : (Value.sequence kind items).walk known w = .error e) :
    ∃ v ∈ items, v.walk known w = .error e := by
  rw [Value.walk] at h
  rcases bind_eq_error_iff.mp h with h | ⟨copies, hc, h⟩
  · exact walkItems_eq_error h
  · rw [rebuildSequence_of_length_eq (walkItems_eq_ok_iff.mp hc).length_eq.symm] at h
    cases h

theorem walk_set_eq_ok_iff {kind : SetKind} {items : List Value} :
    (Value.set kind items).walk known w = .ok copy ↔
      ∃ copies, List.Forall₂ (fun v u => v.walk known w = .ok u) items copies ∧
        .set kind (arrangeBy w.elementKey copies) = copy := by
  simp only [Value.walk, bind_eq_ok_iff, walkItems_eq_ok_iff, pure_eq_ok_iff, Value.ofSet]

/-- The keys of entries stay, and each value is copied at its own key. -/
theorem walk_map_eq_ok_iff {kind : MapKind} {entries : List (Key × Value)} :
    (Value.map kind entries).walk known w = .ok copy ↔
      ∃ copies, copies.map Prod.fst = entries.map Prod.fst ∧
        List.Forall₂ (fun v u => v.walk known w = .ok u) (entries.map Prod.snd)
          (copies.map Prod.snd) ∧ .map kind copies = copy := by
  simp only [Value.walk, bind_eq_ok_iff, walkEntries_eq_ok_iff, pure_eq_ok_iff, and_assoc]

theorem walk_record_eq_ok_iff {t : RecordType} {variant : Nat} {slots : List Slot} :
    (Value.record t variant slots).walk known w = .ok copy ↔
      ∃ m, known t = .ok m ∧ ∃ copies,
        walkSlots known w.enterRecord m (t.steps variant) 0 slots = .ok copies ∧
          .record t variant copies = copy := by
  simp only [Value.walk, bind_eq_ok_iff, pure_eq_ok_iff]

end Redaction
