import Redaction.Proofs.Rule.Decision
import Redaction.Proofs.Text.LowerCase
import Redaction.Proofs.Value.Derived
import Redaction.Redactor

/-!
# The groups of a call

A redaction sees its groups only through evaluations, and these tell apart neither the case of a
group, nor whether it is named again, nor no groups from the group of those who name none. So the
groups of a call may be brought into a normal form: each in lowercase, named once, and at least one.
-/

namespace Redaction

open Redaction.Derivation Redaction.Text

/-- Groups for which every evaluation has the same result. -/
def SameGroups (groups groups' : List String) : Prop :=
  ∀ (e : Evaluator) (value : Scalar), e.evaluate value groups = e.evaluate value groups'

theorem lower_noGroup : lower noGroup = noGroup := by decide +kernel

/-! ## Evaluations -/

namespace Evaluator

section

variable {μ : Type → Type} [Monad μ] {run : Rule → Scalar → μ Scalar} {rules : List Rule}
  {value : Scalar}

theorem evaluateGroupsWith_map_lower (groups : List String) :
    evaluateGroupsWith run rules value (groups.map lower) =
      evaluateGroupsWith run rules value groups := by
  induction groups with
  | nil => rfl
  | cons g rest ih => rw [List.map_cons, evaluateGroupsWith, evaluateGroupsWith, lower_lower, ih]

theorem evaluateGroupsWith_append_congr {groups groups' : List String}
    (h : evaluateGroupsWith run rules value groups = evaluateGroupsWith run rules value groups')
    (before : List String) :
    evaluateGroupsWith run rules value (before ++ groups) =
      evaluateGroupsWith run rules value (before ++ groups') := by
  induction before with
  | nil => exact h
  | cons g rest ih =>
      rw [List.cons_append, List.cons_append, evaluateGroupsWith, evaluateGroupsWith, ih]

variable [LawfulMonad μ]

/-- A group to which a rule is relevant has been decided where it was named before, and any other
group is passed over. -/
theorem evaluateGroupsWith_append_cons {before : List String} {g : String}
    (h : lower g ∈ before.map lower) (after : List String) :
    evaluateGroupsWith run rules value (before ++ g :: after) =
      evaluateGroupsWith run rules value (before ++ after) := by
  by_cases hg : ∃ r ∈ rules, r.IsRelevant (lower g)
  · obtain ⟨first, hfirst, hlower⟩ := List.mem_map.mp h
    have hbefore : ∃ g ∈ before, ∃ r ∈ rules, r.IsRelevant (lower g) :=
      ⟨first, hfirst, hlower ▸ hg⟩
    rw [evaluateGroupsWith_append_of_isRelevant hbefore,
      evaluateGroupsWith_append_of_isRelevant hbefore]
  · refine evaluateGroupsWith_append_congr ?_ before
    have hpass : ∀ g' ∈ [g], ∀ r ∈ rules, ¬r.IsRelevant (lower g') :=
      List.forall_mem_singleton.mpr fun r hr hrelevant => hg ⟨r, hr, hrelevant⟩
    exact evaluateGroupsWith_append hpass after value

theorem evaluateGroupsWith_singleton (g : String) :
    evaluateGroupsWith run rules value [g] = evaluateGroupWith run rules (lower g) value := by
  by_cases hg : ∃ r ∈ rules, r.IsRelevant (lower g)
  · obtain ⟨r, hr⟩ : ∃ r : Rule, ∀ value, evaluateGroupWith run rules (lower g) value =
        r.carryOut run (lower g) value := exists_carryOut_of_isRelevant hg
    rw [evaluateGroupsWith, hr, carryOut_bind]
  · have hpass : ∀ r ∈ rules, ¬r.IsRelevant (lower g) :=
      fun r hr hrelevant => hg ⟨r, hr, hrelevant⟩
    rw [evaluateGroupsWith, evaluateGroupWith_of_forall hpass, pure_bind]
    rfl

end

theorem evaluate_of_ne_nil {groups : List String} (h : groups ≠ []) (e : Evaluator)
    (value : Scalar) :
    e.evaluate value groups =
      evaluateGroupsWith (fun r s => r.transformer s) e.rules value groups :=
  if_neg (by simpa using h)

end Evaluator

namespace SameGroups

theorem map_lower (groups : List String) : SameGroups (groups.map lower) groups := by
  intro e value
  by_cases h : groups = []
  · rw [h]
    rfl
  · rw [Evaluator.evaluate_of_ne_nil (by simpa using h), Evaluator.evaluate_of_ne_nil h,
      Evaluator.evaluateGroupsWith_map_lower]

theorem append_cons {before : List String} {g : String} (h : lower g ∈ before.map lower)
    (after : List String) : SameGroups (before ++ after) (before ++ g :: after) := by
  intro e value
  have hbefore : before ≠ [] := by
    rintro rfl
    cases h
  rw [Evaluator.evaluate_of_ne_nil (by simp [hbefore]),
    Evaluator.evaluate_of_ne_nil (by simp), Evaluator.evaluateGroupsWith_append_cons h]

theorem nil : SameGroups [] [noGroup] := by
  intro e value
  rw [Evaluator.evaluate_of_ne_nil (List.cons_ne_nil _ _), Evaluator.evaluateGroupsWith_singleton,
    lower_noGroup]
  rfl

theorem applyAt_eq {groups groups' : List String} (h : SameGroups groups groups') (m : Metadata)
    (index : Nat) (f : Field) : m.applyAt groups index f = m.applyAt groups' index f := by
  unfold Metadata.applyAt
  split
  · rfl
  · split
    · rw [h]
    · rfl

end SameGroups

/-! ## Walks -/

section

variable {μ : Type → Type} [Monad μ] [MonadExceptOf RedactError μ]
  {metadata : RecordType → μ Metadata} {w w' : Walker}

theorem walkItems_eq_of_forall {items : List Value}
    (h : ∀ v ∈ items, v.walk metadata w = v.walk metadata w') :
    walkItems metadata w items = walkItems metadata w' items := by
  induction items with
  | nil => rfl
  | cons v rest ih =>
      obtain ⟨hv, hrest⟩ := List.forall_mem_cons.mp h
      rw [walkItems, walkItems, hv, ih hrest]

theorem walkEntries_eq_of_forall {entries : List (Key × Value)}
    (h : ∀ e ∈ entries, e.2.walk metadata w = e.2.walk metadata w') :
    walkEntries metadata w entries = walkEntries metadata w' entries := by
  induction entries with
  | nil => rfl
  | cons e rest ih =>
      obtain ⟨he, hrest⟩ := List.forall_mem_cons.mp h
      rw [walkEntries, walkEntries, he, ih hrest]

theorem walkSlot_eq_of_forall (hw : SameGroups w.groups w'.groups) {m : Metadata} {action : Action}
    {slot : Slot} (h : ∀ v, slot = .value v → v.walk metadata w = v.walk metadata w') :
    walkSlot metadata w m action slot = walkSlot metadata w' m action slot := by
  cases slot with
  | field f =>
      cases action with
      | apply index => rw [walkSlot, walkSlot, hw.applyAt_eq]
      | walk => rw [walkSlot, walkSlot]
  | value v =>
      cases action with
      | apply index => rw [walkSlot, walkSlot]
      | walk => rw [walkSlot, walkSlot, h v rfl]

theorem walkSlots_eq_of_forall (hw : SameGroups w.groups w'.groups) {m : Metadata}
    {steps : List Step} {position : Nat} {slots : List Slot}
    (h : ∀ v, Slot.value v ∈ slots → v.walk metadata w = v.walk metadata w') :
    walkSlots metadata w m steps position slots = walkSlots metadata w' m steps position slots := by
  induction slots generalizing steps position with
  | nil => rfl
  | cons slot rest ih =>
      have hrest : ∀ v, Slot.value v ∈ rest → v.walk metadata w = v.walk metadata w' :=
        fun v hv => h v (List.mem_cons_of_mem slot hv)
      cases steps with
      | nil => rfl
      | cons step later =>
          rw [walkSlots, walkSlots, ih hrest, ih hrest,
            walkSlot_eq_of_forall hw fun v hv => h v (hv ▸ List.mem_cons_self)]

/-- A walk has nothing to do with its groups but to hand them on. -/
theorem SameGroups.walk_eq {groups groups' : List String} (h : SameGroups groups groups')
    (key : Value → String) (v : Value) (inRecord : Bool) :
    v.walk metadata ⟨key, groups, inRecord⟩ = v.walk metadata ⟨key, groups', inRecord⟩ := by
  induction v using Value.induction generalizing inRecord with
  | leaf l => rfl
  | absent => rfl
  | layer outer inner ih => rw [Value.walk, Value.walk, ih]
  | sequence kind items ih =>
      rw [Value.walk, Value.walk, walkItems_eq_of_forall fun v hv => ih v hv inRecord]
  | set kind items ih =>
      rw [Value.walk, Value.walk, walkItems_eq_of_forall fun v hv => ih v hv inRecord]
  | map kind entries ih =>
      rw [Value.walk, Value.walk, walkEntries_eq_of_forall fun e he => ih e he inRecord]
  | record type variant slots ih =>
      have hslots : ∀ (m : Metadata) (steps : List Step),
          walkSlots metadata (Walker.enterRecord ⟨key, groups, inRecord⟩) m steps 0 slots =
            walkSlots metadata (Walker.enterRecord ⟨key, groups', inRecord⟩) m steps 0 slots :=
        fun m steps => walkSlots_eq_of_forall h fun v hv => ih v hv true
      simp only [Value.walk, hslots]

end

/-! ## Redactions -/

namespace Redactor

variable {σ : Type}

theorem redact_eq_of_sameGroups (r : Redactor σ) (v : Value) {groups groups' : List String}
    (h : SameGroups (r.groupsFor groups) (r.groupsFor groups')) :
    r.redact v groups = r.redact v groups' :=
  h.walk_eq r.elementKey v false

theorem groupsFor_of_ne_nil (r : Redactor σ) {groups : List String} (h : groups ≠ []) :
    r.groupsFor groups = groups := if_neg (by simpa using h)

theorem groupsFor_nil (r : Redactor σ) : r.groupsFor [] = r.config.defaultGroups := rfl

/-- The groups of a call in any case, with groups named again left out, and with the configured
groups in the place of none. The computations are the same: in every state they have the same result
and leave the same state. -/
theorem redact_normal_groups (r : Redactor σ) (v : Value) (groups : List String) :
    r.redact v (groups.map lower) = r.redact v groups ∧
      (∀ before g after, groups = before ++ g :: after → lower g ∈ before.map lower →
        r.redact v (before ++ after) = r.redact v groups) ∧
      (r.config.defaultGroups ≠ [] → r.redact v [] = r.redact v r.config.defaultGroups) ∧
      (r.config.defaultGroups = [] → r.redact v [] = r.redact v [noGroup]) := by
  refine ⟨?_, ?_, ?_, ?_⟩
  · by_cases h : groups = []
    · rw [h, List.map_nil]
    · apply r.redact_eq_of_sameGroups v
      rw [groupsFor_of_ne_nil r h, groupsFor_of_ne_nil r (by simpa using h)]
      exact .map_lower groups
  · rintro before g after rfl hg
    have hbefore : before ≠ [] := by
      rintro rfl
      cases hg
    apply r.redact_eq_of_sameGroups v
    rw [groupsFor_of_ne_nil r (by simp [hbefore]), groupsFor_of_ne_nil r (by simp)]
    exact .append_cons hg after
  · intro h
    apply r.redact_eq_of_sameGroups v
    rw [groupsFor_of_ne_nil r h, groupsFor_nil]
    exact fun _ _ => rfl
  · intro h
    apply r.redact_eq_of_sameGroups v
    rw [groupsFor_of_ne_nil r (List.cons_ne_nil _ _), groupsFor_nil, h]
    exact .nil

theorem redact_normal_groups_card :
    (standard fun _ => "" : Redactor Unit).redact (card "4111" []) ["Guest", "csr"] =
        (standard fun _ => "").redact (card "4111" []) ["Guest", "csr", "GUEST"] ∧
      (standard fun _ => "" : Redactor Unit).redact (card "4111" []) [] =
        (standard fun _ => "").redact (card "4111" []) [noGroup] ∧
      (ofConfig .builtin ⟨[], []⟩ fun _ => "" : Redactor Unit).redact (card "4111" []) [] =
        (ofConfig .builtin ⟨[], []⟩ fun _ => "").redact (card "4111" []) [noGroup] := by
  obtain ⟨-, hdrop, hconfigured, -⟩ :=
    redact_normal_groups (standard fun _ => "" : Redactor Unit) (card "4111" [])
      ["Guest", "csr", "GUEST"]
  obtain ⟨-, -, -, hnone⟩ :=
    redact_normal_groups (ofConfig .builtin ⟨[], []⟩ fun _ => "" : Redactor Unit)
      (card "4111" []) []
  refine ⟨?_, ?_, ?_⟩
  · exact hdrop ["Guest", "csr"] "GUEST" [] rfl (by decide +kernel)
  · exact hconfigured (List.cons_ne_nil _ _)
  · exact hnone rfl

end Redactor

end Redaction
