import Mathlib.Data.List.Basic
import Redaction.Method.Builtin
import Redaction.Proofs.Result
import Redaction.Rule.Basic

/-!
# Which rule decides

The rule that decides an evaluation, read off the selectors of the rules alone: the first that is
relevant to the first group to which any is relevant. In it the earliest selector that names the
group has the last word. Neither the value nor what a transformer does to it has a part in the
choice.
-/

namespace Redaction

open Redaction.Text

namespace Rule

/-- A rule with an answer for every group. -/
def IsCatchAll (r : Rule) : Prop :=
  r.runOnNoMatch = true ∨ ∃ s ∈ r.groups, s.inverted = true ∨ s.identifier = wildcard

def IsRelevant (r : Rule) (group : String) : Prop :=
  r.IsCatchAll ∨ ∃ s ∈ r.groups, s.identifier = group

instance (r : Rule) : Decidable r.IsCatchAll := inferInstanceAs (Decidable (_ ∨ _))

instance (r : Rule) (group : String) : Decidable (r.IsRelevant group) :=
  inferInstanceAs (Decidable (_ ∨ _))

/-- The selector by which a rule names a group, the earliest of several. -/
def namer? (r : Rule) (group : String) : Option GroupSelector :=
  r.groups.find? fun s => s.identifier = group

/-- What a rule relevant to a group does: an inverted selector that names the group leaves the value
alone, and otherwise the transformer is run. -/
def carryOut {μ : Type → Type} [Monad μ] (run : Rule → Scalar → μ Scalar) (r : Rule)
    (group : String) (value : Scalar) : μ Outcome :=
  match r.namer? group with
  | some ⟨_, true⟩ => pure ⟨true, value⟩
  | some ⟨_, false⟩ | none => (⟨true, ·⟩) <$> run r value

/-- The transformer of a rule that decides for a group is run, since no selector leaves the group
out. -/
def RunsFor (r : Rule) (group : String) : Prop :=
  ∀ selector, r.namer? group = some selector → selector.inverted = false

theorem carryOut_of_runsFor {μ : Type → Type} [Monad μ] {run : Rule → Scalar → μ Scalar}
    {r : Rule} {group : String} (h : r.RunsFor group) (value : Scalar) :
    r.carryOut run group value = (⟨true, ·⟩) <$> run r value := by
  unfold carryOut
  split
  · next hn => cases h _ hn
  · rfl
  · rfl

theorem carryOut_of_not_runsFor {μ : Type → Type} [Monad μ] {run : Rule → Scalar → μ Scalar}
    {r : Rule} {group : String} (h : ¬r.RunsFor group) (value : Scalar) :
    r.carryOut run group value = pure ⟨true, value⟩ := by
  obtain ⟨⟨identifier, inverted⟩, hselector⟩ := not_forall.mp h
  obtain ⟨hn, hinverted⟩ := Classical.not_imp.mp hselector
  cases inverted with
  | true => rw [carryOut, hn]
  | false => exact absurd rfl hinverted

end Rule

/-- The groups of a call, as they are compared with selectors. -/
def consulted (groups : List String) : List String :=
  if groups.isEmpty then [noGroup] else groups.map lower

/-- No rule is relevant to any group of a call. -/
def Evaluator.Abstains (e : Evaluator) (groups : List String) : Prop :=
  ∀ g ∈ consulted groups, ∀ r ∈ e.rules, ¬r.IsRelevant g

/-- The rule that decides a call, and the group for which it does. -/
structure Evaluator.DecidedBy (e : Evaluator) (groups : List String) (r : Rule) (group : String) :
    Prop where
  relevant : r.IsRelevant group
  first_group : ∃ before after, consulted groups = before ++ group :: after ∧
    ∀ g ∈ before, ∀ q ∈ e.rules, ¬q.IsRelevant g
  first_rule : ∃ before after, e.rules = before ++ r :: after ∧
    ∀ q ∈ before, ¬q.IsRelevant group

/-! ## Selectors -/

/-- The flag that a scan of selectors carries along is raised by any of them that is passed. -/
theorem verdictOf_eq (group : String) (runs : Bool) (selectors : List GroupSelector) :
    verdictOf group runs selectors =
      match selectors.find? fun s => s.identifier = group with
      | some s => if s.inverted then .exclude else .apply
      | none =>
          if runs = true ∨ ∃ s ∈ selectors, s.inverted = true ∨ s.identifier = wildcard then .apply
          else .pass := by
  induction selectors generalizing runs with
  | nil => simp [verdictOf]
  | cons s rest ih =>
      by_cases hs : s.identifier = group
      · simp [verdictOf, hs]
      · have hflag : (runs || s.inverted || s.identifier == wildcard) = true ∨
            (∃ t ∈ rest, t.inverted = true ∨ t.identifier = wildcard) ↔
              runs = true ∨ ∃ t ∈ s :: rest, t.inverted = true ∨ t.identifier = wildcard := by
          simp [or_assoc]
        rw [verdictOf, if_neg hs, ih, List.find?_cons_of_neg (by simpa using hs)]
        simp only [hflag]

namespace Rule

theorem verdict_eq (r : Rule) (group : String) :
    r.verdict group =
      match r.namer? group with
      | some s => if s.inverted then .exclude else .apply
      | none => if r.IsCatchAll then .apply else .pass :=
  verdictOf_eq group r.runOnNoMatch r.groups

theorem namer?_eq_none_iff {r : Rule} {group : String} :
    r.namer? group = none ↔ ∀ s ∈ r.groups, s.identifier ≠ group := by
  simp [namer?]

theorem verdict_of_not_isRelevant {r : Rule} {group : String} (h : ¬r.IsRelevant group) :
    r.verdict group = .pass := by
  obtain ⟨hcatch, hnames⟩ := not_or.mp h
  have hnone : r.namer? group = none := by
    rw [namer?_eq_none_iff]
    exact fun s hs hname => hnames ⟨s, hs, hname⟩
  rw [verdict_eq, hnone]
  exact if_neg hcatch

end Rule

/-! ## One group -/

namespace Evaluator

section

variable {μ : Type → Type} [Monad μ] {run : Rule → Scalar → μ Scalar}

theorem evaluateGroupWith_of_forall {rules : List Rule} {group : String}
    (h : ∀ r ∈ rules, ¬r.IsRelevant group) (value : Scalar) :
    evaluateGroupWith run rules group value = pure ⟨false, value⟩ := by
  induction rules with
  | nil => rfl
  | cons r rest ih =>
      obtain ⟨hr, hrest⟩ := List.forall_mem_cons.mp h
      rw [evaluateGroupWith, Rule.verdict_of_not_isRelevant hr]
      exact ih hrest

theorem evaluateGroupWith_of_isRelevant {r : Rule} {group : String} (h : r.IsRelevant group)
    (after : List Rule) (value : Scalar) :
    evaluateGroupWith run (r :: after) group value = r.carryOut run group value := by
  rw [evaluateGroupWith, Rule.verdict_eq, Rule.carryOut]
  cases hn : r.namer? group with
  | some s =>
      obtain ⟨identifier, inverted⟩ := s
      cases inverted <;> rfl
  | none =>
      have hcatch : r.IsCatchAll := by
        refine h.resolve_right ?_
        rintro ⟨s, hs, hname⟩
        exact Rule.namer?_eq_none_iff.mp hn s hs hname
      simp only [if_pos hcatch]

theorem evaluateGroupWith_append {before : List Rule} {group : String}
    (h : ∀ r ∈ before, ¬r.IsRelevant group) (rules : List Rule) (value : Scalar) :
    evaluateGroupWith run (before ++ rules) group value =
      evaluateGroupWith run rules group value := by
  induction before with
  | nil => rfl
  | cons r rest ih =>
      obtain ⟨hr, hrest⟩ := List.forall_mem_cons.mp h
      rw [List.cons_append, evaluateGroupWith, Rule.verdict_of_not_isRelevant hr]
      exact ih hrest

theorem exists_carryOut_of_isRelevant {rules : List Rule} {group : String}
    (h : ∃ r ∈ rules, r.IsRelevant group) :
    ∃ r : Rule, ∀ value,
      evaluateGroupWith run rules group value = r.carryOut run group value := by
  induction rules with
  | nil => simp at h
  | cons r rest ih =>
      by_cases hr : r.IsRelevant group
      · exact ⟨r, evaluateGroupWith_of_isRelevant hr rest⟩
      · have hrest : ∃ q ∈ rest, q.IsRelevant group := by
          obtain ⟨q, hmem, hq⟩ := h
          rcases List.mem_cons.mp hmem with rfl | hmem
          · exact absurd hq hr
          · exact ⟨q, hmem, hq⟩
        obtain ⟨q, hq⟩ := ih hrest
        refine ⟨q, fun value => ?_⟩
        rw [evaluateGroupWith, Rule.verdict_of_not_isRelevant hr]
        exact hq value

/-! ## All groups -/

theorem evaluateGroupsWith_of_forall [LawfulMonad μ] {rules : List Rule} {groups : List String}
    (h : ∀ g ∈ groups, ∀ r ∈ rules, ¬r.IsRelevant (lower g)) (value : Scalar) :
    evaluateGroupsWith run rules value groups = pure ⟨false, value⟩ := by
  induction groups with
  | nil => rfl
  | cons g rest ih =>
      obtain ⟨hg, hrest⟩ := List.forall_mem_cons.mp h
      rw [evaluateGroupsWith, evaluateGroupWith_of_forall hg, pure_bind]
      exact ih hrest

theorem evaluateGroupsWith_append [LawfulMonad μ] {rules : List Rule} {before : List String}
    (h : ∀ g ∈ before, ∀ r ∈ rules, ¬r.IsRelevant (lower g)) (groups : List String)
    (value : Scalar) :
    evaluateGroupsWith run rules value (before ++ groups) =
      evaluateGroupsWith run rules value groups := by
  induction before with
  | nil => rfl
  | cons g rest ih =>
      obtain ⟨hg, hrest⟩ := List.forall_mem_cons.mp h
      rw [List.cons_append, evaluateGroupsWith, evaluateGroupWith_of_forall hg, pure_bind]
      exact ih hrest

/-- A rule that is carried out has decided, so that no later group is asked for. -/
theorem carryOut_bind [LawfulMonad μ] (r : Rule) (group : String) (value : Scalar)
    (later : μ Outcome) :
    (do
      let outcome ← r.carryOut run group value
      if outcome.matched then pure outcome else later) = r.carryOut run group value := by
  unfold Rule.carryOut
  split <;> simp

/-- Groups after one to which a rule is relevant do not matter. -/
theorem evaluateGroupsWith_append_of_isRelevant [LawfulMonad μ] {rules : List Rule}
    {before : List String} (h : ∃ g ∈ before, ∃ r ∈ rules, r.IsRelevant (lower g))
    (groups : List String) (value : Scalar) :
    evaluateGroupsWith run rules value (before ++ groups) =
      evaluateGroupsWith run rules value before := by
  induction before with
  | nil => simp at h
  | cons g rest ih =>
      rw [List.cons_append, evaluateGroupsWith, evaluateGroupsWith]
      by_cases hg : ∃ r ∈ rules, r.IsRelevant (lower g)
      · obtain ⟨r, hr⟩ : ∃ r : Rule, ∀ value, evaluateGroupWith run rules (lower g) value =
            r.carryOut run (lower g) value := exists_carryOut_of_isRelevant hg
        rw [hr, carryOut_bind, carryOut_bind]
      · have hpass : ∀ r ∈ rules, ¬r.IsRelevant (lower g) :=
          fun r hr hrelevant => hg ⟨r, hr, hrelevant⟩
        rw [evaluateGroupWith_of_forall hpass, pure_bind, pure_bind]
        refine ih ?_
        obtain ⟨g', hmem, hrelevant⟩ := h
        rcases List.mem_cons.mp hmem with rfl | hmem
        · exact absurd hrelevant hg
        · exact ⟨g', hmem, hrelevant⟩

/-- Evaluations are the same when they are the same for each group. -/
theorem evaluateWith_congr {run' : Rule → Scalar → μ Scalar} {e e' : Evaluator}
    (h : ∀ group value, evaluateGroupWith run e.rules group value =
      evaluateGroupWith run' e'.rules group value) (value : Scalar) (groups : List String) :
    e.evaluateWith run value groups = e'.evaluateWith run' value groups := by
  have hgroups : evaluateGroupsWith run e.rules value groups =
      evaluateGroupsWith run' e'.rules value groups := by
    induction groups with
    | nil => rfl
    | cons g rest ih => rw [evaluateGroupsWith, evaluateGroupsWith, h, ih]
  rw [evaluateWith, evaluateWith, h, hgroups]

end

variable {e : Evaluator} {groups : List String}

theorem DecidedBy.mem {r : Rule} {group : String} (h : e.DecidedBy groups r group) :
    r ∈ e.rules := by
  obtain ⟨before, after, hrules, -⟩ := h.first_rule
  rw [hrules]
  exact List.mem_append_right before List.mem_cons_self

/-- A call is decided by some rule, or no rule is relevant to any of its groups. -/
theorem exists_decidedBy_or_abstains (e : Evaluator) (groups : List String) :
    (∃ r group, e.DecidedBy groups r group) ∨ e.Abstains groups := by
  cases hg : (consulted groups).find? fun g => ∃ r ∈ e.rules, r.IsRelevant g with
  | none =>
      refine .inr fun g hmem r hr hrelevant => ?_
      have hnone := List.find?_eq_none.mp hg g hmem
      exact hnone (decide_eq_true ⟨r, hr, hrelevant⟩)
  | some group =>
      obtain ⟨hsome, before, after, heq, hbefore⟩ := List.find?_eq_some_iff_append.mp hg
      obtain ⟨q, hq, hrelevant⟩ := of_decide_eq_true hsome
      cases hr : e.rules.find? fun r => r.IsRelevant group with
      | none => exact absurd (decide_eq_true hrelevant) (List.find?_eq_none.mp hr q hq)
      | some r =>
          obtain ⟨hdecides, earlier, rest, hrules, hearlier⟩ := List.find?_eq_some_iff_append.mp hr
          refine .inl ⟨r, group, of_decide_eq_true hdecides, ⟨before, after, heq, ?_⟩,
            earlier, rest, hrules, ?_⟩
          · intro g hmem p hp hrel
            have hnone := hbefore g hmem
            simp only [Bool.not_eq_true', decide_eq_false_iff_not] at hnone
            exact hnone ⟨p, hp, hrel⟩
          · intro p hp
            simpa using hearlier p hp

section

variable {μ : Type → Type} [Monad μ] [LawfulMonad μ] {run : Rule → Scalar → μ Scalar}

theorem evaluateWith_of_abstains (h : e.Abstains groups) (value : Scalar) :
    e.evaluateWith run value groups = pure ⟨false, value⟩ := by
  unfold Abstains consulted at h
  unfold evaluateWith
  split at h
  · next hempty =>
      rw [if_pos hempty]
      exact evaluateGroupWith_of_forall (h noGroup (List.mem_singleton_self noGroup)) value
  · next hempty =>
      rw [if_neg hempty]
      exact evaluateGroupsWith_of_forall (List.forall_mem_map.mp h) value

theorem evaluateWith_of_decidedBy {r : Rule} {group : String} (h : e.DecidedBy groups r group)
    (value : Scalar) : e.evaluateWith run value groups = r.carryOut run group value := by
  obtain ⟨hrelevant, ⟨before, after, hgroups, hbefore⟩, earlier, rest, hrules, hearlier⟩ := h
  have hgroup : evaluateGroupWith run e.rules group value = r.carryOut run group value := by
    rw [hrules, evaluateGroupWith_append hearlier, evaluateGroupWith_of_isRelevant hrelevant]
  unfold consulted at hgroups
  unfold evaluateWith
  split at hgroups
  · next hempty =>
      have hlast : before = [] ∧ group :: after = [noGroup] := by
        rcases List.singleton_eq_append_iff.mp hgroups with hlast | ⟨-, hnil⟩
        · exact hlast
        · cases hnil
      obtain ⟨rfl, -⟩ := List.cons.inj hlast.2
      rw [if_pos hempty, hgroup]
  · next hempty =>
      obtain ⟨first, others, rfl, rfl, hothers⟩ := List.map_eq_append_iff.mp hgroups
      obtain ⟨g, last, rfl, rfl, rfl⟩ := List.map_eq_cons_iff.mp hothers
      rw [if_neg hempty, evaluateGroupsWith_append (List.forall_mem_map.mp hbefore),
        evaluateGroupsWith, hgroup, carryOut_bind]

end

/-- An outcome is the value as it was, or what the transformer of one rule has made of it. -/
theorem value_of_evaluate {value : Scalar} {o : Outcome} (h : e.evaluate value groups = .ok o) :
    o.value = value ∨ ∃ r ∈ e.rules, r.transformer value = .ok o.value := by
  rcases e.exists_decidedBy_or_abstains groups with ⟨r, group, hdecided⟩ | habstains
  · have hout : r.carryOut (fun q => q.transformer) group value = .ok o :=
      (evaluateWith_of_decidedBy hdecided value).symm.trans h
    by_cases hruns : r.RunsFor group
    · rw [Rule.carryOut_of_runsFor hruns] at hout
      obtain ⟨t, ht, rfl⟩ := map_eq_ok_iff.mp hout
      exact .inr ⟨r, hdecided.mem, ht⟩
    · rw [Rule.carryOut_of_not_runsFor hruns] at hout
      cases hout
      exact .inl rfl
  · have hout : .ok ⟨false, value⟩ = (.ok o : Except TransformError Outcome) :=
      (evaluateWith_of_abstains habstains value).symm.trans h
    cases hout
    exact .inl rfl

theorem type_of_evaluate {value : Scalar} {o : Outcome} (h : e.evaluate value groups = .ok o) :
    o.value.type = value.type := by
  rcases value_of_evaluate h with hsame | ⟨r, -, hr⟩
  · rw [hsame]
  · exact r.transformer.type_run value o.value hr

/-- An evaluation fails as the transformer that the deciding rule has run. -/
theorem evaluate_eq_error_iff {s : Scalar} {source : TransformError} :
    e.evaluate s groups = .error source ↔ ∃ r group, e.DecidedBy groups r group ∧
      r.RunsFor group ∧ r.transformer s = .error source := by
  constructor
  · intro h
    rcases e.exists_decidedBy_or_abstains groups with ⟨r, group, hdecided⟩ | habstains
    · rw [evaluate, evaluateWith_of_decidedBy hdecided] at h
      by_cases hruns : r.RunsFor group
      · rw [Rule.carryOut_of_runsFor hruns] at h
        exact ⟨r, group, hdecided, hruns, map_eq_error_iff.mp h⟩
      · rw [Rule.carryOut_of_not_runsFor hruns] at h
        cases h
    · rw [evaluate, evaluateWith_of_abstains habstains] at h
      cases h
  · rintro ⟨r, group, hdecided, hruns, h⟩
    rw [evaluate, evaluateWith_of_decidedBy hdecided, Rule.carryOut_of_runsFor hruns]
    exact map_eq_error_iff.mpr h

theorem value_of_not_matched {s : Scalar} {o : Outcome} (h : e.evaluate s groups = .ok o)
    (ho : o.matched = false) : o.value = s := by
  rcases e.exists_decidedBy_or_abstains groups with ⟨r, group, hdecided⟩ | habstains
  · rw [evaluate, evaluateWith_of_decidedBy hdecided] at h
    by_cases hruns : r.RunsFor group
    · rw [Rule.carryOut_of_runsFor hruns] at h
      obtain ⟨u, -, rfl⟩ := map_eq_ok_iff.mp h
      cases ho
    · rw [Rule.carryOut_of_not_runsFor hruns] at h
      cases h
      rfl
  · rw [evaluate, evaluateWith_of_abstains habstains] at h
    cases h
    rfl

theorem value_of_excluded {r : Rule} {group : String} (hdecided : e.DecidedBy groups r group)
    (hruns : ¬r.RunsFor group) {s : Scalar} {o : Outcome} (h : e.evaluate s groups = .ok o) :
    o.value = s := by
  rw [evaluate, evaluateWith_of_decidedBy hdecided, Rule.carryOut_of_not_runsFor hruns] at h
  cases h
  rfl

/-- The evaluation of a call does what the deciding rule says, and nothing if there is none. It does
so in every monad, so that at most one transformer is run, and that one once. -/
theorem evaluate_decided (e : Evaluator) (value : Scalar) (groups : List String) :
    ((∃ r group, e.DecidedBy groups r group) ∨ e.Abstains groups) ∧
      (∀ r group, e.DecidedBy groups r group →
        e.evaluate value groups = r.carryOut (fun q => q.transformer) group value ∧
          ∀ (μ : Type → Type) [Monad μ] [LawfulMonad μ] (run : Rule → Scalar → μ Scalar),
            e.evaluateWith run value groups = r.carryOut run group value) ∧
      (e.Abstains groups →
        e.evaluate value groups = .ok ⟨false, value⟩ ∧
          ∀ (μ : Type → Type) [Monad μ] [LawfulMonad μ] (run : Rule → Scalar → μ Scalar),
            e.evaluateWith run value groups = pure ⟨false, value⟩) := by
  refine ⟨e.exists_decidedBy_or_abstains groups, fun r group h => ?_, fun h => ?_⟩
  · exact ⟨evaluateWith_of_decidedBy h value, fun μ _ _ run => evaluateWith_of_decidedBy h value⟩
  · exact ⟨evaluateWith_of_abstains h value, fun μ _ _ run => evaluateWith_of_abstains h value⟩

def starring : Rule :=
  ⟨[⟨"csr", false⟩], false, "star", Method.onText "star" (Method.starText 0)⟩

/-- A rule that names one group twice, first to leave it out. -/
def zeroing : Rule := ⟨[⟨"admin", true⟩, ⟨"admin", false⟩], false, "zero", Method.reset⟩

theorem evaluate_decided_zeroing :
    (Evaluator.mk "csr=star|[~admin,admin]=zero" [starring, zeroing]).evaluate (.text "Ada")
        ["Admin", "csr"] = .ok ⟨true, .text "Ada"⟩ ∧
      (Evaluator.mk "csr=star" [starring]).evaluate (.text "Ada") ["Admin"] =
        .ok ⟨false, .text "Ada"⟩ := by
  have hlower : lower "Admin" = "admin" := by decide +kernel
  have hstarring : ¬starring.IsRelevant "admin" := by decide
  have hdecided : (Evaluator.mk "csr=star|[~admin,admin]=zero" [starring, zeroing]).DecidedBy
      ["Admin", "csr"] zeroing "admin" := by
    refine ⟨by decide, ⟨[], ["csr"], by decide +kernel, nofun⟩, [starring], [], rfl, ?_⟩
    exact List.forall_mem_singleton.mpr hstarring
  have habstains : (Evaluator.mk "csr=star" [starring]).Abstains ["Admin"] := by
    refine List.forall_mem_singleton.mpr (List.forall_mem_singleton.mpr ?_)
    rwa [hlower]
  obtain ⟨-, hdecides, -⟩ := evaluate_decided _ (.text "Ada") ["Admin", "csr"]
  obtain ⟨-, -, hpasses⟩ := evaluate_decided _ (.text "Ada") ["Admin"]
  exact ⟨(hdecides zeroing "admin" hdecided).1, (hpasses habstains).1⟩

end Evaluator

end Redaction
