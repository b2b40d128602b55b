import Redaction.Proofs.Rule.Decision

/-!
# Rules with an answer for every group

A rule with an answer for every group closes an evaluation: no rule after it and no group after the
first is asked. Within a rule the order of selectors matters only among those that name the same
group.
-/

namespace Redaction

open Redaction.Text

/-- Two rules that evaluation cannot tell apart. -/
structure Rule.Alike (r r' : Rule) : Prop where
  verdict_eq : ∀ group, r.verdict group = r'.verdict group
  transformer_eq : r.transformer = r'.transformer

/-- The same rule with its selectors in another order, in which selectors of one group follow each
other as before. -/
structure Rule.Rearranges (q r : Rule) : Prop where
  perm : q.groups.Perm r.groups
  order_eq : ∀ identifier, q.groups.filter (·.identifier = identifier) =
    r.groups.filter (·.identifier = identifier)
  runOnNoMatch_eq : q.runOnNoMatch = r.runOnNoMatch
  method_eq : q.method = r.method
  transformer_eq : q.transformer = r.transformer

namespace Evaluator

/-- Two calls with the same result for every value. They also run the same transformers, whatever
else these do. -/
structure SameCall (e : Evaluator) (groups : List String) (e' : Evaluator) (groups' : List String) :
    Prop where
  evaluate_eq : ∀ value, e.evaluate value groups = e'.evaluate value groups'
  evaluateWith_eq : ∀ (μ : Type → Type) [Monad μ] [LawfulMonad μ]
    (run : Transformer → Scalar → μ Scalar) (value : Scalar),
      e.evaluateWith (fun r => run r.transformer) value groups =
        e'.evaluateWith (fun r => run r.transformer) value groups'

theorem SameCall.intro {e e' : Evaluator} {groups groups' : List String}
    (h : ∀ (μ : Type → Type) [Monad μ] [LawfulMonad μ] (run : Transformer → Scalar → μ Scalar)
      (value : Scalar), e.evaluateWith (fun r => run r.transformer) value groups =
        e'.evaluateWith (fun r => run r.transformer) value groups') :
    e.SameCall groups e' groups' :=
  ⟨h (Except TransformError) Transformer.run, h⟩

end Evaluator

namespace Rule

namespace Rearranges

variable {q r : Rule}

theorem namer?_eq (h : q.Rearranges r) (group : String) : q.namer? group = r.namer? group := by
  rw [namer?, namer?, ← List.head?_filter, ← List.head?_filter, h.order_eq]

theorem isCatchAll_iff (h : q.Rearranges r) : q.IsCatchAll ↔ r.IsCatchAll := by
  simp only [IsCatchAll, h.runOnNoMatch_eq, h.perm.mem_iff]

theorem verdict_eq (h : q.Rearranges r) (group : String) : q.verdict group = r.verdict group := by
  simp only [Rule.verdict_eq, h.namer?_eq, h.isCatchAll_iff]

theorem alike (h : q.Rearranges r) : q.Alike r := ⟨h.verdict_eq, h.transformer_eq⟩

end Rearranges

end Rule

namespace Evaluator

section

variable {μ : Type → Type} [Monad μ] {run : Rule → Scalar → μ Scalar}

theorem evaluateGroupWith_append_of_isCatchAll {r : Rule} (h : r.IsCatchAll)
    (before after : List Rule) (group : String) (value : Scalar) :
    evaluateGroupWith run (before ++ r :: after) group value =
      evaluateGroupWith run (before ++ [r]) group value := by
  induction before with
  | nil =>
      rw [List.nil_append, List.nil_append, evaluateGroupWith_of_isRelevant (.inl h),
        evaluateGroupWith_of_isRelevant (.inl h)]
  | cons q rest ih =>
      rw [List.cons_append, List.cons_append, evaluateGroupWith, evaluateGroupWith, ih]

theorem evaluateGroupWith_of_alike {run : Transformer → Scalar → μ Scalar}
    {rules rules' : List Rule} (h : List.Forall₂ Rule.Alike rules rules') (group : String)
    (value : Scalar) :
    evaluateGroupWith (fun r => run r.transformer) rules group value =
      evaluateGroupWith (fun r => run r.transformer) rules' group value := by
  induction h with
  | nil => rfl
  | cons hr _ ih =>
      rw [evaluateGroupWith, evaluateGroupWith, hr.verdict_eq, hr.transformer_eq, ih]

theorem evaluateGroupWith_of_rearranges {run : Transformer → Scalar → μ Scalar}
    {rules rules' : List Rule} (h : List.Forall₂ Rule.Rearranges rules rules') (group : String)
    (value : Scalar) :
    evaluateGroupWith (fun r => run r.transformer) rules group value =
      evaluateGroupWith (fun r => run r.transformer) rules' group value :=
  evaluateGroupWith_of_alike (h.imp fun _ _ hr => hr.alike) group value

end

theorem sameCall_of_alike {e e' : Evaluator} (h : List.Forall₂ Rule.Alike e.rules e'.rules)
    (groups : List String) : e.SameCall groups e' groups :=
  .intro fun _ _ _ _ value => evaluateWith_congr (evaluateGroupWith_of_alike h) value groups

/-- Rules after one with an answer for every group may be left out, groups after the first may be
left out if there is such a rule, and selectors may be rearranged. -/
theorem sameCall_of_catchAll (e : Evaluator) (groups : List String) :
    (∀ before r after, e.rules = before ++ r :: after → r.IsCatchAll →
      e.SameCall groups ⟨e.instruction, before ++ [r]⟩ groups) ∧
    (∀ group later, groups = group :: later → (∃ r ∈ e.rules, r.IsCatchAll) →
      e.SameCall groups e [group]) ∧
    ∀ rules, List.Forall₂ Rule.Rearranges e.rules rules →
      e.SameCall groups ⟨e.instruction, rules⟩ groups := by
  refine ⟨?_, ?_, ?_⟩
  · intro before r after hrules hcatch
    refine .intro fun μ _ _ run value => evaluateWith_congr (fun group value => ?_) value groups
    rw [hrules]
    exact evaluateGroupWith_append_of_isCatchAll hcatch before after group value
  · rintro group later rfl ⟨r, hr, hcatch⟩
    refine .intro fun μ _ _ run value => ?_
    have hfirst : ∃ g ∈ [group], ∃ r ∈ e.rules, r.IsRelevant (lower g) :=
      ⟨group, List.mem_singleton_self group, r, hr, .inl hcatch⟩
    exact evaluateGroupsWith_append_of_isRelevant hfirst later value
  · intro rules hrearranges
    refine .intro fun μ _ _ run value => evaluateWith_congr (fun group value => ?_) value groups
    exact evaluateGroupWith_of_rearranges hrearranges group value

/-- A rule that leaves out one group, which it names a second time after another. -/
def excepting : Rule :=
  ⟨[⟨"admin", true⟩, ⟨"csr", false⟩, ⟨"admin", false⟩], false, "zero", Method.reset⟩

def exceptingFirst : Rule :=
  ⟨[⟨"csr", false⟩, ⟨"admin", true⟩, ⟨"admin", false⟩], false, "zero", Method.reset⟩

theorem excepting_rearranges : excepting.Rearranges exceptingFirst where
  perm := List.Perm.swap _ _ _
  order_eq identifier := by
    by_cases h : "csr" = identifier
    · subst h
      rfl
    · simp [excepting, exceptingFirst, List.filter_cons, h]
  runOnNoMatch_eq := rfl
  method_eq := rfl
  transformer_eq := rfl

theorem sameCall_of_catchAll_excepting :
    (Evaluator.mk "" [starring, excepting, starring]).SameCall ["guest", "csr"]
        ⟨"", [starring, excepting]⟩ ["guest", "csr"] ∧
      (Evaluator.mk "" [starring, excepting, starring]).SameCall ["guest", "csr"]
        ⟨"", [starring, excepting, starring]⟩ ["guest"] ∧
      (Evaluator.mk "" [starring, excepting]).SameCall ["guest", "csr"]
        ⟨"", [starring, exceptingFirst]⟩ ["guest", "csr"] := by
  have hcatch : excepting.IsCatchAll := by decide
  have hstarring : starring.Rearranges starring := ⟨.refl _, fun _ => rfl, rfl, rfl, rfl⟩
  obtain ⟨hrules, hgroups, -⟩ :=
    sameCall_of_catchAll ⟨"", [starring, excepting, starring]⟩ ["guest", "csr"]
  obtain ⟨-, -, hselectors⟩ := sameCall_of_catchAll ⟨"", [starring, excepting]⟩ ["guest", "csr"]
  refine ⟨hrules [starring] excepting [starring] rfl hcatch, ?_, ?_⟩
  · exact hgroups "guest" ["csr"] rfl ⟨excepting, by simp, hcatch⟩
  · exact hselectors _ (.cons hstarring (.cons excepting_rearranges .nil))

end Evaluator

end Redaction
