import Redaction.Proofs.Method.Observed
import Redaction.Proofs.Rule.Decision
import Redaction.Proofs.Rule.Segments

/-!
# Calls of factories

A compilation calls one factory for each rule, and it has the arguments of the rule before it does.
Segments are gone through in order, so that the calls tell how far it has come: those of the rules
that were made, and one more if it ends because a factory refuses. Evaluations call none.
-/

namespace Redaction

open Redaction.Instruction Redaction.Text

/-! ## Segments that are not whole -/

theorem selectGroups_eq_error {selector : Node} {e : CompileError}
    (h : selectGroups selector = .error e) : ∃ fault, e = .invalidChain fault := by
  unfold selectGroups at h
  split at h
  · cases h
  · obtain ⟨child, -, hchild⟩ := exists_of_mapM_eq_error h
    split at hchild
    · cases hchild
    · cases hchild
      exact ⟨_, rfl⟩

theorem readSegment_eq_error {instruction : String} {selector : Node} {following : List Node}
    {e : CompileError} (h : readSegment instruction selector following = .error e) :
    ∃ fault, e = .invalidChain fault := by
  unfold readSegment at h
  rcases bind_eq_error_iff.mp h with h | ⟨groups, -, h⟩
  · exact selectGroups_eq_error h
  · split at h
    · cases h
      exact ⟨_, rfl⟩
    · split at h
      · cases h
        exact ⟨_, rfl⟩
      · cases h

theorem exists_fault_of_mem_segments {instruction : String} {nodes : List Node} {e : CompileError}
    (h : .error e ∈ segments instruction nodes) : ∃ fault, e = .invalidChain fault := by
  fun_induction segments instruction nodes with
  | case1 nodes hs => cases h
  | case2 nodes selector next rest hs e' hr =>
      cases List.mem_singleton.mp h
      exact readSegment_eq_error hr
  | case3 nodes selector next rest hs seg left hr _ ih =>
      rcases List.mem_cons.mp h with h | h
      · cases h
      · exact ih h

def Instruction.Node.IsScalar (n : Node) : Prop := ∃ literal inverted, n = .scalar literal inverted

/-- The only error of arguments is that of the first node that is no scalar. -/
theorem arguments_eq_error {params : List Node} {e : CompileError}
    (h : arguments params = .error e) : ∃ before n later, params = before ++ n :: later ∧
      (∀ m ∈ before, m.IsScalar) ∧ ¬n.IsScalar ∧ e = .invalidArgument n.kind := by
  obtain ⟨before, n, later, hparams, hbefore, hn⟩ := mapM_eq_error_iff.mp h
  refine ⟨before, n, later, hparams, ?_, ?_⟩
  · intro m hm
    obtain ⟨literal, hliteral⟩ := hbefore m hm
    cases m with
    | scalar literal inverted => exact ⟨literal, inverted, rfl⟩
    | _ => cases hliteral
  · cases n with
    | scalar literal inverted => cases hn
    | _ =>
        cases hn
        exact ⟨nofun, rfl⟩

/-! ## The call for a rule -/

/-- A segment of which a rule is made: its arguments, and what the factory makes of them. -/
structure Made where
  segment : Segment
  args : List Literal
  transformer : Transformer
  arguments_eq : arguments segment.params = .ok args

namespace Made

def found (m : Made) : Except CompileError Segment := .ok m.segment

def rule (m : Made) : Rule :=
  ⟨m.segment.groups, m.segment.inverted, lower m.segment.method, m.transformer⟩

def call (m : Made) : FactoryCall := ⟨lower m.segment.method, m.args, .ok m.transformer⟩

end Made

variable {σ : Type}

/-- Why no rule is made of the first of the segments that are left, with the error for it and the
calls that this takes. No factory is called but one that refuses. -/
inductive Fails (registry : Registry σ) (instruction : String) :
    List (Except CompileError Segment) → CompileError → List FactoryCall → Prop
  | noSelector : Fails registry instruction [] (.invalidChain (.noSelector instruction)) []
  | broken (fault : ChainFault) (rest : List (Except CompileError Segment)) :
      Fails registry instruction (.error (.invalidChain fault) :: rest) (.invalidChain fault) []
  | unknown {seg : Segment} (hf : registry.find? seg.method = none)
      (rest : List (Except CompileError Segment)) :
      Fails registry instruction (.ok seg :: rest) (.unknownMethod seg.method) []
  | illegal {seg : Segment} {factory : Factory σ} {found : Kind}
      (hf : registry.find? seg.method = some factory)
      (hargs : arguments seg.params = .error (.invalidArgument found))
      (rest : List (Except CompileError Segment)) :
      Fails registry instruction (.ok seg :: rest) (.invalidArgument found) []
  | refused {seg : Segment} {factory : Factory σ} {args : List Literal}
      (hf : registry.find? seg.method = some factory) (hargs : arguments seg.params = .ok args)
      (source : TransformError) (rest : List (Except CompileError Segment)) :
      Fails registry instruction (.ok seg :: rest) (.method seg.method instruction source)
        [⟨lower seg.method, args, .error source⟩]

variable {registry : Registry σ} {instruction : String}

theorem Fails.call_iff {rest : List (Except CompileError Segment)} {e : CompileError}
    {last : List FactoryCall} (h : Fails registry instruction rest e last) :
    ((∃ name cited source, e = .method name cited source) ∧ ∃ call, last = [call]) ∨
      (∀ name cited source, e ≠ .method name cited source) ∧ last = [] := by
  cases h with
  | refused => exact .inl ⟨⟨_, _, _, rfl⟩, _, rfl⟩
  | _ => exact .inr ⟨nofun, rfl⟩

theorem compileSegment_of_find? {factory : Factory σ} {seg : Segment}
    (hf : registry.find? seg.method = some factory) :
    compileSegment registry instruction seg = (do
      let args ← ExceptT.mk (pure (arguments seg.params))
      let transformer ← (factory args).adapt fun e => CompileError.method seg.method instruction e
      pure ⟨seg.groups, seg.inverted, lower seg.method, transformer⟩) := by
  rw [compileSegment, hf]
  rfl

theorem compileSegment_logged (registry : Registry σ) (instruction : String) (seg : Segment)
    (rest : List (Except CompileError Segment)) (s : σ) :
    (∃ (m : Made) (t : σ), m.segment = seg ∧ Logged (compileSegment registry instruction seg)
      (compileSegment registry.observed instruction seg) s (.ok m.rule) t [m.call]) ∨
    ∃ e last t, Fails registry instruction (.ok seg :: rest) e last ∧
      Logged (compileSegment registry instruction seg)
        (compileSegment registry.observed instruction seg) s (.error e) t last := by
  have hobserved := registry.find?_observed seg.method
  cases hf : registry.find? seg.method with
  | none =>
      refine .inr ⟨_, _, s, .unknown hf rest, ?_⟩
      rw [hf] at hobserved
      rw [compileSegment, compileSegment, hf, hobserved]
      exact .throw _ s
  | some factory =>
      rw [hf] at hobserved
      rw [compileSegment_of_find? hf, compileSegment_of_find? hobserved]
      cases hargs : arguments seg.params with
      | error e =>
          obtain ⟨before, n, later, -, -, -, rfl⟩ := arguments_eq_error hargs
          exact .inr ⟨_, _, s, .illegal hf hargs rest, (Logged.mk_pure _ s).bind_of_error _ _⟩
      | ok args =>
          have hcall := (factory.logged_observed (lower seg.method) args s).adapt fun e =>
            CompileError.method seg.method instruction e
          rcases hrun : (factory args).runFrom s with ⟨source | transformer, t⟩
          · rw [hrun] at hcall
            refine .inr ⟨_, _, t, .refused hf hargs source rest, ?_⟩
            exact (Logged.mk_pure (.ok args) s).bind (hcall.bind_of_error _ _)
          · rw [hrun] at hcall
            refine .inl ⟨⟨seg, args, transformer, hargs⟩, t, rfl, ?_⟩
            exact (Logged.mk_pure (.ok args) s).bind (hcall.bind (.pure _ t))

/-! ## The calls of a compilation -/

/-- How segments come to a result, and the calls on the way: there is a rule for each of them, or
some are left. -/
inductive Comes (registry : Registry σ) (instruction : String)
    (found : List (Except CompileError Segment)) :
    Except CompileError (List Rule) → List FactoryCall → Prop
  | done (made : List Made) (h : found = made.map Made.found) :
      Comes registry instruction found (.ok (made.map Made.rule)) (made.map Made.call)
  | stopped {e : CompileError} {last : List FactoryCall} (made : List Made)
      {first : Except CompileError Segment} {rest : List (Except CompileError Segment)}
      (h : found = made.map Made.found ++ first :: rest)
      (hfails : Fails registry instruction (first :: rest) e last) :
      Comes registry instruction found (.error e) (made.map Made.call ++ last)

theorem ruleStep_logged {found : Except CompileError Segment}
    (hfound : ∀ e, found = .error e → ∃ fault, e = .invalidChain fault)
    (rest : List (Except CompileError Segment)) (s : σ) :
    (∃ (m : Made) (t : σ), found = m.found ∧ Logged (ruleStep registry instruction found)
      (ruleStep registry.observed instruction found) s (.ok m.rule) t [m.call]) ∨
    ∃ e last t, Fails registry instruction (found :: rest) e last ∧
      Logged (ruleStep registry instruction found) (ruleStep registry.observed instruction found) s
        (.error e) t last := by
  cases found with
  | error e =>
      obtain ⟨fault, rfl⟩ := hfound e rfl
      exact .inr ⟨_, _, s, .broken fault rest, (Logged.mk_pure _ s).bind_of_error _ _⟩
  | ok seg =>
      have hseg := Logged.mk_pure (.ok seg : Except CompileError Segment) s
      rcases compileSegment_logged registry instruction seg rest s with
        ⟨m, t, rfl, hlogged⟩ | ⟨e, last, t, hfails, hlogged⟩
      · exact .inl ⟨m, t, rfl, hseg.bind hlogged⟩
      · exact .inr ⟨e, last, t, hfails, hseg.bind hlogged⟩

/-- The induction is on the segments that are left, each made into a rule in the state and with the
log that the calls before it have left. -/
theorem mapM_ruleStep_logged {found : List (Except CompileError Segment)}
    (hfound : ∀ e, .error e ∈ found → ∃ fault, e = .invalidChain fault) (s : σ) :
    ∃ result t calls, Comes registry instruction found result calls ∧
      Logged (found.mapM (ruleStep registry instruction))
        (found.mapM (ruleStep registry.observed instruction)) s result t calls := by
  induction found generalizing s with
  | nil => exact ⟨_, s, _, .done [] rfl, .pure [] s⟩
  | cons x rest ih =>
      have hx : ∀ e, x = .error e → ∃ fault, e = .invalidChain fault := by
        rintro e rfl
        exact hfound e List.mem_cons_self
      rw [List.mapM_cons, List.mapM_cons]
      rcases ruleStep_logged hx rest s with ⟨m, t, rfl, hm⟩ | ⟨e, last, t, hfails, hlogged⟩
      · obtain ⟨result, u, calls, hcomes, hrest⟩ :=
          ih (fun e he => hfound e (List.mem_cons_of_mem _ he)) t
        cases hcomes with
        | done made h =>
            refine ⟨_, u, _, .done (m :: made) (by rw [h]; rfl), ?_⟩
            have hlater := hrest.map (m.rule :: ·)
            rw [map_eq_pure_bind, map_eq_pure_bind] at hlater
            exact hm.bind hlater
        | stopped made h hfails =>
            refine ⟨_, u, _, .stopped (m :: made) (by rw [h]; rfl) hfails, ?_⟩
            exact hm.bind (hrest.bind_of_error _ _)
      · exact ⟨_, t, _, .stopped [] rfl hfails, hlogged.bind_of_error _ _⟩

/-- How a compilation comes to its result, and the calls on the way. Without a segment there is no
selector. -/
theorem compileNodes_logged (registry : Registry σ) (instruction : String) (nodes : List Node)
    (s : σ) :
    ∃ result t calls, Logged (compileNodes registry instruction nodes)
      (compileNodes registry.observed instruction nodes) s result t calls ∧
    ((∃ made : List Made, made ≠ [] ∧ segments instruction nodes = made.map Made.found ∧
      result = .ok ⟨instruction, made.map Made.rule⟩ ∧ calls = made.map Made.call) ∨
    ∃ (made : List Made) (rest : List (Except CompileError Segment)) (e : CompileError)
      (last : List FactoryCall), segments instruction nodes = made.map Made.found ++ rest ∧
        (rest = [] → made = []) ∧ Fails registry instruction rest e last ∧ result = .error e ∧
          calls = made.map Made.call ++ last) := by
  have hfound : ∀ e, .error e ∈ segments instruction nodes → ∃ fault, e = .invalidChain fault :=
    fun e => exists_fault_of_mem_segments
  rw [compileNodes_eq, compileNodes_eq]
  by_cases hnil : segments instruction nodes = []
  · rw [if_pos hnil, if_pos hnil, hnil]
    exact ⟨_, s, [], .throw _ s, .inr ⟨[], [], _, [], rfl, fun _ => rfl, .noSelector, rfl, rfl⟩⟩
  · rw [if_neg hnil, if_neg hnil]
    obtain ⟨result, t, calls, hcomes, hlogged⟩ := mapM_ruleStep_logged hfound s
    cases hcomes with
    | done made h =>
        have hmade : made ≠ [] := by
          rintro rfl
          exact hnil h
        exact ⟨_, t, _, hlogged.map (Evaluator.mk instruction), .inl ⟨made, hmade, h, rfl, rfl⟩⟩
    | stopped made h hfails =>
        exact ⟨_, t, _, hlogged.map (Evaluator.mk instruction),
          .inr ⟨made, _, _, _, h, nofun, hfails, rfl, rfl⟩⟩

/-! ## Evaluations -/

namespace Evaluator

/-- An evaluation among steps that could call factories. -/
def evaluateIn {τ : Type} (e : Evaluator) (value : Scalar) (groups : List String) :
    CompileM TransformError τ Outcome :=
  e.evaluateWith (fun r s => ExceptT.mk (pure (r.transformer s))) value groups

/-- Evaluations one after another. A failure does not keep the later ones from taking place. -/
def evaluateAll {τ : Type} (e : Evaluator) (asked : List (Scalar × List String)) :
    StateM τ (List (Except TransformError Outcome)) :=
  asked.mapM fun a => (e.evaluateIn a.1 a.2).run

theorem run_evaluateIn {τ : Type} (e : Evaluator) (value : Scalar) (groups : List String) (t : τ) :
    (e.evaluateIn value groups).run.run t = (e.evaluate value groups, t) := by
  rw [evaluateIn, evaluate]
  rcases e.exists_decidedBy_or_abstains groups with ⟨r, group, h⟩ | h
  · rw [evaluateWith_of_decidedBy h, evaluateWith_of_decidedBy h]
    by_cases hruns : r.RunsFor group
    · rw [Rule.carryOut_of_runsFor hruns, Rule.carryOut_of_runsFor hruns]
      cases r.transformer value <;> rfl
    · rw [Rule.carryOut_of_not_runsFor hruns, Rule.carryOut_of_not_runsFor hruns]
      rfl
  · rw [evaluateWith_of_abstains h, evaluateWith_of_abstains h]
    rfl

theorem run_evaluateAll {τ : Type} (e : Evaluator) (asked : List (Scalar × List String)) (t : τ) :
    (e.evaluateAll asked).run t = (asked.map fun a => e.evaluate a.1 a.2, t) := by
  unfold evaluateAll
  induction asked with
  | nil => rfl
  | cons a later ih =>
      rw [List.mapM_cons, StateT.run_bind, run_evaluateIn]
      exact congrArg (fun results => (e.evaluate a.1 a.2 :: results.1, results.2)) ih

end Evaluator

/-- The calls of a compilation that succeeds are those for its rules, one for each, and evaluations
add none. Those of one that fails are the calls for the rules before, and the call that failed if
the error is a factory's. All other errors are found before the factory is called. -/
theorem compileNodes_calls (registry : Registry σ) (instruction : String) (nodes : List Node)
    (s : σ) :
    ∃ result t calls, (compileNodes registry instruction nodes).runFrom s = (result, t) ∧
      (∀ log, (compileNodes registry.observed instruction nodes).runFrom (s, log) =
        (result, t, log ++ calls)) ∧
      match result with
      | .ok e => ∃ made : List Made, made ≠ [] ∧
          segments instruction nodes = made.map Made.found ∧
          e.rules = made.map Made.rule ∧ calls = made.map Made.call ∧
          ∀ (asked : List (Scalar × List String)) (log : List FactoryCall),
            (e.evaluateAll asked).run (t, log) = (asked.map fun a => e.evaluate a.1 a.2, t, log)
      | .error e => ∃ (made : List Made) (rest : List (Except CompileError Segment))
          (last : List FactoryCall), segments instruction nodes = made.map Made.found ++ rest ∧
          Fails registry instruction rest e last ∧ (rest = [] → made = []) ∧
          calls = made.map Made.call ++ last ∧
          (((∃ name cited source, e = .method name cited source) ∧ ∃ call, last = [call]) ∨
            (∀ name cited source, e ≠ .method name cited source) ∧ last = []) := by
  obtain ⟨result, t, calls, hlogged, hcomes⟩ :=
    compileNodes_logged registry instruction nodes s
  refine ⟨result, t, calls, hlogged.run_eq, hlogged.observed_eq, ?_⟩
  rcases hcomes with ⟨made, hmade, hsegs, rfl, rfl⟩ |
    ⟨made, rest, e, last, hsegs, hrest, hfails, rfl, rfl⟩
  · exact ⟨made, hmade, hsegs, rfl, rfl, fun asked log =>
      Evaluator.run_evaluateAll _ asked (t, log)⟩
  · exact ⟨made, rest, last, hsegs, hfails, hrest, rfl, hfails.call_iff⟩

/-- A registry whose state counts the calls that succeed, with a method that is always refused. -/
def counting : Registry Nat :=
  (Registry.empty.register "tally" fun _ => ExceptT.mk fun n => pure (.ok .keep, n + 1)).register
    "refuse" fun _ => throw (.invalidArgument "refuse" "refused")

/-- The last rule is not compiled, as the one before is refused. -/
theorem compileNodes_calls_counting :
    ∃ calls, (∀ log, (compileNodes counting.observed "a=tally|b=Refuse(x)|c=tally"
        (parse "a=tally|b=Refuse(x)|c=tally")).runFrom (0, log) =
      (.error (.method "Refuse" "a=tally|b=Refuse(x)|c=tally"
        (.invalidArgument "refuse" "refused")), 1, log ++ calls)) ∧
      calls.map (fun c => (c.method, c.args)) = [("tally", []), ("refuse", [.text "x"])] := by
  obtain ⟨result, t, calls, -, hobserved, -⟩ := compileNodes_calls counting
    "a=tally|b=Refuse(x)|c=tally" (parse "a=tally|b=Refuse(x)|c=tally") 0
  have hcomputed : let run := (compileNodes counting.observed "a=tally|b=Refuse(x)|c=tally"
        (parse "a=tally|b=Refuse(x)|c=tally")).runFrom (0, [])
      failure? run.1 = some (.method "Refuse" "a=tally|b=Refuse(x)|c=tally"
        (.invalidArgument "refuse" "refused")) ∧ run.2.1 = 1 ∧
      run.2.2.map (fun c => (c.method, c.args)) = [("tally", []), ("refuse", [.text "x"])] := by
    decide +kernel
  simp only [hobserved, failure?_eq_some_iff] at hcomputed
  obtain ⟨rfl, rfl, hcalls⟩ := hcomputed
  exact ⟨calls, hobserved, hcalls⟩

end Redaction
