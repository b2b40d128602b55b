import Redaction.Proofs.Method.Alike
import Redaction.Proofs.Method.Builtin
import Redaction.Proofs.Rule.CatchAll
import Redaction.Proofs.Rule.Chaining
import Redaction.Proofs.Rule.ForAll

/-!
# Spellings of a selector

A list of names may be inverted by a mark before the list, by a mark before each name, or by both,
and one name needs no list. The nodes differ, and only the mark before a selector opens the rule to
other groups; but so does any inverted name, and the rules have the same verdict on every group.
What comes after the run marker has no part in this, and may be any text.
-/

namespace Redaction

open Redaction.Instruction Redaction.Text

/-! ## Errors -/

/-- The fault with another text in place of the instruction that it cites. -/
def ChainFault.citing (instruction : String) : ChainFault → ChainFault
  | noSelector _ => noSelector instruction
  | selectorEntry found => selectorEntry found
  | noRun _ => noRun instruction
  | methodName _ found => methodName instruction found

def CompileError.citing (instruction : String) : CompileError → CompileError
  | invalidChain fault => invalidChain (fault.citing instruction)
  | unknownMethod name => unknownMethod name
  | invalidArgument found => invalidArgument found
  | method name _ source => method name instruction source

/-- Two errors that differ at most in the instruction that they cite. -/
def CompileError.SameKind (e e' : CompileError) : Prop := e.citing "" = e'.citing ""

/-! ## Selectors, segments and rules -/

open CompileError (SameKind)

/-- Two nodes are the same selector, as far as evaluation can tell. -/
def Instruction.Node.SelectsAlike (n n' : Node) : Prop :=
  ResultsAlike SameKind (fun groups groups' => ∀ group,
      verdictOf group n.isInverted groups = verdictOf group n'.isInverted groups')
    (selectGroups n) (selectGroups n')

structure Segment.Alike (seg seg' : Segment) : Prop where
  method_eq : seg.method = seg'.method
  params_eq : seg.params = seg'.params
  verdict_eq : ∀ group,
    verdictOf group seg.inverted seg.groups = verdictOf group seg'.inverted seg'.groups

/-- Two compilations have the same outcome: both fail, with errors of one kind, or both give an
evaluator, and the evaluators do the same in every call. -/
def SameCompilation : Except CompileError Evaluator → Except CompileError Evaluator → Prop :=
  ResultsAlike SameKind fun e e' => ∀ groups, e.SameCall groups e' groups

theorem Instruction.Node.SelectsAlike.refl (n : Node) : n.SelectsAlike n := by
  refine ResultsAlike.refl ?_ ?_ (selectGroups n)
  · exact fun e => rfl
  · exact fun groups group => rfl

variable {σ : Type} {registry : Registry σ}

section

variable {instruction instruction' : String}

theorem readSegment_alike (instruction instruction' : String) {n n' : Node}
    (h : n.SelectsAlike n') (following : List Node) :
    ResultsAlike SameKind (fun found found' => found.1.Alike found'.1 ∧ found.2 = found'.2)
      (readSegment instruction n following) (readSegment instruction' n' following) := by
  refine ResultsAlike.bind h fun groups groups' hverdict => ?_
  cases seek isRun following with
  | none => exact .error rfl
  | some found =>
      obtain ⟨marker, method, rest⟩ := found
      simp only
      cases method.text? with
      | none => exact .error rfl
      | some name => exact .ok ⟨⟨rfl, rfl, hverdict⟩, rfl⟩

/-- Segments are alike if the first selectors are, and segments of later nodes. -/
theorem segments_alike_of_seek {nodes nodes' rest : List Node} {n n' next : Node}
    (hs : seek isSelector nodes = some (n, next, rest))
    (hs' : seek isSelector nodes' = some (n', next, rest)) (h : n.SelectsAlike n')
    (hlater : ∀ left, left.length < nodes.length →
      List.Forall₂ (ResultsAlike SameKind Segment.Alike) (segments instruction left)
        (segments instruction' left)) :
    List.Forall₂ (ResultsAlike SameKind Segment.Alike) (segments instruction nodes)
      (segments instruction' nodes') := by
  have hread := readSegment_alike instruction instruction' h (next :: rest)
  generalize hr : readSegment instruction n (next :: rest) = found at hread
  generalize hr' : readSegment instruction' n' (next :: rest) = found' at hread
  cases hread with
  | error he =>
      rw [segments_of_readSegment_eq_error hs hr, segments_of_readSegment_eq_error hs' hr']
      exact .cons (.error he) .nil
  | @ok found found' hfound =>
      obtain ⟨seg, left⟩ := found
      obtain ⟨seg', left'⟩ := found'
      obtain ⟨hseg, rfl⟩ : seg.Alike seg' ∧ left = left' := hfound
      have hshort : left.length < nodes.length := by
        have h₁ := length_seek_lt hs
        have h₂ := length_readSegment_lt hr
        simp only [List.length_cons] at h₂
        omega
      rw [segments_of_seek hs hr, segments_of_seek hs' hr']
      exact .cons (.ok hseg) (hlater left hshort)

/-- An instruction has no part in its segments, except that errors cite it. -/
theorem segments_alike (instruction instruction' : String) (nodes : List Node) :
    List.Forall₂ (ResultsAlike SameKind Segment.Alike) (segments instruction nodes)
      (segments instruction' nodes) := by
  induction hn : nodes.length using Nat.strong_induction_on generalizing nodes with
  | h k ih =>
      cases hs : seek isSelector nodes with
      | none =>
          rw [segments_of_seek_eq_none hs, segments_of_seek_eq_none hs]
          exact .nil
      | some found =>
          obtain ⟨n, next, rest⟩ := found
          refine segments_alike_of_seek hs hs (.refl n) fun left hleft => ?_
          exact ih left.length (hn ▸ hleft) left rfl

/-! ## Compilations -/

theorem compileSegment_alike {seg seg' : Segment} (h : seg.Alike seg') :
    CompileM.Alike SameKind Rule.Alike (compileSegment registry instruction seg)
      (compileSegment registry instruction' seg') := by
  unfold compileSegment
  rw [← h.method_eq, ← h.params_eq]
  cases registry.find? seg.method with
  | none => exact .throw rfl
  | some factory =>
      have hargs : ResultsAlike SameKind Eq (arguments seg.params) (arguments seg.params) := by
        refine ResultsAlike.refl ?_ ?_ _
        · exact fun e => rfl
        · exact fun args => rfl
      refine (CompileM.Alike.mk_pure hargs).bind ?_
      rintro args _ rfl
      have hcall : CompileM.Alike SameKind Eq
          ((factory args).adapt fun e => CompileError.method seg.method instruction e)
          ((factory args).adapt fun e => CompileError.method seg.method instruction' e) :=
        .adapt fun e => rfl
      refine hcall.bind ?_
      rintro transformer _ rfl
      exact .pure ⟨h.verdict_eq, rfl⟩

theorem ruleStep_alike (registry : Registry σ) (instruction instruction' : String)
    {found found' : Except CompileError Segment}
    (h : ResultsAlike SameKind Segment.Alike found found') :
    CompileM.Alike SameKind Rule.Alike (ruleStep registry instruction found)
      (ruleStep registry instruction' found') :=
  (CompileM.Alike.mk_pure h).bind fun _ _ => compileSegment_alike

theorem compileNodes_alike {nodes nodes' : List Node}
    (h : List.Forall₂ (ResultsAlike SameKind Segment.Alike) (segments instruction nodes)
      (segments instruction' nodes')) :
    CompileM.Alike SameKind (fun e e' => List.Forall₂ Rule.Alike e.rules e'.rules)
      (compileNodes registry instruction nodes) (compileNodes registry instruction' nodes') := by
  have hrow : CompileM.Alike SameKind (List.Forall₂ Rule.Alike)
      ((segments instruction nodes).mapM (ruleStep registry instruction))
      ((segments instruction' nodes').mapM (ruleStep registry instruction')) := by
    refine .mapM ?_ h
    exact fun found found' => ruleStep_alike registry instruction instruction'
  have hnil : segments instruction nodes = [] ↔ segments instruction' nodes' = [] := by
    rw [← List.length_eq_zero_iff, ← List.length_eq_zero_iff, h.length_eq]
  rw [compileNodes_eq, compileNodes_eq]
  by_cases hsegs : segments instruction nodes = []
  · rw [if_pos hsegs, if_pos (hnil.mp hsegs)]
    exact .throw rfl
  · rw [if_neg hsegs, if_neg (hnil.not.mp hsegs)]
    exact hrow.map fun rules rules' hrules => hrules

end

/-! ## Written selectors -/

/-- An inverted selector is open to other groups, whether or not there is a mark before it. -/
theorem verdictOf_of_inverted {selectors : List GroupSelector}
    (h : ∃ s ∈ selectors, s.inverted = true) (group : String) (runs runs' : Bool) :
    verdictOf group runs selectors = verdictOf group runs' selectors := by
  obtain ⟨s, hs, hinverted⟩ := h
  have hopen : ∃ s ∈ selectors, s.inverted = true ∨ s.identifier = wildcard :=
    ⟨s, hs, .inl hinverted⟩
  rw [verdictOf_eq, verdictOf_eq, if_pos (.inr hopen), if_pos (.inr hopen)]

namespace Instruction.Grammar

/-- The instruction of a selector, a run marker and any text after it. -/
def Selector.instruction (inverted : Bool) (selector : Selector) (rest : String) : String :=
  String.ofList (mark inverted ++ selector.write ++ '=' :: rest.toList)

/-- The selectors, with or without a mark before them, in which each of some names is inverted: a
list with a mark before it, whatever marks are in it, a list with a mark before each name, and a
single name with its mark. -/
inductive Excludes (names : List Identifier) : Bool → Selector → Prop
  | outside {groups : List Group} (hne : groups ≠ []) (h : groups.map Group.name = names) :
      Excludes names true (.list groups hne)
  | within {groups : List Group} (hne : groups ≠ []) (h : groups.map Group.name = names)
      (hinverted : ∀ g ∈ groups, g.inverted = true) : Excludes names false (.list groups hne)
  | single {name : Identifier} (h : names = [name]) : Excludes names true (.single name)

/-- The groups of a selector, each with all the marks that apply to it. -/
def Selector.selected (inverted : Bool) (selector : Selector) : List GroupSelector :=
  selector.groups.map fun g => ⟨lower g.name.text, inverted || g.inverted⟩

theorem Selector.parse_instruction (inverted : Bool) (selector : Selector) (rest : String) :
    parse (selector.instruction inverted rest) = selector.node inverted :: .run :: parse rest := by
  rw [parse_eq_parseCharacters, parse_eq_parseCharacters, parseCharacters, parseCharacters,
    instruction, String.toList_ofList, readNodes_mark_selector]

theorem Selector.selectsAlike {inverted inverted' : Bool} {selector selector' : Selector}
    (h : selector.selected inverted = selector'.selected inverted')
    (hinverted : inverted = inverted' ∨ ∃ s ∈ selector.selected inverted, s.inverted = true) :
    (selector.node inverted).SelectsAlike (selector'.node inverted') := by
  unfold Instruction.Node.SelectsAlike
  rw [selector.selectGroups_node, selector'.selectGroups_node, selector.isInverted_node,
    selector'.isInverted_node]
  refine .ok fun group => ?_
  change verdictOf group inverted (selector.selected inverted) =
    verdictOf group inverted' (selector'.selected inverted')
  rw [← h]
  rcases hinverted with rfl | hinverted
  · rfl
  · exact verdictOf_of_inverted hinverted group inverted inverted'

theorem Excludes.selected_eq {names : List Identifier} {inverted : Bool} {selector : Selector}
    (h : Excludes names inverted selector) :
    selector.selected inverted = names.map fun name => ⟨lower name.text, true⟩ := by
  cases h with
  | outside hne h =>
      rw [← h, List.map_map]
      rfl
  | @within groups hne h hinverted =>
      rw [← h, List.map_map]
      refine List.map_congr_left fun g hg => ?_
      rw [Function.comp_apply, hinverted g hg]
      rfl
  | single h =>
      rw [h]
      rfl

theorem Excludes.names_ne_nil {names : List Identifier} {inverted : Bool} {selector : Selector}
    (h : Excludes names inverted selector) : names ≠ [] := by
  cases h with
  | outside hne h | within hne h =>
      rw [← h]
      simpa using hne
  | single h => simp [h]

theorem Excludes.selectsAlike {names : List Identifier} {inverted inverted' : Bool}
    {selector selector' : Selector} (h : Excludes names inverted selector)
    (h' : Excludes names inverted' selector') :
    (selector.node inverted).SelectsAlike (selector'.node inverted') := by
  refine Selector.selectsAlike (h.selected_eq.trans h'.selected_eq.symm) (.inr ?_)
  obtain ⟨name, later, rfl⟩ := List.exists_cons_of_ne_nil h.names_ne_nil
  rw [h.selected_eq]
  exact ⟨⟨lower name.text, true⟩, List.mem_cons_self, rfl⟩

theorem Selector.sameCompilation {inverted inverted' : Bool} {selector selector' : Selector}
    (h : (selector.node inverted).SelectsAlike (selector'.node inverted'))
    (hr : registry.Steady) (rest : String) (s t : σ) :
    SameCompilation ((compile registry (selector.instruction inverted rest)).runFrom s).1
      ((compile registry (selector'.instruction inverted' rest)).runFrom t).1 := by
  have hseek : ∀ (selector : Selector) (inverted : Bool),
      seek isSelector (selector.node inverted :: .run :: parse rest) =
        some (selector.node inverted, .run, parse rest) := by
    intro selector inverted
    rw [seek, if_pos (selector.isSelector_node inverted)]
  have halike : CompileM.Alike SameKind (fun e e' => List.Forall₂ Rule.Alike e.rules e'.rules)
      (compile registry (selector.instruction inverted rest))
      (compile registry (selector'.instruction inverted' rest)) := by
    unfold compile
    rw [selector.parse_instruction, selector'.parse_instruction]
    refine compileNodes_alike (segments_alike_of_seek (hseek _ _) (hseek _ _) h fun left _ => ?_)
    exact segments_alike _ _ left
  have hstate : ((compile registry (selector'.instruction inverted' rest)).runFrom t).1 =
      ((compile registry (selector'.instruction inverted' rest)).runFrom s).1 :=
    steady_compileNodes hr _ _ t s
  rw [hstate]
  exact (halike s).1.imp fun e e' => Evaluator.sameCall_of_alike

/-- An inversion distributes over the names of a list, and one name needs no list. -/
theorem compile_alike_of_excludes (hr : registry.Steady) (names : List Identifier) (rest : String)
    (s t : σ) :
    (∀ inverted selector inverted' selector', Excludes names inverted selector →
      Excludes names inverted' selector' →
        SameCompilation ((compile registry (selector.instruction inverted rest)).runFrom s).1
          ((compile registry (selector'.instruction inverted' rest)).runFrom t).1) ∧
    ∀ name, SameCompilation
      ((compile registry ((Selector.list [⟨false, name⟩] (List.cons_ne_nil _ _)).instruction false
        rest)).runFrom s).1
      ((compile registry ((Selector.single name).instruction false rest)).runFrom t).1 := by
  constructor
  · intro inverted selector inverted' selector' h h'
    exact Selector.sameCompilation (h.selectsAlike h') hr rest s t
  · intro name
    refine Selector.sameCompilation (Selector.selectsAlike ?_ (.inl rfl)) hr rest s t
    rfl

def supportName : Identifier := identifier "support" rfl rfl (by decide)

/-- A list under a mark, and the same list with a mark before each name. -/
def exceptSupportOutside : Selector :=
  .list [⟨false, supportName⟩, ⟨false, wildcardName⟩] (List.cons_ne_nil _ _)

def exceptSupportWithin : Selector :=
  .list [⟨true, supportName⟩, ⟨true, wildcardName⟩] (List.cons_ne_nil _ _)

theorem compile_alike_except_support :
    SameCompilation ((compile (.builtin : Registry Unit) "~[support,all]=star(2)").runFrom ()).1
      ((compile (.builtin : Registry Unit) "[~support,~all]=star(2)").runFrom ()).1 ∧
    ((compile (.builtin : Registry Unit) "~[support,all]=star(2)").runFrom ()).1.toBool = true := by
  have houtside : exceptSupportOutside.instruction true "star(2)" = "~[support,all]=star(2)" := by
    decide +kernel
  have hwithin : exceptSupportWithin.instruction false "star(2)" = "[~support,~all]=star(2)" := by
    decide +kernel
  have hr : (Registry.builtin : Registry Unit).Steady := Registry.HasOnlyBuiltin.builtin.steady
  have h := (compile_alike_of_excludes hr [supportName, wildcardName] "star(2)" () ()).1 true
    exceptSupportOutside false exceptSupportWithin (.outside _ rfl) (.within _ rfl (by simp))
  rw [houtside, hwithin] at h
  exact ⟨h, by decide +kernel⟩

end Instruction.Grammar

end Redaction
