import Redaction.Proofs.Instruction.Rendering
import Redaction.Proofs.Rule.Calls
import Redaction.Proofs.Text.LowerCase

/-!
# Illegal arguments

Every segment is read up to a run marker of its own, whose next node is the method. So there are no
more rules than run markers, and the arguments at fault are found in a parameter list right after a
method. Reading gives lists of scalars only, so that no text has illegal arguments.
-/

namespace Redaction

open Redaction.Instruction Redaction.Text

/-! ## The method of a segment -/

theorem exists_eq_append_takeParams (nodes : List Node) :
    ∃ front, nodes = front ++ (takeParams nodes).2 := by
  unfold takeParams
  split
  · next children inverted rest => exact ⟨[.params children inverted], rfl⟩
  · exact ⟨[], rfl⟩

theorem exists_run_of_readSegment {instruction : String} {nodes rest left : List Node}
    {selector next : Node} {seg : Segment}
    (hs : seek isSelector nodes = some (selector, next, rest))
    (hr : readSegment instruction selector (next :: rest) = .ok (seg, left)) :
    ∃ before method after, nodes = before ++ .run :: method :: after ∧
      method.text? = some seg.method ∧ seg.params = (takeParams after).1 ∧
        left = (takeParams after).2 := by
  obtain ⟨skipped, rfl, -, -⟩ := seek_eq_some hs
  obtain ⟨between, method, after, heq, -, ⟨-, -, hmethod, hparams⟩, hleft⟩ := readSegment_eq_ok hr
  refine ⟨skipped ++ selector :: between, method, after, ?_, hmethod, hparams, hleft⟩
  rw [heq, List.append_assoc, List.cons_append]

theorem exists_run_of_mem_segments {instruction : String} {nodes : List Node} {seg : Segment}
    (h : .ok seg ∈ segments instruction nodes) :
    ∃ before method after, nodes = before ++ .run :: method :: after ∧
      method.text? = some seg.method ∧ seg.params = (takeParams after).1 := by
  fun_induction segments instruction nodes with
  | case1 nodes hs => cases h
  | case2 nodes selector next rest hs e hr => cases List.mem_singleton.mp h
  | case3 nodes selector next rest hs seg' left hr _ ih =>
      obtain ⟨before, method, after, hnodes, hmethod, hparams, rfl⟩ :=
        exists_run_of_readSegment hs hr
      rcases List.mem_cons.mp h with h | h
      · cases h
        exact ⟨before, method, after, hnodes, hmethod, hparams⟩
      · obtain ⟨before', method', after', hleft, hmethod', hparams'⟩ := ih h
        obtain ⟨front, hfront⟩ := exists_eq_append_takeParams after
        refine ⟨before ++ .run :: method :: (front ++ before'), method', after', ?_, hmethod',
          hparams'⟩
        rw [hnodes, hfront, hleft]
        simp

/-- The segments that are whole are at most as many as the run markers. -/
theorem length_le_countP_isRun {instruction : String} {nodes : List Node} {segs : List Segment}
    {rest : List (Except CompileError Segment)}
    (h : segments instruction nodes = segs.map Except.ok ++ rest) :
    segs.length ≤ nodes.countP isRun := by
  induction segs generalizing nodes with
  | nil => exact Nat.zero_le _
  | cons seg later ih =>
      obtain ⟨selector, next, following, left, hs, hr, hleft⟩ := exists_of_segments_eq_cons h
      obtain ⟨before, method, after, hnodes, -, -, rfl⟩ := exists_run_of_readSegment hs hr
      obtain ⟨front, hfront⟩ := exists_eq_append_takeParams after
      have hlater := ih hleft
      have hafter : (takeParams after).2.countP isRun ≤ after.countP isRun := by
        conv_rhs => rw [hfront, List.countP_append]
        exact Nat.le_add_left _ _
      have hmarker : isRun .run = true := rfl
      rw [hnodes, List.countP_append, List.countP_cons_of_pos hmarker, List.countP_cons]
      rw [List.length_cons]
      omega

/-! ## Rules and illegal arguments -/

/-- A parameter list right after a method name has a node that is no scalar, and the first of these
is of a kind. -/
def HasIllegalArgument (nodes : List Node) (found : Kind) : Prop :=
  ∃ before name inverted children inverted' after,
    nodes = before ++ .run :: .scalar (.text name) inverted :: .params children inverted' :: after ∧
      ∃ passed n later, children = passed ++ n :: later ∧ (∀ m ∈ passed, m.IsScalar) ∧
        ¬n.IsScalar ∧ found = n.kind

theorem eq_scalar_of_text?_eq_some {n : Node} {name : String} (h : n.text? = some name) :
    ∃ inverted, n = .scalar (.text name) inverted := by
  cases n with
  | scalar literal inverted =>
      cases literal with
      | text s =>
          cases h
          exact ⟨inverted, rfl⟩
      | _ => cases h
  | _ => cases h

theorem hasIllegalArgument_of_mem_segments {instruction : String} {nodes : List Node}
    {seg : Segment} {found : Kind} (h : .ok seg ∈ segments instruction nodes)
    (hargs : arguments seg.params = .error (.invalidArgument found)) :
    HasIllegalArgument nodes found := by
  obtain ⟨before, method, after, hnodes, hmethod, hparams⟩ := exists_run_of_mem_segments h
  obtain ⟨inverted, rfl⟩ := eq_scalar_of_text?_eq_some hmethod
  obtain ⟨passed, n, later, hchildren, hpassed, hn, he⟩ := arguments_eq_error hargs
  cases he
  rw [hparams] at hchildren
  unfold takeParams at hchildren
  split at hchildren
  · next children inverted' rest =>
      exact ⟨before, seg.method, inverted, children, inverted', rest, hnodes, passed, n, later,
        hchildren, hpassed, hn, rfl⟩
  · simp at hchildren

/-- Lists that are read have scalars only. -/
theorem not_hasIllegalArgument_parse (instruction : String) (found : Kind) :
    ¬HasIllegalArgument (parse instruction) found := by
  rintro ⟨before, name, inverted, children, inverted', after, hnodes, passed, n, later, rfl, -, hn,
    -⟩
  have hmem : .params (passed ++ n :: later) inverted' ∈ parse instruction := by
    rw [hnodes]
    simp
  have hentry : n.IsEntry IsSpelled := shaped_of_mem_parse instruction _ hmem n (by simp)
  cases n with
  | scalar literal inverted => exact hn ⟨literal, inverted, rfl⟩
  | _ => exact hentry

variable {σ : Type} {registry : Registry σ} {instruction : String} {nodes : List Node} {s t : σ}

theorem Rule.MadeOf.contains_method {seg : Segment} {r : Rule}
    (h : Rule.MadeOf registry seg r s t) : registry.contains r.method = true := by
  obtain ⟨factory, args, transformer, hf, -, -, rfl⟩ := h
  rw [Registry.contains, Registry.find?, lower_lower]
  exact Option.isSome_iff_exists.mpr ⟨factory, hf⟩

theorem rules_of_compileNodes {e : Evaluator}
    (h : (compileNodes registry instruction nodes).runFrom s = (.ok e, t)) :
    e.rules ≠ [] ∧ e.rules.length ≤ nodes.countP isRun ∧
      ∀ r ∈ e.rules, registry.contains r.method = true := by
  obtain ⟨-, segs, hne, hsegs, hmade⟩ := compileNodes_eq_ok_iff.mp h
  have hlength := hmade.forall₂.length_eq
  refine ⟨?_, ?_, hmade.forall_mem fun _ _ _ _ => Rule.MadeOf.contains_method⟩
  · exact List.ne_nil_of_length_pos (hlength ▸ List.length_pos_iff.mpr hne)
  · exact hlength ▸ length_le_countP_isRun (hsegs.trans (List.append_nil _).symm)

theorem hasIllegalArgument_of_compileNodes {found : Kind}
    (h : (compileNodes registry instruction nodes).runFrom s =
      (.error (.invalidArgument found), t)) :
    HasIllegalArgument nodes found := by
  obtain ⟨result, u, calls, hlogged, hcomes⟩ := compileNodes_logged registry instruction nodes s
  obtain ⟨rfl, -⟩ := Prod.mk.inj (hlogged.run_eq.symm.trans h)
  rcases hcomes with ⟨made, -, -, hresult, -⟩ | ⟨made, rest, e, last, hsegs, -, hfails, hresult, -⟩
  · cases hresult
  · cases hresult
    cases hfails with
    | @illegal seg factory _ hf hargs rest =>
        have hmem : .ok seg ∈ segments instruction nodes := by
          rw [hsegs]
          exact List.mem_append_right _ List.mem_cons_self
        exact hasIllegalArgument_of_mem_segments hmem hargs

/-- Compiled nodes have at least one rule and no more rules than run markers, all of registered
methods. An illegal argument is found in a parameter list right after a method name, and a text has
none. -/
theorem compile_rules_and_arguments (registry : Registry σ) (instruction : String) (s : σ) :
    (∀ found, ((compile registry instruction).runFrom s).1 ≠ .error (.invalidArgument found)) ∧
    (∀ e, ((compile registry instruction).runFrom s).1 = .ok e → e.rules ≠ [] ∧
      e.rules.length ≤ (parse instruction).countP isRun ∧
        ∀ r ∈ e.rules, registry.contains r.method = true) ∧
    ∀ nodes, (∀ e, ((compileNodes registry instruction nodes).runFrom s).1 = .ok e →
        e.rules ≠ [] ∧ e.rules.length ≤ nodes.countP isRun ∧
          ∀ r ∈ e.rules, registry.contains r.method = true) ∧
      ∀ found, ((compileNodes registry instruction nodes).runFrom s).1 =
        .error (.invalidArgument found) → HasIllegalArgument nodes found := by
  refine ⟨?_, ?_, ?_⟩
  · intro found h
    exact not_hasIllegalArgument_parse instruction found
      (hasIllegalArgument_of_compileNodes (Prod.ext (y := (_, _)) h rfl))
  · exact fun e h => rules_of_compileNodes (Prod.ext (y := (_, _)) h rfl)
  · intro nodes
    constructor
    · exact fun e h => rules_of_compileNodes (Prod.ext (y := (_, _)) h rfl)
    · exact fun found h => hasIllegalArgument_of_compileNodes (Prod.ext (y := (_, _)) h rfl)

/-- The nodes of `a=zero(1,[x],=)` if brackets and markers could be in a list. -/
def nestedNodes : List Node :=
  [.scalar (.text "a") false, .run, .scalar (.text "zero") false,
    .params [.scalar (.int 1) false, .set [.scalar (.text "x") false] false, .run] false]

/-- A text with the same characters has one rule, as its list ends at the first closing bracket. -/
theorem compile_rules_and_arguments_nested :
    HasIllegalArgument nestedNodes .set ∧
      ∃ e, ((compile (.builtin : Registry Unit) "a=zero(1,[x],=)").runFrom ()).1 = .ok e ∧
        e.rules.length ≤ (parse "a=zero(1,[x],=)").countP isRun := by
  obtain ⟨-, hcompiles, hnodes⟩ :=
    compile_rules_and_arguments (.builtin : Registry Unit) "a=zero(1,[x],=)" ()
  have hfails : ((compileNodes (.builtin : Registry Unit) "a=zero(1,[x],=)" nestedNodes).runFrom
      ()).1 = .error (.invalidArgument .set) := failure?_eq_some_iff.mp (by decide +kernel)
  have hsucceeds : ((compile (.builtin : Registry Unit) "a=zero(1,[x],=)").runFrom
      ()).1.toBool = true := by decide +kernel
  obtain ⟨e, t, he⟩ := exists_eq_ok_of_toBool hsucceeds
  exact ⟨(hnodes nestedNodes).2 .set hfails, e, congrArg Prod.fst he,
    (hcompiles e (congrArg Prod.fst he)).2.1⟩

end Redaction
