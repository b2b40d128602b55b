import Redaction.Proofs.Method.Builtin
import Redaction.Proofs.Rule.Pairing

/-!
# Instructions joined by a chain marker

What a compilation makes of two parts with a chain marker between them: the rules of the first part,
and then what it makes of the second. The searches of the compiler know nothing of parts. That they
stay within the first one is due to two facts: it leaves no node that could be a selector, and the
marker keeps a parameter list of the second part from being taken for one of the first.
-/

namespace Redaction

open Redaction.Instruction

/-- The method of the last rule, or the parameter list right after it, is the last of the nodes. The
pieces are those of the rules, since nodes are divided in one way only. -/
def EndsWithRule (nodes : List Node) : Prop :=
  ∃ pieces last tail, Divides nodes (pieces ++ [last]) tail ∧
    (tail = [] ∨ ∃ children inverted, tail = [.params children inverted])

/-! ## Segments of both parts -/

theorem seek_append_of_eq_some {p : Node → Bool} {nodes rest : List Node} {a b : Node}
    (h : seek p nodes = some (a, b, rest)) (more : List Node) :
    seek p (nodes ++ more) = some (a, b, rest ++ more) := by
  obtain ⟨before, rfl, hbefore, ha⟩ := seek_eq_some h
  rw [List.append_assoc]
  exact seek_append hbefore ha b (rest ++ more)

/-- Nodes that are no selectors may stand in front of a search for one. -/
theorem seek_append_of_forall {p : Node → Bool} {before : List Node}
    (h : ∀ n ∈ before, p n = false) (nodes : List Node) :
    seek p (before ++ nodes) = seek p nodes := by
  induction before with
  | nil => rfl
  | cons n later ih =>
      obtain ⟨hn, hlater⟩ := List.forall_mem_cons.mp h
      have hskip : ∀ following, seek p (n :: following) = seek p following := by
        intro following
        cases following with
        | nil => rfl
        | cons m following => rw [seek, if_neg (by simp [hn])]
      rw [List.cons_append, hskip, ih hlater]

theorem takeParams_append_chain (nodes b : List Node) :
    takeParams (nodes ++ .chain :: b) =
      ((takeParams nodes).1, (takeParams nodes).2 ++ .chain :: b) := by
  cases nodes with
  | nil => rfl
  | cons n rest => cases n <;> rfl

theorem readSegment_append_chain {instruction : String} {selector : Node}
    {following left : List Node} {seg : Segment}
    (h : readSegment instruction selector following = .ok (seg, left)) (b : List Node) :
    readSegment instruction selector (following ++ .chain :: b) =
      .ok (seg, left ++ .chain :: b) := by
  unfold readSegment at h ⊢
  obtain ⟨groups, hg, h⟩ := bind_eq_ok_iff.mp h
  refine bind_eq_ok_iff.mpr ⟨groups, hg, ?_⟩
  split at h
  · cases h
  · next marker method rest hs =>
      rw [seek_append_of_eq_some hs]
      split at h
      · cases h
      · next name hname =>
          cases h
          simp only [hname, takeParams_append_chain]
          rfl

theorem segments_of_readSegment_eq_error {instruction : String} {nodes rest : List Node}
    {selector next : Node} {e : CompileError}
    (hs : seek isSelector nodes = some (selector, next, rest))
    (hr : readSegment instruction selector (next :: rest) = .error e) :
    segments instruction nodes = [.error e] := by
  rw [segments]
  split
  · next hn =>
      rw [hs] at hn
      cases hn
  · next selector' next' rest' hs' =>
      rw [hs] at hs'
      cases hs'
      split
      · next e' he =>
          rw [hr] at he
          cases he
          rfl
      · next seg left he =>
          rw [hr] at he
          cases he

/-- Segments depend on what the first search finds, and not on what it passes over. -/
theorem segments_congr {instruction : String} {nodes nodes' : List Node}
    (h : seek isSelector nodes = seek isSelector nodes') :
    segments instruction nodes = segments instruction nodes' := by
  cases hs : seek isSelector nodes' with
  | none => rw [segments_of_seek_eq_none (h.trans hs), segments_of_seek_eq_none hs]
  | some found =>
      obtain ⟨selector, next, rest⟩ := found
      cases hr : readSegment instruction selector (next :: rest) with
      | error e =>
          rw [segments_of_readSegment_eq_error (h.trans hs) hr,
            segments_of_readSegment_eq_error hs hr]
      | ok found =>
          obtain ⟨seg, left⟩ := found
          rw [segments_of_seek (h.trans hs) hr, segments_of_seek hs hr]

/-- Without a node in front that cannot be a selector, nodes are divided as before. -/
theorem Divides.of_cons {n : Node} {nodes tail : List Node} {pieces : List Piece}
    (h : Divides (n :: nodes) pieces tail) (hn : isSelector n = false)
    (htail : ∀ m ∈ tail, isSelector m = false) :
    ∃ pieces' tail', Divides nodes pieces' tail' ∧ ∀ m ∈ tail', isSelector m = false := by
  cases pieces with
  | nil =>
      have heq : n :: nodes = tail := h.nodes_eq
      rw [← heq] at htail
      obtain ⟨-, hnodes⟩ := List.forall_mem_cons.mp htail
      exact ⟨[], nodes, ⟨rfl, nofun, fun m hm => hnodes m (List.mem_of_mem_dropLast hm)⟩, hnodes⟩
  | cons p later =>
      obtain ⟨skipped, selector, between, method⟩ := p
      have hp := h.sought _ List.mem_cons_self
      cases skipped with
      | nil =>
          obtain ⟨rfl, -⟩ := List.cons.inj h.nodes_eq
          exact absurd (hp.selector.symm.trans hn) (by simp)
      | cons m skipped =>
          obtain ⟨-, hnodes⟩ := List.cons.inj h.nodes_eq
          refine ⟨⟨skipped, selector, between, method⟩ :: later, tail, ⟨hnodes, ?_, h.tail⟩, htail⟩
          intro q hq
          rcases List.mem_cons.mp hq with rfl | hq
          · exact ⟨fun x hx => hp.skipped x (List.mem_cons_of_mem m hx), hp.selector, hp.between⟩
          · exact h.sought q (List.mem_cons_of_mem _ hq)

/-- The first part may end in any nodes that are no selectors. The induction is on its segments; the
pieces show where the last of them ends. -/
theorem segments_append_chain {instruction : String} {a tail : List Node} {pieces : List Piece}
    {segs : List Segment} (hsegs : segments instruction a = segs.map Except.ok)
    (h : Divides a pieces tail) (htail : ∀ n ∈ tail, isSelector n = false) (b : List Node) :
    segments instruction (a ++ .chain :: b) =
      segs.map Except.ok ++ segments instruction b := by
  induction segs generalizing a pieces tail with
  | nil =>
      have hnone := seek_eq_none_iff.mp (seek_of_segments_eq_nil hsegs)
      obtain ⟨-, rfl⟩ : [] = pieces ∧ a = tail := h.unique ⟨rfl, nofun, hnone⟩
      apply segments_congr
      rw [seek_append_of_forall htail]
      exact seek_append_of_forall (List.forall_mem_singleton.mpr rfl) b
  | cons seg later ih =>
      obtain ⟨selector, next, rest, left, hs, hread, hleft⟩ := exists_of_segments_eq_cons hsegs
      have hread' := readSegment_append_chain hread b
      obtain ⟨skipped, rfl, hskipped, hselector⟩ := seek_eq_some hs
      obtain ⟨between, method, after, heq, hbetween, -, rfl⟩ := readSegment_eq_ok hread
      have hnodes : skipped ++ selector :: next :: rest =
          (Piece.mk skipped selector between method).nodes ++ after := by
        simp [Piece.nodes, heq]
      rw [hnodes] at h
      obtain ⟨later', -, hafter⟩ := h.of_append ⟨hskipped, hselector, hbetween⟩
      obtain ⟨pieces', tail', hdivides, htail'⟩ :
          ∃ pieces' tail', Divides (takeParams after).2 pieces' tail' ∧
            ∀ n ∈ tail', isSelector n = false := by
        unfold takeParams
        split
        · exact hafter.of_cons rfl htail
        · exact ⟨later', tail, hafter, htail⟩
      rw [segments_of_seek (seek_append_of_eq_some hs _) hread', ih hleft hdivides htail']
      rfl

/-! ## Rules of both parts -/

variable {σ : Type} {registry : Registry σ} {instruction : String}

/-- The rule of a segment that may not be whole, with the factories in a state. -/
def ruleOf (registry : Registry σ) (instruction : String) (factories : σ)
    (found : Except CompileError Segment) : Except CompileError Rule :=
  found >>= fun seg => ((compileSegment registry instruction seg).runFrom factories).1

theorem fst_runFrom_ruleStep (hr : registry.Steady) (found : Except CompileError Segment) (s : σ) :
    ((ruleStep registry instruction found).runFrom s).1 = ruleOf registry instruction s found := by
  rw [ruleStep, CompileM.Steady.fst_runFrom_bind _ (steady_compileSegment hr instruction)]
  rfl

theorem fst_runFrom_compileNodes (hr : registry.Steady) (nodes : List Node) (s : σ) :
    ((compileNodes registry instruction nodes).runFrom s).1 =
      if segments instruction nodes = [] then .error (.invalidChain (.noSelector instruction))
      else ((segments instruction nodes).mapM (ruleOf registry instruction s)).map
        (Evaluator.mk instruction) := by
  have hsteps : (CompileM.runFrom ((segments instruction nodes).mapM
      (ruleStep registry instruction)) s).1 =
        (segments instruction nodes).mapM (ruleOf registry instruction s) := by
    rw [CompileM.Steady.fst_runFrom_mapM fun x _ => steady_ruleStep hr instruction x]
    simp only [fst_runFrom_ruleStep hr]
  rw [compileNodes_eq]
  split
  · rfl
  · rw [CompileM.runFrom_map, hsteps]

/-- No selector is found exactly when there are no segments. -/
theorem segments_eq_nil_iff {nodes : List Node} :
    segments instruction nodes = [] ↔ ∀ n ∈ nodes.dropLast, isSelector n = false := by
  rw [← seek_eq_none_iff]
  exact ⟨seek_of_segments_eq_nil, segments_of_seek_eq_none⟩

/-- The result for both parts in terms of the second alone: nothing is added if no selector is found
in it, and otherwise its rules come after those of the first part, or its failure is the failure. -/
theorem fst_runFrom_compileNodes_chain (hr : registry.Steady) {a b : List Node} {ea : Evaluator}
    {s : σ} (ha : ((compileNodes registry instruction a).runFrom s).1 = .ok ea)
    (hend : EndsWithRule a) :
    ((compileNodes registry instruction (a ++ [Node.chain] ++ b)).runFrom s).1 =
      if segments instruction b = [] then .ok ⟨instruction, ea.rules⟩
      else ((compileNodes registry instruction b).runFrom s).1.map fun eb =>
        ⟨instruction, ea.rules ++ eb.rules⟩ := by
  obtain ⟨pieces, last, tail, hdivides, htail⟩ := hend
  have htail : ∀ n ∈ tail, isSelector n = false := by
    rcases htail with rfl | ⟨children, inverted, rfl⟩
    · exact List.forall_mem_nil _
    · exact List.forall_mem_singleton.mpr rfl
  obtain ⟨-, segs, hne, hsegs, -⟩ := compileNodes_eq_ok_iff.mp (Prod.ext (y := (_, _)) ha rfl)
  have hall := segments_append_chain hsegs hdivides htail b
  have hfirst : (segs.map Except.ok).mapM (ruleOf registry instruction s) = .ok ea.rules := by
    have hsome : (segs.map .ok : List (Except CompileError Segment)) ≠ [] := by simpa using hne
    rw [fst_runFrom_compileNodes hr, hsegs, if_neg hsome] at ha
    obtain ⟨rules, hrules, rfl⟩ := map_eq_ok_iff.mp ha
    exact hrules
  have hboth : segs.map .ok ++ segments instruction b ≠ [] := by
    simp [hne]
  rw [fst_runFrom_compileNodes hr, List.append_assoc, List.singleton_append, hall, if_neg hboth,
    List.mapM_append, hfirst]
  split
  · next hnil =>
      rw [hnil]
      change Except.ok (Evaluator.mk instruction (ea.rules ++ [])) = _
      rw [List.append_nil]
  · next hsome =>
      rw [fst_runFrom_compileNodes hr, if_neg hsome]
      cases (segments instruction b).mapM (ruleOf registry instruction s) <;> rfl

/-- A compilation composes across a chain marker. The first part compiles, and its last node belongs
to its last rule. -/
theorem compileNodes_chain (hr : registry.Steady) {a : List Node} {ea : Evaluator} {s : σ}
    (ha : ((compileNodes registry instruction a).runFrom s).1 = .ok ea) (hend : EndsWithRule a)
    (b : List Node) (t u : σ) :
    (∀ eb, ((compileNodes registry instruction b).runFrom t).1 = .ok eb →
      ((compileNodes registry instruction (a ++ [Node.chain] ++ b)).runFrom u).1 =
        .ok ⟨instruction, ea.rules ++ eb.rules⟩) ∧
    ((∀ n ∈ b.dropLast, isSelector n = false) →
      ((compileNodes registry instruction (a ++ [Node.chain] ++ b)).runFrom u).1 =
        .ok ⟨instruction, ea.rules⟩) ∧
    ∀ e, (∃ n ∈ b.dropLast, isSelector n = true) →
      ((compileNodes registry instruction b).runFrom t).1 = .error e →
        ((compileNodes registry instruction (a ++ [Node.chain] ++ b)).runFrom u).1 = .error e := by
  have hsame := steady_compileNodes hr instruction
  rw [hsame a s u] at ha
  have hwhole := fst_runFrom_compileNodes_chain hr ha hend (b := b)
  rw [hwhole, hsame b t u]
  refine ⟨?_, ?_, ?_⟩
  · intro eb hb
    have hsome : segments instruction b ≠ [] := by
      intro hnil
      rw [fst_runFrom_compileNodes hr, if_pos hnil] at hb
      cases hb
    rw [if_neg hsome, hb]
    rfl
  · intro hgarbage
    rw [if_pos (segments_eq_nil_iff.mpr hgarbage)]
  · rintro e ⟨n, hn, hselector⟩ hb
    have hsome : segments instruction b ≠ [] := by
      intro hnil
      have hnone := segments_eq_nil_iff.mp hnil n hn
      exact absurd (hselector.symm.trans hnone) (by simp)
    rw [if_neg hsome, hb]
    rfl

/-- The nodes of `~admin=star(2)`. -/
def starredNodes : List Node :=
  [.scalar (.text "admin") true, .run, .scalar (.text "star") false,
    .params [.scalar (.int 2) false] false]

/-- The nodes of `csr=shred`, with a method that is not there. -/
def shreddedNodes : List Node :=
  [.scalar (.text "csr") false, .run, .scalar (.text "shred") false]

/-- The last text of the garbage `=csr` could be a selector, and is passed over. -/
theorem compileNodes_chain_starred :
    EndsWithRule starredNodes ∧
      ∃ ea, ((compileNodes Registry.builtin "~admin=star(2)" starredNodes).runFrom ()).1 = .ok ea ∧
        ((compileNodes Registry.builtin "~admin=star(2)" (starredNodes ++ [Node.chain] ++
          [Node.run, Node.scalar (.text "csr") false])).runFrom ()).1 =
            .ok ⟨"~admin=star(2)", ea.rules⟩ ∧
        ((compileNodes Registry.builtin "~admin=star(2)" (starredNodes ++ [Node.chain] ++
          shreddedNodes)).runFrom ()).1 = .error (.unknownMethod "shred") := by
  have hend : EndsWithRule starredNodes := by
    refine ⟨[], ⟨[], .scalar (.text "admin") true, [], .scalar (.text "star") false⟩,
      [.params [.scalar (.int 2) false] false], ⟨rfl, ?_, nofun⟩, .inr ⟨_, _, rfl⟩⟩
    exact List.forall_mem_singleton.mpr ⟨nofun, rfl, nofun⟩
  have hcompiles : ((compileNodes Registry.builtin "~admin=star(2)" starredNodes).runFrom
      ()).1.toBool = true := by decide +kernel
  obtain ⟨ea, t, hcompiled⟩ := exists_eq_ok_of_toBool hcompiles
  have ha := congrArg Prod.fst hcompiled
  have hsteady : (Registry.builtin : Registry Unit).Steady := Registry.HasOnlyBuiltin.builtin.steady
  refine ⟨hend, ea, ha, ?_, ?_⟩
  · obtain ⟨-, hgarbage, -⟩ := compileNodes_chain hsteady ha hend
      [Node.run, Node.scalar (.text "csr") false] () ()
    exact hgarbage (List.forall_mem_singleton.mpr rfl)
  · obtain ⟨-, -, hfails⟩ := compileNodes_chain hsteady ha hend shreddedNodes () ()
    apply hfails _ ⟨_, List.mem_cons_self, rfl⟩
    apply failure?_eq_some_iff.mp
    decide +kernel

end Redaction
