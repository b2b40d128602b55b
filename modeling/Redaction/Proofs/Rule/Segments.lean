import Redaction.Proofs.Method.Run
import Redaction.Proofs.Result
import Redaction.Rule.Compile

/-!
# Segments and the rules made of them

Where a search stops, what a segment is read from, and which rules a compilation gives: one for each
segment, made by one call of the factory that the registry has for the segment's method.
-/

namespace Redaction

open Redaction.Instruction Redaction.Text

/-! ## Searches -/

theorem seek_append {p : Node → Bool} {before : List Node} (h : ∀ n ∈ before, p n = false)
    {a : Node} (ha : p a = true) (b : Node) (rest : List Node) :
    seek p (before ++ a :: b :: rest) = some (a, b, rest) := by
  induction before with
  | nil => rw [List.nil_append, seek, if_pos ha]
  | cons n later ih =>
      obtain ⟨hn, hlater⟩ := List.forall_mem_cons.mp h
      cases later with
      | nil =>
          rw [List.singleton_append, seek, if_neg (by simp [hn]), seek, if_pos ha]
      | cons m later =>
          rw [List.cons_append, List.cons_append, seek, if_neg (by simp [hn]), ← List.cons_append,
            ih hlater]

theorem seek_eq_some {p : Node → Bool} {nodes rest : List Node} {a b : Node}
    (h : seek p nodes = some (a, b, rest)) :
    ∃ before, nodes = before ++ a :: b :: rest ∧ (∀ n ∈ before, p n = false) ∧ p a = true := by
  fun_induction seek p nodes with
  | case1 x y tail hx =>
      cases h
      exact ⟨[], rfl, List.forall_mem_nil _, hx⟩
  | case2 x y tail hx ih =>
      obtain ⟨before, heq, hbefore, ha⟩ := ih h
      refine ⟨x :: before, by rw [heq, List.cons_append], ?_, ha⟩
      exact List.forall_mem_cons.mpr ⟨by simpa using hx, hbefore⟩
  | case3 => cases h

/-- The last node is never found. -/
theorem seek_eq_none_iff {p : Node → Bool} {nodes : List Node} :
    seek p nodes = none ↔ ∀ n ∈ nodes.dropLast, p n = false := by
  fun_induction seek p nodes with
  | case1 x y tail hx => simp [hx]
  | case2 x y tail hx ih =>
      rw [ih, List.dropLast_cons_cons, List.forall_mem_cons]
      exact ⟨fun h => ⟨by simpa using hx, h⟩, fun h => h.2⟩
  | case3 nodes hne =>
      cases nodes with
      | nil => simp
      | cons x tail =>
          cases tail with
          | nil => simp
          | cons y tail => exact absurd rfl (hne x y tail)

theorem isRun_iff {n : Node} : isRun n = true ↔ n = .run := by
  cases n with
  | scalar literal inverted => cases literal <;> simp [isRun, Node.kind, Literal.kind]
  | _ => simp [isRun, Node.kind]

/-! ## Segments -/

/-- The segment that is read at a selector and the method after a run marker. -/
def Segment.ReadFrom (seg : Segment) (selector method : Node) (rest : List Node) : Prop :=
  selectGroups selector = .ok seg.groups ∧ seg.inverted = selector.isInverted ∧
    method.text? = some seg.method ∧ seg.params = (takeParams rest).1

theorem readSegment_eq_ok {instruction : String} {selector : Node} {following left : List Node}
    {seg : Segment} (h : readSegment instruction selector following = .ok (seg, left)) :
    ∃ between method rest, following = between ++ .run :: method :: rest ∧
      (∀ n ∈ between, isRun n = false) ∧ seg.ReadFrom selector method rest ∧
        left = (takeParams rest).2 := by
  unfold readSegment at h
  obtain ⟨groups, hg, h⟩ := bind_eq_ok_iff.mp h
  split at h
  · cases h
  · next found hs =>
      obtain ⟨between, heq, hbetween, hrun⟩ := seek_eq_some hs
      rw [isRun_iff] at hrun
      split at h
      · cases h
      · next name hname =>
          cases h
          exact ⟨between, _, _, hrun ▸ heq, hbetween, ⟨hg, rfl, hname, rfl⟩, rfl⟩

theorem readSegment_run {instruction : String} {selector method : Node} {rest : List Node}
    {groups : List GroupSelector} {name : String} (hg : selectGroups selector = .ok groups)
    (hname : method.text? = some name) :
    readSegment instruction selector (.run :: method :: rest) =
      .ok (⟨groups, selector.isInverted, name, (takeParams rest).1⟩, (takeParams rest).2) := by
  have hnil : ∀ n ∈ ([] : List Node), isRun n = false := nofun
  have hseek : seek isRun (.run :: method :: rest) = some (.run, method, rest) :=
    seek_append hnil rfl method rest
  rw [readSegment, hg]
  simp only [bind, Except.bind, hseek, hname]
  rfl

theorem segments_of_seek {instruction : String} {nodes rest left : List Node} {selector next : Node}
    {seg : Segment} (hs : seek isSelector nodes = some (selector, next, rest))
    (hr : readSegment instruction selector (next :: rest) = .ok (seg, left)) :
    segments instruction nodes = .ok seg :: segments instruction left := by
  rw [segments]
  split
  · next hn =>
      rw [hs] at hn
      cases hn
  · next selector' next' rest' hs' =>
      rw [hs] at hs'
      cases hs'
      split
      · next e he =>
          rw [hr] at he
          cases he
      · next seg' left' hr' =>
          rw [hr] at hr'
          cases hr'
          rfl

theorem segments_of_seek_eq_none {instruction : String} {nodes : List Node}
    (hs : seek isSelector nodes = none) : segments instruction nodes = [] := by
  rw [segments]
  split
  · rfl
  · next hs' =>
      rw [hs] at hs'
      cases hs'

theorem seek_of_segments_eq_nil {instruction : String} {nodes : List Node}
    (h : segments instruction nodes = []) : seek isSelector nodes = none := by
  rw [segments] at h
  split at h
  · next hs => exact hs
  · split at h <;> cases h

theorem exists_of_segments_eq_cons {instruction : String} {nodes : List Node} {seg : Segment}
    {later : List (Except CompileError Segment)}
    (h : segments instruction nodes = .ok seg :: later) :
    ∃ selector next rest left, seek isSelector nodes = some (selector, next, rest) ∧
      readSegment instruction selector (next :: rest) = .ok (seg, left) ∧
        segments instruction left = later := by
  rw [segments] at h
  split at h
  · cases h
  · next selector next rest hs =>
      split at h
      · cases (List.cons.inj h).1
      · next left hr =>
          obtain ⟨hseg, hlater⟩ := List.cons.inj h
          cases hseg
          exact ⟨selector, next, rest, left, hs, hr, hlater⟩

/-! ## Rules -/

variable {σ : Type}

/-- A rule is made of a segment by one call of the factory for its method. -/
def Rule.MadeOf (registry : Registry σ) (seg : Segment) (r : Rule) (s t : σ) : Prop :=
  ∃ factory args transformer, registry.find? seg.method = some factory ∧
    arguments seg.params = .ok args ∧ (factory args).runFrom s = (.ok transformer, t) ∧
      r = ⟨seg.groups, seg.inverted, lower seg.method, transformer⟩

theorem compileSegment_eq_ok_iff {registry : Registry σ} {instruction : String} {seg : Segment}
    {r : Rule} {s t : σ} :
    (compileSegment registry instruction seg).runFrom s = (.ok r, t) ↔
      Rule.MadeOf registry seg r s t := by
  unfold compileSegment
  constructor
  · intro h
    split at h
    · cases h
    · next factory hf =>
        obtain ⟨args, a, ha, h⟩ := CompileM.runFrom_bind_eq_ok_iff.mp h
        obtain ⟨transformer, b, ht, h⟩ := CompileM.runFrom_bind_eq_ok_iff.mp h
        cases h
        obtain ⟨hargs, rfl⟩ := Prod.mk.inj ha
        exact ⟨factory, args, transformer, hf, hargs, CompileM.runFrom_adapt_eq_ok_iff.mp ht, rfl⟩
  · rintro ⟨factory, args, transformer, hf, hargs, ht, rfl⟩
    rw [hf]
    refine CompileM.runFrom_bind_eq_ok_iff.mpr ⟨args, s, by rw [hargs]; rfl, ?_⟩
    exact CompileM.runFrom_bind_eq_ok_iff.mpr
      ⟨transformer, t, CompileM.runFrom_adapt_eq_ok_iff.mpr ht, rfl⟩

/-- The step of a compilation for a segment that may not be whole. -/
def ruleStep (registry : Registry σ) (instruction : String) (found : Except CompileError Segment) :
    CompileM CompileError σ Rule := do
  compileSegment registry instruction (← ExceptT.mk (pure found))

theorem runFrom_ruleStep_eq_ok_iff {registry : Registry σ} {instruction : String}
    {found : Except CompileError Segment} {r : Rule} {s t : σ} :
    (ruleStep registry instruction found).runFrom s = (.ok r, t) ↔
      ∃ seg, found = .ok seg ∧ Rule.MadeOf registry seg r s t := by
  rw [ruleStep, CompileM.runFrom_bind_eq_ok_iff]
  constructor
  · rintro ⟨seg, a, hseg, h⟩
    obtain ⟨rfl, rfl⟩ := Prod.mk.inj hseg
    exact ⟨seg, rfl, compileSegment_eq_ok_iff.mp h⟩
  · rintro ⟨seg, rfl, h⟩
    exact ⟨seg, s, rfl, compileSegment_eq_ok_iff.mpr h⟩

/-- A compilation is a row of steps, one for each segment. -/
theorem compileNodes_eq (registry : Registry σ) (instruction : String) (nodes : List Node) :
    compileNodes registry instruction nodes =
      if segments instruction nodes = [] then throw (.invalidChain (.noSelector instruction))
      else Evaluator.mk instruction <$>
        (segments instruction nodes).mapM (ruleStep registry instruction) := by
  rw [compileNodes]
  split
  · next hnil => rw [if_pos hnil]
  · next hne =>
      rw [if_neg hne, map_eq_pure_bind]
      rfl

/-- A compilation succeeds when all segments are whole, and a rule can be made of each. -/
theorem compileNodes_eq_ok_iff {registry : Registry σ} {instruction : String} {nodes : List Node}
    {e : Evaluator} {s u : σ} :
    (compileNodes registry instruction nodes).runFrom s = (.ok e, u) ↔
      e.instruction = instruction ∧ ∃ segs, segs ≠ [] ∧
        segments instruction nodes = segs.map Except.ok ∧
          Threads (Rule.MadeOf registry) segs e.rules s u := by
  rw [compileNodes_eq]
  by_cases hnil : segments instruction nodes = []
  · rw [if_pos hnil]
    constructor
    · intro h
      cases h
    · rintro ⟨-, segs, hne, hsegs, -⟩
      rw [hsegs] at hnil
      exact absurd (List.map_eq_nil_iff.mp hnil) hne
  · rw [if_neg hnil, CompileM.runFrom_map_eq_ok_iff]
    constructor
    · rintro ⟨rules, hrules, rfl⟩
      obtain ⟨segs, hsegs, hmade⟩ := (CompileM.runFrom_mapM_eq_ok_iff.mp hrules).exists_map
        fun _ _ _ _ => runFrom_ruleStep_eq_ok_iff.mp
      refine ⟨rfl, segs, ?_, hsegs, hmade⟩
      rintro rfl
      exact hnil hsegs
    · rintro ⟨rfl, segs, -, hsegs, hmade⟩
      refine ⟨e.rules, ?_, rfl⟩
      rw [hsegs]
      refine CompileM.runFrom_mapM_eq_ok_iff.mpr (hmade.map fun seg r a b h => ?_)
      exact runFrom_ruleStep_eq_ok_iff.mpr ⟨seg, rfl, h⟩

theorem forall_rules_of_makes {registry : Registry σ} {P : Transformer → Prop}
    (h : registry.Makes P) {instruction : String} {nodes : List Node} {e : Evaluator} {s u : σ}
    (hc : (compileNodes registry instruction nodes).runFrom s = (.ok e, u)) :
    ∀ r ∈ e.rules, P r.transformer := by
  obtain ⟨-, segs, -, -, hmade⟩ := compileNodes_eq_ok_iff.mp hc
  refine hmade.forall_mem ?_
  rintro seg r a b ⟨factory, args, transformer, hf, -, ht, rfl⟩
  exact h seg.method factory hf args transformer a b ht

/-! ## Steady registries -/

theorem steady_compileSegment {registry : Registry σ} (h : registry.Steady) (instruction : String)
    (seg : Segment) : (compileSegment registry instruction seg).Steady := by
  unfold compileSegment
  split
  · exact CompileM.steady_throw _
  · next factory hf =>
      refine (CompileM.steady_mk_pure _).bind fun args => ?_
      exact ((h _ factory hf args).adapt _).bind fun transformer => CompileM.steady_pure _

theorem steady_ruleStep {registry : Registry σ} (h : registry.Steady) (instruction : String)
    (found : Except CompileError Segment) : (ruleStep registry instruction found).Steady :=
  (CompileM.steady_mk_pure found).bind (steady_compileSegment h instruction)

theorem steady_compileNodes {registry : Registry σ} (h : registry.Steady) (instruction : String)
    (nodes : List Node) : (compileNodes registry instruction nodes).Steady := by
  rw [compileNodes_eq]
  split
  · exact CompileM.steady_throw _
  · exact (CompileM.Steady.mapM fun found _ => steady_ruleStep h instruction found).map _

end Redaction
