import Mathlib
import Redaction.Proofs.Rule.Segments

/-!
# Selectors and the run markers they are paired with

The nodes of an instruction that compiles fall into pieces, one for each rule: what is passed over
up to a selector, the selector, what is passed over up to a run marker, the marker and the method.
The division is unique. Nothing keeps a selector from being paired with a marker further on, so a
second selector in between is passed over in silence; the rules stand for contiguous parts exactly
when the nodes have the documented shape.
-/

namespace Redaction

open Redaction.Instruction Redaction.Text

/-- The part of an instruction from which a rule is made, up to its method. -/
structure Piece where
  skipped : List Node
  selector : Node
  between : List Node
  method : Node

namespace Piece

def nodes (p : Piece) : List Node := p.skipped ++ p.selector :: (p.between ++ [.run, p.method])

/-- The selector is the first after the piece before, and the run marker the first after it. -/
structure Sought (p : Piece) : Prop where
  skipped : ∀ n ∈ p.skipped, isSelector n = false
  selector : isSelector p.selector = true
  between : ∀ n ∈ p.between, isRun n = false

/-- A rule is made of a piece: it has the groups of the selector and the name of the method. -/
def Gives (p : Piece) (r : Rule) : Prop :=
  selectGroups p.selector = .ok r.groups ∧ r.runOnNoMatch = p.selector.isInverted ∧
    ∃ name, p.method.text? = some name ∧ r.method = lower name

/-- A segment is read from a piece and what comes after it. -/
def ReadAs (p : Piece) (seg : Segment) : Prop :=
  ∃ rest, seg.ReadFrom p.selector p.method rest

end Piece

/-- Nodes are parted into pieces, and into a tail where no further selector is found. -/
structure Divides (nodes : List Node) (pieces : List Piece) (tail : List Node) : Prop where
  nodes_eq : nodes = pieces.flatMap Piece.nodes ++ tail
  sought : ∀ p ∈ pieces, p.Sought
  tail : ∀ n ∈ tail.dropLast, isSelector n = false

/-! ## The division is unique -/

/-- A list is split in one way at its first element with a property. -/
theorem append_cons_inj {p : Node → Bool} {xs ys rest rest' : List Node} {a b : Node}
    (h : xs ++ a :: rest = ys ++ b :: rest') (hxs : ∀ n ∈ xs, p n = false) (ha : p a = true)
    (hys : ∀ n ∈ ys, p n = false) (hb : p b = true) : xs = ys ∧ a = b ∧ rest = rest' := by
  induction xs generalizing ys with
  | nil =>
      cases ys with
      | nil =>
          obtain ⟨rfl, rfl⟩ := List.cons.inj h
          exact ⟨rfl, rfl, rfl⟩
      | cons y ys =>
          obtain ⟨rfl, -⟩ := List.cons.inj h
          exact absurd (ha.symm.trans (hys a List.mem_cons_self)) (by simp)
  | cons x xs ih =>
      cases ys with
      | nil =>
          obtain ⟨rfl, -⟩ := List.cons.inj h
          exact absurd (hb.symm.trans (hxs x List.mem_cons_self)) (by simp)
      | cons y ys =>
          obtain ⟨rfl, hlater⟩ := List.cons.inj h
          obtain ⟨rfl, hrest⟩ := ih hlater (fun n hn => hxs n (List.mem_cons_of_mem x hn))
            fun n hn => hys n (List.mem_cons_of_mem x hn)
          exact ⟨rfl, hrest⟩

theorem Piece.nodes_append_inj {p q : Piece} {rest rest' : List Node} (hp : p.Sought)
    (hq : q.Sought) (h : p.nodes ++ rest = q.nodes ++ rest') : p = q ∧ rest = rest' := by
  obtain ⟨skipped, selector, between, method⟩ := p
  obtain ⟨skipped', selector', between', method'⟩ := q
  simp only [Piece.nodes, List.append_assoc, List.cons_append, List.nil_append] at h
  obtain ⟨rfl, rfl, hafter⟩ := append_cons_inj h hp.skipped hp.selector hq.skipped hq.selector
  obtain ⟨rfl, -, hmethod⟩ := append_cons_inj hafter hp.between rfl hq.between rfl
  obtain ⟨rfl, rfl⟩ := List.cons.inj hmethod
  exact ⟨rfl, rfl⟩

/-- In a tail there is no room for a piece, whose selector is not the last of its nodes. -/
theorem Piece.not_tail {p : Piece} (hp : p.Sought) {rest : List Node}
    (h : ∀ n ∈ (p.nodes ++ rest).dropLast, isSelector n = false) : False := by
  have hmem : p.selector ∈ (p.nodes ++ rest).dropLast := by
    have heq : p.nodes ++ rest =
        (p.skipped ++ [p.selector]) ++ (p.between ++ .run :: p.method :: rest) := by
      simp [Piece.nodes]
    rw [heq, List.dropLast_append_of_ne_nil (by simp)]
    exact List.mem_append_left _ (List.mem_append_right _ (List.mem_singleton_self _))
  exact absurd (hp.selector.symm.trans (h _ hmem)) (by simp)

/-- The first piece is the one at the front of the nodes, and the others divide what is after it. -/
theorem Divides.of_append {p : Piece} (hp : p.Sought) {nodes tail : List Node}
    {pieces : List Piece} (h : Divides (p.nodes ++ nodes) pieces tail) :
    ∃ later, pieces = p :: later ∧ Divides nodes later tail := by
  cases pieces with
  | nil =>
      have heq : p.nodes ++ nodes = tail := h.nodes_eq
      have htail := h.tail
      rw [← heq] at htail
      exact (Piece.not_tail hp htail).elim
  | cons q later =>
      have heq := h.nodes_eq
      rw [List.flatMap_cons, List.append_assoc] at heq
      obtain ⟨rfl, rfl⟩ := Piece.nodes_append_inj hp (h.sought q List.mem_cons_self) heq
      exact ⟨later, rfl, rfl, fun x hx => h.sought x (List.mem_cons_of_mem p hx), h.tail⟩

theorem Divides.unique {nodes tail tail' : List Node} {pieces pieces' : List Piece}
    (h : Divides nodes pieces tail) (h' : Divides nodes pieces' tail') :
    pieces' = pieces ∧ tail' = tail := by
  induction pieces generalizing nodes pieces' with
  | nil =>
      cases pieces' with
      | nil => exact ⟨rfl, h'.nodes_eq.symm.trans h.nodes_eq⟩
      | cons q later =>
          have hq := h'.sought q List.mem_cons_self
          have heq := h'.nodes_eq
          rw [List.flatMap_cons, List.append_assoc] at heq
          rw [heq] at h
          obtain ⟨later', hnil, -⟩ := h.of_append hq
          cases hnil
  | cons p rest ih =>
      have hp := h.sought p List.mem_cons_self
      have heq := h.nodes_eq
      rw [List.flatMap_cons, List.append_assoc] at heq
      rw [heq] at h h'
      obtain ⟨rest', hrest, hdivides⟩ := h.of_append hp
      obtain ⟨later, rfl, hlater⟩ := h'.of_append hp
      cases hrest
      obtain ⟨rfl, rfl⟩ := ih hdivides hlater
      exact ⟨rfl, rfl⟩

/-! ## The pieces of a compilation -/

theorem isSelector_eq_false_of_params (children : List Node) (inverted : Bool) :
    isSelector (.params children inverted) = false := rfl

/-- A node that cannot be a selector goes with what comes after it. -/
theorem Divides.cons {n : Node} {nodes tail : List Node} {pieces : List Piece}
    {segs : List Segment} (hn : isSelector n = false) (h : Divides nodes pieces tail)
    (hread : List.Forall₂ Piece.ReadAs pieces segs) :
    ∃ pieces' tail', Divides (n :: nodes) pieces' tail' ∧
      List.Forall₂ Piece.ReadAs pieces' segs := by
  cases hread with
  | nil =>
      refine ⟨[], n :: tail, ⟨by rw [h.nodes_eq]; rfl, nofun, ?_⟩, .nil⟩
      intro m hm
      cases tail with
      | nil => cases hm
      | cons t later =>
          rw [List.dropLast_cons_cons] at hm
          rcases List.mem_cons.mp hm with rfl | hm
          · exact hn
          · exact h.tail m hm
  | @cons p seg later segs hp hlater =>
      have hsought := h.sought p List.mem_cons_self
      refine ⟨{ p with skipped := n :: p.skipped } :: later, tail, ⟨?_, ?_, h.tail⟩,
        .cons hp hlater⟩
      · rw [h.nodes_eq]
        rfl
      · intro q hq
        rcases List.mem_cons.mp hq with rfl | hq
        · refine ⟨?_, hsought.selector, hsought.between⟩
          exact List.forall_mem_cons.mpr ⟨hn, hsought.skipped⟩
        · exact h.sought q (List.mem_cons_of_mem p hq)

theorem exists_divides_of_takeParams {nodes tail : List Node} {pieces : List Piece}
    {segs : List Segment} (h : Divides (takeParams nodes).2 pieces tail)
    (hread : List.Forall₂ Piece.ReadAs pieces segs) :
    ∃ pieces' tail', Divides nodes pieces' tail' ∧ List.Forall₂ Piece.ReadAs pieces' segs := by
  unfold takeParams at h
  split at h
  · exact h.cons (isSelector_eq_false_of_params _ _) hread
  · exact ⟨pieces, tail, h, hread⟩

theorem exists_readAs_of_segments {instruction : String} {nodes : List Node} {segs : List Segment}
    (h : segments instruction nodes = segs.map Except.ok) :
    ∃ pieces tail, Divides nodes pieces tail ∧ List.Forall₂ Piece.ReadAs pieces segs := by
  induction segs generalizing nodes with
  | nil =>
      refine ⟨[], nodes, ⟨rfl, nofun, ?_⟩, .nil⟩
      exact seek_eq_none_iff.mp (seek_of_segments_eq_nil h)
  | cons seg later ih =>
      obtain ⟨selector, next, rest, left, hs, hread, hleft⟩ := exists_of_segments_eq_cons h
      obtain ⟨skipped, rfl, hskipped, hselector⟩ := seek_eq_some hs
      obtain ⟨between, method, after, heq, hbetween, hfrom, rfl⟩ := readSegment_eq_ok hread
      obtain ⟨pieces', tail', hdivides', hread'⟩ := ih hleft
      obtain ⟨pieces, tail, hdivides, hpieces⟩ := exists_divides_of_takeParams hdivides' hread'
      refine ⟨⟨skipped, selector, between, method⟩ :: pieces, tail, ⟨?_, ?_, hdivides.tail⟩,
        .cons ⟨after, hfrom⟩ hpieces⟩
      · rw [heq, hdivides.nodes_eq]
        simp [Piece.nodes]
      · refine List.forall_mem_cons.mpr ⟨⟨hskipped, hselector, hbetween⟩, hdivides.sought⟩

theorem Piece.ReadAs.gives {σ : Type} {registry : Registry σ} {p : Piece} {seg : Segment} {r : Rule}
    {s t : σ} (h : p.ReadAs seg) (hr : Rule.MadeOf registry seg r s t) : p.Gives r := by
  obtain ⟨_, hgroups, hinverted, hmethod, -⟩ := h
  obtain ⟨factory, args, transformer, -, -, -, rfl⟩ := hr
  exact ⟨hgroups, hinverted, seg.method, hmethod, rfl⟩

theorem forall₂_gives {σ : Type} {registry : Registry σ} {pieces : List Piece}
    {segs : List Segment} {rules : List Rule} {s u : σ}
    (hread : List.Forall₂ Piece.ReadAs pieces segs)
    (hmade : Threads (Rule.MadeOf registry) segs rules s u) :
    List.Forall₂ Piece.Gives pieces rules := by
  induction hmade generalizing pieces with
  | nil s =>
      cases hread
      exact .nil
  | @cons seg r segs rules s t u hr _ ih =>
      obtain ⟨p, later, hp, hlater, rfl⟩ := List.forall₂_cons_right_iff.mp hread
      exact .cons (hp.gives hr) (ih hlater)

theorem exists_divides_of_segments {σ : Type} {registry : Registry σ} {instruction : String}
    {nodes : List Node} {segs : List Segment} {rules : List Rule} {s u : σ}
    (h : segments instruction nodes = segs.map Except.ok)
    (hmade : Threads (Rule.MadeOf registry) segs rules s u) :
    ∃ pieces tail, Divides nodes pieces tail ∧ List.Forall₂ Piece.Gives pieces rules := by
  obtain ⟨pieces, tail, hdivides, hread⟩ := exists_readAs_of_segments h
  exact ⟨pieces, tail, hdivides, forall₂_gives hread hmade⟩

/-! ## Contiguous pieces -/

/-- The documented shape of nodes: what is not a selector may stand before a selector, but between
a selector and its method there is the run marker alone. -/
inductive Documented : List Node → Prop
  | tail {nodes : List Node} (h : ∀ n ∈ nodes.dropLast, isSelector n = false) : Documented nodes
  | segment {skipped : List Node} {selector method : Node} {rest : List Node}
      (hskipped : ∀ n ∈ skipped, isSelector n = false) (hselector : isSelector selector = true)
      (hrest : Documented rest) : Documented (skipped ++ selector :: .run :: method :: rest)

theorem Documented.exists_divides {nodes : List Node} (h : Documented nodes) :
    ∃ pieces tail, Divides nodes pieces tail ∧ ∀ p ∈ pieces, p.between = [] := by
  induction h with
  | tail h => exact ⟨[], _, ⟨rfl, nofun, h⟩, nofun⟩
  | @segment skipped selector method rest hskipped hselector _ ih =>
      obtain ⟨pieces, tail, hdivides, hbetween⟩ := ih
      refine ⟨⟨skipped, selector, [], method⟩ :: pieces, tail, ⟨?_, ?_, hdivides.tail⟩, ?_⟩
      · rw [hdivides.nodes_eq]
        simp [Piece.nodes]
      · exact List.forall_mem_cons.mpr ⟨⟨hskipped, hselector, nofun⟩, hdivides.sought⟩
      · exact List.forall_mem_cons.mpr ⟨rfl, hbetween⟩

theorem Divides.documented {nodes tail : List Node} {pieces : List Piece}
    (h : Divides nodes pieces tail) (hbetween : ∀ p ∈ pieces, p.between = []) :
    Documented nodes := by
  induction pieces generalizing nodes with
  | nil =>
      rw [h.nodes_eq]
      exact .tail h.tail
  | cons p later ih =>
      obtain ⟨hp, hlater⟩ := List.forall_mem_cons.mp hbetween
      have hsought := h.sought p List.mem_cons_self
      have hrest : Documented (later.flatMap Piece.nodes ++ tail) :=
        ih ⟨rfl, fun x hx => h.sought x (List.mem_cons_of_mem p hx), h.tail⟩ hlater
      have hnodes : nodes = p.skipped ++ p.selector :: .run :: p.method ::
          (later.flatMap Piece.nodes ++ tail) := by
        rw [h.nodes_eq]
        simp [Piece.nodes, hp]
      rw [hnodes]
      exact .segment hsought.skipped hsought.selector hrest

theorem Divides.forall_between_iff {nodes tail : List Node} {pieces : List Piece}
    (h : Divides nodes pieces tail) : (∀ p ∈ pieces, p.between = []) ↔ Documented nodes := by
  constructor
  · exact h.documented
  · intro hdocumented
    obtain ⟨pieces', tail', hdivides, hbetween⟩ := hdocumented.exists_divides
    obtain ⟨rfl, -⟩ := h.unique hdivides
    exact hbetween

/-- When an instruction compiles, its nodes are divided into the pieces of its rules, in one way,
and no selector is passed over between a selector and its run marker exactly when the nodes have the
documented shape. -/
theorem compile_pairs {σ : Type} {registry : Registry σ} {instruction : String} {e : Evaluator}
    {s u : σ} (h : (compile registry instruction).runFrom s = (.ok e, u)) :
    ∃ pieces tail, Divides (parse instruction) pieces tail ∧
      List.Forall₂ Piece.Gives pieces e.rules ∧
      (∀ pieces' tail', Divides (parse instruction) pieces' tail' →
        pieces' = pieces ∧ tail' = tail) ∧
      ((∀ p ∈ pieces, p.between = []) ↔ Documented (parse instruction)) := by
  obtain ⟨-, segs, -, hsegs, hmade⟩ := compileNodes_eq_ok_iff.mp h
  obtain ⟨pieces, tail, hdivides, hgives⟩ := exists_divides_of_segments hsegs hmade
  exact ⟨pieces, tail, hdivides, hgives, fun _ _ h' => hdivides.unique h',
    hdivides.forall_between_iff⟩

/-- The part of an instruction before a chain marker is no rule of its own when it has no run
marker; its selector is paired with the marker of the part after it. -/
theorem parse_unrun_chain : parse "a|b=zero" = [.scalar (.text "a") false, .chain,
    .scalar (.text "b") false, .run, .scalar (.text "zero") false] := by cbv

theorem compile_pairs_unrun :
    ∃ e u pieces tail, (compile (.builtin : Registry Unit) "a|b=zero").runFrom () = (.ok e, u) ∧
      Divides (parse "a|b=zero") pieces tail ∧ List.Forall₂ Piece.Gives pieces e.rules ∧
      ((∀ p ∈ pieces, p.between = []) ↔ Documented (parse "a|b=zero")) := by
  have hcompiles :
      ((compile (.builtin : Registry Unit) "a|b=zero").runFrom ()).1.toBool = true := by
    decide +kernel
  rcases h : (compile (.builtin : Registry Unit) "a|b=zero").runFrom () with ⟨e | e, u⟩
  · rw [h] at hcompiles
    cases hcompiles
  · obtain ⟨pieces, tail, hdivides, hgives, -, hiff⟩ := compile_pairs h
    exact ⟨e, u, pieces, tail, rfl, hdivides, hgives, hiff⟩

theorem exists_rule_not_contiguous :
    ¬∀ e u, (compile (.builtin : Registry Unit) "a|b=zero").runFrom () = (.ok e, u) →
      ∀ r ∈ e.rules, ∃ before selector method after,
        parse "a|b=zero" = before ++ selector :: .run :: method :: after ∧
          (Piece.mk [] selector [] method).Gives r := by
  intro hall
  have hgroups : ((compile (.builtin : Registry Unit) "a|b=zero").runFrom ()).1.toOption.map
      (fun e => e.rules.map (·.groups)) = some [[⟨"a", false⟩]] := by decide +kernel
  rcases h : (compile (.builtin : Registry Unit) "a|b=zero").runFrom () with ⟨e | e, u⟩
  · rw [h] at hgroups
    cases hgroups
  · rw [h] at hgroups
    have hrules : e.rules.map (·.groups) = [[⟨"a", false⟩]] := Option.some.inj hgroups
    obtain ⟨r, later, hr, hfirst, -⟩ := List.map_eq_cons_iff.mp hrules
    obtain ⟨before, selector, method, after, hparse, hgives, -⟩ :=
      hall e u h r (hr ▸ List.mem_cons_self)
    -- the one run marker stands right after the selector of the second part
    have hselector : selector = .scalar (.text "b") false := by
      rw [parse_unrun_chain] at hparse
      rcases before with _ | ⟨x, _ | ⟨y, _ | ⟨z, _ | ⟨v, _ | ⟨x', before⟩⟩⟩⟩⟩ <;> simp_all
    have hb : selectGroups (.scalar (.text "b") false) = .ok [⟨"b", false⟩] := by decide +kernel
    rw [hselector, hfirst] at hgives
    exact absurd (hb.symm.trans hgives) (by decide)

end Redaction
