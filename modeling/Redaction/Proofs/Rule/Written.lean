import Redaction.Proofs.Instruction.RoundTrip
import Redaction.Proofs.Rule.Segments

/-!
# Compiling what the grammar writes

An instruction of the grammar compiles to the rules that it spells, however many there are and
whatever shapes adjoin: each written rule is one segment, and its parameters end where the chain
marker or the instruction does.
-/

namespace Redaction.Instruction.Grammar

open Redaction.Text

variable {σ : Type}

def Rule.arguments (w : Rule) : List Argument := w.params.getD []

/-- The groups that a written rule names. The mark before a list inverts every name in it. -/
def Rule.groups (w : Rule) : List GroupSelector :=
  w.selector.groups.map fun g => ⟨lower g.name.text, w.inverted || g.inverted⟩

def Rule.segment (w : Rule) : Segment :=
  ⟨w.groups, w.inverted, w.method.text, w.arguments.map Argument.node⟩

/-- A compiled rule is the one that a written rule spells, and its transformer is what the method's
factory makes of the written arguments. -/
structure Rule.Spells (registry : Registry σ) (w : Rule) (r : Redaction.Rule) (s t : σ) : Prop where
  groups_eq : r.groups = w.groups
  inverted_eq : r.runOnNoMatch = w.inverted
  method_eq : r.method = lower w.method.text
  exists_call : ∃ factory, registry.find? w.method.text = some factory ∧
    (factory (w.arguments.map Argument.literal)).runFrom s = (.ok r.transformer, t)

/-! ## Segments of written rules -/

theorem Selector.isSelector_node (s : Selector) (inverted : Bool) :
    isSelector (s.node inverted) = true := by
  cases s <;> rfl

theorem Selector.isInverted_node (s : Selector) (inverted : Bool) :
    (s.node inverted).isInverted = inverted := by
  cases s <;> rfl

theorem Selector.selectGroups_node (s : Selector) (inverted : Bool) :
    selectGroups (s.node inverted) =
      .ok (s.groups.map fun g => ⟨lower g.name.text, inverted || g.inverted⟩) := by
  cases s with
  | single name =>
      rw [Selector.node, Selector.groups, List.map_singleton, Bool.or_false]
      rfl
  | list groups h =>
      change (groups.map Group.node).mapM _ = _
      rw [mapM_eq_ok_iff, Selector.groups, List.forall₂_map_left_iff, List.forall₂_map_right_iff]
      exact List.forall₂_same.mpr fun g _ => rfl

theorem Rule.takeParams_append (w : Rule) {rest : List Node} (hrest : (takeParams rest).1 = [] ∧
    (takeParams rest).2 = rest) :
    takeParams (w.paramNodes ++ rest) = (w.arguments.map Argument.node, rest) := by
  unfold Rule.paramNodes Rule.arguments
  cases w.params with
  | none => exact Prod.ext hrest.1 hrest.2
  | some args => rfl

/-- The nodes of a written rule are one segment, and a chain marker before them is passed over. -/
theorem Rule.segments_append (w : Rule) {instruction : String} {before rest : List Node}
    (hbefore : ∀ n ∈ before, isSelector n = false)
    (hrest : (takeParams rest).1 = [] ∧ (takeParams rest).2 = rest) :
    segments instruction (before ++ (w.nodes ++ rest)) =
      .ok w.segment :: segments instruction rest := by
  have hseek : seek isSelector (before ++ (w.nodes ++ rest)) = some (w.selector.node w.inverted,
      .run, .scalar (.text w.method.text) false :: (w.paramNodes ++ rest)) :=
    seek_append hbefore (w.selector.isSelector_node w.inverted) .run _
  have hread : readSegment instruction (w.selector.node w.inverted)
      (.run :: .scalar (.text w.method.text) false :: (w.paramNodes ++ rest)) =
        .ok (_, (takeParams (w.paramNodes ++ rest)).2) :=
    readSegment_run (w.selector.selectGroups_node w.inverted) rfl
  rw [w.takeParams_append hrest, w.selector.isInverted_node] at hread
  exact segments_of_seek hseek hread

theorem segments_nodes (instruction : String) (rules : List Rule) :
    segments instruction ([Node.chain].intercalate (rules.map Rule.nodes)) =
      (rules.map Rule.segment).map Except.ok := by
  suffices h : ∀ before, (∀ n ∈ before, isSelector n = false) → (rules = [] → before = []) →
      segments instruction (before ++ [Node.chain].intercalate (rules.map Rule.nodes)) =
        (rules.map Rule.segment).map Except.ok from h [] nofun fun _ => rfl
  induction rules with
  | nil =>
      intro before _ hnil
      rw [hnil rfl]
      exact segments_of_seek_eq_none rfl
  | cons w later ih =>
      intro before hbefore _
      cases later with
      | nil =>
          have h : segments instruction (before ++ (w.nodes ++ [])) =
              .ok w.segment :: segments instruction [] := w.segments_append hbefore ⟨rfl, rfl⟩
          rw [List.append_nil] at h
          rw [List.map_singleton, List.intercalate_singleton, h]
          exact congrArg _ (segments_of_seek_eq_none rfl)
      | cons w' later =>
          have hrest := ih [.chain] (by simp [isSelector, Node.kind]) nofun
          rw [List.singleton_append] at hrest
          rw [List.map_cons, List.map_cons, List.intercalate_cons_cons, ← List.map_cons,
            List.append_assoc, List.singleton_append, w.segments_append hbefore ⟨rfl, rfl⟩, hrest]
          rfl

theorem arguments_nodes (args : List Argument) :
    Redaction.arguments (args.map Argument.node) = .ok (args.map Argument.literal) := by
  rw [Redaction.arguments, mapM_eq_ok_iff, List.forall₂_map_left_iff, List.forall₂_map_right_iff]
  exact List.forall₂_same.mpr fun a _ => rfl

/-- Rules that the written rules spell, each made in the state that the one before has left. -/
theorem runFrom_compile_write {registry : Registry σ} {rules : List Rule} (hne : rules ≠ [])
    {compiled : List Redaction.Rule} {s u : σ}
    (h : Threads (Rule.Spells registry) rules compiled s u) :
    (compile registry (write rules)).runFrom s = (.ok ⟨write rules, compiled⟩, u) := by
  rw [compile, parse_write, compileNodes_eq_ok_iff]
  refine ⟨rfl, rules.map Rule.segment, by simpa using hne, segments_nodes _ rules, ?_⟩
  refine h.map fun w r a b hw => ?_
  obtain ⟨hgroups, hinverted, hmethod, factory, hf, hrun⟩ := hw
  refine ⟨factory, _, r.transformer, hf, arguments_nodes w.arguments, hrun, ?_⟩
  obtain ⟨groups, inverted, method, transformer⟩ := r
  cases hgroups
  cases hinverted
  cases hmethod
  rfl

/-- Every instruction of the grammar compiles to exactly the rules that it spells, if the registry
has their methods and the factories take the written arguments. -/
theorem compile_write {registry : Registry σ} {rules : List Rule} (hne : rules ≠ [])
    (h : ∀ w ∈ rules, ∃ factory, registry.find? w.method.text = some factory ∧
      ∀ s, ∃ transformer t,
        (factory (w.arguments.map Argument.literal)).runFrom s = (.ok transformer, t)) (s : σ) :
    ∃ compiled u, (compile registry (write rules)).runFrom s = (.ok ⟨write rules, compiled⟩, u) ∧
      Threads (Rule.Spells registry) rules compiled s u := by
  have hstep : ∀ w ∈ rules, ∀ a, ∃ r b, Rule.Spells registry w r a b := by
    intro w hw a
    obtain ⟨factory, hf, haccepts⟩ := h w hw
    obtain ⟨transformer, b, hrun⟩ := haccepts a
    exact ⟨⟨w.groups, w.inverted, lower w.method.text, transformer⟩, b, rfl, rfl, rfl, factory,
      hf, hrun⟩
  obtain ⟨compiled, u, hspells⟩ := Threads.exists_of_forall hstep s
  exact ⟨compiled, u, runFrom_compile_write hne hspells, hspells⟩

def identifier (text : String)
    (hplain : (text.toList.all fun c => (Delimiter.ofChar? c).isNone) = true)
    (hother : (text.toList.any fun c => !c.isDigit && c != '.' && c != '-') = true)
    (htruth : ∀ b : Bool, text.toList.map Char.toLower ≠ (Literal.writeBool b).toList) :
    Identifier where
  text := text
  plain c hc := Option.isNone_iff_eq_none.mp (List.all_eq_true.mp hplain c hc)
  other := by
    obtain ⟨c, hc, h⟩ := List.any_eq_true.mp hother
    refine ⟨c, hc, ?_⟩
    simpa [and_assoc] using h
  not_truth := htruth

def maskedRules : List Rule :=
  [⟨true, .list [⟨false, identifier "csr" rfl rfl (by decide)⟩,
      ⟨true, identifier "Admin" rfl rfl (by decide)⟩] (List.cons_ne_nil _ _),
    identifier "star" rfl rfl (by decide),
    some [.int ⟨true, ['0', '4'], List.cons_ne_nil _ _, List.all_eq_true.mp rfl, by decide⟩]⟩,
   ⟨false, .single (identifier "user" rfl rfl (by decide)),
    identifier "ZERO" rfl rfl (by decide), none⟩]

theorem write_maskedRules : write maskedRules = "~[csr,~Admin]=star(-04)|user=ZERO" := by
  decide +kernel

theorem compile_write_masked :
    ∃ compiled u, (compile (.builtin : Registry Unit) "~[csr,~Admin]=star(-04)|user=ZERO").runFrom
        () = (.ok ⟨"~[csr,~Admin]=star(-04)|user=ZERO", compiled⟩, u) ∧
      Threads (Rule.Spells .builtin) maskedRules compiled () u := by
  have hmethods : ∀ w ∈ maskedRules, ∃ factory,
      (Registry.builtin : Registry Unit).find? w.method.text = some factory ∧
        ∀ s, ∃ transformer t,
          (factory (w.arguments.map Argument.literal)).runFrom s = (.ok transformer, t) := by
    refine List.forall_mem_cons.mpr ⟨⟨Method.star, rfl, fun s => ⟨_, s, rfl⟩⟩, ?_⟩
    refine List.forall_mem_cons.mpr ⟨⟨Method.zero, rfl, fun s => ⟨_, s, rfl⟩⟩, nofun⟩
  have h := compile_write (by simp [maskedRules]) hmethods ()
  rw [write_maskedRules] at h
  exact h

end Redaction.Instruction.Grammar
