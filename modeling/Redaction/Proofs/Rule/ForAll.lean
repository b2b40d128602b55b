import Redaction.Proofs.Rule.Decision
import Redaction.Proofs.Rule.Written

/-!
# Instructions for all groups

An instruction of one rule that selects every group, with parameters in brackets that may be more
than the grammar has. It compiles if the factory takes the arguments, and in every call, whatever
its groups are, the rule is run.
-/

namespace Redaction

open Redaction.Instruction Redaction.Instruction.Grammar Redaction.Text

/-- The instruction that has a method run for all groups. -/
def forAll (method params : String) : String := wildcard ++ "=" ++ method ++ "(" ++ params ++ ")"

/-- The rule of such an instruction. -/
def ruleForAll (method : String) (transformer : Transformer) : Rule :=
  ⟨[⟨wildcard, false⟩], false, lower method, transformer⟩

def wildcardName : Identifier := identifier wildcard rfl rfl (by decide)

theorem lower_wildcard : lower wildcard = wildcard := by decide +kernel

/-! ## Nodes -/

variable {rows : List (List Char)} {tokens : List Token}

theorem parse_forAll (method : Identifier) (h : List.Forall₂ ReadsAs rows tokens) :
    parse (forAll method.text (String.ofList ([','].intercalate rows))) =
      [.scalar (.text wildcard) false, .run, .scalar (.text method.text) false,
        .params (tokens.map (Node.ofToken · false)) false] := by
  have htext : (forAll method.text (String.ofList ([','].intercalate rows))).toList =
      (Selector.single wildcardName).write ++
        '=' :: (method.text.toList ++ '(' :: ([','].intercalate rows ++ [')'])) := by
    simp [forAll, wildcardName, identifier, Selector.write]
  have hstops : Stops ('(' :: ([','].intercalate rows ++ [')'])) := stops_char .openParams _
  have hparams := readNodes_entries h []
  rw [List.cons_append, readNodes_nil] at hparams
  rw [parse_eq_parseCharacters, parseCharacters, htext, readNodes_selector,
    readNodes_identifier method false hstops, hparams]
  rfl

theorem arguments_ofToken {args : List Literal}
    (h : List.Forall₂ (fun token arg => token.literal = (arg, false)) tokens args) :
    arguments (tokens.map (Node.ofToken · false)) = .ok args := by
  rw [arguments, mapM_eq_ok_iff, List.forall₂_map_left_iff]
  refine h.imp fun token arg hliteral => ?_
  simp [Node.ofToken, hliteral]

theorem segments_forAll (instruction method : String) (params : List Node) :
    segments instruction [.scalar (.text wildcard) false, .run, .scalar (.text method) false,
      .params params false] = [.ok ⟨[⟨wildcard, false⟩], false, method, params⟩] := by
  have hseek : seek isSelector [.scalar (.text wildcard) false, .run,
      .scalar (.text method) false, .params params false] =
        some (.scalar (.text wildcard) false, .run,
          [.scalar (.text method) false, .params params false]) := rfl
  have hgroups : selectGroups (.scalar (.text wildcard) false) = .ok [⟨wildcard, false⟩] :=
    congrArg (fun name => Except.ok [GroupSelector.mk name false]) lower_wildcard
  rw [segments_of_seek hseek (readSegment_run hgroups rfl)]
  exact congrArg _ (segments_of_seek_eq_none rfl)

variable {σ : Type}

theorem compile_forAll {registry : Registry σ} {method : Identifier}
    (h : List.Forall₂ ReadsAs rows tokens) {args : List Literal}
    (hargs : List.Forall₂ (fun token arg => token.literal = (arg, false)) tokens args)
    {factory : Factory σ} (hf : registry.find? method.text = some factory)
    {transformer : Transformer} {s t : σ} (hrun : (factory args).runFrom s = (.ok transformer, t)) :
    (compile registry (forAll method.text (String.ofList ([','].intercalate rows)))).runFrom s =
      (.ok ⟨forAll method.text (String.ofList ([','].intercalate rows)),
        [ruleForAll method.text transformer]⟩, t) := by
  rw [compile, parse_forAll method h, compileNodes_eq_ok_iff]
  refine ⟨rfl, [⟨[⟨wildcard, false⟩], false, method.text, tokens.map (Node.ofToken · false)⟩],
    List.cons_ne_nil _ _, segments_forAll _ method.text _, ?_⟩
  exact .cons ⟨factory, args, transformer, hf, arguments_ofToken hargs, hrun, rfl⟩ (.nil t)

/-! ## Calls -/

theorem evaluate_forAll (instruction method : String) (transformer : Transformer) (value : Scalar)
    (groups : List String) :
    (Evaluator.mk instruction [ruleForAll method transformer]).evaluate value groups =
      (⟨true, ·⟩) <$> transformer value := by
  have hrelevant : ∀ group, (ruleForAll method transformer).IsRelevant group := fun group =>
    .inl (.inr ⟨⟨wildcard, false⟩, List.mem_singleton_self _, .inr rfl⟩)
  obtain ⟨group, later, hgroups⟩ : ∃ group later, consulted groups = group :: later := by
    cases groups with
    | nil => exact ⟨noGroup, [], rfl⟩
    | cons g rest => exact ⟨lower g, rest.map lower, rfl⟩
  have hdecided : (Evaluator.mk instruction [ruleForAll method transformer]).DecidedBy groups
      (ruleForAll method transformer) group :=
    ⟨hrelevant group, ⟨[], later, hgroups, nofun⟩, [], [], rfl, nofun⟩
  have hruns : (ruleForAll method transformer).RunsFor group := by
    intro selector hn
    obtain rfl : selector = ⟨wildcard, false⟩ := List.mem_singleton.mp (List.mem_of_find?_eq_some hn)
    rfl
  rw [Evaluator.evaluate, Evaluator.evaluateWith_of_decidedBy hdecided,
    Rule.carryOut_of_runsFor hruns]
  rfl

/-- The instruction compiles to one rule, which changes the characters of every text in every call,
whatever the groups are. -/
def ChangesTexts (instruction : String) (change : List Char → List Char) : Prop :=
  ∀ (σ : Type) (s : σ), ∃ r, (compile .builtin instruction).runFrom s =
    (.ok ⟨instruction, [r]⟩, s) ∧
      ∀ (text : String) (groups : List String),
        (Evaluator.mk instruction [r]).evaluate (.text text) groups =
          .ok ⟨true, .text (String.ofList (change text.toList))⟩

theorem changesTexts_forAll {method : Identifier} (h : List.Forall₂ ReadsAs rows tokens)
    {args : List Literal}
    (hargs : List.Forall₂ (fun token arg => token.literal = (arg, false)) tokens args)
    {make : List Literal → Transformer}
    (hf : ∀ σ : Type, (Registry.builtin : Registry σ).find? method.text = some (.ofFunction make))
    {name : String} {change : List Char → List Char}
    (hmake : make args = Method.onText name change) :
    ChangesTexts (forAll method.text (String.ofList ([','].intercalate rows))) change := by
  intro σ s
  refine ⟨ruleForAll method.text (make args), compile_forAll h hargs (hf σ) rfl, ?_⟩
  intro text groups
  rw [evaluate_forAll, hmake]
  rfl

end Redaction
