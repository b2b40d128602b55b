import Redaction.Proofs.Rule.Chaining
import Redaction.Proofs.Text.LowerCase
import Redaction.Redactor

/-!
# Methods that are switched off

The registry of a redactor lacks the methods that its configuration switches off, and no others. A
registry takes part in a compilation only through the looked-up methods of the segments, one after
another, so the only instructions for which this makes a difference are those with a rule of such a
method. They fail at the first of these rules.
-/

namespace Redaction

open Redaction.Instruction Redaction.Text

/-- A configuration switches off a method, in whatever case it names it. -/
def Config.Disables (c : Config) (name : String) : Prop :=
  ∃ d ∈ c.disabledMethods, lower d = lower name

instance (c : Config) (name : String) : Decidable (c.Disables name) :=
  inferInstanceAs (Decidable (∃ d ∈ c.disabledMethods, lower d = lower name))

theorem Config.disables_lower (c : Config) (name : String) :
    c.Disables (lower name) ↔ c.Disables name := by
  unfold Disables
  rw [lower_lower]

variable {σ : Type}

/-! ## Registries -/

theorem Registry.find?_foldl_disable (names : List String) (r : Registry σ) (name : String) :
    (names.foldl disable r).find? name =
      if ∃ d ∈ names, lower d = lower name then none else r.find? name := by
  induction names generalizing r with
  | nil => simp
  | cons d rest ih =>
      rw [List.foldl_cons, ih, find?_disable]
      by_cases hd : lower d = lower name <;> simp [hd]

/-- The registry without the methods that a configuration switches off. -/
def Registry.without (r : Registry σ) (c : Config) : Registry σ :=
  c.disabledMethods.foldl disable r

variable {registry : Registry σ} {c : Config} {instruction : String}

theorem Registry.find?_without (registry : Registry σ) (c : Config) (name : String) :
    (registry.without c).find? name = if c.Disables name then none else registry.find? name :=
  find?_foldl_disable c.disabledMethods registry name

theorem Registry.find?_without_eq_some_iff {name : String} {factory : Factory σ} :
    (registry.without c).find? name = some factory ↔
      registry.find? name = some factory ∧ ¬c.Disables name := by
  rw [find?_without]
  split
  · next h => simp [h]
  · next h => simp [h]

/-! ## Rules -/

theorem compileSegment_without (registry : Registry σ) (c : Config) (instruction : String)
    (seg : Segment) :
    compileSegment (registry.without c) instruction seg =
      if c.Disables seg.method then throw (.unknownMethod seg.method)
      else compileSegment registry instruction seg := by
  unfold compileSegment
  rw [Registry.find?_without]
  by_cases h : c.Disables seg.method
  · rw [if_pos h, if_pos h]
  · rw [if_neg h, if_neg h]

theorem Rule.MadeOf.method_eq {seg : Segment} {r : Rule} {s t : σ}
    (h : Rule.MadeOf registry seg r s t) : r.method = lower seg.method := by
  obtain ⟨factory, args, transformer, -, -, -, rfl⟩ := h
  rfl

theorem Rule.madeOf_without_iff {seg : Segment} {r : Rule} {s t : σ} :
    Rule.MadeOf (registry.without c) seg r s t ↔
      Rule.MadeOf registry seg r s t ∧ ¬c.Disables r.method := by
  constructor
  · intro h
    rw [h.method_eq, Config.disables_lower]
    obtain ⟨factory, args, transformer, hfind, hmade⟩ := h
    obtain ⟨hfind, henabled⟩ := Registry.find?_without_eq_some_iff.mp hfind
    exact ⟨⟨factory, args, transformer, hfind, hmade⟩, henabled⟩
  · rintro ⟨h, henabled⟩
    rw [h.method_eq, Config.disables_lower] at henabled
    obtain ⟨factory, args, transformer, hfind, hmade⟩ := h
    have hfind := Registry.find?_without_eq_some_iff.mpr ⟨hfind, henabled⟩
    exact ⟨factory, args, transformer, hfind, hmade⟩

/-! ## Compilations -/

/-- Factories need not be steady for this, as both compilations make the same calls. -/
theorem compileNodes_without_eq_ok_iff {nodes : List Node} {e : Evaluator} {s u : σ} :
    (compileNodes (registry.without c) instruction nodes).runFrom s = (.ok e, u) ↔
      (compileNodes registry instruction nodes).runFrom s = (.ok e, u) ∧
        ∀ r ∈ e.rules, ¬c.Disables r.method := by
  rw [compileNodes_eq_ok_iff, compileNodes_eq_ok_iff]
  constructor
  · rintro ⟨hinstruction, segs, hne, hsegs, hmade⟩
    have hboth : Threads (fun seg r a b => Rule.MadeOf registry seg r a b ∧ ¬c.Disables r.method)
        segs e.rules s u := hmade.imp fun _ _ _ _ => Rule.madeOf_without_iff.mp
    obtain ⟨hmade, henabled⟩ := Threads.and_iff.mp hboth
    exact ⟨⟨hinstruction, segs, hne, hsegs, hmade⟩, henabled⟩
  · rintro ⟨⟨hinstruction, segs, hne, hsegs, hmade⟩, henabled⟩
    refine ⟨hinstruction, segs, hne, hsegs, ?_⟩
    have hboth := Threads.and_iff.mpr ⟨hmade, henabled⟩
    exact hboth.imp fun _ _ _ _ => Rule.madeOf_without_iff.mpr

theorem fst_runFrom_compileNodes_without_eq_ok_iff (hr : registry.Steady) {nodes : List Node}
    {e : Evaluator} (s t : σ) :
    ((compileNodes (registry.without c) instruction nodes).runFrom s).1 = .ok e ↔
      ((compileNodes registry instruction nodes).runFrom t).1 = .ok e ∧
        ∀ r ∈ e.rules, ¬c.Disables r.method := by
  rw [steady_compileNodes hr instruction nodes t s]
  constructor
  · intro h
    obtain ⟨hcompiles, henabled⟩ :=
      compileNodes_without_eq_ok_iff.mp (Prod.ext (y := (_, _)) h rfl)
    exact ⟨congrArg Prod.fst hcompiles, henabled⟩
  · rintro ⟨h, henabled⟩
    have hcompiles := compileNodes_without_eq_ok_iff.mpr
      ⟨Prod.ext (y := (_, _)) h rfl, henabled⟩
    exact congrArg Prod.fst hcompiles

/-- The rules have the methods of the segments, in lowercase. -/
theorem findIdx?_disables {segs : List Segment} {rules : List Rule} {s u : σ}
    (hmade : Threads (Rule.MadeOf registry) segs rules s u) :
    rules.findIdx? (fun r => c.Disables r.method) =
      segs.findIdx? fun seg => c.Disables seg.method := by
  induction hmade with
  | nil s => rfl
  | cons h _ ih =>
      rw [List.findIdx?_cons, List.findIdx?_cons, ih, h.method_eq]
      simp only [Config.disables_lower]

theorem exists_first_disabled {segs : List Segment} {rules : List Rule} {s u : σ}
    (hmade : Threads (Rule.MadeOf registry) segs rules s u)
    (h : ∃ r ∈ rules, c.Disables r.method) :
    ∃ i seg, rules.findIdx? (fun r => c.Disables r.method) = some i ∧ segs[i]? = some seg ∧
      segs.find? (fun seg => c.Disables seg.method) = some seg := by
  have hany : (rules.findIdx? fun r => c.Disables r.method).isSome = true := by
    rw [List.findIdx?_isSome]
    simpa using h
  obtain ⟨i, hi⟩ := Option.isSome_iff_exists.mp hany
  have hsegment := findIdx?_disables hmade ▸ hi
  obtain ⟨hlt, -⟩ := List.findIdx?_eq_some_iff_getElem.mp hsegment
  refine ⟨i, segs[i], hi, List.getElem?_eq_getElem hlt, ?_⟩
  rw [List.find?_eq_bind_findIdx?_getElem?, hsegment]
  exact List.getElem?_eq_getElem hlt

theorem failure?_ruleOf_without (hr : registry.Steady) {seg : Segment} {r : Rule} {a b : σ}
    (h : Rule.MadeOf registry seg r a b) (s : σ) :
    failure? (ruleOf (registry.without c) instruction s (.ok seg)) =
      if c.Disables seg.method then some (.unknownMethod seg.method) else none := by
  have hmakes : ((compileSegment registry instruction seg).runFrom s).1 = .ok r := by
    rw [steady_compileSegment hr instruction seg s a, compileSegment_eq_ok_iff.mpr h]
  change failure? ((compileSegment (registry.without c) instruction seg).runFrom s).1 = _
  rw [compileSegment_without]
  split
  · rfl
  · rw [hmakes]
    rfl

/-- The first segment of a method that is switched off ends the compilation, since rules were made
of those before it. -/
theorem fst_runFrom_compileNodes_without (hr : registry.Steady) {nodes : List Node}
    {segs : List Segment} {rules : List Rule} {t u : σ}
    (hsegs : segments instruction nodes = segs.map Except.ok)
    (hmade : Threads (Rule.MadeOf registry) segs rules t u) {seg : Segment}
    (hfirst : segs.find? (fun seg => c.Disables seg.method) = some seg) (s : σ) :
    ((compileNodes (registry.without c) instruction nodes).runFrom s).1 =
      .error (.unknownMethod seg.method) := by
  obtain ⟨hdisabled, before, after, rfl, hbefore⟩ := List.find?_eq_some_iff_append.mp hfirst
  have hmakes : ∀ x ∈ before ++ seg :: after, ∃ r a b, Rule.MadeOf registry x r a b := by
    intro x hx
    obtain ⟨r, -, hr⟩ := exists_mem_of_forall₂ hmade.forall₂.flip hx
    exact ⟨r, hr⟩
  have hfails : failure? (((before ++ seg :: after).map Except.ok).mapM
      (ruleOf (registry.without c) instruction s)) = some (.unknownMethod seg.method) := by
    rw [failure?_mapM, List.findSome?_map]
    refine List.findSome?_eq_some_iff.mpr ⟨before, seg, after, rfl, ?_, ?_⟩
    · obtain ⟨r, a, b, hmadeOf⟩ := hmakes seg (by simp)
      rw [Function.comp_apply, failure?_ruleOf_without hr hmadeOf,
        if_pos (of_decide_eq_true hdisabled)]
    · intro x hx
      obtain ⟨r, a, b, hmadeOf⟩ := hmakes x (List.mem_append_left _ hx)
      have henabled : ¬c.Disables x.method := by simpa using hbefore x hx
      rw [Function.comp_apply, failure?_ruleOf_without hr hmadeOf, if_neg henabled]
  have hsteady : (registry.without c).Steady := hr.foldl_disable c.disabledMethods
  rw [fst_runFrom_compileNodes hsteady, hsegs, if_neg (by simp), failure?_eq_some_iff.mp hfails]
  rfl

/-- Exactly the methods that the configuration switches off are gone. Of the instructions that
compile, those with a rule of such a method compile no more, and the message has the method of the
first such rule as it is written. -/
theorem Redactor.compile_ofConfig (hr : registry.Steady) (c : Config) (elementKey : Value → String)
    (instruction : String) (s t : σ) :
    (∀ name factory, (ofConfig registry c elementKey).registry.find? name = some factory ↔
      registry.find? name = some factory ∧ ¬c.Disables name) ∧
    (∀ e, (((ofConfig registry c elementKey).compile instruction).runFrom s).1 = .ok e ↔
      ((Redaction.compile registry instruction).runFrom t).1 = .ok e ∧
        ∀ r ∈ e.rules, ¬c.Disables r.method) ∧
    ∀ e, ((Redaction.compile registry instruction).runFrom t).1 = .ok e →
      (∃ r ∈ e.rules, c.Disables r.method) →
        ∃ pieces tail i p name, Divides (parse instruction) pieces tail ∧
          List.Forall₂ Piece.Gives pieces e.rules ∧
          e.rules.findIdx? (fun r => c.Disables r.method) = some i ∧ pieces[i]? = some p ∧
          p.method.text? = some name ∧
          (((ofConfig registry c elementKey).compile instruction).runFrom s).1 =
            .error (.unknownMethod name) := by
  refine ⟨fun name factory => Registry.find?_without_eq_some_iff, ?_, ?_⟩
  · exact fun e => fst_runFrom_compileNodes_without_eq_ok_iff hr s t
  · intro e he hdisabled
    obtain ⟨-, segs, -, hsegs, hmade⟩ := compileNodes_eq_ok_iff.mp (Prod.ext (y := (_, _)) he rfl)
    obtain ⟨pieces, tail, hdivides, hread⟩ := exists_readAs_of_segments hsegs
    obtain ⟨i, seg, hi, hseg, hfirst⟩ := exists_first_disabled hmade hdisabled
    obtain ⟨p, hp, _, -, -, hname, -⟩ := exists_getElem?_of_forall₂ hread.flip hseg
    exact ⟨pieces, tail, i, p, seg.method, hdivides, forall₂_gives hread hmade, hi, hp, hname,
      fst_runFrom_compileNodes_without hr hsegs hmade hfirst s⟩

/-- A configuration that switches off a method in another case, and one that is not there. -/
def starless : Config := ⟨[noGroup], ["Star", "hash"]⟩

theorem Redactor.compile_ofConfig_starless :
    ∃ e pieces tail i p name,
      ((Redaction.compile (.builtin : Registry Unit) "admin=zero|all=STAR").runFrom ()).1 = .ok e ∧
        Divides (parse "admin=zero|all=STAR") pieces tail ∧
        List.Forall₂ Piece.Gives pieces e.rules ∧
        e.rules.findIdx? (fun r => starless.Disables r.method) = some i ∧ pieces[i]? = some p ∧
        p.method.text? = some name ∧
        (((ofConfig (.builtin : Registry Unit) starless fun _ => "").compile
          "admin=zero|all=STAR").runFrom ()).1 = .error (.unknownMethod name) := by
  have hmethods : ((Redaction.compile (.builtin : Registry Unit)
      "admin=zero|all=STAR").runFrom ()).1.toOption.map (fun e => e.rules.map (·.method)) =
        some ["zero", "star"] := by decide +kernel
  cases he : ((Redaction.compile (.builtin : Registry Unit)
      "admin=zero|all=STAR").runFrom ()).1 with
  | error e =>
      rw [he] at hmethods
      cases hmethods
  | ok e =>
      rw [he] at hmethods
      have hnames : e.rules.map (·.method) = ["zero", "star"] := Option.some.inj hmethods
      have hdisabled : ∃ r ∈ e.rules, starless.Disables r.method := by
        have hstar : "star" ∈ e.rules.map (·.method) := by simp [hnames]
        obtain ⟨r, hr, hmethod⟩ := List.mem_map.mp hstar
        exact ⟨r, hr, "Star", by simp [starless], by rw [hmethod]; decide +kernel⟩
      obtain ⟨-, -, hfails⟩ := compile_ofConfig Registry.HasOnlyBuiltin.builtin.steady starless
        (fun _ => "") "admin=zero|all=STAR" () ()
      obtain ⟨pieces, tail, i, p, name, hfirst⟩ := hfails e he hdisabled
      exact ⟨e, pieces, tail, i, p, name, rfl, hfirst⟩

end Redaction
