import Redaction.Derivation.Code
import Redaction.Proofs.Derivation.Names

/-!
# What the code of a plan names

The statement of a step reaches a field of a record through the copy, and a field of a variant by
the name that the pattern of the arm binds. The code is read as tokens here: where an expression or
a name stands in it, and what is between the commas of a pattern. In either kind of item the field
so named is the one at the place of the step's own field.
-/

namespace Redaction.Derivation

/-- Fields stand in brackets, so that there are none without them. -/
def Body.Bracketed (b : Body) : Prop := ∀ arm ∈ b.arms, arm.2.1 = .unit → arm.2.2 = []

/-! ## Members and bindings -/

theorem unraw_toString (n : Nat) : unraw (toString n) = toString n := by
  unfold unraw
  split
  · next rest h =>
      have hdigit : 'r'.isDigit = true := isDigit_of_mem_toString (h ▸ List.mem_cons_self)
      exact absurd hdigit (by decide)
  · rfl

namespace PlannedField

/-- What stands for a field in an access or a pattern: its name as it is declared, or its place. -/
def member (f : PlannedField) : SourceToken := f.name.getD (toString f.position)

/-- The entry for a field that takes part, in a pattern with names. -/
def namedEntry (f : PlannedField) : List SourceToken := [f.member, ":", f.binding]

/-- The entry for a field in a pattern by place. -/
def placeEntry (f : PlannedField) : List SourceToken := if f.isWalked then [f.binding] else ["_"]

variable (f g : PlannedField)

theorem access_eq : f.access = ["out", ".", f.member] := rfl

theorem namedPattern_eq : f.namedPattern = f.namedEntry ++ [","] := by
  rw [namedPattern, namedEntry, member, label]
  cases f.name <;> rfl

theorem unraw_member : unraw f.member = f.label := by
  rw [member, label]
  cases f.name with
  | some name => rfl
  | none => exact unraw_toString f.position

variable {f g}

theorem binding_inj : f.binding = g.binding ↔ f.label = g.label :=
  String.append_right_inj "__redact_"

theorem binding_ne {t : SourceToken} (h : t.toList.take 9 ≠ "__redact_".toList) :
    f.binding ≠ t := by
  rintro rfl
  rw [binding, String.toList_append] at h
  exact h rfl

theorem placeEntry_eq_iff :
    f.placeEntry = [g.binding] ↔ f.isWalked = true ∧ f.binding = g.binding := by
  unfold placeEntry
  cases f.isWalked with
  | true => simp
  | false => simpa using (binding_ne (by decide)).symm

theorem Plans.member_eq {position : Nat} {d : FieldDecl} (h : f.Plans position d) :
    f.member = d.name.getD (toString position) := by
  rw [member, h.name_eq, h.position_eq]

/-- A name is an identifier and a place is a number, and a comma is neither. -/
theorem Plans.member_ne {position : Nat} {d : FieldDecl} (h : f.Plans position d)
    (hnamed : ∀ n ∈ d.name, isIdentifier n = true) : f.member ≠ "," := by
  rw [h.member_eq]
  cases hname : d.name with
  | some n =>
      rintro rfl
      exact absurd (hnamed "," hname) (by decide)
  | none =>
      intro hcomma
      have hmem : ',' ∈ (toString position).toList := by
        rw [show toString position = "," from hcomma]
        decide
      exact absurd (isDigit_of_mem_toString hmem) (by decide)

theorem Plans.label_eq {position : Nat} {d : FieldDecl} (h : f.Plans position d)
    (variant : Option String) : f.label = DeclaredField.label ⟨variant, position, d⟩ := by
  rw [label, h.name_eq, h.position_eq]
  rfl

end PlannedField

/-! ## Statements -/

/-- The index of an entry, as it is written. -/
def indexToken (index : Nat) : SourceToken := toString index ++ "usize"

theorem indexToken_inj {i j : Nat} : indexToken i = indexToken j ↔ i = j := by
  refine ⟨fun h => ?_, congrArg indexToken⟩
  exact toString_inj ((String.append_left_inj "usize").mp h)

theorem ne_indexToken {t : SourceToken} (h : 's' ∉ t.toList) (index : Nat) :
    t ≠ indexToken index := by
  rintro rfl
  rw [indexToken, String.toList_append, List.mem_append, not_or] at h
  exact h.2 (by decide)

/-- An index begins with a digit. -/
theorem PlannedField.binding_ne_indexToken (f : PlannedField) (index : Nat) :
    f.binding ≠ indexToken index := by
  intro h
  have hlist := congrArg String.toList h
  rw [binding, indexToken, String.toList_append, String.toList_append] at hlist
  cases hdigits : (toString index).toList with
  | nil =>
      rw [hdigits] at hlist
      exact absurd (List.cons.inj hlist).1 (by decide)
  | cons c rest =>
      have hc : c.isDigit = true := isDigit_of_mem_toString (hdigits ▸ List.mem_cons_self)
      rw [hdigits] at hlist
      rw [← (List.cons.inj hlist).1] at hc
      exact absurd hc (by decide)

namespace Step

theorem code_apply_record (f : PlannedField) (index : Nat) :
    code false ⟨f, .apply index⟩ =
      ["walker", ".", "apply", "(", "&", "metadata", ",", indexToken index, ",", "&", "mut", "out",
        ".", f.member, ")", "?", ";"] := by
  rfl

theorem code_apply_variant (f : PlannedField) (index : Nat) :
    code true ⟨f, .apply index⟩ =
      ["walker", ".", "apply", "(", "&", "metadata", ",", indexToken index, ",", f.binding, ")",
        "?", ";"] := by
  rfl

theorem code_walk_record (f : PlannedField) :
    code false ⟨f, .walk⟩ =
      ["out", ".", f.member, "=", ":", ":", "redact_core", ":", ":", "Redact", ":", ":", "walk",
        "(", "&", "out", ".", f.member, ",", "&", "walker", ")", "?", ";"] := by
  rfl

theorem code_walk_variant (f : PlannedField) :
    code true ⟨f, .walk⟩ =
      ["*", f.binding, "=", ":", ":", "redact_core", ":", ":", "Redact", ":", ":", "walk", "(",
        "&", "*", f.binding, ",", "&", "walker", ")", "?", ";"] := by
  rfl

/-- In a record a statement reaches the member of its own field and no other. -/
theorem access_infix_code_iff (s : Step) (g : PlannedField) :
    g.access <:+: s.code false ↔ g.member = s.field.member := by
  obtain ⟨f, action⟩ := s
  cases action with
  | apply index =>
      simp [code_apply_record, PlannedField.access_eq, List.infix_cons_iff, List.cons_prefix_cons]
  | walk =>
      simp [code_walk_record, PlannedField.access_eq, List.infix_cons_iff, List.cons_prefix_cons]

/-- In a variant a statement names the binding of its own field and no other. -/
theorem binding_mem_code_iff (s : Step) (g : PlannedField) :
    g.binding ∈ s.code true ↔ g.label = s.field.label := by
  obtain ⟨f, action⟩ := s
  cases action with
  | apply index =>
      simp (disch := decide) [code_apply_variant, PlannedField.binding_ne,
        PlannedField.binding_ne_indexToken, PlannedField.binding_inj]
  | walk =>
      simp (disch := decide) [code_walk_variant, PlannedField.binding_ne,
        PlannedField.binding_inj]

/-- The index that a statement hands on is that of its step. -/
theorem index_infix_code_iff (s : Step) (inVariant : Bool) (index : Nat) :
    ["metadata", ",", indexToken index] <:+: s.code inVariant ↔ s.action = .apply index := by
  obtain ⟨f, action⟩ := s
  cases action with
  | apply own =>
      have hown : "metadata" ≠ indexToken own := ne_indexToken (by decide) own
      rw [Action.apply.injEq, eq_comm, ← indexToken_inj]
      cases inVariant with
      | false => simp [code_apply_record, List.infix_cons_iff, List.cons_prefix_cons, hown]
      | true => simp [code_apply_variant, List.infix_cons_iff, List.cons_prefix_cons, hown]
  | walk =>
      have hindex : indexToken index ≠ "&" := (ne_indexToken (by decide) index).symm
      cases inVariant with
      | false => simp [code_walk_record, List.infix_cons_iff, List.cons_prefix_cons, hindex]
      | true => simp [code_walk_variant, List.infix_cons_iff, List.cons_prefix_cons, hindex]

end Step

/-! ## Patterns -/

/-- The entries of a pattern, which stand in brackets after the path of a variant. -/
def patternEntries (pattern : List SourceToken) : List (List SourceToken) :=
  ((pattern.drop 5).dropLast).splitOn ","

theorem sourceTokens_path : sourceTokens "Self::" = ["Self", ":", ":"] := by decide

namespace Arm

variable {a : Arm} {v : String}

theorem patternEntries_tuple (hvariant : a.variant = some v) (hshape : a.shape = .tuple)
    (hfields : a.fields ≠ []) : patternEntries a.pattern = a.fields.map (·.placeEntry) := by
  have hinside : (a.pattern.drop 5).dropLast = commaSeparated (a.fields.map (·.placeEntry)) := by
    simp [pattern, hvariant, hshape, sourceTokens_path, PlannedField.placeEntry]
  rw [patternEntries, hinside]
  refine List.splitOn_intercalate "," ?_ (by simpa using hfields)
  intro entry hentry
  obtain ⟨f, -, rfl⟩ := List.mem_map.mp hentry
  unfold PlannedField.placeEntry
  split
  · exact fun h => PlannedField.binding_ne (by decide) (List.mem_singleton.mp h).symm
  · decide

/-- At its place in a pattern a field is bound, or passed over if it is skipped. -/
theorem getElem?_patternEntries (hvariant : a.variant = some v) (hshape : a.shape = .tuple)
    {p : Nat} {f : PlannedField} (hf : a.fields[p]? = some f) :
    (patternEntries a.pattern)[p]? = some f.placeEntry := by
  have hfields : a.fields ≠ [] := List.ne_nil_of_mem (List.mem_of_getElem? hf)
  rw [patternEntries_tuple hvariant hshape hfields, List.getElem?_map, hf, Option.map_some]

example :
    patternEntries (Arm.pattern ⟨some "Seat", .tuple,
      [⟨none, 0, "u8", .skip⟩, ⟨none, 1, "Owner", .nested⟩]⟩) = [["_"], ["__redact_1"]] := by
  decide

theorem flatMap_namedPattern (fields : List PlannedField) (last : List SourceToken) :
    fields.flatMap (·.namedPattern) ++ last =
      commaSeparated (fields.map (·.namedEntry) ++ [last]) := by
  induction fields with
  | nil => simp [commaSeparated]
  | cons f rest ih =>
      rw [List.flatMap_cons, List.append_assoc, ih, f.namedPattern_eq, List.map_cons,
        List.cons_append, commaSeparated, commaSeparated,
        List.intercalate_cons_of_ne_nil (by simp)]

theorem patternEntries_named (hvariant : a.variant = some v) (hshape : a.shape = .named)
    (hmembers : ∀ f ∈ a.fields, f.member ≠ ",") :
    patternEntries a.pattern =
      (a.fields.filter (·.isWalked)).map (·.namedEntry) ++ [[".", "."]] := by
  have hdots : sourceTokens ".." = [".", "."] := by decide
  have hinside : (a.pattern.drop 5).dropLast =
      commaSeparated ((a.fields.filter (·.isWalked)).map (·.namedEntry) ++ [[".", "."]]) := by
    rw [← flatMap_namedPattern]
    simp [pattern, hvariant, hshape, sourceTokens_path, hdots, braced]
  rw [patternEntries, hinside]
  refine List.splitOn_intercalate "," ?_ (by simp)
  intro entry hentry
  rcases List.mem_append.mp hentry with hentry | hentry
  · obtain ⟨f, hf, rfl⟩ := List.mem_map.mp hentry
    have hmember := hmembers f (List.mem_of_mem_filter hf)
    have hbinding : f.binding ≠ "," := PlannedField.binding_ne (by decide)
    simp [PlannedField.namedEntry, hmember.symm, hbinding.symm]
  · rw [List.mem_singleton.mp hentry]
    decide

/-- What a pattern binds a name to: the field of the member before it, or the field at its place. -/
inductive Binds (a : Arm) (token : SourceToken) (f : PlannedField) : Prop
  | member (hshape : a.shape = .named) (hf : f ∈ a.fields)
      (hentry : [f.member, ":", token] ∈ patternEntries a.pattern)
  | place (p : Nat) (hshape : a.shape = .tuple) (hf : a.fields[p]? = some f)
      (hentry : (patternEntries a.pattern)[p]? = some [token])

/-! ## The fields of an arm -/

/-- The fields of an arm stand at their positions and have labels of their own, and none is named by
the mark between the entries of a pattern. -/
structure Legible (a : Arm) : Prop where
  position_eq : ∀ (p : Nat) (f : PlannedField), a.fields[p]? = some f → f.position = p
  label_inj : ∀ f ∈ a.fields, ∀ g ∈ a.fields, f.label = g.label → f = g
  member_ne : ∀ f ∈ a.fields, f.member ≠ ","
  bracketed : a.shape = .unit → a.fields = []

variable {declared : Option String × Shape × List FieldDecl} {b : Body}

theorem Plans.label_ne (h : a.Plans declared) (hdeclared : declared ∈ b.arms)
    (hnamed : b.WellNamed) {i j : Nat} {f g : PlannedField} (hf : a.fields[i]? = some f)
    (hg : a.fields[j]? = some g) (hij : i < j) : f.label ≠ g.label := by
  obtain ⟨d, hd, hfd⟩ := h.exists_plans hf
  obtain ⟨e, he, hge⟩ := h.exists_plans hg
  obtain ⟨hi, rfl⟩ := List.getElem?_eq_some_iff.mp hd
  obtain ⟨hj, rfl⟩ := List.getElem?_eq_some_iff.mp he
  rw [hfd.label_eq declared.1, hge.label_eq declared.1]
  exact DeclaredField.label_ne (hnamed.fields_distinct declared hdeclared)
    (hnamed.isIdentifier_field declared hdeclared) hi hj hij

theorem Plans.legible (h : a.Plans declared) (hdeclared : declared ∈ b.arms)
    (hnamed : b.WellNamed) (hbracketed : b.Bracketed) : a.Legible where
  position_eq := by
    intro p f hf
    obtain ⟨d, -, hd⟩ := h.exists_plans hf
    exact hd.position_eq
  label_inj := by
    intro f hf g hg heq
    obtain ⟨i, hi⟩ := List.mem_iff_getElem?.mp hf
    obtain ⟨j, hj⟩ := List.mem_iff_getElem?.mp hg
    rcases Nat.lt_trichotomy i j with hij | rfl | hij
    · exact absurd heq (h.label_ne hdeclared hnamed hi hj hij)
    · exact Option.some.inj (hi.symm.trans hj)
    · exact absurd heq.symm (h.label_ne hdeclared hnamed hj hi hij)
  member_ne := by
    intro f hf
    obtain ⟨p, hp⟩ := List.mem_iff_getElem?.mp hf
    obtain ⟨d, hd, hfd⟩ := h.exists_plans hp
    exact hfd.member_ne (hnamed.isIdentifier_field declared hdeclared d (List.mem_of_getElem? hd))
  bracketed := by
    intro hunit
    have hnone := hbracketed declared hdeclared (h.shape_eq.symm.trans hunit)
    exact List.eq_nil_of_length_eq_zero (by rw [h.length_eq, hnone, List.length_nil])

namespace Legible

variable {f g : PlannedField}

theorem getElem?_position (h : a.Legible) (hf : f ∈ a.fields) :
    a.fields[f.position]? = some f := by
  obtain ⟨p, hp⟩ := List.mem_iff_getElem?.mp hf
  rwa [h.position_eq p f hp]

theorem label_inj_iff (h : a.Legible) (hf : f ∈ a.fields) (hg : g ∈ a.fields) :
    f.label = g.label ↔ f = g :=
  ⟨h.label_inj f hf g hg, congrArg _⟩

theorem member_inj_iff (h : a.Legible) (hf : f ∈ a.fields) (hg : g ∈ a.fields) :
    f.member = g.member ↔ f = g := by
  refine ⟨fun heq => h.label_inj f hf g hg ?_, congrArg _⟩
  rw [← f.unraw_member, heq, g.unraw_member]

/-- A pattern binds the name that is made for a field to that field, unless it is skipped. -/
theorem binds_iff (h : a.Legible) (hvariant : a.variant = some v) (hf : f ∈ a.fields)
    (hg : g ∈ a.fields) : a.Binds g.binding f ↔ f.isWalked = true ∧ f = g := by
  rw [← h.label_inj_iff hf hg, ← PlannedField.binding_inj]
  constructor
  · rintro (⟨hshape, -, hentry⟩ | ⟨p, hshape, hp, hentry⟩)
    · rw [patternEntries_named hvariant hshape h.member_ne, List.mem_append, List.mem_map]
        at hentry
      rcases hentry with ⟨e, he, heq⟩ | hentry
      · obtain ⟨he, hwalked⟩ := List.mem_filter.mp he
        simp only [PlannedField.namedEntry, List.cons.injEq, true_and, and_true] at heq
        obtain rfl := (h.member_inj_iff he hf).mp heq.1
        exact ⟨hwalked, heq.2⟩
      · simp at hentry
    · rw [getElem?_patternEntries hvariant hshape hp] at hentry
      exact PlannedField.placeEntry_eq_iff.mp (Option.some.inj hentry)
  · rintro ⟨hwalked, hbinding⟩
    rw [← hbinding]
    cases hshape : a.shape with
    | named =>
        refine .member hshape hf ?_
        rw [patternEntries_named hvariant hshape h.member_ne]
        exact List.mem_append_left _
          (List.mem_map.mpr ⟨f, List.mem_filter.mpr ⟨hf, hwalked⟩, rfl⟩)
    | tuple =>
        have hp := h.getElem?_position hf
        refine .place f.position hshape hp ?_
        rw [getElem?_patternEntries hvariant hshape hp,
          PlannedField.placeEntry_eq_iff.mpr ⟨hwalked, rfl⟩]
    | unit =>
        rw [h.bracketed hshape] at hf
        cases hf

end Legible

end Arm

/-! ## The code of a plan -/

/-- What the code for an arm is about. Each field that takes part has one statement, in the order of
the fields; of the fields of the arm, no other is named in it, and a pattern binds the name to that
field. -/
structure Plan.NamesFields (p : Plan) (declared : Option String × Shape × List FieldDecl) (a : Arm)
    (steps : List Step) : Prop where
  plans : a.Plans declared
  map_field : steps.map (·.field) = a.fields.filter (·.isWalked)
  field_at : ∀ s ∈ steps, a.fields[s.field.position]? = some s.field
  access_iff : ∀ s ∈ steps, ∀ f ∈ a.fields, f.access <:+: s.code false ↔ f = s.field
  binding_iff : ∀ s ∈ steps, ∀ f ∈ a.fields, f.binding ∈ s.code true ↔ f = s.field
  binds_iff : declared.1.isSome → ∀ s ∈ steps, ∀ f ∈ a.fields,
    a.Binds s.field.binding f ↔ f = s.field
  entry_of_index : ∀ s ∈ steps, ∀ (inVariant : Bool) (index : Nat),
    ["metadata", ",", indexToken index] <:+: s.code inVariant →
      ∃ spec, s.field.spec? a.variant = some spec ∧ p.specs[index]? = some spec

theorem Step.Aligned.getElem?_specs {specs : List FieldSpec} {variant : Option String} {s : Step}
    (h : s.Aligned specs variant) {index : Nat} (hindex : s.action = .apply index) :
    ∃ spec, s.field.spec? variant = some spec ∧ specs[index]? = some spec := by
  unfold Step.Aligned at h
  split at h
  · next literal instruction ht =>
      obtain ⟨own, hown, hspec⟩ := h
      obtain rfl := Action.apply.inj (hown.symm.trans hindex)
      exact ⟨_, by rw [PlannedField.spec?, ht], hspec⟩
  · cases hindex.symm.trans h
  · cases hindex.symm.trans h
  · exact h.elim

namespace Plan

/-- Every arm has a row of steps, so that none is left out of the code. -/
theorem map_fst_zip_steps (p : Plan) : (p.arms.zip p.steps).map Prod.fst = p.arms :=
  List.map_fst_zip (Nat.le_of_eq p.length_steps.symm)

theorem map_snd_zip_steps (p : Plan) : (p.arms.zip p.steps).map Prod.snd = p.steps :=
  List.map_snd_zip (Nat.le_of_eq p.length_steps)

theorem namesFields_of_mem_zip {p : Plan} {declared : Option String × Shape × List FieldDecl}
    {a : Arm} {steps : List Step} (hplans : a.Plans declared) (hlegible : a.Legible)
    (hrow : (a, steps) ∈ p.arms.zip p.steps) : p.NamesFields declared a steps := by
  obtain ⟨variant, hvariant⟩ := List.mem_iff_getElem?.mp hrow
  obtain ⟨ha, hs⟩ := List.getElem?_zip_eq_some.mp hvariant
  obtain ⟨_, hsteps, hfields, haligned⟩ := p.steps_aligned ha
  obtain rfl := Option.some.inj (hs.symm.trans hsteps)
  have hmem : ∀ s ∈ steps, s.field ∈ a.fields ∧ s.field.isWalked = true :=
    fun s hs => field_mem_of_map_field hfields hs
  refine ⟨hplans, hfields, ?_, ?_, ?_, ?_, ?_⟩
  · intro s hs
    exact hlegible.getElem?_position (hmem s hs).1
  · intro s hs f hf
    rw [s.access_infix_code_iff, hlegible.member_inj_iff hf (hmem s hs).1]
  · intro s hs f hf
    rw [s.binding_mem_code_iff, hlegible.label_inj_iff hf (hmem s hs).1]
  · intro hsome s hs f hf
    rw [← hplans.variant_eq] at hsome
    obtain ⟨v, hv⟩ := Option.isSome_iff_exists.mp hsome
    rw [hlegible.binds_iff hv hf (hmem s hs).1, and_iff_right_iff_imp]
    rintro rfl
    exact (hmem s hs).2
  · intro s hs inVariant index hindex
    exact (haligned s hs).getElem?_specs ((s.index_infix_code_iff inVariant index).mp hindex)

theorem forall₂_namesFields {item : Item} {p : Plan} (h : item.plan = .ok p)
    (hnamed : item.body.WellNamed) (hbracketed : item.body.Bracketed) :
    List.Forall₂ (fun declared row => p.NamesFields declared row.1 row.2) item.body.arms
      (p.arms.zip p.steps) := by
  have harms := Item.plan_arms h
  rw [← p.map_fst_zip_steps, List.forall₂_map_right_iff, List.forall₂_iff_zip] at harms
  obtain ⟨hlength, hplans⟩ := harms
  refine List.forall₂_iff_zip.mpr ⟨hlength, ?_⟩
  intro declared row hmem
  obtain ⟨hdeclared, hrow⟩ := List.of_mem_zip hmem
  have hlegible := (hplans hmem).legible hdeclared hnamed hbracketed
  exact namesFields_of_mem_zip (hplans hmem) hlegible hrow

end Plan

namespace Item

variable {item : Item} {p : Plan}

/-- The code for a record is the statements of its steps. -/
theorem walkBody_struct {shape : Shape} {decls : List FieldDecl}
    (hbody : item.body = .struct shape decls) (h : item.plan = .ok p)
    (hnamed : item.body.WellNamed) (hbracketed : item.body.Bracketed) :
    ∃ a steps, p.walkBody item.body = walkOpening ++ stepsCode false steps ++ walkClosing ∧
      p.NamesFields (none, shape, decls) a steps := by
  have hrows := Plan.forall₂_namesFields h hnamed hbracketed
  rw [hbody, Body.arms] at hrows
  obtain ⟨⟨a, steps⟩, rest, hnames, hrest, hzip⟩ := List.forall₂_cons_left_iff.mp hrows
  obtain rfl := List.forall₂_nil_left_iff.mp hrest
  have hsteps : p.steps.flatten = steps := by
    rw [← p.map_snd_zip_steps, hzip]
    simp
  refine ⟨a, steps, ?_, hnames⟩
  simp only [hbody, Plan.walkBody, hsteps]

/-- The code for an item with variants has one arm for each of them, in their order. -/
theorem walkBody_enum {variants : List VariantDecl} (hbody : item.body = .enum variants)
    (hvariants : variants ≠ []) (h : item.plan = .ok p) (hnamed : item.body.WellNamed)
    (hbracketed : item.body.Bracketed) :
    ∃ rows : List (Arm × List Step),
      p.walkBody item.body = walkOpening ++ sourceTokens "match &mut out" ++
        braced (rows.flatMap fun row => row.1.code row.2) ++ walkClosing ∧
      List.Forall₂ (fun v row => p.NamesFields (some v.name, v.shape, v.fields) row.1 row.2)
        variants rows := by
  have hrows := Plan.forall₂_namesFields h hnamed hbracketed
  rw [hbody, Body.arms, List.forall₂_map_left_iff] at hrows
  refine ⟨_, ?_, hrows⟩
  rw [hbody]
  cases variants with
  | nil => exact absurd rfl hvariants
  | cons v rest => rfl

end Item

end Redaction.Derivation
