import Redaction.Derivation.Code
import Redaction.Proofs.Derivation.Declared
import Redaction.Proofs.Earlier

/-!
# The items that can be derived

An item can be derived if it is a record or has variants, and the attributes `redact` of its fields
are well-formed: one at most for a field, with an instruction that is not blank or one of two words.
Otherwise the error is that of the first attribute at fault, by variants, fields and attributes.
-/

namespace Redaction.Derivation

/-- What an attribute `redact` may hold. -/
inductive AttributeForm.Valid : AttributeForm → Prop
  | instruction (literal : SourceToken) {value : String}
      (h : ∃ c ∈ value.toList, Text.isWhiteSpace c = false) : Valid (.list [.text literal value])
  | nested : Valid (.list [.word "nested"])
  | skip : Valid (.list [.word "skip"])

def Attribute.isRedact (a : Attribute) : Bool := a.path == ["redact"]

/-- What is wrong with an attribute, given whether its field already has one that counts. -/
def Attribute.faultWhen? (already : Bool) (a : Attribute) : Option ItemError :=
  if a.isRedact then
    if already then some .duplicateAttribute else failure? (Treatment.ofForm a.form)
  else none

/-- What is wrong with an attribute that follows others on its field. -/
def Attribute.faultAfter? (earlier : List Attribute) (a : Attribute) : Option ItemError :=
  a.faultWhen? (earlier.any (·.isRedact))

/-- A field with one attribute `redact` at most, which holds what it may. -/
structure FieldDecl.Valid (d : FieldDecl) : Prop where
  length_le : (d.attributes.filter (·.isRedact)).length ≤ 1
  form_valid : ∀ a ∈ d.attributes, a.isRedact = true → a.form.Valid

/-- The attributes of an item in the order of variants, fields and attributes, each with those
before it on its own field. -/
def Body.attributeRow (b : Body) : List (List Attribute × Attribute) :=
  b.declaredFields.flatMap fun d => withEarlier d.decl.attributes

/-! ## One attribute -/

theorem ofWord_eq_ok_iff {name : String} :
    (∃ t, Treatment.ofWord name = .ok t) ↔ name = "nested" ∨ name = "skip" := by
  unfold Treatment.ofWord
  constructor
  · rintro ⟨t, ht⟩
    split at ht
    · cases ht
    · split at ht
      · exact .inl ‹_›
      · split at ht
        · exact .inr ‹_›
        · cases ht
  · rintro (rfl | rfl)
    · exact ⟨.nested, by decide⟩
    · exact ⟨.skip, by decide⟩

theorem ofForm_eq_ok_iff {form : AttributeForm} :
    (∃ t, Treatment.ofForm form = .ok t) ↔ form.Valid := by
  constructor
  · rintro ⟨t, ht⟩
    cases form with
    | bare => cases ht
    | value => cases ht
    | list arguments =>
        cases arguments with
        | nil => cases ht
        | cons first more =>
            obtain ⟨t', hfirst, hmore⟩ := bind_eq_ok_iff.mp ht
            cases more with
            | cons a later => cases hmore
            | nil =>
                cases first with
                | mark source => cases hfirst
                | word name =>
                    rcases ofWord_eq_ok_iff.mp ⟨t', hfirst⟩ with rfl | rfl
                    · exact .nested
                    · exact .skip
                | text literal value =>
                    rw [Treatment.ofArgument] at hfirst
                    split at hfirst
                    · cases hfirst
                    · next hblank =>
                        exact .instruction literal
                          (Text.isBlank_eq_false_iff.mp (Bool.eq_false_iff.mpr hblank))
  · intro h
    cases h with
    | @instruction literal value h =>
        have hblank := Text.isBlank_eq_false_iff.mpr h
        exact ⟨.apply literal value, by simp [Treatment.ofForm, Treatment.ofArgument, hblank]⟩
    | nested => exact ⟨.nested, by decide⟩
    | skip => exact ⟨.skip, by decide⟩

/-! ## The attributes of a field -/

section Attributes

variable {a : Attribute}

theorem isRedact_iff : a.isRedact = true ↔ a.path = ["redact"] := by
  rw [Attribute.isRedact, beq_iff_eq]

theorem ofAttributesAfter_cons_other (h : a.isRedact = false) (found : Option Treatment)
    (rest : List Attribute) :
    Treatment.ofAttributesAfter found (a :: rest) = Treatment.ofAttributesAfter found rest := by
  have hpath : a.path ≠ ["redact"] := fun hp =>
    Bool.false_ne_true (h.symm.trans (isRedact_iff.mpr hp))
  rw [Treatment.ofAttributesAfter, if_pos hpath]

theorem ofAttributesAfter_cons_again (h : a.isRedact = true) (t : Treatment)
    (rest : List Attribute) :
    Treatment.ofAttributesAfter (some t) (a :: rest) = .error .duplicateAttribute := by
  rw [Treatment.ofAttributesAfter, if_neg (not_not_intro (isRedact_iff.mp h)),
    if_pos Option.isSome_some]

theorem ofAttributesAfter_cons_first (h : a.isRedact = true) (rest : List Attribute) :
    Treatment.ofAttributesAfter none (a :: rest) = (do
      let t ← Treatment.ofForm a.form
      Treatment.ofAttributesAfter (some t) rest) := by
  rw [Treatment.ofAttributesAfter, if_neg (not_not_intro (isRedact_iff.mp h)),
    if_neg (by simp)]

/-- Attributes of other names play no part. -/
theorem ofAttributesAfter_filter (found : Option Treatment) (attributes : List Attribute) :
    Treatment.ofAttributesAfter found (attributes.filter (·.isRedact)) =
      Treatment.ofAttributesAfter found attributes := by
  induction attributes generalizing found with
  | nil => rfl
  | cons a rest ih =>
      cases h : a.isRedact with
      | false =>
          rw [List.filter_cons_of_neg (by simp [h]), ofAttributesAfter_cons_other h, ih]
      | true =>
          rw [List.filter_cons_of_pos h]
          cases found with
          | some t => rw [ofAttributesAfter_cons_again h, ofAttributesAfter_cons_again h]
          | none =>
              rw [ofAttributesAfter_cons_first h, ofAttributesAfter_cons_first h]
              simp only [ih]

/-- The first attribute at fault ends the reading of a field. What was found before stands for the
attributes that are passed, which carries the induction. -/
theorem failure?_ofAttributesAfter (found : Option Treatment) (attributes : List Attribute) :
    failure? (Treatment.ofAttributesAfter found attributes) =
      (withEarlier attributes).findSome? fun x =>
        x.2.faultWhen? (found.isSome || x.1.any (·.isRedact)) := by
  induction attributes generalizing found with
  | nil => rfl
  | cons a rest ih =>
      have hrow : (withEarlier (a :: rest)).findSome? (fun x =>
          x.2.faultWhen? (found.isSome || x.1.any (·.isRedact))) =
            (a.faultWhen? found.isSome).or ((withEarlier rest).findSome? fun x =>
              x.2.faultWhen? (found.isSome || (a.isRedact || x.1.any (·.isRedact)))) := by
        rw [withEarlier_cons, List.findSome?_cons, List.findSome?_map, List.any_nil, Bool.or_false]
        cases a.faultWhen? found.isSome <;> rfl
      rw [hrow]
      cases h : a.isRedact with
      | false =>
          rw [ofAttributesAfter_cons_other h, ih, Attribute.faultWhen?, if_neg (by simp [h]),
            Option.none_or]
          simp only [Bool.false_or]
      | true =>
          cases found with
          | some t =>
              rw [ofAttributesAfter_cons_again h, Attribute.faultWhen?, if_pos h,
                if_pos Option.isSome_some]
              rfl
          | none =>
              have hlater : ∀ t, failure? (Treatment.ofAttributesAfter (some t) rest) =
                  (withEarlier rest).findSome? fun x => x.2.faultWhen? true := by
                intro t
                rw [ih]
                simp only [Option.isSome_some, Bool.true_or]
              rw [ofAttributesAfter_cons_first h, failure?_bind fun t _ => hlater t,
                Attribute.faultWhen?, if_pos h, if_neg (by simp)]
              simp only [Bool.true_or, Bool.or_true]

theorem failure?_ofAttributes (attributes : List Attribute) :
    failure? (Treatment.ofAttributes attributes) =
      (withEarlier attributes).findSome? fun x => x.2.faultAfter? x.1 := by
  rw [Treatment.ofAttributes, failure?_ofAttributesAfter]
  simp only [Option.isSome_none, Bool.false_or, Attribute.faultAfter?]

/-- Among attributes `redact` alone: none, or one that is well-formed. -/
theorem exists_ofAttributesAfter_eq_ok_iff {attributes : List Attribute}
    (h : ∀ a ∈ attributes, a.isRedact = true) :
    (∃ t, Treatment.ofAttributesAfter none attributes = .ok t) ↔
      attributes.length ≤ 1 ∧ ∀ a ∈ attributes, a.form.Valid := by
  cases attributes with
  | nil => exact ⟨fun _ => ⟨Nat.zero_le 1, List.forall_mem_nil _⟩, fun _ => ⟨.walk, rfl⟩⟩
  | cons a rest =>
      obtain ⟨ha, hrest⟩ := List.forall_mem_cons.mp h
      rw [ofAttributesAfter_cons_first ha]
      cases rest with
      | nil =>
          rw [List.forall_mem_singleton, ← ofForm_eq_ok_iff]
          constructor
          · rintro ⟨t, ht⟩
            obtain ⟨t', hform, -⟩ := bind_eq_ok_iff.mp ht
            exact ⟨Nat.le_refl 1, t', hform⟩
          · rintro ⟨-, t, hform⟩
            exact ⟨t, bind_eq_ok_iff.mpr ⟨t, hform, rfl⟩⟩
      | cons b later =>
          have hb := hrest b List.mem_cons_self
          constructor
          · rintro ⟨t, ht⟩
            obtain ⟨t', -, hagain⟩ := bind_eq_ok_iff.mp ht
            rw [ofAttributesAfter_cons_again hb] at hagain
            cases hagain
          · rintro ⟨hlength, -⟩
            simp at hlength

theorem fault?_eq_none_iff {d : DeclaredField} : d.fault? = none ↔ d.decl.Valid := by
  have hmem : ∀ a ∈ d.decl.attributes.filter (·.isRedact), a.isRedact = true := fun a ha =>
    (List.mem_filter.mp ha).2
  rw [DeclaredField.fault?, failure?_eq_none_iff, Treatment.ofAttributes,
    ← ofAttributesAfter_filter, exists_ofAttributesAfter_eq_ok_iff hmem]
  constructor
  · rintro ⟨hlength, hforms⟩
    exact ⟨hlength, fun a ha hredact => hforms a (List.mem_filter.mpr ⟨ha, hredact⟩)⟩
  · rintro ⟨hlength, hforms⟩
    refine ⟨hlength, fun a ha => ?_⟩
    obtain ⟨ha, hredact⟩ := List.mem_filter.mp ha
    exact hforms a ha hredact

end Attributes

/-! ## The row of attributes -/

theorem Item.failure?_code (item : Item) : failure? item.code = failure? item.plan :=
  failure?_map _ _

theorem Item.failure?_plan_eq {item : Item} (h : item.body ≠ .union) :
    failure? item.plan = item.body.attributeRow.findSome? fun x => x.2.faultAfter? x.1 := by
  rw [failure?_plan h, Body.attributeRow, findSome?_flatMap]
  simp only [← failure?_ofAttributes]
  rfl

/-! ## Attributes of other names -/

def FieldDecl.onlyRedact (d : FieldDecl) : FieldDecl :=
  { d with attributes := d.attributes.filter (·.isRedact) }

def VariantDecl.onlyRedact (v : VariantDecl) : VariantDecl :=
  { v with fields := v.fields.map FieldDecl.onlyRedact }

def Body.onlyRedact : Body → Body
  | struct shape fields => struct shape (fields.map FieldDecl.onlyRedact)
  | enum variants => enum (variants.map VariantDecl.onlyRedact)
  | union => union

/-- An item without the attributes of its fields that have other names. -/
def Item.onlyRedact (item : Item) : Item := { item with body := item.body.onlyRedact }

theorem planFields_onlyRedact (position : Nat) (decls : List FieldDecl) :
    planFields position (decls.map FieldDecl.onlyRedact) = planFields position decls := by
  induction decls generalizing position with
  | nil => rfl
  | cons d rest ih =>
      have htreatment : Treatment.ofAttributes d.onlyRedact.attributes =
          Treatment.ofAttributes d.attributes := ofAttributesAfter_filter none d.attributes
      rw [List.map_cons, planFields, planFields, htreatment, ih]
      rfl

theorem Item.plan_onlyRedact (item : Item) : item.onlyRedact.plan = item.plan := by
  unfold Item.plan Item.onlyRedact
  cases item.body with
  | struct shape fields => simp only [Body.onlyRedact, planFields_onlyRedact]
  | enum variants =>
      have harm : VariantDecl.arm ∘ VariantDecl.onlyRedact = VariantDecl.arm := by
        funext v
        simp only [Function.comp_apply, VariantDecl.arm, VariantDecl.onlyRedact,
          planFields_onlyRedact]
      simp only [Body.onlyRedact, List.mapM_map, harm]
  | union => rfl

theorem Plan.walkBody_onlyRedact (p : Plan) (b : Body) :
    p.walkBody b.onlyRedact = p.walkBody b := by
  cases b with
  | struct shape fields => rfl
  | enum variants => cases variants <;> rfl
  | union => rfl

theorem Item.code_onlyRedact (item : Item) : item.onlyRedact.code = item.code := by
  unfold Item.code
  rw [plan_onlyRedact]
  simp only [Item.onlyRedact, Plan.walkBody_onlyRedact]
  rfl

/-! ## The first fault -/

theorem Item.code_union {item : Item} (h : item.body = .union) : item.code = .error .isUnion := by
  rw [Item.code, Item.plan, h]
  rfl

theorem Item.exists_code_eq_ok_iff {item : Item} :
    (∃ tokens, item.code = .ok tokens) ↔
      item.body ≠ .union ∧ ∀ d ∈ item.body.declaredFields, d.decl.Valid := by
  by_cases h : item.body = .union
  · rw [code_union h]
    simp [h]
  · rw [← failure?_eq_none_iff, failure?_code, failure?_plan h, List.findSome?_eq_none_iff]
    simp only [fault?_eq_none_iff, ne_eq, h, not_false_eq_true, true_and]

theorem Item.body_ne_union {item : Item} {x : List Attribute × Attribute}
    (h : x ∈ item.body.attributeRow) : item.body ≠ .union := by
  intro hb
  rw [hb] at h
  cases h

/-- Whatever comes after a fault in the row, the first fault is the error. -/
theorem Item.code_of_attributeRow {item : Item} {front later : List (List Attribute × Attribute)}
    {e : ItemError} (hrow : item.body.attributeRow = front ++ later)
    (hfront : front.findSome? (fun x => x.2.faultAfter? x.1) = some e) : item.code = .error e := by
  obtain ⟨x, hx, -⟩ := List.exists_of_findSome?_eq_some hfront
  have hbody : item.body ≠ .union := body_ne_union (hrow ▸ List.mem_append_left later hx)
  rw [← failure?_eq_some_iff, failure?_code, failure?_plan_eq hbody, hrow, List.findSome?_append,
    hfront, Option.some_or]

theorem Item.code_eq_error_iff {item : Item} (h : item.body ≠ .union) {e : ItemError} :
    item.code = .error e ↔ ∃ before x later, item.body.attributeRow = before ++ x :: later ∧
      (∀ y ∈ before, y.2.faultAfter? y.1 = none) ∧ x.2.faultAfter? x.1 = some e := by
  rw [← failure?_eq_some_iff, failure?_code, failure?_plan_eq h, List.findSome?_eq_some_iff]
  constructor
  · rintro ⟨before, x, later, hrow, hx, hbefore⟩
    exact ⟨before, x, later, hrow, hbefore, hx⟩
  · rintro ⟨before, x, later, hrow, hbefore, hx⟩
    exact ⟨before, x, later, hrow, hx, hbefore⟩

/-- An item is derived exactly when every attribute `redact` of its fields is well-formed and no
field has two of them. Otherwise the error is that of the first attribute at fault, so that neither
what comes after it nor an attribute of another name plays any part. -/
theorem Item.code_fails_first (item : Item) :
    ((∃ tokens, item.code = .ok tokens) ↔
      item.body ≠ .union ∧ ∀ d ∈ item.body.declaredFields, d.decl.Valid) ∧
      (∀ e, item.code = .error e ↔ (item.body = .union ∧ e = .isUnion) ∨
        ∃ before x later, item.body.attributeRow = before ++ x :: later ∧
          (∀ y ∈ before, y.2.faultAfter? y.1 = none) ∧ x.2.faultAfter? x.1 = some e) ∧
      item.onlyRedact.code = item.code ∧
      ∀ (other : Item) before x later later', item.body.attributeRow = before ++ x :: later →
        other.body.attributeRow = before ++ x :: later' → x.2.faultAfter? x.1 ≠ none →
          other.code = item.code := by
  refine ⟨exists_code_eq_ok_iff, ?_, item.code_onlyRedact, ?_⟩
  · intro e
    by_cases h : item.body = .union
    · rw [code_union h]
      constructor
      · intro he
        cases he
        exact .inl ⟨h, rfl⟩
      · rintro (⟨-, rfl⟩ | ⟨before, x, later, hrow, -, -⟩)
        · rfl
        · have hx : x ∈ item.body.attributeRow := by simp [hrow]
          exact absurd h (body_ne_union hx)
    · rw [code_eq_error_iff h]
      simp only [h, false_and, false_or]
  · intro other before x later later' hrow hrow' hx
    rw [List.append_cons] at hrow hrow'
    obtain ⟨e, he⟩ : ∃ e, (before ++ [x]).findSome? (fun y => y.2.faultAfter? y.1) = some e := by
      rw [← Option.ne_none_iff_exists']
      intro hnone
      exact hx (List.findSome?_eq_none_iff.mp hnone x (by simp))
    rw [code_of_attributeRow hrow he, code_of_attributeRow hrow' he]

end Redaction.Derivation
