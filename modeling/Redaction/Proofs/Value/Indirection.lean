import Redaction.Proofs.Value.Shape

/-!
# Layers of indirection

A field is a scalar behind layers, or an empty optional value behind layers. An instruction acts on
the scalar alone: behind the same layers, and at the same types in those whose type is known only
when the program runs, there is afterwards what the evaluation has made of it. Where a layer is
empty nothing is evaluated, so nothing can fail.
-/

namespace Redaction

namespace Field

/-- A field behind layers, the outermost first. -/
def within (layers : List Layer) (f : Field) : Field := layers.foldr layer f

@[simp] theorem scalar?_within (layers : List Layer) (f : Field) :
    (f.within layers).scalar? = f.scalar? := by
  induction layers with
  | nil => rfl
  | cons outer layers ih => exact ih

@[simp] theorem replace_within (layers : List Layer) (f : Field) (s : Scalar) :
    (f.within layers).replace s = (f.replace s).within layers := by
  induction layers with
  | nil => rfl
  | cons outer layers ih => exact congrArg (layer outer) ih

theorem exists_within (f : Field) :
    (∃ layers, f = absent.within layers) ∨ ∃ layers s, f = (scalar s).within layers := by
  induction f with
  | scalar s => exact .inr ⟨[], s, rfl⟩
  | absent => exact .inl ⟨[], rfl⟩
  | layer outer f ih =>
      rcases ih with ⟨layers, rfl⟩ | ⟨layers, s, rfl⟩
      · exact .inl ⟨outer :: layers, rfl⟩
      · exact .inr ⟨outer :: layers, s, rfl⟩

end Field

/-! ## Types -/

/-- The type of a field as it is known before the program runs. -/
inductive FieldType where
  | scalar (type : ScalarType)
  | absent
  | layer (outer : Layer) (inner : FieldType)
  | dynamic
  deriving DecidableEq, Repr

namespace Field

/-- What is behind a dynamic layer has no part in the type of the field. -/
def type : Field → FieldType
  | scalar s => .scalar s.type
  | absent => .absent
  | layer .dynamic _ => .dynamic
  | layer outer f => .layer outer f.type

/-- The types behind the dynamic layers, from the outside inwards. -/
def dynamicTypes : Field → List FieldType
  | scalar _ | absent => []
  | layer .dynamic f => f.type :: f.dynamicTypes
  | layer _ f => f.dynamicTypes

theorem Alike.types_eq {f g : Field} (h : f.Alike g) :
    g.type = f.type ∧ g.dynamicTypes = f.dynamicTypes := by
  induction h with
  | scalar h => exact ⟨congrArg FieldType.scalar h, rfl⟩
  | absent => exact ⟨rfl, rfl⟩
  | layer outer _ ih =>
      obtain ⟨htype, hdynamic⟩ := ih
      cases outer <;> simp [type, dynamicTypes, htype, hdynamic]

end Field

/-! ## Instructions -/

namespace Metadata

variable {m : Metadata} {index : Nat} {entry : FieldMetadata} {e : Evaluator} {groups : List String}

theorem applyAt_of_absent (hm : m.fields[index]? = some entry) {f : Field} (hf : f.scalar? = none) :
    m.applyAt groups index f = .ok f := by
  cases he : entry.evaluator <;> simp [applyAt, hm, he, hf]

theorem applyAt_of_present (hm : m.fields[index]? = some entry) (he : entry.evaluator = some e)
    {f : Field} {s : Scalar} (hf : f.scalar? = some s) :
    m.applyAt groups index f =
      ((e.evaluate s groups).mapError (.transform m.typeName entry.name)).map fun o =>
        f.replace o.value := by
  simp only [applyAt, hm, he, hf]
  cases e.evaluate s groups <;> rfl

/-- An instruction leaves an absent field alone, whatever its methods would do. Of a present one it
evaluates the scalar as if it stood alone, and the layers around it stay, with their types. -/
theorem applyAt_within (hm : m.fields[index]? = some entry) (he : entry.evaluator = some e)
    (groups : List String) :
    (∀ f : Field, (∃ layers, f = Field.absent.within layers) ∨
      ∃ layers s, f = (Field.scalar s).within layers) ∧
    (∀ layers, m.applyAt groups index (Field.absent.within layers) =
      .ok (Field.absent.within layers)) ∧
    ∀ layers s,
      ((∃ copy, m.applyAt groups index ((Field.scalar s).within layers) = .ok copy) ↔
        ∃ o, e.evaluate s groups = .ok o) ∧
      ∀ o, e.evaluate s groups = .ok o →
        m.applyAt groups index ((Field.scalar s).within layers) =
            .ok ((Field.scalar o.value).within layers) ∧
          ((Field.scalar o.value).within layers).type = ((Field.scalar s).within layers).type ∧
          ((Field.scalar o.value).within layers).dynamicTypes =
            ((Field.scalar s).within layers).dynamicTypes := by
  refine ⟨Field.exists_within, ?_, ?_⟩
  · intro layers
    exact applyAt_of_absent hm (by rw [Field.scalar?_within]; rfl)
  · intro layers s
    have hs : ((Field.scalar s).within layers).scalar? = some s := by
      rw [Field.scalar?_within]
      rfl
    have happly : m.applyAt groups index ((Field.scalar s).within layers) = _ :=
      applyAt_of_present hm he hs
    constructor
    · rw [happly]
      cases e.evaluate s groups <;> simp [Except.mapError, Except.map]
    · intro o ho
      have halike := Field.alike_replace hs (Evaluator.type_of_evaluate ho)
      rw [Field.replace_within] at halike
      rw [happly, ho]
      simp only [Field.replace_within]
      exact ⟨rfl, halike.types_eq⟩

/-- A record type with one field, which has its text starred for one group. -/
def noted : Metadata :=
  ⟨"shop::Order", [⟨"note", false, some ⟨"csr=star", [Evaluator.starring]⟩⟩]⟩

theorem applyAt_within_noted :
    noted.applyAt ["csr"] 0 (Field.absent.within [.shared, .dynamic]) =
        .ok (Field.absent.within [.shared, .dynamic]) ∧
      (¬∃ copy, noted.applyAt ["csr"] 0
        ((Field.scalar (.int .u8 7)).within [.shared, .dynamic]) = .ok copy) ∧
      noted.applyAt ["csr"] 0 ((Field.scalar (.text "né")).within [.dynamic, .present]) =
        .ok ((Field.scalar (.text "**")).within [.dynamic, .present]) := by
  have hfails : ¬∃ o, (Evaluator.mk "csr=star" [Evaluator.starring]).evaluate (.int .u8 7) ["csr"] =
      .ok o := by
    rintro ⟨o, ho⟩
    have hnot : ((Evaluator.mk "csr=star" [Evaluator.starring]).evaluate (.int .u8 7)
        ["csr"]).toBool = false := by decide +kernel
    rw [ho] at hnot
    cases hnot
  have hstars : (Evaluator.mk "csr=star" [Evaluator.starring]).evaluate (.text "né") ["csr"] =
      .ok ⟨true, .text "**"⟩ := by
    decide +kernel
  have hfield : noted.fields[0]? =
      some ⟨"note", false, some ⟨"csr=star", [Evaluator.starring]⟩⟩ := rfl
  obtain ⟨-, habsent, hpresent⟩ := applyAt_within hfield rfl ["csr"]
  exact ⟨habsent _, mt (hpresent _ _).1.mp hfails, ((hpresent _ _).2 _ hstars).1⟩

end Metadata

end Redaction
