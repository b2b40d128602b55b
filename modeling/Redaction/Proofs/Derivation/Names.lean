import Mathlib.Data.List.Basic
import Redaction.Proofs.Derivation.Declared
import Redaction.Proofs.Record.Metadata

/-!
# The names of annotated fields

An annotated field is listed by its name, or by its place in a tuple, and in a variant by the name
of the variant before it. The names in one list differ, so that a name leads back to its field. The
mark of a raw identifier is taken off the names of fields, but not off those of variants.
-/

namespace Redaction.Derivation

/-- Whether a name can stand in a declaration, with the mark of a raw identifier or without it. -/
def isIdentifier (name : String) : Bool :=
  match (unraw name).toList with
  | [] => false
  | c :: rest => isIdentStart c && rest.all isIdentRest

/-- What a declaration keeps to: its names are identifiers, no two variants have the same one, and
neither do two fields of an arm, whether it is marked as raw or not. -/
structure Body.WellNamed (b : Body) : Prop where
  variants_distinct : (b.arms.map (·.1)).Nodup
  isIdentifier_variant : ∀ arm ∈ b.arms, ∀ v ∈ arm.1, isIdentifier v = true
  fields_distinct : ∀ arm ∈ b.arms, ((arm.2.2.filterMap (·.name)).map unraw).Nodup
  isIdentifier_field : ∀ arm ∈ b.arms, ∀ decl ∈ arm.2.2, ∀ n ∈ decl.name, isIdentifier n = true

/-! ## Identifiers -/

theorem toList_unraw (name : String) :
    (unraw name).toList = name.toList ∨ name.toList = 'r' :: '#' :: (unraw name).toList := by
  unfold unraw
  split
  · next rest h => exact .inr (by rw [String.toList_ofList, h])
  · exact .inl rfl

theorem exists_of_isIdentifier {name : String} (h : isIdentifier name = true) :
    ∃ c rest, (unraw name).toList = c :: rest ∧ isIdentStart c = true ∧
      ∀ d ∈ rest, isIdentRest d = true := by
  unfold isIdentifier at h
  split at h
  · cases h
  · next c rest hname =>
      obtain ⟨hc, hrest⟩ := Bool.and_eq_true_iff.mp h
      exact ⟨c, rest, hname, hc, List.all_eq_true.mp hrest⟩

theorem dot_notMem_unraw {name : String} (h : isIdentifier name = true) :
    '.' ∉ (unraw name).toList := by
  obtain ⟨c, rest, hname, hc, hrest⟩ := exists_of_isIdentifier h
  rw [hname, List.mem_cons, not_or]
  refine ⟨?_, fun hdot => absurd (hrest '.' hdot) (by decide)⟩
  rintro rfl
  exact absurd hc (by decide)

theorem dot_notMem {name : String} (h : isIdentifier name = true) : '.' ∉ name.toList := by
  have hunraw := dot_notMem_unraw h
  rcases toList_unraw name with hname | hname
  · rwa [← hname]
  · rw [hname]
    simp [hunraw]

theorem isDigit_of_mem_toString {n : Nat} {c : Char} (hc : c ∈ (toString n).toList) :
    c.isDigit = true := by
  rw [Nat.toString_eq_repr, Nat.toList_repr] at hc
  exact Nat.isDigit_of_mem_toDigits (by decide) (by decide) hc

theorem toString_inj {m n : Nat} (h : toString m = toString n) : m = n := by
  have hdigits : Nat.toDigits 10 m = Nat.toDigits 10 n := by
    rw [← Nat.toList_repr, ← Nat.toList_repr]
    exact congrArg String.toList h
  calc
    m = Nat.ofDigitChars 10 (Nat.toDigits 10 m) 0 := Nat.ofDigitChars_ten_toDigits.symm
    _ = n := by rw [hdigits, Nat.ofDigitChars_ten_toDigits]

/-- A digit is neither a letter nor a character beyond ASCII. -/
theorem isIdentStart_of_isDigit {c : Char} (h : c.isDigit = true) : isIdentStart c = false := by
  have hvalue : 48 ≤ c.toNat ∧ c.toNat ≤ 57 := by
    simpa [Char.isDigit, UInt32.le_iff_toNat_le] using h
  have hupper : ¬c.isUpper = true := fun hc => by
    have hlow : 65 ≤ c.toNat := UInt32.le_iff_toNat_le.mp (of_decide_eq_true hc).1
    omega
  have hlower : ¬c.isLower = true := fun hc => by
    have hbounds : (decide (c.val ≥ 'a'.val) && decide (c.val ≤ 'z'.val)) = true := hc
    have hlow : 97 ≤ c.toNat :=
      UInt32.le_iff_toNat_le.mp (of_decide_eq_true (Bool.and_eq_true_iff.mp hbounds).1)
    omega
  have hletter : ¬c.isAlpha = true := fun hc => (Bool.or_eq_true_iff.mp hc).elim hupper hlower
  have hmark : c ≠ '_' := by
    rintro rfl
    exact absurd h (by decide)
  have hsmall : ¬0x80 ≤ c.toNat := by omega
  simp [isIdentStart, hletter, hmark, hsmall]

/-- A name does not begin with a digit, as a place in a tuple does. -/
theorem unraw_ne_toString {name : String} (h : isIdentifier name = true) (n : Nat) :
    unraw name ≠ toString n := by
  intro heq
  obtain ⟨c, rest, hname, hc, -⟩ := exists_of_isIdentifier h
  have hmem : c ∈ (toString n).toList := by
    rw [← heq, hname]
    exact List.mem_cons_self
  rw [isIdentStart_of_isDigit (isDigit_of_mem_toString hmem)] at hc
  cases hc

/-! ## Names in a list -/

namespace DeclaredField

/-- The name of a field without the marks of raw identifiers. -/
def plainName (d : DeclaredField) : String :=
  match d.variant with
  | some v => unraw v ++ "." ++ d.label
  | none => d.label

/-- The names of a field and of its variant are identifiers. -/
structure Named (d : DeclaredField) : Prop where
  isIdentifier_variant : ∀ v ∈ d.variant, isIdentifier v = true
  isIdentifier_field : ∀ n ∈ d.decl.name, isIdentifier n = true

variable {d e : DeclaredField}

theorem Named.dot_notMem_label (h : d.Named) : '.' ∉ d.label.toList := by
  unfold label
  split
  · next name hname => exact dot_notMem_unraw (h.isIdentifier_field name hname)
  · intro hdot
    exact absurd (isDigit_of_mem_toString hdot) (by decide)

/-- The first dot of a name parts a variant from a field. -/
theorem append_dot_inj {v w a b : String} (hv : '.' ∉ v.toList) (ha : '.' ∉ a.toList)
    (h : v ++ "." ++ a = w ++ "." ++ b) : v = w ∧ a = b := by
  have hlist := congrArg String.toList h
  simp only [String.toList_append, List.append_assoc] at hlist
  obtain ⟨hvw, -, hab⟩ := (List.append_cons_inj_of_notMem hv ha).mp hlist
  exact ⟨String.toList_inj.mp hvw, String.toList_inj.mp hab⟩

theorem dot_mem_append (v a : String) : '.' ∈ (v ++ "." ++ a).toList := by
  simp [String.toList_append]

theorem Named.listedName_inj (hd : d.Named) (he : e.Named) (h : d.listedName = e.listedName) :
    d.variant = e.variant ∧ d.label = e.label := by
  unfold listedName at h
  split at h
  · next v hv =>
      split at h
      · next w hw =>
          have hdot := dot_notMem (hd.isIdentifier_variant v hv)
          obtain ⟨rfl, hlabel⟩ := append_dot_inj hdot hd.dot_notMem_label h
          exact ⟨hv.trans hw.symm, hlabel⟩
      · exact absurd (h ▸ dot_mem_append v d.label) he.dot_notMem_label
  · next hv =>
      split at h
      · next w hw => exact absurd (h ▸ dot_mem_append w e.label) hd.dot_notMem_label
      · next hw => exact ⟨hv.trans hw.symm, h⟩

theorem Named.listedName_eq_plainName_iff (h : d.Named) :
    d.listedName = d.plainName ↔ ∀ v ∈ d.variant, unraw v = v := by
  unfold listedName plainName
  cases hv : d.variant with
  | none => simp
  | some v =>
      simp only [Option.mem_def, Option.some.injEq, forall_eq']
      constructor
      · intro heq
        have hdot := dot_notMem (h.isIdentifier_variant v hv)
        exact (append_dot_inj hdot h.dot_notMem_label heq).1.symm
      · intro heq
        rw [heq]

/-- Two fields of one arm have different labels, whether they are named or told by their place. -/
theorem label_ne {variant : Option String} {decls : List FieldDecl}
    (hdistinct : ((decls.filterMap (·.name)).map unraw).Nodup)
    (hnamed : ∀ decl ∈ decls, ∀ n ∈ decl.name, isIdentifier n = true) {i j : Nat}
    (hi : i < decls.length) (hj : j < decls.length) (hij : i < j) :
    label ⟨variant, i, decls[i]⟩ ≠ label ⟨variant, j, decls[j]⟩ := by
  rw [List.Nodup, List.pairwise_map, List.pairwise_filterMap, List.pairwise_iff_getElem]
    at hdistinct
  have hni := hnamed _ (List.getElem_mem hi)
  have hnj := hnamed _ (List.getElem_mem hj)
  unfold label
  cases hname : decls[i].name with
  | some n =>
      cases hname' : decls[j].name with
      | some m => exact hdistinct i j hi hj hij n hname m hname'
      | none => exact unraw_ne_toString (hni n hname) j
  | none =>
      cases hname' : decls[j].name with
      | some m => exact (unraw_ne_toString (hnj m hname') i).symm
      | none =>
          intro heq
          exact absurd (toString_inj heq) (Nat.ne_of_lt hij)

end DeclaredField

namespace Body.WellNamed

variable {b : Body}

theorem named (h : b.WellNamed) {d : DeclaredField} (hd : d ∈ b.declaredFields) : d.Named := by
  obtain ⟨arm, harm, hvariant, hdecl⟩ := mem_declaredFields_iff.mp hd
  refine ⟨?_, h.isIdentifier_field arm harm d.decl (List.mem_of_getElem? hdecl)⟩
  rw [hvariant]
  exact h.isIdentifier_variant arm harm

/-- Within an arm the labels differ, and fields of two arms have the names of two variants. -/
theorem nodup_listedNames (h : b.WellNamed) :
    (b.declaredFields.map (·.listedName)).Nodup := by
  have hdistinct := h.variants_distinct
  rw [List.Nodup, List.pairwise_map] at hdistinct
  rw [List.Nodup, List.pairwise_map, Body.declaredFields, List.pairwise_flatMap]
  have hmem : ∀ arm ∈ b.arms, ∀ d ∈ fieldsOfArm arm.1 arm.2.2, d.Named := fun arm harm d hd =>
    h.named (List.mem_flatMap.mpr ⟨arm, harm, hd⟩)
  constructor
  · intro arm harm
    refine List.pairwise_iff_getElem.mpr ?_
    intro i j hi hj hij heq
    obtain ⟨-, hlabel⟩ := (hmem arm harm _ (List.getElem_mem hi)).listedName_inj
      (hmem arm harm _ (List.getElem_mem hj)) heq
    simp only [fieldsOfArm, List.length_mapIdx, List.getElem_mapIdx] at hi hj hlabel
    exact DeclaredField.label_ne (h.fields_distinct arm harm) (h.isIdentifier_field arm harm) hi hj
      hij hlabel
  · refine hdistinct.imp_of_mem ?_
    intro arm arm' harm harm' hne d hd e he heq
    obtain ⟨hvariant, -⟩ := (hmem arm harm d hd).listedName_inj (hmem arm' harm' e he) heq
    rw [(mem_fieldsOfArm_iff.mp hd).1, (mem_fieldsOfArm_iff.mp he).1] at hvariant
    exact hne hvariant

/-- The annotated fields are some of the declared fields, so their names differ too. -/
theorem nodup_specs (h : b.WellNamed) :
    ((b.declaredFields.filterMap DeclaredField.spec?).map (·.name)).Nodup := by
  have hnodup := h.nodup_listedNames
  rw [List.Nodup, List.pairwise_map] at hnodup
  rw [List.Nodup, List.pairwise_map, List.pairwise_filterMap]
  refine hnodup.imp ?_
  intro d e hne spec hspec spec' hspec'
  rwa [DeclaredField.name_of_spec? hspec, DeclaredField.name_of_spec? hspec']

end Body.WellNamed

/-! ## The names of a plan -/

/-- The names in the list of a plan differ and each leads to the entry of its own field. A name is
free of marks but for the mark that the name of a variant has. -/
theorem Item.specs_named {item : Item} {p : Plan} (h : item.plan = .ok p)
    (hnamed : item.body.WellNamed) :
    p.specs = item.body.declaredFields.filterMap DeclaredField.spec? ∧
      (∀ d ∈ item.body.declaredFields, ∀ spec, d.spec? = some spec → spec.name = d.listedName ∧
        (spec.name = d.plainName ↔ ∀ v ∈ d.variant, unraw v = v)) ∧
      (p.specs.map (·.name)).Nodup ∧
      ∀ (σ : Type) (registry : Registry σ) (typeName : String) (factories : σ) (m : Metadata),
        ((Metadata.compile registry typeName p.specs).runFrom factories).1 = .ok m →
          ∀ d ∈ item.body.declaredFields, ∀ spec, d.spec? = some spec →
            ∃ (index : Nat) (entry : FieldMetadata), p.specs[index]? = some spec ∧
              m.fields[index]? = some entry ∧ entry.CompiledFrom registry spec ∧
                m.fieldNamed? spec.name = some entry := by
  have hspecs := Item.specs_plan h
  have hnodup : (p.specs.map (·.name)).Nodup := by
    rw [hspecs]
    exact hnamed.nodup_specs
  refine ⟨hspecs, ?_, hnodup, ?_⟩
  · intro d hd spec hspec
    rw [DeclaredField.name_of_spec? hspec]
    exact ⟨rfl, (hnamed.named hd).listedName_eq_plainName_iff⟩
  · intro σ registry typeName factories m hm d hd spec hspec
    have hmem : spec ∈ p.specs := by
      rw [hspecs]
      exact List.mem_filterMap.mpr ⟨d, hd, hspec⟩
    obtain ⟨index, hindex⟩ := List.mem_iff_getElem?.mp hmem
    obtain ⟨entry, hentry, hfrom⟩ := Metadata.getElem?_of_compile_eq_ok hm hindex
    rw [← Metadata.map_name_of_compile_eq_ok hm] at hnodup
    refine ⟨index, entry, hindex, hentry, hfrom, ?_⟩
    rw [← hfrom.name_eq]
    exact Metadata.fieldNamed?_of_getElem? hnodup hentry

/-- Raw identifiers for a variant and for its field, and a tuple of which the first place is
skipped. -/
def ticketItem : Item :=
  ⟨"Ticket", [], [], .enum [
    ⟨"r#type", .named, [⟨some "r#fn", "String", [⟨["redact"], .list [.ofText "all=zero"]⟩]⟩]⟩,
    ⟨"Seat", .tuple, [⟨none, "u8", [⟨["redact"], .list [.word "skip"]⟩]⟩,
      ⟨none, "Owner", [⟨["redact"], .list [.word "nested"]⟩]⟩]⟩]⟩

def ticketPlan : Plan :=
  ⟨[⟨some "r#type", .named, [⟨some "r#fn", 0, "String", .apply "\"all=zero\"" "all=zero"⟩]⟩,
    ⟨some "Seat", .tuple, [⟨none, 0, "u8", .skip⟩, ⟨none, 1, "Owner", .nested⟩]⟩]⟩

theorem plan_ticketItem : ticketItem.plan = .ok ticketPlan := by decide

theorem wellNamed_ticketItem : ticketItem.body.WellNamed where
  variants_distinct := by decide
  isIdentifier_variant := by decide
  fields_distinct := by decide
  isIdentifier_field := by decide

def rawField : DeclaredField :=
  ⟨some "r#type", 0, ⟨some "r#fn", "String", [⟨["redact"], .list [.ofText "all=zero"]⟩]⟩⟩

theorem rawField_mem : rawField ∈ ticketItem.body.declaredFields := List.mem_cons_self

theorem spec?_rawField : rawField.spec? = some (.ofInstruction "r#type.fn" "all=zero") := by
  decide

theorem specs_named_ticket :
    (ticketPlan.specs.map (·.name)).Nodup ∧
      ∃ (m : Metadata) (entry : FieldMetadata),
        ((Metadata.compile (.builtin : Registry Unit) "Ticket" ticketPlan.specs).runFrom ()).1 =
          .ok m ∧ m.fieldNamed? "r#type.fn" = some entry ∧
            entry.instruction? = some "all=zero" := by
  obtain ⟨-, -, hnodup, hfound⟩ := Item.specs_named plan_ticketItem wellNamed_ticketItem
  have hcompiles : ((Metadata.compile (.builtin : Registry Unit) "Ticket"
      ticketPlan.specs).runFrom ()).1.toBool = true := by decide +kernel
  cases hm : ((Metadata.compile (.builtin : Registry Unit) "Ticket"
      ticketPlan.specs).runFrom ()).1 with
  | error e =>
      rw [hm] at hcompiles
      cases hcompiles
  | ok m =>
      obtain ⟨_, entry, -, -, hfrom, hnamed⟩ := hfound Unit .builtin "Ticket" () m hm rawField
        rawField_mem _ spec?_rawField
      exact ⟨hnodup, m, entry, rfl, hnamed, hfrom.instruction?_eq⟩

/-- The mark of a variant is left in the names of its fields. -/
theorem exists_name_ne_plainName :
    ¬∀ (item : Item) (p : Plan), item.plan = .ok p → item.body.WellNamed →
      ∀ d ∈ item.body.declaredFields, ∀ spec, d.spec? = some spec → spec.name = d.plainName := by
  intro hall
  have heq := hall ticketItem ticketPlan plan_ticketItem wellNamed_ticketItem rawField rawField_mem
    _ spec?_rawField
  exact absurd heq (by decide +kernel)

end Redaction.Derivation
