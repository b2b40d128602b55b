import Redaction.Proofs.Method.Masking
import Redaction.Proofs.Rule.Decision
import Redaction.Proofs.Rule.Written
import Redaction.Proofs.Value.Derived

/-!
# What masked fields disclose

Two values that differ only inside masked fields, and there only in what is hidden, have the same
redacted copy, or the same failure. The rule that decides for a field is the same in both, since the
choice does not look at the field, and what it makes of the two scalars is the same.
-/

namespace Redaction

open Redaction.Derivation

variable {σ : Type}

/-- The rule that decides an evaluation is of a masking method, and it is carried out, since it does
not exclude the group for which it decides. -/
def Evaluator.MaskedBy (e : Evaluator) (groups : List String) (m : Masking) : Prop :=
  ∃ rule group, e.DecidedBy groups rule group ∧ m.IsOf rule ∧
    ∀ selector, rule.namer? group = some selector → selector.inverted = false

mutual

/-- Two values of one shape that differ only inside fields that are masked for groups. Sets are the
same in both, as their order depends on what is in their elements. -/
inductive Value.AgreesUnmasked (registry : Registry σ) (groups : List String) : Value → Value → Prop
  | same (v : Value) : Value.AgreesUnmasked registry groups v v
  | layer (outer : Layer) {inner other : Value}
      (h : Value.AgreesUnmasked registry groups inner other) :
      Value.AgreesUnmasked registry groups (.layer outer inner) (.layer outer other)
  | sequence (kind : SequenceKind) {items others : List Value}
      (h : List.Forall₂ (Value.AgreesUnmasked registry groups) items others) :
      Value.AgreesUnmasked registry groups (.sequence kind items) (.sequence kind others)
  | map (kind : MapKind) {entries others : List (Key × Value)}
      (hkeys : others.map Prod.fst = entries.map Prod.fst)
      (h : List.Forall₂ (Value.AgreesUnmasked registry groups) (entries.map Prod.snd)
        (others.map Prod.snd)) :
      Value.AgreesUnmasked registry groups (.map kind entries) (.map kind others)
  | record {t : RecordType} {variant : Nat} {arm : Arm} {slots others : List Slot}
      (ha : t.plan.arms[variant]? = some arm) (hlength : others.length = slots.length)
      (h : ∀ (p : Nat) (f : PlannedField) (slot other : Slot), arm.fields[p]? = some f →
        slots[p]? = some slot → others[p]? = some other →
          Slot.AgreesUnmasked registry groups f slot other) :
      Value.AgreesUnmasked registry groups (.record t variant slots) (.record t variant others)

/-- The same in both slots for a declared field, or the same layers around two scalars of which the
masking method shows the same. -/
inductive Slot.AgreesUnmasked (registry : Registry σ) (groups : List String) :
    PlannedField → Slot → Slot → Prop
  | same (f : PlannedField) (slot : Slot) : Slot.AgreesUnmasked registry groups f slot slot
  | masked {f : PlannedField} {literal : SourceToken} {instruction : String} {e : Evaluator}
      {m : Masking} {held : Field} {s t : Scalar} (hf : f.treatment = .apply literal instruction)
      (he : e.CompiledFrom registry instruction) (hm : e.MaskedBy groups m)
      (hs : held.scalar? = some s) (hides : m.Hides s t) :
      Slot.AgreesUnmasked registry groups f (.field held) (.field (held.replace t))
  | walked {f : PlannedField} {v u : Value} (hf : f.treatment = .nested ∨ f.treatment = .walk)
      (h : Value.AgreesUnmasked registry groups v u) :
      Slot.AgreesUnmasked registry groups f (.value v) (.value u)

end

/-! ## Fields -/

theorem Evaluator.MaskedBy.evaluate_eq {e : Evaluator} {groups : List String} {m : Masking}
    (h : e.MaskedBy groups m) {s t : Scalar} (hides : m.Hides s t) :
    e.evaluate s groups = e.evaluate t groups := by
  obtain ⟨rule, group, hdecided, hmasking, hplain⟩ := h
  have hrun : ∀ u, e.evaluate u groups = (⟨true, ·⟩) <$> m.transformer u := by
    intro u
    have hcarry : e.evaluate u groups = rule.carryOut (fun q => q.transformer) group u :=
      evaluateWith_of_decidedBy hdecided u
    rw [hcarry, Rule.carryOut_of_runsFor hplain, hmasking.transformer_eq]
  rw [hrun s, hrun t, hides.transformer_eq]

/-- The layers come from the first of two fields, and they are the same around the second. -/
theorem Metadata.applyAt_replace {m : Metadata} {groups : List String} {index : Nat}
    {entry : FieldMetadata} {e : Evaluator} (hm : m.fields[index]? = some entry)
    (he : entry.evaluator = some e) {held : Field} {s t : Scalar} (hs : held.scalar? = some s)
    (hsame : e.evaluate s groups = e.evaluate t groups) :
    m.applyAt groups index held = m.applyAt groups index (held.replace t) := by
  have ht : (held.replace t).scalar? = some t := by
    rw [Field.scalar?_replace, hs]
    rfl
  simp only [Metadata.applyAt, hm, he, hs, ht, hsame, Field.replace_replace]

/-! ## Parts of a value -/

section

variable {known : Knowledge} {w : Walker} {m : Metadata}

theorem walkItems_congr {items others : List Value}
    (h : List.Forall₂ (fun v u => v.walk known w = u.walk known w) items others) :
    walkItems known w items = walkItems known w others := by
  induction h with
  | nil => rfl
  | cons hv _ ih => simp only [walkItems, hv, ih]

/-- The copies of entries are those of their values, at the keys that there were. -/
theorem walkEntries_eq_walkItems (entries : List (Key × Value)) :
    walkEntries known w entries =
      (walkItems known w (entries.map Prod.snd)).map fun copies =>
        (entries.map Prod.fst).zip copies := by
  induction entries with
  | nil => rfl
  | cons e rest ih =>
      obtain ⟨k, v⟩ := e
      simp only [walkEntries, List.map_cons, walkItems, ih]
      cases v.walk known w with
      | error _ => rfl
      | ok copy => cases walkItems known w (rest.map Prod.snd) <;> rfl

theorem walkSlots_nil (position : Nat) (slots : List Slot) :
    walkSlots known w m [] position slots = .ok slots := by
  cases slots <;> rfl

/-- Slots may differ where there is a step for them that does not tell them apart. The steps are
consumed in order, so the induction needs that they are ordered. -/
theorem walkSlots_congr {steps : List Step} {position : Nat} {slots others : List Slot}
    (ho : OrderedFrom position steps) (hlength : others.length = slots.length)
    (h : ∀ (p : Nat) (slot other : Slot), slots[p]? = some slot → others[p]? = some other →
      (∀ s ∈ steps, s.field.position = position + p →
        walkSlot known w m s.action slot = walkSlot known w m s.action other) ∧
      ((∀ s ∈ steps, s.field.position ≠ position + p) → slot = other)) :
    walkSlots known w m steps position slots = walkSlots known w m steps position others := by
  induction slots generalizing steps position others with
  | nil => rw [List.length_eq_zero_iff.mp hlength]
  | cons slot rest ih =>
      obtain ⟨other, later, rfl⟩ := List.exists_cons_of_length_eq_add_one hlength
      have hlength' : later.length = rest.length := by simpa using hlength
      obtain ⟨hstep, hsame⟩ := h 0 slot other rfl rfl
      have htail : ∀ (p : Nat) (next next' : Slot), rest[p]? = some next →
          later[p]? = some next' → (∀ s ∈ steps, s.field.position = position + 1 + p →
            walkSlot known w m s.action next = walkSlot known w m s.action next') ∧
          ((∀ s ∈ steps, s.field.position ≠ position + 1 + p) → next = next') := by
        intro p next next' hnext hnext'
        have hp := h (p + 1) next next' (by simpa using hnext) (by simpa using hnext')
        rwa [Nat.add_comm p 1, ← Nat.add_assoc] at hp
      cases steps with
      | nil =>
          have hrest : walkSlots known w m [] (position + 1) rest =
              walkSlots known w m [] (position + 1) later := ih ⟨.nil, nofun⟩ hlength' htail
          rw [walkSlots_nil, walkSlots_nil] at hrest
          rw [hsame nofun, Except.ok.inj hrest]
      | cons s after =>
          rw [walkSlots, walkSlots]
          split
          · next hposition =>
              have hrest : walkSlots known w m after (position + 1) rest =
                  walkSlots known w m after (position + 1) later := by
                refine ih (hposition ▸ ho.tail) hlength' fun p next next' hnext hnext' => ?_
                obtain ⟨hstep', hsame'⟩ := htail p next next' hnext hnext'
                refine ⟨fun u hu => hstep' u (List.mem_cons_of_mem s hu), fun hno => hsame' ?_⟩
                refine List.forall_mem_cons.mpr ⟨?_, hno⟩
                omega
              rw [hstep s List.mem_cons_self hposition, hrest]
          · next hposition =>
              have hall := ho.of_ne hposition
              have hno : ∀ u ∈ s :: after, u.field.position ≠ position + 0 := by
                intro u hu
                have := hall.2 u hu
                omega
              rw [hsame hno, ih hall hlength' htail]

theorem walkSlot_congr {registry : Registry σ} (hr : registry.Steady) {t : RecordType}
    {variant : Nat} {arm : Arm} (ha : t.plan.arms[variant]? = some arm)
    (hm : t.CompilesTo registry (.ok m)) {s : Step} (hs : s ∈ t.steps variant) {slot other : Slot}
    (hslot : Slot.AgreesUnmasked registry w.groups s.field slot other)
    (h : ∀ v u, slot = .value v → v.AgreesUnmasked registry w.groups u →
      v.walk known w = u.walk known w) :
    walkSlot known w m s.action slot = walkSlot known w m s.action other := by
  cases hslot with
  | same f slot => rfl
  | @masked _ literal instruction e masking held scalar _ hf he hmasked hscalar hides =>
      obtain ⟨index, entry, e', hi, hentry, -, he', hcompiled⟩ :=
        RecordType.evaluator_of_step ha hm hs hf
      -- the entry was compiled from the same instruction, and so to the same evaluator
      obtain ⟨factories, hc⟩ := he
      cases hc.symm.trans (hcompiled.compile_eq hr factories)
      rw [hi, walkSlot_apply_field, walkSlot_apply_field,
        Metadata.applyAt_replace hentry he' hscalar (hmasked.evaluate_eq hides)]
  | @walked _ v u hf hagree =>
      rw [RecordType.action_of_walked ha hs hf, walkSlot_walk_value, walkSlot_walk_value,
        h v u rfl hagree]

theorem Slot.AgreesUnmasked.eq_of_skipped {registry : Registry σ} {groups : List String}
    {f : PlannedField} {slot other : Slot} (h : Slot.AgreesUnmasked registry groups f slot other)
    (hf : f.isWalked = false) : slot = other := by
  have hskip : f.treatment = .skip := by simpa [PlannedField.isWalked] using hf
  cases h with
  | same => rfl
  | masked hmasked _ _ _ _ => cases hskip.symm.trans hmasked
  | walked hwalked _ => rcases hwalked with h | h <;> cases hskip.symm.trans h

/-- The slots of a record are walked alike; those that are skipped are equal. -/
theorem walkSlots_eq_of_agrees {registry : Registry σ} (hr : registry.Steady) {name : String}
    {item : Item} {t : RecordType} {variant : Nat} {arm : Arm}
    (ht : RecordType.ofItem name item = .ok t) (ha : t.plan.arms[variant]? = some arm)
    (hm : t.CompilesTo registry (.ok m)) {slots others : List Slot}
    (hlength : slots.length = arm.fields.length) (hlength' : others.length = slots.length)
    (hslots : ∀ (p : Nat) (f : PlannedField) (slot other : Slot), arm.fields[p]? = some f →
      slots[p]? = some slot → others[p]? = some other →
        Slot.AgreesUnmasked registry w.groups f slot other)
    (h : ∀ (p : Nat) (f : PlannedField) (v u : Value), arm.fields[p]? = some f →
      f.isWalked = true → slots[p]? = some (.value v) → v.AgreesUnmasked registry w.groups u →
        v.walk known w = u.walk known w) :
    walkSlots known w m (t.steps variant) 0 slots =
      walkSlots known w m (t.steps variant) 0 others := by
  apply walkSlots_congr (RecordType.steps_ordered ht ha) hlength'
  intro p slot other hslot hother
  rw [Nat.zero_add]
  have hlt : p < arm.fields.length := hlength ▸ (List.getElem?_eq_some_iff.mp hslot).1
  have hf := List.getElem?_eq_getElem hlt
  have hagree := hslots p _ slot other hf hslot hother
  constructor
  · intro s hs hposition
    have hfield := RecordType.getElem?_of_step ht ha hs
    rw [hposition, hf] at hfield
    rw [Option.some.inj hfield] at hf hagree
    apply walkSlot_congr hr ha hm hs hagree
    rintro v u rfl hvalue
    exact h p s.field v u hf (RecordType.field_mem_of_step ha hs).2 hslot hvalue
  · intro hno
    apply hagree.eq_of_skipped
    by_contra hwalked
    obtain ⟨s, hs, hfield⟩ := RecordType.exists_step ha (List.mem_of_getElem? hf)
      (by simpa using hwalked)
    apply hno s hs
    rw [hfield]
    exact RecordType.position_eq ht ha hf

end

/-! ## Values -/

/-- The induction is on the first value; the other has the same shape. -/
theorem Value.Derived.walk_eq {registry : Registry σ} (hr : registry.Steady) {known : Knowledge}
    (hknown : known.Truthful registry) {v u : Value} (hv : v.Derived) (w : Walker)
    (h : v.AgreesUnmasked registry w.groups u) : v.walk known w = u.walk known w := by
  induction v using Value.induction generalizing w u with
  | leaf l =>
      cases h
      rfl
  | absent =>
      cases h
      rfl
  | layer outer inner ih =>
      cases hv with
      | layer _ hinner =>
          cases h with
          | same => rfl
          | layer _ h => rw [Value.walk, Value.walk, ih hinner w h]
  | sequence kind items ih =>
      cases hv with
      | sequence _ hitems =>
          cases h with
          | same => rfl
          | sequence _ h =>
              have hwalk := forall₂_imp_of_mem h fun v hv u hu => ih v hv (hitems v hv) w hu
              rw [Value.walk, Value.walk, walkItems_congr hwalk, h.length_eq]
  | set kind items ih =>
      cases h
      rfl
  | map kind entries ih =>
      cases hv with
      | map _ hentries =>
          cases h with
          | same => rfl
          | @map _ _ others hkeys h =>
              have hwalk : List.Forall₂ (fun v u => v.walk known w = u.walk known w)
                  (entries.map Prod.snd) (others.map Prod.snd) := by
                refine forall₂_imp_of_mem h ?_
                intro v hv u hu
                obtain ⟨e, he, rfl⟩ := List.mem_map.mp hv
                exact ih e he (hentries e he) w hu
              rw [Value.walk, Value.walk, walkEntries_eq_walkItems, walkEntries_eq_walkItems,
                walkItems_congr hwalk, hkeys]
  | record t variant slots ih =>
      have hderived := hv
      cases hv with
      | @record name item _ _ arm _ ht ha hlength hfits =>
          cases h with
          | same => rfl
          | @record _ _ arm' _ others ha' hlength' hslots =>
              cases ha.symm.trans ha'
              rw [Value.walk, Value.walk]
              cases hm : known t with
              | error e => rfl
              | ok m =>
                  have hcopies : walkSlots known w.enterRecord m (t.steps variant) 0 slots =
                      walkSlots known w.enterRecord m (t.steps variant) 0 others := by
                    apply walkSlots_eq_of_agrees (w := w.enterRecord) hr ht ha (hm ▸ hknown t)
                      hlength hlength' hslots
                    intro p f v u hf hwalked hslot hvalue
                    exact ih v (List.mem_of_getElem? hslot)
                      (hderived.of_slot ha hf hwalked hslot) w.enterRecord hvalue
                  change (walkSlots known w.enterRecord m (t.steps variant) 0 slots >>=
                    fun copies => pure (Value.record t variant copies)) = _
                  rw [hcopies]
                  rfl

/-- With no methods but the built-in ones, a rule that does not cut texts off is a masking one. -/
theorem Evaluator.CompiledFrom.exists_masking {registry : Registry σ}
    (hr : registry.HasOnlyBuiltin) {e : Evaluator} {instruction : String}
    (h : e.CompiledFrom registry instruction) :
    ∀ rule ∈ e.rules, rule.method ≠ "remove" → ∃ m : Masking, m.IsOf rule := by
  intro rule hrule hmethod
  obtain ⟨seg, s, t, hmade⟩ := h.exists_madeOf rule hrule
  exact hmade.exists_masking hr hmethod

/-- What masked fields hide has no part in a redaction: two values that differ only in it are copied
to the same copy or fail alike, whatever states the redactor is in for the two of them. Every rule
but one that cuts texts off is of some masking method with some arguments. -/
theorem Redactor.Reached.redact_eq_of_agreesUnmasked {r : Redactor σ}
    (hr : r.registry.HasOnlyBuiltin) {s t : WorkState RecordType σ} (hs : r.Reached s)
    (ht : r.Reached t) {v u : Value} (hv : v.Derived) (groups : List String)
    (h : v.AgreesUnmasked r.registry (r.groupsFor groups) u) :
    ((r.redact v groups).runFrom s).1 = ((r.redact u groups).runFrom t).1 ∧
      ∀ (e : Evaluator) (instruction : String), e.CompiledFrom r.registry instruction →
        ∀ rule ∈ e.rules, rule.method ≠ "remove" → ∃ m : Masking, m.IsOf rule := by
  refine ⟨?_, fun e instruction he => he.exists_masking hr⟩
  obtain ⟨known, hknown, hwalk⟩ := hs.exists_walk_eq v groups
  obtain ⟨known', hknown', hwalk'⟩ := ht.exists_walk_eq u groups
  have hsame : known = known' := hknown.unique hr.steady hknown'
  rw [← hwalk, ← hwalk', ← hsame]
  exact hv.walk_eq hr.steady hknown (r.walker groups) h

/-! ## Clients -/

section

open Instruction Instruction.Grammar

/-- Three fields that are masked for everyone but `admin`. -/
def clientItem : Item :=
  ⟨"Client", [], [], .struct .named [
    ⟨some "name", "String", [⟨["redact"], .list [.ofText "~admin=zero"]⟩]⟩,
    ⟨some "phone", "String", [⟨["redact"], .list [.ofText "~admin=star(-2)"]⟩]⟩,
    ⟨some "email", "String", [⟨["redact"], .list [.ofText "~admin=redact(*,@)"]⟩]⟩]⟩

def clientArm : Arm :=
  ⟨none, .named, [⟨some "name", 0, "String", .apply "\"~admin=zero\"" "~admin=zero"⟩,
    ⟨some "phone", 1, "String", .apply "\"~admin=star(-2)\"" "~admin=star(-2)"⟩,
    ⟨some "email", 2, "String", .apply "\"~admin=redact(*,@)\"" "~admin=redact(*,@)"⟩]⟩

def clientType : RecordType := ⟨"shop::Client", ⟨[clientArm]⟩⟩

theorem ofItem_clientItem : RecordType.ofItem "shop::Client" clientItem = .ok clientType := by
  decide +kernel

def client (name phone email : String) : Value :=
  .record clientType 0 [.field (.scalar (.text name)), .field (.scalar (.text phone)),
    .field (.scalar (.text email))]

theorem derived_client (name phone email : String) : (client name phone email).Derived := by
  have harm : clientType.plan.arms[0]? = some clientArm := rfl
  refine .record ofItem_clientItem harm rfl ?_
  intro p f slot hf hslot
  rcases p with _ | _ | _ | p
  all_goals
    cases hf
  all_goals
    cases hslot
    exact .instruction rfl _

/-- A written rule for everyone but `admin`. -/
def exceptAdmin (method : Identifier) (params : Option (List Grammar.Argument)) : Grammar.Rule :=
  ⟨true, .single (identifier "admin" rfl rfl (by decide)), method, params⟩

/-- What one such rule is compiled to. -/
def Masking.evaluator (m : Masking) (instruction : String) : Evaluator :=
  ⟨instruction, [⟨[⟨"admin", true⟩], true, m.method, m.transformer⟩]⟩

theorem Masking.decidedBy_evaluator (m : Masking) (instruction : String) {group : String}
    (h : Text.lower group = group) :
    (m.evaluator instruction).DecidedBy [group] ⟨[⟨"admin", true⟩], true, m.method, m.transformer⟩
      group where
  relevant := .inl (.inl rfl)
  first_group := ⟨[], [], congrArg (fun g => [g]) h, nofun⟩
  first_rule := ⟨[], [], rfl, nofun⟩

theorem Masking.compiledFrom_evaluator (m : Masking) (method : Identifier)
    (params : Option (List Grammar.Argument)) {instruction : String}
    (hwrite : write [exceptAdmin method params] = instruction)
    (hmethod : m.method = Text.lower method.text)
    (hmakes : ∃ factory, (Registry.builtin : Registry Unit).find? method.text = some factory ∧
      (factory ((params.getD []).map Grammar.Argument.literal)).runFrom () =
        (.ok m.transformer, ())) :
    (m.evaluator instruction).CompiledFrom (Registry.builtin : Registry Unit) instruction := by
  have hadmin : Text.lower "admin" = "admin" := by decide +kernel
  have hspells : Grammar.Rule.Spells Registry.builtin (exceptAdmin method params)
      ⟨[⟨"admin", true⟩], true, m.method, m.transformer⟩ () () :=
    ⟨congrArg (fun g => [GroupSelector.mk g true]) hadmin.symm, rfl, hmethod, hmakes⟩
  have hcompiles := runFrom_compile_write (List.cons_ne_nil _ []) (.cons hspells (.nil ()))
  rw [hwrite] at hcompiles
  exact ⟨(), congrArg Prod.fst hcompiles⟩

/-- What is not for `admin` is for `guest`. -/
theorem Masking.maskedBy_evaluator (m : Masking) (instruction : String) :
    (m.evaluator instruction).MaskedBy ["guest"] m := by
  have hguest : Text.lower "guest" = "guest" := by decide +kernel
  exact ⟨_, "guest", m.decidedBy_evaluator instruction hguest, ⟨rfl, rfl⟩, nofun⟩

theorem compiledFrom_zero : (Masking.zero.evaluator "~admin=zero").CompiledFrom
    (Registry.builtin : Registry Unit) "~admin=zero" := by
  apply Masking.compiledFrom_evaluator _ (identifier "zero" rfl rfl (by decide)) none
  · decide +kernel
  · decide +kernel
  · exact ⟨Method.zero, rfl, rfl⟩

theorem compiledFrom_star : ((Masking.star (-2)).evaluator "~admin=star(-2)").CompiledFrom
    (Registry.builtin : Registry Unit) "~admin=star(-2)" := by
  apply Masking.compiledFrom_evaluator _ (identifier "star" rfl rfl (by decide))
    (some [.int ⟨true, ['2'], List.cons_ne_nil _ _, List.all_eq_true.mp rfl, by decide⟩])
  · decide +kernel
  · decide +kernel
  · exact ⟨Method.star, rfl, rfl⟩

theorem compiledFrom_redact :
    ((Masking.redact '*' ['@']).evaluator "~admin=redact(*,@)").CompiledFrom
      (Registry.builtin : Registry Unit) "~admin=redact(*,@)" := by
  apply Masking.compiledFrom_evaluator _ (identifier "redact" rfl rfl (by decide))
    (some [.word (identifier "*" rfl rfl (by decide)), .word (identifier "@" rfl rfl (by decide))])
  · decide +kernel
  · decide +kernel
  · exact ⟨Method.redact, rfl, rfl⟩

theorem Masking.hides_text {m : Masking} {a b : String} (h : m.HidesText a.toList b.toList) :
    m.Hides (.text a) (.text b) where
  type_eq := rfl
  texts a b ha hb := by
    cases ha
    cases hb
    exact h

theorem agreesUnmasked_client {name phone email name' phone' email' : String}
    (hphone : (Masking.star (-2)).HidesText phone.toList phone'.toList)
    (hemail : (Masking.redact '*' ['@']).HidesText email.toList email'.toList) :
    (client name phone email).AgreesUnmasked (Registry.builtin : Registry Unit) ["guest"]
      (client name' phone' email') := by
  have harm : clientType.plan.arms[0]? = some clientArm := rfl
  refine .record harm rfl ?_
  intro p f slot other hf hslot hother
  rcases p with _ | _ | _ | p
  · cases hf
    cases hslot
    cases hother
    exact .masked rfl compiledFrom_zero (Masking.maskedBy_evaluator _ _) rfl
      (Masking.hides_text (.inl rfl))
  · cases hf
    cases hslot
    cases hother
    exact .masked rfl compiledFrom_star (Masking.maskedBy_evaluator _ _) rfl
      (Masking.hides_text hphone)
  · cases hf
    cases hslot
    cases hother
    exact .masked rfl compiledFrom_redact (Masking.maskedBy_evaluator _ _) rfl
      (Masking.hides_text hemail)
  · cases hf

/-- The names differ in length, the telephone numbers before their last two digits, and the
addresses on both sides of the sign. -/
theorem redact_eq_of_agreesUnmasked_clients :
    (((Redactor.standard fun _ => "").redact (.sequence .vector
      [card "12" [], .layer .dynamic (client "Ada" "5511" "a@io")]) ["guest"]).runFrom
        ⟨.empty, ()⟩).1 =
      (((Redactor.standard fun _ => "").redact (.sequence .vector
        [card "12" [], .layer .dynamic (client "Grace" "6611" "b@de")]) ["guest"]).runFrom
          ⟨.empty, ()⟩).1 := by
  have hstart : (Redactor.standard fun _ => "").Reached ⟨.empty, ()⟩ := .start ()
  have hderived : (Value.sequence .vector
      [card "12" [], .layer .dynamic (client "Ada" "5511" "a@io")]).Derived := by
    refine .sequence .vector ?_
    simp only [List.forall_mem_cons]
    exact ⟨derived_card "12" (by simp), .layer .dynamic (derived_client _ _ _), by simp⟩
  have hclient : (client "Ada" "5511" "a@io").AgreesUnmasked (Registry.builtin : Registry Unit)
      ["guest"] (client "Grace" "6611" "b@de") :=
    agreesUnmasked_client (by decide) (by decide)
  have hagree := Value.AgreesUnmasked.sequence .vector
    (.cons (.same (card "12" [])) (.cons (.layer .dynamic hclient) .nil))
  exact (Redactor.Reached.redact_eq_of_agreesUnmasked .builtin hstart hstart hderived ["guest"]
    hagree).1

/-- The name in a client, or in a copy of one. -/
def clientName? : Value → Option Field
  | .record _ _ (.field held :: _) => some held
  | _ => none

/-- The rule that decides for `admin` is one of the method `zero` all the same, but it leaves the
names as they are, for which they have to be equal. -/
theorem redact_ne_of_excluded :
    (Masking.zero.evaluator "~admin=zero").CompiledFrom (Registry.builtin : Registry Unit)
        "~admin=zero" ∧
      (∃ rule, (Masking.zero.evaluator "~admin=zero").DecidedBy ["admin"] rule "admin" ∧
        Masking.zero.IsOf rule) ∧
      Masking.zero.Hides (.text "Ada") (.text "Bob") ∧
      (((Redactor.standard fun _ => "").redact (client "Ada" "5511" "a@io") ["admin"]).runFrom
          ⟨.empty, ()⟩).1 ≠
        (((Redactor.standard fun _ => "").redact (client "Bob" "5511" "a@io") ["admin"]).runFrom
          ⟨.empty, ()⟩).1 := by
  have hadmin : Text.lower "admin" = "admin" := by decide +kernel
  have hname : ((((Redactor.standard fun _ => "").redact (client "Ada" "5511" "a@io")
      ["admin"]).runFrom ⟨.empty, ()⟩).1.toOption.bind clientName?) ≠
        ((((Redactor.standard fun _ => "").redact (client "Bob" "5511" "a@io")
          ["admin"]).runFrom ⟨.empty, ()⟩).1.toOption.bind clientName?) := by decide +kernel
  refine ⟨compiledFrom_zero, ⟨_, Masking.zero.decidedBy_evaluator _ hadmin, ⟨rfl, rfl⟩⟩,
    Masking.hides_text (.inl rfl), ?_⟩
  intro hsame
  exact hname (congrArg (fun result => result.toOption.bind clientName?) hsame)

end

end Redaction
