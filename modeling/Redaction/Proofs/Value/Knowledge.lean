import Redaction.Proofs.Record.Metadata
import Redaction.Proofs.Value.Traversal
import Redaction.Redactor

/-!
# Walks that compile metadata as they go

A redactor compiles the metadata of a record type when it first meets the type, and keeps it. Every
run of such a walk is also a run of the same walk with all metadata known beforehand, so the state
can be left out of the reasoning about values. The walk is parametric in its monad: the relation
between the two is closed under the steps of a walk, and the induction over values is done once.
-/

namespace Redaction

open Redaction.Derivation

variable {σ : Type}

/-- Whether compiling a type's instructions can have a result, whatever the factories did before. -/
def RecordType.CompilesTo (t : RecordType) (registry : Registry σ)
    (result : Except RedactError Metadata) : Prop :=
  ∃ factories, ((Metadata.compile registry t.name t.plan.specs).runFrom factories).1 = result

/-- What a redactor itself puts into a cache. -/
def Cache.Sound (c : Cache RecordType) (registry : Registry σ) : Prop :=
  ∀ (t : RecordType) (m : Metadata), c.find? t = some m → t.CompilesTo registry (.ok m)

def Cache.Within (c d : Cache RecordType) : Prop :=
  ∀ (t : RecordType) (m : Metadata), c.find? t = some m → d.find? t = some m

def Knowledge.Covers (known : Knowledge) (c : Cache RecordType) : Prop :=
  ∀ (t : RecordType) (m : Metadata), c.find? t = some m → known t = .ok m

def Knowledge.Truthful (known : Knowledge) (registry : Registry σ) : Prop :=
  ∀ t : RecordType, t.CompilesTo registry (known t)

/-- With steady factories there is only one truth. -/
theorem Knowledge.Truthful.unique {registry : Registry σ} (hr : registry.Steady)
    {known known' : Knowledge} (h : known.Truthful registry) (h' : known'.Truthful registry) :
    known = known' := by
  funext t
  obtain ⟨factories, hknown⟩ := h t
  obtain ⟨factories', hknown'⟩ := h' t
  rw [← hknown, ← hknown', Metadata.steady_compile hr t.plan.specs factories factories']

namespace Cache

theorem Sound.empty (registry : Registry σ) : (Cache.empty : Cache RecordType).Sound registry := by
  intro t m h
  simp at h

theorem Sound.insert {c : Cache RecordType} {registry : Registry σ} (hc : c.Sound registry)
    {t : RecordType} {m : Metadata} (hm : t.CompilesTo registry (.ok m)) :
    (c.insert t m).Sound registry := by
  intro u n h
  rw [find?_insert] at h
  split at h
  · next hu =>
      subst hu
      cases hf : c.find? u with
      | none =>
          rw [hf] at h
          cases h
          exact hm
      | some stored =>
          rw [hf] at h
          cases h
          exact hc u stored hf
  · exact hc u n h

theorem Within.refl (c : Cache RecordType) : c.Within c := fun _ _ h => h

theorem Within.trans {a b c : Cache RecordType} (hab : a.Within b) (hbc : b.Within c) :
    a.Within c := fun t m h => hbc t m (hab t m h)

theorem within_insert (c : Cache RecordType) (t : RecordType) (m : Metadata) :
    c.Within (c.insert t m) := by
  intro u n h
  rw [find?_insert]
  split
  · next hu =>
      subst hu
      simp [h]
  · exact h

theorem find?_insert_self {c : Cache RecordType} {t : RecordType} (h : c.find? t = none)
    (m : Metadata) : (c.insert t m).find? t = some m := by
  simp [find?_insert, h]

/-- The knowledge of a cache; what it does not hold is compiled from a state of the factories. -/
def complete (c : Cache RecordType) (registry : Registry σ) (factories : σ) : Knowledge := fun t =>
  match c.find? t with
  | some m => .ok m
  | none => ((Metadata.compile registry t.name t.plan.specs).runFrom factories).1

theorem complete_covers (c : Cache RecordType) (registry : Registry σ) (factories : σ) :
    (c.complete registry factories).Covers c := by
  intro t m h
  simp [complete, h]

theorem complete_truthful {c : Cache RecordType} {registry : Registry σ} (hc : c.Sound registry)
    (factories : σ) : (c.complete registry factories).Truthful registry := by
  intro t
  unfold complete
  split
  · next m h => exact hc t m h
  · exact ⟨factories, rfl⟩

end Cache

theorem Knowledge.Covers.of_within {known : Knowledge} {c d : Cache RecordType}
    (h : known.Covers d) (hcd : c.Within d) : known.Covers c := fun t m hf => h t m (hcd t m hf)

/-- Whether the steps `x` run as `f` does with all metadata known. What succeeded does so with
every knowledge that covers the cache afterwards; what failed does so with some. Nothing is asked of
the cache to begin with, but if it is sound then it stays so, and what is known is true. -/
def Agrees {α : Type} (registry : Registry σ) (x : RedactM σ α)
    (f : Knowledge → Except RedactError α) : Prop :=
  ∀ s : WorkState RecordType σ, s.cache.Within (x.runFrom s).2.cache ∧
    (s.cache.Sound registry → (x.runFrom s).2.cache.Sound registry) ∧
      match (x.runFrom s).1 with
      | .ok a => ∀ known : Knowledge, known.Covers (x.runFrom s).2.cache → f known = .ok a
      | .error e => ∃ known : Knowledge, known.Covers (x.runFrom s).2.cache ∧
          (s.cache.Sound registry → known.Truthful registry) ∧ f known = .error e

namespace Agrees

variable {α β : Type} {registry : Registry σ}

theorem pure (a : α) : Agrees registry (Pure.pure a) fun _ => .ok a :=
  fun _ => ⟨.refl _, id, fun _ _ => rfl⟩

theorem throw (e : RedactError) :
    Agrees registry (MonadExcept.throw e : RedactM σ α) fun _ => .error e :=
  fun s => ⟨.refl _, id, s.cache.complete registry s.factories,
    s.cache.complete_covers registry s.factories,
    fun hs => Cache.complete_truthful hs s.factories, rfl⟩

theorem bind {x : RedactM σ α} {f : Knowledge → Except RedactError α} {g : α → RedactM σ β}
    {h : α → Knowledge → Except RedactError β} (hx : Agrees registry x f)
    (hg : ∀ a, Agrees registry (g a) (h a)) :
    Agrees registry (x >>= g) fun known => f known >>= fun a => h a known := by
  intro s
  obtain ⟨hwithin, hsound, hresult⟩ := hx s
  rcases hrun : x.runFrom s with ⟨e | a, t⟩
  · rw [hrun] at hwithin hsound hresult
    rw [CompileM.runFrom_bind_of_error hrun]
    obtain ⟨known, hcover, htrue, hf⟩ := hresult
    exact ⟨hwithin, hsound, known, hcover, htrue, bind_eq_error_iff.mpr (.inl hf)⟩
  · rw [hrun] at hwithin hsound hresult
    rw [CompileM.runFrom_bind_of_ok hrun]
    obtain ⟨hwithin', hsound', hresult'⟩ := hg a t
    refine ⟨hwithin.trans hwithin', fun hs => hsound' (hsound hs), ?_⟩
    -- what the first part found is in the cache of the whole run, which any knowledge covers
    cases hr : ((g a).runFrom t).1 with
    | ok b =>
        rw [hr] at hresult'
        intro known hcover
        exact bind_eq_ok_iff.mpr
          ⟨a, hresult known (hcover.of_within hwithin'), hresult' known hcover⟩
    | error e =>
        rw [hr] at hresult'
        obtain ⟨known, hcover, htrue, hf⟩ := hresult'
        refine ⟨known, hcover, fun hs => htrue (hsound hs), bind_eq_error_iff.mpr ?_⟩
        exact .inr ⟨a, hresult known (hcover.of_within hwithin'), hf⟩

theorem ofExcept (x : Except RedactError α) :
    Agrees registry (MonadExcept.ofExcept x : RedactM σ α) fun _ => MonadExcept.ofExcept x := by
  cases x with
  | ok a => exact pure a
  | error e => exact throw e

theorem ite {p : Prop} [Decidable p] {x y : RedactM σ α} {f g : Knowledge → Except RedactError α}
    (hx : Agrees registry x f) (hy : Agrees registry y g) :
    Agrees registry (if p then x else y) fun known => if p then f known else g known := by
  split
  · exact hx
  · exact hy

theorem mapM {f : α → RedactM σ β} {g : α → Knowledge → Except RedactError β} {xs : List α}
    (h : ∀ x ∈ xs, Agrees registry (f x) (g x)) :
    Agrees registry (xs.mapM f) fun known => xs.mapM fun x => g x known := by
  induction xs with
  | nil => exact pure []
  | cons x rest ih =>
      obtain ⟨hx, hrest⟩ := List.forall_mem_cons.mp h
      simp only [List.mapM_cons]
      refine hx.bind fun y => ?_
      exact (ih hrest).bind fun later => pure _

theorem metadata (t : RecordType) : Agrees registry (t.metadata registry) fun known => known t := by
  intro s
  rw [RecordType.metadata, runFrom_getOrCompile]
  cases hf : s.cache.find? t with
  | some m => exact ⟨.refl _, id, fun known hcover => hcover t m hf⟩
  | none =>
      rcases hc : (Metadata.compile registry t.name t.plan.specs).runFrom s.factories with
        ⟨e | m, f⟩
      · refine ⟨.refl _, id, s.cache.complete registry s.factories,
          s.cache.complete_covers registry s.factories,
          fun hs => Cache.complete_truthful hs s.factories, ?_⟩
        simp [Cache.complete, hf, hc]
      · refine ⟨s.cache.within_insert t m, fun hs => hs.insert ⟨s.factories, by rw [hc]⟩, ?_⟩
        exact fun known hcover => hcover t m (Cache.find?_insert_self hf m)

/-! ## Walks -/

theorem walkItems {w : Walker} {items : List Value} (h : ∀ v ∈ items,
      Agrees registry (v.walk (·.metadata registry) w) fun known => v.walk known w) :
    Agrees registry (Redaction.walkItems (·.metadata registry) w items) fun known =>
      Redaction.walkItems known w items := by
  simp only [walkItems_eq_mapM]
  exact mapM h

theorem walkEntries {w : Walker} {entries : List (Key × Value)} (h : ∀ e ∈ entries,
      Agrees registry (e.2.walk (·.metadata registry) w) fun known => e.2.walk known w) :
    Agrees registry (Redaction.walkEntries (·.metadata registry) w entries) fun known =>
      Redaction.walkEntries known w entries := by
  simp only [walkEntries_eq_mapM]
  apply mapM
  intro e he
  exact (h e he).bind fun copy => pure _

theorem walkSlot {w : Walker} {m : Metadata} {action : Action} {slot : Slot}
    (h : ∀ v, slot = .value v →
      Agrees registry (v.walk (·.metadata registry) w) fun known => v.walk known w) :
    Agrees registry (Redaction.walkSlot (·.metadata registry) w m action slot) fun known =>
      Redaction.walkSlot known w m action slot := by
  cases slot with
  | field f =>
      cases action with
      | apply index => exact (ofExcept _).bind fun copy => pure _
      | walk => exact pure _
  | value v =>
      cases action with
      | apply index => exact pure _
      | walk => exact (h v rfl).bind fun copy => pure _

theorem walkSlots {w : Walker} {m : Metadata} {steps : List Step} {position : Nat}
    {slots : List Slot} (h : ∀ v, Slot.value v ∈ slots →
      Agrees registry (v.walk (·.metadata registry) w) fun known => v.walk known w) :
    Agrees registry (Redaction.walkSlots (·.metadata registry) w m steps position slots)
      fun known => Redaction.walkSlots known w m steps position slots := by
  induction slots generalizing steps position with
  | nil => exact pure []
  | cons slot rest ih =>
      have hrest : ∀ v, Slot.value v ∈ rest →
          Agrees registry (v.walk (·.metadata registry) w) fun known => v.walk known w :=
        fun v hv => h v (List.mem_cons_of_mem slot hv)
      cases steps with
      | nil => exact pure _
      | cons step later =>
          refine ite ?_ ?_
          · refine (walkSlot fun v hv => h v (hv ▸ List.mem_cons_self)).bind fun copy => ?_
            exact (ih hrest).bind fun copies => pure _
          · exact (ih hrest).bind fun copies => pure _

theorem walk (v : Value) (w : Walker) :
    Agrees registry (v.walk (·.metadata registry) w) fun known => v.walk known w := by
  induction v using Value.induction generalizing w with
  | leaf l => exact ite (pure _) (throw _)
  | absent => exact pure _
  | layer outer inner ih => exact (ih w).bind fun copy => pure _
  | sequence kind items ih =>
      exact (walkItems fun v hv => ih v hv w).bind fun copies => ite (throw _) (pure _)
  | set kind items ih => exact (walkItems fun v hv => ih v hv w).bind fun copies => pure _
  | map kind entries ih => exact (walkEntries fun e he => ih e he w).bind fun copies => pure _
  | record type variant slots ih =>
      refine (metadata type).bind fun m => ?_
      exact (walkSlots fun v hv => ih v hv w.enterRecord).bind fun copies => pure _

end Agrees

end Redaction
