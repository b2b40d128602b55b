import Mathlib.Data.Finset.Card
import Mathlib.Data.List.DropRight
import Redaction.Record.Cache

/-!
# Histories of a cache

Calls made one after another on a new cache, each noted in a log with the state that it met. What
the cache holds can be read off the log: under each key stands what the first successful call on the
key has compiled since the cache was last cleared. Registries, type names and specifications differ
from call to call, and a call that meets an entry makes use of none of them.
-/

namespace Redaction

/-- A call of a cache. The specifications are a step of their own, so that it shows in the state of
the factories whether a call has asked for them. -/
inductive CacheCall (κ σ : Type) where
  | getOrCompile (registry : Registry σ) (key : κ) (typeName : String)
      (specs : StateM σ (List FieldSpec))
  | get (key : κ)
  | size
  | isEmpty
  | clear

inductive CacheAnswer where
  | metadata (result : Except RedactError Metadata)
  | stored (found : Option Metadata)
  | count (n : Nat)
  | truth (b : Bool)
  | cleared

variable {κ σ : Type} [DecidableEq κ]

namespace CacheCall

def run (s : WorkState κ σ) : CacheCall κ σ → CacheAnswer × WorkState κ σ
  | getOrCompile registry key typeName specs =>
      ((getOrCompileBy registry key typeName specs).runFrom s).map .metadata id
  | get key => (.stored (s.cache.find? key), s)
  | size => (.count s.cache.size, s)
  | isEmpty => (.truth s.cache.isEmpty, s)
  | clear => (.cleared, ⟨.empty, s.factories⟩)

def isClear : CacheCall κ σ → Bool
  | clear => true
  | _ => false

end CacheCall

/-- A call, and the state in which it is made. -/
structure CacheEvent (κ σ : Type) where
  before : WorkState κ σ
  call : CacheCall κ σ

namespace CacheEvent

def answer (e : CacheEvent κ σ) : CacheAnswer := (e.call.run e.before).1

def after (e : CacheEvent κ σ) : WorkState κ σ := (e.call.run e.before).2

/-- The metadata with which a call on a key succeeds, stored or compiled. -/
def success? (key : κ) (e : CacheEvent κ σ) : Option Metadata :=
  match e.call, e.answer with
  | .getOrCompile _ k _ _, .metadata (.ok m) => if k = key then some m else none
  | _, _ => none

/-- A call on a key under which nothing is stored, which compiles metadata. -/
def Compiles (e : CacheEvent κ σ) (key : κ) (m : Metadata) : Prop :=
  ∃ registry typeName specs, e.call = .getOrCompile registry key typeName specs ∧
    e.before.cache.find? key = none ∧
      ((Metadata.compileBy registry typeName specs).runFrom e.before.factories).1 = .ok m

end CacheEvent

/-- The first call in a row that succeeds on a key compiles the metadata. -/
def FirstCompiled (events : List (CacheEvent κ σ)) (key : κ) (m : Metadata) : Prop :=
  ∃ earlier e later, events = earlier ++ e :: later ∧ (∀ d ∈ earlier, d.success? key = none) ∧
    e.Compiles key m

structure CacheHistory (κ σ : Type) where
  log : List (CacheEvent κ σ)
  state : WorkState κ σ

namespace CacheHistory

def new (factories : σ) : CacheHistory κ σ := ⟨[], ⟨.empty, factories⟩⟩

def call (h : CacheHistory κ σ) (c : CacheCall κ σ) : CacheHistory κ σ :=
  ⟨h.log ++ [⟨h.state, c⟩], (c.run h.state).2⟩

def calls (h : CacheHistory κ σ) (cs : List (CacheCall κ σ)) : CacheHistory κ σ := cs.foldl call h

def sinceClear (h : CacheHistory κ σ) : List (CacheEvent κ σ) :=
  h.log.rtakeWhile fun e => !e.call.isClear

@[simp] theorem calls_concat (h : CacheHistory κ σ) (cs : List (CacheCall κ σ))
    (c : CacheCall κ σ) : h.calls (cs ++ [c]) = (h.calls cs).call c :=
  List.foldl_append

theorem sinceClear_call (h : CacheHistory κ σ) {c : CacheCall κ σ} (hc : c.isClear = false) :
    (h.call c).sinceClear = h.sinceClear ++ [⟨h.state, c⟩] :=
  List.rtakeWhile_concat_pos _ _ _ (by simp [hc])

theorem sinceClear_call_clear (h : CacheHistory κ σ) : (h.call .clear).sinceClear = [] :=
  List.rtakeWhile_concat_neg _ _ _ (by simp [CacheCall.isClear])

end CacheHistory

/-! ## One call -/

section

variable {s : WorkState κ σ} {registry : Registry σ} {key : κ} {typeName : String}
  {specs : StateM σ (List FieldSpec)}

theorem runFrom_getOrCompileBy_of_some {m : Metadata} (h : s.cache.find? key = some m) :
    (getOrCompileBy registry key typeName specs).runFrom s = (.ok m, s) := by
  rw [runFrom_getOrCompileBy, h]

theorem runFrom_getOrCompileBy_of_ok (h : s.cache.find? key = none) {m : Metadata} {f : σ}
    (hc : (Metadata.compileBy registry typeName specs).runFrom s.factories = (.ok m, f)) :
    (getOrCompileBy registry key typeName specs).runFrom s =
      (.ok m, ⟨s.cache.insert key m, f⟩) := by
  rw [runFrom_getOrCompileBy, h, hc]

theorem runFrom_getOrCompileBy_of_error (h : s.cache.find? key = none) {e : RedactError} {f : σ}
    (hc : (Metadata.compileBy registry typeName specs).runFrom s.factories = (.error e, f)) :
    (getOrCompileBy registry key typeName specs).runFrom s = (.error e, ⟨s.cache, f⟩) := by
  rw [runFrom_getOrCompileBy, h, hc]

end

theorem CacheEvent.Compiles.success?_eq {e : CacheEvent κ σ} {key : κ} {m : Metadata}
    (h : e.Compiles key m) (k : κ) : e.success? k = if key = k then some m else none := by
  obtain ⟨s, c⟩ := e
  obtain ⟨registry, typeName, specs, rfl, hnone, hm⟩ := h
  have hr := Prod.ext (y := (_, _)) hm rfl
  simp [success?, answer, CacheCall.run, runFrom_getOrCompileBy_of_ok hnone hr]

/-- All that a call can do to a cache. -/
inductive CacheEvent.Effect (e : CacheEvent κ σ) : Prop
  | clears (hclear : e.call.isClear = true) (hafter : e.after.cache = .empty)
  | keeps (hclear : e.call.isClear = false) (hafter : e.after.cache = e.before.cache)
      (hsuccess : ∀ key m, e.success? key = some m → e.before.cache.find? key = some m)
  | stores (hclear : e.call.isClear = false) (key : κ) (m : Metadata) (hcompiles : e.Compiles key m)
      (hafter : e.after.cache = e.before.cache.insert key m)

namespace CacheEvent

theorem effect (e : CacheEvent κ σ) : e.Effect := by
  obtain ⟨s, c⟩ := e
  cases c with
  | getOrCompile registry key typeName specs =>
      cases hk : s.cache.find? key with
      | some m =>
          have hrun : (getOrCompileBy registry key typeName specs).runFrom s = (.ok m, s) :=
            runFrom_getOrCompileBy_of_some hk
          refine .keeps rfl (by simp [after, CacheCall.run, hrun]) ?_
          intro k n hn
          obtain ⟨rfl, rfl⟩ : key = k ∧ m = n := by
            simpa [success?, answer, CacheCall.run, hrun] using hn
          exact hk
      | none =>
          rcases hr : (Metadata.compileBy registry typeName specs).runFrom s.factories with
            ⟨e | m, f⟩
          · have hrun := runFrom_getOrCompileBy_of_error hk hr
            refine .keeps rfl (by simp [after, CacheCall.run, hrun]) ?_
            intro k n hn
            simp [success?, answer, CacheCall.run, hrun] at hn
          · have hrun := runFrom_getOrCompileBy_of_ok hk hr
            refine .stores rfl key m ?_ (by simp [after, CacheCall.run, hrun])
            exact ⟨registry, typeName, specs, rfl, hk, congrArg Prod.fst hr⟩
  | get | size | isEmpty => exact .keeps rfl rfl nofun
  | clear => exact .clears rfl rfl

variable {e : CacheEvent κ σ} {key : κ} {m : Metadata}

/-- What a call adds is what it succeeds with, and only where nothing is stored yet. -/
theorem find?_after (hclear : e.call.isClear = false) (key : κ) :
    e.after.cache.find? key = (e.before.cache.find? key).or (e.success? key) := by
  cases e.effect with
  | clears h _ => exact absurd (h.symm.trans hclear) nofun
  | keeps _ hafter hsuccess =>
      rw [hafter]
      cases hb : e.before.cache.find? key with
      | some m => rfl
      | none =>
          have hnone : e.success? key = none :=
            Option.eq_none_iff_forall_ne_some.mpr fun m hm =>
              nomatch hb.symm.trans (hsuccess key m hm)
          rw [hnone, Option.or_none]
  | stores _ k m hcompiles hafter =>
      rw [hafter, Cache.find?_insert, hcompiles.success?_eq]
      by_cases hk : key = k
      · subst hk
        obtain ⟨_, _, _, _, hnone, _⟩ := hcompiles
        simp [hnone]
      · simp [hk, Ne.symm hk]

/-- An entry that was not there before a call was compiled by the call. -/
theorem compiles_of_find?_after (hbefore : e.before.cache.find? key = none)
    (hafter : e.after.cache.find? key = some m) : e.Compiles key m := by
  cases e.effect with
  | clears _ h =>
      rw [h] at hafter
      cases hafter
  | keeps _ h _ =>
      rw [h, hbefore] at hafter
      cases hafter
  | stores _ k n hcompiles h =>
      rw [h, Cache.find?_insert] at hafter
      by_cases hk : key = k
      · subst hk
        rw [if_pos rfl, hbefore] at hafter
        cases hafter
        exact hcompiles
      · rw [if_neg hk, hbefore] at hafter
        cases hafter

end CacheEvent

/-! ## Keys -/

namespace Cache

def keys (c : Cache κ) : List κ := c.entries.map Prod.fst

theorem mem_keys_iff {c : Cache κ} {key : κ} : key ∈ c.keys ↔ (c.find? key).isSome = true := by
  simp [keys, find?, List.lookup_isSome_iff]

omit [DecidableEq κ] in
theorem isEmpty_eq (c : Cache κ) : c.isEmpty = (c.size == 0) := by
  cases h : c.entries <;> simp [isEmpty, size, h]

theorem nodup_keys_insert {c : Cache κ} (h : c.keys.Nodup) (key : κ) (m : Metadata) :
    (c.insert key m).keys.Nodup := by
  unfold insert
  split
  · exact h
  · next hnone =>
      have hkey : key ∉ c.keys := fun hmem => hnone (mem_keys_iff.mp hmem)
      exact List.nodup_cons.mpr ⟨hkey, h⟩

end Cache

theorem CacheEvent.nodup_keys_after {e : CacheEvent κ σ} (h : e.before.cache.keys.Nodup) :
    e.after.cache.keys.Nodup := by
  cases e.effect with
  | clears _ hafter =>
      rw [hafter]
      exact List.nodup_nil
  | keeps _ hafter _ => rwa [hafter]
  | stores _ key m _ hafter =>
      rw [hafter]
      exact Cache.nodup_keys_insert h key m

/-! ## Histories -/

theorem FirstCompiled.findSome?_eq {events : List (CacheEvent κ σ)} {key : κ} {m : Metadata}
    (h : FirstCompiled events key m) : events.findSome? (·.success? key) = some m := by
  obtain ⟨earlier, e, later, rfl, hearlier, he⟩ := h
  have hm : e.success? key = some m := by rw [he.success?_eq, if_pos rfl]
  exact List.findSome?_eq_some_iff.mpr ⟨earlier, e, later, rfl, hm, hearlier⟩

theorem FirstCompiled.concat {events : List (CacheEvent κ σ)} {key : κ} {m : Metadata}
    (h : FirstCompiled events key m) (e : CacheEvent κ σ) : FirstCompiled (events ++ [e]) key m := by
  obtain ⟨earlier, d, later, rfl, hearlier, hd⟩ := h
  exact ⟨earlier, d, later ++ [e], by simp, hearlier, hd⟩

namespace CacheHistory

section

variable (factories : σ) (cs : List (CacheCall κ σ))

theorem find?_calls (key : κ) :
    ((new factories).calls cs).state.cache.find? key =
      ((new factories).calls cs).sinceClear.findSome? (·.success? key) := by
  induction cs using List.reverseRecOn with
  | nil => rfl
  | append_singleton cs c ih =>
      rw [calls_concat]
      set h := (new factories).calls cs
      by_cases hc : c.isClear = false
      · calc
          (h.call c).state.cache.find? key
            = (h.state.cache.find? key).or (CacheEvent.success? key ⟨h.state, c⟩) :=
              CacheEvent.find?_after (e := ⟨h.state, c⟩) hc key
          _ = (h.call c).sinceClear.findSome? (·.success? key) := by
              rw [ih, sinceClear_call h hc, List.findSome?_append, List.findSome?_singleton]
      · cases c with
        | clear =>
            rw [sinceClear_call_clear]
            rfl
        | _ => exact absurd rfl hc

theorem firstCompiled_of_find?_calls {key : κ} {m : Metadata}
    (hm : ((new factories).calls cs).state.cache.find? key = some m) :
    FirstCompiled ((new factories).calls cs).sinceClear key m := by
  induction cs using List.reverseRecOn with
  | nil => cases hm
  | append_singleton cs c ih =>
      have hlog := find?_calls factories cs key
      rw [calls_concat] at hm ⊢
      set h := (new factories).calls cs
      by_cases hc : c.isClear = false
      · rw [sinceClear_call h hc]
        cases hb : h.state.cache.find? key with
        | some n =>
            have hkept := CacheEvent.find?_after (e := ⟨h.state, c⟩) hc key
            rw [hb, Option.some_or] at hkept
            have hn : n = m := Option.some.inj (hkept.symm.trans hm)
            exact (ih (hn ▸ hb)).concat _
        | none =>
            -- no call before has succeeded, so this one is the first
            have hearlier := List.findSome?_eq_none_iff.mp (hlog.symm.trans hb)
            have hcompiles := CacheEvent.compiles_of_find?_after (e := ⟨h.state, c⟩) hb hm
            exact ⟨h.sinceClear, ⟨h.state, c⟩, [], rfl, hearlier, hcompiles⟩
      · cases c with
        | clear => cases hm
        | _ => exact absurd rfl hc

theorem nodup_keys_calls : ((new factories).calls cs).state.cache.keys.Nodup := by
  induction cs using List.reverseRecOn with
  | nil => exact List.nodup_nil
  | append_singleton cs c ih =>
      rw [calls_concat]
      exact CacheEvent.nodup_keys_after (e := ⟨_, c⟩) ih

end

theorem find?_calls_of_some {h : CacheHistory κ σ} {key : κ} {m : Metadata}
    (hm : h.state.cache.find? key = some m) {later : List (CacheCall κ σ)}
    (hl : ∀ c ∈ later, c.isClear = false) : (h.calls later).state.cache.find? key = some m := by
  induction later generalizing h with
  | nil => exact hm
  | cons c rest ih =>
      obtain ⟨hc, hrest⟩ := List.forall_mem_cons.mp hl
      have hkept := CacheEvent.find?_after (e := ⟨h.state, c⟩) hc key
      rw [show (CacheEvent.before ⟨h.state, c⟩).cache.find? key = some m from hm,
        Option.some_or] at hkept
      exact ih hkept hrest

/-- What a cache owes to its history: which keys are present, what stands under them, that calls on
a present key answer with the entry and do nothing else, that entries stay until the cache is
cleared, that calls on an absent key compile, and that the present keys are counted. -/
structure KeepsFirst (h : CacheHistory κ σ) : Prop where
  present_iff : ∀ key, (h.state.cache.find? key).isSome = true ↔
    ∃ e ∈ h.sinceClear, (e.success? key).isSome = true
  entry_iff : ∀ key m, h.state.cache.find? key = some m ↔ FirstCompiled h.sinceClear key m
  hit : ∀ key m, h.state.cache.find? key = some m →
    (CacheCall.get key).run h.state = (.stored (some m), h.state) ∧
      ∀ registry typeName specs,
        (CacheCall.getOrCompile registry key typeName specs).run h.state =
          (.metadata (.ok m), h.state)
  stays : ∀ key m, h.state.cache.find? key = some m → ∀ later : List (CacheCall κ σ),
    (∀ c ∈ later, c.isClear = false) → (h.calls later).state.cache.find? key = some m
  miss : ∀ key, h.state.cache.find? key = none →
    (CacheCall.get key).run h.state = (.stored none, h.state) ∧
      ∀ registry typeName specs result factories,
        (Metadata.compile registry typeName (specs.run h.state.factories).1).runFrom
            (specs.run h.state.factories).2 = (result, factories) →
          ∃ after, (CacheCall.getOrCompile registry key typeName specs).run h.state =
              (.metadata result, after) ∧
            ∀ e, result = .error e → after = ⟨h.state.cache, factories⟩
  counted : ∃ keys : Finset κ, (∀ key, key ∈ keys ↔ (h.state.cache.find? key).isSome = true) ∧
    CacheCall.size.run h.state = (.count keys.card, h.state) ∧
      CacheCall.isEmpty.run h.state = (.truth (keys.card == 0), h.state)

/-- Whatever calls are made on a new cache, and whatever they are given. -/
theorem keepsFirst_calls (factories : σ) (cs : List (CacheCall κ σ)) :
    ((new factories).calls cs).KeepsFirst := by
  set h := (new factories).calls cs
  have hlog : ∀ key, h.state.cache.find? key = h.sinceClear.findSome? (·.success? key) :=
    find?_calls factories cs
  have hcard : h.state.cache.keys.toFinset.card = h.state.cache.size := by
    rw [List.toFinset_card_of_nodup (nodup_keys_calls factories cs), Cache.keys, List.length_map,
      Cache.size]
  refine ⟨?_, ?_, ?_, ?_, ?_, ?_⟩
  · intro key
    rw [hlog, List.findSome?_isSome_iff]
  · intro key m
    refine ⟨firstCompiled_of_find?_calls factories cs, fun hfirst => ?_⟩
    rw [hlog, hfirst.findSome?_eq]
  · intro key m hm
    refine ⟨by rw [CacheCall.run, hm], fun registry typeName specs => ?_⟩
    rw [CacheCall.run, runFrom_getOrCompileBy_of_some hm]
    rfl
  · intro key m hm later hl
    exact find?_calls_of_some hm hl
  · intro key hnone
    refine ⟨by rw [CacheCall.run, hnone], fun registry typeName specs result f hc => ?_⟩
    rw [← Metadata.runFrom_compileBy] at hc
    rw [CacheCall.run]
    cases result with
    | ok m =>
        rw [runFrom_getOrCompileBy_of_ok hnone hc]
        exact ⟨_, rfl, nofun⟩
    | error e =>
        rw [runFrom_getOrCompileBy_of_error hnone hc]
        exact ⟨_, rfl, fun _ _ => rfl⟩
  · refine ⟨h.state.cache.keys.toFinset, fun key => ?_, ?_, ?_⟩
    · rw [List.mem_toFinset, Cache.mem_keys_iff]
    · rw [CacheCall.run, hcard]
    · rw [CacheCall.run, hcard, Cache.isEmpty_eq]

end CacheHistory

end Redaction
