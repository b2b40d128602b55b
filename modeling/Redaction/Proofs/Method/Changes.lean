import Mathlib.Data.List.Induction
import Redaction.Method.Registry
import Redaction.Proofs.Text.LowerCase
import Redaction.Proofs.Text.Utf8

/-!
# Changes of a registry

Methods are registered and switched off, one after another, under names in any case. What stands
under a name can be read off the changes: the factory of the last registration of the name, if the
name was not switched off since. The names themselves are listed in lowercase and in order.
-/

namespace Redaction

open Redaction.Text

variable {σ : Type}

inductive RegistryChange (σ : Type) where
  | register (name : String) (factory : Factory σ)
  | disable (name : String)

namespace RegistryChange

def name : RegistryChange σ → String
  | register name _ => name
  | disable name => name

/-- The factory that stands under the name after a change. -/
def factory? : RegistryChange σ → Option (Factory σ)
  | register _ factory => some factory
  | disable _ => none

/-- The registry after a change, and the answer if the change gives one. -/
def run (r : Registry σ) : RegistryChange σ → Option Bool × Registry σ
  | register name factory => (none, r.register name factory)
  | disable name => ((r.withdraw name).1, (r.withdraw name).2)

end RegistryChange

/-- The last change under a name, whatever its case, registers the factory. -/
def LastRegistered (changes : List (RegistryChange σ)) (name : String) (factory : Factory σ) :
    Prop :=
  ∃ earlier written later, changes = earlier ++ .register written factory :: later ∧
    lower written = lower name ∧ ∀ c ∈ later, lower c.name ≠ lower name

namespace Registry

/-- The registry after a row of changes, and the answers to them. -/
def run (r : Registry σ) : List (RegistryChange σ) → List (Option Bool) × Registry σ
  | [] => ([], r)
  | c :: rest => ((c.run r).1 :: ((c.run r).2.run rest).1, ((c.run r).2.run rest).2)

/-- What a new registry may begin with. -/
inductive Base where
  | empty
  | builtin
  deriving DecidableEq, Repr

def Base.registry : Base → Registry σ
  | empty => .empty
  | builtin => .builtin

/-- The built-in methods count as registered before anything else. -/
def Base.registrations : Base → List (RegistryChange σ)
  | empty => []
  | builtin => [.register "zero" Method.zero, .register "star" Method.star,
      .register "remove" Method.remove, .register "redact" Method.redact]

theorem run_append (r : Registry σ) (xs ys : List (RegistryChange σ)) :
    r.run (xs ++ ys) = ((r.run xs).1 ++ ((r.run xs).2.run ys).1, ((r.run xs).2.run ys).2) := by
  induction xs generalizing r with
  | nil => rfl
  | cons c rest ih =>
      rw [List.cons_append, run, run, ih]
      rfl

theorem length_answers (r : Registry σ) (changes : List (RegistryChange σ)) :
    (r.run changes).1.length = changes.length := by
  induction changes generalizing r with
  | nil => rfl
  | cons c rest ih => rw [run, List.length_cons, List.length_cons, ih]

theorem Base.registry_eq (start : Base) :
    (start.registry : Registry σ) = (Registry.empty.run start.registrations).2 := by
  cases start <;> rfl

theorem run_base (start : Base) (changes : List (RegistryChange σ)) :
    (start.registry.run changes).2 = (empty.run (start.registrations ++ changes)).2 := by
  rw [run_append, start.registry_eq]

theorem run_concat (r : Registry σ) (changes : List (RegistryChange σ)) (c : RegistryChange σ) :
    (r.run (changes ++ [c])).2 = (c.run (r.run changes).2).2 := by
  rw [run_append]
  rfl

/-! ## Look-up -/

theorem find?_change (r : Registry σ) (c : RegistryChange σ) (name : String) :
    (c.run r).2.find? name = if lower c.name = lower name then c.factory? else r.find? name := by
  cases c with
  | register written factory => exact find?_register r written factory name
  | disable written => exact find?_disable r written name

/-- A change under another name leaves the last registration as it was. -/
theorem lastRegistered_concat {changes : List (RegistryChange σ)} {c : RegistryChange σ}
    {name : String} {factory : Factory σ} :
    LastRegistered (changes ++ [c]) name factory ↔
      if lower c.name = lower name then c.factory? = some factory
      else LastRegistered changes name factory := by
  constructor
  · rintro ⟨earlier, written, later, heq, hname, hlater⟩
    rcases List.eq_nil_or_concat later with rfl | ⟨rest, d, rfl⟩
    · obtain ⟨-, hlast⟩ := List.append_inj' heq rfl
      obtain rfl := List.head_eq_of_cons_eq hlast
      rw [RegistryChange.name, if_pos hname, RegistryChange.factory?]
    · rw [List.concat_eq_append, ← List.cons_append, ← List.append_assoc] at heq
      obtain ⟨rfl, hlast⟩ := List.append_inj' heq rfl
      obtain rfl := List.head_eq_of_cons_eq hlast
      rw [List.concat_eq_append, List.forall_mem_append] at hlater
      obtain ⟨hrest, hc⟩ := hlater
      rw [if_neg (hc c (List.mem_singleton_self c))]
      exact ⟨earlier, written, rest, rfl, hname, hrest⟩
  · intro h
    split at h
    · next hc =>
        cases c with
        | register written f =>
            cases h
            exact ⟨changes, written, [], rfl, hc, List.forall_mem_nil _⟩
        | disable written => cases h
    · next hc =>
        obtain ⟨earlier, written, later, rfl, hname, hlater⟩ := h
        refine ⟨earlier, written, later ++ [c], by simp, hname, ?_⟩
        rw [List.forall_mem_append]
        exact ⟨hlater, List.forall_mem_singleton.mpr hc⟩

/-- What stands under a name is decided by the last change under it. -/
theorem find?_run_eq_some_iff {changes : List (RegistryChange σ)} {name : String}
    {factory : Factory σ} :
    (empty.run changes).2.find? name = some factory ↔ LastRegistered changes name factory := by
  induction changes using List.reverseRecOn with
  | nil => simp [run, LastRegistered]
  | append_singleton rest c ih =>
      rw [run_concat, find?_change, lastRegistered_concat]
      split
      · rfl
      · exact ih

/-! ## Names -/

theorem mem_names_iff {r : Registry σ} {n : String} : n ∈ r.names ↔ n ∈ r.methods :=
  Std.TreeMap.mem_keys

/-- Names are put into lowercase before they are stored. -/
theorem lower_of_mem_names_change {r : Registry σ} (h : ∀ n ∈ r.names, lower n = n)
    (c : RegistryChange σ) : ∀ n ∈ (c.run r).2.names, lower n = n := by
  intro n hn
  rw [mem_names_iff] at hn
  cases c with
  | register written factory =>
      rcases Std.TreeMap.mem_insert.mp hn with hnew | hold
      · rw [← Std.LawfulEqCmp.eq_of_compare hnew, lower_lower]
      · exact h n (mem_names_iff.mpr hold)
  | disable written =>
      obtain ⟨-, hold⟩ := Std.TreeMap.mem_erase.mp hn
      exact h n (mem_names_iff.mpr hold)

theorem lower_of_mem_names_run {changes : List (RegistryChange σ)} :
    ∀ n ∈ (empty.run changes).2.names, lower n = n := by
  induction changes using List.reverseRecOn with
  | nil =>
      intro n hn
      cases (Std.TreeMap.mem_keys.mp hn)
  | append_singleton rest c ih =>
      rw [run_concat]
      exact lower_of_mem_names_change ih c

theorem names_sorted (r : Registry σ) :
    r.names.Pairwise fun a b => Utf8.encode a < Utf8.encode b := by
  refine Std.TreeMap.ordered_keys.imp ?_
  intro a b h
  exact Utf8.encode_lt_encode (compareOfLessAndEq_eq_lt.mp h)

theorem contains_eq (r : Registry σ) (name : String) :
    r.contains name = r.methods.contains (lower name) := by
  rw [contains, find?, Std.TreeMap.contains_eq_isSome_getElem?]

/-! ## Runs -/

/-- What a registry owes to the changes made to it: which factory stands under a name, what the
answers say of the names that were switched off, and how the names are listed. -/
structure KeepsLast (start : Base) (changes : List (RegistryChange σ)) : Prop where
  found_iff : ∀ name factory, (start.registry.run changes).2.find? name = some factory ↔
    LastRegistered (start.registrations ++ changes) name factory
  not_found_iff : ∀ name, (start.registry.run changes).2.find? name = none ↔
    ∀ factory, ¬LastRegistered (start.registrations ++ changes) name factory
  answered : ∀ earlier name later, changes = earlier ++ .disable name :: later →
    (start.registry.run changes).1[earlier.length]? =
      some (some ((start.registry.run earlier).2.contains name))
  sorted : (start.registry.run changes).2.names.Pairwise fun a b => Utf8.encode a < Utf8.encode b
  listed_iff : ∀ name, name ∈ (start.registry.run changes).2.names ↔
    lower name = name ∧ (start.registry.run changes).2.contains name = true
  counted : (start.registry.run changes).2.size = (start.registry.run changes).2.names.length

/-- Whatever changes are made to a new registry, and in whatever case the names are written. -/
theorem keepsLast_run (start : Base) (changes : List (RegistryChange σ)) :
    KeepsLast start changes := by
  have hfound : ∀ name factory, (start.registry.run changes).2.find? name = some factory ↔
      LastRegistered (start.registrations ++ changes) name factory := by
    intro name factory
    rw [run_base, find?_run_eq_some_iff]
  have hlower : ∀ n ∈ (start.registry.run changes).2.names, lower n = n := by
    rw [run_base]
    exact lower_of_mem_names_run
  refine ⟨hfound, ?_, ?_, names_sorted _, ?_, Std.TreeMap.length_keys.symm⟩
  · intro name
    simp only [Option.eq_none_iff_forall_ne_some, ne_eq, hfound]
  · rintro earlier name later rfl
    have hanswer : (start.registry.run (earlier ++ .disable name :: later)).1[earlier.length]? =
        some ((RegistryChange.disable name).run (start.registry.run earlier).2).1 := by
      rw [run_append, List.getElem?_append_right (Nat.le_of_eq (length_answers _ _)),
        length_answers, Nat.sub_self, run]
      rfl
    rw [hanswer, contains_eq]
    rfl
  · intro name
    rw [contains_eq, Std.TreeMap.contains_iff_mem, mem_names_iff]
    constructor
    · intro hmem
      have hname := hlower name (mem_names_iff.mpr hmem)
      exact ⟨hname, by rwa [hname]⟩
    · rintro ⟨hname, hmem⟩
      rwa [hname] at hmem

example : ((Base.builtin.registry : Registry Unit).run
    [.disable "STAR", .disable "star", .register "Star" Method.remove]).1 =
      [some true, some false, none] := by decide +kernel

end Registry

end Redaction
