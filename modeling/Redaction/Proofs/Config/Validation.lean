import Redaction.Config.Basic
import Redaction.Proofs.Earlier
import Redaction.Text.LowerCase

/-!
# What the validation of a configuration reports

A configuration is valid when no name in a list is blank and no two names of a list have the same
lowercase form. Otherwise the message has a line for each blank name and one for each name that
repeats an earlier name of its list which is not blank.
-/

namespace Redaction.Config

open Redaction.Text

def names (c : Config) : Entry → List String
  | .defaultGroups => c.defaultGroups
  | .disabledMethods => c.disabledMethods

/-- Names that are not blank, of which no two are the same in some case of letters. -/
structure ValidNames (names : List String) : Prop where
  visible : ∀ name ∈ names, ∃ c ∈ name.toList, isWhiteSpace c = false
  distinct : (names.map lower).Nodup

/-- Whether a name repeats one of those before it; that of a blank name is no repetition. -/
def repeats (earlier : List String) (name : String) : Bool :=
  earlier.any fun other => !isBlank other && lower other == lower name

/-- The line that is reported of a name, if there is one, given whether it is a repetition. -/
def line? (key : String) (repeated : Bool) (name : String) : Option String :=
  if isBlank name then some ("`" ++ key ++ "` contains an empty name.")
  else if repeated then some ("Duplicate name in `" ++ key ++ "`: '" ++ name ++ "'.")
  else none

def reports (c : Config) (list : Entry) : List String :=
  (withEarlier (c.names list)).filterMap fun x => line? list.key (repeats x.1 x.2) x.2

/-! ## Valid names -/

theorem validNames_nil : ValidNames [] := ⟨List.forall_mem_nil _, List.nodup_nil⟩

theorem validNames_cons {name : String} {rest : List String} :
    ValidNames (name :: rest) ↔
      isBlank name = false ∧ (∀ other ∈ rest, lower other ≠ lower name) ∧ ValidNames rest := by
  have hmem : lower name ∉ rest.map lower ↔ ∀ other ∈ rest, lower other ≠ lower name := by simp
  constructor
  · rintro ⟨hvisible, hdistinct⟩
    obtain ⟨hname, hrest⟩ := List.forall_mem_cons.mp hvisible
    obtain ⟨hnew, hlater⟩ := List.nodup_cons.mp hdistinct
    exact ⟨isBlank_eq_false_iff.mpr hname, hmem.mp hnew, hrest, hlater⟩
  · rintro ⟨hname, hnew, hrest, hlater⟩
    exact ⟨List.forall_mem_cons.mpr ⟨isBlank_eq_false_iff.mp hname, hrest⟩,
      List.nodup_cons.mpr ⟨hmem.mpr hnew, hlater⟩⟩

/-- Nothing is reported of valid names that are not seen before. -/
theorem faultsAfter_eq_nil_iff (list : Entry) (seen names : List String) :
    faultsAfter list seen names = [] ↔ ValidNames names ∧ ∀ name ∈ names, lower name ∉ seen := by
  induction names generalizing seen with
  | nil => simp [faultsAfter, validNames_nil]
  | cons name rest ih =>
      rw [faultsAfter, validNames_cons, List.forall_mem_cons]
      cases hblank : isBlank name with
      | true => simp
      | false =>
          by_cases hseen : lower name ∈ seen
          · simp [hseen]
          · rw [if_neg Bool.false_ne_true, if_neg hseen, ih]
            simp only [List.mem_cons, not_or, true_and, hseen, not_false_eq_true]
            constructor
            · rintro ⟨hrest, hnew⟩
              exact ⟨⟨fun other ho => (hnew other ho).1, hrest⟩, fun other ho => (hnew other ho).2⟩
            · rintro ⟨⟨hnew, hrest⟩, hseen'⟩
              exact ⟨hrest, fun other ho => ⟨hnew other ho, hseen' other ho⟩⟩

/-! ## The message -/

theorem repeats_cons (other : String) (earlier : List String) (name : String) :
    repeats (other :: earlier) name =
      ((!isBlank other && lower other == lower name) || repeats earlier name) := List.any_cons

/-- What is seen later depends on the first name only through its lowercase form. -/
theorem seen_or_repeats_cons {name : String} {seen seen' : List String}
    (h : ∀ l, l ∈ seen' ↔ l ∈ seen ∨ (isBlank name = false ∧ l = lower name))
    (earlier : List String) (other : String) :
    (decide (lower other ∈ seen) || repeats (name :: earlier) other) =
      (decide (lower other ∈ seen') || repeats earlier other) := by
  rw [repeats_cons, Bool.eq_iff_iff]
  simp only [Bool.or_eq_true, Bool.and_eq_true, decide_eq_true_eq, Bool.not_eq_true', beq_iff_eq, h,
    or_assoc, eq_comm (a := lower other)]

/-- A name is taken for a repetition if its lowercase form was seen. The forms that were seen stand
for the names that are passed, blank ones apart, which carries the induction. -/
theorem map_message_faultsAfter (list : Entry) (seen names : List String) :
    (faultsAfter list seen names).map Fault.message = (withEarlier names).filterMap fun x =>
      line? list.key (decide (lower x.2 ∈ seen) || repeats x.1 x.2) x.2 := by
  induction names generalizing seen with
  | nil => rfl
  | cons name rest ih =>
      have hrow : ∀ seen', (∀ l, l ∈ seen' ↔ l ∈ seen ∨ (isBlank name = false ∧ l = lower name)) →
          (withEarlier (name :: rest)).filterMap (fun x =>
            line? list.key (decide (lower x.2 ∈ seen) || repeats x.1 x.2) x.2) =
              (line? list.key (decide (lower name ∈ seen)) name).toList ++
                (faultsAfter list seen' rest).map Fault.message := by
        intro seen' h
        have hfirst : (decide (lower name ∈ seen) || repeats [] name) =
            decide (lower name ∈ seen) := Bool.or_false _
        rw [withEarlier_cons, List.filterMap_cons, List.filterMap_map, ih, hfirst]
        simp only [Function.comp_def, Prod.map_fst, Prod.map_snd, id_eq, seen_or_repeats_cons h]
        cases line? list.key (decide (lower name ∈ seen)) name <;> rfl
      rw [faultsAfter]
      cases hblank : isBlank name with
      | true =>
          rw [hrow seen (by simp [hblank]), line?, hblank]
          rfl
      | false =>
          by_cases hseen : lower name ∈ seen
          · have hsame : ∀ l, l ∈ seen ↔ l ∈ seen ∨ (isBlank name = false ∧ l = lower name) := by
              intro l
              refine ⟨.inl, ?_⟩
              rintro (hl | ⟨-, rfl⟩)
              · exact hl
              · exact hseen
            rw [hrow seen hsame, line?, hblank, if_neg Bool.false_ne_true, if_pos hseen,
              if_neg Bool.false_ne_true, if_pos (decide_eq_true hseen)]
            rfl
          · rw [hrow (lower name :: seen) (by simp [hblank, or_comm]), line?, hblank,
              if_neg Bool.false_ne_true, if_neg hseen, if_neg Bool.false_ne_true,
              if_neg (by simpa using hseen)]
            rfl

theorem map_message_faults (c : Config) :
    c.faults.map Fault.message = c.reports .defaultGroups ++ c.reports .disabledMethods := by
  have hlist : ∀ list, (faultsAfter list [] (c.names list)).map Fault.message = c.reports list := by
    intro list
    rw [map_message_faultsAfter, reports]
    simp only [List.not_mem_nil, decide_false, Bool.false_or]
  rw [faults, List.map_append, ← hlist, ← hlist]
  rfl

theorem faults_eq_nil_iff (c : Config) : c.faults = [] ↔ ∀ list, ValidNames (c.names list) := by
  have hlist : ∀ list, faultsAfter list [] (c.names list) = [] ↔ ValidNames (c.names list) := by
    intro list
    rw [faultsAfter_eq_nil_iff]
    simp
  rw [faults, List.append_eq_nil_iff]
  constructor
  · rintro ⟨hgroups, hmethods⟩ list
    cases list
    · exact (hlist .defaultGroups).mp hgroups
    · exact (hlist .disabledMethods).mp hmethods
  · intro h
    exact ⟨(hlist .defaultGroups).mpr (h _), (hlist .disabledMethods).mpr (h _)⟩

/-- Validation succeeds exactly on valid names, and otherwise its message has a line for each blank
name and for each repetition, list by list in the order of the names, and no other line. -/
theorem validate_exact (c : Config) :
    (c.validate = .ok c ↔ ∀ list, ValidNames (c.names list)) ∧
      (¬(∀ list, ValidNames (c.names list)) → ∃ e, c.validate = .error e ∧
        e.message = "Configuration validation failed:\n" ++
          "\n".intercalate (c.reports .defaultGroups ++ c.reports .disabledMethods)) := by
  rw [← faults_eq_nil_iff, ← List.isEmpty_iff, ← map_message_faults, validate]
  cases c.faults.isEmpty with
  | true => exact ⟨iff_of_true rfl rfl, fun h => absurd rfl h⟩
  | false =>
      exact ⟨iff_of_false nofun Bool.false_ne_true, fun _ => ⟨.invalid c.faults, rfl, rfl⟩⟩

end Redaction.Config
