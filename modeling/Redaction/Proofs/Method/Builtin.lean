import Redaction.Proofs.Method.Run

/-!
# The built-in methods

What a built-in method has done once it leaves alone when it is done again: it has then no more to
reset, to mask or to cut off, whatever its arguments are. Its factory needs no state.
-/

namespace Redaction

open Redaction.Instruction Redaction.Text

/-- The transformer leaves alone what it has given. -/
def Transformer.Stable (t : Transformer) : Prop := ∀ s u, t s = .ok u → t u = .ok u

namespace Method

/-! ## Texts -/

theorem starText_starText (offset : Int) (cs : List Char) :
    starText offset (starText offset cs) = starText offset cs := by
  have hlength : (starText offset cs).length = cs.length := by simp [starText]
  rw [starText, hlength]
  unfold starText
  rw [List.mapIdx_mapIdx]
  congr 1
  funext i c
  by_cases h : if 0 ≤ offset then i < keptCount offset cs.length
      else cs.length - keptCount offset cs.length ≤ i
  · rw [Function.comp_apply, if_pos h]
  · rw [Function.comp_apply, if_neg h, if_neg h]

theorem removeText_removeText (offset : Int) (cs : List Char) :
    removeText offset (removeText offset cs) = removeText offset cs := by
  have hle : keptCount offset cs.length ≤ cs.length := Nat.min_le_right _ _
  have hlength : (removeText offset cs).length = keptCount offset cs.length := by
    unfold removeText
    split
    · rw [List.length_take, Nat.min_eq_left hle]
    · rw [List.length_drop]
      omega
  have hkept : keptCount offset (keptCount offset cs.length) = keptCount offset cs.length := by
    unfold keptCount
    omega
  rw [removeText, hlength, hkept]
  split
  · exact List.take_of_length_le (Nat.le_of_eq hlength)
  · rw [Nat.sub_self, List.drop_zero]

theorem maskText_maskText (mask : Char) (allowed cs : List Char) :
    maskText mask allowed (maskText mask allowed cs) = maskText mask allowed cs := by
  unfold maskText
  rw [List.map_map]
  refine List.map_congr_left fun c _ => ?_
  by_cases hc : c ∈ allowed
  · rw [Function.comp_apply, if_pos hc, if_pos hc]
  · rw [Function.comp_apply, if_neg hc, ite_self]

/-! ## Transformers -/

theorem stable_onText {change : List Char → List Char}
    (h : ∀ cs, change (change cs) = change cs) (method : String) :
    (onText method change).Stable := by
  intro s u hu
  cases s with
  | text s =>
      cases hu
      refine congrArg (fun cs => Except.ok (Scalar.text (String.ofList cs))) ?_
      rw [String.toList_ofList, h]
  | _ => cases hu

theorem stable_reset : reset.Stable := by
  intro s u hu
  cases hu
  exact congrArg Except.ok (by cases s <;> rfl)

end Method

/-! ## Registries -/

variable {σ : Type}

/-- Some of the built-in methods, each under its own name, and no others. -/
def Registry.HasOnlyBuiltin (r : Registry σ) : Prop :=
  ∀ name factory, r.find? name = some factory → builtin.find? name = some factory

namespace Registry

theorem lower_zero : lower "zero" = "zero" := by decide +kernel

theorem lower_star : lower "star" = "star" := by decide +kernel

theorem lower_remove : lower "remove" = "remove" := by decide +kernel

theorem lower_redact : lower "redact" = "redact" := by decide +kernel

theorem find?_builtin (name : String) : (builtin : Registry σ).find? name =
    if "redact" = lower name then some Method.redact
    else if "remove" = lower name then some Method.remove
    else if "star" = lower name then some Method.star
    else if "zero" = lower name then some Method.zero
    else none := by
  simp only [builtin, find?_register, find?_empty, lower_zero, lower_star, lower_remove,
    lower_redact]

theorem find?_builtin_star : (builtin : Registry σ).find? "star" = some Method.star := by
  simp [find?_builtin, lower_star]

theorem find?_builtin_remove : (builtin : Registry σ).find? "remove" = some Method.remove := by
  simp [find?_builtin, lower_remove]

theorem find?_builtin_redact : (builtin : Registry σ).find? "redact" = some Method.redact := by
  simp [find?_builtin, lower_redact]

theorem mem_of_find?_builtin {name : String} {factory : Factory σ}
    (h : builtin.find? name = some factory) :
    factory ∈ [Method.zero, Method.star, Method.remove, Method.redact] := by
  rw [find?_builtin] at h
  split_ifs at h
  all_goals
    cases h
    simp

namespace HasOnlyBuiltin

theorem builtin : (builtin : Registry σ).HasOnlyBuiltin := fun _ _ h => h

theorem disable {r : Registry σ} (hr : r.HasOnlyBuiltin) (name : String) :
    (r.disable name).HasOnlyBuiltin := by
  intro n factory h
  rw [find?_disable] at h
  split_ifs at h
  exact hr n factory h

variable {r : Registry σ}

theorem exists_ofFunction (hr : r.HasOnlyBuiltin) {name : String} {factory : Factory σ}
    (h : r.find? name = some factory) :
    ∃ make, factory = .ofFunction make ∧ ∀ args, (make args).Stable := by
  have hmem := mem_of_find?_builtin (hr name factory h)
  simp only [List.mem_cons, List.not_mem_nil, or_false] at hmem
  rcases hmem with rfl | rfl | rfl | rfl
  · exact ⟨_, rfl, fun _ => Method.stable_reset⟩
  · exact ⟨_, rfl, fun args => Method.stable_onText (Method.starText_starText _) _⟩
  · exact ⟨_, rfl, fun args => Method.stable_onText (Method.removeText_removeText _) _⟩
  · exact ⟨_, rfl, fun args => Method.stable_onText (Method.maskText_maskText _ _) _⟩

theorem steady (hr : r.HasOnlyBuiltin) : r.Steady := by
  intro name factory h args
  obtain ⟨make, rfl, -⟩ := hr.exists_ofFunction h
  exact CompileM.steady_pure (make args)

theorem makes_stable (hr : r.HasOnlyBuiltin) : r.Makes Transformer.Stable := by
  intro name factory h args t s u ht
  obtain ⟨make, rfl, hstable⟩ := hr.exists_ofFunction h
  cases ht
  exact hstable args

end HasOnlyBuiltin

end Registry

end Redaction
