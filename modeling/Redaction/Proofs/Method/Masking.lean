import Redaction.Proofs.Method.Builtin
import Redaction.Proofs.Rule.Segments

/-!
# What masking hides

Three of the built-in methods put something else in place of what they hide. Two scalars of one type
that differ only in what is hidden are changed to the same scalar, or are refused alike. Which
characters a method shows is said by their positions and by the characters themselves; the number of
characters is always shown, except by a reset.
-/

namespace Redaction

open Redaction.Instruction Redaction.Text

/-- A built-in method that masks, with what it was given as arguments. -/
inductive Masking where
  | zero
  | star (offset : Int)
  | redact (mask : Char) (allowed : List Char)
  deriving DecidableEq, Repr

namespace Masking

def method : Masking → String
  | zero => "zero"
  | star _ => "star"
  | redact .. => "redact"

def transformer : Masking → Transformer
  | zero => Method.reset
  | star offset => Method.onText "star" (Method.starText offset)
  | redact mask allowed => Method.onText "redact" (Method.maskText mask allowed)

/-- The method shows the characters `c` and `d` that two texts of a length have at a position. An
offset shows those from the start, or up to the end if it is negative; an allowed character is shown
in either text. -/
def Shows (length i : Nat) (c d : Char) : Masking → Prop
  | zero => False
  | star offset =>
      if 0 ≤ offset then i < min offset.natAbs length else length - min offset.natAbs length ≤ i
  | redact _ allowed => c ∈ allowed ∨ d ∈ allowed

instance (length i : Nat) (c d : Char) : (m : Masking) → Decidable (m.Shows length i c d)
  | zero => inferInstanceAs (Decidable False)
  | star _ => inferInstanceAs (Decidable (ite ..))
  | redact _ allowed => inferInstanceAs (Decidable (c ∈ allowed ∨ d ∈ allowed))

/-- Two texts that the method does not tell apart. Only a reset hides how long they are. -/
def HidesText (m : Masking) (cs ds : List Char) : Prop :=
  m = zero ∨ cs.length = ds.length ∧ ∀ (i : Nat) (hc : i < cs.length) (hd : i < ds.length),
    m.Shows cs.length i cs[i] ds[i] → cs[i] = ds[i]

instance (m : Masking) (cs ds : List Char) : Decidable (m.HidesText cs ds) :=
  inferInstanceAs (Decidable (_ ∨ _))

/-- Two scalars of one type that the method does not tell apart. -/
structure Hides (m : Masking) (s t : Scalar) : Prop where
  type_eq : t.type = s.type
  texts : ∀ a b, s = .text a → t = .text b → m.HidesText a.toList b.toList

/-- The rule is of this method, and was given these arguments. -/
structure IsOf (m : Masking) (r : Rule) : Prop where
  method_eq : r.method = m.method
  transformer_eq : r.transformer = m.transformer

end Masking

/-! ## Texts -/

namespace Method

theorem starText_eq_of_hidesText {offset : Int} {cs ds : List Char}
    (h : (Masking.star offset).HidesText cs ds) : starText offset cs = starText offset ds := by
  obtain ⟨hlength, hkept⟩ := h.resolve_left nofun
  apply List.ext_getElem
  · simp [starText, hlength]
  · intro i hi hi'
    have hc : i < cs.length := by simpa [starText] using hi
    have hd : i < ds.length := by omega
    have hsame := hkept i hc hd
    simp only [starText, List.getElem_mapIdx, ← hlength]
    by_cases hseen : if 0 ≤ offset then i < keptCount offset cs.length
        else cs.length - keptCount offset cs.length ≤ i
    · rw [if_pos hseen, if_pos hseen]
      exact hsame hseen
    · rw [if_neg hseen, if_neg hseen]

theorem maskText_eq_of_hidesText {mask : Char} {allowed cs ds : List Char}
    (h : (Masking.redact mask allowed).HidesText cs ds) :
    maskText mask allowed cs = maskText mask allowed ds := by
  obtain ⟨hlength, hshown⟩ := h.resolve_left nofun
  apply List.ext_getElem
  · simp [maskText, hlength]
  · intro i hi hi'
    have hc : i < cs.length := by simpa [maskText] using hi
    have hd : i < ds.length := by omega
    have hsame := hshown i hc hd
    simp only [maskText, List.getElem_map]
    by_cases hallowed : cs[i] ∈ allowed ∨ ds[i] ∈ allowed
    · rw [hsame hallowed]
    · obtain ⟨hnot, hnot'⟩ := not_or.mp hallowed
      rw [if_neg hnot, if_neg hnot']

/-! ## Scalars -/

/-- A scalar that is no text is refused with its type, and with nothing else of it. -/
theorem onText_of_text?_eq_none (method : String) (change : List Char → List Char) {s : Scalar}
    (h : s.text? = none) : onText method change s = .error (.notText method s.type) := by
  cases s with
  | text a => cases h
  | _ => rfl

theorem onText_eq_of_type_eq {method : String} {change : List Char → List Char} {s t : Scalar}
    (htype : t.type = s.type)
    (h : ∀ a b, s = .text a → t = .text b → change a.toList = change b.toList) :
    onText method change s = onText method change t := by
  cases s with
  | text a =>
      cases t with
      | text b =>
          have hchange := h a b rfl rfl
          exact congrArg (fun cs => Except.ok (Scalar.text (String.ofList cs))) hchange
      | _ => cases htype
  | _ =>
      cases t with
      | text b => cases htype
      | _ => rw [onText_of_text?_eq_none _ _ rfl, onText_of_text?_eq_none _ _ rfl, htype]

end Method

theorem Scalar.zero_eq_of_type_eq {s t : Scalar} (h : t.type = s.type) : s.zero = t.zero := by
  cases s <;> cases t <;> cases h <;> rfl

/-- What is hidden has no part in what a method makes of a scalar. -/
theorem Masking.Hides.transformer_eq {m : Masking} {s t : Scalar} (h : m.Hides s t) :
    m.transformer s = m.transformer t := by
  cases m with
  | zero => exact congrArg Except.ok (Scalar.zero_eq_of_type_eq h.type_eq)
  | star offset =>
      apply Method.onText_eq_of_type_eq h.type_eq
      intro a b ha hb
      exact Method.starText_eq_of_hidesText (h.texts a b ha hb)
  | redact mask allowed =>
      apply Method.onText_eq_of_type_eq h.type_eq
      intro a b ha hb
      exact Method.maskText_eq_of_hidesText (h.texts a b ha hb)

/-! ## Rules -/

variable {σ : Type}

theorem Registry.find?_builtin_eq_some {name : String} {factory : Factory σ}
    (h : builtin.find? name = some factory) :
    (lower name = "zero" ∧ factory = Method.zero) ∨ (lower name = "star" ∧ factory = Method.star) ∨
      (lower name = "remove" ∧ factory = Method.remove) ∨
        lower name = "redact" ∧ factory = Method.redact := by
  rw [find?_builtin] at h
  split_ifs at h with h₁ h₂ h₃ h₄
  · cases h
    exact .inr (.inr (.inr ⟨h₁.symm, rfl⟩))
  · cases h
    exact .inr (.inr (.inl ⟨h₂.symm, rfl⟩))
  · cases h
    exact .inr (.inl ⟨h₃.symm, rfl⟩)
  · cases h
    exact .inl ⟨h₄.symm, rfl⟩

/-- A rule of a masking method has the arguments of its segment. -/
theorem Rule.MadeOf.exists_masking {registry : Registry σ} (hr : registry.HasOnlyBuiltin)
    {seg : Segment} {r : Rule} {s t : σ} (h : r.MadeOf registry seg s t)
    (hmethod : r.method ≠ "remove") : ∃ m : Masking, m.IsOf r := by
  obtain ⟨factory, args, transformer, hf, -, htransformer, rfl⟩ := h
  rcases Registry.find?_builtin_eq_some (hr _ _ hf) with
    ⟨hname, rfl⟩ | ⟨hname, rfl⟩ | ⟨hname, rfl⟩ | ⟨hname, rfl⟩
  · cases htransformer
    exact ⟨.zero, hname, rfl⟩
  · cases htransformer
    exact ⟨.star (Method.offset args), hname, rfl⟩
  · exact absurd hname hmethod
  · cases htransformer
    exact ⟨.redact (Method.maskOf args) (Method.allowedOf args), hname, rfl⟩

end Redaction
