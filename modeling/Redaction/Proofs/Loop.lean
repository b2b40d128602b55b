/-!
# Loops

A loop goes round after round. A round either gives the state for another one, or is the last and
gives the answer. A loop ends if something runs out in it, and its answer is known beforehand if no
round changes it.
-/

namespace Redaction

inductive Round (σ ρ : Type) where
  | again (state : σ)
  | last (answer : ρ)

variable {σ ρ : Type} {round : σ → Round σ ρ}

variable (round) in
/-- After finitely many rounds from a state the loop ends with an answer. -/
inductive EndsWith : σ → ρ → Prop
  | last {s : σ} {r : ρ} (h : round s = .last r) : EndsWith s r
  | again {s s' : σ} {r : ρ} (h : round s = .again s') (later : EndsWith s' r) : EndsWith s r

namespace EndsWith

theorem exists_of_decreasing (left : σ → Nat)
    (hagain : ∀ s s', round s = .again s' → left s' < left s) (s : σ) :
    ∃ r, EndsWith round s r := by
  induction hn : left s using Nat.strongRecOn generalizing s with
  | _ n ih =>
      cases hround : round s with
      | last r => exact ⟨r, .last hround⟩
      | again s' =>
          have hlt : left s' < n := hn ▸ hagain s s' hround
          obtain ⟨r, hends⟩ := ih (left s') hlt s' rfl
          exact ⟨r, .again hround hends⟩

theorem eq_of_keeps {answer : σ → ρ} (hlast : ∀ s r, round s = .last r → r = answer s)
    (hagain : ∀ s s', round s = .again s' → answer s' = answer s) {s : σ} {r : ρ}
    (h : EndsWith round s r) : r = answer s := by
  induction h with
  | last hround => exact hlast _ _ hround
  | again hround _ ih => exact ih.trans (hagain _ _ hround)

end EndsWith

end Redaction
