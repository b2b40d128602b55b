import Redaction.Text.LowerCase

/-!
# Lowercase text is its own lowercase form

No character that a capital is turned into is a capital itself, so that putting a text into
lowercase a second time changes nothing. Registries, compilers and evaluators each put names into
lowercase on their own, and may do so one after another.
-/

namespace Redaction.Text

/-- All characters with a lowercase form other than themselves: the capitals of ASCII, the one that
becomes two characters, and those with a partner. -/
def capitalRuns : List CaseRun :=
  ⟨0x41, 0x5A, 1, 0x61⟩ :: ⟨0x0130, 0x0130, 1, 0x69⟩ :: caseRuns

/-- A character that is no capital. -/
def IsLowercase (c : Char) : Prop := ∀ q ∈ capitalRuns, q.lower? c.toNat = none

/-- No partner in a run is a capital of another run: the two lie apart, or the capitals are every
second character and the partners are those between. -/
def CaseRun.avoids (r q : CaseRun) : Bool :=
  q.last.blt r.lower || (r.lower + (r.last - r.first)).blt q.first ||
    (q.stride == 2 && (r.stride == 2 || r.first == r.last) && (r.lower + q.first) % 2 == 1)

/-! ## Runs -/

namespace CaseRun

theorem lower?_eq_some_iff {r : CaseRun} {n m : Nat} :
    r.lower? n = some m ↔ (r.first ≤ n ∧ n ≤ r.last ∧ (n - r.first) % r.stride = 0) ∧
      r.lower + (n - r.first) = m := by
  unfold lower?
  split <;> simp [*]

theorem lower?_of_lt {r : CaseRun} {n : Nat} (h : n < r.first ∨ r.last < n) :
    r.lower? n = none := by
  refine if_neg ?_
  rintro ⟨hfirst, hlast, -⟩
  omega

theorem lower?_of_avoids {r q : CaseRun} (h : r.avoids q = true) {n m : Nat}
    (hm : r.lower? n = some m) : q.lower? m = none := by
  obtain ⟨⟨hfirst, hlast, hstride⟩, rfl⟩ := lower?_eq_some_iff.mp hm
  simp only [avoids, Bool.or_eq_true, Bool.and_eq_true, Nat.blt_eq, beq_iff_eq] at h
  rcases h with (h | h) | ⟨⟨hsecond, h⟩, hodd⟩
  · exact lower?_of_lt (.inr (by omega))
  · exact lower?_of_lt (.inl (by omega))
  · have heven : (n - r.first) % 2 = 0 := by
      rcases h with h | h
      · rwa [h] at hstride
      · omega
    refine if_neg ?_
    rintro ⟨hlow, -, hq⟩
    rw [hsecond] at hq
    omega

end CaseRun

theorem avoids_capitalRuns : (caseRuns.all fun r => capitalRuns.all r.avoids) = true := by
  decide +kernel

theorem le_first_caseRuns : (caseRuns.all fun q => decide (0x80 ≤ q.first)) = true := by
  decide +kernel

/-! ## Characters -/

/-- The characters of ASCII besides its capitals. -/
theorem isLowercase_of_ascii {c : Char} (hc : c.toNat < 0x80)
    (h : c.toNat < 0x41 ∨ 0x5A < c.toNat) : IsLowercase c := by
  intro q hq
  apply CaseRun.lower?_of_lt
  simp only [capitalRuns, List.mem_cons] at hq
  rcases hq with rfl | rfl | hq
  · exact h
  · exact .inl (Nat.lt_trans hc (by decide))
  · have hfirst := List.all_eq_true.mp le_first_caseRuns q hq
    exact .inl (Nat.lt_of_lt_of_le hc (of_decide_eq_true hfirst))

theorem toLower_ascii : ∀ n < 0x80, (Char.ofNat n).toLower.toNat < 0x80 ∧
    ((Char.ofNat n).toLower.toNat < 0x41 ∨ 0x5A < (Char.ofNat n).toLower.toNat) := by
  decide

theorem isLowercase_ofNat {r : CaseRun} (hr : r ∈ caseRuns) {n m : Nat} (h : r.lower? n = some m) :
    IsLowercase (Char.ofNat m) := by
  by_cases hm : m.isValidChar
  · have hnat : (Char.ofNat m).toNat = m := by
      rw [Char.ofNat, dif_pos hm]
      rfl
    have havoids := List.all_eq_true.mp avoids_capitalRuns r hr
    intro q hq
    rw [hnat]
    exact CaseRun.lower?_of_avoids (List.all_eq_true.mp havoids q hq) h
  · have hzero : (Char.ofNat m).toNat = 0 := by
      rw [Char.ofNat, dif_neg hm]
      rfl
    exact isLowercase_of_ascii (by omega) (by omega)

/-- What a dotted capital is turned into, and both small forms of sigma. -/
theorem isLowercase_small : ∀ c ∈ ['i', '\u0307', '\u03C2', '\u03C3'], IsLowercase c := by
  have hall : (capitalRuns.all fun q =>
      ['i', '\u0307', '\u03C2', '\u03C3'].all fun c => (q.lower? c.toNat).isNone) = true := by
    decide +kernel
  intro c hc q hq
  have hnone := List.all_eq_true.mp (List.all_eq_true.mp hall q hq) c hc
  exact Option.isNone_iff_eq_none.mp hnone

theorem isLowercase_of_mem_lowerChar {c d : Char} (h : d ∈ lowerChar c) : IsLowercase d := by
  unfold lowerChar at h
  split at h
  · next hascii =>
      rw [List.mem_singleton.mp h, ← Char.ofNat_toNat c]
      obtain ⟨hlt, hsmall⟩ := toLower_ascii c.toNat hascii
      exact isLowercase_of_ascii hlt hsmall
  · next hascii =>
      split at h
      · exact isLowercase_small d (List.mem_append_left ['\u03C2', '\u03C3'] h)
      · next hother =>
          split at h
          · next n hn =>
              obtain ⟨r, hr, hlower⟩ := List.exists_of_findSome?_eq_some hn
              rw [List.mem_singleton.mp h]
              exact isLowercase_ofNat hr hlower
          · next hnone =>
              rw [List.mem_singleton.mp h]
              have hne : c.toNat ≠ 0x0130 := fun hc => hother (Char.toNat_inj.mp hc)
              intro q hq
              simp only [capitalRuns, List.mem_cons] at hq
              rcases hq with rfl | rfl | hq
              · exact CaseRun.lower?_of_lt (.inr (by simp only; omega))
              · exact CaseRun.lower?_of_lt (by simp only; omega)
              · exact List.findSome?_eq_none_iff.mp hnone q hq

theorem lowerChar_of_isLowercase {c : Char} (h : IsLowercase c) : lowerChar c = [c] := by
  have hruns : caseRuns.findSome? (·.lower? c.toNat) = none := by
    refine List.findSome?_eq_none_iff.mpr fun q hq => ?_
    exact h q (List.mem_cons_of_mem _ (List.mem_cons_of_mem _ hq))
  unfold lowerChar
  split
  · have hsmall : ¬(c.val ≥ 'A'.val ∧ c.val ≤ 'Z'.val) := by
      rintro ⟨hlow, hhigh⟩
      have hrun : 0x41 ≤ c.toNat ∧ c.toNat ≤ 0x5A ∧ (c.toNat - 0x41) % 1 = 0 :=
        ⟨UInt32.le_iff_toNat_le.mp hlow, UInt32.le_iff_toNat_le.mp hhigh, Nat.mod_one _⟩
      have hnone := h ⟨0x41, 0x5A, 1, 0x61⟩ List.mem_cons_self
      cases hnone.symm.trans (if_pos hrun)
    have hlower : c.toLower = c := dif_neg hsmall
    rw [hlower]
  · split
    · next hdotted =>
        subst hdotted
        cases h ⟨0x0130, 0x0130, 1, 0x69⟩ (List.mem_cons_of_mem _ List.mem_cons_self)
    · rw [hruns]

/-! ## Texts -/

theorem isLowercase_lowerSigma (before after : List Char) :
    IsLowercase (lowerSigma before after) := by
  unfold lowerSigma
  split
  · exact isLowercase_small _ (by simp)
  · exact isLowercase_small _ (by simp)

theorem isLowercase_of_mem_lowerAfter {before cs : List Char} {d : Char}
    (h : d ∈ lowerAfter before cs) : IsLowercase d := by
  induction cs generalizing before with
  | nil => cases h
  | cons c rest ih =>
      rw [lowerAfter, List.mem_append] at h
      rcases h with h | h
      · split at h
        · rw [List.mem_singleton.mp h]
          exact isLowercase_lowerSigma before rest
        · exact isLowercase_of_mem_lowerChar h
      · exact ih h

/-- A capital sigma is the only character that is not put into lowercase by itself. -/
theorem lowerAfter_of_isLowercase {before cs : List Char} (h : ∀ c ∈ cs, IsLowercase c) :
    lowerAfter before cs = cs := by
  induction cs generalizing before with
  | nil => rfl
  | cons c rest ih =>
      obtain ⟨hc, hrest⟩ := List.forall_mem_cons.mp h
      have hsigma : c ≠ '\u03A3' := by
        rintro rfl
        have hrun : (⟨0x03A3, 0x03AB, 1, 0x03C3⟩ : CaseRun) ∈ capitalRuns := by decide
        cases hc _ hrun
      rw [lowerAfter, if_neg hsigma, lowerChar_of_isLowercase hc, ih hrest, List.singleton_append]

theorem lower_lower (s : String) : lower (lower s) = lower s := by
  have hlower : ∀ c ∈ lowerAfter [] s.toList, IsLowercase c :=
    fun _ => isLowercase_of_mem_lowerAfter
  rw [lower, lower, String.toList_ofList, lowerAfter_of_isLowercase hlower]

end Redaction.Text
