import Mathlib.Data.Nat.PSub
import Redaction.Method.Builtin

/-!
# What an offset keeps

An offset divides a text into the characters that it keeps and the others. `remove` gives those that
are kept, and `star` gives the same with a star for each of the others. Both are worked out in
machine words as well, with subtractions that may not go below zero and characters that have to be
there, and come to the same then for every offset of 64 bits.
-/

namespace Redaction.Method

open Redaction.Instruction

/-- The characters that an offset keeps and the others. Those kept stand at the start of the text, or
at its end if the offset is negative. -/
structure Keeps (offset : Int) (cs kept others : List Char) : Prop where
  eq_append : cs = if 0 ≤ offset then kept ++ others else others ++ kept
  length_kept : kept.length = min offset.natAbs cs.length

/-! ## Characters by their positions -/

theorem mapIdx_star_of_forall {shown : Nat → Prop} [DecidablePred shown] {cs : List Char}
    (h : ∀ i < cs.length, shown i) : (cs.mapIdx fun i c => if shown i then c else '*') = cs := by
  apply List.ext_getElem
  · exact List.length_mapIdx
  · intro i _ hi
    rw [List.getElem_mapIdx, if_pos (h i hi)]

theorem mapIdx_star_of_forall_not {shown : Nat → Prop} [DecidablePred shown] {cs : List Char}
    (h : ∀ i < cs.length, ¬shown i) :
    (cs.mapIdx fun i c => if shown i then c else '*') = List.replicate cs.length '*' := by
  apply List.ext_getElem
  · rw [List.length_mapIdx, List.length_replicate]
  · intro i hi _
    rw [List.length_mapIdx] at hi
    rw [List.getElem_mapIdx, if_neg (h i hi), List.getElem_replicate]

namespace Keeps

variable {offset : Int} {cs kept others : List Char}

theorem length_eq (h : Keeps offset cs kept others) : cs.length = kept.length + others.length := by
  have hlength := congrArg List.length h.eq_append
  split at hlength
  · rwa [List.length_append] at hlength
  · rwa [List.length_append, Nat.add_comm] at hlength

theorem keptCount_eq (h : Keeps offset cs kept others) :
    keptCount offset cs.length = kept.length := h.length_kept.symm

theorem length_sub (h : Keeps offset cs kept others) :
    cs.length - kept.length = others.length := by
  rw [h.length_eq, Nat.add_sub_cancel_left]

theorem length_others (h : Keeps offset cs kept others) :
    others.length = cs.length - min offset.natAbs cs.length := by
  rw [← h.length_sub, h.length_kept]

theorem removeText_eq (h : Keeps offset cs kept others) : removeText offset cs = kept := by
  rw [removeText, h.keptCount_eq, h.length_sub, h.eq_append]
  by_cases hsign : 0 ≤ offset
  · simp only [if_pos hsign]
    exact List.take_left
  · simp only [if_neg hsign]
    exact List.drop_left

/-- The positions that are shown are those of the kept characters, at whichever end they are. -/
theorem starText_eq (h : Keeps offset cs kept others) :
    starText offset cs =
      if 0 ≤ offset then kept ++ List.replicate others.length '*'
      else List.replicate others.length '*' ++ kept := by
  rw [starText, h.keptCount_eq, h.length_sub, h.eq_append]
  by_cases hsign : 0 ≤ offset
  · simp only [if_pos hsign]
    rw [List.mapIdx_append, mapIdx_star_of_forall fun i hi => hi,
      mapIdx_star_of_forall_not fun i _ => by omega]
  · simp only [if_neg hsign]
    rw [List.mapIdx_append, mapIdx_star_of_forall_not fun i hi => by omega,
      mapIdx_star_of_forall fun i _ => by omega]

end Keeps

theorem exists_keeps (offset : Int) (cs : List Char) : ∃ kept others, Keeps offset cs kept others := by
  by_cases hsign : 0 ≤ offset
  · refine ⟨cs.take (min offset.natAbs cs.length), cs.drop (min offset.natAbs cs.length), ?_, ?_⟩
    · rw [if_pos hsign, List.take_append_drop]
    · rw [List.length_take, Nat.min_assoc, Nat.min_self]
  · refine ⟨cs.drop (cs.length - min offset.natAbs cs.length),
      cs.take (cs.length - min offset.natAbs cs.length), ?_, ?_⟩
    · rw [if_neg hsign, List.take_append_drop]
    · rw [List.length_drop]
      omega

/-! ## In machine words -/

/-- The magnitude of an offset. That of the least offset is not among the signed words. -/
def magnitude (offset : Int64) : UInt64 := offset.abs.toUInt64

theorem toNat_magnitude (offset : Int64) : (magnitude offset).toNat = offset.toInt.natAbs := by
  have hmagnitude : (magnitude offset).toNat = offset.toBitVec.abs.toNat := rfl
  have hvalue : offset.toInt = offset.toBitVec.toInt := rfl
  have hlt := offset.toBitVec.isLt
  -- The least offset is its own absolute value in signed words, so the number is read without sign.
  rw [hmagnitude, hvalue, BitVec.toNat_abs, BitVec.toInt_eq_msb_cond]
  split <;> omega

theorem zero_le_toInt_iff (offset : Int64) : 0 ≤ offset.toInt ↔ 0 ≤ offset := by
  rw [Int64.le_iff_toInt_le, Int64.toInt_zero]

/-- The number of characters that an offset keeps, in words. -/
def keptInWords (offset : Int64) (length : Nat) : Nat := min (magnitude offset).toNat length

/-- The text with stars, unless a subtraction goes below zero or a character is not there. -/
def starInWords? (offset : Int64) (cs : List Char) : Option (List Char) :=
  (List.range cs.length).mapM fun i => do
    let c ← cs[i]?
    if 0 ≤ offset then pure (if i < keptInWords offset cs.length then c else '*')
    else do
      let start ← cs.length.psub (keptInWords offset cs.length)
      pure (if start ≤ i then c else '*')

/-- The text cut off, unless a subtraction goes below zero or a character is not there. -/
def removeInWords? (offset : Int64) (cs : List Char) : Option (List Char) := do
  let start ← if 0 ≤ offset then pure 0 else cs.length.psub (keptInWords offset cs.length)
  (List.range' start (keptInWords offset cs.length)).mapM (cs[·]?)

theorem keptInWords_eq (offset : Int64) (length : Nat) :
    keptInWords offset length = keptCount offset.toInt length := by
  rw [keptInWords, toNat_magnitude, keptCount]

/-- A row of steps by consecutive indices gives what each of them gives at its place. -/
theorem mapM_range'_eq_some {α : Type} {step : Nat → Option α} {xs : List α} {start : Nat}
    (h : ∀ i (hi : i < xs.length), step (start + i) = some xs[i]) :
    (List.range' start xs.length).mapM step = some xs := by
  induction xs generalizing start with
  | nil => rfl
  | cons x rest ih =>
      have hfirst : step start = some x := h 0 (Nat.zero_lt_succ _)
      have hrest : (List.range' (start + 1) rest.length).mapM step = some rest := by
        refine ih fun i hi => ?_
        have hnext := h (i + 1) (Nat.succ_lt_succ hi)
        rwa [List.getElem_cons_succ, Nat.add_left_comm, Nat.add_comm] at hnext
      rw [List.length_cons, List.range'_succ, List.mapM_cons, hfirst, hrest]
      rfl

namespace Keeps

variable {offset : Int64} {cs kept others : List Char}

theorem keptInWords_eq (h : Keeps offset.toInt cs kept others) :
    keptInWords offset cs.length = kept.length := by
  rw [Method.keptInWords_eq, h.keptCount_eq]

theorem psub_keptInWords (h : Keeps offset.toInt cs kept others) :
    cs.length.psub (keptInWords offset cs.length) = some others.length := by
  rw [h.keptInWords_eq, Nat.psub_eq_some, h.length_eq, Nat.add_comm]

/-- The characters that are read are those kept, one after another. -/
theorem removeInWords?_eq (h : Keeps offset.toInt cs kept others) :
    removeInWords? offset cs = some kept := by
  have heq := h.eq_append
  rw [removeInWords?, h.psub_keptInWords, h.keptInWords_eq]
  by_cases hsign : 0 ≤ offset
  · rw [if_pos ((zero_le_toInt_iff offset).mpr hsign)] at heq
    rw [if_pos hsign]
    refine mapM_range'_eq_some fun i hi => ?_
    rw [heq, Nat.zero_add, List.getElem?_append_left hi, List.getElem?_eq_getElem hi]
  · rw [if_neg (mt (zero_le_toInt_iff offset).mp hsign)] at heq
    rw [if_neg hsign]
    refine mapM_range'_eq_some fun i hi => ?_
    rw [heq, List.getElem?_append_right (Nat.le_add_right _ _), Nat.add_sub_cancel_left,
      List.getElem?_eq_getElem hi]

theorem starInWords?_eq (h : Keeps offset.toInt cs kept others) :
    starInWords? offset cs = some (starText offset.toInt cs) := by
  have hlength : (starText offset.toInt cs).length = cs.length := List.length_mapIdx
  rw [starInWords?, h.psub_keptInWords, h.keptInWords_eq, List.range_eq_range', ← hlength]
  refine mapM_range'_eq_some fun i hi => ?_
  have hc : i < cs.length := hlength ▸ hi
  simp only [starText, List.getElem_mapIdx, h.keptCount_eq, h.length_sub, zero_le_toInt_iff,
    Nat.zero_add, List.getElem?_eq_getElem hc]
  by_cases hsign : 0 ≤ offset
  · simp only [if_pos hsign]
    rfl
  · simp only [if_neg hsign]
    rfl

end Keeps

/-! ## The two methods -/

/-- For every offset of 64 bits and every text, `remove` gives the characters that the offset keeps,
and `star` gives as many characters as there were: the kept ones beside a star for each of the
others. Neither computation takes a number from a smaller one, or reads a character that is not
there. -/
theorem star_and_remove_agree (offset : Int64) (text : String) :
    ∃ kept others starred : List Char,
      text.toList = (if 0 ≤ offset then kept ++ others else others ++ kept) ∧
      kept.length = min offset.toInt.natAbs text.length ∧
      others.length = text.length - min offset.toInt.natAbs text.length ∧
      starred = (if 0 ≤ offset then kept ++ List.replicate others.length '*'
        else List.replicate others.length '*' ++ kept) ∧
      starred.length = text.length ∧
      (∀ (σ : Type) (s : σ), ∃ t : Transformer, (remove [.int offset.toInt]).runFrom s = (.ok t, s) ∧
        t (.text text) = .ok (.text (String.ofList kept))) ∧
      (∀ (σ : Type) (s : σ), ∃ t : Transformer, (star [.int offset.toInt]).runFrom s = (.ok t, s) ∧
        t (.text text) = .ok (.text (String.ofList starred))) ∧
      removeInWords? offset text.toList = some kept ∧
      starInWords? offset text.toList = some starred := by
  obtain ⟨kept, others, h⟩ := exists_keeps offset.toInt text.toList
  have heq := h.eq_append
  have hstar := h.starText_eq
  simp only [zero_le_toInt_iff] at heq hstar
  refine ⟨kept, others, starText offset.toInt text.toList, heq, h.length_kept, h.length_others,
    hstar, List.length_mapIdx, ?_, ?_, h.removeInWords?_eq, h.starInWords?_eq⟩
  · intro σ s
    refine ⟨_, rfl, ?_⟩
    exact congrArg (fun cs => Except.ok (Scalar.text (String.ofList cs))) h.removeText_eq
  · intro σ s
    exact ⟨_, rfl, rfl⟩

/-- The least offset has no opposite of 64 bits, and keeps every text whole. -/
example : removeInWords? Int64.minValue ['a', 'é'] = some ['a', 'é'] := by decide

end Redaction.Method
