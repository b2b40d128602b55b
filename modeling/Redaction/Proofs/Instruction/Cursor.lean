import Mathlib.Data.List.TakeWhile
import Redaction.Instruction.Scanner
import Redaction.Proofs.Instruction.ListText

/-!
# Places in an instruction

A scanner never leaves the text in which it stands, whatever is done with it. Its place is a number
between zero and the number of octets. To read is to go on to a place from which fewer octets are
left, and such steps can be put together.
-/

namespace Redaction.Instruction

open Redaction.Text.Utf8

/-! ## What readers leave -/

section

variable {α : Type} (A : Alphabet α)

theorem suffix_bareRun (input : List α) : (bareRun A input).2 <:+ input :=
  List.dropWhile_suffix _

theorem suffix_quotedRun (escaped : Bool) (input : List α) :
    (quotedRun A escaped input).2 <:+ input := by
  induction input generalizing escaped with
  | nil => exact List.suffix_rfl
  | cons u rest ih =>
      have hlater : ∀ escaped, (quotedRun A escaped rest).2 <:+ u :: rest := fun escaped =>
        (ih escaped).trans (List.suffix_cons u rest)
      rw [quotedRun]
      split
      · exact hlater false
      · split
        · exact List.suffix_cons u rest
        · split
          · exact hlater true
          · exact hlater false

theorem suffix_readList (buffer input : List α) : (readList A buffer input).2 <:+ input := by
  fun_induction readList A buffer input with
  | case1 buffer => exact List.suffix_rfl
  | case4 buffer u rest hd | case5 buffer u rest hd => exact List.suffix_cons u rest
  | case7 buffer u rest hd hlt ih =>
      have hquoted : (readQuoted A rest).2 <:+ rest := suffix_quotedRun A false rest
      exact ih.trans (hquoted.trans (List.suffix_cons u rest))
  | case2 buffer u rest hd ih | case3 buffer u rest hd ih | case6 buffer u rest hd ih
  | case8 buffer u rest hd ih | case9 buffer u rest hd ih | case10 buffer u rest hd ih
  | case11 buffer u rest hd ih => exact ih.trans (List.suffix_cons u rest)

/-- A turn leaves an end of what comes after the unit at which it begins. -/
theorem suffix_turn (pending : Bool) (u : α) (rest : List α) :
    (turn A pending u rest).rest <:+ rest := by
  unfold turn
  split
  · exact List.suffix_rfl
  · exact List.suffix_rfl
  · exact List.suffix_rfl
  · exact suffix_readList A [] rest
  · exact suffix_readList A [] rest
  · exact suffix_quotedRun A false rest
  · exact suffix_bareRun A rest
  · exact suffix_bareRun A rest
  · exact suffix_bareRun A rest
  · next hu =>
      have hcontent : A.isContent u = true := by rw [Alphabet.isContent, hu, Option.isNone_none]
      have hdrop : (bareRun A (u :: rest)).2 = (bareRun A rest).2 :=
        List.dropWhile_cons_of_pos hcontent
      change (bareRun A (u :: rest)).2 <:+ rest
      rw [hdrop]
      exact suffix_bareRun A rest

end

theorem isStructural_eq (b : UInt8) : isStructural b = !octets.isContent b :=
  (Option.not_isNone (Delimiter.ofByte? b)).symm

theorem bareRun_octets (input : List UInt8) :
    (bareRun octets input).1 ++ (bareRun octets input).2 = input ∧
      (∀ b ∈ (bareRun octets input).1, isStructural b = false) ∧
        ∀ b ∈ (bareRun octets input).2.head?, isStructural b = true := by
  refine ⟨List.takeWhile_append_dropWhile, ?_, ?_⟩
  · intro b hb
    have hcontent : octets.isContent b = true := List.mem_takeWhile_imp hb
    rw [isStructural_eq, hcontent, Bool.not_true]
  · intro b hb
    have hhead := List.head?_dropWhile_not octets.isContent input
    rw [bareRun, Option.mem_def] at hb
    rw [hb] at hhead
    have hcontent : octets.isContent b = false := hhead
    rw [isStructural_eq, hcontent, Bool.not_false]

/-! ## Places -/

/-- The first structural octet from `start` on is at `stop`, or there is none and `stop` is the end
of the octets. -/
structure IsStop (bytes : List UInt8) (start stop : Nat) : Prop where
  start_le : start ≤ stop
  content : ∀ i, start ≤ i → i < stop → ∃ b, bytes[i]? = some b ∧ isStructural b = false
  structural : stop = bytes.length ∨ ∃ b, bytes[stop]? = some b ∧ isStructural b = true

namespace Scanner

/-- The octets among which a scanner stands. -/
def whole (s : Scanner) : List UInt8 := s.passed.reverse ++ s.ahead

theorem length_whole (s : Scanner) : s.whole.length = s.offset + s.ahead.length := by
  simp [whole, offset]

theorem offset_le (s : Scanner) : s.offset ≤ s.whole.length := by
  rw [length_whole]
  exact Nat.le_add_right _ _

theorem atEnd_iff (s : Scanner) : s.atEnd = true ↔ s.offset = s.whole.length := by
  rw [length_whole, atEnd, List.isEmpty_iff, ← List.length_eq_zero_iff]
  omega

theorem getElem?_whole (s : Scanner) (n : Nat) : s.whole[s.offset + n]? = s.ahead[n]? := by
  rw [whole, offset, ← List.length_reverse, List.getElem?_append_right (Nat.le_add_right _ _),
    Nat.add_sub_cancel_left]

/-! ## Going on -/

@[simp] theorem whole_leaving (s : Scanner) (left : List UInt8) :
    (s.leaving left).whole = s.whole := by
  simp [whole, leaving, advance]

theorem offset_leaving (s : Scanner) (left : List UInt8) :
    (s.leaving left).offset = s.offset + (s.ahead.length - left.length) := by
  simp [offset, leaving, advance]
  omega

theorem ahead_leaving {s : Scanner} {left : List UInt8} (h : left <:+ s.ahead) :
    (s.leaving left).ahead = left := by
  obtain ⟨passed, ahead⟩ := s
  obtain ⟨octets, rfl⟩ := h
  rw [leaving_append]

theorem leaving_self (s : Scanner) : s.leaving s.ahead = s :=
  leaving_append s.passed [] s.ahead

theorem leaving_leaving {s : Scanner} {left left' : List UInt8} (h : left <:+ s.ahead)
    (h' : left' <:+ left) : (s.leaving left).leaving left' = s.leaving left' := by
  obtain ⟨passed, ahead⟩ := s
  obtain ⟨octets, rfl⟩ := h
  obtain ⟨octets', rfl⟩ := h'
  have hboth := leaving_append passed (octets ++ octets') left'
  rw [List.append_assoc] at hboth
  rw [leaving_append, leaving_append, hboth]
  simp

/-- A reader that begins at a later place leaves off where it does when its octets are read from the
place before. -/
theorem read_leaving {β : Type} {f : List UInt8 → β × List UInt8} {s : Scanner}
    {left : List UInt8} (hleft : left <:+ s.ahead) (hsuffix : (f left).2 <:+ left) :
    (f (s.leaving left).ahead).map id (s.leaving left).leaving = (f left).map id s.leaving := by
  rw [ahead_leaving hleft]
  exact Prod.ext rfl (leaving_leaving hleft hsuffix)

/-! ## One octet -/

theorem next_cases (s : Scanner) :
    (s.ahead = [] ∧ s.next = (.finish, s)) ∨
      ∃ u rest, s.ahead = u :: rest ∧
        ((octets.delimiter? u = none ∧ s.next = (.content u, s.leaving rest)) ∨
          ∃ d, octets.delimiter? u = some d ∧ s.next = (.delimiter d, s.leaving rest)) := by
  obtain ⟨passed, ahead⟩ := s
  cases ahead with
  | nil => exact .inl ⟨rfl, rfl⟩
  | cons u rest =>
      have hleaving : leaving ⟨passed, u :: rest⟩ rest = ⟨u :: passed, rest⟩ :=
        leaving_append passed [u] rest
      refine .inr ⟨u, rest, rfl, ?_⟩
      simp only [next, Scanned.ofByte, hleaving]
      cases hu : Delimiter.ofByte? u with
      | none => exact .inl ⟨hu, rfl⟩
      | some d => exact .inr ⟨d, hu, rfl⟩

theorem whole_next (s : Scanner) : s.next.2.whole = s.whole := by
  rcases s.next_cases with ⟨-, hnext⟩ | ⟨u, rest, -, ⟨-, hnext⟩ | ⟨d, -, hnext⟩⟩
  · rw [hnext]
  · rw [hnext, whole_leaving]
  · rw [hnext, whole_leaving]

/-- The octet that is given next is the one at the offset. -/
theorem fst_next (s : Scanner) : s.next.1 = (s.whole[s.offset]?).elim .finish .ofByte := by
  have hoctet := s.getElem?_whole 0
  rw [Nat.add_zero] at hoctet
  rw [hoctet, next]
  cases s.ahead <;> rfl

theorem offset_next (s : Scanner) :
    s.next.2.offset = if s.atEnd then s.offset else s.offset + 1 := by
  obtain ⟨passed, ahead⟩ := s
  cases ahead <;> rfl

theorem whole_rewind (s : Scanner) : s.rewind.whole = s.whole := by
  obtain ⟨passed, ahead⟩ := s
  cases passed <;> simp [whole, rewind]

theorem offset_rewind (s : Scanner) : s.rewind.offset = s.offset - 1 := by
  obtain ⟨passed, ahead⟩ := s
  cases passed <;> rfl

/-- To step back undoes the step before. -/
theorem rewind_leaving {s : Scanner} {u : UInt8} {rest : List UInt8} (h : s.ahead = u :: rest) :
    (s.leaving rest).rewind = s := by
  obtain ⟨passed, ahead⟩ := s
  cases h
  rw [← List.singleton_append, leaving_append]
  rfl

theorem isStop_bareText (s : Scanner) : IsStop s.whole s.offset s.bareText.2.offset := by
  obtain ⟨hsplit, hcontent, hhead⟩ := bareRun_octets s.ahead
  have hstop : s.bareText.2.offset = s.offset + (bareRun octets s.ahead).1.length := by
    have hlength := congrArg List.length hsplit
    rw [List.length_append] at hlength
    change (s.leaving (bareRun octets s.ahead).2).offset = _
    rw [offset_leaving]
    omega
  rw [hstop]
  refine ⟨Nat.le_add_right _ _, fun i hstart hi => ?_, ?_⟩
  · obtain ⟨n, rfl⟩ := Nat.exists_eq_add_of_le hstart
    have hn : n < (bareRun octets s.ahead).1.length := Nat.lt_of_add_lt_add_left hi
    refine ⟨(bareRun octets s.ahead).1[n], ?_, hcontent _ (List.getElem_mem hn)⟩
    rw [getElem?_whole, ← List.getElem?_eq_getElem hn, ← List.getElem?_append_left hn, hsplit]
  · cases hleft : (bareRun octets s.ahead).2 with
    | nil =>
        left
        rw [hleft, List.append_nil] at hsplit
        rw [length_whole, hsplit]
    | cons b later =>
        right
        refine ⟨b, ?_, hhead b (by rw [hleft, List.head?_cons, Option.mem_some])⟩
        have hoctet : s.ahead[(bareRun octets s.ahead).1.length]? = some b := by
          rw [hleft] at hsplit
          nth_rewrite 1 [← hsplit]
          rw [List.getElem?_append_right (Nat.le_refl _), Nat.sub_self, List.getElem?_cons_zero]
        rw [getElem?_whole, hoctet]

/-! ## Any actions -/

/-- What can be done with a scanner. -/
inductive Action where
  | next
  | rewind
  | bareText
  | quotedText
  | list
  | remaining
  deriving DecidableEq, Repr

def move (s : Scanner) : Action → Scanner
  | .next => s.next.2
  | .rewind => s.rewind
  | .bareText => s.bareText.2
  | .quotedText => s.quotedText.2
  | .list => s.list.2
  | .remaining => s.remaining.2

/-- The place to which actions lead, one after another. -/
def after (s : Scanner) (actions : List Action) : Scanner := actions.foldl move s

theorem whole_move (s : Scanner) (action : Action) : (s.move action).whole = s.whole := by
  cases action with
  | next => exact s.whole_next
  | rewind => exact s.whole_rewind
  | bareText | quotedText | list | remaining => exact s.whole_leaving _

theorem whole_after (s : Scanner) (actions : List Action) : (s.after actions).whole = s.whole := by
  induction actions generalizing s with
  | nil => rfl
  | cons action later ih => exact (ih (s.move action)).trans (s.whole_move action)

/-- A scanner is at a place in a text. The place is a number of octets, by which next octets are
found and which steps move. -/
structure StandsIn (s : Scanner) (text : String) : Prop where
  offset_le : s.offset ≤ text.utf8ByteSize
  atEnd_iff : s.atEnd = true ↔ s.offset = text.utf8ByteSize
  fst_next : s.next.1 = ((encode text)[s.offset]?).elim .finish .ofByte
  offset_next : s.next.2.offset = if s.atEnd then s.offset else s.offset + 1
  offset_rewind : s.rewind.offset = s.offset - 1

theorem standsIn_of_whole_eq {s : Scanner} {text : String} (h : s.whole = encode text) :
    s.StandsIn text := by
  have hlength : s.whole.length = text.utf8ByteSize := by rw [h, length_encode]
  refine ⟨?_, ?_, ?_, s.offset_next, s.offset_rewind⟩
  · rw [← hlength]
    exact s.offset_le
  · rw [← hlength]
    exact s.atEnd_iff
  · rw [← h]
    exact s.fst_next

end Scanner

end Redaction.Instruction
