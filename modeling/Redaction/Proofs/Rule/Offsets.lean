import Redaction.Proofs.Instruction.Rendering
import Redaction.Proofs.Method.Builtin
import Redaction.Proofs.Rule.ForAll

/-!
# Written offsets

An offset may be written with quotes or without, and with any number of digits. Without quotes it is
read as a number if it fits into 64 bits, and with quotes as a text, which the method reads as a
number with the same limits. So both mean the same offset, and one that does not fit means zero.
-/

namespace Redaction.Instruction.Grammar

open Redaction.Number Redaction.Method

namespace Integral

def text (n : Integral) : String := String.ofList n.write

/-- The number as it stands in a parameter list. -/
def argument (n : Integral) (quoted : Bool) : String :=
  if quoted then "\"" ++ n.text ++ "\"" else n.text

/-- The offset that is meant: nothing is clamped to the limits. -/
def offset (n : Integral) : Int := if Fits64 n.value then n.value else 0

variable (n : Integral)

theorem ne_of_mem_write {n : Integral} {c : Char} (h : c ∈ n.write) {d : Char}
    (hd : d.isDigit = false) (hminus : d ≠ '-') : c ≠ d := by
  rcases n.forall_mem_write c h with hc | rfl
  · exact isDigit_ne hc hd
  · exact hminus.symm

theorem escaped_write : escaped n.write = n.write := by
  have hkept : ∀ c ∈ n.write, (if c = '"' ∨ c = escape then [escape, c] else [c]) = [c] := by
    intro c hc
    have hquote : c ≠ '"' := ne_of_mem_write hc (by decide) (by decide)
    have hescape : c ≠ escape := ne_of_mem_write hc (by decide) (by decide)
    rw [if_neg (not_or.mpr ⟨hquote, hescape⟩)]
  rw [escaped, List.flatMap_congr hkept]
  exact List.flatMap_singleton' n.write

theorem head?_text_ne : n.text.toList.head? ≠ some '~' := by
  intro h
  rw [text, String.toList_ofList] at h
  exact ne_of_mem_write (List.mem_of_mem_head? h) (by decide) (by decide) rfl

/-- Quoted or not, the number is one argument, and as an offset it means the same. -/
theorem exists_argument (quoted : Bool) :
    ∃ row token arg, n.argument quoted = String.ofList row ∧ ReadsAs row token ∧
      token.literal = (arg, false) ∧ arg.asInt = n.offset := by
  cases quoted with
  | false =>
      refine ⟨n.write, _, _, rfl, n.readsAs, n.literal, ?_⟩
      rw [offset]
      by_cases h : Fits64 n.value
      · rw [if_pos h, if_pos h]
        rfl
      · rw [if_neg h, if_neg h, Literal.asInt, n.readInt64?, if_neg h]
        rfl
  | true =>
      refine ⟨_, _, _, ?_, readsAs_quoted n.text, literal_quoted n.head?_text_ne, ?_⟩
      · rw [text, String.toList_ofList, escaped_write]
        simp [argument, text, String.append_assoc]
      · rw [offset, Literal.asInt, text, n.readInt64?]
        by_cases h : Fits64 n.value
        · rw [if_pos h, if_pos h]
          rfl
        · rw [if_neg h, if_neg h]
          rfl

/-- The methods that know their arguments by the offset change texts by the offset that is meant. -/
theorem changesTexts_forAll (method : Identifier) {name : String}
    {change : Int → List Char → List Char}
    (hf : ∀ σ : Type, (Registry.builtin : Registry σ).find? method.text =
      some (.ofFunction fun args => onText name (change (Method.offset args)))) (quoted : Bool) :
    ChangesTexts (forAll method.text (n.argument quoted)) (change n.offset) := by
  obtain ⟨row, token, arg, hrow, hreads, hliteral, hoffset⟩ := n.exists_argument quoted
  have hmake : onText name (change (Method.offset [arg])) = onText name (change n.offset) :=
    congrArg (fun k => onText name (change k)) hoffset
  have h := Redaction.changesTexts_forAll (.cons hreads .nil) (.cons hliteral .nil) hf hmake
  rwa [List.intercalate_singleton, ← hrow] at h

end Integral

theorem readInt64?_writeInt {m : Int} (h : Fits64 m) : readInt64? (writeInt m) = some m := by
  have hvalue : (numeralOf m h).integral.value = m := signedValue_digits m
  have hread := (numeralOf m h).integral.readInt64?
  rw [hvalue, if_pos h] at hread
  have hwrite : (numeralOf m h).integral.write = (writeInt m).toList := write_numeralOf h
  rwa [hwrite, String.ofList_toList] at hread

theorem starText_zero (cs : List Char) : starText 0 cs = List.replicate cs.length '*' := by
  apply List.ext_getElem
  · simp [starText]
  · intro i hi hi'
    simp [starText, keptCount]

theorem removeText_zero (cs : List Char) : removeText 0 cs = [] := by
  simp [removeText, keptCount]

/-- An offset means what its digits do, quoted or not, if that fits into 64 bits. If not, it means
zero, and nothing is kept. -/
theorem changesTexts_of_offset (n : Integral) :
    (∀ quoted, ChangesTexts (forAll "star" (n.argument quoted)) (starText n.offset)) ∧
    (∀ quoted, ChangesTexts (forAll "remove" (n.argument quoted)) (removeText n.offset)) ∧
    (∀ cs, starText 0 cs = List.replicate cs.length '*' ∧ removeText 0 cs = []) ∧
    (Token.bare n.text).literal =
      (if Fits64 n.value then .int n.value else .text n.text, false) ∧
    ∀ m, Fits64 m → readInt64? (Literal.int m).asText = some m := by
  refine ⟨?_, ?_, fun cs => ⟨starText_zero cs, removeText_zero cs⟩, n.literal, fun m =>
    readInt64?_writeInt⟩
  · exact n.changesTexts_forAll (identifier "star" rfl rfl (by decide)) fun σ =>
      Registry.find?_builtin_star
  · exact n.changesTexts_forAll (identifier "remove" rfl rfl (by decide)) fun σ =>
      Registry.find?_builtin_remove

/-- The least integer of 64 bits, with leading zeros. -/
def leastPadded : Integral :=
  ⟨true, "0009223372036854775808".toList, by decide, List.all_eq_true.mp (by decide)⟩

/-- The greatest integer of 64 bits, and one more. -/
def pastGreatest : Integral :=
  ⟨false, "9223372036854775808".toList, by decide, List.all_eq_true.mp (by decide)⟩

theorem changesTexts_of_offset_limits :
    ChangesTexts "all=star(-0009223372036854775808)" (starText least64) ∧
      ChangesTexts "all=remove(\"9223372036854775808\")" (removeText 0) ∧
        readInt64? (Literal.int least64).asText = some least64 := by
  obtain ⟨hstar, -, -, -, hwrite⟩ := changesTexts_of_offset leastPadded
  obtain ⟨-, hremove, -⟩ := changesTexts_of_offset pastGreatest
  have hleast : leastPadded.offset = least64 := by decide +kernel
  have hpast : pastGreatest.offset = 0 := by decide +kernel
  have hpadded : forAll "star" (leastPadded.argument false) =
      "all=star(-0009223372036854775808)" := by decide +kernel
  have hquoted : forAll "remove" (pastGreatest.argument true) =
      "all=remove(\"9223372036854775808\")" := by decide +kernel
  refine ⟨?_, ?_, hwrite least64 (by decide)⟩
  · rw [← hpadded, ← hleast]
    exact hstar false
  · rw [← hquoted, ← hpast]
    exact hremove true

end Redaction.Instruction.Grammar
