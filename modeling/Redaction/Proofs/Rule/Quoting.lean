import Redaction.Proofs.Method.Builtin
import Redaction.Proofs.Rule.ForAll

/-!
# Quoted arguments

Any text can be handed to a method as an argument between quotes, if quotes and escapes in it are
escaped, and if it does not begin with the mark of inversion. The factory gets the text as it is,
whatever brackets, commas or digits are in it. A mask and the characters that it spares are given
like this.
-/

namespace Redaction

open Redaction.Instruction Redaction.Instruction.Grammar Redaction.Text

/-- A text between quotes. -/
def quotedRow (text : String) : List Char := '"' :: escaped text.toList ++ ['"']

/-- The instruction that has a method run for all groups with texts as its arguments. -/
def forAllQuoted (method : String) (texts : List String) : String :=
  forAll method (String.ofList ([','].intercalate (texts.map quotedRow)))

theorem readsAs_quotedRows (texts : List String) :
    List.Forall₂ ReadsAs (texts.map quotedRow) (texts.map Token.quoted) := by
  rw [List.forall₂_map_left_iff, List.forall₂_map_right_iff]
  exact List.forall₂_same.mpr fun text _ => readsAs_quoted text

theorem literals_quotedRows {texts : List String}
    (h : ∀ text ∈ texts, text.toList.head? ≠ some '~') :
    List.Forall₂ (fun token arg => token.literal = (arg, false)) (texts.map Token.quoted)
      (texts.map Literal.text) := by
  rw [List.forall₂_map_left_iff, List.forall₂_map_right_iff]
  exact List.forall₂_same.mpr fun text htext => literal_quoted (h text htext)

/-- The factory is called with the texts themselves. -/
theorem compile_forAllQuoted {σ : Type} {registry : Registry σ} {method : Identifier}
    {texts : List String} (h : ∀ text ∈ texts, text.toList.head? ≠ some '~')
    {factory : Factory σ} (hf : registry.find? method.text = some factory)
    {transformer : Transformer} {s t : σ}
    (hrun : (factory (texts.map Literal.text)).runFrom s = (.ok transformer, t)) :
    (compile registry (forAllQuoted method.text texts)).runFrom s =
      (.ok ⟨forAllQuoted method.text texts, [ruleForAll method.text transformer]⟩, t) :=
  compile_forAll (readsAs_quotedRows texts) (literals_quotedRows h) hf hrun

/-! ## Masks -/

/-- The character that masks the others: the first of a text, or a star if there is none. -/
def maskIn (text : String) : Char := text.toList.head?.getD '*'

theorem getElem?_maskText {mask : Char} {allowed cs : List Char} {i : Nat} {c : Char}
    (h : cs[i]? = some c) :
    (Method.maskText mask allowed cs)[i]? = some (if c ∈ allowed then c else mask) := by
  rw [Method.maskText, List.getElem?_map, h, Option.map_some]

/-- The instruction that has texts masked for all groups, with both arguments in quotes. -/
def maskingForAll (mask allowed : String) : String :=
  "all=redact(\"" ++ String.ofList (escaped mask.toList) ++ "\",\"" ++
    String.ofList (escaped allowed.toList) ++ "\")"

theorem maskingForAll_eq (mask allowed : String) :
    maskingForAll mask allowed = forAllQuoted "redact" [mask, allowed] := by
  apply String.ext
  simp [maskingForAll, forAllQuoted, forAll, wildcard, quotedRow, List.intercalate_cons_cons]

/-- A mask and the characters that it spares reach the method as they are, whatever is in them:
every text is masked character by character, for all groups. -/
theorem masks_of_quoted {mask allowed : String} (hmask : mask.toList.head? ≠ some '~')
    (hallowed : allowed.toList.head? ≠ some '~') {σ : Type} (s : σ) :
    ∃ r : Rule, (compile .builtin (maskingForAll mask allowed)).runFrom s =
        (.ok ⟨maskingForAll mask allowed, [r]⟩, s) ∧
      ∀ (text : String) (groups : List String), ∃ masked : String,
        (Evaluator.mk (maskingForAll mask allowed) [r]).evaluate (.text text) groups =
            .ok ⟨true, .text masked⟩ ∧
          masked.length = text.length ∧
          ∀ (i : Nat) (c : Char), text.toList[i]? = some c →
            masked.toList[i]? = some (if c ∈ allowed.toList then c else maskIn mask) := by
  have htexts : ∀ text ∈ [mask, allowed], text.toList.head? ≠ some '~' := by
    simpa using ⟨hmask, hallowed⟩
  have hfind : (Registry.builtin : Registry σ).find?
      (identifier "redact" rfl rfl (by decide)).text = some Method.redact :=
    Registry.find?_builtin_redact
  have hmade : (Method.redact ([mask, allowed].map Literal.text)).runFrom s =
      (.ok (Method.onText "redact" (Method.maskText (maskIn mask) allowed.toList)), s) := rfl
  have hcompiles := compile_forAllQuoted htexts hfind hmade
  rw [maskingForAll_eq]
  refine ⟨_, hcompiles, fun text groups => ?_⟩
  refine ⟨String.ofList (Method.maskText (maskIn mask) allowed.toList text.toList), ?_, ?_, ?_⟩
  · rw [evaluate_forAll]
    rfl
  · rw [← String.length_toList, String.toList_ofList, Method.maskText, List.length_map,
      String.length_toList]
  · intro i c hc
    rw [String.toList_ofList]
    exact getElem?_maskText hc

/-- The mask is a quote, and among the characters that stand are a bracket, an escape and a comma. -/
theorem masks_of_quoted_brackets :
    ∃ r : Rule, (compile .builtin "all=redact(\"\\\"#\",\"(\\\\,é1\")").runFrom () =
        (.ok ⟨"all=redact(\"\\\"#\",\"(\\\\,é1\")", [r]⟩, ()) ∧
      ∃ masked : String, (Evaluator.mk "all=redact(\"\\\"#\",\"(\\\\,é1\")" [r]).evaluate
          (.text "(aé") ["Admin"] = .ok ⟨true, .text masked⟩ ∧
        masked.length = "(aé".length ∧ masked.toList[0]? = some '(' ∧
          masked.toList[1]? = some '"' ∧ masked.toList[2]? = some 'é' := by
  have hwritten : maskingForAll "\"#" "(\\,é1" = "all=redact(\"\\\"#\",\"(\\\\,é1\")" := by
    decide +kernel
  have hmask : "\"#".toList.head? ≠ some '~' := by decide
  have hallowed : "(\\,é1".toList.head? ≠ some '~' := by decide
  obtain ⟨r, hcompiles, hmasks⟩ := masks_of_quoted hmask hallowed ()
  obtain ⟨masked, heval, hlength, hchars⟩ := hmasks "(aé" ["Admin"]
  rw [hwritten] at hcompiles heval
  exact ⟨r, hcompiles, masked, heval, hlength, (hchars 0 '(' rfl).trans (by decide),
    (hchars 1 'a' rfl).trans (by decide), (hchars 2 'é' rfl).trans (by decide)⟩

end Redaction
