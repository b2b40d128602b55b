import Mathlib.Data.List.Forall2
import Redaction.Proofs.Instruction.Characters
import Redaction.Proofs.Instruction.Grammar

/-!
# Reading what the grammar writes

Each part of a written instruction is read as the node that it stands for, and the reader stands
right after it then. The parts are followed by a delimiter or by the end, which is what ends a bare
text. It is read by characters here, which comes to the same as by octets.
-/

namespace Redaction.Instruction.Grammar

open Redaction.Number Redaction.Text

/-! ## Literals -/

theorem stripInversion_of_head {s : String} (h : s.toList.head? ≠ some '~') :
    stripInversion s = (s, false) := by
  unfold stripInversion
  split
  · next rest heq =>
      rw [heq] at h
      exact absurd rfl h
  · rfl

theorem literal_quoted {text : String} (h : text.toList.head? ≠ some '~') :
    (Token.quoted text).literal = (.text text, false) := by
  rw [Token.literal, stripInversion_of_head h]
  rfl

/-- A text with a character that is in no number is read as a word. -/
theorem literal_bare_of_other {s : String}
    (h : ∃ c ∈ s.toList, c.isDigit = false ∧ c ≠ '.' ∧ c ≠ '-') :
    (Token.bare s).literal = (stripInversion s).map .ofWord id := by
  obtain ⟨c, hc, hdigit, hpoint, hminus⟩ := h
  have hempty : s.isEmpty = false := by
    rw [Bool.eq_false_iff]
    intro he
    rw [String.isEmpty_iff.mp he] at hc
    simp at hc
  have hnumeric : looksNumeric s = false := by
    rw [Bool.eq_false_iff]
    intro hn
    have hall := List.all_eq_true.mp hn c hc
    simp [hdigit, hpoint, hminus] at hall
  simp only [Token.literal, hempty, hnumeric]
  rfl

theorem ofWord_eq_text {s : String}
    (h : ∀ b : Bool, s.toList.map Char.toLower ≠ (Literal.writeBool b).toList) :
    Literal.ofWord s = .text s := by
  have hword : ∀ b : Bool, String.ofList (s.toList.map Char.toLower) ≠ Literal.writeBool b := by
    intro b hb
    refine h b ?_
    rw [← hb, String.toList_ofList]
  have htrue : String.ofList (s.toList.map Char.toLower) ≠ "true" := hword true
  have hfalse : String.ofList (s.toList.map Char.toLower) ≠ "false" := hword false
  simp only [Literal.ofWord]
  rw [if_neg htrue, if_neg hfalse]

theorem ofWord_eq_bool {s : String} {b : Bool}
    (h : s.toList.map Char.toLower = (Literal.writeBool b).toList) :
    Literal.ofWord s = .bool b := by
  have hword : String.ofList (s.toList.map Char.toLower) = Literal.writeBool b := by
    rw [h, String.ofList_toList]
  simp only [Literal.ofWord, hword]
  cases b <;> rfl

theorem Identifier.head?_ne (i : Identifier) : i.text.toList.head? ≠ some '~' := by
  intro h
  exact absurd (i.plain '~' (List.mem_of_mem_head? h)) (by decide)

theorem stripInversion_mark {s : String} {inverted : Bool}
    (h : inverted = false → s.toList.head? ≠ some '~') :
    stripInversion (String.ofList (mark inverted ++ s.toList)) = (s, inverted) := by
  cases inverted with
  | false =>
      rw [mark, if_neg (by simp), List.nil_append, String.ofList_toList]
      exact stripInversion_of_head (h rfl)
  | true => simp [stripInversion, mark]

/-- The mark of inversion belongs to the entry of a list, not to the word in it. -/
theorem literal_bare_mark {s : String}
    (hother : ∃ c ∈ s.toList, c.isDigit = false ∧ c ≠ '.' ∧ c ≠ '-')
    (hhead : s.toList.head? ≠ some '~') (inverted : Bool) :
    (Token.bare (String.ofList (mark inverted ++ s.toList))).literal = (.ofWord s, inverted) := by
  obtain ⟨c, hc, hnumeric⟩ := hother
  rw [literal_bare_of_other ⟨c, ?_, hnumeric⟩, stripInversion_mark fun _ => hhead]
  · rfl
  · rw [String.toList_ofList]
    exact List.mem_append_right _ hc

theorem Identifier.literal_mark (i : Identifier) (inverted : Bool) :
    (Token.bare (String.ofList (mark inverted ++ i.text.toList))).literal =
      (.text i.text, inverted) := by
  rw [literal_bare_mark i.other i.head?_ne, ofWord_eq_text i.not_truth]

theorem isDigit_ne {d c : Char} (hd : d.isDigit = true) (hc : c.isDigit = false) : d ≠ c := by
  rintro rfl
  exact absurd (hd.symm.trans hc) (by simp)

theorem Integral.readInt? (n : Integral) : Number.readInt? n.write = some n.value := by
  have hread : readNat? n.digits = some (digitsValue n.digits) := by
    rw [readNat?, if_neg (by simpa using n.ne_nil), if_pos (List.all_eq_true.mpr n.isDigit)]
  obtain ⟨negative, digits, hne, hdigits⟩ := n
  cases negative with
  | true =>
      simp only [write, if_pos, Number.readInt?, hread]
      rfl
  | false =>
      obtain ⟨d, rest, rfl⟩ := List.exists_cons_of_ne_nil hne
      have hd := hdigits d List.mem_cons_self
      have hminus : d ≠ '-' := isDigit_ne hd (by decide)
      have hplus : d ≠ '+' := isDigit_ne hd (by decide)
      change Number.readInt? (d :: rest) = _
      unfold Number.readInt?
      split
      · next heq => exact absurd (List.cons.inj heq).1 hminus
      · next heq => exact absurd (List.cons.inj heq).1 hplus
      · rw [hread]
        rfl

theorem Integral.readInt64? (n : Integral) :
    Number.readInt64? (String.ofList n.write) = if Fits64 n.value then some n.value else none := by
  rw [Number.readInt64?, String.toList_ofList, n.readInt?]
  by_cases h : Fits64 n.value
  · rw [if_pos h, Option.filter_some, if_pos (decide_eq_true h)]
  · rw [if_neg h, Option.filter_some, if_neg (by simpa using h)]

theorem Integral.forall_mem_write (n : Integral) : ∀ c ∈ n.write, c.isDigit = true ∨ c = '-' := by
  intro c hc
  unfold write at hc
  split at hc
  · rcases List.mem_cons.mp hc with hc | hc
    · exact .inr hc
    · exact .inl (n.isDigit c hc)
  · exact .inl (n.isDigit c hc)

theorem Integral.write_ne_nil (n : Integral) : n.write ≠ [] := by
  unfold write
  split
  · exact List.cons_ne_nil _ _
  · exact n.ne_nil

/-- What does not fit is left as the text that it is. -/
theorem Integral.literal (n : Integral) :
    (Token.bare (String.ofList n.write)).literal =
      (if Fits64 n.value then .int n.value else .text (String.ofList n.write), false) := by
  have hempty : (String.ofList n.write).isEmpty = false := by
    rw [Bool.eq_false_iff]
    intro he
    have hnil := congrArg String.toList (String.isEmpty_iff.mp he)
    rw [String.toList_ofList] at hnil
    exact n.write_ne_nil hnil
  have hnumeric : looksNumeric (String.ofList n.write) = true := by
    refine List.all_eq_true.mpr fun c hc => ?_
    rw [String.toList_ofList] at hc
    rcases n.forall_mem_write c hc with h | rfl
    · simp [h]
    · decide
  have hpoint : '.' ∉ (String.ofList n.write).toList := by
    intro hc
    rw [String.toList_ofList] at hc
    rcases n.forall_mem_write '.' hc with h | h <;> exact absurd h (by decide)
  simp only [Token.literal, hempty, hnumeric, Literal.ofNumeric, if_neg hpoint, n.readInt64?]
  by_cases h : Fits64 n.value
  · rw [if_pos h, if_pos h]
    rfl
  · rw [if_neg h, if_neg h]
    rfl

theorem Numeral.forall_mem_write (n : Numeral) : ∀ c ∈ n.write, c.isDigit = true ∨ c = '-' :=
  n.integral.forall_mem_write

theorem Numeral.literal (n : Numeral) :
    (Token.bare (String.ofList n.write)).literal = (.int n.value, false) := by
  have hfits : Fits64 n.integral.value := n.fits
  have h := n.integral.literal
  rwa [if_pos hfits] at h

/-- The two words have no delimiter, no character of numbers and no mark in any case of letters. -/
theorem toLower_mem_writeBool {value : Bool} {c : Char}
    (h : c.toLower ∈ (Literal.writeBool value).toList) :
    Delimiter.ofChar? c = none ∧ c.isDigit = false ∧ c ≠ '.' ∧ c ≠ '-' := by
  by_cases hupper : c.val ≥ 'A'.val ∧ c.val ≤ 'Z'.val
  · have hne : ∀ b : Char, ¬(b.val ≥ 'A'.val ∧ b.val ≤ 'Z'.val) → c ≠ b := by
      rintro b hb rfl
      exact hb hupper
    refine ⟨List.find?_eq_none.mpr fun d _ hd => ?_, ?_, hne '.' (by decide), hne '-' (by decide)⟩
    · exact hne d.char (by cases d <;> decide) (eq_of_beq hd).symm
    · simp only [ge_iff_le, UInt32.le_iff_toNat_le] at hupper
      rw [Bool.eq_false_iff]
      intro hd
      simp only [Char.isDigit, ge_iff_le, UInt32.le_iff_toNat_le, Bool.and_eq_true,
        decide_eq_true_eq] at hd
      have hA : 'A'.val.toNat = 65 := rfl
      have h9 : '9'.val.toNat = 57 := rfl
      omega
  · have hsame : c.toLower = c := dif_neg hupper
    rw [hsame] at h
    have hall : ((Literal.writeBool value).toList.all fun l => decide
        (Delimiter.ofChar? l = none ∧ l.isDigit = false ∧ l ≠ '.' ∧ l ≠ '-')) = true := by
      cases value <;> decide
    exact of_decide_eq_true (List.all_eq_true.mp hall c h)

theorem literal_truth {value : Bool} {spelling : String}
    (h : spelling.toList.map Char.toLower = (Literal.writeBool value).toList) :
    (Token.bare spelling).literal = (.bool value, false) := by
  have hchar : ∀ c ∈ spelling.toList, c.toLower ∈ (Literal.writeBool value).toList := by
    intro c hc
    rw [← h]
    exact List.mem_map_of_mem hc
  have hne : spelling.toList ≠ [] := by
    intro hnil
    rw [hnil] at h
    cases value <;> exact absurd h (by decide)
  obtain ⟨c, rest, heq⟩ := List.exists_cons_of_ne_nil hne
  have hc : c ∈ spelling.toList := heq ▸ List.mem_cons_self
  obtain ⟨hplain, hother⟩ := toLower_mem_writeBool (hchar c hc)
  have hhead : spelling.toList.head? ≠ some '~' := by
    rw [heq]
    rintro hcons
    cases hcons
    exact absurd hplain (by decide)
  rw [literal_bare_of_other ⟨c, hc, hother⟩, stripInversion_of_head hhead]
  exact Prod.ext (ofWord_eq_bool h) rfl

/-! ## Texts -/

/-- What ends a bare text: a delimiter or the end. -/
def Stops (rest : List Char) : Prop := ∀ c ∈ rest.head?, (characters.delimiter? c).isSome = true

theorem stops_nil : Stops [] := nofun

theorem stops_char (d : Delimiter) (rest : List Char) : Stops (d.char :: rest) := by
  rintro c hc
  cases hc
  have hsome : characters.delimiter? d.char = some d := Delimiter.ofChar?_char d
  rw [hsome]
  rfl

theorem bareRun_append {cs rest : List Char} (h : ∀ c ∈ cs, characters.isContent c = true)
    (hrest : Stops rest) : bareRun characters (cs ++ rest) = (cs, rest) := by
  have hstop : rest.takeWhile characters.isContent = [] ∧
      rest.dropWhile characters.isContent = rest := by
    cases rest with
    | nil => exact ⟨rfl, rfl⟩
    | cons c later =>
        have hc : ¬characters.isContent c = true := by
          have hsome := hrest c rfl
          rw [Alphabet.isContent]
          cases hd : characters.delimiter? c with
          | none =>
              rw [hd] at hsome
              cases hsome
          | some d => simp
        exact ⟨List.takeWhile_cons_of_neg hc, List.dropWhile_cons_of_neg hc⟩
  rw [bareRun, List.takeWhile_append_of_pos h, List.dropWhile_append_of_pos h, hstop.1, hstop.2,
    List.append_nil]

theorem readBare_append {cs rest : List Char} (h : ∀ c ∈ cs, characters.isContent c = true)
    (hrest : Stops rest) : readBare characters (cs ++ rest) = (String.ofList cs, rest) := by
  rw [readBare, bareRun_append h hrest]
  rfl

/-- A character is escaped if it would otherwise end the text or escape the next one. -/
theorem quotedRun_escaped (cs rest : List Char) :
    quotedRun characters false (escaped cs ++ '"' :: rest) = (cs, rest) := by
  induction cs with
  | nil => rfl
  | cons c later ih =>
      rw [escaped, List.flatMap_cons, ← escaped, List.append_assoc]
      by_cases hc : c = '"' ∨ c = escape
      · rw [if_pos hc]
        change quotedRun characters false (escape :: c :: (escaped later ++ '"' :: rest)) = _
        have hescape : ¬characters.delimiter? escape = some .quote := by decide
        rw [quotedRun, if_neg (by simp), if_neg hescape, if_pos (by decide), quotedRun, if_pos rfl,
          ih]
        rfl
      · obtain ⟨hquote, hescape⟩ := not_or.mp hc
        have hdelimiter : ¬characters.delimiter? c = some .quote := fun h =>
          hquote (Delimiter.char_of_ofChar? h).symm
        have hplain : ¬characters.isEscape c = true := fun h => hescape (eq_of_beq h)
        rw [if_neg hc, List.singleton_append, quotedRun, if_neg (by simp), if_neg hdelimiter,
          if_neg hplain, ih]
        rfl

theorem readQuoted_escaped (text : String) (rest : List Char) :
    readQuoted characters (escaped text.toList ++ '"' :: rest) = (text, rest) := by
  rw [readQuoted, quotedRun_escaped]
  exact Prod.ext String.ofList_toList rfl

/-! ## Entries of lists -/

/-- Characters are read as one entry of a list, before a comma and before a closing bracket. -/
structure ReadsAs (cs : List Char) (t : Token) : Prop where
  comma : ∀ rest, readList characters [] (cs ++ ',' :: rest) =
    (readList characters [] rest).map (t :: ·) id
  close : ∀ (c : Char) (rest : List Char), c = ']' ∨ c = ')' →
    readList characters [] (cs ++ c :: rest) = ([t], rest)

theorem readList_comma (buffer rest : List Char) :
    readList characters buffer (',' :: rest) =
      (readList characters [] rest).map (flush characters buffer ++ ·) id := by
  rw [readList]
  rfl

theorem readList_close {c : Char} (hc : c = ']' ∨ c = ')') (buffer rest : List Char) :
    readList characters buffer (c :: rest) = (flush characters buffer, rest) := by
  rw [readList]
  rcases hc with rfl | rfl <;> rfl

theorem readList_quote (text : String) (rest : List Char) :
    readList characters [] ('"' :: escaped text.toList ++ '"' :: rest) =
      (readList characters [] rest).map (.quoted text :: ·) id := by
  rw [List.cons_append, readList]
  change (readList characters [] (readQuoted characters (escaped text.toList ++ '"' :: rest)).2).map
    _ id = _
  rw [readQuoted_escaped]
  rfl

theorem readsAs_bare {cs : List Char} (hne : cs ≠ [])
    (h : ∀ c ∈ cs, characters.delimiter? c = none ∨ characters.delimiter? c = some .invert) :
    ReadsAs cs (.bare (String.ofList cs)) := by
  have hflush : flush characters cs = [.bare (String.ofList cs)] := by
    rw [flush, if_neg (by simpa using hne)]
    rfl
  constructor
  · intro rest
    rw [readList_append h, List.nil_append, readList_comma, hflush]
    rfl
  · intro c rest hc
    rw [readList_append h, List.nil_append, readList_close hc, hflush]

theorem readsAs_marked {cs : List Char} (hne : cs ≠ [])
    (h : ∀ c ∈ cs, characters.delimiter? c = none) (inverted : Bool) :
    ReadsAs (mark inverted ++ cs) (.bare (String.ofList (mark inverted ++ cs))) := by
  refine readsAs_bare (List.append_ne_nil_of_right_ne_nil _ hne) ?_
  intro c hc
  rcases List.mem_append.mp hc with hc | hc
  · rw [mark] at hc
    split at hc
    · rw [List.mem_singleton.mp hc]
      exact .inr rfl
    · cases hc
  · exact .inl (h c hc)

theorem readsAs_quoted (text : String) :
    ReadsAs ('"' :: escaped text.toList ++ ['"']) (.quoted text) := by
  constructor
  · intro rest
    rw [List.append_assoc, List.singleton_append, readList_quote, readList_comma]
    rfl
  · intro c rest hc
    rw [List.append_assoc, List.singleton_append, readList_quote, readList_close hc]
    rfl

theorem readList_entries {rows : List (List Char)} {tokens : List Token}
    (h : List.Forall₂ ReadsAs rows tokens) {c : Char} (hc : c = ']' ∨ c = ')') (rest : List Char) :
    readList characters [] ([','].intercalate rows ++ c :: rest) = (tokens, rest) := by
  induction h with
  | nil => exact readList_close hc [] rest
  | @cons row token rows tokens hrow htail ih =>
      cases htail with
      | nil =>
          rw [List.intercalate_singleton]
          exact hrow.close c rest hc
      | @cons row' token' rows' tokens' hrow' htail' =>
          rw [List.intercalate_cons_cons, List.append_assoc, List.append_assoc,
            List.singleton_append, hrow.comma, ih]
          rfl

def Argument.token : Argument → Token
  | quoted text _ => .quoted text
  | a => .bare (String.ofList a.write)

theorem Argument.literal_token (a : Argument) : a.token.literal = (a.literal, false) := by
  cases a with
  | quoted text h => exact literal_quoted h
  | word name => exact name.literal_mark false
  | int value => exact value.literal
  | truth value spelling h =>
      change (Token.bare (String.ofList spelling.toList)).literal = _
      rw [String.ofList_toList]
      exact literal_truth h

theorem Identifier.ne_nil (i : Identifier) : i.text.toList ≠ [] := by
  obtain ⟨c, hc, -⟩ := i.other
  exact List.ne_nil_of_mem hc

theorem delimiter?_of_isDigit {c : Char} (hc : c.isDigit = true) : Delimiter.ofChar? c = none := by
  refine List.find?_eq_none.mpr fun d _ hd => ?_
  rw [← eq_of_beq hd] at hc
  cases d <;> exact absurd hc (by decide)

theorem Integral.readsAs (n : Integral) : ReadsAs n.write (.bare (String.ofList n.write)) := by
  refine readsAs_bare n.write_ne_nil fun c hc => .inl ?_
  rcases n.forall_mem_write c hc with h | rfl
  · exact delimiter?_of_isDigit h
  · decide

theorem Argument.readsAs (a : Argument) : ReadsAs a.write a.token := by
  cases a with
  | quoted text h => exact readsAs_quoted text
  | word name => exact readsAs_bare name.ne_nil fun c hc => .inl (name.plain c hc)
  | int value => exact value.integral.readsAs
  | truth value spelling h =>
      refine readsAs_bare ?_ fun c hc => .inl ?_
      · intro hnil
        have hnil' : spelling.toList = [] := hnil
        rw [hnil'] at h
        cases value <;> exact absurd h (by decide)
      · have hmem : c.toLower ∈ (Literal.writeBool value).toList := h ▸ List.mem_map_of_mem hc
        exact (toLower_mem_writeBool hmem).1

def Group.token (g : Group) : Token := .bare (String.ofList g.write)

theorem Group.readsAs (g : Group) : ReadsAs g.write g.token :=
  readsAs_marked g.name.ne_nil g.name.plain g.inverted

theorem readChildren_entries {rows : List (List Char)} {tokens : List Token}
    (h : List.Forall₂ ReadsAs rows tokens) {c : Char} (hc : c = ']' ∨ c = ')') (rest : List Char) :
    readChildren characters ([','].intercalate rows ++ c :: rest) =
      (tokens.map (Node.ofToken · false), rest) := by
  rw [readChildren, readList_entries h hc]
  rfl

theorem readsAs_arguments (args : List Argument) :
    List.Forall₂ ReadsAs (args.map Argument.write) (args.map Argument.token) := by
  rw [List.forall₂_map_left_iff, List.forall₂_map_right_iff]
  exact List.forall₂_same.mpr fun a _ => a.readsAs

theorem ofToken_arguments (args : List Argument) :
    (args.map Argument.token).map (Node.ofToken · false) = args.map Argument.node := by
  rw [List.map_map]
  refine List.map_congr_left fun a _ => ?_
  simp [Node.ofToken, a.literal_token, Argument.node]

theorem readChildren_groups (groups : List Group) (rest : List Char) :
    readChildren characters ([','].intercalate (groups.map Group.write) ++ ']' :: rest) =
      (groups.map Group.node, rest) := by
  have hall : List.Forall₂ ReadsAs (groups.map Group.write) (groups.map Group.token) := by
    rw [List.forall₂_map_left_iff, List.forall₂_map_right_iff]
    exact List.forall₂_same.mpr fun g _ => g.readsAs
  rw [readChildren_entries hall (.inl rfl), List.map_map]
  refine Prod.ext (List.map_congr_left fun g _ => ?_) rfl
  have hliteral : g.token.literal = (.text g.name.text, g.inverted) :=
    g.name.literal_mark g.inverted
  simp [Node.ofToken, hliteral, Group.node]

/-! ## Rules -/

theorem readNodes_cons (pending : Bool) (c : Char) (rest : List Char) :
    readNodes characters pending (c :: rest) =
      (turn characters pending c rest).node.toList ++
        readNodes characters (turn characters pending c rest).pending
          (turn characters pending c rest).rest := by
  rw [readNodes]

theorem readNodes_nil (pending : Bool) : readNodes characters pending [] = [] := by
  rw [readNodes]

theorem readNodes_mark (inverted : Bool) (rest : List Char) :
    readNodes characters false (mark inverted ++ rest) = readNodes characters inverted rest := by
  cases inverted with
  | false => rfl
  | true =>
      rw [mark, if_pos rfl, List.singleton_append, readNodes_cons]
      rfl

theorem readNodes_identifier (i : Identifier) (pending : Bool) {rest : List Char}
    (hrest : Stops rest) :
    readNodes characters pending (i.text.toList ++ rest) =
      .scalar (.text i.text) pending :: readNodes characters false rest := by
  have hread : readBare characters (i.text.toList ++ rest) = (i.text, rest) := by
    rw [readBare_append _ hrest, String.ofList_toList]
    intro c hc
    have hplain : characters.delimiter? c = none := i.plain c hc
    rw [Alphabet.isContent, hplain]
    rfl
  have hliteral := i.literal_mark false
  rw [mark, if_neg (by simp), List.nil_append, String.ofList_toList] at hliteral
  obtain ⟨c, later, heq⟩ := List.exists_cons_of_ne_nil i.ne_nil
  have hc : characters.delimiter? c = none := i.plain c (heq ▸ List.mem_cons_self)
  have hturn : turn characters pending c (later ++ rest) =
      ⟨some (.scalar (.text i.text) pending), false, rest⟩ := by
    rw [heq, List.cons_append] at hread
    rw [turn, hc]
    simp only [hread, Node.ofToken, hliteral, Bool.false_or]
  rw [heq, List.cons_append, readNodes_cons, hturn]
  rfl

theorem readNodes_selector (s : Selector) (inverted : Bool) (rest : List Char) :
    readNodes characters inverted (s.write ++ '=' :: rest) =
      s.node inverted :: .run :: readNodes characters false rest := by
  have hrun : readNodes characters false ('=' :: rest) =
      .run :: readNodes characters false rest := by
    rw [readNodes_cons]
    rfl
  cases s with
  | single name =>
      have hstops : Stops ('=' :: rest) := stops_char .run rest
      rw [Selector.write, readNodes_identifier name inverted hstops, hrun]
      rfl
  | list groups h =>
      have hturn : turn characters inverted '['
          ([','].intercalate (groups.map Group.write) ++ ']' :: '=' :: rest) =
            ⟨some (.set (groups.map Group.node) inverted), false, '=' :: rest⟩ := by
        have hopen : characters.delimiter? '[' = some .openSet := rfl
        simp only [turn, hopen, readChildren_groups]
      rw [Selector.write, List.append_assoc, List.singleton_append, List.cons_append,
        readNodes_cons, hturn, ← hrun]
      rfl

theorem readNodes_mark_selector (s : Selector) (inverted : Bool) (rest : List Char) :
    readNodes characters false (mark inverted ++ s.write ++ '=' :: rest) =
      s.node inverted :: .run :: readNodes characters false rest := by
  rw [List.append_assoc, readNodes_mark, readNodes_selector]

/-- Parameters need not be arguments of the grammar to be read. -/
theorem readNodes_entries {rows : List (List Char)} {tokens : List Token}
    (h : List.Forall₂ ReadsAs rows tokens) (rest : List Char) :
    readNodes characters false ('(' :: [','].intercalate rows ++ ')' :: rest) =
      .params (tokens.map (Node.ofToken · false)) false :: readNodes characters false rest := by
  have hturn : turn characters false '(' ([','].intercalate rows ++ ')' :: rest) =
      ⟨some (.params (tokens.map (Node.ofToken · false)) false), false, rest⟩ := by
    have hopen : characters.delimiter? '(' = some .openParams := rfl
    simp only [turn, hopen, readChildren_entries h (.inr rfl)]
  rw [List.cons_append, readNodes_cons, hturn]
  rfl

theorem readNodes_params (args : List Argument) (rest : List Char) :
    readNodes characters false ('(' :: [','].intercalate (args.map Argument.write) ++ ')' :: rest) =
      .params (args.map Argument.node) false :: readNodes characters false rest := by
  rw [readNodes_entries (readsAs_arguments args), ofToken_arguments]

theorem readNodes_rule (r : Rule) {rest : List Char} (hrest : Stops rest) :
    readNodes characters false (r.write ++ rest) = r.nodes ++ readNodes characters false rest := by
  rw [Rule.write, Rule.nodes, Rule.paramNodes]
  cases r.params with
  | none =>
      rw [List.append_nil, List.append_assoc, List.cons_append, readNodes_mark_selector,
        readNodes_identifier r.method false hrest]
      rfl
  | some args =>
      have hstops : Stops ('(' :: [','].intercalate (args.map Argument.write) ++ ')' :: rest) :=
        stops_char .openParams _
      simp only [List.append_assoc, List.cons_append, List.nil_append]
      rw [← List.append_assoc, readNodes_mark_selector]
      have hmethod := readNodes_identifier r.method false hstops
      rw [List.cons_append] at hmethod
      rw [hmethod]
      have hparams := readNodes_params args rest
      rw [List.cons_append] at hparams
      rw [hparams]

/-- What is written is read as the nodes of its rules with a chain marker between each two. -/
theorem parse_write (rules : List Rule) :
    parse (write rules) = [Node.chain].intercalate (rules.map Rule.nodes) := by
  rw [parse_eq_parseCharacters, parseCharacters, write, String.toList_ofList]
  induction rules with
  | nil => exact readNodes_nil false
  | cons r rest ih =>
      cases rest with
      | nil =>
          have hread := readNodes_rule r stops_nil
          rw [List.append_nil, readNodes_nil, List.append_nil] at hread
          rw [List.map_singleton, List.map_singleton, List.intercalate_singleton,
            List.intercalate_singleton, hread]
      | cons r' later =>
          have hstops : Stops ('|' :: ['|'].intercalate ((r' :: later).map Rule.write)) :=
            stops_char .chain _
          have hchain : ∀ after, readNodes characters false ('|' :: after) =
              .chain :: readNodes characters false after := by
            intro after
            rw [readNodes_cons]
            rfl
          rw [List.map_cons, List.map_cons, List.map_cons, List.map_cons,
            List.intercalate_cons_cons, List.intercalate_cons_cons, ← List.map_cons,
            ← List.map_cons, List.append_assoc, List.singleton_append, readNodes_rule r hstops,
            hchain, ih, List.append_assoc, List.singleton_append]

end Redaction.Instruction.Grammar
