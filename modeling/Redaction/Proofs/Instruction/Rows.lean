import Mathlib.Data.List.Basic
import Redaction.Proofs.Instruction.Characters

/-!
# The rows that are read as text

While it is read, an instruction is cut into rows of octets, and each row is read as text on its
own. Every row is whole: it spells characters of the instruction, in their order. So no row has
octets that are not UTF-8, and how such octets would be read does not matter.
-/

namespace Redaction.Instruction

open Redaction.Text Redaction.Text.Utf8

section

variable {α : Type} (A : Alphabet α)

def flushRows (buffer : List α) : List (List α) := if buffer.isEmpty then [] else [buffer]

/-- The rows of a list, given the units of the entry begun. -/
def listRows (buffer : List α) : List α → List (List α)
  | [] => flushRows buffer
  | u :: rest =>
      match A.delimiter? u with
      | none | some .invert => listRows (buffer ++ [u]) rest
      | some .closeSet | some .closeParams => flushRows buffer
      | some .comma => flushRows buffer ++ listRows [] rest
      | some .quote =>
          have : (quotedRun A false rest).2.length < rest.length + 1 :=
            Nat.lt_succ_of_le (length_quotedRun_le A false rest)
          flushRows buffer ++ (quotedRun A false rest).1 :: listRows [] (quotedRun A false rest).2
      | some .openSet | some .openParams | some .run | some .chain => listRows buffer rest
  termination_by input => input.length

/-- The rows of the turn at a unit. -/
def turnRows (u : α) (rest : List α) : List (List α) :=
  match A.delimiter? u with
  | some .invert | some .run | some .chain => []
  | some .openSet | some .openParams => listRows A [] rest
  | some .quote => [(quotedRun A false rest).1]
  | some .closeSet | some .closeParams | some .comma => [(bareRun A rest).1]
  | none => [(bareRun A (u :: rest)).1]

def rows (pending : Bool) : List α → List (List α)
  | [] => []
  | u :: rest =>
      have : (turn A pending u rest).rest.length < rest.length + 1 :=
        Nat.lt_succ_of_le (length_turn_le A pending u rest)
      turnRows A u rest ++ rows (turn A pending u rest).pending (turn A pending u rest).rest
  termination_by input => input.length

/-! ## Nothing else is read as text -/

/-- The same units, read as text in another way. -/
def Alphabet.withText (text : List α → String) : Alphabet α := { A with text := text }

variable {A} {text : List α → String}

@[simp] theorem delimiter?_withText : (A.withText text).delimiter? = A.delimiter? := rfl

@[simp] theorem isEscape_withText : (A.withText text).isEscape = A.isEscape := rfl

@[simp] theorem text_withText : (A.withText text).text = text := rfl

theorem quotedRun_withText (escaped : Bool) (input : List α) :
    quotedRun (A.withText text) escaped input = quotedRun A escaped input := by
  induction input generalizing escaped with
  | nil => rfl
  | cons u rest ih => simp only [quotedRun, delimiter?_withText, isEscape_withText, ih]

theorem flush_withText {buffer : List α} (h : ∀ row ∈ flushRows buffer, text row = A.text row) :
    flush (A.withText text) buffer = flush A buffer := by
  rw [flushRows] at h
  rw [flush, flush]
  by_cases hb : buffer.isEmpty
  · rw [if_pos hb, if_pos hb]
  · rw [if_neg hb, List.forall_mem_singleton] at h
    rw [if_neg hb, if_neg hb, text_withText, h]

theorem readQuoted_withText {input : List α}
    (h : text (quotedRun A false input).1 = A.text (quotedRun A false input).1) :
    readQuoted (A.withText text) input = readQuoted A input := by
  rw [readQuoted, readQuoted, quotedRun_withText]
  exact Prod.ext h rfl

theorem readBare_withText {input : List α}
    (h : text (bareRun A input).1 = A.text (bareRun A input).1) :
    readBare (A.withText text) input = readBare A input := Prod.ext h rfl

theorem readList_withText {buffer input : List α}
    (h : ∀ row ∈ listRows A buffer input, text row = A.text row) :
    readList (A.withText text) buffer input = readList A buffer input := by
  fun_induction readList A buffer input with
  | case1 buffer =>
      rw [listRows] at h
      rw [readList, flush_withText h]
  | case2 buffer u rest hd ih | case3 buffer u rest hd ih | case8 buffer u rest hd ih
  | case9 buffer u rest hd ih | case10 buffer u rest hd ih | case11 buffer u rest hd ih =>
      rw [listRows, hd] at h
      rw [readList, delimiter?_withText, hd]
      exact ih h
  | case4 buffer u rest hd | case5 buffer u rest hd =>
      rw [listRows, hd] at h
      rw [readList, delimiter?_withText, hd, flush_withText h]
  | case6 buffer u rest hd ih =>
      rw [listRows, hd] at h
      obtain ⟨hbuffer, hrest⟩ := List.forall_mem_append.mp h
      rw [readList, delimiter?_withText, hd]
      simp only [ih hrest, flush_withText hbuffer]
  | case7 buffer u rest hd hlt ih =>
      rw [listRows, hd] at h
      obtain ⟨hbuffer, hlater⟩ := List.forall_mem_append.mp h
      obtain ⟨hquoted, hrest⟩ := List.forall_mem_cons.mp hlater
      rw [readList, delimiter?_withText, hd]
      simp only [readQuoted_withText hquoted, flush_withText hbuffer]
      rw [ih hrest]

theorem turn_withText {pending : Bool} {u : α} {rest : List α}
    (h : ∀ row ∈ turnRows A u rest, text row = A.text row) :
    turn (A.withText text) pending u rest = turn A pending u rest := by
  rw [turnRows] at h
  rw [turn, turn, delimiter?_withText]
  cases hd : A.delimiter? u with
  | none =>
      rw [hd] at h
      simp only [readBare_withText (h _ List.mem_cons_self)]
  | some d =>
      rw [hd] at h
      cases d with
      | invert | run | chain => rfl
      | openSet | openParams => simp only [readChildren, readList_withText h]
      | quote => simp only [readQuoted_withText (h _ List.mem_cons_self)]
      | closeSet | closeParams | comma => simp only [readBare_withText (h _ List.mem_cons_self)]

theorem readNodes_withText {pending : Bool} {input : List α}
    (h : ∀ row ∈ rows A pending input, text row = A.text row) :
    readNodes (A.withText text) pending input = readNodes A pending input := by
  fun_induction readNodes A pending input with
  | case1 pending => rw [readNodes]
  | case2 pending u rest hlt ih =>
      rw [rows, List.forall_mem_append] at h
      rw [readNodes, turn_withText h.1, ih h.2]

/-! ## Rows are parts of the input -/

theorem flatten_flushRows (buffer : List α) : (flushRows buffer).flatten = buffer := by
  cases buffer <;> simp [flushRows]

theorem bareRun_append_sublist (input : List α) :
    ((bareRun A input).1 ++ (bareRun A input).2).Sublist input := by
  rw [bareRun, List.takeWhile_append_dropWhile]

theorem quotedRun_append_sublist (escaped : Bool) (input : List α) :
    ((quotedRun A escaped input).1 ++ (quotedRun A escaped input).2).Sublist input := by
  induction input generalizing escaped with
  | nil => exact List.Sublist.refl []
  | cons u rest ih =>
      rw [quotedRun]
      split
      · exact (ih false).cons_cons u
      · split
        · exact List.sublist_cons_self u rest
        · split
          · exact (ih true).cons u
          · exact (ih false).cons_cons u

theorem flatten_listRows_append_sublist (buffer input : List α) :
    ((listRows A buffer input).flatten ++ (readList A buffer input).2).Sublist
      (buffer ++ input) := by
  fun_induction readList A buffer input with
  | case1 buffer => rw [listRows, flatten_flushRows]
  | case2 buffer u rest hd ih | case3 buffer u rest hd ih =>
      rw [listRows, hd, List.append_cons buffer u rest]
      exact ih
  | case4 buffer u rest hd | case5 buffer u rest hd =>
      rw [listRows, hd, flatten_flushRows]
      exact (List.sublist_cons_self u rest).append_left buffer
  | case6 buffer u rest hd ih =>
      rw [listRows, hd]
      simp only [List.flatten_append, flatten_flushRows, List.append_assoc]
      exact (ih.cons u).append_left buffer
  | case7 buffer u rest hd hlt ih =>
      rw [listRows, hd]
      simp only [List.flatten_append, List.flatten_cons, flatten_flushRows, List.append_assoc]
      have hquoted := quotedRun_append_sublist (A := A) false rest
      refine List.Sublist.append_left (.cons u (.trans ?_ hquoted)) buffer
      exact ih.append_left (quotedRun A false rest).1
  | case8 buffer u rest hd ih | case9 buffer u rest hd ih | case10 buffer u rest hd ih
  | case11 buffer u rest hd ih =>
      rw [listRows, hd]
      exact ih.trans ((List.sublist_cons_self u rest).append_left buffer)

theorem flatten_turnRows_append_sublist (pending : Bool) (u : α) (rest : List α) :
    ((turnRows A u rest).flatten ++ (turn A pending u rest).rest).Sublist (u :: rest) := by
  rw [turnRows, turn]
  cases hd : A.delimiter? u with
  | none =>
      rw [List.flatten_singleton]
      exact bareRun_append_sublist (u :: rest)
  | some d =>
      cases d with
      | invert | run | chain => exact List.sublist_cons_self u rest
      | openSet | openParams => exact (flatten_listRows_append_sublist [] rest).cons u
      | quote =>
          rw [List.flatten_singleton]
          exact (quotedRun_append_sublist false rest).cons u
      | closeSet | closeParams | comma =>
          rw [List.flatten_singleton]
          exact (bareRun_append_sublist rest).cons u

/-- The rows taken together are what is left of the input when some units are passed over. -/
theorem flatten_rows_sublist (pending : Bool) (input : List α) :
    (rows A pending input).flatten.Sublist input := by
  fun_induction rows A pending input with
  | case1 pending => exact List.Sublist.refl []
  | case2 pending u rest hlt ih =>
      have hturn := flatten_turnRows_append_sublist (A := A) pending u rest
      rw [List.flatten_append]
      exact (ih.append_left (turnRows A u rest).flatten).trans hturn

end

/-! ## Rows of octets -/

theorem flushRows_encodeAll (buffer : List Char) :
    flushRows (encodeAll buffer) = (flushRows buffer).map encodeAll := by
  cases buffer with
  | nil => rfl
  | cons c rest =>
      obtain ⟨b, later, heq, -⟩ := exists_octets c
      simp [flushRows, encodeAll_cons, heq]

theorem listRows_append_plain {bytes : List UInt8} (h : ∀ b ∈ bytes, IsPlain b)
    (buffer rest : List UInt8) :
    listRows octets buffer (bytes ++ rest) = listRows octets (buffer ++ bytes) rest := by
  induction bytes generalizing buffer with
  | nil => simp
  | cons b later ih =>
      obtain ⟨hb, hlater⟩ := List.forall_mem_cons.mp h
      rw [List.cons_append, listRows, hb.1]
      change listRows octets (buffer ++ [b]) (later ++ rest) = _
      rw [ih hlater, List.append_assoc, List.singleton_append]

theorem listRows_encodeAll (buffer cs : List Char) :
    listRows octets (encodeAll buffer) (encodeAll cs) =
      (listRows characters buffer cs).map encodeAll := by
  fun_induction listRows characters buffer cs with
  | case1 buffer => rw [encodeAll_nil, listRows, flushRows_encodeAll]
  | case2 buffer c rest hd ih | case3 buffer c rest hd ih =>
      obtain ⟨b, later, heq, hdelimiter, -, hlater, -⟩ := exists_octets c
      rw [encodeAll_cons, heq, List.cons_append, listRows, hdelimiter, hd]
      change listRows octets (encodeAll buffer ++ [b]) (later ++ encodeAll rest) = _
      rw [listRows_append_plain hlater, List.append_assoc, List.singleton_append, ← ih,
        encodeAll_append, encodeAll_cons, encodeAll_nil, List.append_nil, heq]
  | case4 buffer c rest hd | case5 buffer c rest hd =>
      obtain ⟨b, heq, hdelimiter⟩ := exists_octet_of_delimiter hd
      rw [encodeAll_cons, heq, List.singleton_append, listRows, hdelimiter]
      exact flushRows_encodeAll buffer
  | case6 buffer c rest hd ih =>
      obtain ⟨b, heq, hdelimiter⟩ := exists_octet_of_delimiter hd
      rw [encodeAll_cons, heq, List.singleton_append, listRows, hdelimiter, List.map_append, ← ih,
        ← flushRows_encodeAll]
      rfl
  | case7 buffer c rest hd hlt ih =>
      obtain ⟨b, heq, hdelimiter⟩ := exists_octet_of_delimiter hd
      rw [encodeAll_cons, heq, List.singleton_append, listRows, hdelimiter, List.map_append,
        List.map_cons, ← ih, ← flushRows_encodeAll]
      simp only [quotedRun_encodeAll]
      rfl
  | case8 buffer c rest hd ih | case9 buffer c rest hd ih | case10 buffer c rest hd ih
  | case11 buffer c rest hd ih =>
      obtain ⟨b, heq, hdelimiter⟩ := exists_octet_of_delimiter hd
      rw [encodeAll_cons, heq, List.singleton_append, listRows, hdelimiter]
      exact ih

theorem turnRows_encodeAll {c : Char} {b : UInt8} {later : List UInt8}
    (heq : String.utf8EncodeChar c = b :: later) (rest : List Char) :
    turnRows octets b (later ++ encodeAll rest) =
      (turnRows characters c rest).map encodeAll := by
  cases hd : characters.delimiter? c with
  | none =>
      obtain ⟨b', later', heq', hdelimiter, -⟩ := exists_octets c
      obtain ⟨rfl, rfl⟩ := List.cons.inj (heq.symm.trans heq')
      have hrun := bareRun_encodeAll (c :: rest)
      rw [encodeAll_cons, heq, List.cons_append] at hrun
      rw [turnRows, turnRows, hdelimiter, hd, hrun]
      rfl
  | some d =>
      obtain ⟨b', heq', hdelimiter⟩ := exists_octet_of_delimiter hd
      obtain ⟨rfl, rfl⟩ := List.cons.inj (heq.symm.trans heq')
      rw [turnRows, turnRows, hdelimiter, hd, List.nil_append]
      cases d with
      | invert | run | chain => rfl
      | openSet | openParams => exact listRows_encodeAll [] rest
      | quote => simp only [quotedRun_encodeAll, Prod.map_fst, List.map_singleton]
      | closeSet | closeParams | comma =>
          simp only [bareRun_encodeAll, Prod.map_fst, List.map_singleton]

theorem rows_encodeAll (pending : Bool) (cs : List Char) :
    rows octets pending (encodeAll cs) = (rows characters pending cs).map encodeAll := by
  fun_induction rows characters pending cs with
  | case1 pending => rw [encodeAll_nil, rows, List.map_nil]
  | case2 pending c rest hlt ih =>
      obtain ⟨b, later, heq, hturn⟩ := turn_encodeAll pending c rest
      rw [encodeAll_cons, heq, List.cons_append, rows, hturn, turnRows_encodeAll heq, ih,
        List.map_append]

/-! ## Faithfulness -/

theorem exists_eq_encode_of_mem_rows {pending : Bool} {instruction : String} {row : List UInt8}
    (h : row ∈ rows octets pending (encode instruction)) : ∃ s, row = encode s := by
  change row ∈ rows octets pending (encodeAll instruction.toList) at h
  rw [rows_encodeAll] at h
  obtain ⟨cs, -, rfl⟩ := List.mem_map.mp h
  exact ⟨String.ofList cs, encodeAll_eq_encode cs⟩

/-- What the rows of an instruction are read as. -/
theorem flatMap_decode_rows (pending : Bool) (instruction : String) :
    ((rows octets pending (encode instruction)).flatMap fun row => (decode row).toList) =
      (rows characters pending instruction.toList).flatten := by
  change (rows octets pending (encodeAll instruction.toList)).flatMap _ = _
  rw [rows_encodeAll, List.flatMap_map]
  simp only [decode_encodeAll, String.toList_ofList, List.flatMap_id']

/-- Reading by octets is as good as reading by characters. Every row that is read as text is UTF-8,
so that it does not matter what other octets are read as; and all that is read stands in the
instruction, in the same order. -/
theorem parse_faithful (instruction : String) :
    parse instruction = parseCharacters instruction ∧
      (∀ row ∈ rows octets false (encode instruction), ∃ s, row = encode s ∧ decode row = s) ∧
      ((rows octets false (encode instruction)).flatMap fun row => (decode row).toList).Sublist
        instruction.toList ∧
      ∀ otherwise : List UInt8 → String,
        readNodes (octets.withText fun row => (decode? row).getD (otherwise row)) false
          (encode instruction) = parse instruction := by
  refine ⟨parse_eq_parseCharacters instruction, ?_, ?_, ?_⟩
  · intro row hrow
    obtain ⟨s, rfl⟩ := exists_eq_encode_of_mem_rows hrow
    exact ⟨s, rfl, decode_encode s⟩
  · rw [flatMap_decode_rows]
    exact flatten_rows_sublist false instruction.toList
  · intro otherwise
    apply readNodes_withText
    intro row hrow
    obtain ⟨s, rfl⟩ := exists_eq_encode_of_mem_rows hrow
    rw [decode?_encode, Option.getD_some]
    exact (decode_encode s).symm

end Redaction.Instruction
