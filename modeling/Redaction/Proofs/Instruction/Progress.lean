import Redaction.Instruction.Parse
import Redaction.Proofs.Instruction.Cursor
import Redaction.Proofs.Loop

/-!
# Progress through an instruction

The readers as loops that take one octet after another from a scanner, and step back over an octet
that is not theirs. Every round that is not the last uses up octets, though the round before may
have stepped back, so every loop ends. It ends with what the reader gives on all the octets ahead.
-/

namespace Redaction.Instruction

open Redaction.Text.Utf8

variable {A B : Type}

/-- A loop over an instruction. What has been read is carried along with the scanner. -/
abbrev Reader (A B : Type) := A × Scanner → Round (A × Scanner) (B × Scanner)

/-- A round that is not the last leaves the scanner further on in the same text. -/
def Reader.Advances (reader : Reader A B) : Prop :=
  ∀ st st', reader st = .again st' → st'.2.whole = st.2.whole ∧ st.2.offset < st'.2.offset

/-- A loop that begins at a scanner ends with an answer, with no other one, and not before the place
where it begins. -/
structure Reader.Completes (reader : Reader A B) (held : A) (s : Scanner) (answer : B × Scanner) :
    Prop where
  endsWith_iff : ∀ r, EndsWith reader (held, s) r ↔ r = answer
  whole_eq : answer.2.whole = s.whole
  offset_le : s.offset ≤ answer.2.offset

/-- What `read` gives on the octets ahead, and the place where it leaves off. -/
def result (read : A → List UInt8 → B × List UInt8) (st : A × Scanner) : B × Scanner :=
  (read st.1 st.2.ahead).map id st.2.leaving

/-- What a round does in a loop that gives what `read` gives. If it is not the last, it uses up the
octet ahead at least. -/
def Follows (read : A → List UInt8 → B × List UInt8) (st : A × Scanner) :
    Round (A × Scanner) (B × Scanner) → Prop
  | .last r => r = result read st
  | .again st' => ∃ u rest left, st.2.ahead = u :: rest ∧ left <:+ rest ∧
      st'.2 = st.2.leaving left ∧ read st'.1 left = read st.1 st.2.ahead

variable {read : A → List UInt8 → B × List UInt8}

namespace Follows

variable {held held' : A} {b : B} {s : Scanner} {left : List UInt8}

theorem last (h : read held s.ahead = (b, left)) :
    Follows read (held, s) (.last (b, s.leaving left)) := by
  rw [Follows, result, h]
  rfl

theorem last_here (h : read held s.ahead = (b, s.ahead)) :
    Follows read (held, s) (.last (b, s)) := by
  have hlast := last h
  rwa [s.leaving_self] at hlast

theorem again {u : UInt8} {rest : List UInt8} (hs : s.ahead = u :: rest) (hleft : left <:+ rest)
    (h : read held' left = read held s.ahead) :
    Follows read (held, s) (.again (held', s.leaving left)) :=
  ⟨u, rest, left, hs, hleft, rfl, h⟩

end Follows

namespace Reader

variable {reader : Reader A B}

theorem advances_of_follows (h : ∀ st, Follows read st (reader st)) : reader.Advances := by
  intro st st' hround
  have hst : Follows read st (.again st') := hround ▸ h st
  obtain ⟨u, rest, left, hahead, hleft, hst', -⟩ := hst
  have hlength : left.length ≤ rest.length := hleft.length_le
  rw [hst', Scanner.whole_leaving, Scanner.offset_leaving, hahead, List.length_cons]
  exact ⟨rfl, by omega⟩

/-- The octets between the scanner and the end of its text run out. -/
theorem Advances.exists_endsWith (h : reader.Advances) (st : A × Scanner) :
    ∃ r, EndsWith reader st r := by
  refine EndsWith.exists_of_decreasing (fun st => st.2.whole.length - st.2.offset) ?_ st
  intro st st' hround
  obtain ⟨hwhole, hlt⟩ := h st st' hround
  have hle : st'.2.offset ≤ st'.2.whole.length := st'.2.offset_le
  rw [hwhole] at hle ⊢
  omega

theorem eq_result_of_endsWith (h : ∀ st, Follows read st (reader st))
    (hsuffix : ∀ held input, (read held input).2 <:+ input) {st : A × Scanner} {r : B × Scanner}
    (hends : EndsWith reader st r) : r = result read st := by
  refine EndsWith.eq_of_keeps ?_ ?_ hends
  · intro st r hround
    have hst : Follows read st (.last r) := hround ▸ h st
    exact hst
  · rintro ⟨held, s⟩ ⟨held', s'⟩ hround
    have hst : Follows read (held, s) (.again (held', s')) := hround ▸ h (held, s)
    obtain ⟨u, rest, left, hahead, hleft, rfl, hread⟩ := hst
    have hleft' : left <:+ s.ahead := hahead ▸ hleft.trans (List.suffix_cons u rest)
    have hsame := Scanner.read_leaving (f := read held') hleft' (hsuffix held' left)
    rw [hread] at hsame
    exact hsame

theorem completes_result (h : ∀ st, Follows read st (reader st))
    (hsuffix : ∀ held input, (read held input).2 <:+ input) (held : A) (s : Scanner) :
    reader.Completes held s (result read (held, s)) where
  endsWith_iff r := by
    constructor
    · exact eq_result_of_endsWith h hsuffix
    · rintro rfl
      obtain ⟨r, hends⟩ := (advances_of_follows h).exists_endsWith (held, s)
      rwa [← eq_result_of_endsWith h hsuffix hends]
  whole_eq := s.whole_leaving _
  offset_le := by
    rw [result, Prod.map_snd, Scanner.offset_leaving]
    exact Nat.le_add_right _ _

end Reader

/-! ## Bare texts -/

/-- Content is taken up. The delimiter after it is given back. -/
def bareReader : Reader (List UInt8) String
  | (buffer, s) =>
      match s.next with
      | (.content b, s') => .again (buffer ++ [b], s')
      | (.delimiter _, s') => .last (octets.text buffer, s'.rewind)
      | (.finish, s') => .last (octets.text buffer, s')

def bareFrom (buffer input : List UInt8) : String × List UInt8 :=
  (bareRun octets input).map (octets.text <| buffer ++ ·) id

theorem follows_bareReader (st : List UInt8 × Scanner) : Follows bareFrom st (bareReader st) := by
  obtain ⟨buffer, s⟩ := st
  rcases s.next_cases with ⟨hs, hnext⟩ | ⟨u, rest, hs, ⟨hu, hnext⟩ | ⟨d, hu, hnext⟩⟩
  · rw [bareReader, hnext]
    refine .last_here ?_
    simp [bareFrom, bareRun, hs]
  · rw [bareReader, hnext]
    refine .again hs List.suffix_rfl ?_
    simp [bareFrom, bareRun, hs, Alphabet.isContent, hu]
  · simp only [bareReader, hnext, s.rewind_leaving hs]
    refine .last_here ?_
    simp [bareFrom, bareRun, hs, Alphabet.isContent, hu]

/-! ## Quoted parts -/

/-- One more octet of a quoted part, which is literal after an escape. -/
def takeQuoted (buffer : List UInt8) (escaped : Bool) (b : UInt8) : List UInt8 × Bool :=
  if escaped then (buffer ++ [b], false)
  else if octets.isEscape b then (buffer, true)
  else (buffer ++ [b], false)

def quotedReader : Reader (List UInt8 × Bool) String
  | ((buffer, escaped), s) =>
      match s.next with
      | (.finish, s') => .last (octets.text buffer, s')
      | (.delimiter d, s') =>
          if d = .quote ∧ escaped = false then .last (octets.text buffer, s')
          else .again (takeQuoted buffer escaped d.byte, s')
      | (.content b, s') => .again (takeQuoted buffer escaped b, s')

def quotedFrom (part : List UInt8 × Bool) (input : List UInt8) : String × List UInt8 :=
  (quotedRun octets part.2 input).map (octets.text <| part.1 ++ ·) id

theorem quotedFrom_cons (buffer : List UInt8) (escaped : Bool) (u : UInt8) (rest : List UInt8) :
    quotedFrom (buffer, escaped) (u :: rest) =
      if octets.delimiter? u = some .quote ∧ escaped = false then (octets.text buffer, rest)
      else quotedFrom (takeQuoted buffer escaped u) rest := by
  have htaken : ((quotedRun octets false rest).map (u :: ·) id).map
      (octets.text <| buffer ++ ·) id = quotedFrom (buffer ++ [u], false) rest :=
    Prod.ext (by simp [quotedFrom]) rfl
  rw [quotedFrom, quotedRun, takeQuoted]
  cases escaped with
  | true => simpa using htaken
  | false =>
      by_cases hquote : octets.delimiter? u = some .quote
      · simp [hquote]
      · cases hescape : octets.isEscape u with
        | true => simp [hquote, quotedFrom]
        | false => simpa [hquote] using htaken

theorem follows_quotedReader (st : (List UInt8 × Bool) × Scanner) :
    Follows quotedFrom st (quotedReader st) := by
  obtain ⟨⟨buffer, escaped⟩, s⟩ := st
  rcases s.next_cases with ⟨hs, hnext⟩ | ⟨u, rest, hs, ⟨hu, hnext⟩ | ⟨d, hu, hnext⟩⟩
  · rw [quotedReader, hnext]
    refine .last_here ?_
    simp [quotedFrom, quotedRun, hs]
  · rw [quotedReader, hnext]
    refine .again hs List.suffix_rfl ?_
    rw [hs, quotedFrom_cons, if_neg (by simp [hu])]
  · have hbyte : d.byte = u := Delimiter.byte_of_ofByte? hu
    simp only [quotedReader, hnext, hbyte]
    split
    · next hquote =>
        refine .last ?_
        rw [hs, quotedFrom_cons, if_pos (by simp [hu, hquote])]
    · next hquote =>
        refine .again hs List.suffix_rfl ?_
        rw [hs, quotedFrom_cons, if_neg (by simpa [hu] using hquote)]

/-! ## Lists -/

def listReader : Reader (List Token × List UInt8) (List Token)
  | ((tokens, buffer), s) =>
      match s.next with
      | (.content b, s') => .again ((tokens, buffer ++ [b]), s')
      | (.delimiter .invert, s') => .again ((tokens, buffer ++ [Delimiter.invert.byte]), s')
      | (.delimiter .closeSet, s') | (.delimiter .closeParams, s') | (.finish, s') =>
          .last (tokens ++ flush octets buffer, s')
      | (.delimiter .comma, s') => .again ((tokens ++ flush octets buffer, []), s')
      | (.delimiter .quote, s') =>
          .again ((tokens ++ flush octets buffer ++ [.quoted s'.quotedText.1], []),
            s'.quotedText.2)
      | (.delimiter _, s') => .again ((tokens, buffer), s')

def listFrom (list : List Token × List UInt8) (input : List UInt8) : List Token × List UInt8 :=
  (readList octets list.2 input).map (list.1 ++ ·) id

theorem follows_listReader (st : (List Token × List UInt8) × Scanner) :
    Follows listFrom st (listReader st) := by
  obtain ⟨⟨tokens, buffer⟩, s⟩ := st
  rcases s.next_cases with ⟨hs, hnext⟩ | ⟨u, rest, hs, ⟨hu, hnext⟩ | ⟨d, hu, hnext⟩⟩
  · rw [listReader, hnext]
    refine .last_here ?_
    simp [listFrom, readList, hs]
  · rw [listReader, hnext]
    refine .again hs List.suffix_rfl ?_
    simp [listFrom, readList, hs, hu]
  · have hbyte : d.byte = u := Delimiter.byte_of_ofByte? hu
    rw [listReader, hnext]
    cases d with
    | invert =>
        refine .again hs List.suffix_rfl ?_
        simp [listFrom, readList, hs, hu, hbyte]
    | closeSet | closeParams =>
        refine .last ?_
        simp [listFrom, readList, hs, hu]
    | comma =>
        refine .again hs List.suffix_rfl ?_
        simp only [listFrom, readList, hs, hu]
        exact Prod.ext (List.append_assoc _ _ _) rfl
    | quote =>
        have hrest : rest <:+ s.ahead := hs ▸ List.suffix_cons u rest
        have hleft : (readQuoted octets rest).2 <:+ rest := suffix_quotedRun octets false rest
        have hquoted : (s.leaving rest).quotedText = (readQuoted octets rest).map id s.leaving :=
          Scanner.read_leaving hrest hleft
        simp only [hquoted]
        refine .again hs hleft ?_
        simp only [listFrom, readList, hs, hu]
        exact Prod.ext (by simp [readQuoted]) rfl
    | openSet | openParams | run | chain =>
        refine .again hs List.suffix_rfl ?_
        simp [listFrom, readList, hs, hu]

/-! ## All that is left -/

def restReader : Reader (List Scanned) (List Scanned)
  | (taken, s) =>
      match s.next with
      | (.finish, s') => .last (taken, s')
      | (x, s') => .again (taken ++ [x], s')

def restFrom (taken : List Scanned) (input : List UInt8) : List Scanned × List UInt8 :=
  (taken ++ input.map .ofByte, [])

theorem follows_restReader (st : List Scanned × Scanner) : Follows restFrom st (restReader st) := by
  obtain ⟨taken, s⟩ := st
  rcases s.next_cases with ⟨hs, hnext⟩ | ⟨u, rest, hs, ⟨hu, hnext⟩ | ⟨d, hu, hnext⟩⟩
  · rw [restReader, hnext]
    refine .last_here ?_
    simp [restFrom, hs]
  · rw [restReader, hnext]
    refine .again hs List.suffix_rfl ?_
    simp [restFrom, hs, Scanned.ofByte, show Delimiter.ofByte? u = none from hu]
  · rw [restReader, hnext]
    refine .again hs List.suffix_rfl ?_
    simp [restFrom, hs, Scanned.ofByte, show Delimiter.ofByte? u = some d from hu]

/-- Every reader completes, wherever it begins, and a bare text leaves off at the first stop. -/
structure Scanner.ReadersComplete (s : Scanner) : Prop where
  bareText : bareReader.Completes [] s s.bareText
  bareText_stop : IsStop s.whole s.offset s.bareText.2.offset
  quotedText : quotedReader.Completes ([], false) s s.quotedText
  list : listReader.Completes ([], []) s s.list
  remaining : restReader.Completes [] s s.remaining

theorem Scanner.readersComplete (s : Scanner) : s.ReadersComplete where
  bareText := Reader.completes_result follows_bareReader (fun _ => suffix_bareRun octets) [] s
  bareText_stop := s.isStop_bareText
  quotedText :=
    Reader.completes_result follows_quotedReader (fun part => suffix_quotedRun octets part.2) _ s
  list := Reader.completes_result follows_listReader (fun list => suffix_readList octets list.2) _ s
  remaining :=
    Reader.completes_result follows_restReader (fun _ _ => List.nil_suffix) [] s

/-! ## Nodes -/

/-- One node or mark. An octet of content is given back, for the bare text that it begins. -/
def nodesReader : Reader (List Node × Bool) (List Node)
  | ((nodes, pending), s) =>
      match s.next with
      | (.finish, s') => .last (nodes, s')
      | (.delimiter .invert, s') => .again ((nodes, true), s')
      | (.delimiter .run, s') => .again ((nodes ++ [.run], pending), s')
      | (.delimiter .chain, s') => .again ((nodes ++ [.chain], pending), s')
      | (.delimiter .openSet, s') =>
          .again ((nodes ++ [.set (s'.list.1.map (Node.ofToken · false)) pending], false),
            s'.list.2)
      | (.delimiter .openParams, s') =>
          .again ((nodes ++ [.params (s'.list.1.map (Node.ofToken · false)) pending], false),
            s'.list.2)
      | (.delimiter .quote, s') =>
          .again ((nodes ++ [.ofToken (.quoted s'.quotedText.1) pending], false), s'.quotedText.2)
      | (.delimiter _, s') =>
          .again ((nodes ++ [.ofToken (.bare s'.bareText.1) pending], false), s'.bareText.2)
      | (.content _, s') =>
          .again ((nodes ++ [.ofToken (.bare s'.rewind.bareText.1) pending], false),
            s'.rewind.bareText.2)

def nodesFrom (held : List Node × Bool) (input : List UInt8) : List Node × List UInt8 :=
  (held.1 ++ readNodes octets held.2 input, [])

/-- A round that is not the last is a turn. -/
theorem nodesReader_of_ahead {s : Scanner} {u : UInt8} {rest : List UInt8}
    (hs : s.ahead = u :: rest) (nodes : List Node) (pending : Bool) :
    nodesReader ((nodes, pending), s) =
      .again ((nodes ++ (turn octets pending u rest).node.toList,
        (turn octets pending u rest).pending), s.leaving (turn octets pending u rest).rest) := by
  have hrest : rest <:+ s.ahead := hs ▸ List.suffix_cons u rest
  have hbare : (s.leaving rest).bareText = (readBare octets rest).map id s.leaving :=
    Scanner.read_leaving hrest (suffix_bareRun octets rest)
  have hquoted : (s.leaving rest).quotedText = (readQuoted octets rest).map id s.leaving :=
    Scanner.read_leaving hrest (suffix_quotedRun octets false rest)
  have hlist : (s.leaving rest).list = (readList octets [] rest).map id s.leaving :=
    Scanner.read_leaving hrest (suffix_readList octets [] rest)
  rcases s.next_cases with ⟨hs', -⟩ | ⟨u', rest', hs', hcases⟩
  · rw [hs] at hs'
    cases hs'
  · obtain ⟨rfl, rfl⟩ := List.cons.inj (hs.symm.trans hs')
    rcases hcases with ⟨hu, hnext⟩ | ⟨d, hu, hnext⟩
    · -- The bare text is read from where the round began, since its first octet is given back.
      simp only [nodesReader, hnext, s.rewind_leaving hs, turn, hu, Scanner.bareText, hs]
      rfl
    · rw [nodesReader, hnext, turn, hu]
      cases d with
      | invert =>
          rw [Option.toList_none, List.append_nil]
      | run | chain => rfl
      | openSet | openParams =>
          simp only [hlist, readChildren]
          rfl
      | quote =>
          simp only [hquoted]
          rfl
      | closeSet | closeParams | comma =>
          simp only [hbare]
          rfl

theorem follows_nodesReader (st : (List Node × Bool) × Scanner) :
    Follows nodesFrom st (nodesReader st) := by
  obtain ⟨⟨nodes, pending⟩, s⟩ := st
  cases hs : s.ahead with
  | nil =>
      have hnext : s.next = (.finish, s) := by rw [Scanner.next, hs]
      rw [nodesReader, hnext]
      refine .last_here ?_
      rw [hs, nodesFrom, readNodes, List.append_nil]
  | cons u rest =>
      rw [nodesReader_of_ahead hs]
      refine .again hs (suffix_turn octets pending u rest) ?_
      rw [hs, nodesFrom, nodesFrom, readNodes, List.append_assoc]

/-- A turn yields one node at most, and uses up one unit at least. -/
theorem length_readNodes_le {α : Type} (A : Alphabet α) (pending : Bool) (input : List α) :
    (readNodes A pending input).length ≤ input.length := by
  fun_induction readNodes A pending input with
  | case1 pending => exact Nat.le_refl 0
  | case2 pending u rest hlt ih =>
      have hnode : (turn A pending u rest).node.toList.length ≤ 1 := by
        cases (turn A pending u rest).node <;> simp
      rw [List.length_append, List.length_cons]
      omega

/-- Whatever is done with a scanner, it stays within its text. Its readers end and do not go back.
Reading an instruction goes on in every round, and ends with all of it used up and with no more
nodes than octets. -/
theorem reading_progresses (text : String) :
    (∀ actions, ((Scanner.ofString text).after actions).StandsIn text) ∧
      (∀ s : Scanner, s.ReadersComplete) ∧
      nodesReader.Advances ∧
      (∃ s, nodesReader.Completes ([], false) (.ofString text) (parse text, s) ∧
        s.StandsIn text ∧ s.atEnd = true) ∧
      (parse text).length ≤ text.utf8ByteSize := by
  have hcompletes := Reader.completes_result follows_nodesReader (fun _ _ => List.nil_suffix)
    ([], false) (.ofString text)
  have hadvances := Reader.advances_of_follows follows_nodesReader
  refine ⟨fun actions => ?_, Scanner.readersComplete, hadvances, ⟨_, hcompletes, ?_, ?_⟩, ?_⟩
  · exact Scanner.standsIn_of_whole_eq (Scanner.whole_after _ actions)
  · exact Scanner.standsIn_of_whole_eq hcompletes.whole_eq
  · rw [Scanner.atEnd, Scanner.ahead_leaving List.nil_suffix]
    rfl
  · rw [← length_encode]
    exact length_readNodes_le octets false (encode text)

-- Each octet can be a node of its own, so no smaller bound holds for all texts.
example : (parse "=|]").length = "=|]".utf8ByteSize := by decide +kernel

end Redaction.Instruction
