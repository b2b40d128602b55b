import Mathlib.Data.List.Induction
import Mathlib.Data.List.TakeWhile
import Redaction.Proofs.Instruction.RoundTrip

/-!
# Where a text ends

The place that a reader has come to, found by going over a text character by character: among the
nodes, within quotes, in a list, or within quotes in a list. A text that ends among the nodes can be
read before what follows a delimiter is known. Of its reading nothing is carried on but an inversion
mark that still waits for a node.
-/

namespace Redaction.Instruction

open Redaction.Instruction.Grammar

/-- A place in a text. Among the nodes an inversion may be waiting, and within quotes an escape. -/
inductive Place where
  | top (pending : Bool)
  | list
  | quoted (inList escaped : Bool)
  deriving DecidableEq, Repr

namespace Place

/-- The place after a closing quote. -/
def unquoted (inList : Bool) : Place := if inList then .list else .top false

def step : Place → Char → Place
  | top pending, c =>
      match characters.delimiter? c with
      | some .invert => top true
      | some .run | some .chain => top pending
      | some .openSet | some .openParams => list
      | some .quote => quoted false false
      | some .closeSet | some .closeParams | some .comma | none => top false
  | list, c =>
      match characters.delimiter? c with
      | some .closeSet | some .closeParams => top false
      | some .quote => quoted true false
      | _ => list
  | quoted inList escaped, c =>
      if escaped then quoted inList false
      else if characters.delimiter? c = some .quote then unquoted inList
      else quoted inList (characters.isEscape c)

/-- The place after characters that begin at a place. -/
def after (p : Place) (cs : List Char) : Place := cs.foldl step p

@[simp] theorem after_nil (p : Place) : p.after [] = p := rfl

theorem after_cons (p : Place) (c : Char) (cs : List Char) :
    p.after (c :: cs) = (p.step c).after cs := rfl

theorem after_append (p : Place) (xs ys : List Char) :
    p.after (xs ++ ys) = (p.after xs).after ys := List.foldl_append

/-! ## Readers -/

/-- A quoted text that is closed is read alike with anything after it. -/
theorem quotedRun_append_of_after {inList escaped q : Bool} {xs : List Char}
    (h : (quoted inList escaped).after xs = top q) (ys : List Char) :
    quotedRun characters escaped (xs ++ ys) =
        (quotedRun characters escaped xs).map id (· ++ ys) ∧
      (unquoted inList).after (quotedRun characters escaped xs).2 = top q := by
  induction xs generalizing escaped with
  | nil => cases h
  | cons c rest ih =>
      rw [after_cons, step] at h
      rw [List.cons_append, quotedRun, quotedRun]
      split
      · next hescaped =>
          rw [if_pos hescaped] at h
          obtain ⟨hrun, hafter⟩ := ih h
          rw [hrun]
          exact ⟨rfl, hafter⟩
      · next hescaped =>
          rw [if_neg hescaped] at h
          split
          · next hquote =>
              rw [if_pos hquote] at h
              exact ⟨rfl, h⟩
          · next hquote =>
              rw [if_neg hquote] at h
              obtain ⟨hrun, hafter⟩ := ih h
              split
              · next hescape =>
                  rw [hescape] at hrun hafter
                  exact ⟨hrun, hafter⟩
              · next hescape =>
                  rw [Bool.eq_false_iff.mpr hescape] at hrun hafter
                  rw [hrun]
                  exact ⟨rfl, hafter⟩

theorem readQuoted_append_of_after {inList q : Bool} {xs : List Char}
    (h : (quoted inList false).after xs = top q) (ys : List Char) :
    readQuoted characters (xs ++ ys) = (readQuoted characters xs).map id (· ++ ys) ∧
      (unquoted inList).after (readQuoted characters xs).2 = top q := by
  obtain ⟨hrun, hafter⟩ := quotedRun_append_of_after h ys
  rw [readQuoted, readQuoted, hrun]
  exact ⟨rfl, hafter⟩

/-- A list that is closed is read alike with anything after it. -/
theorem readList_append_of_after {q : Bool} {buffer xs : List Char} (h : list.after xs = top q)
    (ys : List Char) :
    readList characters buffer (xs ++ ys) = (readList characters buffer xs).map id (· ++ ys) ∧
      (top false).after (readList characters buffer xs).2 = top q := by
  fun_induction readList characters buffer xs with
  | case1 buffer => cases h
  | case2 buffer c rest hd ih | case3 buffer c rest hd ih =>
      rw [after_cons, step, hd] at h
      rw [List.cons_append, readList, hd]
      exact ih h
  | case4 buffer c rest hd | case5 buffer c rest hd =>
      rw [after_cons, step, hd] at h
      rw [List.cons_append, readList, hd]
      exact ⟨rfl, h⟩
  | case6 buffer c rest hd ih =>
      rw [after_cons, step, hd] at h
      obtain ⟨hread, hafter⟩ := ih h
      rw [List.cons_append, readList, hd]
      simp only [hread]
      exact ⟨rfl, hafter⟩
  | case7 buffer c rest hd hlt ih =>
      rw [after_cons, step, hd] at h
      obtain ⟨hquoted, hclosed⟩ := readQuoted_append_of_after h ys
      obtain ⟨hread, hafter⟩ := ih hclosed
      rw [List.cons_append, readList, hd]
      simp only [hquoted, Prod.map_fst, Prod.map_snd, id_eq, hread]
      exact ⟨rfl, hafter⟩
  | case8 buffer c rest hd ih | case9 buffer c rest hd ih | case10 buffer c rest hd ih
  | case11 buffer c rest hd ih =>
      rw [after_cons, step, hd] at h
      rw [List.cons_append, readList, hd]
      exact ih h

/-- A bare text leaves the reader among the nodes, with no inversion waiting. -/
theorem after_of_content {xs : List Char} (h : ∀ c ∈ xs, characters.isContent c = true) :
    (top false).after xs = top false := by
  induction xs with
  | nil => rfl
  | cons c rest ih =>
      obtain ⟨hc, hrest⟩ := List.forall_mem_cons.mp h
      have hnone : characters.delimiter? c = none := Option.isNone_iff_eq_none.mp hc
      rw [after_cons, step, hnone]
      exact ih hrest

/-- What a bare text leaves begins with a delimiter, if anything is left. -/
theorem stops_bareRun (xs : List Char) {ys : List Char} (hys : Stops ys) :
    Stops ((bareRun characters xs).2 ++ ys) := by
  have hhead := List.head?_dropWhile_not characters.isContent xs
  cases hleft : (bareRun characters xs).2 with
  | nil => exact hys
  | cons d rest =>
      rw [show xs.dropWhile characters.isContent = d :: rest from hleft] at hhead
      have hd : characters.isContent d = false := hhead
      rintro c hc
      cases hc
      rw [Alphabet.isContent] at hd
      exact Option.isNone_eq_false_iff.mp hd

theorem readBare_append_of_stops (xs : List Char) {ys : List Char} (hys : Stops ys) :
    readBare characters (xs ++ ys) = (readBare characters xs).map id (· ++ ys) ∧
      (top false).after (readBare characters xs).2 = (top false).after xs := by
  have hsplit : (bareRun characters xs).1 ++ (bareRun characters xs).2 = xs :=
    List.takeWhile_append_dropWhile
  have hcontent : ∀ c ∈ (bareRun characters xs).1, characters.isContent c = true :=
    fun c hc => List.mem_takeWhile_imp hc
  constructor
  · have hrun := bareRun_append hcontent (stops_bareRun xs hys)
    rw [← List.append_assoc, hsplit] at hrun
    rw [readBare, readBare, hrun]
    rfl
  · have hafter := after_append (top false) (bareRun characters xs).1 (bareRun characters xs).2
    rw [hsplit, after_of_content hcontent] at hafter
    exact hafter.symm

/-! ## Turns -/

/-- A turn stays within the text that it begins in, if that text ends among the nodes and a bare
text in it is stopped by what comes after. -/
theorem turn_append_of_after {pending q : Bool} {c : Char} {rest ys : List Char}
    (h : (top pending).after (c :: rest) = top q) (hys : Stops ys) :
    turn characters pending c (rest ++ ys) = { turn characters pending c rest with
        rest := (turn characters pending c rest).rest ++ ys } ∧
      (top (turn characters pending c rest).pending).after (turn characters pending c rest).rest =
        top q := by
  rw [after_cons, step] at h
  unfold turn
  cases hd : characters.delimiter? c with
  | none =>
      rw [hd] at h
      obtain ⟨hread, hafter⟩ := readBare_append_of_stops (c :: rest) hys
      rw [after_cons, step, hd] at hafter
      rw [List.cons_append] at hread
      simp only [hread]
      exact ⟨rfl, hafter.trans h⟩
  | some d =>
      rw [hd] at h
      cases d with
      | invert | run | chain => exact ⟨rfl, h⟩
      | openSet | openParams =>
          obtain ⟨hread, hafter⟩ := @readList_append_of_after _ [] _ h ys
          simp only [readChildren, hread]
          exact ⟨rfl, hafter⟩
      | quote =>
          obtain ⟨hread, hafter⟩ := readQuoted_append_of_after h ys
          simp only [hread]
          exact ⟨rfl, hafter⟩
      | closeSet | closeParams | comma =>
          obtain ⟨hread, hafter⟩ := readBare_append_of_stops rest hys
          simp only [hread]
          exact ⟨rfl, hafter.trans h⟩

/-- Reading goes on after a text as if it began there, but for the inversion that still waits. -/
theorem readNodes_append {pending q : Bool} {xs ys : List Char}
    (h : (top pending).after xs = top q) (hys : Stops ys) :
    readNodes characters pending (xs ++ ys) =
      readNodes characters pending xs ++ readNodes characters q ys := by
  fun_induction readNodes characters pending xs with
  | case1 pending =>
      cases h
      rfl
  | case2 pending c rest hlt ih =>
      obtain ⟨hturn, hafter⟩ := turn_append_of_after h hys
      rw [List.cons_append, readNodes, hturn, ih hafter, List.append_assoc]

/-! ## A waiting inversion -/

/-- An inversion waits after a mark among the nodes, and after a marker if it did so before. -/
theorem step_eq_top_true {p : Place} {c : Char} (h : p.step c = top true) :
    (c = '~' ∧ ∃ pending, p = top pending) ∨ ((c = '=' ∨ c = '|') ∧ p = top true) := by
  cases p with
  | top pending =>
      rw [step] at h
      cases hd : characters.delimiter? c with
      | none =>
          rw [hd] at h
          cases h
      | some d =>
          have hc : d.char = c := Delimiter.char_of_ofChar? hd
          rw [hd] at h
          cases d with
          | invert => exact .inl ⟨hc.symm, pending, rfl⟩
          | run => exact .inr ⟨.inl hc.symm, h⟩
          | chain => exact .inr ⟨.inr hc.symm, h⟩
          | openSet | closeSet | openParams | closeParams | comma | quote => cases h
  | list =>
      rw [step] at h
      split at h <;> cases h
  | quoted inList escaped =>
      rw [step] at h
      split at h
      · cases h
      · split at h
        · cases inList <;> cases h
        · cases h

/-- An inversion waits where a mark among the nodes is followed by marks and markers only. The
induction is from the end of the text. -/
theorem after_eq_top_true_iff {cs : List Char} :
    (top false).after cs = top true ↔ ∃ before marks, cs = before ++ '~' :: marks ∧
      (∃ pending, (top false).after before = top pending) ∧
        ∀ c ∈ marks, c = '~' ∨ c = '=' ∨ c = '|' := by
  constructor
  · intro h
    induction cs using List.reverseRecOn with
    | nil => cases h
    | append_singleton xs c ih =>
        rw [after_append, after_cons, after_nil] at h
        rcases step_eq_top_true h with ⟨rfl, hpending⟩ | ⟨hc, hxs⟩
        · exact ⟨xs, [], rfl, hpending, List.forall_mem_nil _⟩
        · obtain ⟨before, marks, rfl, hbefore, hmarks⟩ := ih hxs
          refine ⟨before, marks ++ [c], by simp, hbefore, ?_⟩
          intro x hx
          rcases List.mem_append.mp hx with hx | hx
          · exact hmarks x hx
          · exact .inr (List.mem_singleton.mp hx ▸ hc)
  · rintro ⟨before, marks, rfl, ⟨pending, hbefore⟩, hmarks⟩
    have hkeeps : ∀ c, c = '~' ∨ c = '=' ∨ c = '|' → (top true).step c = top true := by
      rintro c (rfl | rfl | rfl) <;> rfl
    have hmark : (top pending).step '~' = top true := rfl
    rw [after_append, hbefore, after_cons, hmark]
    clear hbefore
    induction marks with
    | nil => rfl
    | cons c rest ih =>
        obtain ⟨hc, hrest⟩ := List.forall_mem_cons.mp hmarks
        rw [after_cons, hkeeps c hc]
        exact ih hrest

end Place

/-- A text that does not end within quotes or in a list. -/
def EndsAmongNodes (text : String) : Prop :=
  ∃ pending, (Place.top false).after text.toList = .top pending

/-- A text with an inversion mark among its nodes and no node after the mark that it could invert.
There may be further marks and markers. -/
def EndsInverted (text : String) : Prop :=
  ∃ before marks, text.toList = before ++ '~' :: marks ∧ EndsAmongNodes (String.ofList before) ∧
    ∀ c ∈ marks, c = '~' ∨ c = '=' ∨ c = '|'

theorem endsInverted_iff {text : String} :
    EndsInverted text ↔ (Place.top false).after text.toList = .top true := by
  simp only [EndsInverted, EndsAmongNodes, String.toList_ofList, Place.after_eq_top_true_iff]

instance (text : String) : Decidable (EndsInverted text) :=
  decidable_of_iff _ endsInverted_iff.symm

/-- What is read after a marker: the text there, with the inversion in front that still waits. -/
def carried (a b : String) : String := if EndsInverted a then "~" ++ b else b

theorem parse_carried {a : String} {pending : Bool}
    (h : (Place.top false).after a.toList = .top pending) (b : String) :
    parse (carried a b) = readNodes characters pending b.toList := by
  rw [parse_eq_parseCharacters, parseCharacters, carried]
  cases pending with
  | false =>
      have hnone : ¬EndsInverted a := by
        rw [endsInverted_iff, h]
        simp
      rw [if_neg hnone]
  | true =>
      rw [if_pos (endsInverted_iff.mpr h), String.toList_append]
      change readNodes characters false ('~' :: b.toList) = _
      rw [readNodes]
      rfl

theorem parse_append_delimiter {a : String} {pending : Bool}
    (h : (Place.top false).after a.toList = .top pending) {d : Delimiter} {n : Node}
    (hturn : ∀ rest, turn characters pending d.char rest = ⟨some n, pending, rest⟩) (b : String) :
    parse (a ++ String.singleton d.char ++ b) = parse a ++ [n] ++ parse (carried a b) := by
  rw [parse_carried h, parse_eq_parseCharacters, parse_eq_parseCharacters, parseCharacters,
    parseCharacters, String.toList_append, String.toList_append, List.append_assoc,
    String.toList_singleton, List.singleton_append, Place.readNodes_append h (stops_char d _),
    readNodes, hturn, List.append_assoc]
  rfl

/-- Reading composes at a marker. An inversion that waits for a node passes the marker by. -/
theorem parse_append_marker {a : String} (ha : EndsAmongNodes a) (b : String) :
    parse (a ++ "|" ++ b) = parse a ++ [.chain] ++ parse (carried a b) ∧
      parse (a ++ "=" ++ b) = parse a ++ [.run] ++ parse (carried a b) := by
  obtain ⟨pending, hafter⟩ := ha
  constructor
  · exact parse_append_delimiter (d := .chain) hafter (fun _ => rfl) b
  · exact parse_append_delimiter (d := .run) hafter (fun _ => rfl) b

/-- A bracket within quotes does not close the list, and a stray one is read as an empty node, which
takes up the mark before it. The last mark waits. -/
theorem parse_append_marker_waiting :
    EndsAmongNodes "[a,\"]\"]=~]~=" ∧ carried "[a,\"]\"]=~]~=" "b" = "~b" ∧
      parse ("[a,\"]\"]=~]~=" ++ "|" ++ "b") =
        parse "[a,\"]\"]=~]~=" ++ [.chain] ++ parse "~b" := by
  have hends : EndsAmongNodes "[a,\"]\"]=~]~=" := ⟨true, by decide⟩
  have hcarried : carried "[a,\"]\"]=~]~=" "b" = "~b" := by decide
  refine ⟨hends, hcarried, ?_⟩
  rw [← hcarried]
  exact (parse_append_marker hends "b").1

end Redaction.Instruction
