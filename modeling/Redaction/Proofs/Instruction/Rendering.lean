import Redaction.Proofs.Instruction.RoundTrip

/-!
# The nodes that can be read

Which lists of nodes reading can give: those in which every node has a shape that can be written, in
an instruction that reading undoes. Floats are apart. How one is spelled is left open, and the nodes
without floats are called canonical.
-/

namespace Redaction.Instruction

open Redaction.Number Redaction.Text Grammar

/-! ## Shapes -/

/-- Whether a literal can stand by itself, given which floats can. -/
def Literal.Shaped (floats : Binary → Prop) (inverted : Bool) : Literal → Prop
  | nil | bool _ => True
  | text s => inverted = false → s.toList.head? ≠ some '~'
  | int n => Fits64 n
  | float x => floats x

/-- Whether a literal can be an entry of a list, where nothing is empty and no number inverted. -/
def Literal.IsEntry (floats : Binary → Prop) (inverted : Bool) : Literal → Prop
  | nil => False
  | bool _ => True
  | text s => inverted = false → s.toList.head? ≠ some '~'
  | int n => inverted = false ∧ Fits64 n
  | float x => inverted = false ∧ floats x

namespace Node

def IsEntry (floats : Binary → Prop) : Node → Prop
  | scalar literal inverted => literal.IsEntry floats inverted
  | set .. | params .. | run | chain => False

def Shaped (floats : Binary → Prop) : Node → Prop
  | scalar literal inverted => literal.Shaped floats inverted
  | set children _ | params children _ => ∀ n ∈ children, n.IsEntry floats
  | run | chain => True

def HasFloat (n : Node) (x : Binary) : Prop :=
  ∃ inverted, n = .scalar (.float x) inverted ∨ .scalar (.float x) inverted ∈ n.children

end Node

def Canonical (nodes : List Node) : Prop := ∀ n ∈ nodes, n.Shaped fun _ => False

/-- A bare text that is read as a float. -/
structure Spells (t : String) (x : Binary) : Prop where
  looks_numeric : looksNumeric t = true
  has_point : '.' ∈ t.toList
  read : Binary.read? .double t = some x

def IsSpelled (x : Binary) : Prop := ∃ t, Spells t x

def SpelledBy (spell : Binary → String) (x : Binary) : Prop := Spells (spell x) x

namespace Node

variable {p q : Binary → Prop} {n : Node}

theorem IsEntry.imp (h : n.IsEntry p)
    (himp : ∀ x inverted, n = .scalar (.float x) inverted → p x → q x) : n.IsEntry q := by
  cases n with
  | scalar literal inverted =>
      cases literal with
      | float x => exact ⟨h.1, himp x inverted rfl h.2⟩
      | _ => exact h
  | _ => exact h

theorem Shaped.imp (h : n.Shaped p) (himp : ∀ x, n.HasFloat x → p x → q x) : n.Shaped q := by
  cases n with
  | scalar literal inverted =>
      cases literal with
      | float x => exact himp x ⟨inverted, .inl rfl⟩ h
      | _ => exact h
  | set children inverted | params children inverted =>
      intro c hc
      exact (h c hc).imp fun x i heq => himp x ⟨i, .inr (heq ▸ hc)⟩
  | run | chain => trivial

end Node

/-! ## Rendering -/

/-- A text between quotes; an inversion mark stands within them. -/
def quotation (s : String) (inverted : Bool) : List Char :=
  '"' :: (mark inverted ++ escaped s.toList) ++ ['"']

section

variable (spell : Binary → String)

/-- A literal as a bare text. -/
def Literal.word : Literal → List Char
  | nil => []
  | text s => s.toList
  | int n => (writeInt n).toList
  | float x => (spell x).toList
  | bool b => (writeBool b).toList

namespace Node

def renderEntry : Node → List Char
  | scalar (.text s) inverted => quotation s inverted
  | scalar literal inverted => mark inverted ++ literal.word spell
  | set .. | params .. | run | chain => []

/-- A node written so that it can stand next to any other: a bare text begins with a comma. -/
def render : Node → List Char
  | scalar (.text s) inverted => quotation s inverted
  | scalar literal inverted => mark inverted ++ ',' :: literal.word spell
  | set children inverted =>
      mark inverted ++ '[' :: ([','].intercalate (children.map (renderEntry spell)) ++ [']'])
  | params children inverted =>
      mark inverted ++ '(' :: ([','].intercalate (children.map (renderEntry spell)) ++ [')'])
  | run => ['=']
  | chain => ['|']

end Node

def render (nodes : List Node) : String := String.ofList (nodes.flatMap (Node.render spell))

end

/-! ## Words -/

theorem escaped_mark (inverted : Bool) (cs : List Char) :
    escaped (mark inverted ++ cs) = mark inverted ++ escaped cs := by
  cases inverted <;> rfl

theorem literal_quotation {s : String} {inverted : Bool}
    (h : inverted = false → s.toList.head? ≠ some '~') :
    (Token.quoted (String.ofList (mark inverted ++ s.toList))).literal = (.text s, inverted) := by
  rw [Token.literal, stripInversion_mark h]
  rfl

theorem other_writeBool (b : Bool) :
    ∃ c ∈ (Literal.writeBool b).toList, c.isDigit = false ∧ c ≠ '.' ∧ c ≠ '-' := by
  cases b
  · exact ⟨'f', by decide, by decide⟩
  · exact ⟨'t', by decide, by decide⟩

theorem literal_writeBool (b inverted : Bool) :
    (Token.bare (String.ofList (mark inverted ++ (Literal.writeBool b).toList))).literal =
      (.bool b, inverted) := by
  have hhead : (Literal.writeBool b).toList.head? ≠ some '~' := by cases b <;> decide
  have hlower : (Literal.writeBool b).toList.map Char.toLower = (Literal.writeBool b).toList := by
    cases b <;> decide
  rw [literal_bare_mark (other_writeBool b) hhead, ofWord_eq_bool hlower]

theorem Spells.literal {t : String} {x : Binary} (h : Spells t x) :
    (Token.bare t).literal = (.float x, false) := by
  have hempty : t.isEmpty = false := by
    rw [Bool.eq_false_iff]
    intro he
    have hpoint := h.has_point
    rw [String.isEmpty_iff.mp he] at hpoint
    cases hpoint
  simp only [Token.literal, hempty, h.looks_numeric, Literal.ofNumeric, if_pos h.has_point, h.read]
  rfl

theorem delimiter?_of_looksNumeric {t : String} (h : looksNumeric t = true) :
    ∀ c ∈ t.toList, Delimiter.ofChar? c = none := by
  intro c hc
  have hall := List.all_eq_true.mp h c hc
  simp only [Bool.or_eq_true, beq_iff_eq] at hall
  rcases hall with (hdigit | rfl) | rfl
  · exact delimiter?_of_isDigit hdigit
  · decide
  · decide

theorem digitsValue_digits (n : Nat) : digitsValue (digits n) = n :=
  Nat.ofDigitChars_ten_toDigits

theorem signedValue_digits (n : Int) : signedValue (n < 0) (digits n.natAbs) = n := by
  rw [signedValue, digitsValue_digits]
  by_cases hn : n < 0
  · rw [if_pos (decide_eq_true hn)]
    omega
  · rw [if_neg (by simpa using hn)]
    omega

/-- An integer in decimal digits. -/
def numeralOf (n : Int) (h : Fits64 n) : Numeral where
  negative := n < 0
  digits := digits n.natAbs
  ne_nil := Nat.toDigits_ne_nil
  isDigit _ hd := Nat.isDigit_of_mem_toDigits (by decide) (by decide) hd
  fits := (signedValue_digits n).symm ▸ h

theorem write_numeralOf {n : Int} (h : Fits64 n) : (numeralOf n h).write = (writeInt n).toList := by
  rw [writeInt, String.toList_ofList, Numeral.write, numeralOf]
  simp only [decide_eq_true_eq]

theorem literal_writeInt {n : Int} (h : Fits64 n) :
    (Token.bare (writeInt n)).literal = (.int n, false) := by
  have hliteral := (numeralOf n h).literal
  rw [write_numeralOf, String.ofList_toList] at hliteral
  rw [hliteral]
  exact congrArg (fun m => (Literal.int m, false)) (signedValue_digits n)

variable {spell : Binary → String}

/-- Bare texts are read as what they are written for, unless they are meant as texts. -/
theorem literal_word {literal : Literal} {inverted : Bool}
    (h : literal.Shaped (SpelledBy spell) inverted) (ht : literal.kind ≠ .text) :
    (Token.bare (String.ofList (literal.word spell))).literal = (literal, false) := by
  cases literal with
  | nil => rfl
  | text s => exact absurd rfl ht
  | int n =>
      rw [Literal.word, String.ofList_toList]
      exact literal_writeInt h
  | float x =>
      rw [Literal.word, String.ofList_toList]
      exact Spells.literal h
  | bool b => exact literal_writeBool b false

theorem delimiter?_of_mem_word {literal : Literal} {inverted : Bool}
    (h : literal.Shaped (SpelledBy spell) inverted) (ht : literal.kind ≠ .text) :
    ∀ c ∈ literal.word spell, characters.delimiter? c = none := by
  intro c hc
  cases literal with
  | nil => cases hc
  | text s => exact absurd rfl ht
  | int n =>
      rw [Literal.word, ← write_numeralOf h] at hc
      rcases (numeralOf n h).forall_mem_write c hc with hdigit | rfl
      · exact delimiter?_of_isDigit hdigit
      · rfl
  | float x => exact delimiter?_of_looksNumeric (Spells.looks_numeric h) c hc
  | bool b =>
      have hlower : c.toLower ∈ (Literal.writeBool b).toList := by
        have hmap : (Literal.writeBool b).toList.map Char.toLower =
            (Literal.writeBool b).toList := by cases b <;> decide
        rw [← hmap]
        exact List.mem_map_of_mem hc
      exact (toLower_mem_writeBool hlower).1

theorem Literal.IsEntry.shaped {floats : Binary → Prop} {literal : Literal} {own : Bool}
    (h : literal.IsEntry floats own) (pending : Bool) : literal.Shaped floats (own || pending) := by
  cases literal with
  | nil => exact h.elim
  | text s => exact fun hnone => h (Bool.or_eq_false_iff.mp hnone).1
  | int n => exact h.2
  | float x => exact h.2
  | bool b => trivial

theorem word_ne_nil {literal : Literal} {inverted : Bool}
    (h : literal.IsEntry (SpelledBy spell) inverted) (ht : literal.kind ≠ .text) :
    literal.word spell ≠ [] := by
  cases literal with
  | nil => exact h.elim
  | text s => exact absurd rfl ht
  | int n =>
      rw [Literal.word, ← write_numeralOf h.2]
      exact (numeralOf n h.2).integral.write_ne_nil
  | float x => exact List.ne_nil_of_mem h.2.has_point
  | bool b => cases b <;> exact List.cons_ne_nil _ _

theorem literal_marked_word {literal : Literal} {inverted : Bool}
    (h : literal.IsEntry (SpelledBy spell) inverted) (ht : literal.kind ≠ .text) :
    (Token.bare (String.ofList (mark inverted ++ literal.word spell))).literal =
      (literal, inverted) := by
  have hplain : inverted = false →
      (Token.bare (String.ofList (mark inverted ++ literal.word spell))).literal =
        (literal, inverted) := by
    rintro rfl
    exact literal_word (h.shaped false) ht
  cases literal with
  | nil => exact h.elim
  | text s => exact absurd rfl ht
  | int n => exact hplain h.1
  | float x => exact hplain h.1
  | bool b => exact literal_writeBool b inverted

/-! ## Reading what is rendered -/

/-- An entry is read as some token, which stands for the entry. -/
theorem Node.IsEntry.exists_token {n : Node} (h : n.IsEntry (SpelledBy spell)) :
    ∃ t, ReadsAs (n.renderEntry spell) t ∧ Node.ofToken t false = n := by
  cases n with
  | scalar literal inverted =>
      have hbare : literal.kind ≠ .text →
          ∃ t, ReadsAs (mark inverted ++ literal.word spell) t ∧
            Node.ofToken t false = .scalar literal inverted := by
        intro ht
        have hshaped := Literal.IsEntry.shaped h false
        have hread := readsAs_marked (word_ne_nil h ht) (delimiter?_of_mem_word hshaped ht) inverted
        refine ⟨_, hread, ?_⟩
        rw [Node.ofToken, literal_marked_word h ht, Bool.or_false]
      cases literal with
      | text s =>
          refine ⟨.quoted (String.ofList (mark inverted ++ s.toList)), ?_, ?_⟩
          · have hread := readsAs_quoted (String.ofList (mark inverted ++ s.toList))
            rwa [String.toList_ofList, escaped_mark] at hread
          · rw [Node.ofToken, literal_quotation h, Bool.or_false]
      | nil | int n | float x | bool b => exact hbare (by simp [Literal.kind])
  | _ => exact h.elim

theorem readChildren_rendered {children : List Node}
    (h : ∀ n ∈ children, n.IsEntry (SpelledBy spell)) {c : Char} (hc : c = ']' ∨ c = ')')
    (rest : List Char) :
    readChildren characters
      ([','].intercalate (children.map (Node.renderEntry spell)) ++ c :: rest) =
        (children, rest) := by
  have hall : ∃ tokens, List.Forall₂ ReadsAs (children.map (Node.renderEntry spell)) tokens ∧
      tokens.map (Node.ofToken · false) = children := by
    induction children with
    | nil => exact ⟨[], .nil, rfl⟩
    | cons n later ih =>
        obtain ⟨hn, hlater⟩ := List.forall_mem_cons.mp h
        obtain ⟨t, hread, ht⟩ := hn.exists_token
        obtain ⟨tokens, hreads, htokens⟩ := ih hlater
        exact ⟨t :: tokens, .cons hread hreads, by rw [List.map_cons, ht, htokens]⟩
  obtain ⟨tokens, hreads, htokens⟩ := hall
  rw [readChildren, readList_entries hreads hc]
  exact Prod.ext htokens rfl

theorem readNodes_quotation {s : String} {inverted : Bool}
    (h : inverted = false → s.toList.head? ≠ some '~') (rest : List Char) :
    readNodes characters false (quotation s inverted ++ rest) =
      .scalar (.text s) inverted :: readNodes characters false rest := by
  have hread := readQuoted_escaped (String.ofList (mark inverted ++ s.toList)) rest
  rw [String.toList_ofList, escaped_mark] at hread
  have hturn : turn characters false '"' (mark inverted ++ escaped s.toList ++ '"' :: rest) =
      ⟨some (.scalar (.text s) inverted), false, rest⟩ := by
    have hquote : characters.delimiter? '"' = some .quote := rfl
    simp only [turn, hquote, hread, Node.ofToken, literal_quotation h, Bool.or_false]
  rw [quotation, List.append_assoc, List.singleton_append, List.cons_append, readNodes_cons, hturn]
  rfl

theorem readNodes_word {literal : Literal} {inverted : Bool}
    (h : literal.Shaped (SpelledBy spell) inverted) (ht : literal.kind ≠ .text)
    {rest : List Char} (hrest : Stops rest) :
    readNodes characters false (mark inverted ++ ',' :: literal.word spell ++ rest) =
      .scalar literal inverted :: readNodes characters false rest := by
  have hcontent : ∀ c ∈ literal.word spell, characters.isContent c = true := by
    intro c hc
    rw [Alphabet.isContent, delimiter?_of_mem_word h ht c hc]
    rfl
  have hturn : turn characters inverted ',' (literal.word spell ++ rest) =
      ⟨some (.scalar literal inverted), false, rest⟩ := by
    have hcomma : characters.delimiter? ',' = some .comma := rfl
    simp only [turn, hcomma, readBare_append hcontent hrest, Node.ofToken, literal_word h ht,
      Bool.false_or]
  rw [List.append_assoc, readNodes_mark, List.cons_append, readNodes_cons, hturn]
  rfl

/-- A rendered node is read as itself, whatever comes after it. -/
theorem readNodes_render {n : Node} (h : n.Shaped (SpelledBy spell)) {rest : List Char}
    (hrest : Stops rest) :
    readNodes characters false (n.render spell ++ rest) = n :: readNodes characters false rest := by
  cases n with
  | scalar literal inverted =>
      have hword : literal.kind ≠ .text →
          readNodes characters false (mark inverted ++ ',' :: literal.word spell ++ rest) =
            .scalar literal inverted :: readNodes characters false rest :=
        fun ht => readNodes_word h ht hrest
      cases literal with
      | text s => exact readNodes_quotation h rest
      | nil | int n | float x | bool b => exact hword (by simp [Literal.kind])
  | set children inverted =>
      have hopen : characters.delimiter? '[' = some .openSet := rfl
      rw [Node.render, List.append_assoc, readNodes_mark, List.cons_append, List.append_assoc,
        List.singleton_append, readNodes_cons]
      simp only [turn, hopen, readChildren_rendered h (.inl rfl)]
      rfl
  | params children inverted =>
      have hopen : characters.delimiter? '(' = some .openParams := rfl
      rw [Node.render, List.append_assoc, readNodes_mark, List.cons_append, List.append_assoc,
        List.singleton_append, readNodes_cons]
      simp only [turn, hopen, readChildren_rendered h (.inr rfl)]
      rfl
  | run | chain =>
      rw [Node.render, List.singleton_append, readNodes_cons]
      rfl

theorem stops_marked (inverted : Bool) (d : Delimiter) (rest : List Char) :
    Stops (mark inverted ++ d.char :: rest) := by
  cases inverted with
  | false => exact stops_char d rest
  | true => exact stops_char .invert (d.char :: rest)

theorem render_scalar {literal : Literal} (ht : literal.kind ≠ .text) (inverted : Bool) :
    (Node.scalar literal inverted).render spell = mark inverted ++ ',' :: literal.word spell := by
  cases literal with
  | text s => exact absurd rfl ht
  | _ => rfl

/-- Every rendered node begins with a delimiter, which ends a bare text before it. -/
theorem stops_flatMap_render (nodes : List Node) : Stops (nodes.flatMap (Node.render spell)) := by
  cases nodes with
  | nil => exact stops_nil
  | cons n later =>
      rw [List.flatMap_cons]
      cases n with
      | scalar literal inverted =>
          cases literal with
          | text s => exact stops_char .quote _
          | nil | int n | float x | bool b =>
              rw [render_scalar (by simp [Literal.kind]), List.append_assoc]
              exact stops_marked inverted .comma _
      | set children inverted =>
          rw [Node.render, List.append_assoc]
          exact stops_marked inverted .openSet _
      | params children inverted =>
          rw [Node.render, List.append_assoc]
          exact stops_marked inverted .openParams _
      | run => exact stops_char .run _
      | chain => exact stops_char .chain _

theorem parse_render {nodes : List Node} (h : ∀ n ∈ nodes, n.Shaped (SpelledBy spell)) :
    parse (render spell nodes) = nodes := by
  rw [parse_eq_parseCharacters, parseCharacters, render, String.toList_ofList]
  induction nodes with
  | nil => exact readNodes_nil false
  | cons n later ih =>
      obtain ⟨hn, hlater⟩ := List.forall_mem_cons.mp h
      rw [List.flatMap_cons, readNodes_render hn (stops_flatMap_render later), ih hlater]

/-! ## The shapes of what is read -/

theorem head?_stripInversion {s : String} (h : (stripInversion s).2 = false) :
    (stripInversion s).1.toList.head? ≠ some '~' := by
  unfold stripInversion at h ⊢
  split at h
  · cases h
  · next hne =>
      intro hhead
      obtain ⟨rest, heq⟩ := List.head?_eq_some_iff.mp hhead
      exact hne rest heq

theorem isEntry_ofWord (s : String) {inverted : Bool}
    (h : inverted = false → s.toList.head? ≠ some '~') :
    (Literal.ofWord s).IsEntry IsSpelled inverted := by
  simp only [Literal.ofWord]
  split_ifs
  · trivial
  · trivial
  · exact h

theorem isEntry_ofNumeric {s : String} (h : looksNumeric s = true) :
    (Literal.ofNumeric s).IsEntry IsSpelled false := by
  have hhead : s.toList.head? ≠ some '~' := by
    intro hhead
    have hmark := delimiter?_of_looksNumeric h '~' (List.mem_of_mem_head? hhead)
    exact absurd hmark (by decide)
  unfold Literal.ofNumeric
  split_ifs with hpoint
  · cases hread : Binary.read? .double s with
    | none => exact fun _ => hhead
    | some x => exact ⟨rfl, s, h, hpoint, hread⟩
  · cases hread : readInt64? s with
    | none => exact fun _ => hhead
    | some n =>
        obtain ⟨-, hfits⟩ := Option.filter_eq_some_iff.mp hread
        exact ⟨rfl, of_decide_eq_true hfits⟩

/-- A token is read as an entry, unless it is the empty text that stands before a delimiter. -/
theorem isEntry_literal {t : Token} (h : t ≠ .bare "") :
    t.literal.1.IsEntry IsSpelled t.literal.2 := by
  cases t with
  | quoted s => exact head?_stripInversion
  | bare s =>
      simp only [Token.literal]
      split_ifs with hempty hnumeric
      · exact absurd (congrArg Token.bare (String.isEmpty_iff.mp hempty)) h
      · exact isEntry_ofNumeric hnumeric
      · rw [Prod.map_fst, Prod.map_snd]
        exact isEntry_ofWord (stripInversion s).1 head?_stripInversion

theorem shaped_ofToken (t : Token) (pending : Bool) :
    (Node.ofToken t pending).Shaped IsSpelled := by
  by_cases h : t = .bare ""
  · rw [h]
    trivial
  · exact (isEntry_literal h).shaped pending

theorem forall_mem_flush (buffer : List Char) : ∀ t ∈ flush characters buffer, t ≠ .bare "" := by
  intro t ht
  unfold flush at ht
  split_ifs at ht with hempty
  · cases ht
  · rw [List.mem_singleton.mp ht]
    intro heq
    have hnil : buffer = [] := String.ofList_eq_empty_iff.mp (Token.bare.inj heq)
    exact hempty (hnil ▸ rfl)

/-- No entry of a list is empty, since a buffer is given up only when something is in it. -/
theorem forall_mem_readList (buffer input : List Char) :
    ∀ t ∈ (readList characters buffer input).1, t ≠ .bare "" := by
  fun_induction readList characters buffer input with
  | case1 buffer => exact forall_mem_flush buffer
  | case2 buffer c rest hd ih | case3 buffer c rest hd ih => exact ih
  | case4 buffer c rest hd | case5 buffer c rest hd => exact forall_mem_flush buffer
  | case6 buffer c rest hd ih => exact List.forall_mem_append.mpr ⟨forall_mem_flush buffer, ih⟩
  | case7 buffer c rest hd hlt ih =>
      refine List.forall_mem_append.mpr ⟨forall_mem_flush buffer, ?_⟩
      exact List.forall_mem_cons.mpr ⟨Token.noConfusion, ih⟩
  | case8 buffer c rest hd ih | case9 buffer c rest hd ih | case10 buffer c rest hd ih
  | case11 buffer c rest hd ih => exact ih

theorem isEntry_of_mem_readChildren (input : List Char) :
    ∀ n ∈ (readChildren characters input).1, n.IsEntry IsSpelled := by
  intro n hn
  obtain ⟨t, ht, rfl⟩ := List.mem_map.mp hn
  have hentry := isEntry_literal (forall_mem_readList [] input t ht)
  rwa [← Bool.or_false t.literal.2] at hentry

theorem shaped_of_turn {pending : Bool} {c : Char} {rest : List Char} {n : Node}
    (h : (turn characters pending c rest).node = some n) : n.Shaped IsSpelled := by
  unfold turn at h
  split at h
  · cases h
  · cases h
    trivial
  · cases h
    trivial
  · cases h
    exact isEntry_of_mem_readChildren rest
  · cases h
    exact isEntry_of_mem_readChildren rest
  all_goals
    cases h
    exact shaped_ofToken _ pending

theorem shaped_of_mem_readNodes (pending : Bool) (input : List Char) :
    ∀ n ∈ readNodes characters pending input, n.Shaped IsSpelled := by
  fun_induction readNodes characters pending input with
  | case1 pending => exact List.forall_mem_nil _
  | case2 pending c rest hlt ih =>
      refine List.forall_mem_append.mpr ⟨fun n hn => ?_, ih⟩
      exact shaped_of_turn (Option.mem_toList.mp hn)

theorem shaped_of_mem_parse (instruction : String) :
    ∀ n ∈ parse instruction, n.Shaped IsSpelled := by
  rw [parse_eq_parseCharacters]
  exact shaped_of_mem_readNodes false instruction.toList

/-- Reading gives just the lists of nodes that have a shape, each from the instruction in which it
is rendered. -/
theorem exists_parse_eq_iff {nodes : List Node} :
    (∃ instruction, parse instruction = nodes) ↔ ∀ n ∈ nodes, n.Shaped IsSpelled := by
  constructor
  · rintro ⟨instruction, rfl⟩
    exact shaped_of_mem_parse instruction
  · intro h
    choose! spell hspell using fun (x : Binary) (hx : IsSpelled x) => hx
    exact ⟨render spell nodes, parse_render fun n hn => (h n hn).imp fun x _ => hspell x⟩

/-- Reading undoes rendering, and gives nothing that could not be rendered. -/
theorem parse_undoes_render :
    (∀ (spell : Binary → String) (nodes : List Node), Canonical nodes →
      parse (render spell nodes) = nodes) ∧
    (∀ nodes : List Node, (∃ instruction, parse instruction = nodes) ↔
      ∀ n ∈ nodes, n.Shaped IsSpelled) ∧
    ∀ instruction : String, (∀ n ∈ parse instruction, ∀ x, ¬n.HasFloat x) →
      Canonical (parse instruction) := by
  refine ⟨?_, fun nodes => exists_parse_eq_iff, ?_⟩
  · intro spell nodes h
    exact parse_render fun n hn => (h n hn).imp fun x _ => False.elim
  · intro instruction h n hn
    exact (shaped_of_mem_parse instruction n hn).imp fun x hx _ => h n hn x hx

def shapes : List Node :=
  [.set [.scalar (.text "a\"b\\") false, .scalar (.text "~csr") true, .scalar (.int (-7)) false,
    .scalar (.bool true) true] true, .run, .scalar .nil true, .chain, .params [] false,
    .scalar (.int greatest64) true]

theorem parse_undoes_render_shapes :
    Canonical shapes ∧ parse (render (fun _ => "") shapes) = shapes := by
  have hcanonical : Canonical shapes := by
    simp [Canonical, shapes, Node.Shaped, Literal.Shaped, Node.IsEntry, Literal.IsEntry, Fits64,
      least64, greatest64]
  exact ⟨hcanonical, parse_undoes_render.1 _ shapes hcanonical⟩

end Redaction.Instruction
