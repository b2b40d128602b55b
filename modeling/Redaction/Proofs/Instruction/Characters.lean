import Redaction.Instruction.Parse
import Redaction.Proofs.Text.Utf8

/-!
# Octets and characters

Reading an instruction by its octets gives the nodes that reading by its characters gives. Every
reader agrees with itself on the two alphabets: an octet of a longer character is content, and an
octet that is a character of its own plays the part of that character.
-/

namespace Redaction.Instruction

open Redaction.Text Redaction.Text.Utf8

/-- An octet that is neither a delimiter nor an escape. -/
def IsPlain (b : UInt8) : Prop := octets.delimiter? b = none ∧ octets.isEscape b = false

theorem isPlain_of_le {b : UInt8} (hb : 0x80 ≤ b.toNat) : IsPlain b := by
  constructor
  · refine List.find?_eq_none.mpr fun d _ hd => ?_
    have hlt := UInt8.lt_iff_toNat_lt.mp d.byte_lt
    rw [eq_of_beq hd] at hlt
    exact absurd hb (Nat.not_le.mpr hlt)
  · refine beq_eq_false_iff_ne.mpr ?_
    rintro rfl
    exact absurd hb (by decide)

theorem delimiter?_ofNat {c : Char} (hc : c.toNat < 0x80) :
    octets.delimiter? (UInt8.ofNat c.toNat) = characters.delimiter? c := by
  have hbyte : ∀ d : Delimiter, (d.byte == UInt8.ofNat c.toNat) = (d.char == c) := by
    intro d
    have hd : d.char.toNat < 0x80 := by cases d <;> decide
    rw [Bool.eq_iff_iff, beq_iff_eq, beq_iff_eq]
    constructor
    · intro h
      have h' := congrArg UInt8.toNat h
      rw [Delimiter.byte, toNat_ofNat_of_lt (by omega)] at h'
      exact Char.toNat_inj.mp (h'.trans (toNat_ofNat_of_lt (by omega)))
    · rintro rfl
      rfl
  simp only [octets, characters, Delimiter.ofByte?, Delimiter.ofChar?, hbyte]

theorem isEscape_ofNat {c : Char} (hc : c.toNat < 0x80) :
    octets.isEscape (UInt8.ofNat c.toNat) = characters.isEscape c := by
  change (UInt8.ofNat c.toNat == escapeByte) = (c == escape)
  rw [Bool.eq_iff_iff, beq_iff_eq, beq_iff_eq]
  constructor
  · intro h
    have h' := congrArg UInt8.toNat h
    rw [toNat_ofNat_of_lt (by omega)] at h'
    exact Char.toNat_inj.mp h'
  · rintro rfl
    rfl

theorem characters_of_le {c : Char} (hc : 0x80 ≤ c.toNat) :
    characters.delimiter? c = none ∧ characters.isEscape c = false := by
  constructor
  · refine List.find?_eq_none.mpr fun d _ hd => ?_
    rw [← eq_of_beq hd] at hc
    cases d <;> exact absurd hc (by decide)
  · refine beq_eq_false_iff_ne.mpr ?_
    rintro rfl
    exact absurd hc (by decide)

/-- The first octet of a character plays its part, and more octets follow only if the character is
content. -/
theorem exists_octets (c : Char) :
    ∃ b later, String.utf8EncodeChar c = b :: later ∧
      octets.delimiter? b = characters.delimiter? c ∧ octets.isEscape b = characters.isEscape c ∧
        (∀ x ∈ later, IsPlain x) ∧ (later = [] ∨ IsPlain b) := by
  by_cases hc : c.toNat < 0x80
  · exact ⟨_, [], utf8EncodeChar_of_lt hc, delimiter?_ofNat hc, isEscape_ofNat hc, nofun, .inl rfl⟩
  · have hle : 0x80 ≤ c.toNat := Nat.not_lt.mp hc
    obtain ⟨b, later, heq⟩ := List.exists_cons_of_ne_nil (String.utf8EncodeChar_ne_nil (c := c))
    have hplain : ∀ x ∈ b :: later, IsPlain x := fun x hx =>
      isPlain_of_le (le_of_mem_utf8EncodeChar hle (heq ▸ hx))
    obtain ⟨hdelimiter, hescape⟩ := characters_of_le hle
    have hb := hplain b List.mem_cons_self
    exact ⟨b, later, heq, hb.1.trans hdelimiter.symm, hb.2.trans hescape.symm,
      fun x hx => hplain x (List.mem_cons_of_mem b hx), .inr hb⟩

theorem exists_octet_of_delimiter {c : Char} {d : Delimiter}
    (h : characters.delimiter? c = some d) :
    ∃ b, String.utf8EncodeChar c = [b] ∧ octets.delimiter? b = some d := by
  obtain ⟨b, later, heq, hdelimiter, -, -, hone⟩ := exists_octets c
  rcases hone with rfl | hb
  · exact ⟨b, heq, hdelimiter.trans h⟩
  · rw [← hdelimiter, hb.1] at h
    cases h

/-! ## Readers -/

theorem quotedRun_append_plain {bytes : List UInt8} (h : ∀ b ∈ bytes, IsPlain b)
    (rest : List UInt8) :
    quotedRun octets false (bytes ++ rest) = (quotedRun octets false rest).map (bytes ++ ·) id := by
  induction bytes with
  | nil => rfl
  | cons b later ih =>
      obtain ⟨hb, hlater⟩ := List.forall_mem_cons.mp h
      rw [List.cons_append, quotedRun, if_neg (by simp), hb.1, if_neg (by simp), hb.2,
        if_neg (by simp), ih hlater]
      rfl

/-- Content and inversion marks go into the entry of a list as they are. -/
theorem readList_append {α : Type} {A : Alphabet α} {xs : List α}
    (h : ∀ u ∈ xs, A.delimiter? u = none ∨ A.delimiter? u = some .invert) (buffer rest : List α) :
    readList A buffer (xs ++ rest) = readList A (buffer ++ xs) rest := by
  induction xs generalizing buffer with
  | nil => rw [List.nil_append, List.append_nil]
  | cons u later ih =>
      obtain ⟨hu, hlater⟩ := List.forall_mem_cons.mp h
      have hstep : readList A buffer (u :: (later ++ rest)) =
          readList A (buffer ++ [u]) (later ++ rest) := by
        rw [readList]
        rcases hu with hu | hu <;> rw [hu]
      rw [List.cons_append, hstep, ih hlater, List.append_assoc, List.singleton_append]

theorem bareRun_encodeAll (cs : List Char) :
    bareRun octets (encodeAll cs) = (bareRun characters cs).map encodeAll encodeAll := by
  induction cs with
  | nil => rfl
  | cons c rest ih =>
      obtain ⟨b, later, heq, hdelimiter, -, hlater, -⟩ := exists_octets c
      obtain ⟨htake, hdrop⟩ := Prod.mk.inj ih
      have hsame : octets.isContent b = characters.isContent c := by
        rw [Alphabet.isContent, Alphabet.isContent, hdelimiter]
      rw [encodeAll_cons, heq, bareRun, bareRun]
      by_cases hc : characters.isContent c = true
      · have hall : ∀ x ∈ b :: later, octets.isContent x = true := by
          refine List.forall_mem_cons.mpr ⟨hsame.trans hc, fun x hx => ?_⟩
          rw [Alphabet.isContent, (hlater x hx).1]
          rfl
        rw [List.takeWhile_append_of_pos hall, List.dropWhile_append_of_pos hall, htake, hdrop,
          List.takeWhile_cons_of_pos hc, List.dropWhile_cons_of_pos hc, ← heq]
        rfl
      · have hb : ¬octets.isContent b = true := by rwa [hsame]
        rw [List.cons_append, List.takeWhile_cons_of_neg hb, List.dropWhile_cons_of_neg hb,
          List.takeWhile_cons_of_neg hc, List.dropWhile_cons_of_neg hc, Prod.map_apply,
          encodeAll_cons, heq]
        rfl

theorem quotedRun_encodeAll (escaped : Bool) (cs : List Char) :
    quotedRun octets escaped (encodeAll cs) =
      (quotedRun characters escaped cs).map encodeAll encodeAll := by
  induction cs generalizing escaped with
  | nil => rfl
  | cons c rest ih =>
      obtain ⟨b, later, heq, hdelimiter, hescape, hlater, hone⟩ := exists_octets c
      have hkeep : (quotedRun octets false (later ++ encodeAll rest)).map (b :: ·) id =
          ((quotedRun characters false rest).map (c :: ·) id).map encodeAll encodeAll := by
        rw [quotedRun_append_plain hlater, ih, Prod.map_map, Prod.map_map, Prod.map_map]
        refine Prod.ext ?_ rfl
        simp [heq]
      rw [encodeAll_cons, heq, List.cons_append, quotedRun, quotedRun, hdelimiter, hescape]
      split
      · exact hkeep
      · split
        · next hquote =>
            obtain ⟨b', heq', -⟩ := exists_octet_of_delimiter hquote
            obtain ⟨-, rfl⟩ := List.cons.inj (heq.symm.trans heq')
            rfl
        · split
          · next hesc =>
              have hnil : later = [] := by
                refine hone.resolve_right fun hb => ?_
                rw [← hescape, hb.2] at hesc
                cases hesc
              rw [hnil]
              exact ih true
          · exact hkeep

theorem text_encodeAll (cs : List Char) : octets.text (encodeAll cs) = characters.text cs :=
  decode_encodeAll cs

theorem readBare_encodeAll (cs : List Char) :
    readBare octets (encodeAll cs) = (readBare characters cs).map id encodeAll := by
  rw [readBare, readBare, bareRun_encodeAll, Prod.map_map, Prod.map_map]
  refine Prod.ext ?_ rfl
  exact text_encodeAll _

theorem readQuoted_encodeAll (cs : List Char) :
    readQuoted octets (encodeAll cs) = (readQuoted characters cs).map id encodeAll := by
  rw [readQuoted, readQuoted, quotedRun_encodeAll, Prod.map_map, Prod.map_map]
  refine Prod.ext ?_ rfl
  exact text_encodeAll _

theorem flush_encodeAll (buffer : List Char) :
    flush octets (encodeAll buffer) = flush characters buffer := by
  cases buffer with
  | nil => rfl
  | cons c rest =>
      have hne : (encodeAll (c :: rest)).isEmpty = false := by
        obtain ⟨b, later, heq, -⟩ := exists_octets c
        rw [encodeAll_cons, heq]
        rfl
      rw [flush, flush, hne, text_encodeAll]
      rfl

theorem readList_encodeAll (buffer cs : List Char) :
    readList octets (encodeAll buffer) (encodeAll cs) =
      (readList characters buffer cs).map id encodeAll := by
  fun_induction readList characters buffer cs with
  | case1 buffer =>
      rw [encodeAll_nil, readList, flush_encodeAll]
      rfl
  | case2 buffer c rest hd ih | case3 buffer c rest hd ih =>
      obtain ⟨b, later, heq, hdelimiter, -, hlater, -⟩ := exists_octets c
      rw [encodeAll_cons, heq, List.cons_append, readList, hdelimiter, hd]
      change readList octets (encodeAll buffer ++ [b]) (later ++ encodeAll rest) = _
      rw [readList_append fun x hx => .inl (hlater x hx).1, List.append_assoc,
        List.singleton_append, ← ih, encodeAll_append, encodeAll_cons, encodeAll_nil,
        List.append_nil, heq]
  | case4 buffer c rest hd | case5 buffer c rest hd =>
      obtain ⟨b, heq, hdelimiter⟩ := exists_octet_of_delimiter hd
      rw [encodeAll_cons, heq, List.singleton_append, readList, hdelimiter]
      exact Prod.ext (flush_encodeAll buffer) rfl
  | case6 buffer c rest hd ih =>
      obtain ⟨b, heq, hdelimiter⟩ := exists_octet_of_delimiter hd
      rw [encodeAll_cons, heq, List.singleton_append, readList, hdelimiter]
      change (readList octets (encodeAll []) (encodeAll rest)).map _ id = _
      rw [ih, flush_encodeAll, Prod.map_map, Prod.map_map]
      rfl
  | case7 buffer c rest hd hlt ih =>
      obtain ⟨b, heq, hdelimiter⟩ := exists_octet_of_delimiter hd
      rw [encodeAll_cons, heq, List.singleton_append, readList, hdelimiter]
      change (readList octets (encodeAll []) (readQuoted octets (encodeAll rest)).2).map _ id = _
      rw [readQuoted_encodeAll, flush_encodeAll]
      change Prod.map _ id
        (readList octets (encodeAll []) (encodeAll (readQuoted characters rest).2)) = _
      rw [ih, Prod.map_map, Prod.map_map]
      rfl
  | case8 buffer c rest hd ih | case9 buffer c rest hd ih | case10 buffer c rest hd ih
  | case11 buffer c rest hd ih =>
      obtain ⟨b, heq, hdelimiter⟩ := exists_octet_of_delimiter hd
      rw [encodeAll_cons, heq, List.singleton_append, readList, hdelimiter]
      exact ih

theorem readChildren_encodeAll (cs : List Char) :
    readChildren octets (encodeAll cs) = (readChildren characters cs).map id encodeAll := by
  rw [readChildren, readChildren, ← encodeAll_nil, readList_encodeAll, Prod.map_map, Prod.map_map]
  rfl

/-! ## Turns -/

/-- A turn that begins at a character gives the node that it gives at the octets of it. -/
theorem turn_encodeAll (pending : Bool) (c : Char) (rest : List Char) :
    ∃ b later, String.utf8EncodeChar c = b :: later ∧
      turn octets pending b (later ++ encodeAll rest) =
        ⟨(turn characters pending c rest).node, (turn characters pending c rest).pending,
          encodeAll (turn characters pending c rest).rest⟩ := by
  cases hd : characters.delimiter? c with
  | none =>
      obtain ⟨b, later, heq, hdelimiter, -⟩ := exists_octets c
      refine ⟨b, later, heq, ?_⟩
      have hread := readBare_encodeAll (c :: rest)
      rw [encodeAll_cons, heq, List.cons_append] at hread
      rw [turn, turn, hdelimiter, hd]
      simp only [hread]
      rfl
  | some d =>
      obtain ⟨b, heq, hdelimiter⟩ := exists_octet_of_delimiter hd
      refine ⟨b, [], heq, ?_⟩
      rw [turn, turn, hdelimiter, hd, List.nil_append]
      cases d with
      | openSet | openParams =>
          simp only [readChildren_encodeAll]
          rfl
      | quote =>
          simp only [readQuoted_encodeAll]
          rfl
      | closeSet | closeParams | comma =>
          simp only [readBare_encodeAll]
          rfl
      | run | invert | chain => rfl

theorem readNodes_encodeAll (pending : Bool) (cs : List Char) :
    readNodes octets pending (encodeAll cs) = readNodes characters pending cs := by
  fun_induction readNodes characters pending cs with
  | case1 pending => rw [encodeAll_nil, readNodes]
  | case2 pending c rest hlt ih =>
      obtain ⟨b, later, heq, hturn⟩ := turn_encodeAll pending c rest
      rw [encodeAll_cons, heq, List.cons_append, readNodes, hturn, ih]

/-- Reading works on octets, and it could as well work on characters. -/
theorem parse_eq_parseCharacters (instruction : String) :
    parse instruction = parseCharacters instruction :=
  readNodes_encodeAll false instruction.toList

end Redaction.Instruction
