import Mathlib.Data.List.Basic
import Redaction.Text.Utf8

/-!
# Reading what was written as UTF-8

The octets that spell a character read back as this character, whatever follows them. So decoding
undoes encoding, and no text that was encoded is read with a replacement character. Texts are in the
same order as their octets.
-/

namespace Redaction.Text.Utf8

theorem toNat_ofNat_of_lt {n : Nat} (h : n < 256) : (UInt8.ofNat n).toNat = n := by
  rw [UInt8.toNat_ofNat']
  exact Nat.mod_eq_of_lt h

theorem lead_of_lt {b : UInt8} (h : b.toNat < 0x80) : lead b = .whole (Char.ofNat b.toNat) := by
  rw [lead, if_pos]
  exact UInt8.lt_iff_toNat_lt.mpr h

theorem lead_two {b : UInt8} (hlow : 0xC2 ≤ b.toNat) (hhigh : b.toNat < 0xE0) :
    lead b = .begun ⟨0, 0x80, 0xBF, b.toNat - 0xC0⟩ := by
  simp only [lead, UInt8.lt_iff_toNat_lt, UInt8.reduceToNat]
  rw [if_neg (by omega), if_neg (by omega), if_pos hhigh]

/-- The octet after the lead of a longer character has a narrower range at the ends. -/
theorem lead_three {b : UInt8} (hlow : 0xE0 ≤ b.toNat) (hhigh : b.toNat < 0xF0) :
    lead b = .begun ⟨1, if b.toNat = 0xE0 then 0xA0 else 0x80,
      if b.toNat = 0xED then 0x9F else 0xBF, b.toNat - 0xE0⟩ := by
  simp only [lead, UInt8.lt_iff_toNat_lt, ← UInt8.toNat_inj, UInt8.reduceToNat]
  rw [if_neg (by omega), if_neg (by omega), if_neg (by omega)]
  split
  · next h => simp [h]
  · split
    · next h => simp [h]
    · simp [*]

theorem lead_four {b : UInt8} (hlow : 0xF0 ≤ b.toNat) (hhigh : b.toNat < 0xF5) :
    lead b = .begun ⟨2, if b.toNat = 0xF0 then 0x90 else 0x80,
      if b.toNat = 0xF4 then 0x8F else 0xBF, b.toNat - 0xF0⟩ := by
  simp only [lead, UInt8.lt_iff_toNat_lt, ← UInt8.toNat_inj, UInt8.reduceToNat]
  rw [if_neg (by omega), if_neg (by omega), if_neg (by omega), if_neg (by omega),
    if_neg (by omega), if_neg (by omega)]
  split
  · next h => simp [h]
  · split
    · next h => simp [show b.toNat ≠ 0xF4 by omega, *]
    · simp [show b.toNat = 0xF4 by omega]

theorem decodeFrom_of_whole {b : UInt8} {c : Char} (h : lead b = .whole c) (rest : List UInt8) :
    decodeFrom none (b :: rest) = c :: decodeFrom none rest := by
  rw [decodeFrom, h]

theorem decodeFrom_of_begun {b : UInt8} {p : Begun} (h : lead b = .begun p) (rest : List UInt8) :
    decodeFrom none (b :: rest) = decodeFrom (some p) rest := by
  rw [decodeFrom, h]

theorem toNat_continuation (n : Nat) : (UInt8.ofNat (n % 0x40 + 0x80)).toNat = n % 0x40 + 0x80 :=
  toNat_ofNat_of_lt (by omega)

theorem decodeFrom_more {b low high : UInt8} {m : Nat} (hb : b.toNat = m + 0x80)
    (hlow : low.toNat ≤ m + 0x80) (hhigh : m + 0x80 ≤ high.toNat) (later bits : Nat)
    (rest : List UInt8) :
    decodeFrom (some ⟨later + 1, low, high, bits⟩) (b :: rest) =
      decodeFrom (some ⟨later, 0x80, 0xBF, bits * 64 + m⟩) rest := by
  have hrange : low ≤ b ∧ b ≤ high := by
    rw [UInt8.le_iff_toNat_le, UInt8.le_iff_toNat_le, hb]
    exact ⟨hlow, hhigh⟩
  have hm : b.toNat - 0x80 = m := by omega
  rw [decodeFrom, if_pos hrange, ← hm]
  rfl

theorem decodeFrom_last {b : UInt8} {m : Nat} (hb : b.toNat = m + 0x80) (hm : m < 0x40)
    (bits : Nat) (rest : List UInt8) :
    decodeFrom (some ⟨0, 0x80, 0xBF, bits⟩) (b :: rest) =
      Char.ofNat (bits * 64 + m) :: decodeFrom none rest := by
  have hrange : 0x80 ≤ b ∧ b ≤ 0xBF := by
    rw [UInt8.le_iff_toNat_le, UInt8.le_iff_toNat_le, hb]
    simp only [UInt8.reduceToNat]
    omega
  have hbits : b.toNat - 0x80 = m := by omega
  rw [decodeFrom, if_pos hrange, ← hbits]
  rfl

/-- The cases are those of the encoder, by the number of octets. -/
theorem decodeFrom_utf8EncodeChar (c : Char) (rest : List UInt8) :
    decodeFrom none (String.utf8EncodeChar c ++ rest) = c :: decodeFrom none rest := by
  have hvalid : c.val.toNat < 0xD800 ∨ 0xDFFF < c.val.toNat ∧ c.val.toNat < 0x110000 := c.valid
  have hc : ∀ n, n = c.val.toNat → Char.ofNat n = c := by
    rintro n rfl
    exact Char.ofNat_toNat c
  unfold String.utf8EncodeChar
  generalize c.val.toNat = v at hvalid hc
  dsimp only
  split
  · have hb : (UInt8.ofNat v).toNat = v := toNat_ofNat_of_lt (by omega)
    rw [List.singleton_append, decodeFrom_of_whole (lead_of_lt (by omega)), hb, hc v rfl]
  · split
    · have hb : (UInt8.ofNat (v / 64 % 0x20 + 0xC0)).toNat = v / 64 % 0x20 + 0xC0 :=
        toNat_ofNat_of_lt (by omega)
      rw [List.cons_append, List.singleton_append,
        decodeFrom_of_begun (lead_two (by omega) (by omega)), hb,
        decodeFrom_last (toNat_continuation v) (by omega), hc _ (by omega)]
    · split
      · have hb : (UInt8.ofNat (v / 4096 % 0x10 + 0xE0)).toNat = v / 4096 % 0x10 + 0xE0 :=
          toNat_ofNat_of_lt (by omega)
        rw [List.cons_append, List.cons_append, List.singleton_append,
          decodeFrom_of_begun (lead_three (by omega) (by omega)), hb,
          decodeFrom_more (toNat_continuation (v / 64)) ?_ ?_,
          decodeFrom_last (toNat_continuation v) (by omega), hc _ (by omega)]
        · split <;> simp only [UInt8.reduceToNat] <;> omega
        · split <;> simp only [UInt8.reduceToNat] <;> omega
      · have hb : (UInt8.ofNat (v / 262144 % 0x08 + 0xF0)).toNat = v / 262144 % 0x08 + 0xF0 :=
          toNat_ofNat_of_lt (by omega)
        rw [List.cons_append, List.cons_append, List.cons_append, List.singleton_append,
          decodeFrom_of_begun (lead_four (by omega) (by omega)), hb,
          decodeFrom_more (toNat_continuation (v / 4096)) ?_ ?_,
          decodeFrom_more (toNat_continuation (v / 64)) ?_ ?_,
          decodeFrom_last (toNat_continuation v) (by omega), hc _ (by omega)]
        · exact Nat.le_add_left _ _
        · simp only [UInt8.reduceToNat]
          omega
        · split <;> simp only [UInt8.reduceToNat] <;> omega
        · split <;> simp only [UInt8.reduceToNat] <;> omega

/-- The octets that spell a row of characters. -/
def encodeAll (cs : List Char) : List UInt8 := cs.flatMap String.utf8EncodeChar

@[simp] theorem encodeAll_nil : encodeAll [] = [] := rfl

@[simp] theorem encodeAll_cons (c : Char) (cs : List Char) :
    encodeAll (c :: cs) = String.utf8EncodeChar c ++ encodeAll cs := rfl

theorem encodeAll_append (cs ds : List Char) : encodeAll (cs ++ ds) = encodeAll cs ++ encodeAll ds :=
  List.flatMap_append

theorem decodeFrom_encodeAll (cs : List Char) : decodeFrom none (encodeAll cs) = cs := by
  induction cs with
  | nil => rfl
  | cons c rest ih => rw [encodeAll_cons, decodeFrom_utf8EncodeChar, ih]

theorem decode_encodeAll (cs : List Char) : decode (encodeAll cs) = String.ofList cs := by
  rw [decode, decodeFrom_encodeAll]

theorem decode_encode (s : String) : decode (encode s) = s := by
  have h := decode_encodeAll s.toList
  rwa [String.ofList_toList] at h

theorem length_encode (s : String) : (encode s).length = s.utf8ByteSize := by
  have hbytes : s.toByteArray = s.toList.utf8Encode := by
    rw [← String.toByteArray_ofList, String.ofList_toList]
  rw [← String.size_toByteArray, hbytes, List.utf8Encode, List.size_toByteArray, encode]

theorem decode?_encode (s : String) : decode? (encode s) = some s := by
  rw [decode?, decode_encode, if_pos rfl]

theorem encodeAll_eq_encode (cs : List Char) : encodeAll cs = encode (String.ofList cs) := by
  rw [encode, String.toList_ofList, encodeAll]

/-- An octet of a longer character is not one of ASCII. -/
theorem le_of_mem_utf8EncodeChar {c : Char} (hc : 0x80 ≤ c.toNat) {b : UInt8}
    (hb : b ∈ String.utf8EncodeChar c) : 0x80 ≤ b.toNat := by
  have hc' : 0x80 ≤ c.val.toNat := hc
  have hvalid : c.val.toNat < 0xD800 ∨ 0xDFFF < c.val.toNat ∧ c.val.toNat < 0x110000 := c.valid
  unfold String.utf8EncodeChar at hb
  generalize c.val.toNat = v at hb hc' hvalid
  dsimp only at hb
  rw [if_neg (by omega)] at hb
  have hofNat : ∀ n, 0x80 ≤ n → n < 256 → 0x80 ≤ (UInt8.ofNat n).toNat := by
    intro n hlow hhigh
    rwa [toNat_ofNat_of_lt hhigh]
  split at hb
  · simp only [List.mem_cons, List.not_mem_nil, or_false] at hb
    rcases hb with rfl | rfl <;> exact hofNat _ (by omega) (by omega)
  · split at hb
    · simp only [List.mem_cons, List.not_mem_nil, or_false] at hb
      rcases hb with rfl | rfl | rfl <;> exact hofNat _ (by omega) (by omega)
    · simp only [List.mem_cons, List.not_mem_nil, or_false] at hb
      rcases hb with rfl | rfl | rfl | rfl <;> exact hofNat _ (by omega) (by omega)

theorem utf8EncodeChar_of_lt {c : Char} (hc : c.toNat < 0x80) :
    String.utf8EncodeChar c = [UInt8.ofNat c.toNat] := by
  have hc' : c.val.toNat ≤ 0x7F := Nat.le_of_lt_succ hc
  simp only [String.utf8EncodeChar, if_pos hc']
  rfl

/-! ## The order of octets -/

theorem ofNat_lt_ofNat_iff {m n : Nat} (hm : m < 256) (hn : n < 256) :
    UInt8.ofNat m < UInt8.ofNat n ↔ m < n := by
  rw [UInt8.lt_iff_toNat_lt, toNat_ofNat_of_lt hm, toNat_ofNat_of_lt hn]

theorem ofNat_eq_ofNat_iff {m n : Nat} (hm : m < 256) (hn : n < 256) :
    UInt8.ofNat m = UInt8.ofNat n ↔ m = n := by
  rw [← UInt8.toNat_inj, toNat_ofNat_of_lt hm, toNat_ofNat_of_lt hn]

/-- Characters differ before the octets of either end. The cases are those of the encoder, by the
number of octets of both. -/
theorem utf8EncodeChar_append_lt {c d : Char} (h : c < d) (xs ys : List UInt8) :
    String.utf8EncodeChar c ++ xs < String.utf8EncodeChar d ++ ys := by
  have hlt : c.val.toNat < d.val.toNat := UInt32.lt_iff_toNat_lt.mp h
  have hvalid : d.val.toNat < 0xD800 ∨ 0xDFFF < d.val.toNat ∧ d.val.toNat < 0x110000 := d.valid
  unfold String.utf8EncodeChar
  generalize c.val.toNat = v at hlt
  generalize d.val.toNat = w at hlt hvalid
  dsimp only
  -- the digits to base 64 that the octets hold
  have hdigits : ∀ n < 0x110000,
      n / 262144 < 8 ∧ n / 4096 / 64 = n / 262144 ∧ n / 64 / 64 = n / 4096 := by
    intro n hn
    omega
  obtain ⟨hv, hv', hv''⟩ := hdigits v (by omega)
  obtain ⟨hw, hw', hw''⟩ := hdigits w (by omega)
  split_ifs
  all_goals
    simp (disch := omega) only [List.cons_append, List.nil_append, List.cons_lt_cons_iff,
      ofNat_lt_ofNat_iff, ofNat_eq_ofNat_iff]
    omega

theorem encodeAll_lt_encodeAll {cs ds : List Char} (h : cs < ds) :
    encodeAll cs < encodeAll ds := by
  induction cs generalizing ds with
  | nil =>
      cases ds with
      | nil => exact absurd h (List.lt_irrefl _)
      | cons d later =>
          obtain ⟨b, bs, hb⟩ := List.exists_cons_of_ne_nil (String.utf8EncodeChar_ne_nil (c := d))
          rw [encodeAll_nil, encodeAll_cons, hb, List.cons_append]
          exact List.nil_lt_cons b _
  | cons c rest ih =>
      cases ds with
      | nil => exact absurd h (List.not_lt_nil _)
      | cons d later =>
          rw [encodeAll_cons, encodeAll_cons]
          rcases List.cons_lt_cons_iff.mp h with hlt | ⟨rfl, hrest⟩
          · exact utf8EncodeChar_append_lt hlt _ _
          · exact List.append_left_lt (ih hrest)

theorem encode_lt_encode {s t : String} (h : s < t) : encode s < encode t :=
  encodeAll_lt_encodeAll (String.lt_iff.mp h)

end Redaction.Text.Utf8
