import Redaction.Text.CharRange

/-!
# Blank text

White space is the Unicode property White_Space. A name is blank when it holds nothing else.
-/

namespace Redaction.Text

/-- The ranges of the property White_Space. -/
def whiteSpace : List CharRange :=
  [⟨0x0009, 0x000D⟩, ⟨0x0020, 0x0020⟩, ⟨0x0085, 0x0085⟩, ⟨0x00A0, 0x00A0⟩, ⟨0x1680, 0x1680⟩,
   ⟨0x2000, 0x200A⟩, ⟨0x2028, 0x2029⟩, ⟨0x202F, 0x202F⟩, ⟨0x205F, 0x205F⟩, ⟨0x3000, 0x3000⟩]

def isWhiteSpace (c : Char) : Bool := inRanges whiteSpace c

/-- Whether a text has no character outside white space; the empty text is blank. -/
def isBlank (s : String) : Bool := s.toList.all isWhiteSpace

theorem isBlank_eq_false_iff {s : String} :
    isBlank s = false ↔ ∃ c ∈ s.toList, isWhiteSpace c = false := by
  simp [isBlank, List.all_eq_false]

end Redaction.Text
