import McpTrust.Python.Text
import McpTrust.Python.JsonRoundtrip

/-! # Unicode categories

The control, format and surrogate code points of `unicodedata.category`.
-/

namespace Python

set_option autoImplicit false

def inRanges (ranges : List (Nat × Nat)) (c : CodePoint) : Bool :=
  ranges.any fun r => decide (r.1 ≤ c.val) && decide (c.val ≤ r.2)

/-- Category `Cc`. -/
def isControl (c : CodePoint) : Bool := inRanges [(0x0, 0x1F), (0x7F, 0x9F)] c

/-- Category `Cf`. -/
def isFormat (c : CodePoint) : Bool :=
  inRanges
    [(0xAD, 0xAD), (0x600, 0x605), (0x61C, 0x61C), (0x6DD, 0x6DD), (0x70F, 0x70F), (0x890, 0x891),
      (0x8E2, 0x8E2), (0x180E, 0x180E), (0x200B, 0x200F), (0x202A, 0x202E), (0x2060, 0x2064),
      (0x2066, 0x206F), (0xFEFF, 0xFEFF), (0xFFF9, 0xFFFB), (0x110BD, 0x110BD),
      (0x110CD, 0x110CD), (0x13430, 0x1343F), (0x1BCA0, 0x1BCA3), (0x1D173, 0x1D17A),
      (0xE0001, 0xE0001), (0xE0020, 0xE007F)] c

/-- `c.isspace()`. -/
def isWhitespace (c : CodePoint) : Bool :=
  inRanges
    [(0x9, 0xD), (0x1C, 0x20), (0x85, 0x85), (0xA0, 0xA0), (0x1680, 0x1680), (0x2000, 0x200A),
      (0x2028, 0x2029), (0x202F, 0x202F), (0x205F, 0x205F), (0x3000, 0x3000)] c

/-- The first of each ten digits of category `Nd`. -/
def decimalZeros : List Nat :=
  [0x30, 0x660, 0x6F0, 0x7C0, 0x966, 0x9E6, 0xA66, 0xAE6, 0xB66, 0xBE6, 0xC66, 0xCE6, 0xD66, 0xDE6, 0xE50,
    0xED0, 0xF20, 0x1040, 0x1090, 0x17E0, 0x1810, 0x1946, 0x19D0, 0x1A80, 0x1A90, 0x1B50, 0x1BB0, 0x1C40,
    0x1C50, 0xA620, 0xA8D0, 0xA900, 0xA9D0, 0xA9F0, 0xAA50, 0xABF0, 0xFF10, 0x104A0, 0x10D30, 0x10D40,
    0x11066, 0x110F0, 0x11136, 0x111D0, 0x112F0, 0x11450, 0x114D0, 0x11650, 0x116C0, 0x116D0, 0x116DA,
    0x11730, 0x118E0, 0x11950, 0x11BF0, 0x11C50, 0x11D50, 0x11DA0, 0x11DE0, 0x11F50, 0x16A60, 0x16AC0,
    0x16B50, 0x16D70, 0x1CCF0, 0x1D7CE, 0x1D7D8, 0x1D7E2, 0x1D7EC, 0x1D7F6, 0x1E140, 0x1E2F0, 0x1E4F0,
    0x1E5F1, 0x1E950, 0x1FBF0]

/-- `\d` in a pattern. -/
def isDecimal (c : CodePoint) : Bool := decimalZeros.any fun first => decide (first ≤ c.val ∧ c.val < first + 10)

/-- `bool(s.strip())`. -/
def hasText (s : Str) : Bool := s.any fun c => !isWhitespace c

/-- The printable ASCII characters have none of the categories. -/
theorem isControl_of_printable {c : CodePoint} (hlow : 32 ≤ c.val) (hhigh : c.val < 127) :
    isControl c = false := by
  simp [isControl, inRanges]
  omega

theorem isFormat_of_printable {c : CodePoint} (hhigh : c.val < 127) : isFormat c = false := by
  simp [isFormat, inRanges]
  omega

theorem isControl_of_lt {c : CodePoint} (h : c.val < 32) : isControl c = true := by
  simp [isControl, inRanges]
  omega

end Python
