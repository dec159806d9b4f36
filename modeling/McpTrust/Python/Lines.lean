import McpTrust.Python.Text
import McpTrust.Python.Base64

/-! # White space, lines and case

`str.strip`, `str.splitlines`, and `str.lower` as far as a comparison with an
ASCII word sees it.
-/

namespace Python

set_option autoImplicit false

/-- `str.isspace` for one code point. -/
def isWhite (c : CodePoint) : Bool :=
  decide (9 ≤ c.val ∧ c.val ≤ 13) || decide (28 ≤ c.val ∧ c.val ≤ 32) ||
    decide (0x2000 ≤ c.val ∧ c.val ≤ 0x200A) ||
    decide (c.val ∈ [0x85, 0xA0, 0x1680, 0x2028, 0x2029, 0x202F, 0x205F, 0x3000])

def lstrip (s : Str) : Str := s.dropWhile isWhite

def strip (s : Str) : Str := (lstrip (lstrip s).reverse).reverse

/-- The line boundaries of `str.splitlines`. -/
def isLineEnd (c : CodePoint) : Bool :=
  decide (10 ≤ c.val ∧ c.val ≤ 13) || decide (28 ≤ c.val ∧ c.val ≤ 30) ||
    decide (c.val ∈ [0x85, 0x2028, 0x2029])

/-- The lines of a text behind the part `line` of one, in reverse; `\r\n` is one boundary. -/
def splitLinesFrom (afterReturn : Bool) (line : Str) : Str → List Str
  | [] => if line = [] then [] else [line.reverse]
  | c :: rest =>
    if afterReturn = true ∧ c.val = 10 then splitLinesFrom false line rest
    else if isLineEnd c then line.reverse :: splitLinesFrom (decide (c.val = 13)) [] rest
    else splitLinesFrom false (c :: line) rest

def splitLines (s : Str) : List Str := splitLinesFrom false [] s

/-- `[line.strip() for line in text.splitlines() if line.strip()]`. -/
def strippedLines (s : Str) : List Str := ((splitLines s).map strip).filter fun line => decide (line ≠ [])

/-- `str.lower`. Besides `A`-`Z` only the Kelvin sign has an ASCII lower case; every other
code point is left as it is, which no comparison with an ASCII word can tell. -/
def lowerPoint (c : CodePoint) : CodePoint :=
  if isUpperAlpha c then ⟨(c.val + 32) % 0x110000, Nat.mod_lt _ (by decide)⟩
  else if c.val = 0x212A then ch 'k' else c

def lower (s : Str) : Str := s.map lowerPoint

/-- `str.upper` on ASCII text. -/
def upperAscii (s : Str) : Str :=
  s.map fun c => if isLowerAlpha c then ⟨c.val - 32, by omega⟩ else c

/-- `needle in text`. -/
def isInfix (needle text : Str) : Bool := text.tails.any fun tail => needle.isPrefixOf tail

end Python
