import Mathlib
import McpTrust.Python.Text
import McpTrust.Python.Sha256

/-! # Patterns

The regular expressions the modules match with `fullmatch`.
-/

namespace McpTrust

set_option autoImplicit false

open Python

/-- `^[0-9a-f]{64}$`. -/
def isSha256 (s : Str) : Bool := decide (s.length = 64) && s.all isHexLower

theorem isSha256_sha256Hex (b : Bytes) : isSha256 (sha256Hex b) = true := by
  rw [isSha256, length_sha256Hex, List.all_eq_true.mpr (sha256Hex_isHexLower b)]
  rfl

/-- `^sha256:[0-9a-f]{64}$`. -/
def isKeyId (s : Str) : Bool := decide (s.take 7 = u "sha256:") && isSha256 (s.drop 7)

def isSlugChar (c : CodePoint) : Bool := isLowerAlpha c || isDigit c

/-- `^[a-z0-9]+(?:-[a-z0-9]+)*$`, read with a dash allowed or not at the head. -/
def isSlugFrom : Bool → Str → Bool
  | afterChar, [] => afterChar
  | afterChar, c :: rest =>
    if isSlugChar c then isSlugFrom true rest
    else afterChar && decide (c = ch '-') && isSlugFrom false rest

def isSlug (s : Str) : Bool := isSlugFrom false s

/-- `^[A-Z_][A-Z0-9_]*$`. -/
def isCredentialName : Str → Bool
  | [] => false
  | c :: rest =>
    (isUpperAlpha c || decide (c = ch '_')) &&
      rest.all fun d => isUpperAlpha d || isDigit d || decide (d = ch '_')

/-- An alphanumeric, then at most 254 of alphanumerics, dots, underscores, slashes and dashes. -/
def isPublisherId : Str → Bool
  | [] => false
  | c :: rest =>
    isAlnum c && decide (rest.length ≤ 254) &&
      rest.all fun d => isAlnum d || decide (d ∈ u "._/-")

end McpTrust
