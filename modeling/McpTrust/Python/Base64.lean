import McpTrust.Python.Text

/-! # Base64url -/

namespace Python

set_option autoImplicit false

/-- `[A-Za-z0-9_-]`. -/
def isBase64Url (c : CodePoint) : Bool := isAlnum c || decide (c = ch '_') || decide (c = ch '-')

def sextet (c : CodePoint) : Nat :=
  if isUpperAlpha c then c.val - 65
  else if isLowerAlpha c then c.val - 71
  else if isDigit c then c.val + 4
  else if c = ch '-' then 62
  else 63

/-- Four characters give three bytes; the bits left over in a short last group are dropped. -/
def decodeSextets : List Nat → Option Bytes
  | a :: b :: c :: d :: rest =>
    (decodeSextets rest).map fun bytes =>
      UInt8.ofNat (a * 4 + b / 16) :: UInt8.ofNat (b % 16 * 16 + c / 4) ::
        UInt8.ofNat (c % 4 * 64 + d) :: bytes
  | [a, b, c] => some [UInt8.ofNat (a * 4 + b / 16), UInt8.ofNat (b % 16 * 16 + c / 4)]
  | [a, b] => some [UInt8.ofNat (a * 4 + b / 16)]
  | [_] => none
  | [] => some []

/-- `base64.b64decode` of unpadded base64url text, `none` when it raises. -/
def b64decode (text : Str) : Option Bytes := decodeSextets (text.map sextet)

example : b64decode (u "-_8A") = some [0xfb, 0xff, 0x00] := by decide +kernel

end Python
