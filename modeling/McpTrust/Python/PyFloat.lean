import McpTrust.Python.Binary64
import McpTrust.Python.Numeral
import McpTrust.Python.PathOrder

/-! # Floats

A finite float carries the proof that it is a binary64 value. `readFloat` is the
correctly rounded reading of a decimal numeral and `floatRepr` the shortest
decimal that reads back.
-/

namespace Python

set_option autoImplicit false

/-- A finite binary64 value; zero is the positive one. -/
structure Binary64 where
  val : ℚ
  rounded : fl val = val
  bounded : |val| < 2 ^ 1024
  deriving DecidableEq

inductive PyFloat
  | finite (x : Binary64)
  | negZero
  | inf (negative : Bool)
  | nan
  deriving DecidableEq

namespace PyFloat

/-- The float nearest to `q`, infinite beyond the largest finite one. -/
def ofRat (q : ℚ) : PyFloat :=
  if h : |fl q| < 2 ^ 1024 then .finite ⟨fl q, fl_fl q, h⟩ else .inf (decide (q < 0))

def isFinite : PyFloat → Bool
  | finite _ | negZero => true
  | inf _ | nan => false

/-- The rational value of a finite float. -/
def value? : PyFloat → Option ℚ
  | finite x => some x.val
  | negZero => some 0
  | inf _ | nan => none

end PyFloat

/-! ## Reading -/

/-- A decimal numeral `± digits · 10 ^ exponent`. -/
structure Decimal where
  negative : Bool
  digits : Nat
  exponent : ℤ

def pow10 (k : ℤ) : ℚ := if 0 ≤ k then ((10 ^ k.toNat : ℕ) : ℚ) else mkRat 1 (10 ^ (-k).toNat)

/-- Correctly rounded; a magnitude far outside the format needs no power of ten. -/
def Decimal.toFloat (d : Decimal) : PyFloat :=
  let zero : PyFloat := if d.negative then .negZero else .ofRat 0
  if d.digits = 0 then zero
  else
    let top : ℤ := (natRepr d.digits).length + d.exponent
    if 310 < top then .inf d.negative
    else if top < -330 then zero
    else
      let q := (d.digits : ℚ) * pow10 d.exponent
      if fl q = 0 then zero else .ofRat (if d.negative then -q else q)

def splitExponent (text : Str) : Str × ℤ :=
  let mantissa := text.takeWhile fun c => c ≠ ch 'e' ∧ c ≠ ch 'E'
  match text.drop (mantissa.length + 1) with
  | [] => (mantissa, 0)
  | c :: rest => (mantissa, if c = ch '+' then readInt rest else readInt (c :: rest))

/-- `float(text)` on a JSON number. -/
def readFloat (text : Str) : PyFloat :=
  let negative := text.head? = some (ch '-')
  let (mantissa, exponent) := splitExponent (if negative then text.tail else text)
  let whole := mantissa.takeWhile isDigit
  let fraction := mantissa.drop (whole.length + 1)
  (Decimal.mk negative (readNat (whole ++ fraction)) (exponent - fraction.length)).toFloat

/-! ## Arithmetic -/

/-- `float(n)` of an integer. -/
def floatOfInt (n : ℤ) : Except PyErr PyFloat :=
  match PyFloat.ofRat n with
  | .inf _ => .error .overflowError
  | x => .ok x

/-- `round(x, digits)` of a finite float. -/
def roundDigits (x : ℚ) (digits : Nat) : ℚ := fl (roundHalfEven (x * 10 ^ digits) / 10 ^ digits)

/-! ## Shortest representation -/

/-- The decimal exponent `k` with `10 ^ (k - 1) ≤ x < 10 ^ k`, for positive `x`. -/
def decimalPoint (x : ℚ) : ℤ :=
  let guess : ℤ := (natRepr x.num.natAbs).length - (natRepr x.den).length
  if pow10 guess ≤ x then guess + 1 else guess

/-- The candidates with `k` digits around `x`, the nearer one first. -/
def digitCandidates (x : ℚ) (point : ℤ) (k : Nat) : List Nat :=
  let scaled := x * pow10 (k - point)
  let nearest := (roundHalfEven scaled).toNat
  [nearest, if nearest ≤ scaled then nearest + 1 else nearest - 1]

/-- The shortest digits, with the position of the decimal point, that read back as `x`. -/
def shortestDigits (x : ℚ) : Str × ℤ :=
  let point := decimalPoint x
  let found : Option (Nat × Nat) := (List.range 17).findSome? fun i =>
    ((digitCandidates x point (i + 1)).find?
      (fun n : Nat => decide (fl ((n : ℚ) * pow10 (point - (i + 1))) = x))).map fun n => (n, i + 1)
  match found with
  | some (n, k) =>
    let text := natRepr n
    ((text.reverse.dropWhile (· = ch '0')).reverse, point + (text.length - k))
  | none => (natRepr (x * pow10 (17 - point)).num.toNat, point)

def zeros (n : Nat) : Str := List.replicate n (ch '0')

/-- `repr(x)` of a positive finite float. -/
def positiveRepr (x : ℚ) : Str :=
  let (digits, point) := shortestDigits x
  if -4 < point ∧ point ≤ 16 then
    if point ≤ 0 then u "0." ++ zeros (-point).toNat ++ digits
    else if digits.length ≤ point.toNat then
      digits ++ zeros (point.toNat - digits.length) ++ u ".0"
    else digits.take point.toNat ++ ch '.' :: digits.drop point.toNat
  else
    let exponent := point - 1
    let fraction := if digits.length = 1 then [] else ch '.' :: digits.tail
    let magnitude := natRepr exponent.natAbs
    digits.take 1 ++ fraction ++ ch 'e' :: (if exponent < 0 then ch '-' else ch '+') ::
      (zeros (2 - magnitude.length) ++ magnitude)

/-- `repr(x)`. -/
def floatRepr : PyFloat → Str
  | .finite x =>
    if x.val = 0 then u "0.0"
    else if x.val < 0 then ch '-' :: positiveRepr (-x.val)
    else positiveRepr x.val
  | .negZero => u "-0.0"
  | .inf negative => if negative then u "-inf" else u "inf"
  | .nan => u "nan"

example : floatRepr (readFloat (u "-5e-324")) = u "-5e-324" := by decide +kernel
example : floatRepr (readFloat (u "1.25E-5")) = u "1.25e-05" := by decide +kernel
example : floatRepr (readFloat (u "9007199254740993.0")) = u "9007199254740992.0" := by
  decide +kernel

end Python
