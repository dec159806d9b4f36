import McpTrust.Python.PyFloat
import McpTrust.Python.DateTime

/-! # Fixed-point text and rounding errors

The `.1f` format, `round` of a float, and how far one rounding moves a value of
moderate size.
-/

namespace Python

set_option autoImplicit false

/-! ## Fixed-point text -/

/-- `n` hundredths, tenths and so on. -/
def fixedText (digits n : Nat) : Str :=
  let fraction := natRepr (n % 10 ^ digits)
  natRepr (n / 10 ^ digits) ++ ch '.' :: (zeros (digits - fraction.length) ++ fraction)

/-- `f"{x:.<digits>f}"`. -/
def formatFixed (digits : Nat) : PyFloat → Str
  | .finite x =>
    let text := fixedText digits (roundHalfEven (|x.val| * 10 ^ digits)).toNat
    if x.val < 0 then ch '-' :: text else text
  | .negZero => ch '-' :: fixedText digits 0
  | .inf negative => if negative then u "-inf" else u "inf"
  | .nan => u "nan"

/-- The number that the text of `q` stands for. -/
def fixedValue (digits : Nat) (q : ℚ) : ℚ := roundHalfEven (q * 10 ^ digits) / 10 ^ digits

/-- `round(x, digits)`. -/
def roundFloat (digits : Nat) : PyFloat → PyFloat
  | .finite x => .ofRat (fixedValue digits x.val)
  | x => x

theorem fixedValue_near (digits : Nat) (q : ℚ) : |fixedValue digits q - q| ≤ 1 / (2 * 10 ^ digits) := by
  have hpos : (0 : ℚ) < 10 ^ digits := by positivity
  have herror := roundHalfEven_error (q * 10 ^ digits)
  have hscaled : fixedValue digits q - q = (roundHalfEven (q * 10 ^ digits) - q * 10 ^ digits) / 10 ^ digits := by
    rw [fixedValue, sub_div, mul_div_cancel_right₀ _ hpos.ne']
  rw [hscaled, abs_div, abs_of_pos hpos, div_le_iff₀ hpos]
  calc |(roundHalfEven (q * 10 ^ digits) : ℚ) - q * 10 ^ digits| ≤ 1 / 2 := herror
    _ = 1 / (2 * 10 ^ digits) * 10 ^ digits := by field_simp

/-! ## The error of one operation -/

/-- More than the rounding error of a value up to 256. -/
def ulpBound : ℚ := 1 / 10 ^ 9

theorem ilog2_le {x : ℚ} (hx : x ≠ 0) {k : ℤ} (h : |x| < 2 ^ (k + 1)) : ilog2 x ≤ k := by
  by_contra hlt
  rw [not_le] at hlt
  have hpow : (2 : ℚ) ^ (k + 1) ≤ 2 ^ ilog2 x := zpow_le_zpow_right₀ (by norm_num) hlt
  exact absurd ((hpow.trans (ilog2_spec hx).1).trans_lt h) (lt_irrefl _)

theorem fl_near {x : ℚ} (h : |x| ≤ 256) : |fl x - x| ≤ ulpBound := by
  by_cases hx : x = 0
  · rw [hx, fl_zero, sub_zero, abs_zero]
    norm_num [ulpBound]
  · have hlog : ilog2 x ≤ 8 := by
      apply ilog2_le hx
      calc |x| ≤ 256 := h
        _ < 2 ^ ((8 : ℤ) + 1) := by norm_num
    have hexponent : ulpExponent x ≤ -44 := by
      unfold ulpExponent
      omega
    have hpos : (0 : ℚ) < 2 ^ ulpExponent x := by positivity
    have hscaled : fl x - x =
        (roundHalfEven (x / (2 : ℚ) ^ ulpExponent x) - x / (2 : ℚ) ^ ulpExponent x) * 2 ^ ulpExponent x := by
      rw [fl_eq hx, sub_mul, div_mul_cancel₀ _ hpos.ne']
    rw [hscaled, abs_mul, abs_of_pos hpos]
    calc |(roundHalfEven (x / (2 : ℚ) ^ ulpExponent x) : ℚ) - x / (2 : ℚ) ^ ulpExponent x| * 2 ^ ulpExponent x
        ≤ 1 / 2 * 2 ^ ulpExponent x := mul_le_mul_of_nonneg_right (roundHalfEven_error _) hpos.le
      _ ≤ 1 / 2 * 2 ^ (-44 : ℤ) :=
        mul_le_mul_of_nonneg_left (zpow_le_zpow_right₀ (by norm_num) hexponent) (by norm_num)
      _ ≤ ulpBound := by norm_num [ulpBound]

/-- A float near a rational of moderate size. -/
def Near (x : PyFloat) (q error : ℚ) : Prop := ∃ r, x.value? = some r ∧ |r - q| ≤ error

theorem Near.mono {x : PyFloat} {q error error' : ℚ} (h : Near x q error) (hle : error ≤ error') :
    Near x q error' := by
  obtain ⟨r, hr, hnear⟩ := h
  exact ⟨r, hr, hnear.trans hle⟩

theorem near_ofRat {q : ℚ} (h : |q| ≤ 256) : Near (.ofRat q) q ulpBound := by
  have hnear := fl_near h
  have hsmall : |fl q| < 2 ^ 1024 := by
    have hsplit : |fl q| ≤ |fl q - q| + |q| := by
      calc |fl q| = |(fl q - q) + q| := by rw [sub_add_cancel]
        _ ≤ |fl q - q| + |q| := abs_add_le _ _
    have hbound : ulpBound ≤ 1 := by norm_num [ulpBound]
    calc |fl q| ≤ 257 := by linarith
      _ < 2 ^ 9 := by norm_num
      _ ≤ 2 ^ 1024 := pow_le_pow_right₀ (by norm_num) (by norm_num)
  refine ⟨fl q, ?_, hnear⟩
  rw [PyFloat.ofRat, dif_pos hsmall]
  rfl

theorem near_roundFloat {x : PyFloat} {q : ℚ} (hx : x.value? = some q) (h : |q| ≤ 255) (digits : Nat) :
    Near (roundFloat digits x) q (1 / (2 * 10 ^ digits) + ulpBound) := by
  have hhalf : (1 : ℚ) / (2 * 10 ^ digits) ≤ 1 / 2 := by
    apply one_div_le_one_div_of_le (by norm_num)
    have hone : (1 : ℚ) ≤ 10 ^ digits := one_le_pow₀ (by norm_num)
    linarith
  have hbound : (0 : ℚ) ≤ ulpBound := by norm_num [ulpBound]
  cases x with
  | finite x =>
    cases hx
    have hfixed := fixedValue_near digits x.val
    have hmoderate : |fixedValue digits x.val| ≤ 256 := by
      calc |fixedValue digits x.val| = |(fixedValue digits x.val - x.val) + x.val| := by rw [sub_add_cancel]
        _ ≤ |fixedValue digits x.val - x.val| + |x.val| := abs_add_le _ _
        _ ≤ 256 := by linarith
    obtain ⟨r, hr, hnear⟩ := near_ofRat hmoderate
    refine ⟨r, hr, ?_⟩
    calc |r - x.val| = |(r - fixedValue digits x.val) + (fixedValue digits x.val - x.val)| := by
          rw [sub_add_sub_cancel]
      _ ≤ |r - fixedValue digits x.val| + |fixedValue digits x.val - x.val| := abs_add_le _ _
      _ ≤ 1 / (2 * 10 ^ digits) + ulpBound := by linarith
  | negZero =>
    cases hx
    refine ⟨0, rfl, ?_⟩
    rw [sub_self, abs_zero]
    positivity
  | _ => cases hx

end Python
