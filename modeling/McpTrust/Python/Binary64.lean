import Mathlib.Data.Rat.Floor
import Mathlib.Algebra.Order.Floor.Ring
import Mathlib.Algebra.Order.Field.Power
import Mathlib.Data.Nat.Log
import Mathlib.Tactic
import McpTrust.Transition

/-! # Rounding to IEEE binary64

`fl` rounds a rational to the nearest double, ties to even, with the exponent
bounded below and unbounded above; the overflow threshold is applied by the
caller. Every operation on finite floats is `fl` of the exact result.
-/

namespace Python

set_option autoImplicit false

def pow2 (k : ℤ) : ℚ := if 0 ≤ k then ((2 ^ k.toNat : ℕ) : ℚ) else mkRat 1 (2 ^ (-k).toNat)

theorem pow2_eq (k : ℤ) : pow2 k = (2 : ℚ) ^ k := by
  unfold pow2
  split_ifs with h
  · obtain ⟨n, rfl⟩ := Int.eq_ofNat_of_zero_le h
    simp
  · obtain ⟨n, hn⟩ := Int.eq_ofNat_of_zero_le (show 0 ≤ -k by omega)
    have hk : k = -(n : ℤ) := by omega
    subst hk
    simp [Rat.mkRat_eq_div]

/-- The exponent of the leading binary digit of a nonzero rational. -/
def ilog2 (x : ℚ) : ℤ :=
  let k : ℤ := (Nat.log2 x.num.natAbs : ℤ) - (Nat.log2 x.den : ℤ)
  if pow2 k ≤ |x| then k else k - 1

theorem abs_eq_natAbs_div (x : ℚ) : |x| = (x.num.natAbs : ℚ) / (x.den : ℚ) := by
  conv_lhs => rw [← Rat.num_div_den x]
  rw [abs_div, Nat.abs_cast, ← Int.cast_abs, Int.abs_eq_natAbs, Int.cast_natCast]

theorem log2_bounds {n : ℕ} (hn : n ≠ 0) :
    (2 : ℚ) ^ (Nat.log2 n : ℤ) ≤ n ∧ (n : ℚ) < 2 ^ ((Nat.log2 n : ℤ) + 1) := by
  have hle : 2 ^ Nat.log2 n ≤ n := Nat.log2_self_le hn
  have hlt : n < 2 ^ (Nat.log2 n + 1) := Nat.lt_log2_self
  constructor
  · rw [zpow_natCast]
    exact_mod_cast hle
  · rw [← Nat.cast_succ, zpow_natCast]
    exact_mod_cast hlt

theorem ilog2_spec {x : ℚ} (hx : x ≠ 0) : (2 : ℚ) ^ ilog2 x ≤ |x| ∧ |x| < 2 ^ (ilog2 x + 1) := by
  have hnum : x.num.natAbs ≠ 0 := by simpa using hx
  obtain ⟨hnl, hnu⟩ := log2_bounds hnum
  obtain ⟨hdl, hdu⟩ := log2_bounds x.den_nz
  have hden : (0 : ℚ) < x.den := by exact_mod_cast x.den_pos
  have hupper : |x| < 2 ^ ((Nat.log2 x.num.natAbs : ℤ) - (Nat.log2 x.den : ℤ) + 1) := by
    rw [abs_eq_natAbs_div, div_lt_iff₀ hden]
    calc (x.num.natAbs : ℚ) < 2 ^ ((Nat.log2 x.num.natAbs : ℤ) + 1) := hnu
      _ = 2 ^ ((Nat.log2 x.num.natAbs : ℤ) - (Nat.log2 x.den : ℤ) + 1) *
          2 ^ (Nat.log2 x.den : ℤ) := by rw [← zpow_add₀ (by norm_num)]; congr 1; ring
      _ ≤ _ := mul_le_mul_of_nonneg_left hdl (by positivity)
  have hlower : (2 : ℚ) ^ ((Nat.log2 x.num.natAbs : ℤ) - (Nat.log2 x.den : ℤ) - 1) ≤ |x| := by
    rw [abs_eq_natAbs_div, le_div_iff₀ hden]
    calc (2 : ℚ) ^ ((Nat.log2 x.num.natAbs : ℤ) - (Nat.log2 x.den : ℤ) - 1) * x.den
        ≤ 2 ^ ((Nat.log2 x.num.natAbs : ℤ) - (Nat.log2 x.den : ℤ) - 1) *
          2 ^ ((Nat.log2 x.den : ℤ) + 1) := mul_le_mul_of_nonneg_left hdu.le (by positivity)
      _ = 2 ^ (Nat.log2 x.num.natAbs : ℤ) := by rw [← zpow_add₀ (by norm_num)]; congr 1; ring
      _ ≤ _ := hnl
  unfold ilog2
  dsimp only
  split_ifs with h
  · rw [pow2_eq] at h
    exact ⟨h, hupper⟩
  · rw [pow2_eq, not_le] at h
    exact ⟨hlower, by simpa using h⟩

/-- The integer nearest to `q`, ties to even. -/
def roundHalfEven (q : ℚ) : ℤ :=
  let f := ⌊q⌋
  if 2 * (q - f) < 1 then f
  else if 1 < 2 * (q - f) then f + 1
  else if f % 2 = 0 then f else f + 1

theorem roundHalfEven_intCast (n : ℤ) : roundHalfEven (n : ℚ) = n := by
  simp [roundHalfEven]

theorem floor_le_roundHalfEven (q : ℚ) : ⌊q⌋ ≤ roundHalfEven q := by
  unfold roundHalfEven
  dsimp only
  split_ifs <;> omega

theorem roundHalfEven_le_floor_add_one (q : ℚ) : roundHalfEven q ≤ ⌊q⌋ + 1 := by
  unfold roundHalfEven
  dsimp only
  split_ifs <;> omega

theorem roundHalfEven_mono {p q : ℚ} (h : p ≤ q) : roundHalfEven p ≤ roundHalfEven q := by
  rcases (Int.floor_le_floor h).lt_or_eq with hlt | heq
  · have h1 := roundHalfEven_le_floor_add_one p
    have h2 := floor_le_roundHalfEven q
    omega
  · unfold roundHalfEven
    dsimp only
    rw [heq]
    split_ifs <;> first | omega | (exfalso; linarith)

theorem roundHalfEven_error (q : ℚ) : |(roundHalfEven q : ℚ) - q| ≤ 1 / 2 := by
  have hl := Int.floor_le q
  have hu := Int.lt_floor_add_one q
  unfold roundHalfEven
  dsimp only
  rw [abs_le]
  split_ifs <;> push_cast <;> constructor <;> linarith

/-- The exponent of the last place of the double nearest to `x`. -/
def ulpExponent (x : ℚ) : ℤ := max (ilog2 x - 52) (-1074)

/-- Round to nearest, ties to even, 53 significant bits. -/
def fl (x : ℚ) : ℚ :=
  if x = 0 then 0 else roundHalfEven (x / pow2 (ulpExponent x)) * pow2 (ulpExponent x)

/-- `x` is an integer multiple of a last place no larger than the format allows. -/
def OnGrid (x : ℚ) : Prop := ∃ m e : ℤ, |m| ≤ 2 ^ 53 ∧ -1074 ≤ e ∧ x = m * (2 : ℚ) ^ e

theorem fl_eq {x : ℚ} (hx : x ≠ 0) :
    fl x = roundHalfEven (x / (2 : ℚ) ^ ulpExponent x) * (2 : ℚ) ^ ulpExponent x := by
  rw [fl, if_neg hx, pow2_eq]

theorem abs_div_ulp_lt {x : ℚ} (hx : x ≠ 0) : |x / (2 : ℚ) ^ ulpExponent x| < 2 ^ (53 : ℤ) := by
  have hpos : (0 : ℚ) < 2 ^ ulpExponent x := by positivity
  rw [abs_div, abs_of_pos hpos, div_lt_iff₀ hpos, ← zpow_add₀ (by norm_num)]
  refine (ilog2_spec hx).2.trans_le (zpow_le_zpow_right₀ (by norm_num) ?_)
  have := le_max_left (ilog2 x - 52) (-1074)
  unfold ulpExponent
  omega

theorem fl_onGrid (x : ℚ) : OnGrid (fl x) := by
  by_cases hx : x = 0
  · exact ⟨0, 0, by norm_num, by norm_num, by simp [fl, hx]⟩
  · refine ⟨_, _, ?_, le_max_right _ _, fl_eq hx⟩
    have habs := abs_lt.mp (abs_div_ulp_lt hx)
    have hlow := roundHalfEven_mono (p := ((-(2 ^ 53) : ℤ) : ℚ)) (by push_cast; exact_mod_cast habs.1.le)
    have hhigh := roundHalfEven_mono (q := ((2 ^ 53 : ℤ) : ℚ)) (by push_cast; exact_mod_cast habs.2.le)
    rw [roundHalfEven_intCast] at hlow hhigh
    exact abs_le.mpr ⟨by linarith, hhigh⟩

theorem fl_of_onGrid_lt {m e : ℤ} (hm : |m| < 2 ^ 53) (he : -1074 ≤ e) :
    fl (m * (2 : ℚ) ^ e) = m * (2 : ℚ) ^ e := by
  by_cases hx : (m : ℚ) * (2 : ℚ) ^ e = 0
  · rw [hx]
    simp [fl]
  · have hexp : ulpExponent (m * (2 : ℚ) ^ e) ≤ e := by
      have hlt : |(m : ℚ) * (2 : ℚ) ^ e| < 2 ^ (e + 53) := by
        have hm' : |(m : ℚ)| < (2 : ℚ) ^ (53 : ℤ) := by exact_mod_cast hm
        rw [abs_mul, abs_of_pos (show (0 : ℚ) < 2 ^ e by positivity), add_comm,
          zpow_add₀ (by norm_num)]
        exact mul_lt_mul_of_pos_right hm' (by positivity)
      have hlog := (zpow_lt_zpow_iff_right₀ (by norm_num)).mp ((ilog2_spec hx).1.trans_lt hlt)
      exact max_le (by omega) he
    obtain ⟨n, hn⟩ := Int.eq_ofNat_of_zero_le (show 0 ≤ e - ulpExponent (m * (2 : ℚ) ^ e) by omega)
    have hq : (m : ℚ) * (2 : ℚ) ^ e / 2 ^ ulpExponent (m * (2 : ℚ) ^ e) = ((m * 2 ^ n : ℤ) : ℚ) := by
      rw [mul_div_assoc, ← zpow_sub₀ (by norm_num), hn]
      push_cast
      rw [zpow_natCast]
    rw [fl_eq hx, hq, roundHalfEven_intCast, ← hq, div_mul_cancel₀ _ (by positivity)]

theorem fl_of_onGrid {x : ℚ} (h : OnGrid x) : fl x = x := by
  obtain ⟨m, e, hm, he, rfl⟩ := h
  rcases hm.lt_or_eq with hlt | heq
  · exact fl_of_onGrid_lt hlt he
  · have half : (m : ℚ) * (2 : ℚ) ^ e = ((m / 2 : ℤ) : ℚ) * (2 : ℚ) ^ (e + 1) := by
      have hdvd : m = 2 * (m / 2) := by
        rcases abs_choice m with h | h <;> rw [h] at heq <;> omega
      rw [zpow_add_one₀ (by norm_num)]
      conv_lhs => rw [hdvd]
      push_cast
      ring
    rw [half]
    apply fl_of_onGrid_lt _ (by omega)
    rcases abs_choice m with h | h <;> rw [h] at heq <;> rw [abs_lt] <;> omega

theorem fl_fl (x : ℚ) : fl (fl x) = fl x := fl_of_onGrid (fl_onGrid x)

@[simp] theorem fl_zero : fl 0 = 0 := by simp [fl]

end Python
