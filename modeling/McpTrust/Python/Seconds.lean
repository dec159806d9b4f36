import McpTrust.Python.DateTime
import McpTrust.Python.FixedPoint
import McpTrust.Python.FloatRepr
import McpTrust.Refresh.Codec

/-! # Whole seconds

`timedelta.total_seconds()` rounds, but never across a whole number of seconds of
moderate size.
-/

namespace Python

set_option autoImplicit false

theorem half_le_fl {q : ℚ} (hq : 1 ≤ q) : q / 2 ≤ fl q := by
  have hpos : 0 < q := by linarith
  obtain ⟨hlow, hhigh⟩ := ilog2_spec hpos.ne'
  rw [abs_of_pos hpos] at hlow hhigh
  have hlog : 0 ≤ ilog2 q := by
    have hone : (2 : ℚ) ^ (0 : ℤ) < 2 ^ (ilog2 q + 1) := by
      rw [zpow_zero]
      exact hq.trans_lt hhigh
    have := (zpow_lt_zpow_iff_right₀ (show (1 : ℚ) < 2 by norm_num)).mp hone
    omega
  have hulp : ulpExponent q ≤ ilog2 q := by
    unfold ulpExponent
    omega
  have hscale : (0 : ℚ) < 2 ^ ulpExponent q := by positivity
  have hplace : (2 : ℚ) ^ ulpExponent q ≤ q := (zpow_le_zpow_right₀ (by norm_num) hulp).trans hlow
  have herror := (abs_le.mp (roundHalfEven_error (q / 2 ^ ulpExponent q))).1
  have hbound : q / 2 ^ ulpExponent q - 1 / 2 ≤ roundHalfEven (q / 2 ^ ulpExponent q) := by linarith
  rw [fl_eq hpos.ne']
  calc q / 2 ≤ q - 1 / 2 * 2 ^ ulpExponent q := by linarith
    _ = (q / 2 ^ ulpExponent q - 1 / 2) * 2 ^ ulpExponent q := by
        rw [sub_mul, div_mul_cancel₀ _ hscale.ne']
    _ ≤ _ := mul_le_mul_of_nonneg_right hbound hscale.le

/-- Rounding a number of microseconds does not move it across a whole number of seconds. -/
theorem totalSeconds_trichotomy (delta : ℤ) {m : ℤ} (hm : |(m : ℚ)| ≤ 120) (hexact : fl m = m) :
    delta < m * 1000000 ∧ DateTime.totalSeconds delta < m ∨
      delta = m * 1000000 ∧ DateTime.totalSeconds delta = m ∨ m * 1000000 < delta ∧ m < DateTime.totalSeconds delta := by
  obtain ⟨hm₁, hm₂⟩ := abs_le.mp hm
  have hvalue : (delta : ℚ) = delta / 1000000 * 1000000 := by ring
  rw [DateTime.totalSeconds]
  obtain hlt | rfl | hgt := lt_trichotomy delta (m * 1000000)
  · refine .inl ⟨hlt, ?_⟩
    have hle : (delta : ℚ) + 1 ≤ m * 1000000 := by exact_mod_cast Int.add_one_le_iff.mpr hlt
    by_cases hsmall : |(delta : ℚ) / 1000000| ≤ 256
    · have hnear := (abs_le.mp (fl_near hsmall)).2
      rw [ulpBound] at hnear
      linarith
    · -- far below, and half as far after rounding
      have hfar : (delta : ℚ) / 1000000 < -256 := by
        by_contra hnot
        exact hsmall (abs_le.mpr ⟨by linarith, by linarith⟩)
      have hhalf := half_le_fl (show 1 ≤ -((delta : ℚ) / 1000000) by linarith)
      rw [fl_neg] at hhalf
      linarith
  · refine .inr (.inl ⟨rfl, ?_⟩)
    rw [show ((m * 1000000 : ℤ) : ℚ) / 1000000 = m by push_cast; ring, hexact]
  · refine .inr (.inr ⟨hgt, ?_⟩)
    have hle : (m : ℚ) * 1000000 + 1 ≤ delta := by exact_mod_cast Int.add_one_le_iff.mpr hgt
    by_cases hsmall : |(delta : ℚ) / 1000000| ≤ 256
    · have hnear := (abs_le.mp (fl_near hsmall)).1
      rw [ulpBound] at hnear
      linarith
    · have hfar : 256 < (delta : ℚ) / 1000000 := by
        by_contra hnot
        exact hsmall (abs_le.mpr ⟨by linarith, by linarith⟩)
      have hhalf := half_le_fl (show 1 ≤ (delta : ℚ) / 1000000 by linarith)
      linarith

theorem totalSeconds_lt (delta : ℤ) {m : ℤ} (hm : |(m : ℚ)| ≤ 120) (hexact : fl m = m) :
    DateTime.totalSeconds delta < m ↔ delta < m * 1000000 := by
  obtain ⟨hdelta, hseconds⟩ | ⟨hdelta, hseconds⟩ | ⟨hdelta, hseconds⟩ := totalSeconds_trichotomy delta hm hexact
  · exact iff_of_true hseconds hdelta
  · exact iff_of_false hseconds.not_lt hdelta.not_lt
  · exact iff_of_false hseconds.not_gt hdelta.not_gt

theorem lt_totalSeconds (delta : ℤ) {m : ℤ} (hm : |(m : ℚ)| ≤ 120) (hexact : fl m = m) :
    m < DateTime.totalSeconds delta ↔ m * 1000000 < delta := by
  obtain ⟨hdelta, hseconds⟩ | ⟨hdelta, hseconds⟩ | ⟨hdelta, hseconds⟩ := totalSeconds_trichotomy delta hm hexact
  · exact iff_of_false hseconds.not_gt hdelta.not_gt
  · exact iff_of_false hseconds.not_gt hdelta.not_gt
  · exact iff_of_true hseconds hdelta

end Python
