import Mathlib.Data.List.Lex
import Mathlib.Data.Prod.Lex
import McpTrust.Python.Text
import McpTrust.Core.Attribution

/-! # Values of an SQLite column

A column of TEXT affinity holds null, text or a blob. Storage classes come in
that order, and within one class the bytes are compared from the left; on text
that is the order of the code points.
-/

namespace Sqlite

set_option autoImplicit false

open Python

inductive SqlValue
  | null
  | text (s : Str)
  | blob (b : Bytes)
  deriving DecidableEq

namespace SqlValue

/-- Storage class, then content. -/
def key : SqlValue → ℕ ×ₗ List ℕ
  | null => toLex (0, [])
  | text s => toLex (1, s.map fun c => c.val)
  | blob b => toLex (2, b.map fun x => x.toNat)

theorem key_injective : Function.Injective key := by
  intro v w h
  cases v <;> cases w <;> simp only [key, EmbeddingLike.apply_eq_iff_eq, Prod.mk.injEq] at h
  case null.null => rfl
  case text.text s t => rw [List.map_injective_iff.mpr Fin.val_injective h.2]
  case blob.blob b d => rw [List.map_injective_iff.mpr (fun x y => UInt8.toNat.inj) h.2]
  all_goals omega

instance : LinearOrder SqlValue := LinearOrder.lift' key key_injective

theorem null_le (v : SqlValue) : null ≤ v := by
  change key null ≤ key v
  cases v with
  | null => exact le_refl _
  | text s => exact Prod.Lex.toLex_le_toLex.mpr (.inl Nat.zero_lt_one)
  | blob b => exact Prod.Lex.toLex_le_toLex.mpr (.inl Nat.zero_lt_two)

/-- `bool(value)`: null, the empty text and the empty blob are false. -/
def truthy : SqlValue → Bool
  | null => false
  | text s => decide (s ≠ [])
  | blob b => decide (b ≠ [])

/-- `MAX(column)` over the rows of one group. -/
def maximum (values : List SqlValue) : SqlValue := values.foldr max null

theorem le_maximum {v : SqlValue} {values : List SqlValue} (h : v ∈ values) : v ≤ maximum values := by
  induction values with
  | nil => cases h
  | cons w values ih =>
    obtain rfl | h := List.mem_cons.mp h
    · exact le_max_left _ _
    · exact (ih h).trans (le_max_right _ _)

theorem maximum_mem {values : List SqlValue} (h : values ≠ []) : maximum values ∈ values := by
  induction values with
  | nil => exact absurd rfl h
  | cons w values ih =>
    by_cases hnil : values = []
    · subst hnil
      have hmax : maximum [w] = w := max_eq_left (null_le w)
      rw [hmax]
      exact List.mem_singleton.mpr rfl
    · obtain hmax | hmax := max_choice w (maximum values)
      · have hw : maximum (w :: values) = w := hmax
        rw [hw]
        exact List.mem_cons_self
      · have hw : maximum (w :: values) = maximum values := hmax
        rw [hw]
        exact List.mem_cons_of_mem _ (ih hnil)

/-- `x NOT IN (values)` is true. Beside a null the comparison is unknown, not true. -/
def notIn (x : SqlValue) (values : List SqlValue) : Bool :=
  decide (values = []) || (decide (x ≠ null) && decide (null ∉ values) && decide (x ∉ values))

end SqlValue

end Sqlite
