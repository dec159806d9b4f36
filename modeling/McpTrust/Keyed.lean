import Mathlib.Data.List.Nodup
import Mathlib.Data.List.Basic
import McpTrust.Site.OperatorPackage

/-! # Lists with one item a key

`put` replaces the item of its key or appends a new one: the last item put under a
key is the one found there.
-/

namespace Keyed

set_option autoImplicit false

variable {α κ : Type*} [DecidableEq κ] (key : α → κ)

def put (items : List α) (x : α) : List α :=
  if key x ∈ items.map key then items.map fun y => if key y = key x then x else y else items ++ [x]

def find (items : List α) (k : κ) : Option α := items.find? fun y => decide (key y = k)

/-- The last of the items put under a key. -/
def last (puts : List α) (k : κ) : Option α := find key puts.reverse k

variable {key} {items puts : List α} {x y : α} {k : κ}

theorem find_cons : find key (x :: items) k = if key x = k then some x else find key items k := by
  rw [find, List.find?_cons]
  by_cases h : key x = k
  · rw [if_pos h, decide_eq_true h]
  · rw [if_neg h, decide_eq_false h]
    rfl

theorem find_append {more : List α} : find key (items ++ more) k = (find key items k).or (find key more k) :=
  List.find?_append

theorem mem_of_find (h : find key items k = some x) : x ∈ items ∧ key x = k :=
  ⟨List.mem_of_find?_eq_some h, of_decide_eq_true (List.find?_some (p := fun y => decide (key y = k)) h)⟩

theorem find_eq_none : find key items k = none ↔ k ∉ items.map key := by
  simp [find, List.find?_eq_none]

/-- With distinct keys every item is the one found under its key. -/
theorem find_eq_some (hnodup : (items.map key).Nodup) : find key items k = some x ↔ x ∈ items ∧ key x = k := by
  refine ⟨mem_of_find, ?_⟩
  rintro ⟨hmem, rfl⟩
  cases hfound : find key items (key x) with
  | none => exact absurd (List.mem_map_of_mem hmem) (find_eq_none.mp hfound)
  | some y =>
    obtain ⟨hy, hkey⟩ := mem_of_find hfound
    rw [List.inj_on_of_nodup_map hnodup hy hmem hkey]

theorem keys_put : (put key items x).map key =
    if key x ∈ items.map key then items.map key else items.map key ++ [key x] := by
  unfold put
  split_ifs with h
  · rw [List.map_map]
    refine List.map_congr_left fun y _ => ?_
    rw [Function.comp_apply]
    split_ifs with hy
    · exact hy.symm
    · rfl
  · rw [List.map_append, List.map_singleton]

theorem nodup_put (h : (items.map key).Nodup) : ((put key items x).map key).Nodup := by
  rw [keys_put]
  split_ifs with hx
  · exact h
  · rw [← List.concat_eq_append]
    exact h.concat hx

theorem find_map_replaced :
    find key (items.map fun y => if key y = key x then x else y) k =
      if key x = k then (find key items k).map fun _ => x else find key items k := by
  induction items with
  | nil => simp [find]
  | cons y items ih =>
    rw [List.map_cons, find_cons, find_cons, ih]
    by_cases hy : key y = key x
    · by_cases hk : key x = k
      · simp [hy, hk]
      · simp [hy, hk]
    · by_cases hk : key x = k
      · have hyk : key y ≠ k := fun h => hy (h.trans hk.symm)
        simp [hk, hyk]
      · simp [hy, hk]

theorem find_put : find key (put key items x) k = if key x = k then some x else find key items k := by
  unfold put
  split_ifs with hmem hk hk
  · rw [find_map_replaced, if_pos hk]
    subst hk
    cases hfound : find key items (key x) with
    | none => exact absurd hmem (find_eq_none.mp hfound)
    | some y => rfl
  · rw [find_map_replaced, if_neg hk]
  · subst hk
    rw [find_append, find_eq_none.mpr hmem, find_cons, if_pos rfl]
    rfl
  · rw [find_append, find_cons, if_neg hk]
    exact Option.or_none

theorem nodup_foldl_put (h : (items.map key).Nodup) : ((puts.foldl (put key) items).map key).Nodup := by
  induction puts generalizing items with
  | nil => exact h
  | cons x puts ih => exact ih (nodup_put h)

/-- The last item put under a key wins, whatever was put in between. -/
theorem find_foldl_put : find key (puts.foldl (put key) items) k = (last key puts k).or (find key items k) := by
  induction puts generalizing items with
  | nil => rfl
  | cons x puts ih =>
    rw [List.foldl_cons, ih, find_put, last, last, List.reverse_cons, find_append, find_cons]
    cases hlast : find key puts.reverse k with
    | some y => rfl
    | none =>
      by_cases hk : key x = k
      · rw [if_pos hk, if_pos hk]
        rfl
      · rw [if_neg hk, if_neg hk]
        rfl

theorem mem_foldl_put (hx : x ∈ puts.foldl (put key) []) : last key puts (key x) = some x := by
  have hnodup : ((puts.foldl (put key) []).map key).Nodup := nodup_foldl_put List.nodup_nil
  have hfound := (find_eq_some hnodup).mpr ⟨hx, rfl⟩
  rw [find_foldl_put] at hfound
  simpa [find] using hfound

end Keyed
