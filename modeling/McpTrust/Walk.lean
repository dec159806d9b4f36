import Mathlib.Data.List.Perm.Subperm
import Mathlib.Logic.Relation
import Mathlib.Tactic
import McpTrust.Site.DangerScore

/-! # Walks with a visited set

Following a partial function and stopping at the first repeated vertex. On a finite
domain every walk ends, and where every walk leaves the domain no vertex reaches itself.
-/

namespace Walk

set_option autoImplicit false

variable {α : Type*} [DecidableEq α] {next : α → Option α}

/-- `true` when the walk leaves the domain, `false` when it repeats a vertex, `none` while it runs. -/
def walk (next : α → Option α) : Nat → List α → α → Option Bool
  | 0, _, _ => none
  | fuel + 1, seen, a =>
    match next a with
    | none => some true
    | some b => if a ∈ seen then some false else walk next fuel (a :: seen) b

theorem walk_ends {domain : List α} (hdomain : ∀ a b, next a = some b → a ∈ domain) {fuel : Nat}
    {seen : List α} {a : α} (hnodup : seen.Nodup) (hseen : seen ⊆ domain)
    (hfuel : domain.length < fuel + seen.length) : ∃ verdict, walk next fuel seen a = some verdict := by
  induction fuel generalizing seen a with
  | zero =>
    have hle : seen.length ≤ domain.length := (List.subperm_of_subset hnodup hseen).length_le
    omega
  | succ fuel ih =>
    rw [walk]
    cases hnext : next a with
    | none => exact ⟨true, rfl⟩
    | some b =>
      dsimp only
      split_ifs with hrepeated
      · exact ⟨false, rfl⟩
      · apply ih
        · exact List.nodup_cons.mpr ⟨hrepeated, hnodup⟩
        · exact List.cons_subset.mpr ⟨hdomain a b hnext, hseen⟩
        · rw [List.length_cons]
          omega

theorem walk_mono {fuel fuel' : Nat} {seen : List α} {a : α} {verdict : Bool}
    (h : walk next fuel seen a = some verdict) (hle : fuel ≤ fuel') : walk next fuel' seen a = some verdict := by
  induction fuel generalizing fuel' seen a with
  | zero => cases h
  | succ fuel ih =>
    obtain ⟨fuel', rfl⟩ := Nat.exists_eq_add_of_le' (Nat.one_le_of_lt hle)
    rw [walk] at h ⊢
    cases hnext : next a with
    | none =>
      rw [hnext] at h
      exact h
    | some b =>
      rw [hnext] at h
      dsimp only at h ⊢
      split_ifs at h ⊢ with hrepeated
      · exact h
      · exact ih h (by omega)

/-- A walk that leaves the domain starts at an accessible vertex. -/
theorem acc_of_walk {fuel : Nat} {seen : List α} {a : α} (h : walk next fuel seen a = some true) :
    Acc (fun b a => next a = some b) a := by
  induction fuel generalizing seen a with
  | zero => cases h
  | succ fuel ih =>
    rw [walk] at h
    constructor
    intro b hnext
    rw [hnext] at h
    dsimp only at h
    split_ifs at h
    · cases h
    · exact ih h

/-- No vertex whose walk leaves the domain is reachable from itself. -/
theorem acyclic_of_walk {fuel : Nat} {seen : List α} {a : α} (h : walk next fuel seen a = some true) :
    ¬Relation.TransGen (fun a b => next a = some b) a a := by
  have hacc := (acc_of_walk h).transGen
  clear h
  induction hacc with
  | intro a _ ih =>
    intro hcycle
    have hback : Relation.TransGen (fun b a => next a = some b) a a := Relation.transGen_swap.mpr hcycle
    exact ih a hback hcycle

/-- A walk that repeats a vertex has closed a cycle: what was seen leads to where it stands. -/
theorem cycle_of_walk {fuel : Nat} {seen : List α} {a : α}
    (hseen : ∀ s ∈ seen, Relation.TransGen (fun a b => next a = some b) s a)
    (h : walk next fuel seen a = some false) : ∃ b, Relation.TransGen (fun a b => next a = some b) b b := by
  induction fuel generalizing seen a with
  | zero => cases h
  | succ fuel ih =>
    rw [walk] at h
    cases hnext : next a with
    | none =>
      rw [hnext] at h
      cases h
    | some b =>
      rw [hnext] at h
      dsimp only at h
      split_ifs at h with hrepeated
      · exact ⟨a, hseen a hrepeated⟩
      · apply ih _ h
        intro s hs
        obtain rfl | hs := List.mem_cons.mp hs
        · exact .single hnext
        · exact (hseen s hs).tail hnext

end Walk
