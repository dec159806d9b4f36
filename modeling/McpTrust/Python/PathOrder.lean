import Mathlib.Data.List.Sort
import McpTrust.Python.Text
import McpTrust.Python.Numeral

/-! # The order of paths

Path objects compare the lists of their parts; strings compare the characters of
the joined path. The two differ where one part is the head of the other and goes
on with a character before the slash.
-/

namespace Python

set_option autoImplicit false

/-- `"/".join(parts)`. -/
def posix : List Str → Str
  | [] => []
  | part :: rest => part ++ rest.flatMap fun c => ch '/' :: c

/-- `a <= b` on lists of strings compares the first parts that differ. -/
def partsLe : List Str → List Str → Bool
  | [], _ => true
  | _ :: _, [] => false
  | a :: as, b :: bs => if a = b then partsLe as bs else strLe a b

/-- A part of a path that is there. -/
structure IsPart (s : Str) : Prop where
  nonempty : s ≠ []
  plain : ch '/' ∉ s
  self : s ≠ u "."
  parent : s ≠ u ".."

instance (s : Str) : Decidable (IsPart s) :=
  decidable_of_iff (s ≠ [] ∧ ch '/' ∉ s ∧ s ≠ u "." ∧ s ≠ u "..")
    ⟨fun ⟨h₁, h₂, h₃, h₄⟩ => ⟨h₁, h₂, h₃, h₄⟩, fun h => ⟨h.nonempty, h.plain, h.self, h.parent⟩⟩

/-- `p` goes below a directory and a sibling's name extends the directory's below the slash. -/
def Crossed (p q : List Str) : Prop :=
  ∃ above dir c r below rest, p = above ++ dir :: below ∧ below ≠ [] ∧
    q = above ++ (dir ++ c :: r) :: rest ∧ c.val < (ch '/').val

/-! ## The order of parts -/

theorem partsLe_refl (p : List Str) : partsLe p p = true := by
  induction p with
  | nil => rfl
  | cons a p ih => rw [partsLe, if_pos rfl, ih]

theorem partsLe_total (p q : List Str) : partsLe p q = true ∨ partsLe q p = true := by
  induction p generalizing q with
  | nil => exact .inl rfl
  | cons a p ih =>
    cases q with
    | nil => exact .inr rfl
    | cons b q =>
      by_cases hab : a = b
      · rw [partsLe, if_pos hab, partsLe, if_pos hab.symm]
        exact ih q
      · rw [partsLe, if_neg hab, partsLe, if_neg (Ne.symm hab)]
        exact strLe_total a b

theorem partsLe_antisymm {p q : List Str} (hpq : partsLe p q = true) (hqp : partsLe q p = true) : p = q := by
  induction p generalizing q with
  | nil =>
    cases q with
    | nil => rfl
    | cons b q => cases hqp
  | cons a p ih =>
    cases q with
    | nil => cases hpq
    | cons b q =>
      by_cases hab : a = b
      · rw [partsLe, if_pos hab] at hpq
        rw [partsLe, if_pos hab.symm] at hqp
        rw [hab, ih hpq hqp]
      · rw [partsLe, if_neg hab] at hpq
        rw [partsLe, if_neg (Ne.symm hab)] at hqp
        exact absurd (strLe_antisymm hpq hqp) hab

theorem partsLe_trans {p q r : List Str} (hpq : partsLe p q = true) (hqr : partsLe q r = true) :
    partsLe p r = true := by
  induction p generalizing q r with
  | nil => rfl
  | cons a p ih =>
    cases q with
    | nil => cases hpq
    | cons b q =>
      cases r with
      | nil => cases hqr
      | cons c r =>
        by_cases hab : a = b
        · subst hab
          rw [partsLe, if_pos rfl] at hpq
          by_cases hac : a = c
          · rw [partsLe, if_pos hac] at hqr ⊢
            exact ih hpq hqr
          · rw [partsLe, if_neg hac] at hqr ⊢
            exact hqr
        · rw [partsLe, if_neg hab] at hpq
          by_cases hbc : b = c
          · subst hbc
            rw [partsLe, if_neg hab]
            exact hpq
          · rw [partsLe, if_neg hbc] at hqr
            have hac : a ≠ c := by
              rintro rfl
              exact hab (strLe_antisymm hpq hqr)
            rw [partsLe, if_neg hac]
            exact strLe_trans hpq hqr

/-! ## The order of joined paths -/

theorem strLe_append (s t t' : Str) : strLe (s ++ t) (s ++ t') = strLe t t' := by
  induction s with
  | nil => rfl
  | cons c s ih => simp [strLe, ih]

theorem strLe_prefix (s t : Str) : strLe s (s ++ t) = true := by
  have h := strLe_append s [] t
  rw [List.append_nil] at h
  rw [h]
  rfl

/-- The later of two strings goes on after the earlier, or has a later character where they part. -/
theorem strLe_cases {a b : Str} (hle : strLe a b = true) (hne : a ≠ b) :
    (∃ c r, b = a ++ c :: r) ∨ ∃ s x y a' b', a = s ++ x :: a' ∧ b = s ++ y :: b' ∧ x.val < y.val := by
  induction a generalizing b with
  | nil =>
    cases b with
    | nil => exact absurd rfl hne
    | cons c r => exact .inl ⟨c, r, rfl⟩
  | cons x a ih =>
    cases b with
    | nil => cases hle
    | cons y b =>
      simp only [strLe, Bool.or_eq_true, Bool.and_eq_true, decide_eq_true_eq] at hle
      obtain hlt | ⟨heq, hle⟩ := hle
      · exact .inr ⟨[], x, y, a, b, rfl, rfl, hlt⟩
      · obtain rfl := Fin.ext heq
        obtain ⟨c, r, rfl⟩ | ⟨s, x', y', a', b', rfl, rfl, hlt⟩ := ih hle fun h => hne (congrArg _ h)
        · exact .inl ⟨c, r, rfl⟩
        · exact .inr ⟨x :: s, x', y', a', b', rfl, rfl, hlt⟩

theorem crossed_cons_same {a : Str} {p q : List Str} : Crossed (a :: p) (a :: q) ↔ Crossed p q := by
  constructor
  · rintro ⟨above, dir, c, r, below, rest, hp, hbelow, hq, hc⟩
    cases above with
    | nil =>
      have hp := (List.cons.inj hp).1
      have hq := (List.cons.inj hq).1
      rw [hp] at hq
      have hlength := congrArg List.length hq
      rw [List.length_append, List.length_cons] at hlength
      omega
    | cons b above =>
      exact ⟨above, dir, c, r, below, rest, (List.cons.inj hp).2, hbelow, (List.cons.inj hq).2, hc⟩
  · rintro ⟨above, dir, c, r, below, rest, rfl, hbelow, rfl, hc⟩
    exact ⟨a :: above, dir, c, r, below, rest, rfl, hbelow, rfl, hc⟩

theorem crossed_cons_ne {a b : Str} {p q : List Str} (hab : a ≠ b) :
    Crossed (a :: p) (b :: q) ↔ p ≠ [] ∧ ∃ c r, b = a ++ c :: r ∧ c.val < (ch '/').val := by
  constructor
  · rintro ⟨above, dir, c, r, below, rest, hp, hbelow, hq, hc⟩
    cases above with
    | nil =>
      obtain ⟨rfl, rfl⟩ := List.cons.inj hp
      exact ⟨hbelow, c, r, (List.cons.inj hq).1, hc⟩
    | cons d above => exact absurd ((List.cons.inj hp).1.trans (List.cons.inj hq).1.symm) hab
  · rintro ⟨hp, c, r, rfl, hc⟩
    exact ⟨[], a, c, r, p, q, rfl, hp, rfl, hc⟩

/-- The joined paths are in the order of their parts unless they are crossed. -/
theorem strLe_posix {p q : List Str} (hq : ∀ s ∈ q, IsPart s) (hle : partsLe p q = true) :
    strLe (posix p) (posix q) = true ↔ ¬Crossed p q := by
  have hnil : ∀ q, ¬Crossed [] q := by
    rintro q ⟨above, dir, c, r, below, rest, hp, -⟩
    exact List.append_ne_nil_of_right_ne_nil above (List.cons_ne_nil _ _) hp.symm
  induction p generalizing q with
  | nil => exact iff_of_true rfl (hnil q)
  | cons a p ih =>
    cases q with
    | nil => cases hle
    | cons b q =>
      by_cases hab : a = b
      · subst hab
        rw [partsLe, if_pos rfl] at hle
        rw [crossed_cons_same, posix, posix, strLe_append]
        cases p with
        | nil => exact iff_of_true rfl (hnil q)
        | cons a' p =>
          cases q with
          | nil => cases hle
          | cons b' q =>
            have hrest := ih (fun s hs => hq s (List.mem_cons_of_mem _ hs)) hle
            refine Iff.trans ?_ hrest
            simp [posix, strLe]
      · rw [partsLe, if_neg hab] at hle
        rw [crossed_cons_ne hab, posix, posix]
        obtain ⟨c, r, rfl⟩ | ⟨s, x, y, a', b', rfl, rfl, hlt⟩ := strLe_cases hle hab
        · have hslash : c ≠ ch '/' := by
            rintro rfl
            exact (hq _ List.mem_cons_self).plain (List.mem_append_right _ List.mem_cons_self)
          rw [List.append_assoc, strLe_append]
          cases p with
          | nil => exact iff_of_true rfl fun h => h.1 rfl
          | cons a' p =>
            have hval : c.val ≠ (ch '/').val := fun h => hslash (Fin.ext h)
            constructor
            · rintro h ⟨-, c', r', hc, hlt⟩
              obtain ⟨rfl, -⟩ := List.cons.inj (List.append_cancel_left hc)
              simp only [List.flatMap_cons, List.cons_append, strLe, Bool.or_eq_true, Bool.and_eq_true,
                decide_eq_true_eq] at h
              omega
            · intro h
              have hge : ¬c.val < (ch '/').val := fun hlt => h ⟨List.cons_ne_nil _ _, c, r, rfl, hlt⟩
              simp only [List.flatMap_cons, List.cons_append, strLe, Bool.or_eq_true, decide_eq_true_eq]
              exact .inl (by omega)
        · refine iff_of_true ?_ ?_
          · rw [List.append_assoc, List.append_assoc, strLe_append]
            simp only [List.cons_append, strLe, Bool.or_eq_true, decide_eq_true_eq]
            exact .inl hlt
          · rintro ⟨-, c, r, hext, -⟩
            rw [List.append_assoc] at hext
            obtain ⟨heq, -⟩ := List.cons.inj (List.append_cancel_left hext)
            rw [heq] at hlt
            exact lt_irrefl _ hlt

/-! ## Splitting a joined path -/

theorem splitOnP_posix {p : List Str} (hp : ∀ s ∈ p, ch '/' ∉ s) (hne : p ≠ []) :
    (posix p).splitOnP (fun c => decide (c = ch '/')) = p := by
  induction p with
  | nil => exact absurd rfl hne
  | cons a p ih =>
    have ha := hp a List.mem_cons_self
    have hplain : ∀ c ∈ a, decide (c = ch '/') = false := fun c hc => decide_eq_false fun h => ha (h ▸ hc)
    cases p with
    | nil =>
      rw [posix, List.flatMap_nil, List.append_nil]
      exact List.splitOnP_eq_singleton hplain
    | cons b p =>
      have hrest := ih (fun s hs => hp s (List.mem_cons_of_mem _ hs)) (List.cons_ne_nil _ _)
      have hjoined : posix (a :: b :: p) = a ++ ch '/' :: posix (b :: p) := rfl
      rw [hjoined, List.splitOnP_append_cons_of_forall_mem hplain _ (decide_eq_true rfl), hrest]

theorem posix_injective {p q : List Str} (hp : ∀ s ∈ p, IsPart s) (hq : ∀ s ∈ q, IsPart s) (hpne : p ≠ [])
    (hqne : q ≠ []) (h : posix p = posix q) : p = q := by
  rw [← splitOnP_posix (fun s hs => (hp s hs).plain) hpne, h, splitOnP_posix (fun s hs => (hq s hs).plain) hqne]

end Python
