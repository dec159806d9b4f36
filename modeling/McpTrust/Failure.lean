import Mathlib.Tactic
import McpTrust.Corpus.FirstBatch

/-! # Failing steps

Which errors a sequence of fallible steps ends in: a step fails in a given way when it is
reached, that is when the steps before it return.
-/

namespace Failure

set_option autoImplicit false

universe v

variable {ε : Type*} {α β σ : Type v} {bad : ε → Prop}

/-- The step returns. -/
def Passes (x : Except ε α) : Prop := ∃ a, x = .ok a

/-- The step ends in an error of the given kind. -/
def Fails (bad : ε → Prop) (x : Except ε α) : Prop := ∃ e, x = .error e ∧ bad e

theorem not_fails_ok (a : α) : ¬Fails bad (.ok a : Except ε α) := by
  rintro ⟨e, he, -⟩
  cases he

theorem fails_error {e : ε} : Fails bad (.error e : Except ε α) ↔ bad e := by
  constructor
  · rintro ⟨e', he, hbad⟩
    cases he
    exact hbad
  · intro h
    exact ⟨e, rfl, h⟩

theorem Passes.not_fails {x : Except ε α} (h : Passes x) : ¬Fails bad x := by
  obtain ⟨a, rfl⟩ := h
  exact not_fails_ok a

theorem fails_bind {x : Except ε α} {f : α → Except ε β} :
    Fails bad (x >>= f) ↔ Fails bad x ∨ ∃ a, x = .ok a ∧ Fails bad (f a) := by
  cases x with
  | error e =>
    have hbind : (Except.error e >>= f : Except ε β) = .error e := rfl
    rw [hbind, fails_error, fails_error]
    constructor
    · exact .inl
    · rintro (h | ⟨a, ha, -⟩)
      · exact h
      · cases ha
  | ok a =>
    have hbind : (Except.ok a >>= f : Except ε β) = f a := rfl
    rw [hbind]
    constructor
    · intro h
      exact .inr ⟨a, rfl, h⟩
    · rintro (h | ⟨b, hb, h⟩)
      · exact absurd h (not_fails_ok a)
      · cases hb
        exact h

theorem bind_ok {x : Except ε α} {f : α → Except ε β} {b : β} :
    (x >>= f) = .ok b ↔ ∃ a, x = .ok a ∧ f a = .ok b := by
  cases x with
  | error e =>
    constructor
    · intro h
      cases h
    · rintro ⟨a, ha, -⟩
      cases ha
  | ok a =>
    constructor
    · intro h
      exact ⟨a, rfl, h⟩
    · rintro ⟨a', ha, h⟩
      cases ha
      exact h

/-- Behind a step that does not fail so, only the rest can. -/
theorem fails_bind_of_not {x : Except ε α} (hx : ¬Fails bad x) {f : α → Except ε β} :
    Fails bad (x >>= f) ↔ ∃ a, x = .ok a ∧ Fails bad (f a) := by
  rw [fails_bind, or_iff_right hx]

theorem not_fails_bind {x : Except ε α} (hx : ¬Fails bad x) {f : α → Except ε β} (hf : ∀ a, ¬Fails bad (f a)) :
    ¬Fails bad (x >>= f) := by
  rw [fails_bind_of_not hx]
  rintro ⟨a, -, h⟩
  exact hf a h

/-- A step whose continuation fails under one condition, whatever the step returns. -/
theorem fails_bind_iff {x : Except ε α} {f : α → Except ε β} {P : Prop} (hf : ∀ a, Fails bad (f a) ↔ P) :
    Fails bad (x >>= f) ↔ Fails bad x ∨ Passes x ∧ P := by
  rw [fails_bind]
  apply or_congr_right
  constructor
  · rintro ⟨a, ha, h⟩
    exact ⟨⟨a, ha⟩, (hf a).mp h⟩
  · rintro ⟨⟨a, ha⟩, h⟩
    exact ⟨a, ha, (hf a).mpr h⟩

theorem fails_bind_pass {x : Except ε α} (hx : ¬Fails bad x) {f : α → Except ε β} {P : Prop}
    (hf : ∀ a, Fails bad (f a) ↔ P) : Fails bad (x >>= f) ↔ Passes x ∧ P := by
  rw [fails_bind_iff hf, or_iff_right hx]

theorem fails_bind_last {x : Except ε α} {f : α → Except ε β} (hf : ∀ a, ¬Fails bad (f a)) :
    Fails bad (x >>= f) ↔ Fails bad x := by
  rw [fails_bind, or_iff_left]
  rintro ⟨a, -, h⟩
  exact hf a h

theorem not_fails_mapM {f : α → Except ε β} (hf : ∀ a, ¬Fails bad (f a)) (items : List α) :
    ¬Fails bad (items.mapM f) := by
  induction items with
  | nil => exact not_fails_ok []
  | cons a rest ih =>
    rw [List.mapM_cons]
    apply not_fails_bind (hf a)
    intro b
    apply not_fails_bind ih
    intro bs
    exact not_fails_ok _

theorem not_fails_foldlM {f : σ → α → Except ε σ} (hf : ∀ s a, ¬Fails bad (f s a)) (items : List α) :
    ∀ s, ¬Fails bad (items.foldlM f s) := by
  induction items with
  | nil => exact fun s => not_fails_ok s
  | cons a rest ih =>
    intro s
    rw [List.foldlM_cons]
    exact not_fails_bind (hf s a) ih

/-- A loop fails so at the first item that does not pass. -/
theorem fails_mapM {f : α → Except ε β} {items : List α} :
    Fails bad (items.mapM f) ↔
      ∃ front a rest, items = front ++ a :: rest ∧ (∀ b ∈ front, Passes (f b)) ∧ Fails bad (f a) := by
  induction items with
  | nil =>
    constructor
    · intro h
      exact absurd h (not_fails_ok [])
    · rintro ⟨front, a, rest, hitems, -⟩
      simp at hitems
  | cons item items ih =>
    rw [List.mapM_cons, fails_bind]
    constructor
    · rintro (h | ⟨b, hb, h⟩)
      · exact ⟨[], item, items, rfl, by simp, h⟩
      · obtain h | ⟨bs, -, h⟩ := fails_bind.mp h
        · obtain ⟨front, a, rest, rfl, hfront, ha⟩ := ih.mp h
          refine ⟨item :: front, a, rest, rfl, ?_, ha⟩
          intro c hc
          obtain rfl | hc := List.mem_cons.mp hc
          · exact ⟨b, hb⟩
          · exact hfront c hc
        · exact absurd h (not_fails_ok _)
    · rintro ⟨front, a, rest, hitems, hfront, ha⟩
      cases front with
      | nil =>
        cases hitems
        exact .inl ha
      | cons head front =>
        cases hitems
        obtain ⟨b, hb⟩ := hfront item List.mem_cons_self
        refine .inr ⟨b, hb, ?_⟩
        rw [fails_bind]
        left
        exact ih.mpr ⟨front, a, rest, rfl, fun c hc => hfront c (List.mem_cons_of_mem _ hc), ha⟩

/-- A loop with a state fails so at the first item that does not pass. -/
theorem fails_foldlM {f : σ → α → Except ε σ} {items : List α} : ∀ {s : σ},
    Fails bad (items.foldlM f s) ↔
      ∃ front a rest reached, items = front ++ a :: rest ∧ front.foldlM f s = .ok reached ∧ Fails bad (f reached a) := by
  induction items with
  | nil =>
    intro s
    constructor
    · intro h
      exact absurd h (not_fails_ok s)
    · rintro ⟨front, a, rest, reached, hitems, -⟩
      simp at hitems
  | cons item items ih =>
    intro s
    rw [List.foldlM_cons, fails_bind]
    constructor
    · rintro (h | ⟨next, hnext, h⟩)
      · exact ⟨[], item, items, s, rfl, rfl, h⟩
      · obtain ⟨front, a, rest, reached, rfl, hfront, ha⟩ := ih.mp h
        refine ⟨item :: front, a, rest, reached, rfl, ?_, ha⟩
        rw [List.foldlM_cons, hnext]
        exact hfront
    · rintro ⟨front, a, rest, reached, hitems, hfront, ha⟩
      cases front with
      | nil =>
        cases hitems
        cases hfront
        exact .inl ha
      | cons head front =>
        cases hitems
        rw [List.foldlM_cons] at hfront
        cases hnext : f s item with
        | error e =>
          rw [hnext] at hfront
          cases hfront
        | ok next =>
          rw [hnext] at hfront
          exact .inr ⟨next, rfl, ih.mpr ⟨front, a, rest, reached, rfl, hfront, ha⟩⟩

/-- A loop raises where one of its items does. -/
theorem mapM_error_iff {f : α → Except ε β} {items : List α} :
    (∃ e, items.mapM f = .error e) ↔ ∃ a ∈ items, ∃ e, f a = .error e := by
  induction items with
  | nil =>
    constructor
    · rintro ⟨e, he⟩
      cases he
    · rintro ⟨a, ha, -⟩
      cases ha
  | cons item items ih =>
    rw [List.mapM_cons]
    cases hitem : f item with
    | error e =>
      constructor
      · intro _
        exact ⟨item, List.mem_cons_self, e, hitem⟩
      · intro _
        exact ⟨e, rfl⟩
    | ok b =>
      constructor
      · rintro ⟨e, he⟩
        cases hrest : items.mapM f with
        | ok bs =>
          rw [hrest] at he
          cases he
        | error e' =>
          obtain ⟨a, ha, herror⟩ := ih.mp ⟨e', hrest⟩
          exact ⟨a, List.mem_cons_of_mem _ ha, herror⟩
      · rintro ⟨a, ha, e, he⟩
        obtain rfl | ha := List.mem_cons.mp ha
        · rw [hitem] at he
          cases he
        · obtain ⟨e', hrest⟩ := ih.mpr ⟨a, ha, e, he⟩
          refine ⟨e', ?_⟩
          rw [hrest]
          rfl

end Failure
