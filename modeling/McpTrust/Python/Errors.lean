import Mathlib.Data.List.Forall2
import Mathlib.Data.Option.Basic
import McpTrust.Python.Binary64

/-! # Python exceptions as values

Raising functions return `Except PyErr`. The predicates follow the built-in
class hierarchy, so an `except` clause is a test on the raised value.
-/

namespace Python

set_option autoImplicit false

/-- The built-in classes the code can meet, and `app` for a class a program
defines below `RuntimeError`. -/
inductive PyErr
  | valueError
  | unicodeError
  | jsonDecodeError
  | typeError
  | keyError
  | indexError
  | attributeError
  | overflowError
  | recursionError
  | memoryError
  | osError
  | assertionError
  | databaseError
  | app (cls : String) (message : String)
  deriving DecidableEq, Repr

namespace PyErr

/-- `except ValueError` also catches `UnicodeError` and `JSONDecodeError`. -/
def isValueError : PyErr → Bool
  | valueError | unicodeError | jsonDecodeError => true
  | _ => false

def isApp (cls : String) : PyErr → Bool
  | app name _ => name == cls
  | _ => false

end PyErr

/-- `try: x except handled: handler`. -/
def catching {α : Type} (x : Except PyErr α) (handled : PyErr → Bool)
    (handler : Except PyErr α) : Except PyErr α :=
  match x with
  | .ok a => .ok a
  | .error e => if handled e then handler else .error e

@[simp] theorem catching_ok {α : Type} (a : α) (handled : PyErr → Bool) (handler : Except PyErr α) :
    catching (.ok a) handled handler = .ok a := rfl

theorem catching_error {α : Type} (e : PyErr) (handled : PyErr → Bool) (handler : Except PyErr α) :
    catching (.error e) handled handler = if handled e then handler else .error e := rfl

/-- `x` raises nothing outside the classes `handled` names. -/
def RaisesOnly {α : Type} (handled : PyErr → Bool) (x : Except PyErr α) : Prop :=
  ∀ e, x = .error e → handled e = true

theorem bind_eq_ok {α β : Type} {x : Except PyErr α} {f : α → Except PyErr β} {b : β} :
    (x >>= f) = .ok b ↔ ∃ a, x = .ok a ∧ f a = .ok b := by
  cases x with
  | error e => simp [bind, Except.bind]
  | ok a => simp [bind, Except.bind]

theorem catching_eq_ok {α : Type} {x : Except PyErr α} {handled : PyErr → Bool} {e : PyErr} {a : α} :
    catching x handled (.error e) = .ok a ↔ x = .ok a := by
  cases x with
  | ok b => exact Iff.rfl
  | error e' =>
    rw [catching_error]
    constructor
    · intro h
      by_cases hh : handled e' = true
      · rw [if_pos hh] at h
        cases h
      · rw [if_neg hh] at h
        cases h
    · intro h
      cases h

/-- `[f(item) for item in items]` has the results of its items in their order. -/
theorem mapM_eq_ok {α β : Type} {f : α → Except PyErr β} {items : List α} {results : List β} :
    items.mapM f = .ok results ↔ List.Forall₂ (fun item result => f item = .ok result) items results := by
  induction items generalizing results with
  | nil =>
    rw [List.mapM_nil, List.forall₂_nil_left_iff]
    constructor
    · intro h
      cases h
      rfl
    · rintro rfl
      rfl
  | cons item items ih =>
    rw [List.mapM_cons, bind_eq_ok, List.forall₂_cons_left_iff]
    constructor
    · rintro ⟨result, hresult, h⟩
      obtain ⟨rest, hrest, h⟩ := bind_eq_ok.mp h
      cases h
      exact ⟨result, rest, hresult, ih.mp hrest, rfl⟩
    · rintro ⟨result, rest, hresult, hrest, rfl⟩
      exact ⟨result, hresult, bind_eq_ok.mpr ⟨rest, ih.mpr hrest, rfl⟩⟩

theorem exists_mapM_ok {α β : Type} {f : α → Except PyErr β} {items : List α} :
    (∃ results, items.mapM f = .ok results) ↔ ∀ item ∈ items, ∃ result, f item = .ok result := by
  simp only [mapM_eq_ok]
  constructor
  · rintro ⟨results, h⟩
    induction h with
    | nil =>
      intro item hitem
      cases hitem
    | cons hitem _ ih => exact List.forall_mem_cons.mpr ⟨⟨_, hitem⟩, ih⟩
  · intro h
    induction items with
    | nil => exact ⟨[], .nil⟩
    | cons item items ih =>
      obtain ⟨⟨result, hresult⟩, hrest⟩ := List.forall_mem_cons.mp h
      obtain ⟨results, hresults⟩ := ih hrest
      exact ⟨result :: results, .cons hresult hresults⟩

theorem mapM_ok_mem {α β : Type} {f : α → Except PyErr β} {items : List α} {results : List β}
    (h : items.mapM f = .ok results) {result : β} :
    result ∈ results ↔ ∃ item ∈ items, f item = .ok result := by
  have hall := mapM_eq_ok.mp h
  clear h
  induction hall with
  | nil => simp
  | cons hitem _ ih =>
    rw [List.mem_cons]
    constructor
    · rintro (rfl | hmem)
      · exact ⟨_, List.mem_cons_self, hitem⟩
      · obtain ⟨item, hmem, hresult⟩ := ih.mp hmem
        exact ⟨item, List.mem_cons_of_mem _ hmem, hresult⟩
    · rintro ⟨item, hmem, hresult⟩
      obtain rfl | hmem := List.mem_cons.mp hmem
      · rw [hitem, Except.ok.injEq] at hresult
        exact .inl hresult.symm
      · exact .inr (ih.mpr ⟨item, hmem, hresult⟩)

theorem guard_eq_some {p : Prop} [Decidable p] {a : Unit} : (guard p : Option Unit) = some a ↔ p := by
  by_cases h : p <;> simp [guard, h]

/-! ## Which errors can be raised -/

section Raises

variable {α β : Type} {handled : PyErr → Bool}

theorem raisesOnly_ok (a : α) : RaisesOnly handled (.ok a) := by
  intro e h
  cases h

theorem raisesOnly_error {e : PyErr} (h : handled e = true) :
    RaisesOnly handled (.error e : Except PyErr α) := by
  intro e' h'
  cases h'
  exact h

theorem RaisesOnly.bind {x : Except PyErr α} {f : α → Except PyErr β} (hx : RaisesOnly handled x)
    (hf : ∀ a, x = .ok a → RaisesOnly handled (f a)) : RaisesOnly handled (x >>= f) := by
  cases x with
  | error e =>
    intro e' h
    cases h
    exact hx e rfl
  | ok a => exact hf a rfl

theorem RaisesOnly.map {x : Except PyErr α} {f : α → β} (hx : RaisesOnly handled x) :
    RaisesOnly handled (x.map f) := by
  cases x with
  | error e =>
    intro e' h
    cases h
    exact hx e rfl
  | ok a => exact raisesOnly_ok (f a)

theorem RaisesOnly.mono {x : Except PyErr α} {handled' : PyErr → Bool} (hx : RaisesOnly handled x)
    (h : ∀ e, handled e = true → handled' e = true) : RaisesOnly handled' x :=
  fun e he => h e (hx e he)

/-- A handler for everything that can be raised leaves nothing to raise. -/
theorem RaisesOnly.catching {x : Except PyErr α} (hx : RaisesOnly handled x) (a : α) :
    ∃ b, Python.catching x handled (.ok a) = .ok b := by
  cases x with
  | ok b => exact ⟨b, rfl⟩
  | error e => exact ⟨a, by rw [catching_error, if_pos (hx e rfl)]⟩

end Raises

end Python
