import Mathlib.Tactic.TypeStar

/-! # Programs that raise and keep their state

An exception does not undo what the program did before it. `Meets P x Q E`
bounds both ends of `x` from a state in `P`: the value it returns with the last
state, or the exception it raises with the last state.
-/

namespace Effects

set_option autoImplicit false

def Eff (σ ε α : Type) : Type := σ → Except ε α × σ

namespace Eff

variable {σ ε α β : Type}

def bind (x : Eff σ ε α) (f : α → Eff σ ε β) : Eff σ ε β := fun s =>
  match x s with
  | (.ok a, s') => f a s'
  | (.error e, s') => (.error e, s')

def raise (e : ε) : Eff σ ε α := fun s => (.error e, s)

/-- `try: x except: handler`, the handler in the state the exception left. -/
def handle (x : Eff σ ε α) (handler : ε → Eff σ ε α) : Eff σ ε α := fun s =>
  match x s with
  | (.ok a, s') => (.ok a, s')
  | (.error e, s') => handler e s'

instance : Monad (Eff σ ε) where
  pure a := fun s => (.ok a, s)
  bind := bind

instance : MonadExceptOf ε (Eff σ ε) where
  throw := raise
  tryCatch := handle

def read : Eff σ ε σ := fun s => (.ok s, s)

def update (f : σ → σ) : Eff σ ε Unit := fun s => (.ok (), f s)

/-- A program without state is run where it stands. -/
def lift (x : Except ε α) : Eff σ ε α := fun s => (x, s)

/-- The state after `x`, whatever its end. -/
def after (x : Eff σ ε α) (s : σ) : σ := (x s).2

end Eff

open Eff

variable {σ ε α β : Type}

def Meets (P : σ → Prop) (x : Eff σ ε α) (Q : α → σ → Prop) (E : ε → σ → Prop) : Prop :=
  ∀ s, P s → match x s with
    | (.ok a, s') => Q a s'
    | (.error e, s') => E e s'

/-- `x` keeps `I` on both ends. -/
def Keeps (I : σ → Prop) (x : Eff σ ε α) : Prop := Meets I x (fun _ => I) fun _ => I

section Rules

variable {P P' : σ → Prop} {Q Q' : α → σ → Prop} {R : β → σ → Prop} {E E' : ε → σ → Prop}

theorem meets_pure {a : α} (h : ∀ s, P s → Q a s) : Meets P (pure a : Eff σ ε α) Q E :=
  fun s hs => h s hs

theorem meets_raise {e : ε} (h : ∀ s, P s → E e s) : Meets P (raise e : Eff σ ε α) Q E :=
  fun s hs => h s hs

theorem meets_throw {e : ε} (h : ∀ s, P s → E e s) : Meets P (throw e : Eff σ ε α) Q E :=
  fun s hs => h s hs

theorem meets_read {Q : σ → σ → Prop} (h : ∀ s, P s → Q s s) : Meets P (read : Eff σ ε σ) Q E :=
  fun s hs => h s hs

theorem meets_update {f : σ → σ} {Q : Unit → σ → Prop} (h : ∀ s, P s → Q () (f s)) :
    Meets P (update f : Eff σ ε Unit) Q E :=
  fun s hs => h s hs

theorem meets_lift {x : Except ε α} (hok : ∀ a s, x = .ok a → P s → Q a s)
    (herror : ∀ e s, x = .error e → P s → E e s) : Meets P (lift x : Eff σ ε α) Q E := by
  intro s hs
  cases x with
  | ok a => exact hok a s rfl hs
  | error e => exact herror e s rfl hs

theorem Meets.bind {x : Eff σ ε α} {f : α → Eff σ ε β} (hx : Meets P x Q E)
    (hf : ∀ a, Meets (Q a) (f a) R E) : Meets P (x >>= f) R E := by
  intro s hs
  have hend := hx s hs
  change match Eff.bind x f s with
    | (.ok b, s') => R b s'
    | (.error e, s') => E e s'
  unfold Eff.bind
  rcases hxs : x s with ⟨_ | a, s'⟩
  · rw [hxs] at hend
    exact hend
  · rw [hxs] at hend
    exact hf a s' hend

theorem Meets.handle {x : Eff σ ε α} {handler : ε → Eff σ ε α} (hx : Meets P x Q E')
    (hh : ∀ e, Meets (E' e) (handler e) Q E) : Meets P (handle x handler) Q E := by
  intro s hs
  have hend := hx s hs
  unfold Eff.handle
  rcases hxs : x s with ⟨e | _, s'⟩
  · rw [hxs] at hend
    exact hh e s' hend
  · rw [hxs] at hend
    exact hend

theorem Meets.tryCatch {x : Eff σ ε α} {handler : ε → Eff σ ε α} (hx : Meets P x Q E')
    (hh : ∀ e, Meets (E' e) (handler e) Q E) : Meets P (tryCatch x handler) Q E := hx.handle hh

theorem Meets.mono {x : Eff σ ε α} (hx : Meets P x Q E) (hP : ∀ s, P' s → P s)
    (hQ : ∀ a s, Q a s → Q' a s) (hE : ∀ e s, E e s → E' e s) : Meets P' x Q' E' := by
  intro s hs
  have hend := hx s (hP s hs)
  rcases hxs : x s with ⟨e | a, s'⟩
  · rw [hxs] at hend
    exact hE e s' hend
  · rw [hxs] at hend
    exact hQ a s' hend

/-- A fact that does not depend on the state moves out of the precondition. -/
theorem meets_of_fact {c : Prop} {x : Eff σ ε α} (h : c → Meets P x Q E) :
    Meets (fun s => P s ∧ c) x Q E := fun s hs => h hs.2 s hs.1

/-- It is enough to start from one state at a time. -/
theorem meets_of_state {x : Eff σ ε α} (h : ∀ s, P s → Meets (fun s' => s' = s) x Q E) :
    Meets P x Q E := fun s hs => h s hs s rfl

theorem Meets.ite {c : Prop} [Decidable c] {x y : Eff σ ε α} (hx : c → Meets P x Q E)
    (hy : ¬c → Meets P y Q E) : Meets P (if c then x else y) Q E := by
  by_cases hc : c
  · rw [if_pos hc]
    exact hx hc
  · rw [if_neg hc]
    exact hy hc

theorem Keeps.bind {I : σ → Prop} {x : Eff σ ε α} {f : α → Eff σ ε β} (hx : Keeps I x)
    (hf : ∀ a, Keeps I (f a)) : Keeps I (x >>= f) := Meets.bind hx hf

/-- Both ends of a program that meets a bound, read as one fact on the last state. -/
theorem Meets.after {x : Eff σ ε α} {F : σ → Prop} (hx : Meets P x (fun _ => F) fun _ => F) {s : σ}
    (hs : P s) : F (x.after s) := by
  have hend := hx s hs
  unfold Eff.after
  rcases hxs : x s with ⟨_ | _, s'⟩
  · rw [hxs] at hend
    exact hend
  · rw [hxs] at hend
    exact hend

end Rules

end Effects
