import Mathlib.Tactic.TypeStar
import McpTrust.Effects

/-! # Runs of a labelled transition relation

A run records its events in order. An invariant of every step is an invariant of
every run, also when it speaks of the events so far.
-/

namespace Transition

set_option autoImplicit false

variable {σ ε : Type*} {step : σ → ε → σ → Prop}

inductive Run (step : σ → ε → σ → Prop) (start : σ) : List ε → σ → Prop
  | nil : Run step start [] start
  | snoc {events : List ε} {e : ε} {s s' : σ} :
      Run step start events s → step s e s' → Run step start (events ++ [e]) s'

namespace Run

/-- Induction over a run for a property of its events and its last state. -/
theorem invariant {I : List ε → σ → Prop} {start : σ} (hstart : I [] start)
    (hstep : ∀ {events e s s'}, I events s → step s e s' → I (events ++ [e]) s')
    {events : List ε} {s : σ} (hrun : Run step start events s) : I events s := by
  induction hrun with
  | nil => exact hstart
  | snoc _ hlast ih => exact hstep ih hlast

theorem state_invariant {I : σ → Prop} {start : σ} (hstart : I start)
    (hstep : ∀ {e s s'}, I s → step s e s' → I s') {events : List ε} {s : σ}
    (hrun : Run step start events s) : I s :=
  hrun.invariant (I := fun _ s => I s) hstart fun hI hs => hstep hI hs

theorem append {start s s' : σ} {events more : List ε} (hrun : Run step start events s)
    (hmore : Run step s more s') : Run step start (events ++ more) s' := by
  induction hmore with
  | nil => rwa [List.append_nil]
  | snoc _ hlast ih =>
    rw [← List.append_assoc]
    exact ih.snoc hlast

/-- Each event of a run is a step out of a state the run reached before it. -/
theorem split {start s : σ} {events : List ε} (hrun : Run step start events s) {e : ε}
    (he : e ∈ events) : ∃ before after s₁ s₂, events = before ++ e :: after ∧
      Run step start before s₁ ∧ step s₁ e s₂ ∧ Run step s₂ after s := by
  induction hrun with
  | nil => cases he
  | @snoc events e' s s' hfront hlast ih =>
    rcases List.mem_append.mp he with he | he
    · obtain ⟨before, after, s₁, s₂, rfl, h1, h2, h3⟩ := ih he
      exact ⟨before, after ++ [e'], s₁, s₂, by simp, h1, h2, h3.snoc hlast⟩
    · rw [List.mem_singleton] at he
      subst he
      exact ⟨events, [], s, s', rfl, hfront, hlast, .nil⟩

/-- A preorder every step respects relates the ends of a run. -/
theorem relation {R : σ → σ → Prop} (hrefl : ∀ s, R s s) (htrans : ∀ {a b c}, R a b → R b c → R a c)
    (hstep : ∀ {e s s'}, step s e s' → R s s') {start s : σ} {events : List ε}
    (hrun : Run step start events s) : R start s := by
  induction hrun with
  | nil => exact hrefl _
  | snoc _ hlast ih => exact htrans ih (hstep hlast)

end Run

end Transition
