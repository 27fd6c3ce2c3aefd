import Mathlib.Logic.Basic

/-! Postconditions of computations that may fail: what holds of the result if there is one. -/
namespace Relm.Lib.Outcome

universe u v

variable {ε : Type u} {α β : Type v} {P Q : α → Prop} {R : β → Prop} {x : Except ε α} {f : α → Except ε β}

/-- A result, if there is one, satisfies `P`. -/
def Ends (P : α → Prop) (x : Except ε α) : Prop := ∀ a, x = .ok a → P a

theorem Ends.ok {a : α} (h : P a) : Ends P (.ok a : Except ε α) := by
  intro b hb
  cases hb
  exact h

theorem Ends.mono (h : Ends P x) (hPQ : ∀ a, P a → Q a) : Ends Q x := fun a ha => hPQ a (h a ha)

theorem Ends.bind (h : Ends P x) (hf : ∀ a, P a → Ends R (f a)) : Ends R (x >>= f) := by
  intro b hb
  cases x with
  | error e => cases hb
  | ok a => exact hf a (h a rfl) b hb

theorem Ends.map {g : α → β} (h : Ends P x) (hg : ∀ a, P a → R (g a)) : Ends R (x.map g) := by
  intro b hb
  cases x with
  | error e => cases hb
  | ok a =>
    cases hb
    exact hg a (h a rfl)

end Relm.Lib.Outcome
