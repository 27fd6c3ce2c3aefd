import Mathlib.Logic.Basic

/-! Counted loops that stop at the first step that fails: the states on the way, and how such a loop ends. -/
namespace Relm.Lib.Loop

variable {S E : Type*} (step : S → Nat → Except E Unit × S)

/-- Make the steps from an index on until one fails; the index at which the loop leaves off is returned too. -/
def loop : (left i : Nat) → S → Except E Unit × Nat × S
  | 0, i, s => (.ok (), i, s)
  | left + 1, i, s =>
    match step s i with
    | (.error e, s) => (.error e, i, s)
    | (.ok _, s) => loop left (i + 1) s

/-- The state after the first steps. -/
def states (s : S) : Nat → S
  | 0 => s
  | i + 1 => (step (states s i) i).2

/-- A step fails, after all the steps before it. -/
def Fails (s : S) (i : Nat) : Prop := (step (states step s i) i).1 ≠ .ok ()

variable {step} {s : S}

theorem not_fails {i : Nat} (h : ¬ Fails step s i) : (step (states step s i) i).1 = .ok () := not_not.mp h

/-- There is one first step that fails. -/
theorem first_unique {i j : Nat} (hi : Fails step s i) (hi' : ∀ k < i, ¬ Fails step s k) (hj : Fails step s j)
    (hj' : ∀ k < j, ¬ Fails step s k) : i = j := by
  rcases Nat.lt_trichotomy i j with hlt | heq | hgt
  · exact absurd hi (hj' i hlt)
  · exact heq
  · exact absurd hj (hi' j hgt)

/-- What one step keeps holds after any number of them. -/
theorem states_induction {P : Nat → S → Prop} (init : P 0 s) {n : Nat}
    (next : ∀ i t, i < n → P i t → t = states step s i → P (i + 1) (step t i).2) : P n (states step s n) := by
  induction n with
  | zero => exact init
  | succ n ih => exact next n _ (Nat.lt_succ_self n) (ih fun i t hi => next i t (Nat.lt_succ_of_lt hi)) rfl

/-- How a loop of so many steps ends: with the first one that fails, or with all made. -/
inductive Ended (step : S → Nat → Except E Unit × S) (s : S) (n : Nat) : Except E Unit × Nat × S → Prop
  | stopped (e : E) (j : Nat) (lt : j < n) (fails : Fails step s j) (first : ∀ i < j, ¬ Fails step s i) :
    Ended step s n (.error e, j, states step s (j + 1))
  | finished (passed : ∀ i < n, ¬ Fails step s i) : Ended step s n (.ok (), n, states step s n)

private theorem loop_from (step : S → Nat → Except E Unit × S) (s : S) (left i : Nat) (passed : ∀ k < i, ¬ Fails step s k) :
    Ended step s (i + left) (loop step left i (states step s i)) := by
  induction left generalizing i with
  | zero => exact .finished passed
  | succ left ih =>
    have hfails : Fails step s i ↔ (step (states step s i) i).1 ≠ .ok () := Iff.rfl
    have hnext : states step s (i + 1) = (step (states step s i) i).2 := rfl
    rw [loop]
    generalize step (states step s i) i = r at hfails hnext ⊢
    obtain ⟨ret, t⟩ := r
    cases ret with
    | error e =>
      rw [show t = states step s (i + 1) from hnext.symm]
      exact .stopped e i (by omega) (hfails.mpr fun h => by cases h) passed
    | ok u =>
      have hpassed : ∀ k < i + 1, ¬ Fails step s k := by
        intro k hk
        rcases Nat.lt_succ_iff_lt_or_eq.mp hk with hlt | rfl
        · exact passed k hlt
        · exact fun h => hfails.mp h rfl
      have hrest := ih (i + 1) hpassed
      rw [hnext, show i + 1 + left = i + (left + 1) by omega] at hrest
      exact hrest

theorem loop_ended (step : S → Nat → Except E Unit × S) (s : S) (n : Nat) : Ended step s n (loop step n 0 s) := by
  have h := loop_from step s n 0 fun k hk => absurd hk (Nat.not_lt_zero k)
  rwa [Nat.zero_add] at h

end Relm.Lib.Loop
