import Mathlib.Data.Nat.Count

/-! Counting the positions of an initial segment: those of two kinds that exclude each other, and those covered by
blocks of one width. -/
namespace Relm.Lib.Count

variable {p q : Nat → Prop} [DecidablePred p] [DecidablePred q]

theorem count_congr (n : Nat) (h : ∀ k < n, p k ↔ q k) : Nat.count p n = Nat.count q n := by
  induction n with
  | zero => rfl
  | succ n ih =>
    rw [Nat.count_succ, Nat.count_succ, ih fun k hk => h k (Nat.lt_succ_of_lt hk)]
    simp only [h n (Nat.lt_succ_self n)]

theorem count_or (n : Nat) (h : ∀ k < n, p k → ¬ q k) :
    Nat.count (fun k => p k ∨ q k) n = Nat.count p n + Nat.count q n := by
  induction n with
  | zero => rfl
  | succ n ih =>
    have hrest := ih fun k hk => h k (Nat.lt_succ_of_lt hk)
    have hlast := h n (Nat.lt_succ_self n)
    rw [Nat.count_succ, Nat.count_succ, Nat.count_succ, hrest]
    by_cases hp : p n
    · simp only [hp, hlast hp, or_false, if_true, if_false]
      omega
    · by_cases hq : q n <;> simp only [hp, hq, or_true, or_false, if_true, if_false] <;> omega

section Blocks

variable (p) in
/-- How much of a chosen block is still to come at a position inside it. -/
private def pending (w m : Nat) : Nat := if p (m / w) then (w - m % w) % w else 0

variable {w b : Nat}

private theorem pending_zero {m : Nat} (h : p (m / w) → m % w = 0) : pending p w m = 0 := by
  unfold pending
  split
  · rename_i hp
    rw [h hp, Nat.sub_zero, Nat.mod_self]
  · rfl

/-- One position further: what is pending goes down, or a block starts. -/
private theorem pending_succ (hw : 0 < w) (m : Nat) : pending p w (m + 1) + (if p (m / w) then 1 else 0) =
    pending p w m + if p (m / w) ∧ m % w = 0 then w else 0 := by
  have hlt := Nat.mod_lt m hw
  have hm := Nat.mod_add_div m w
  by_cases hin : m % w + 1 < w
  · obtain ⟨hdiv, hmod⟩ := (Nat.div_mod_unique hw).mpr ⟨show m % w + 1 + w * (m / w) = m + 1 by omega, hin⟩
    unfold pending
    rw [hdiv, hmod]
    by_cases hp : p (m / w)
    · by_cases h0 : m % w = 0
      · simp only [hp, h0, and_self, if_true, Nat.sub_zero, Nat.mod_self]
        rw [Nat.mod_eq_of_lt (by omega)]
        omega
      · simp only [hp, h0, and_false, if_true, if_false]
        rw [Nat.mod_eq_of_lt (show w - (m % w + 1) < w by omega), Nat.mod_eq_of_lt (show w - m % w < w by omega)]
        omega
    · simp only [hp, false_and, if_false]
  · have hlast : m % w + 1 = w := by omega
    obtain ⟨-, hmod⟩ := (Nat.div_mod_unique hw).mpr ⟨show 0 + w * (m / w + 1) = m + 1 by rw [Nat.mul_succ]; omega, hw⟩
    rw [pending_zero fun _ => hmod]
    unfold pending
    by_cases hp : p (m / w)
    · by_cases h0 : m % w = 0
      · simp only [hp, h0, and_self, if_true, Nat.sub_zero, Nat.mod_self]
        omega
      · simp only [hp, h0, and_false, if_true, if_false]
        rw [Nat.mod_eq_of_lt (show w - m % w < w by omega)]
        omega
    · simp only [hp, false_and, if_false]

/-- The positions that chosen blocks cover, counted by the blocks that start there, if the segment cuts none of them. -/
theorem count_blocks (hw : 0 < w) (n : Nat) (hstart : p (b / w) → b % w = 0) (hend : p ((b + n) / w) → (b + n) % w = 0) :
    Nat.count (fun k => p ((b + k) / w)) n = w * Nat.count (fun k => p ((b + k) / w) ∧ (b + k) % w = 0) n := by
  have hrun : ∀ n, Nat.count (fun k => p ((b + k) / w)) n + pending p w (b + n) =
      w * Nat.count (fun k => p ((b + k) / w) ∧ (b + k) % w = 0) n := by
    intro n
    induction n with
    | zero => simpa using pending_zero hstart
    | succ n ih =>
      have hstep := pending_succ (p := p) hw (b + n)
      rw [Nat.count_succ, Nat.count_succ, Nat.mul_add, ← ih, mul_ite, Nat.mul_one, Nat.mul_zero, Nat.add_assoc,
        Nat.add_assoc, Nat.add_left_cancel_iff, ← hstep, Nat.add_comm]
      rfl
  have hall := hrun n
  rwa [pending_zero hend, Nat.add_zero] at hall

end Blocks

end Relm.Lib.Count
