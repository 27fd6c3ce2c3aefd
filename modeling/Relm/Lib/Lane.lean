import Mathlib.Logic.Basic

/-! One lane of a word: reading the masked bits at a shift, replacing them, and the laws between the two. -/
namespace Relm.Lib.Lane

variable {w : Nat} (m : BitVec w) (s : Nat)

/-- The lane of a word. -/
def get (x : BitVec w) : BitVec w := (x >>> s) &&& m

/-- The word with the lane replaced. -/
def put (x v : BitVec w) : BitVec w := (x &&& ~~~(m <<< s)) ||| ((v &&& m) <<< s)

/-- The lane does not reach past the word. -/
def Fits : Prop := ∀ i, m.getLsbD i = true → s + i < w

variable {m s} {x v v' : BitVec w} {i : Nat}

theorem get_bit : (get m s x).getLsbD i = (x.getLsbD (s + i) && m.getLsbD i) := by
  rw [get, BitVec.getLsbD_and, BitVec.getLsbD_ushiftRight]

theorem put_bit (hi : i < w) :
    (put m s x v).getLsbD i = if s ≤ i ∧ m.getLsbD (i - s) = true then v.getLsbD (i - s) else x.getLsbD i := by
  simp only [put, BitVec.getLsbD_or, BitVec.getLsbD_and, BitVec.getLsbD_not, BitVec.getLsbD_shiftLeft, hi, decide_true,
    Bool.true_and]
  by_cases hs : i < s
  · simp [hs, Nat.not_le.mpr hs]
  · cases hm : m.getLsbD (i - s) <;> simp [hs, Nat.not_lt.mp hs]

/-- Outside the lane nothing changes. -/
theorem put_outside (h : i < s ∨ m.getLsbD (i - s) = false) : (put m s x v).getLsbD i = x.getLsbD i := by
  rcases Nat.lt_or_ge i w with hi | hi
  · rw [put_bit hi]
    apply if_neg
    rintro ⟨hs, hm⟩
    rcases h with h | h
    · exact Nat.not_le.mpr h hs
    · rw [h] at hm
      cases hm
  · rw [BitVec.getLsbD_of_ge _ _ hi, BitVec.getLsbD_of_ge _ _ hi]

/-- What is put is got, as much of it as the lane takes. -/
theorem get_put (h : Fits m s) : get m s (put m s x v) = v &&& m := by
  apply BitVec.eq_of_getLsbD_eq
  intro i _
  rw [get_bit, BitVec.getLsbD_and]
  cases hm : m.getLsbD i with
  | false => rw [Bool.and_false, Bool.and_false]
  | true =>
    have hin : s ≤ s + i ∧ m.getLsbD (s + i - s) = true := ⟨Nat.le_add_right s i, by rw [Nat.add_sub_cancel_left, hm]⟩
    rw [put_bit (h i hm), if_pos hin, Nat.add_sub_cancel_left]

theorem put_put : put m s (put m s x v) v' = put m s x v' := by
  apply BitVec.eq_of_getLsbD_eq
  intro i hi
  rw [put_bit hi, put_bit hi, put_bit hi]
  split
  · rfl
  · rfl

/-- Putting back what was got changes nothing. -/
theorem put_get : put m s x (get m s x) = x := by
  apply BitVec.eq_of_getLsbD_eq
  intro i hi
  rw [put_bit hi]
  split
  · rename_i hin
    rw [get_bit, hin.2, Bool.and_true, Nat.add_sub_cancel' hin.1]
  · rfl

end Relm.Lib.Lane
