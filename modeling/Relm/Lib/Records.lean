import Mathlib.Data.List.Basic

/-! Records of one length, stored one after the other and cut out again. -/
namespace Relm.Lib.Records

variable {α β : Type*} {n : Nat}

/-- The first `count` pieces of length `n`. -/
def records (n : Nat) : (count : Nat) → List β → List (List β)
  | 0, _ => []
  | count + 1, l => l.take n :: records n count (l.drop n)

/-- What is cut out of stored records is these records, whatever follows them. -/
theorem records_flatMap {f : α → List β} (hf : ∀ a, (f a).length = n) (l : List α) (rest : List β) :
    records n l.length (l.flatMap f ++ rest) = l.map f := by
  induction l with
  | nil => rfl
  | cons a l ih =>
    rw [List.length_cons, records, List.flatMap_cons, List.append_assoc, List.take_left' (hf a), List.drop_left' (hf a), ih,
      List.map_cons]

theorem flatMap_length (l : List α) {f : α → List β} (hf : ∀ a, (f a).length = n) :
    (l.flatMap f).length = l.length * n := by
  induction l with
  | nil => simp
  | cons a l ih => rw [List.flatMap_cons, List.length_append, hf, ih, List.length_cons, Nat.succ_mul, Nat.add_comm]

end Relm.Lib.Records
