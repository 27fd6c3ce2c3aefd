import Mathlib.Data.Finset.Sort
import Mathlib.Data.Nat.Bitwise

/-! Sets of small numbers kept as an array of 32-bit words, with the search for the largest member from the top, and
sets kept as the bits of a row of bytes. -/
namespace Relm.Lib.Bitmap

/-- The bit of a number is set. -/
def Member (b : Nat → BitVec 32) (v : Nat) : Prop := (b (v / 32)).getLsbD (v % 32) = true

instance (b : Nat → BitVec 32) (v : Nat) : Decidable (Member b v) := inferInstanceAs (Decidable (_ = true))

/-- The largest member below word `k`, found in the highest non-zero word. -/
def highestBelow (b : Nat → BitVec 32) : (k : Nat) → Option Nat
  | 0 => none
  | k + 1 => if b k != 0 then some (32 * k + (b k).toNat.log2) else highestBelow b k

variable {b : Nat → BitVec 32} {k v : Nat}

private theorem log2_lt {x : BitVec 32} (h : x ≠ 0) : x.toNat.log2 < 32 := by
  have h0 : x.toNat ≠ 0 := fun hc => h (BitVec.eq_of_toNat_eq hc)
  rw [Nat.log2_lt h0]
  exact x.isLt

private theorem getLsbD_log2 {x : BitVec 32} (h : x ≠ 0) : x.getLsbD x.toNat.log2 = true := by
  rw [← BitVec.testBit_toNat]
  exact Nat.testBit_log2 fun hc => h (BitVec.eq_of_toNat_eq hc)

private theorem le_log2 {x : BitVec 32} {i : Nat} (h : x.getLsbD i = true) : i ≤ x.toNat.log2 := by
  by_contra hlt
  rw [← BitVec.testBit_toNat, Nat.testBit_lt_two_pow] at h
  · cases h
  · exact Nat.lt_of_lt_of_le Nat.lt_log2_self (Nat.pow_le_pow_right (by decide) (not_le.mp hlt))

/-- The search finds a member, and none below the bound is larger. -/
theorem highestBelow_some (h : highestBelow b k = some v) :
    Member b v ∧ v < 32 * k ∧ ∀ u < 32 * k, Member b u → u ≤ v := by
  induction k with
  | zero => cases h
  | succ k ih =>
    rw [highestBelow] at h
    split at h
    · rename_i hne
      have hne : b k ≠ 0 := by simpa using hne
      obtain rfl := Option.some.inj h
      have hlt := log2_lt hne
      have hdiv : (32 * k + (b k).toNat.log2) / 32 = k := by omega
      have hmod : (32 * k + (b k).toNat.log2) % 32 = (b k).toNat.log2 := by omega
      refine ⟨?_, by omega, fun u hu hm => ?_⟩
      · rw [Member, hdiv, hmod]
        exact getLsbD_log2 hne
      · by_cases hk : u / 32 = k
        · rw [Member, hk] at hm
          have hle := le_log2 hm
          omega
        · omega
    · rename_i hzero
      have hzero : b k = 0 := by simpa using hzero
      obtain ⟨h1, h2, h3⟩ := ih h
      refine ⟨h1, by omega, fun u hu hm => ?_⟩
      by_cases hk : u / 32 = k
      · rw [Member, hk, hzero] at hm
        simp at hm
      · exact h3 u (by omega) hm

/-- The search fails only on the empty set. -/
theorem highestBelow_none (h : highestBelow b k = none) : ∀ u < 32 * k, ¬ Member b u := by
  induction k with
  | zero => exact fun u hu => absurd hu (by omega)
  | succ k ih =>
    rw [highestBelow] at h
    split at h
    · cases h
    · rename_i hzero
      have hzero : b k = 0 := by simpa using hzero
      intro u hu hm
      by_cases hk : u / 32 = k
      · rw [Member, hk, hzero] at hm
        simp at hm
      · exact ih h u (by omega) hm

/-- The word with one bit alone. -/
private theorem getLsbD_bit {w i j : Nat} (hj : j < w) : (1#w <<< i).getLsbD j = decide (i = j) := by
  have hw : 0 < w := Nat.zero_lt_of_lt hj
  rw [BitVec.getLsbD_shiftLeft, BitVec.getLsbD_one]
  by_cases h : i = j
  · simp [h, hj, hw]
  · have hout : i ≤ j → ¬ j - i = 0 := by omega
    simpa [h, hj, hw] using hout

/-- Testing the bit of a number in its word. -/
theorem and_bit_eq_zero_iff (b : Nat → BitVec 32) (v : Nat) : b (v / 32) &&& 1#32 <<< (v % 32) = 0#32 ↔ ¬ Member b v := by
  have hv : v % 32 < 32 := Nat.mod_lt _ (by decide)
  rw [Member, Bool.not_eq_true]
  constructor
  · intro h
    have hbit := congrArg (fun x => x.getLsbD (v % 32)) h
    simpa [getLsbD_bit hv] using hbit
  · intro h
    apply BitVec.eq_of_getLsbD_eq
    intro i hi
    rw [BitVec.getLsbD_and, getLsbD_bit hi]
    by_cases hiv : v % 32 = i
    · rw [← hiv, h, Bool.false_and, BitVec.getLsbD_zero]
    · simp [hiv]

private theorem same_word_iff (u v : Nat) : u = v ↔ u / 32 = v / 32 ∧ v % 32 = u % 32 := by omega

/-- Set the bit of a number in its word. -/
theorem member_insert (b : Nat → BitVec 32) (v u : Nat) :
    Member (Function.update b (v / 32) (b (v / 32) ||| 1#32 <<< (v % 32))) u ↔ u = v ∨ Member b u := by
  have hu : u % 32 < 32 := Nat.mod_lt _ (by decide)
  rw [same_word_iff u v]
  by_cases hw : u / 32 = v / 32
  · simp [Member, hw, getLsbD_bit hu, or_comm]
  · simp [Member, hw]

/-- Clear the bit of a number in its word. -/
theorem member_erase (b : Nat → BitVec 32) (v u : Nat) :
    Member (Function.update b (v / 32) (b (v / 32) &&& ~~~(1#32 <<< (v % 32)))) u ↔ u ≠ v ∧ Member b u := by
  have hu : u % 32 < 32 := Nat.mod_lt _ (by decide)
  rw [ne_eq, same_word_iff u v]
  by_cases hw : u / 32 = v / 32
  · have hbit := getLsbD_bit (i := v % 32) hu
    simp only [Member, hw, Function.update_self, BitVec.getLsbD_and, BitVec.getLsbD_not, hbit]
    simp [hu, and_comm]
  · simp [Member, hw]

/-- The members in the first `k` words. -/
def members (b : Nat → BitVec 32) (k : Nat) : Finset Nat := (Finset.range (32 * k)).filter (Member b)

theorem mem_members : v ∈ members b k ↔ v < 32 * k ∧ Member b v := by
  rw [members, Finset.mem_filter, Finset.mem_range]

/-- The search finds the greatest member. -/
theorem highestBelow_eq_some_iff : highestBelow b k = some v ↔ IsGreatest (members b k : Set Nat) v := by
  constructor
  · intro h
    obtain ⟨hm, hlt, hmax⟩ := highestBelow_some h
    refine ⟨Finset.mem_coe.mpr (mem_members.mpr ⟨hlt, hm⟩), fun u hu => ?_⟩
    obtain ⟨hult, hum⟩ := mem_members.mp (Finset.mem_coe.mp hu)
    exact hmax u hult hum
  · rintro ⟨hv, hmax⟩
    obtain ⟨hlt, hm⟩ := mem_members.mp (Finset.mem_coe.mp hv)
    cases h : highestBelow b k with
    | none => exact absurd hm (highestBelow_none h v hlt)
    | some w =>
      obtain ⟨hwm, hwlt, hwmax⟩ := highestBelow_some h
      have hwv : w ≤ v := hmax (Finset.mem_coe.mpr (mem_members.mpr ⟨hwlt, hwm⟩))
      rw [le_antisymm hwv (hwmax v hlt hm)]

theorem highestBelow_eq_none_iff : highestBelow b k = none ↔ members b k = ∅ := by
  constructor
  · intro h
    refine Finset.eq_empty_of_forall_notMem fun u hu => ?_
    obtain ⟨hlt, hm⟩ := mem_members.mp hu
    exact highestBelow_none h u hlt hm
  · intro h
    cases hv : highestBelow b k with
    | none => rfl
    | some v =>
      have hmem := (highestBelow_eq_some_iff.mp hv).1
      rw [h] at hmem
      simp at hmem

/-- Clearing the bit of a number takes it out of the set. -/
theorem members_erase (b : Nat → BitVec 32) (k v : Nat) :
    members (Function.update b (v / 32) (b (v / 32) &&& ~~~(1#32 <<< (v % 32)))) k = (members b k).erase v := by
  ext u
  rw [mem_members, member_erase, Finset.mem_erase, mem_members]
  exact and_left_comm

/-- The decreasing list of a set starts with its greatest element. -/
theorem sort_eq_cons {s : Finset Nat} (h : IsGreatest (s : Set Nat) v) : s.sort (· ≥ ·) = v :: (s.erase v).sort (· ≥ ·) := by
  have hs : insert v (s.erase v) = s := Finset.insert_erase (Finset.mem_coe.mp h.1)
  rw [← Finset.sort_insert (· ≥ ·) (fun u hu => h.2 (Finset.mem_coe.mpr (Finset.mem_of_mem_erase hu)))
    (Finset.notMem_erase v s), hs]

/-- A step that takes out the greatest member, taken again and again, runs through the members in decreasing order. -/
theorem iterate_erase_greatest {α : Type*} {step : α → α} {set : α → Finset Nat}
    (hstep : ∀ a v, IsGreatest (set a : Set Nat) v → set (step a) = (set a).erase v)
    (hempty : ∀ a, set a = ∅ → set (step a) = ∅) (i : Nat) (a : α) :
    set (step^[i] a) = (((set a).sort (· ≥ ·)).drop i).toFinset := by
  induction i generalizing a with
  | zero => simp
  | succ i ih =>
    rw [Function.iterate_succ_apply, ih (step a)]
    rcases (set a).eq_empty_or_nonempty with he | hne
    · rw [he, hempty a he]
      simp
    · have hg := (set a).isGreatest_max' hne
      rw [hstep a _ hg, sort_eq_cons hg, List.drop_succ_cons]

section Bytes

variable {l : List (BitVec 8)} {n : Nat}

/-- The bit of a number is set in a row of bytes. -/
def ByteMember (l : List (BitVec 8)) (n : Nat) : Prop := (l.getD (n / 8) 0#8).getLsbD (n % 8) = true

instance (l : List (BitVec 8)) (n : Nat) : Decidable (ByteMember l n) := inferInstanceAs (Decidable (_ = true))

/-- Or a value into a byte; there is no result past the end of the row. -/
def orByte (l : List (BitVec 8)) (k : Nat) (b : BitVec 8) : Option (List (BitVec 8)) :=
  if k < l.length then some (l.modify k (· ||| b)) else none

theorem byteMember_replicate (k n : Nat) : ¬ ByteMember (List.replicate k 0#8) n := by
  have hzero : (List.replicate k 0#8).getD (n / 8) 0#8 = 0#8 := by
    rw [List.getD_eq_getElem?_getD, List.getElem?_replicate]
    split <;> rfl
  rw [ByteMember, hzero, BitVec.getLsbD_zero]
  exact Bool.false_ne_true

/-- Setting the bit of a number within the row adds it to the set and keeps the length. -/
theorem byteMember_insert (h : n / 8 < l.length) : ∃ l', orByte l (n / 8) (1#8 <<< (n % 8)) = some l' ∧
    l'.length = l.length ∧ ∀ u, ByteMember l' u ↔ u = n ∨ ByteMember l u := by
  refine ⟨_, if_pos h, List.length_modify _ _ _, fun u => ?_⟩
  have hu : u % 8 < 8 := Nat.mod_lt _ (by decide)
  rw [ByteMember, List.getD_eq_getElem?_getD]
  by_cases hb : n / 8 = u / 8
  · have hsame : u = n ↔ n % 8 = u % 8 := by omega
    have hget : l[u / 8]? = some (l.getD (u / 8) 0#8) := by
      rw [List.getD_eq_getElem?_getD, List.getElem?_eq_getElem (hb ▸ h), Option.getD_some]
    rw [hb, List.getElem?_modify_eq, hget, Option.map_eq_map, Option.map_some, Option.getD_some, BitVec.getLsbD_or,
      getLsbD_bit hu, hsame, ByteMember, Bool.or_eq_true, decide_eq_true_eq, or_comm]
  · have hne : u ≠ n := fun hc => hb (by rw [hc])
    rw [List.getElem?_modify_ne _ _ hb, ← List.getD_eq_getElem?_getD]
    exact (or_iff_right hne).symm

end Bytes

end Relm.Lib.Bitmap
