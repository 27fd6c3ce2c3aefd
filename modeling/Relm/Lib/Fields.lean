import Mathlib.Data.Nat.Bitwise
import Mathlib.Tactic.NormNum

/-! Registers made of fields: values or-ed into one word, each confined to a mask of its own. -/
namespace Relm.Lib.Fields

variable {w : Nat} {x m m' : BitVec w}

/-- No bit of the value lies outside the mask. -/
def Within (x m : BitVec w) : Prop := x &&& m = x

instance (x m : BitVec w) : Decidable (Within x m) := inferInstanceAs (Decidable (x &&& m = x))

theorem Within.and_eq_zero (h : Within x m) (hm : m &&& m' = 0#w) : x &&& m' = 0#w := by
  have hx : x &&& m = x := h
  rw [← hx, BitVec.and_assoc, hm, BitVec.and_zero]

theorem within_zero (m : BitVec w) : Within 0#w m := BitVec.zero_and

theorem Within.shiftLeft (h : Within x m) (s : Nat) : Within (x <<< s) (m <<< s) := by
  have hx : x &&& m = x := h
  rw [Within, ← BitVec.shiftLeft_and_distrib, hx]

/-- A number of `n` bits lies within `n` ones. -/
theorem within_low {n : Nat} (hx : x.toNat < 2 ^ n) (hm : m.toNat = 2 ^ n - 1) : Within x m := by
  apply BitVec.eq_of_toNat_eq
  rw [BitVec.toNat_and, hm, Nat.and_two_pow_sub_one_eq_mod, Nat.mod_eq_of_lt hx]

/-- Inclusion of masks, bit by bit. -/
theorem within_iff : Within x m ↔ ∀ i, x.getLsbD i = true → m.getLsbD i = true := by
  constructor
  · intro h i hx
    have hb := congrArg (fun y => y.getLsbD i) h
    simpa [hx] using hb
  · intro h
    refine BitVec.eq_of_getLsbD_eq fun i _ => ?_
    rw [BitVec.getLsbD_and]
    cases hx : x.getLsbD i with
    | false => rfl
    | true => rw [h i hx, Bool.true_and]

theorem within_and (x m : BitVec w) : Within (x &&& m) m := by rw [Within, BitVec.and_assoc, BitVec.and_self]

theorem Within.or {y : BitVec w} (hx : Within x m) (hy : Within y m) : Within (x ||| y) m := by
  have hx : x &&& m = x := hx
  have hy : y &&& m = y := hy
  rw [Within, BitVec.and_or_distrib_right, hx, hy]

/-- Bits forced on survive a mask that has them. -/
theorem Within.forced (h : Within m m') (x : BitVec w) : Within m ((x ||| m) &&& m') := by
  rw [within_iff] at h ⊢
  intro i hm
  rw [BitVec.getLsbD_and, BitVec.getLsbD_or, hm, h i hm, Bool.or_true, Bool.true_and]

/-- A bit that a test finds lies within the word. -/
theorem within_of_and_ne_zero {k : Nat} (h : x &&& 1#w <<< k ≠ 0#w) : Within (1#w <<< k) x := by
  have hbit : ∀ i, (1#w <<< k).getLsbD i = true → i = k := by
    intro i hi
    simp only [BitVec.getLsbD_shiftLeft, BitVec.getLsbD_one, Bool.and_eq_true, decide_eq_true_eq, Bool.not_eq_true',
      decide_eq_false_iff_not] at hi
    omega
  rw [within_iff]
  intro i hi
  obtain rfl := hbit i hi
  by_contra hx
  refine h (BitVec.eq_of_getLsbD_eq fun n _ => ?_)
  rw [BitVec.getLsbD_and, BitVec.getLsbD_zero]
  cases hn : (1#w <<< i).getLsbD n with
  | false => rw [Bool.and_false]
  | true =>
    rw [hbit n hn, Bool.and_true]
    exact Bool.eq_false_iff.mpr hx

/-- A field of a register, its value in place. -/
structure Field (w : Nat) where
  value : BitVec w
  mask : BitVec w
  within : Within value mask

/-- The register with the given fields. -/
def assemble (l : List (Field w)) : BitVec w := l.foldr (fun f r => f.value ||| r) 0#w

/-- No two fields share a bit. -/
def Apart (l : List (Field w)) : Prop := l.Pairwise fun f g => f.mask &&& g.mask = 0#w

variable {l : List (Field w)}

/-- A register has no bit where it has no field. -/
theorem assemble_and_eq_zero (h : ∀ f ∈ l, f.mask &&& m = 0#w) : assemble l &&& m = 0#w := by
  induction l with
  | nil => exact BitVec.zero_and
  | cons f l ih =>
    have hf : f.value &&& m = 0#w := f.within.and_eq_zero (h f List.mem_cons_self)
    have hl := ih fun g hg => h g (List.mem_cons_of_mem f hg)
    change (f.value ||| assemble l) &&& m = 0#w
    rw [BitVec.and_or_distrib_right, hf, hl, BitVec.or_zero]

/-- Every field is read back with its mask. -/
theorem assemble_and_mask (h : Apart l) {f : Field w} (hf : f ∈ l) : assemble l &&& f.mask = f.value := by
  induction l with
  | nil => cases hf
  | cons g l ih =>
    obtain ⟨hg, hl⟩ := List.pairwise_cons.mp h
    change (g.value ||| assemble l) &&& f.mask = f.value
    rw [BitVec.and_or_distrib_right]
    rcases List.mem_cons.mp hf with rfl | hmem
    · have hrest : assemble l &&& f.mask = 0#w :=
        assemble_and_eq_zero fun k hk => (BitVec.and_comm _ _).trans (hg k hk)
      have hself : f.value &&& f.mask = f.value := f.within
      rw [hself, hrest, BitVec.or_zero]
    · rw [g.within.and_eq_zero (hg f hmem), BitVec.zero_or]
      exact ih hl hmem

end Relm.Lib.Fields
