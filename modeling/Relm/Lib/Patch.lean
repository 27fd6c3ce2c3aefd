import Mathlib.Data.List.Basic

/-! A memory as a function of the address, and what remains of it after blocks of values have been stored. -/
namespace Relm.Lib.Patch

variable {α : Type*} {m m' : Nat → α} {start a : Nat} {data : List α}

/-- The memory after a block has been stored from an address on. -/
def patch (m : Nat → α) (start : Nat) (data : List α) (a : Nat) : α :=
  if start ≤ a then data[a - start]?.getD (m a) else m a

/-- The memory agrees with another on `n` addresses from `start` on, relative to it. -/
def HoldsAt (m : Nat → α) (start n : Nat) (image : Nat → α) : Prop := ∀ k < n, m (start + k) = image k

@[simp] theorem patch_nil (m : Nat → α) (start : Nat) : patch m start [] = m := by
  funext a
  simp [patch]

theorem patch_of_lt (h : a < start) : patch m start data a = m a := if_neg (by omega)

theorem patch_of_ge (h : start + data.length ≤ a) : patch m start data a = m a := by
  rw [patch, List.getElem?_eq_none (by omega)]
  exact ite_self _

theorem patch_of_mem (h : start ≤ a) (h' : a - start < data.length) : patch m start data a = data[a - start] := by
  rw [patch, if_pos h, List.getElem?_eq_getElem h', Option.getD_some]

/-- Outside the block nothing changes. -/
theorem patch_outside (h : a < start ∨ start + data.length ≤ a) : patch m start data a = m a := by
  rcases h with h | h
  · exact patch_of_lt h
  · exact patch_of_ge h

/-- What was there before does not show where the block lies. -/
theorem patch_background (h : (start ≤ a ∧ a < start + data.length) ∨ m a = m' a) :
    patch m start data a = patch m' start data a := by
  rcases h with h | h
  · rw [patch_of_mem h.1 (by omega), patch_of_mem h.1 (by omega)]
  · unfold patch
    rw [h]

/-- Storing at an offset from a base, seen from the base. -/
theorem patch_add (m : Nat → α) (base off : Nat) (data : List α) (k : Nat) :
    patch m (base + off) data (base + k) = patch (fun k => m (base + k)) off data k := by
  unfold patch
  rw [show base + k - (base + off) = k - off by omega]
  by_cases h : off ≤ k
  · rw [if_pos h, if_pos (by omega)]
  · rw [if_neg h, if_neg (by omega)]

/-- A block right after another is part of one longer block. -/
theorem patch_append (m : Nat → α) (start : Nat) (l r : List α) :
    patch (patch m start l) (start + l.length) r = patch m start (l ++ r) := by
  funext a
  rcases Nat.lt_or_ge a start with h | h
  · rw [patch_of_lt (by omega), patch_of_lt h, patch_of_lt h]
  rcases Nat.lt_or_ge a (start + l.length) with h1 | h1
  · have hl : a - start < l.length := by omega
    rw [patch_of_lt h1, patch_of_mem h hl, patch_of_mem h (by rw [List.length_append]; omega), List.getElem_append_left hl]
  · rw [patch, if_pos h1, patch_of_ge h1, patch, if_pos h, List.getElem?_append_right (by omega)]
    congr 2
    omega

/-- A block of images stored over a memory of images. -/
theorem patch_map {β : Type*} (g : α → β) (m : Nat → α) (start : Nat) (data : List α) :
    patch (fun a => g (m a)) start (data.map g) = fun a => g (patch m start data a) := by
  funext a
  unfold patch
  by_cases h : start ≤ a
  · rw [if_pos h, if_pos h, List.getElem?_map]
    cases data[a - start]? with
    | none => rfl
    | some x => rfl
  · rw [if_neg h, if_neg h]

namespace HoldsAt

variable {n : Nat} {image : Nat → α}

/-- A block that lies elsewhere leaves what is held. -/
theorem patch_disjoint (h : HoldsAt m start n image) {base : Nat} {data : List α}
    (hd : ∀ x, start ≤ x → x < start + n → base ≤ x → x < base + data.length → False) :
    HoldsAt (patch m base data) start n image := by
  intro k hk
  rw [patch_outside, h k hk]
  by_contra hc
  rw [not_or, Nat.not_lt, Nat.not_le] at hc
  exact hd (start + k) (by omega) (by omega) hc.1 hc.2

/-- A block stored within the range changes the image alike. -/
theorem patch_within (h : HoldsAt m start n image) (off : Nat) (data : List α) :
    HoldsAt (patch m (start + off) data) start n (patch image off data) := by
  intro k hk
  rw [patch_add]
  dsimp only [patch]
  rw [h k hk]

/-- A block is held where it has been stored. -/
theorem of_patch (m : Nat → α) (start : Nat) (data : List α) (image : Nat → α)
    (hi : ∀ k (hk : k < data.length), data[k] = image k) : HoldsAt (patch m start data) start data.length image := by
  intro k hk
  have hsub : start + k - start = k := by omega
  rw [patch_of_mem (by omega) (by omega), ← hi k hk]
  simp only [hsub]

/-- A part of what is held. -/
theorem sub (h : HoldsAt m start n image) (off len : Nat) (hle : off + len ≤ n) :
    HoldsAt m (start + off) len fun k => image (off + k) := by
  intro k hk
  rw [Nat.add_assoc]
  exact h (off + k) (by omega)

/-- A cleared range. -/
theorem of_replicate (m : Nat → α) (start n : Nat) (x : α) :
    HoldsAt (patch m start (List.replicate n x)) start n fun _ => x := by
  have h := of_patch m start (List.replicate n x) (fun _ => x) fun k hk => List.getElem_replicate ..
  rwa [List.length_replicate] at h

end HoldsAt

end Relm.Lib.Patch
