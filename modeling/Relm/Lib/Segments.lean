import Mathlib.Algebra.GroupWithZero.Nat
import Mathlib.Data.List.Perm.Subperm
import Mathlib.Data.List.Range
import Mathlib.Data.List.Nodup

/-! Arrays of values placed in a space of positions: lookup, and how much disjoint intervals can hold. -/
namespace Relm.Lib.Segments

variable {α : Type*}

/-- Arrays, each with the position of its first value; where they overlap the first array counts. -/
abbrev Layout (α : Type*) := List (Nat × List α)

/-- The value one array has at a position. -/
def valueAt (seg : Nat × List α) (n : Nat) : Option α := if seg.1 ≤ n then seg.2[n - seg.1]? else none

def lookup (l : Layout α) (n : Nat) : Option α := l.findSome? (valueAt · n)

/-- Two arrays share no position. -/
def Separate (a b : Nat × List α) : Prop := a.1 + a.2.length ≤ b.1 ∨ b.1 + b.2.length ≤ a.1

variable {l : Layout α} {seg : Nat × List α} {n : Nat} {x : α}

theorem valueAt_eq_some (h : valueAt seg n = some x) : seg.1 ≤ n ∧ n < seg.1 + seg.2.length := by
  unfold valueAt at h
  split at h
  · rename_i hle
    obtain ⟨hlt, -⟩ := List.getElem?_eq_some_iff.mp h
    exact ⟨hle, by omega⟩
  · cases h

theorem lookup_cons (seg : Nat × List α) (l : Layout α) (n : Nat) :
    lookup (seg :: l) n = (valueAt seg n).or (lookup l n) := by
  unfold lookup
  rw [List.findSome?_cons]
  cases valueAt seg n <;> rfl

/-- An empty array holds nothing. -/
theorem lookup_empty (p : Nat) (l : Layout α) (n : Nat) : lookup ((p, []) :: l) n = lookup l n := by
  rw [lookup_cons]
  have hnone : valueAt (p, ([] : List α)) n = none := by
    unfold valueAt
    split <;> rfl
  rw [hnone, Option.none_or]

/-- One value more at the end of the first array. -/
theorem lookup_push (p : Nat) (xs : List α) (x : α) (l : Layout α) (n : Nat) :
    lookup ((p, xs ++ [x]) :: l) n = if n = p + xs.length then some x else lookup ((p, xs) :: l) n := by
  rw [lookup_cons, lookup_cons]
  by_cases hn : n = p + xs.length
  · have hval : valueAt (p, xs ++ [x]) n = some x := by
      rw [valueAt, if_pos (show p ≤ n by omega), show n - p = xs.length by omega]
      exact List.getElem?_concat_length
    rw [if_pos hn, hval, Option.some_or]
  · have hval : valueAt (p, xs ++ [x]) n = valueAt (p, xs) n := by
      unfold valueAt
      split
      · rename_i hle
        change p ≤ n at hle
        rcases Nat.lt_or_ge (n - p) xs.length with hlt | hge
        · exact List.getElem?_append_left hlt
        · rw [List.getElem?_eq_none (by simpa using (by omega : xs.length + 1 ≤ n - p)), List.getElem?_eq_none hge]
      · rfl
    rw [if_neg hn, hval]

theorem lookup_eq_some (h : lookup l n = some x) : ∃ seg ∈ l, valueAt seg n = some x := List.exists_of_findSome?_eq_some h

/-- Among disjoint arrays the one that has a position is found. -/
theorem lookup_of_mem (hl : l.Pairwise Separate) (hm : seg ∈ l) (h : valueAt seg n = some x) : lookup l n = some x := by
  induction l with
  | nil => cases hm
  | cons first rest ih =>
    obtain ⟨hfirst, hrest⟩ := List.pairwise_cons.mp hl
    rw [lookup_cons]
    rcases List.mem_cons.mp hm with rfl | hm
    · rw [h, Option.some_or]
    · have hnone : valueAt first n = none := by
        by_contra hne
        obtain ⟨y, hy⟩ := Option.ne_none_iff_exists'.mp hne
        have hin := valueAt_eq_some hy
        have hin' := valueAt_eq_some h
        rcases hfirst seg hm with ha | ha <;> omega
      rw [hnone, Option.none_or]
      exact ih hrest hm

section Matched

variable {β : Type*} {R : α → β → Prop} {xs : List α} {ys : List β}

theorem exists_of_matched (h : List.Forall₂ R xs ys) {a : α} (ha : a ∈ xs) : ∃ b ∈ ys, R a b := by
  induction h with
  | nil => cases ha
  | cons hr _ ih =>
    rcases List.mem_cons.mp ha with rfl | ha
    · exact ⟨_, List.mem_cons_self, hr⟩
    · obtain ⟨b, hb, hab⟩ := ih ha
      exact ⟨b, List.mem_cons_of_mem _ hb, hab⟩

/-- Lists matched one to one inherit what holds pairwise. -/
theorem pairwise_of_matched {S : α → α → Prop} {T : β → β → Prop} (h : List.Forall₂ R xs ys)
    (hy : ys.Pairwise T) (hst : ∀ a a' b b', R a b → R a' b' → T b b' → S a a') : xs.Pairwise S := by
  induction h with
  | nil => exact .nil
  | cons hr hrest ih =>
    obtain ⟨hfirst, hpair⟩ := List.pairwise_cons.mp hy
    refine List.pairwise_cons.mpr ⟨fun a' ha' => ?_, ih hpair⟩
    obtain ⟨b', hb', hab'⟩ := exists_of_matched hrest ha'
    exact hst _ _ _ _ hr hab' (hfirst b' hb')

end Matched

/-- Disjoint intervals below a bound are together no longer than the bound. -/
theorem sum_length_le (bound : Nat) (l : List (Nat × Nat))
    (hl : l.Pairwise fun a b => a.1 + a.2 ≤ b.1 ∨ b.1 + b.2 ≤ a.1) (hb : ∀ a ∈ l, a.1 + a.2 ≤ bound) :
    (l.map Prod.snd).sum ≤ bound := by
  have hlen : (l.flatMap fun a => List.range' a.1 a.2).length = (l.map Prod.snd).sum := by
    rw [List.length_flatMap]
    simp
  have hnodup : (l.flatMap fun a => List.range' a.1 a.2).Nodup := by
    refine List.nodup_flatMap.mpr ⟨fun a _ => List.nodup_range', hl.imp fun {a b} hab x hx hx' => ?_⟩
    rw [List.mem_range'_1] at hx hx'
    omega
  have hsub : (l.flatMap fun a => List.range' a.1 a.2) ⊆ List.range bound := by
    intro x hx
    obtain ⟨a, ha, hx⟩ := List.mem_flatMap.mp hx
    rw [List.mem_range'_1] at hx
    have := hb a ha
    exact List.mem_range.mpr (by omega)
  rw [← hlen]
  simpa using (hnodup.subperm hsub).length_le

/-- Disjoint intervals below the sum of their lengths leave no gap. -/
theorem covered_of_sum_eq {bound : Nat} {l : List (Nat × Nat)}
    (hl : l.Pairwise fun a b => a.1 + a.2 ≤ b.1 ∨ b.1 + b.2 ≤ a.1) (hb : ∀ a ∈ l, a.2 ≠ 0 → a.1 + a.2 ≤ bound)
    (hsum : (l.map Prod.snd).sum = bound) {n : Nat} (hn : n < bound) : ∃ a ∈ l, a.1 ≤ n ∧ n < a.1 + a.2 := by
  by_contra hnone
  have hapart : ∀ a ∈ l, a.2 ≠ 0 → n + 1 ≤ a.1 ∨ a.1 + a.2 ≤ n := by
    intro a ha h0
    by_contra hc
    exact hnone ⟨a, ha, by omega, by omega⟩
  -- the missing position would be one interval more, below the same bound
  have hle := sum_length_le bound ((n, 1) :: l.filter fun a => a.2 ≠ 0)
    (.cons (fun a ha => by
      obtain ⟨hm, h0⟩ := List.mem_filter.mp ha
      exact hapart a hm (by simpa using h0)) (hl.filter _)) (by
    intro a ha
    rcases List.mem_cons.mp ha with rfl | ha
    · exact hn
    · obtain ⟨hm, h0⟩ := List.mem_filter.mp ha
      exact hb a hm (by simpa using h0))
  have hsame : ((l.filter fun a => a.2 ≠ 0).map Prod.snd).sum = (l.map Prod.snd).sum := by
    clear hl hb hsum hn hnone hapart hle
    induction l with
    | nil => rfl
    | cons a l ih =>
      by_cases h0 : a.2 = 0
      · simpa [List.filter_cons, h0] using ih
      · simpa [List.filter_cons, h0] using ih
  rw [List.map_cons, List.sum_cons, hsame, hsum] at hle
  exact absurd hle (by omega)

end Relm.Lib.Segments
