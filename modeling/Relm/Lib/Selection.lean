import Mathlib.Data.Finset.Card

/-! Selecting the elements with the greatest keys one after the other, with ties to the lower element. -/
namespace Relm.Lib.Selection

variable {ι K : Type*} [LinearOrder ι] [LinearOrder K] {key : ι → K} {s : Finset ι} {i j k : ι}

/-- An element comes before another: its key is greater, or the keys are equal and it is the lower one. -/
def Before (key : ι → K) (i j : ι) : Prop := key j < key i ∨ key j = key i ∧ i < j

theorem Before.key_le (h : Before key i j) : key j ≤ key i := by
  rcases h with h | ⟨h, -⟩
  · exact h.le
  · exact h.le

theorem Before.ne (h : Before key i j) : i ≠ j := by
  rintro rfl
  rcases h with h | ⟨-, h⟩
  · exact lt_irrefl _ h
  · exact lt_irrefl _ h

/-- What a scan of a set finds: its first element, or none if it is empty. -/
def First (key : ι → K) (s : Finset ι) : Option ι → Prop
  | none => s = ∅
  | some i => i ∈ s ∧ ∀ j ∈ s, j ≠ i → Before key i j

/-- An element met later with no greater key leaves the first one in place. -/
theorem First.keep (h : First key s (some i)) (hkey : key j ≤ key i) (hlow : i < j) :
    First key (insert j s) (some i) := by
  refine ⟨Finset.mem_insert_of_mem h.1, fun k hk hne => ?_⟩
  rcases Finset.mem_insert.mp hk with rfl | hk
  · rcases hkey.lt_or_eq with hlt | heq
    · exact .inl hlt
    · exact .inr ⟨heq, hlow⟩
  · exact h.2 k hk hne

/-- An element with a greater key becomes the first one. -/
theorem First.take {b : Option ι} (h : First key s b) (hkey : ∀ i, b = some i → key i < key j) :
    First key (insert j s) (some j) := by
  refine ⟨Finset.mem_insert_self j s, fun k hk hne => ?_⟩
  have hmem : k ∈ s := Finset.mem_of_mem_insert_of_ne hk hne
  cases b with
  | none =>
    have hempty : s = ∅ := h
    rw [hempty] at hmem
    exact absurd hmem (Finset.notMem_empty k)
  | some i =>
    have hlt := hkey i rfl
    by_cases hki : k = i
    · rw [hki]
      exact .inl hlt
    · exact .inl ((h.2 k hmem hki).key_le.trans_lt hlt)

/-- The elements of a list are the first of a set, in order. -/
structure Top (key : ι → K) (s : Finset ι) (sel : List ι) : Prop where
  mem : ∀ i ∈ sel, i ∈ s
  sorted : sel.Pairwise (Before key)
  rest : ∀ i ∈ sel, ∀ j ∈ s, j ∉ sel → Before key i j

namespace Top

variable {sel : List ι}

theorem nil : Top key s [] := by
  refine ⟨?_, List.Pairwise.nil, ?_⟩
  · intro i hi
    cases hi
  · intro i hi
    cases hi

/-- The first of what is left is selected next. -/
theorem concat (h : Top key s sel) (hi : First key (s \ sel.toFinset) (some i)) : Top key s (sel ++ [i]) := by
  obtain ⟨hs, hnot⟩ := Finset.mem_sdiff.mp hi.1
  rw [List.mem_toFinset] at hnot
  refine ⟨?_, ?_, ?_⟩
  · intro j hj
    rcases List.mem_append.mp hj with hj | hj
    · exact h.mem j hj
    · rw [List.mem_singleton.mp hj]
      exact hs
  · refine List.pairwise_append.mpr ⟨h.sorted, List.pairwise_singleton _ _, fun j hj k hk => ?_⟩
    rw [List.mem_singleton.mp hk]
    exact h.rest j hj i hs hnot
  · intro j hj k hk hk'
    have hsel : k ∉ sel := fun hc => hk' (List.mem_append_left _ hc)
    have hne : k ≠ i := fun hc => hk' (List.mem_append_right _ (List.mem_singleton.mpr hc))
    rcases List.mem_append.mp hj with hj | hj
    · exact h.rest j hj k hk hsel
    · rw [List.mem_singleton.mp hj]
      exact hi.2 k (Finset.mem_sdiff.mpr ⟨hk, fun hc => hsel (List.mem_toFinset.mp hc)⟩) hne

theorem nodup (h : Top key s sel) : sel.Nodup := h.sorted.imp Before.ne

theorem length_le (h : Top key s sel) : sel.length ≤ s.card := by
  rw [← List.toFinset_card_of_nodup h.nodup]
  exact Finset.card_le_card fun i hi => h.mem i (List.mem_toFinset.mp hi)

/-- Once nothing is left the whole set has been selected. -/
theorem length_eq (h : Top key s sel) (hnone : First key (s \ sel.toFinset) none) : sel.length = s.card := by
  apply h.length_le.antisymm
  rw [← List.toFinset_card_of_nodup h.nodup]
  exact Finset.card_le_card (Finset.sdiff_eq_empty_iff_subset.mp hnone)

end Top

end Relm.Lib.Selection
