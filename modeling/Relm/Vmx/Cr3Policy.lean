import Mathlib.Data.Fintype.Card
import Mathlib.Data.Prod.Lex
import Relm.Host.Pages
import Relm.Lib.Selection

/-! The frequency policy of the CR3 target cache: which candidates it promotes. -/
namespace Relm.Vmx
open Relm.Lib.Selection

def relmCr3MaxTargets : Nat := 4
def relmCr3CacheSize : Nat := 16

/-- `struct cr3_target_entry`. -/
structure Cr3TargetEntry where
  cr3Value : U64 := 0
  hitCount : U64 := 0
  lastSeenNs : U64 := 0
  promoted : Bool := false

/-- The best candidate an inner loop has met. -/
structure Best where
  idx : Option (Fin relmCr3CacheSize) := none
  count : U64 := 0
  ts : U64 := 0

section Policy

variable (candidates : Fin relmCr3CacheSize → Cr3TargetEntry)

/-- One iteration of the inner loop. -/
def Best.consider (picked : Fin relmCr3CacheSize → Bool) (b : Best) (i : Fin relmCr3CacheSize) : Best :=
  let e := candidates i
  if picked i then b
  else if e.cr3Value == 0 then b
  else if e.hitCount == 0 then b
  else if e.hitCount > b.count || (e.hitCount == b.count && e.lastSeenNs > b.ts) then ⟨some i, e.hitCount, e.lastSeenNs⟩
  else b

/-- The inner loop; `none` when it indexes past the arrays. -/
def bestCandidate (picked : Fin relmCr3CacheSize → Bool) : List Nat → Best → Option Best
  | [], b => some b
  | i :: rest, b =>
    if h : i < relmCr3CacheSize then bestCandidate picked rest (b.consider candidates picked ⟨i, h⟩) else none

/-- The outer loop, with the passes left and what has been selected. -/
def selectPasses (n : Nat) : (left : Nat) → (Fin relmCr3CacheSize → Bool) → List U64 → Option (List U64)
  | 0, _, selected => some selected
  | left + 1, picked, selected =>
    match bestCandidate candidates picked (List.range n) {} with
    | none => none
    | some best =>
      match best.idx with
      | none => some selected
      | some i => selectPasses n left (Function.update picked i true) (selected ++ [(candidates i).cr3Value])

/-- The selected values; `none` when a loop indexes past the arrays. -/
def relmCr3CachePolicyFrequency (nCandidates : U32) : Option (List U64) :=
  let n := nCandidates.toNat
  selectPasses candidates n (if n < relmCr3MaxTargets then n else relmCr3MaxTargets) (fun _ => false) []

end Policy

/-- An entry that can be promoted. -/
def Cr3TargetEntry.valid (e : Cr3TargetEntry) : Bool := e.cr3Value != 0 && e.hitCount != 0

/-- What the policy compares: the hit count, then the time of the last hit. -/
def Cr3TargetEntry.rank (e : Cr3TargetEntry) : ℕ ×ₗ ℕ := toLex (e.hitCount.toNat, e.lastSeenNs.toNat)

section Selection

variable (candidates : Fin relmCr3CacheSize → Cr3TargetEntry)

def rankOf (i : Fin relmCr3CacheSize) : ℕ ×ₗ ℕ := (candidates i).rank

/-- The valid entries among the first ones. -/
def validBelow (n : Nat) : Finset (Fin relmCr3CacheSize) :=
  Finset.univ.filter fun i => i.val < n ∧ (candidates i).valid = true

/-- The selected entries are the first of the valid ones by rank, ties going to the lower index. -/
structure TopCandidates (n : Nat) (idxs : List (Fin relmCr3CacheSize)) : Prop where
  distinct : idxs.Nodup
  below : ∀ i ∈ idxs, i.val < n
  valid : ∀ i ∈ idxs, (candidates i).valid = true
  length : idxs.length = min relmCr3MaxTargets (validBelow candidates n).card
  ordered : idxs.Pairwise (Before (rankOf candidates))
  best : ∀ i ∈ idxs, ∀ j, j.val < n → (candidates j).valid = true → j ∉ idxs → Before (rankOf candidates) i j

variable {candidates} {picked : Fin relmCr3CacheSize → Bool}

theorem TopCandidates.length_le {n : Nat} {idxs : List (Fin relmCr3CacheSize)} (h : TopCandidates candidates n idxs) :
    idxs.length ≤ relmCr3MaxTargets := h.length.trans_le (min_le_left _ _)

theorem TopCandidates.occupied {n : Nat} {idxs : List (Fin relmCr3CacheSize)} (h : TopCandidates candidates n idxs) :
    ∀ i ∈ idxs, (candidates i).cr3Value ≠ 0 := by
  intro i hi
  have hv := h.valid i hi
  simp only [Cr3TargetEntry.valid, Bool.and_eq_true, bne_iff_ne] at hv
  exact hv.1

private theorem rankOf_lt {i j : Fin relmCr3CacheSize} : rankOf candidates j < rankOf candidates i ↔
    (candidates j).hitCount < (candidates i).hitCount ∨
      (candidates j).hitCount = (candidates i).hitCount ∧ (candidates j).lastSeenNs < (candidates i).lastSeenNs := by
  rw [rankOf, rankOf, Cr3TargetEntry.rank, Cr3TargetEntry.rank, Prod.Lex.toLex_lt_toLex, BitVec.lt_def, BitVec.lt_def,
    ← BitVec.toNat_inj]

/-- The entries a scan of the first ones chooses from. -/
private def eligible (candidates : Fin relmCr3CacheSize → Cr3TargetEntry) (picked : Fin relmCr3CacheSize → Bool) (m : Nat) :
    Finset (Fin relmCr3CacheSize) :=
  Finset.univ.filter fun i => i.val < m ∧ picked i = false ∧ (candidates i).valid = true

/-- The scan has found the first of the eligible entries so far, and remembers its count and its time. -/
private structure Found (candidates : Fin relmCr3CacheSize → Cr3TargetEntry) (picked : Fin relmCr3CacheSize → Bool)
    (m : Nat) (b : Best) : Prop where
  first : First (rankOf candidates) (eligible candidates picked m) b.idx
  empty : b.idx = none → b.count = 0
  count : ∀ i, b.idx = some i → b.count = (candidates i).hitCount
  ts : ∀ i, b.idx = some i → b.ts = (candidates i).lastSeenNs

private theorem eligible_zero : eligible candidates picked 0 = ∅ := by
  apply Finset.filter_eq_empty_iff.mpr
  intro i _ h
  exact absurd h.1 (Nat.not_lt_zero _)

private theorem eligible_skip {i : Fin relmCr3CacheSize} (h : ¬ (picked i = false ∧ (candidates i).valid = true)) :
    eligible candidates picked (i.val + 1) = eligible candidates picked i.val := by
  apply Finset.filter_congr
  intro j _
  constructor
  · rintro ⟨hlt, hj⟩
    rcases Nat.lt_succ_iff_lt_or_eq.mp hlt with hlt | heq
    · exact ⟨hlt, hj⟩
    · rw [Fin.ext heq] at hj
      exact absurd hj h
  · exact fun ⟨hlt, hj⟩ => ⟨Nat.lt_succ_of_lt hlt, hj⟩

private theorem eligible_insert {i : Fin relmCr3CacheSize} (hp : picked i = false) (hv : (candidates i).valid = true) :
    eligible candidates picked (i.val + 1) = insert i (eligible candidates picked i.val) := by
  apply Finset.ext
  intro j
  simp only [eligible, Finset.mem_filter, Finset.mem_univ, true_and, Finset.mem_insert]
  constructor
  · rintro ⟨hlt, hj⟩
    rcases Nat.lt_succ_iff_lt_or_eq.mp hlt with hlt | heq
    · exact .inr ⟨hlt, hj⟩
    · exact .inl (Fin.ext heq)
  · rintro (rfl | ⟨hlt, hj⟩)
    · exact ⟨Nat.lt_succ_self _, hp, hv⟩
    · exact ⟨Nat.lt_succ_of_lt hlt, hj⟩

private theorem consider_skip {b : Best} {i : Fin relmCr3CacheSize}
    (h : ¬ (picked i = false ∧ (candidates i).valid = true)) : b.consider candidates picked i = b := by
  unfold Best.consider
  simp only
  split
  · rfl
  rename_i hpick
  split
  · rfl
  rename_i hvalue
  split
  · rfl
  rename_i hcount
  refine absurd ⟨Bool.eq_false_of_not_eq_true hpick, ?_⟩ h
  rw [Cr3TargetEntry.valid, bne, bne, Bool.eq_false_of_not_eq_true hvalue, Bool.eq_false_of_not_eq_true hcount]
  rfl

private theorem consider_valid {b : Best} {i : Fin relmCr3CacheSize} (hp : picked i = false)
    (hv : (candidates i).valid = true) : b.consider candidates picked i =
      if b.count < (candidates i).hitCount ∨ (candidates i).hitCount = b.count ∧ b.ts < (candidates i).lastSeenNs then
        ⟨some i, (candidates i).hitCount, (candidates i).lastSeenNs⟩ else b := by
  simp only [Cr3TargetEntry.valid, Bool.and_eq_true, bne_iff_ne] at hv
  simp only [Best.consider, hp, Bool.false_eq_true, if_false, beq_iff_eq, hv.1, hv.2, Bool.or_eq_true, Bool.and_eq_true,
    decide_eq_true_eq, gt_iff_lt]

/-- One iteration of the scan. -/
private theorem Found.next {b : Best} {i : Fin relmCr3CacheSize} (h : Found candidates picked i.val b) :
    Found candidates picked (i.val + 1) (b.consider candidates picked i) := by
  by_cases hi : picked i = false ∧ (candidates i).valid = true
  · obtain ⟨hp, hv⟩ := hi
    have hins := eligible_insert hp hv
    rw [consider_valid hp hv]
    by_cases hgt : b.count < (candidates i).hitCount ∨
        (candidates i).hitCount = b.count ∧ b.ts < (candidates i).lastSeenNs
    · rw [if_pos hgt]
      refine ⟨?_, ?_, ?_, ?_⟩
      · rw [hins]
        apply h.first.take
        intro j hj
        rw [h.count j hj, h.ts j hj] at hgt
        exact rankOf_lt.mpr (hgt.imp_right fun ⟨heq, hlt⟩ => ⟨heq.symm, hlt⟩)
      · intro hc
        cases hc
      · rintro j ⟨⟩
        rfl
      · rintro j ⟨⟩
        rfl
    · rw [if_neg hgt]
      refine ⟨?_, h.empty, h.count, h.ts⟩
      rw [hins]
      cases hidx : b.idx with
      | none =>
        -- an eligible entry has been hit, so it beats the zero that the scan starts from
        rw [h.empty hidx] at hgt
        simp only [Cr3TargetEntry.valid, Bool.and_eq_true, bne_iff_ne] at hv
        exact absurd (.inl ((BitVec.pos_iff_ne_zero _).mpr hv.2)) hgt
      | some j =>
        have hfirst := h.first
        rw [hidx] at hfirst
        rw [h.count j hidx, h.ts j hidx] at hgt
        have hle : rankOf candidates i ≤ rankOf candidates j := by
          rw [← not_lt, rankOf_lt]
          exact fun hc => hgt (hc.imp_right fun ⟨heq, hlt⟩ => ⟨heq.symm, hlt⟩)
        exact hfirst.keep hle (Finset.mem_filter.mp hfirst.1).2.1
  · rw [consider_skip hi]
    refine ⟨?_, h.empty, h.count, h.ts⟩
    rw [eligible_skip hi]
    exact h.first

private theorem bestCandidate_from {b : Best} {m : Nat} (h : Found candidates picked m b) (k : Nat)
    (hk : m + k ≤ relmCr3CacheSize) :
    ∃ best, bestCandidate candidates picked (List.range' m k) b = some best ∧ Found candidates picked (m + k) best := by
  induction k generalizing m b with
  | zero => exact ⟨b, rfl, h⟩
  | succ k ih =>
    have hm : m < relmCr3CacheSize := by omega
    have hnext : Found candidates picked (m + 1) (b.consider candidates picked ⟨m, hm⟩) := h.next (i := ⟨m, hm⟩)
    rw [List.range'_succ, bestCandidate, dif_pos hm, show m + (k + 1) = m + 1 + k by omega]
    exact ih hnext (by omega)

/-- The scan of the first entries. -/
private theorem bestCandidate_spec (candidates : Fin relmCr3CacheSize → Cr3TargetEntry)
    (picked : Fin relmCr3CacheSize → Bool) {n : Nat} (hn : n ≤ relmCr3CacheSize) :
    ∃ best, bestCandidate candidates picked (List.range n) {} = some best ∧
      First (rankOf candidates) (eligible candidates picked n) best.idx := by
  have hstart : Found candidates picked 0 {} :=
    ⟨eligible_zero, fun _ => rfl, fun i hi => (by cases hi), fun i hi => (by cases hi)⟩
  obtain ⟨best, hbest, hfound⟩ := bestCandidate_from hstart n (by omega)
  rw [Nat.zero_add] at hfound
  rw [List.range_eq_range']
  exact ⟨best, hbest, hfound.first⟩

private theorem eligible_eq {idxs : List (Fin relmCr3CacheSize)} (hp : ∀ i, picked i = true ↔ i ∈ idxs) (n : Nat) :
    eligible candidates picked n = validBelow candidates n \ idxs.toFinset := by
  apply Finset.ext
  intro i
  have hpick : picked i = false ↔ i ∉ idxs := by rw [← hp i, Bool.not_eq_true]
  simp only [eligible, validBelow, Finset.mem_filter, Finset.mem_univ, true_and, Finset.mem_sdiff, List.mem_toFinset, hpick]
  tauto

/-- The passes go on selecting the first of what is left. -/
private theorem selectPasses_spec {n : Nat} (hn : n ≤ relmCr3CacheSize) (left : Nat) (idxs : List (Fin relmCr3CacheSize))
    (htop : Top (rankOf candidates) (validBelow candidates n) idxs) (hp : ∀ i, picked i = true ↔ i ∈ idxs) :
    ∃ all, Top (rankOf candidates) (validBelow candidates n) all ∧ all.length ≤ idxs.length + left ∧
      (all.length < idxs.length + left → all.length = (validBelow candidates n).card) ∧
      selectPasses candidates n left picked (idxs.map fun i => (candidates i).cr3Value) =
        some (all.map fun i => (candidates i).cr3Value) := by
  induction left generalizing idxs picked with
  | zero => exact ⟨idxs, htop, le_rfl, fun h => absurd h (lt_irrefl _), rfl⟩
  | succ left ih =>
    obtain ⟨best, hbest, hfirst⟩ := bestCandidate_spec candidates picked hn
    rw [eligible_eq hp] at hfirst
    simp only [selectPasses, hbest]
    cases hidx : best.idx with
    | none =>
      rw [hidx] at hfirst
      exact ⟨idxs, htop, by omega, fun _ => htop.length_eq hfirst, rfl⟩
    | some i =>
      rw [hidx] at hfirst
      have hpick : ∀ j, Function.update picked i true j = true ↔ j ∈ idxs ++ [i] := by
        intro j
        rw [List.mem_append, List.mem_singleton, ← hp j]
        by_cases hj : j = i
        · rw [hj, Function.update_self]
          exact iff_of_true rfl (.inr rfl)
        · rw [Function.update_of_ne hj]
          exact (or_iff_left hj).symm
      obtain ⟨all, hall, hle, hfull, hsel⟩ := ih (idxs ++ [i]) (htop.concat hfirst) hpick
      rw [List.length_append, List.length_singleton, Nat.add_assoc, Nat.add_comm 1 left] at hle hfull
      refine ⟨all, hall, hle, hfull, ?_⟩
      rw [← hsel, List.map_append]
      rfl

private theorem validBelow_card (n : Nat) : (validBelow candidates n).card ≤ n := by
  have hle : (validBelow candidates n).card ≤ (Finset.range n).card := by
    apply Finset.card_le_card_of_injOn Fin.val
    · intro i hi
      exact Finset.mem_range.mpr (Finset.mem_filter.mp hi).2.1
    · intro i _ j _ hij
      exact Fin.ext hij
  rwa [Finset.card_range] at hle

/-- What the policy selects. -/
theorem policy_spec (candidates : Fin relmCr3CacheSize → Cr3TargetEntry) {n : U32} (hn : n.toNat ≤ relmCr3CacheSize) :
    ∃ idxs, TopCandidates candidates n.toNat idxs ∧
      relmCr3CachePolicyFrequency candidates n = some (idxs.map fun i => (candidates i).cr3Value) := by
  have hpick : ∀ i : Fin relmCr3CacheSize, (fun _ => false : Fin relmCr3CacheSize → Bool) i = true ↔ i ∈ [] := by simp
  obtain ⟨idxs, htop, hle, hfull, hsel⟩ := selectPasses_spec hn
    (if n.toNat < relmCr3MaxTargets then n.toNat else relmCr3MaxTargets) [] Top.nil hpick
  have hmem : ∀ i ∈ idxs, i.val < n.toNat ∧ (candidates i).valid = true :=
    fun i hi => (Finset.mem_filter.mp (htop.mem i hi)).2
  refine ⟨idxs, ⟨htop.nodup, fun i hi => (hmem i hi).1, fun i hi => (hmem i hi).2, ?_, htop.sorted, ?_⟩, hsel⟩
  · have hcard := htop.length_le
    have hcard' : (validBelow candidates n.toNat).card ≤ n.toNat := validBelow_card n.toNat
    rw [List.length_nil, Nat.zero_add] at hle hfull
    split at hle <;> rename_i hlt
    · rw [if_pos hlt] at hfull
      omega
    · rw [if_neg hlt] at hfull
      omega
  · intro i hi j hj hv hnot
    exact htop.rest i hi j (Finset.mem_filter.mpr ⟨Finset.mem_univ j, hj, hv⟩) hnot

variable {others : Fin relmCr3CacheSize → Cr3TargetEntry}

private theorem bestCandidate_congr {l : List Nat}
    (h : ∀ i : Fin relmCr3CacheSize, i.val ∈ l → others i = candidates i) (b : Best) :
    bestCandidate others picked l b = bestCandidate candidates picked l b := by
  induction l generalizing b with
  | nil => rfl
  | cons m l ih =>
    rw [bestCandidate, bestCandidate]
    by_cases hm : m < relmCr3CacheSize
    · have hentry : others ⟨m, hm⟩ = candidates ⟨m, hm⟩ := h ⟨m, hm⟩ List.mem_cons_self
      have hconsider : b.consider others picked ⟨m, hm⟩ = b.consider candidates picked ⟨m, hm⟩ := by
        unfold Best.consider
        rw [hentry]
      rw [dif_pos hm, dif_pos hm, hconsider]
      exact ih (fun i hi => h i (List.mem_cons_of_mem m hi)) _
    · rw [dif_neg hm, dif_neg hm]

private theorem selectPasses_congr {n : Nat} (hn : n ≤ relmCr3CacheSize)
    (h : ∀ i : Fin relmCr3CacheSize, i.val < n → others i = candidates i) (left : Nat) (selected : List U64) :
    selectPasses others n left picked selected = selectPasses candidates n left picked selected := by
  induction left generalizing picked selected with
  | zero => rfl
  | succ left ih =>
    have hsame : bestCandidate others picked (List.range n) {} = bestCandidate candidates picked (List.range n) {} :=
      bestCandidate_congr (fun i hi => h i (List.mem_range.mp hi)) {}
    obtain ⟨best, hbest, hfirst⟩ := bestCandidate_spec candidates picked hn
    simp only [selectPasses, hsame, hbest]
    cases hidx : best.idx with
    | none => rfl
    | some i =>
      rw [hidx] at hfirst
      have hlt : i.val < n := (Finset.mem_filter.mp hfirst.1).2.1
      dsimp only
      rw [h i hlt]
      exact ih _

end Selection

/-- The policy selects the first valid entries by hit count and time, as many as there are up to four, and reads no
entry past the given number. -/
theorem policy_selects_top (candidates : Fin relmCr3CacheSize → Cr3TargetEntry) {n : U32}
    (hn : n.toNat ≤ relmCr3CacheSize) :
    (∃ idxs, TopCandidates candidates n.toNat idxs ∧
      relmCr3CachePolicyFrequency candidates n = some (idxs.map fun i => (candidates i).cr3Value)) ∧
      ∀ others : Fin relmCr3CacheSize → Cr3TargetEntry, (∀ i, i.val < n.toNat → others i = candidates i) →
        relmCr3CachePolicyFrequency others n = relmCr3CachePolicyFrequency candidates n := by
  constructor
  · exact policy_spec candidates hn
  · intro others h
    exact selectPasses_congr hn h _ _

/-- Three values hit equally often, and one more often. -/
private def tied (i : Fin relmCr3CacheSize) : Cr3TargetEntry :=
  if i.val < 4 then { cr3Value := BitVec.ofNat 64 (0x1000 * (i.val + 1)), hitCount := if i.val = 2 then 30 else 20 } else {}

theorem policy_selects_top_tied : ∃ idxs, TopCandidates tied 4 idxs ∧
    idxs.map (fun i => (tied i).cr3Value) = [0x3000#64, 0x1000#64, 0x2000#64, 0x4000#64] := by
  obtain ⟨⟨idxs, htop, hsel⟩, -⟩ := policy_selects_top tied (n := 4#32) (by decide)
  have hvalues : relmCr3CachePolicyFrequency tied 4#32 = some [0x3000#64, 0x1000#64, 0x2000#64, 0x4000#64] := by rfl
  rw [hvalues] at hsel
  exact ⟨idxs, htop, (Option.some.inj hsel).symm⟩

end Relm.Vmx
