import Mathlib.Tactic.IntervalCases
import Relm.Vmx.Cr3Policy
import Relm.Vmx.Vmcs

/-! The CR3 target cache: the candidate table and the target list of the VMCS. -/
namespace Relm.Vmx

def relmCr3PromoteThreshold : U64 := 10#64

def cr3TargetCount : Nat := 0x400A
/-- `CR3_TARGET_VALUES`: the encodings 0x6008, 0x600A, 0x600C and 0x600E. -/
def cr3TargetValue (k : Nat) : Nat := 0x6008 + 2 * k

/-- `struct cr3_shadow_cache`, without the lock. -/
structure Cr3ShadowCache where
  candidates : Fin relmCr3CacheSize → Cr3TargetEntry
  candidateCount : U64
  promotedCount : U32
  totalCr3Exits : U64

def relmCr3CacheInit : Cr3ShadowCache where
  candidates _ := {}
  candidateCount := 0
  promotedCount := 0
  totalCr3Exits := 0

/-- The cache of a VCPU with the VMCS it writes to. -/
structure Cr3State where
  cache : Cr3ShadowCache
  vmcs : Vmcs

/-- The loop that stores the selected values; on a failed VMWRITE the VMCS so far. -/
def writeTargets : (k : Nat) → List U64 → Vmcs → Except Vmcs Vmcs
  | _, [], v => .ok v
  | k, x :: rest, v =>
    match v.vmwrite (cr3TargetValue k) x with
    | none => .error v
    | some v => writeTargets (k + 1) rest v

/-- After a failed VMWRITE: targeting off, nothing promoted. -/
def disableTargets (cache : Cr3ShadowCache) (v : Vmcs) : Cr3State :=
  { cache := { cache with promotedCount := 0 }, vmcs := (v.vmwrite cr3TargetCount 0).getD v }

def relmCr3CacheApply (s : Cr3State) : Option Cr3State :=
  match relmCr3CachePolicyFrequency s.cache.candidates (s.cache.candidateCount.setWidth 32) with
  | none => none
  | some new =>
    let newCount : U32 := BitVec.ofNat 32 new.length
    let changed := newCount != s.cache.promotedCount ||
      !new.all fun x => (List.finRange relmCr3CacheSize).any fun j =>
        (s.cache.candidates j).promoted && (s.cache.candidates j).cr3Value == x
    if !changed then some s
    else
      let demoted := { s.cache with candidates := fun i => { s.cache.candidates i with promoted := false } }
      match writeTargets 0 new s.vmcs with
      | .error v => some (disableTargets demoted v)
      | .ok v =>
        match v.vmwrite cr3TargetCount (newCount.setWidth 64) with
        | none => some (disableTargets demoted v)
        | some v =>
          let mark (e : Cr3TargetEntry) := if e.cr3Value != 0 && new.contains e.cr3Value then { e with promoted := true } else e
          some { cache := { demoted with candidates := fun i => mark (demoted.candidates i), promotedCount := newCount }, vmcs := v }

/-- What the scan of the table found; an index that stays `RELM_CR3_CACHE_SIZE` is `none`. -/
structure Scan where
  found : Option (Fin relmCr3CacheSize) := none
  empty : Option (Fin relmCr3CacheSize) := none
  evict : Option (Fin relmCr3CacheSize) := none
  evictCount : U64 := BitVec.allOnes 64

/-- One iteration past the comparison with the recorded value. -/
def Scan.note (sc : Scan) (i : Fin relmCr3CacheSize) (e : Cr3TargetEntry) : Scan :=
  let sc := if e.cr3Value == 0 && sc.empty.isNone then { sc with empty := some i } else sc
  if e.cr3Value != 0 && !e.promoted && e.hitCount < sc.evictCount then { sc with evict := some i, evictCount := e.hitCount } else sc

/-- The scan stops at the recorded value. -/
def scanCandidates (candidates : Fin relmCr3CacheSize → Cr3TargetEntry) (cr3 : U64) :
    List (Fin relmCr3CacheSize) → Scan → Scan
  | [], sc => sc
  | i :: rest, sc =>
    if (candidates i).cr3Value == cr3 then { sc with found := some i }
    else scanCandidates candidates cr3 rest (sc.note i (candidates i))

/-- `relm_cr3_cache_record`, with the time it reads; `none` when the policy indexes past the table. -/
def relmCr3CacheRecord (s : Cr3State) (cr3 now : U64) : Option Cr3State :=
  let cache := { s.cache with totalCr3Exits := s.cache.totalCr3Exits + 1 }
  let sc := scanCandidates cache.candidates cr3 (List.finRange relmCr3CacheSize) {}
  let put (i : Fin relmCr3CacheSize) (e : Cr3TargetEntry) := Function.update cache.candidates i e
  match sc.found with
  | some i =>
    let e := { cache.candidates i with hitCount := (cache.candidates i).hitCount + 1, lastSeenNs := now }
    let s := { s with cache := { cache with candidates := put i e } }
    if e.hitCount ≥ relmCr3PromoteThreshold && !e.promoted then relmCr3CacheApply s else some s
  | none =>
    match sc.empty with
    | some i =>
      some { s with cache := { cache with candidates := put i ⟨cr3, 1, now, false⟩, candidateCount := cache.candidateCount + 1 } }
    | none =>
      match sc.evict with
      | some i => some { s with cache := { cache with candidates := put i ⟨cr3, 1, now, false⟩ } }
      | none => some { s with cache }

namespace Cr3State

/-- The value in a slot of the table. -/
def value (s : Cr3State) (i : Fin relmCr3CacheSize) : U64 := (s.cache.candidates i).cr3Value
/-- Is the slot's value in the VMCS, as the table has it? -/
def isPromoted (s : Cr3State) (i : Fin relmCr3CacheSize) : Bool := (s.cache.candidates i).promoted
/-- The occupied slots. -/
def occupied (s : Cr3State) : Finset (Fin relmCr3CacheSize) := Finset.univ.filter fun i => s.value i ≠ 0
/-- The target values the processor compares with. -/
def targets (s : Cr3State) : List U64 :=
  (List.range (s.vmcs.fields cr3TargetCount).toNat).map fun k => s.vmcs.fields (cr3TargetValue k)

/-- The table, its two counters and the target list agree. -/
structure Consistent (s : Cr3State) : Prop where
  distinct : ∀ i j, s.value i ≠ 0 → s.value i = s.value j → i = j
  count : s.cache.candidateCount.toNat = s.occupied.card
  bound : s.cache.candidateCount.toNat ≤ relmCr3CacheSize
  promoted : ∀ x, (∃ i, s.isPromoted i = true ∧ s.value i = x) ↔ x ∈ s.targets
  promotedCount : s.cache.promotedCount.toNat = (s.vmcs.fields cr3TargetCount).toNat
  targetBound : s.cache.promotedCount.toNat ≤ relmCr3MaxTargets

/-- What the target list holds is not evicted. -/
def Keeps (s t : Cr3State) : Prop := ∀ i, s.value i ∈ s.targets → t.value i = s.value i

end Cr3State

/-- Every state of a run is consistent, every call stays within the arrays and evicts no target. -/
def CacheSound (s : Cr3State) : List (U64 × U64) → Prop
  | [] => s.Consistent
  | (cr3, now) :: calls => s.Consistent ∧ ∃ t, relmCr3CacheRecord s cr3 now = some t ∧ s.Keeps t ∧ CacheSound t calls

/-- A slot the scan would evict: occupied, not promoted, and its count below the largest. -/
def evictable (s : Cr3State) (i : Fin relmCr3CacheSize) : Prop :=
  s.value i ≠ 0 ∧ s.isPromoted i = false ∧ (s.cache.candidates i).hitCount ≠ BitVec.allOnes 64

/-- Not the value 0 for a full table with an evictable slot. -/
def recordFits (s : Cr3State) (cr3 : U64) : Prop := ¬ (cr3 = 0 ∧ (∀ i, s.value i ≠ 0) ∧ ∃ i, evictable s i)

/-- No call of a run records 0 into a full table. -/
def RunFits (s : Cr3State) : List (U64 × U64) → Prop
  | [] => True
  | (cr3, now) :: calls => recordFits s cr3 ∧ ∀ t, relmCr3CacheRecord s cr3 now = some t → RunFits t calls

section Scan

variable {candidates : Fin relmCr3CacheSize → Cr3TargetEntry} {cr3 : U64}

/-- What a scan of the slots `seen` without a hit has established. -/
private structure Scanned (candidates : Fin relmCr3CacheSize → Cr3TargetEntry) (cr3 : U64)
    (seen : List (Fin relmCr3CacheSize)) (sc : Scan) : Prop where
  found : sc.found = none
  differs : ∀ i ∈ seen, (candidates i).cr3Value ≠ cr3
  full : sc.empty = none → ∀ i ∈ seen, (candidates i).cr3Value ≠ 0
  empty : ∀ i, sc.empty = some i → (candidates i).cr3Value = 0
  evict : ∀ i, sc.evict = some i → (candidates i).cr3Value ≠ 0 ∧ (candidates i).promoted = false ∧
    (candidates i).hitCount ≠ BitVec.allOnes 64
  limit : sc.evict = none → sc.evictCount = BitVec.allOnes 64
  noEvict : sc.evict = none → ∀ i ∈ seen, (candidates i).cr3Value ≠ 0 → (candidates i).promoted = false →
    (candidates i).hitCount = BitVec.allOnes 64

section Note

variable {seen : List (Fin relmCr3CacheSize)} {sc : Scan} {i : Fin relmCr3CacheSize}

private theorem note_free (hz : (candidates i).cr3Value = 0) :
    sc.note i (candidates i) = if sc.empty = none then { sc with empty := some i } else sc := by
  cases he : sc.empty with
  | none => simp [Scan.note, hz, he]
  | some j => simp [Scan.note, hz, he]

private theorem note_taken (hz : (candidates i).cr3Value ≠ 0) : sc.note i (candidates i) =
    if (candidates i).promoted = false ∧ (candidates i).hitCount < sc.evictCount then
      { sc with evict := some i, evictCount := (candidates i).hitCount } else sc := by
  have hz0 : ((candidates i).cr3Value == 0) = false := beq_eq_false_iff_ne.mpr hz
  have hz1 : ((candidates i).cr3Value != 0) = true := bne_iff_ne.mpr hz
  simp only [Scan.note, hz0, hz1, Bool.false_and, Bool.false_eq_true, if_false, Bool.true_and, Bool.and_eq_true,
    Bool.not_eq_true', decide_eq_true_eq]

private theorem seen_concat {P : Fin relmCr3CacheSize → Prop} (hseen : ∀ j ∈ seen, P j) (hi : P i) :
    ∀ j ∈ seen ++ [i], P j := by
  intro j hj
  rcases List.mem_append.mp hj with hj | hj
  · exact hseen j hj
  · rw [List.mem_singleton.mp hj]
    exact hi

/-- The largest count is the only one that is not below it. -/
private theorem lt_allOnes {x : U64} (h : x ≠ BitVec.allOnes 64) : x < BitVec.allOnes 64 := by
  have hmax : (BitVec.allOnes 64).toNat = 2 ^ 64 - 1 := by decide
  have hnat : x.toNat ≠ 2 ^ 64 - 1 := fun heq => h (BitVec.eq_of_toNat_eq (heq.trans hmax.symm))
  have hlt := x.isLt
  rw [BitVec.lt_def, hmax]
  omega

private theorem ne_allOnes {x y : U64} (h : x < y) : x ≠ BitVec.allOnes 64 := by
  rintro rfl
  have hlt := BitVec.lt_def.mp h
  rw [show (BitVec.allOnes 64).toNat = 2 ^ 64 - 1 by decide] at hlt
  have := y.isLt
  omega

private theorem Scanned.noteFree (h : Scanned candidates cr3 seen sc) (hi : (candidates i).cr3Value ≠ cr3)
    (hz : (candidates i).cr3Value = 0) : Scanned candidates cr3 (seen ++ [i]) (sc.note i (candidates i)) := by
  have hno : sc.evict = none → ∀ j ∈ seen ++ [i], (candidates j).cr3Value ≠ 0 → (candidates j).promoted = false →
      (candidates j).hitCount = BitVec.allOnes 64 :=
    fun hn => seen_concat (h.noEvict hn) fun hc => absurd hz hc
  rw [note_free hz]
  split
  · refine ⟨h.found, seen_concat h.differs hi, fun hn => (by cases hn), ?_, h.evict, h.limit, hno⟩
    rintro j ⟨⟩
    exact hz
  · rename_i he
    exact ⟨h.found, seen_concat h.differs hi, fun hn => absurd hn he, h.empty, h.evict, h.limit, hno⟩

private theorem Scanned.noteTaken (h : Scanned candidates cr3 seen sc) (hi : (candidates i).cr3Value ≠ cr3)
    (hz : (candidates i).cr3Value ≠ 0) : Scanned candidates cr3 (seen ++ [i]) (sc.note i (candidates i)) := by
  have hfull : sc.empty = none → ∀ j ∈ seen ++ [i], (candidates j).cr3Value ≠ 0 := fun hn => seen_concat (h.full hn) hz
  rw [note_taken hz]
  split
  · rename_i hc
    refine ⟨h.found, seen_concat h.differs hi, hfull, h.empty, ?_, fun hn => (by cases hn), fun hn => (by cases hn)⟩
    rintro j ⟨⟩
    exact ⟨hz, hc.1, ne_allOnes hc.2⟩
  · rename_i hc
    refine ⟨h.found, seen_concat h.differs hi, hfull, h.empty, h.evict, h.limit,
      fun hn => seen_concat (h.noEvict hn) fun _ hp => ?_⟩
    by_contra hne
    refine hc ⟨hp, ?_⟩
    rw [h.limit hn]
    exact lt_allOnes hne

private theorem Scanned.note (h : Scanned candidates cr3 seen sc) (hi : (candidates i).cr3Value ≠ cr3) :
    Scanned candidates cr3 (seen ++ [i]) (sc.note i (candidates i)) := by
  by_cases hz : (candidates i).cr3Value = 0
  · exact h.noteFree hi hz
  · exact h.noteTaken hi hz

end Note

private theorem scan_spec {seen rest : List (Fin relmCr3CacheSize)} {sc : Scan} (h : Scanned candidates cr3 seen sc) :
    (∃ i, (scanCandidates candidates cr3 rest sc).found = some i ∧ (candidates i).cr3Value = cr3) ∨
      Scanned candidates cr3 (seen ++ rest) (scanCandidates candidates cr3 rest sc) := by
  induction rest generalizing seen sc with
  | nil =>
    rw [List.append_nil]
    exact .inr h
  | cons i rest ih =>
    rw [scanCandidates]
    by_cases hi : (candidates i).cr3Value = cr3
    · rw [if_pos (beq_iff_eq.mpr hi)]
      exact .inl ⟨i, rfl, hi⟩
    · rw [if_neg (fun hc => hi (beq_iff_eq.mp hc))]
      have hnext := ih (h.note hi)
      rwa [List.append_assoc] at hnext

/-- A scan of the whole table finds the value, or knows that no slot holds it. -/
private theorem scan_table (candidates : Fin relmCr3CacheSize → Cr3TargetEntry) (cr3 : U64) :
    (∃ i, (scanCandidates candidates cr3 (List.finRange relmCr3CacheSize) {}).found = some i ∧ (candidates i).cr3Value = cr3) ∨
      Scanned candidates cr3 (List.finRange relmCr3CacheSize)
        (scanCandidates candidates cr3 (List.finRange relmCr3CacheSize) {}) := by
  have hinit : Scanned candidates cr3 [] {} :=
    ⟨rfl, by simp, by simp, fun _ hc => (by cases hc), fun _ hc => (by cases hc), fun _ => rfl, by simp⟩
  exact scan_spec hinit

end Scan

/-- The target fields of the VMCS can be written. -/
structure Vmcs.TargetsWritable (v : Vmcs) : Prop where
  count : v.supported cr3TargetCount = true
  value : ∀ k < relmCr3MaxTargets, v.supported (cr3TargetValue k) = true

section Targets

variable {v : Vmcs}

private theorem stored_value {k : Nat} (hk : k < relmCr3MaxTargets) (x : U64) : stored (cr3TargetValue k) x = x := by
  have hw : fieldWidth (cr3TargetValue k) = 64 := by
    unfold relmCr3MaxTargets at hk
    interval_cases k <;> rfl
  rw [stored, hw, Nat.mod_eq_of_lt x.isLt, BitVec.ofNat_toNat, BitVec.setWidth_eq]

private theorem stored_count {n : Nat} (hn : n ≤ relmCr3MaxTargets) :
    (stored cr3TargetCount (BitVec.setWidth 64 (BitVec.ofNat 32 n))).toNat = n := by
  unfold relmCr3MaxTargets at hn
  interval_cases n <;> rfl

private theorem writeTargets_spec (hw : v.TargetsWritable) (new : List U64) {k : Nat} (hk : k + new.length ≤ relmCr3MaxTargets) :
    ∃ v', writeTargets k new v = .ok v' ∧ v'.supported = v.supported ∧
      (∀ j (hj : j < new.length), v'.fields (cr3TargetValue (k + j)) = new[j]) ∧
      ∀ j < k, v'.fields (cr3TargetValue j) = v.fields (cr3TargetValue j) := by
  induction new generalizing k v with
  | nil => exact ⟨v, rfl, rfl, fun j hj => absurd hj (Nat.not_lt_zero j), fun _ _ => rfl⟩
  | cons x new ih =>
    rw [List.length_cons] at hk
    have hk4 : k < relmCr3MaxTargets := by omega
    obtain ⟨v', hv', hsup, hnew, hold⟩ := ih
      (v := { v with fields := fun e => if e = cr3TargetValue k then stored (cr3TargetValue k) x else v.fields e })
      ⟨hw.count, hw.value⟩ (k := k + 1) (by omega)
    refine ⟨v', ?_, hsup, ?_, ?_⟩
    · simp only [writeTargets, Vmcs.vmwrite, hw.value k hk4, if_true]
      exact hv'
    · intro j hj
      cases j with
      | zero =>
        have hfirst : v'.fields (cr3TargetValue k) = if cr3TargetValue k = cr3TargetValue k then
            stored (cr3TargetValue k) x else v.fields (cr3TargetValue k) := hold k (by omega)
        rw [if_pos rfl, stored_value hk4] at hfirst
        exact hfirst
      | succ j =>
        rw [List.length_cons] at hj
        rw [← Nat.add_assoc, Nat.add_right_comm]
        exact hnew j (by omega)
    · intro j hj
      have hne : cr3TargetValue j ≠ cr3TargetValue k := by
        unfold cr3TargetValue
        omega
      exact (hold j (by omega)).trans (if_neg hne)

end Targets

namespace Cr3State

variable {s : Cr3State}

/-- What a run keeps: consistency, and that only occupied slots are promoted. -/
structure Invariant (s : Cr3State) : Prop extends Consistent s where
  nonzero : ∀ i, s.isPromoted i = true → s.value i ≠ 0
  writable : s.vmcs.TargetsWritable

/-- The state after the target list has been written. -/
private def applied (s : Cr3State) (new : List U64) (v : Vmcs) : Cr3State where
  cache := { s.cache with
    candidates := fun i =>
      let e := { s.cache.candidates i with promoted := false }
      if e.cr3Value != 0 && new.contains e.cr3Value then { e with promoted := true } else e
    promotedCount := BitVec.ofNat 32 new.length }
  vmcs := v

private theorem applied_value (new : List U64) (v : Vmcs) (i : Fin relmCr3CacheSize) :
    (applied s new v).value i = s.value i := by
  unfold value applied
  simp only
  split <;> rfl

private theorem applied_isPromoted (new : List U64) (v : Vmcs) (i : Fin relmCr3CacheSize) :
    (applied s new v).isPromoted i = true ↔ s.value i ≠ 0 ∧ s.value i ∈ new := by
  have hcond : ((s.value i != 0 && new.contains (s.value i)) = true) ↔ s.value i ≠ 0 ∧ s.value i ∈ new := by
    rw [Bool.and_eq_true, bne_iff_ne, List.contains_iff_mem]
  rw [← hcond]
  unfold value isPromoted applied
  simp only
  split
  · rename_i hc
    exact ⟨fun _ => hc, fun _ => rfl⟩
  · rename_i hc
    exact ⟨fun h => (by cases h), fun h => absurd h hc⟩

private theorem applied_occupied (new : List U64) (v : Vmcs) : (applied s new v).occupied = s.occupied := by
  unfold occupied
  simp only [applied_value]

private theorem apply_eq {new : List U64}
    (hpolicy : relmCr3CachePolicyFrequency s.cache.candidates (s.cache.candidateCount.setWidth 32) = some new)
    (hw : s.vmcs.TargetsWritable) (hlen : new.length ≤ relmCr3MaxTargets) : relmCr3CacheApply s = some s ∨
      ∃ v, relmCr3CacheApply s = some (applied s new v) ∧ v.supported = s.vmcs.supported ∧
        (∀ j (hj : j < new.length), v.fields (cr3TargetValue j) = new[j]) ∧ (v.fields cr3TargetCount).toNat = new.length := by
  unfold relmCr3CacheApply
  simp only [hpolicy]
  split
  · exact .inl rfl
  obtain ⟨v, hv, hsup, hval, -⟩ := writeTargets_spec hw new (k := 0) (by omega)
  have hwrite : ∀ x, v.vmwrite cr3TargetCount x =
      some { v with fields := fun e => if e = cr3TargetCount then stored cr3TargetCount x else v.fields e } := by
    intro x
    rw [Vmcs.vmwrite, hsup, hw.count, if_pos rfl]
  simp only [hv, hwrite]
  refine .inr ⟨_, rfl, hsup, fun j hj => ?_, ?_⟩
  · have hne : cr3TargetValue j ≠ cr3TargetCount := by
      unfold cr3TargetValue cr3TargetCount
      omega
    have hj' := hval j hj
    rw [Nat.zero_add] at hj'
    exact (if_neg hne).trans hj'
  · simp only [if_true]
    exact stored_count hlen

/-- Applying the policy recomputes the target list and moves no slot. -/
theorem apply_spec (h : Invariant s) : ∃ t, relmCr3CacheApply s = some t ∧ Invariant t ∧ ∀ i, t.value i = s.value i := by
  have hn : (s.cache.candidateCount.setWidth 32).toNat ≤ relmCr3CacheSize := by
    rw [BitVec.toNat_setWidth]
    exact (Nat.mod_le _ _).trans h.bound
  obtain ⟨all, htop, hpolicy⟩ := policy_spec s.cache.candidates hn
  have hnlen : (all.map fun i => (s.cache.candidates i).cr3Value).length ≤ relmCr3MaxTargets := by
    rw [List.length_map]
    exact htop.length_le
  have hmem : ∀ x ∈ all.map fun i => (s.cache.candidates i).cr3Value, ∃ i, s.value i ≠ 0 ∧ s.value i = x := by
    intro x hx
    obtain ⟨i, hi, rfl⟩ := List.mem_map.mp hx
    exact ⟨i, htop.occupied i hi, rfl⟩
  clear htop
  generalize (all.map fun i => (s.cache.candidates i).cr3Value) = new at *
  rcases apply_eq hpolicy h.writable hnlen with hs | ⟨v, hv, hsup, hval, hcount⟩
  · exact ⟨s, hs, h, fun _ => rfl⟩
  have htargets : (applied s new v).targets = new := by
    rw [targets, show (applied s new v).vmcs = v from rfl, hcount]
    apply List.ext_getElem
    · rw [List.length_map, List.length_range]
    · intro j hj hj'
      rw [List.getElem_map, List.getElem_range]
      exact hval j hj'
  have hpc : (applied s new v).cache.promotedCount.toNat = new.length := by
    have hlt : new.length < 2 ^ 32 := hnlen.trans_lt (by decide)
    exact (BitVec.toNat_ofNat _ _).trans (Nat.mod_eq_of_lt hlt)
  refine ⟨applied s new v, hv, ⟨⟨?_, ?_, h.bound, ?_, ?_, ?_⟩, ?_, ?_⟩, applied_value new v⟩
  · intro i j hi hij
    rw [applied_value] at hi
    rw [applied_value, applied_value] at hij
    exact h.distinct i j hi hij
  · rw [applied_occupied]
    exact h.count
  · intro x
    rw [htargets]
    constructor
    · rintro ⟨i, hi, rfl⟩
      rw [applied_value]
      exact ((applied_isPromoted new v i).mp hi).2
    · intro hx
      obtain ⟨i, hi, rfl⟩ := hmem x hx
      exact ⟨i, (applied_isPromoted new v i).mpr ⟨hi, hx⟩, applied_value new v i⟩
  · rw [hpc]
    exact hcount.symm
  · rw [hpc]
    exact hnlen
  · intro i hi
    rw [applied_value]
    exact ((applied_isPromoted new v i).mp hi).1
  · have hvs : (applied s new v).vmcs.supported = s.vmcs.supported := hsup
    exact ⟨by rw [hvs]; exact h.writable.count, fun k hk => by rw [hvs]; exact h.writable.value k hk⟩

/-- The state `t` has another entry in slot `i`, with the value `x`, and is otherwise like `s`. -/
structure Replaces (s t : Cr3State) (i : Fin relmCr3CacheSize) (x : U64) : Prop where
  value : ∀ j, t.value j = if j = i then x else s.value j
  isPromoted : ∀ j, t.isPromoted j = s.isPromoted j
  promotedCount : t.cache.promotedCount = s.cache.promotedCount
  vmcs : t.vmcs = s.vmcs

variable {t : Cr3State} {i : Fin relmCr3CacheSize} {x : U64}

private theorem Replaces.targets (h : Replaces s t i x) : t.targets = s.targets := by
  rw [Cr3State.targets, Cr3State.targets, h.vmcs]

private theorem Replaces.occupied_insert (h : Replaces s t i x) (hx : x ≠ 0) : t.occupied = insert i s.occupied := by
  ext j
  simp only [occupied, Finset.mem_filter, Finset.mem_univ, true_and, Finset.mem_insert, h.value j]
  by_cases hj : j = i
  · simpa [hj] using hx
  · simp [hj]

private theorem Replaces.occupied_erase (h : Replaces s t i 0) : t.occupied = s.occupied.erase i := by
  ext j
  simp only [occupied, Finset.mem_filter, Finset.mem_univ, true_and, Finset.mem_erase, h.value j]
  by_cases hj : j = i
  · simp [hj]
  · simp [hj]

/-- Counting a hit changes no value. -/
private theorem Invariant.hit (h : Invariant s) (hr : Replaces s t i (s.value i))
    (hc : t.cache.candidateCount = s.cache.candidateCount) : Invariant t := by
  have hv : ∀ j, t.value j = s.value j := by
    intro j
    rw [hr.value j]
    split
    · rename_i hj
      rw [hj]
    · rfl
  have hocc : t.occupied = s.occupied := by
    unfold occupied
    simp only [hv]
  refine ⟨⟨?_, ?_, ?_, ?_, ?_, ?_⟩, ?_, ?_⟩
  · intro j k hj hjk
    rw [hv j] at hj
    rw [hv j, hv k] at hjk
    exact h.distinct j k hj hjk
  · rw [hc, hocc]
    exact h.count
  · rw [hc]
    exact h.bound
  · intro y
    rw [hr.targets]
    simp only [hr.isPromoted, hv]
    exact h.promoted y
  · rw [hr.promotedCount, hr.vmcs]
    exact h.promotedCount
  · rw [hr.promotedCount]
    exact h.targetBound
  · intro j hj
    rw [hr.isPromoted] at hj
    rw [hv]
    exact h.nonzero j hj
  · rw [hr.vmcs]
    exact h.writable

/-- A new value takes a slot that is not promoted; a slot that was empty is counted. -/
private theorem Invariant.replace (h : Invariant s) (hr : Replaces s t i x) (hi : s.isPromoted i = false) (hx : x ≠ 0)
    (hnew : ∀ j, s.value j ≠ x)
    (hc : t.cache.candidateCount = if s.value i = 0 then s.cache.candidateCount + 1 else s.cache.candidateCount) :
    Invariant t := by
  have hcard : t.cache.candidateCount.toNat = t.occupied.card := by
    rw [hc, hr.occupied_insert hx]
    split
    · rename_i hz
      have hnot : i ∉ s.occupied := by simp [occupied, hz]
      have hb : s.cache.candidateCount.toNat ≤ 16 := h.bound
      rw [Finset.card_insert_of_notMem hnot, ← h.count, BitVec.toNat_add]
      exact Nat.mod_eq_of_lt (by rw [show (1 : U64).toNat = 1 from rfl]; omega)
    · rename_i hz
      have hin : i ∈ s.occupied := by
        rw [occupied, Finset.mem_filter]
        exact ⟨Finset.mem_univ i, hz⟩
      rw [Finset.insert_eq_of_mem hin]
      exact h.count
  have hle : t.occupied.card ≤ relmCr3CacheSize := by
    have hu := Finset.card_le_univ t.occupied
    rwa [Fintype.card_fin] at hu
  have hkeep : ∀ j, s.isPromoted j = true → t.value j = s.value j := by
    intro j hj
    have hne : j ≠ i := fun hji => by rw [hji, hi] at hj; cases hj
    rw [hr.value j, if_neg hne]
  refine ⟨⟨?_, hcard, hcard.trans_le hle, ?_, ?_, ?_⟩, ?_, ?_⟩
  · intro j k hj hjk
    rw [hr.value] at hj
    rw [hr.value, hr.value] at hjk
    by_cases hji : j = i <;> by_cases hki : k = i
    · rw [hji, hki]
    · rw [if_pos hji, if_neg hki] at hjk
      exact absurd hjk.symm (hnew k)
    · rw [if_neg hji, if_pos hki] at hjk
      exact absurd hjk (hnew j)
    · rw [if_neg hji] at hj
      rw [if_neg hji, if_neg hki] at hjk
      exact h.distinct j k hj hjk
  · intro y
    rw [hr.targets, ← h.promoted y]
    refine exists_congr fun j => ?_
    rw [hr.isPromoted]
    exact and_congr_right fun hj => by rw [hkeep j hj]
  · rw [hr.promotedCount, hr.vmcs]
    exact h.promotedCount
  · rw [hr.promotedCount]
    exact h.targetBound
  · intro j hj
    rw [hr.isPromoted] at hj
    rw [hkeep j hj]
    exact h.nonzero j hj
  · rw [hr.vmcs]
    exact h.writable

/-- A slot that is not promoted holds no target. -/
private theorem Invariant.keeps (h : Invariant s) (hr : Replaces s t i x) (hi : s.isPromoted i = false) : s.Keeps t := by
  intro j hj
  obtain ⟨k, hk, hkj⟩ := (h.promoted _).mpr hj
  have hkj' : k = j := h.distinct k j (h.nonzero k hk) hkj
  have hne : j ≠ i := fun hji => by rw [hkj', hji, hi] at hk; cases hk
  rw [hr.value j, if_neg hne]

private theorem replaces_put (s : Cr3State) (i : Fin relmCr3CacheSize) (e : Cr3TargetEntry) (count exits : U64)
    (he : e.promoted = s.isPromoted i) :
    Replaces s ⟨⟨Function.update s.cache.candidates i e, count, s.cache.promotedCount, exits⟩, s.vmcs⟩ i e.cr3Value where
  value j := by
    by_cases hj : j = i
    · simp only [value, hj, if_pos, Function.update_self]
    · simp only [value, if_neg hj, Function.update_of_ne hj]
  isPromoted j := by
    by_cases hj : j = i
    · rw [hj, ← he]
      simp only [isPromoted, Function.update_self]
    · simp only [isPromoted, Function.update_of_ne hj]
  promotedCount := rfl
  vmcs := rfl

private theorem Invariant.exits (h : Invariant s) (exits : U64) :
    Invariant ⟨{ s.cache with totalCr3Exits := exits }, s.vmcs⟩ :=
  ⟨⟨h.distinct, h.count, h.bound, h.promoted, h.promotedCount, h.targetBound⟩, h.nonzero, h.writable⟩

/-- One call: it keeps the invariant and every target, or it puts 0 in place of another value. -/
theorem record_spec (h : Invariant s) (cr3 now : U64) : ∃ t, relmCr3CacheRecord s cr3 now = some t ∧
    ((recordFits s cr3 ∧ Invariant t ∧ s.Keeps t) ∨
      ¬ recordFits s cr3 ∧ ∃ i, s.value i ≠ 0 ∧ Replaces s t i 0 ∧ t.cache.candidateCount = s.cache.candidateCount) := by
  unfold relmCr3CacheRecord
  rcases scan_table s.cache.candidates cr3 with ⟨i, hf, hi⟩ | hsc
  · have hfits : recordFits s cr3 := fun hc => hc.2.1 i (hi.trans hc.1)
    simp only [hf]
    have hr := replaces_put s i { s.cache.candidates i with hitCount := (s.cache.candidates i).hitCount + 1, lastSeenNs := now }
      s.cache.candidateCount (s.cache.totalCr3Exits + 1) rfl
    have hinv := h.hit hr rfl
    have hkeep : ∀ j, Cr3State.value _ j = s.value j := fun j => (hr.value j).trans (by
      split
      · rename_i hj
        rw [hj]
        rfl
      · rfl)
    split
    · obtain ⟨t, ht, hinv', hval⟩ := apply_spec hinv
      exact ⟨t, ht, .inl ⟨hfits, hinv', fun j _ => (hval j).trans (hkeep j)⟩⟩
    · exact ⟨_, rfl, .inl ⟨hfits, hinv, fun j _ => hkeep j⟩⟩
  · simp only [hsc.found]
    have hdiff : ∀ j, s.value j ≠ cr3 := fun j => hsc.differs j (List.mem_finRange j)
    cases he : (scanCandidates s.cache.candidates cr3 (List.finRange relmCr3CacheSize) {}).empty with
    | some i =>
      have hzero : s.value i = 0 := hsc.empty i he
      have hprom : s.isPromoted i = false := Bool.eq_false_iff.mpr fun hp => h.nonzero i hp hzero
      have hr := replaces_put s i ⟨cr3, 1, now, false⟩ (s.cache.candidateCount + 1) (s.cache.totalCr3Exits + 1) hprom.symm
      have hcr3 : cr3 ≠ 0 := fun hc => hdiff i (hzero.trans hc.symm)
      exact ⟨_, rfl, .inl ⟨fun hc => hcr3 hc.1, h.replace hr hprom hcr3 hdiff (if_pos hzero).symm, h.keeps hr hprom⟩⟩
    | none =>
      have hfull : ∀ j, s.value j ≠ 0 := fun j => hsc.full he j (List.mem_finRange j)
      cases hev : (scanCandidates s.cache.candidates cr3 (List.finRange relmCr3CacheSize) {}).evict with
      | some i =>
        have hprom : s.isPromoted i = false := (hsc.evict i hev).2.1
        have hr := replaces_put s i ⟨cr3, 1, now, false⟩ s.cache.candidateCount (s.cache.totalCr3Exits + 1) hprom.symm
        refine ⟨_, rfl, ?_⟩
        by_cases hcr3 : cr3 = 0
        · subst hcr3
          exact .inr ⟨fun hc => hc ⟨rfl, hfull, i, hsc.evict i hev⟩, i, hfull i, hr, rfl⟩
        · exact .inl ⟨fun hc => hcr3 hc.1, h.replace hr hprom hcr3 hdiff (if_neg (hfull i)).symm, h.keeps hr hprom⟩
      | none =>
        refine ⟨_, rfl, .inl ⟨?_, h.exits _, fun _ _ => rfl⟩⟩
        rintro ⟨-, -, j, hj⟩
        exact hj.2.2 (hsc.noEvict hev j (List.mem_finRange j) hj.1 hj.2.1)

/-- Putting 0 in place of another value leaves the count one too high. -/
private theorem Replaces.not_consistent (h : Replaces s t i 0) (hs : Consistent s) (hi : s.value i ≠ 0)
    (hc : t.cache.candidateCount = s.cache.candidateCount) : ¬ Consistent t := by
  intro ht
  have hcount := ht.count
  have hin : i ∈ s.occupied := by
    rw [occupied, Finset.mem_filter]
    exact ⟨Finset.mem_univ i, hi⟩
  have hpos := Finset.card_pos.mpr ⟨i, hin⟩
  rw [hc, hs.count, h.occupied_erase, Finset.card_erase_of_mem hin] at hcount
  omega

private theorem invariant_init {v : Vmcs} (hw : v.TargetsWritable) (hc : v.fields cr3TargetCount = 0) :
    Invariant ⟨relmCr3CacheInit, v⟩ := by
  have hocc : occupied ⟨relmCr3CacheInit, v⟩ = ∅ := Finset.filter_eq_empty_iff.mpr fun i _ hi => hi rfl
  have htargets : targets ⟨relmCr3CacheInit, v⟩ = [] := by
    rw [targets, hc]
    rfl
  refine ⟨⟨fun i j hi => absurd rfl hi, ?_, Nat.zero_le _, ?_, ?_, Nat.zero_le _⟩, ?_, hw⟩
  · rw [hocc]
    rfl
  · intro x
    rw [htargets]
    constructor
    · rintro ⟨i, hi, -⟩
      cases hi
    · intro hx
      cases hx
  · rw [hc]
    rfl
  · intro i hi
    cases hi

end Cr3State

section Runs

variable {s : Cr3State} {calls : List (U64 × U64)}

private theorem CacheSound.consistent (h : CacheSound s calls) : s.Consistent := by
  cases calls with
  | nil => exact h
  | cons c calls => exact h.1

private theorem cacheSound_iff (h : s.Invariant) : CacheSound s calls ↔ RunFits s calls := by
  induction calls generalizing s with
  | nil => exact ⟨fun _ => trivial, fun _ => h.toConsistent⟩
  | cons c calls ih =>
    obtain ⟨cr3, now⟩ := c
    obtain ⟨t, ht, ⟨hfits, hinv, hkeep⟩ | ⟨hnot, i, hi, hr, hc⟩⟩ := Cr3State.record_spec h cr3 now
    · constructor
      · rintro ⟨-, t', ht', -, hrest⟩
        obtain rfl : t = t' := Option.some.inj (ht.symm.trans ht')
        refine ⟨hfits, fun u hu => ?_⟩
        obtain rfl : t = u := Option.some.inj (ht.symm.trans hu)
        exact (ih hinv).mp hrest
      · rintro ⟨-, hrest⟩
        exact ⟨h.toConsistent, t, ht, hkeep, (ih hinv).mpr (hrest t ht)⟩
    · constructor
      · rintro ⟨hs, t', ht', -, hrest⟩
        obtain rfl : t = t' := Option.some.inj (ht.symm.trans ht')
        exact absurd hrest.consistent (hr.not_consistent hs hi hc)
      · rintro ⟨hfits, -⟩
        exact absurd hfits hnot

/-- Over every run of recorded values: the cache and the VMCS stay consistent, no call leaves the arrays and no target is
evicted, exactly when no call records 0 into a full table with an evictable slot. -/
theorem cr3_cache_sound_iff {v : Vmcs} (hw : v.TargetsWritable) (hc : v.fields cr3TargetCount = 0)
    (calls : List (U64 × U64)) : CacheSound ⟨relmCr3CacheInit, v⟩ calls ↔ RunFits ⟨relmCr3CacheInit, v⟩ calls :=
  cacheSound_iff (Cr3State.invariant_init hw hc)

/-- Values other than 0 are always fine. -/
private theorem runFits_of_nonzero (h : ∀ c ∈ calls, c.1 ≠ 0) : RunFits s calls := by
  induction calls generalizing s with
  | nil => trivial
  | cons c calls ih =>
    exact ⟨fun hc => h c List.mem_cons_self hc.1, fun t _ => ih fun c' hc' => h c' (List.mem_cons_of_mem _ hc')⟩

/-- The state after a run, if no call left the arrays. -/
def recordAll (s : Cr3State) (calls : List (U64 × U64)) : Option Cr3State :=
  calls.foldlM (fun s c => relmCr3CacheRecord s c.1 c.2) s

private theorem CacheSound.at_end (h : CacheSound s calls) {t : Cr3State} (ht : recordAll s calls = some t) : t.Consistent := by
  induction calls generalizing s with
  | nil =>
    obtain rfl : s = t := Option.some.inj ht
    exact h
  | cons c calls ih =>
    obtain ⟨-, u, hu, -, hrest⟩ := h
    rw [recordAll, List.foldlM_cons, hu] at ht
    exact ih hrest ht

private def blankVmcs : Vmcs where
  supported _ := true
  fields _ := 0

private theorem blankVmcs_writable : blankVmcs.TargetsWritable := ⟨rfl, fun _ _ => rfl⟩

/-- A value recorded often enough to be promoted. -/
theorem cr3_cache_sound_promotion :
    (recordAll ⟨relmCr3CacheInit, blankVmcs⟩ (List.replicate 11 (0x1000#64, 5#64))).map Cr3State.targets = some [0x1000#64] ∧
      CacheSound ⟨relmCr3CacheInit, blankVmcs⟩ (List.replicate 11 (0x1000#64, 5#64)) := by
  refine ⟨by decide +kernel, (cr3_cache_sound_iff blankVmcs_writable rfl _).mpr (runFits_of_nonzero fun c hc => ?_)⟩
  rw [List.eq_of_mem_replicate hc]
  decide

/-- Sixteen values fill the table, 0 evicts one of them, and the next value is counted a seventeenth time. -/
private def overfilling : List (U64 × U64) :=
  ((List.range 16).map fun i => (BitVec.ofNat 64 (0x1000 * (i + 1)), BitVec.ofNat 64 i)) ++ [(0#64, 16#64), (0x20000#64, 17#64)]

/-- The count passes the size of the table, and the next promotion reads past its end. -/
theorem zero_overfills_table :
    (recordAll ⟨relmCr3CacheInit, blankVmcs⟩ overfilling).map (fun s => s.cache.candidateCount) = some 17#64 ∧
    (recordAll ⟨relmCr3CacheInit, blankVmcs⟩ (overfilling ++ List.replicate 9 (0x20000#64, 18#64))).isNone ∧
    ¬ CacheSound ⟨relmCr3CacheInit, blankVmcs⟩ overfilling := by
  have hcount : (recordAll ⟨relmCr3CacheInit, blankVmcs⟩ overfilling).map (fun s => s.cache.candidateCount) = some 17#64 := by
    decide +kernel
  refine ⟨hcount, by decide +kernel, fun hs => ?_⟩
  cases ht : recordAll ⟨relmCr3CacheInit, blankVmcs⟩ overfilling with
  | none =>
    rw [ht] at hcount
    cases hcount
  | some t =>
    rw [ht, Option.map_some, Option.some.injEq] at hcount
    have hb := (hs.at_end ht).bound
    rw [hcount] at hb
    revert hb
    decide

end Runs

end Relm.Vmx
