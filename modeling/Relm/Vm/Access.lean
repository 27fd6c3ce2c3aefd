import Relm.Vm.Regions

/-! Host access to guest memory: the region lookup and the three accessors, which differ in what they do with a
page and in whether they stop at the end of the region. -/
namespace Relm.Vm
open Relm.Ept Relm.Lib.Word

/-- The range test, with the end of the region computed modulo `2^64`. -/
def GuestMemRegion.contains (region : GuestMemRegion) (gpa : U64) : Bool :=
  decide (region.gpaStart ≤ gpa) && decide (gpa < region.gpaStart + region.size)

/-- The first region of the list that contains an address. -/
def findRegion (regions : List GuestMemRegion) (gpa : U64) : Option GuestMemRegion := regions.find? (·.contains gpa)

/-- The region in use stays in use while it contains the address. -/
def regionFor (regions : List GuestMemRegion) (inUse : Option GuestMemRegion) (gpa : U64) : Option GuestMemRegion :=
  match inUse with
  | some region => if region.contains gpa then some region else findRegion regions gpa
  | none => findRegion regions gpa

/-- What goes wrong when a page array is indexed: there is none, or it is too short. -/
inductive HostFault
  | nullPages
  | pastPages
  deriving DecidableEq

/-- `region->pages[page_index]`. The entries themselves are never `NULL` once a region is linked. -/
def GuestMemRegion.page (region : GuestMemRegion) (index : Nat) : Except HostFault U64 :=
  match region.pages with
  | none => .error .nullPages
  | some pages =>
    match pages[index]? with
    | none => .error .pastPages
    | some page => .ok page

/-- How many bytes one pass handles: up to the page end, the bytes left and, with `clamp`, the region end. -/
def chunkSize (clamp : Bool) (region : GuestMemRegion) (offset left : Nat) : Nat :=
  if clamp then min (min (4096 - offset % 4096) left) (region.size.toNat - offset)
  else min (4096 - offset % 4096) left

section

variable {region : GuestMemRegion} {regions : List GuestMemRegion} {inUse : Option GuestMemRegion} {gpa : U64}

/-- A region contains an address exactly when its end does not wrap and the address lies between. -/
theorem GuestMemRegion.contains_iff : region.contains gpa = true ↔
    region.gpaStart.toNat ≤ gpa.toNat ∧ gpa.toNat < region.gpaStart.toNat + region.size.toNat ∧
      region.gpaStart.toNat + region.size.toNat < 2 ^ 64 := by
  simp only [contains, Bool.and_eq_true, decide_eq_true_eq, BitVec.le_def, BitVec.lt_def, BitVec.toNat_add]
  have h1 := region.gpaStart.isLt
  have h2 := region.size.isLt
  have h3 := gpa.isLt
  omega

theorem findRegion_contains (h : findRegion regions gpa = some region) : region.contains gpa = true :=
  List.find?_some (p := fun r : GuestMemRegion => r.contains gpa) h

theorem findRegion_mem (h : findRegion regions gpa = some region) : region ∈ regions := List.mem_of_find?_eq_some h

theorem regionFor_contains (h : regionFor regions inUse gpa = some region) : region.contains gpa = true := by
  unfold regionFor at h
  split at h
  · split at h
    · obtain rfl := Option.some.inj h
      assumption
    · exact findRegion_contains h
  · exact findRegion_contains h

/-- The offset of an address in a region that contains it. -/
theorem GuestMemRegion.offset_eq (h : region.contains gpa = true) :
    (gpa - region.gpaStart).toNat = gpa.toNat - region.gpaStart.toNat := toNat_sub_eq rfl rfl (contains_iff.mp h).1

theorem chunkSize_pos (clamp : Bool) {left : Nat} (h : region.contains gpa = true) (hl : 0 < left) :
    0 < chunkSize clamp region (gpa - region.gpaStart).toNat left := by
  rw [GuestMemRegion.offset_eq h]
  obtain ⟨h1, h2, _⟩ := GuestMemRegion.contains_iff.mp h
  generalize hoff : gpa.toNat - region.gpaStart.toNat = offset
  have h3 : offset % 4096 < 4096 := Nat.mod_lt _ (by decide)
  unfold chunkSize
  split <;> simp only [lt_min_iff] <;> omega

end

/-- The loop of the accessors: find the region, take its page, let `act` work on the chunk, advance.
Ends with the number of bytes handled, or with a fault. -/
def accessLoop {σ : Type} (regions : List GuestMemRegion) (clamp : Bool)
    (act : (page : U64) → (pageOffset copied n : Nat) → σ → σ) (gpa : U64) (size : Nat)
    (inUse : Option GuestMemRegion) (copied : Nat) (st : σ) : Except HostFault (Nat × σ) :=
  if copied < size then
    let current := gpa + BitVec.ofNat 64 copied
    match _hr : regionFor regions inUse current with
    | none => .ok (copied, st)
    | some region =>
      let offset := (current - region.gpaStart).toNat
      match region.page (offset / 4096) with
      | .error fault => .error fault
      | .ok page =>
        let n := chunkSize clamp region offset (size - copied)
        accessLoop regions clamp act gpa size (some region) (copied + n) (act page (offset % 4096) copied n st)
  else .ok (copied, st)
termination_by size - copied
decreasing_by
  have hpos : 0 < chunkSize clamp region offset (size - copied) := chunkSize_pos clamp (regionFor_contains _hr) (by omega)
  simp only [offset, current] at hpos
  omega

/-- The C `int` a count becomes. -/
def toCInt (n : Nat) : Int := (BitVec.ofNat 32 n).toInt

/-- `copied > 0 ? copied : -EFAULT`. -/
def accessRet (copied : Nat) : Int := if copied > 0 then toCInt copied else -Errno.efault.code

def relmVmCopyToGuest (s : VmState) (gpa : U64) (data : List Byte) : Except HostFault (Int × VmState) :=
  if data.length = 0 then .ok (-Errno.einval.code, s)
  else
    (accessLoop s.memory.memRegions true
      (fun page off copied n (h : Host) => h.writeBytes page off ((data.drop copied).take n))
      gpa data.length none 0 s.host).map fun r => (accessRet r.1, { s with host := r.2 })

/-- The second component is what has been copied into the buffer. -/
def relmVmCopyFromGuest (s : VmState) (gpa : U64) (size : Nat) : Except HostFault (Int × List Byte) :=
  if size = 0 then .ok (-Errno.einval.code, [])
  else
    (accessLoop s.memory.memRegions true (fun page off _ n acc => acc ++ s.host.readBytes page off n)
      gpa size none 0 []).map fun r => (accessRet r.1, r.2)

/-- The one accessor that does not stop at the end of a region. -/
def relmVmZeroGuestMemory (s : VmState) (gpa : U64) (size : Nat) : Except HostFault (Int × VmState) :=
  if size = 0 then .ok (-Errno.einval.code, s)
  else
    (accessLoop s.memory.memRegions false
      (fun page off _ n (h : Host) => h.writeBytes page off (List.replicate n 0))
      gpa size none 0 s.host).map fun r => (accessRet r.1, { s with host := r.2 })

/-- The region in use when the accessors reach byte `k` of a range. -/
def regionAt (regions : List GuestMemRegion) (gpa : U64) : (k : Nat) → Option GuestMemRegion
  | 0 => findRegion regions gpa
  | k + 1 => regionFor regions (regionAt regions gpa k) (gpa + BitVec.ofNat 64 (k + 1))

/-- How many bytes at the start of a range lie in regions. -/
def coveredBytes (regions : List GuestMemRegion) (gpa : U64) : (size : Nat) → Nat
  | 0 => 0
  | size + 1 =>
    if coveredBytes regions gpa size = size ∧ (regionAt regions gpa size).isSome then size + 1
    else coveredBytes regions gpa size

/-- Regions as the two functions that link them leave them: whole pages, and a page array of the right length
where there is one. -/
structure GuestMemRegion.Linked (region : GuestMemRegion) : Prop where
  size : region.size.toNat % 4096 = 0
  start : region.size ≠ 0 → region.gpaStart.toNat % 4096 = 0
  nrPages : region.nrPages.toNat = region.size.toNat / 4096
  pages : ∀ pages, region.pages = some pages → pages.length = region.nrPages.toNat

namespace GuestMemRegion.Linked

variable {region : GuestMemRegion} {gpa : U64}

theorem aligned (h : region.Linked) (hc : region.contains gpa = true) : region.gpaStart.toNat % 4096 = 0 := by
  apply h.start
  rintro h0
  obtain ⟨h1, h2, -⟩ := contains_iff.mp hc
  rw [h0, show (0 : U64).toNat = 0 from rfl] at h2
  omega

/-- A page-backed region has a page for every address it contains. -/
theorem page_isOk (h : region.Linked) (hc : region.contains gpa = true) {pages : List U64} (hp : region.pages = some pages) :
    ∃ page, pages[(gpa.toNat - region.gpaStart.toNat) / 4096]? = some page ∧
      region.page ((gpa.toNat - region.gpaStart.toNat) / 4096) = .ok page := by
  obtain ⟨h1, h2, _⟩ := contains_iff.mp hc
  have hs := h.size
  have hlen : (gpa.toNat - region.gpaStart.toNat) / 4096 < pages.length := by
    rw [h.pages pages hp, h.nrPages]
    omega
  refine ⟨pages[(gpa.toNat - region.gpaStart.toNat) / 4096], List.getElem?_eq_getElem hlen, ?_⟩
  simp only [page, hp, List.getElem?_eq_getElem hlen]

/-- A chunk never leaves the region, with or without the clamp. -/
theorem chunk_contains (h : region.Linked) (hc : region.contains gpa = true) {clamp : Bool} {left i : Nat}
    (hi : i < chunkSize clamp region (gpa.toNat - region.gpaStart.toNat) left) :
    region.contains (gpa + BitVec.ofNat 64 i) = true ∧
      (gpa + BitVec.ofNat 64 i).toNat / 4096 = gpa.toNat / 4096 := by
  obtain ⟨h1, h2, h3⟩ := contains_iff.mp hc
  have hs := h.size
  have hst := h.aligned hc
  have hpage : i < 4096 - (gpa.toNat - region.gpaStart.toNat) % 4096 := by
    unfold chunkSize at hi
    split at hi <;> omega
  have hadd : (gpa + BitVec.ofNat 64 i).toNat = gpa.toNat + i := toNat_add_eq rfl (by simp; omega) (by omega)
  rw [contains_iff, hadd]
  omega

end GuestMemRegion.Linked

section Loop

variable {σ : Type} {regions : List GuestMemRegion} {inUse : Option GuestMemRegion} {region : GuestMemRegion} {gpa : U64}

theorem regionFor_mem (hin : ∀ r, inUse = some r → r ∈ regions) (h : regionFor regions inUse gpa = some region) :
    region ∈ regions := by
  unfold regionFor at h
  split at h
  · split at h
    · obtain rfl := Option.some.inj h
      exact hin _ rfl
    · exact findRegion_mem h
  · exact findRegion_mem h

theorem regionAt_contains {k : Nat} (h : regionAt regions gpa k = some region) :
    region.contains (gpa + BitVec.ofNat 64 k) = true := by
  cases k with
  | zero => simpa using findRegion_contains h
  | succ k => exact regionFor_contains h

theorem regionAt_mem {k : Nat} (h : regionAt regions gpa k = some region) : region ∈ regions := by
  induction k generalizing region with
  | zero => exact findRegion_mem h
  | succ k ih => exact regionFor_mem (fun _ hr => ih hr) h

/-- A region stays in use over every byte it contains. -/
theorem regionAt_add {k : Nat} (h : regionAt regions gpa k = some region) (i : Nat)
    (hc : ∀ j ≤ i, region.contains (gpa + BitVec.ofNat 64 (k + j)) = true) : regionAt regions gpa (k + i) = some region := by
  induction i with
  | zero => exact h
  | succ i ih =>
    have hi := ih fun j hj => hc j (by omega)
    have hn := hc (i + 1) le_rfl
    change regionFor regions (regionAt regions gpa (k + i)) (gpa + BitVec.ofNat 64 (k + (i + 1))) = some region
    rw [hi, regionFor, if_pos hn]

/-- The page-backed region in use at a byte. -/
def Backed (regions : List GuestMemRegion) (gpa : U64) (k : Nat) : Prop :=
  ∃ region ∈ regions, regionAt regions gpa k = some region ∧ region.pages.isSome

/-- One pass of the loop: `n` bytes from byte `copied` of the range lie on one page of a region, from `off` on. -/
structure Pass (regions : List GuestMemRegion) (gpa : U64) (size copied : Nat) (region : GuestMemRegion) (page : U64)
    (off n : Nat) : Prop where
  mem : region ∈ regions
  pos : 0 < n
  inSize : copied + n ≤ size
  inPage : off + n ≤ 4096
  inUse : ∀ i < n, regionAt regions gpa (copied + i) = some region
  pages : ∃ pages, region.pages = some pages ∧ ∀ i < n,
    pages[((gpa + BitVec.ofNat 64 (copied + i)).toNat - region.gpaStart.toNat) / 4096]? = some page ∧
      ((gpa + BitVec.ofNat 64 (copied + i)).toNat - region.gpaStart.toNat) % 4096 = off + i

private theorem ofNat_add (gpa : U64) (k i : Nat) :
    gpa + BitVec.ofNat 64 (k + i) = gpa + BitVec.ofNat 64 k + BitVec.ofNat 64 i := by
  rw [BitVec.ofNat_add, BitVec.add_assoc]

private theorem chunkSize_le (region : GuestMemRegion) (clamp : Bool) (offset left : Nat) : chunkSize clamp region offset left ≤ left ∧
    chunkSize clamp region offset left ≤ 4096 - offset % 4096 := by
  unfold chunkSize
  split <;> omega

private theorem pass_of (hr : region.Linked) (hm : region ∈ regions) {copied size : Nat} (clamp : Bool) {pages : List U64}
    {page : U64} (hat : regionAt regions gpa copied = some region) (hp : region.pages = some pages) (hlt : copied < size)
    (hpage : pages[((gpa + BitVec.ofNat 64 copied).toNat - region.gpaStart.toNat) / 4096]? = some page) :
    Pass regions gpa size copied region page (((gpa + BitVec.ofNat 64 copied) - region.gpaStart).toNat % 4096)
      (chunkSize clamp region ((gpa + BitVec.ofNat 64 copied) - region.gpaStart).toNat (size - copied)) := by
  have hc := regionAt_contains hat
  have hpos := chunkSize_pos clamp hc (show 0 < size - copied by omega)
  rw [GuestMemRegion.offset_eq hc] at hpos ⊢
  obtain ⟨hleft, hoff⟩ := chunkSize_le region clamp
    ((gpa + BitVec.ofNat 64 copied).toNat - region.gpaStart.toNat) (size - copied)
  refine ⟨hm, hpos, by omega, by omega, fun i hi => ?_, pages, hp, fun i hi => ?_⟩
  · refine regionAt_add hat i fun j hj => ?_
    rw [ofNat_add]
    exact (hr.chunk_contains hc (lt_of_le_of_lt hj hi)).1
  · obtain ⟨hci, hpi⟩ := hr.chunk_contains hc hi
    have hst := hr.aligned hc
    obtain ⟨h1, h2, h3⟩ := GuestMemRegion.contains_iff.mp hc
    rw [ofNat_add]
    have hadd : (gpa + BitVec.ofNat 64 copied + BitVec.ofNat 64 i).toNat = (gpa + BitVec.ofNat 64 copied).toNat + i := by
      refine toNat_add_eq rfl ?_ ?_
      · rw [BitVec.toNat_ofNat]
        exact Nat.mod_eq_of_lt (by omega)
      · generalize (gpa + BitVec.ofNat 64 copied).toNat = g at *
        omega
    rw [hadd] at hpi ⊢
    generalize (gpa + BitVec.ofNat 64 copied).toNat = g at *
    have hsame : (g + i - region.gpaStart.toNat) / 4096 = (g - region.gpaStart.toNat) / 4096 := by omega
    exact ⟨by rw [hsame, hpage], by omega⟩

private theorem accessLoop_stop {clamp : Bool} {act : U64 → Nat → Nat → Nat → σ → σ} {size copied : Nat} {st : σ}
    (h : copied < size) (hr : regionFor regions inUse (gpa + BitVec.ofNat 64 copied) = none) :
    accessLoop regions clamp act gpa size inUse copied st = .ok (copied, st) := by
  rw [accessLoop, if_pos h]
  dsimp only
  split
  · rfl
  · rename_i heq
    rw [hr] at heq
    cases heq

private theorem accessLoop_step {clamp : Bool} {act : U64 → Nat → Nat → Nat → σ → σ} {size copied : Nat} {st : σ}
    (h : copied < size) (hr : regionFor regions inUse (gpa + BitVec.ofNat 64 copied) = some region) :
    accessLoop regions clamp act gpa size inUse copied st =
      match region.page (((gpa + BitVec.ofNat 64 copied) - region.gpaStart).toNat / 4096) with
      | .error fault => .error fault
      | .ok page => accessLoop regions clamp act gpa size (some region)
          (copied + chunkSize clamp region ((gpa + BitVec.ofNat 64 copied) - region.gpaStart).toNat (size - copied))
          (act page (((gpa + BitVec.ofNat 64 copied) - region.gpaStart).toNat % 4096) copied
            (chunkSize clamp region ((gpa + BitVec.ofNat 64 copied) - region.gpaStart).toNat (size - copied)) st) := by
  conv_lhs => rw [accessLoop, if_pos h]
  dsimp only
  split
  · rename_i heq
    rw [hr] at heq
    cases heq
  · rename_i heq
    rw [hr] at heq
    obtain rfl := Option.some.inj heq
    rfl

private theorem Pass.next {size copied n off : Nat} {page : U64} (h : Pass regions gpa size copied region page off n) :
    regionFor regions (some region) (gpa + BitVec.ofNat 64 (copied + n)) = regionAt regions gpa (copied + n) := by
  obtain ⟨m, rfl⟩ : ∃ m, n = m + 1 := ⟨n - 1, by have := h.pos; omega⟩
  change _ = regionFor regions (regionAt regions gpa (copied + m)) (gpa + BitVec.ofNat 64 (copied + (m + 1)))
  rw [h.inUse m (by omega)]

private theorem Pass.backed {size copied n off j : Nat} {page : U64} (h : Pass regions gpa size copied region page off n)
    (h1 : copied ≤ j) (h2 : j < copied + n) : Backed regions gpa j := by
  have hj := h.inUse (j - copied) (by omega)
  obtain ⟨pages, hp, -⟩ := h.pages
  rw [show copied + (j - copied) = j by omega] at hj
  exact ⟨region, h.mem, hj, by rw [hp]; rfl⟩

/-- How the loop ends: at a region without pages, or after the bytes that page-backed regions cover, with whatever
every pass preserves. -/
theorem accessLoop_spec (hw : ∀ r ∈ regions, r.Linked) (clamp : Bool) (act : U64 → Nat → Nat → Nat → σ → σ) (size : Nat)
    (P : Nat → σ → Prop) (step : ∀ copied region page off n st, Pass regions gpa size copied region page off n →
      P copied st → P (copied + n) (act page off copied n st))
    (copied : Nat) (inUse : Option GuestMemRegion) (st : σ) (hin : ∀ r, inUse = some r → r ∈ regions)
    (hat : regionFor regions inUse (gpa + BitVec.ofNat 64 copied) = regionAt regions gpa copied) (hle : copied ≤ size)
    (hP : P copied st) :
    (∃ k region, copied ≤ k ∧ k < size ∧ (∀ j, copied ≤ j → j < k → Backed regions gpa j) ∧
      regionAt regions gpa k = some region ∧ region.pages = none ∧
      accessLoop regions clamp act gpa size inUse copied st = .error .nullPages) ∨
    ∃ n st', accessLoop regions clamp act gpa size inUse copied st = .ok (n, st') ∧ copied ≤ n ∧ n ≤ size ∧
      (∀ j, copied ≤ j → j < n → Backed regions gpa j) ∧ (n < size → regionAt regions gpa n = none) ∧ P n st' := by
  induction hk : size - copied using Nat.strong_induction_on generalizing copied inUse st with
  | _ k ih =>
    subst hk
    by_cases hlt : copied < size
    swap
    · refine .inr ⟨copied, st, ?_, le_rfl, hle, by omega, by omega, hP⟩
      rw [accessLoop, if_neg hlt]
    cases hr : regionAt regions gpa copied with
    | none => exact .inr ⟨copied, st, accessLoop_stop hlt (hat.trans hr), le_rfl, hle, by omega, fun _ => hr, hP⟩
    | some region =>
      have hm := regionFor_mem hin (hat.trans hr)
      have hc := regionAt_contains hr
      rw [accessLoop_step hlt (hat.trans hr)]
      cases hp : region.pages with
      | none =>
        refine .inl ⟨copied, region, le_rfl, hlt, by omega, hr, hp, ?_⟩
        simp only [GuestMemRegion.page, hp]
      | some pages =>
        obtain ⟨page, hpg, hok⟩ := (hw region hm).page_isOk hc hp
        have hpass := pass_of (hw region hm) hm clamp hr hp hlt hpg
        rw [GuestMemRegion.offset_eq hc] at hpass ⊢
        rw [hok]
        simp only
        generalize chunkSize clamp region _ _ = n at hpass ⊢
        generalize ((gpa + BitVec.ofNat 64 copied).toNat - region.gpaStart.toNat) % 4096 = off at hpass ⊢
        have hpos := hpass.pos
        have hsz := hpass.inSize
        rcases ih (size - (copied + n)) (by omega) (copied + n) (some region) (act page off copied n st)
          (fun r h => Option.some.inj h ▸ hm) hpass.next hsz (step _ _ _ _ _ _ hpass hP) rfl with
          ⟨k, r, hk1, hk2, hk3, hk4, hk5, hk6⟩ | ⟨m, st', hm1, hm2, hm3, hm4, hm5, hm6⟩
        · refine .inl ⟨k, r, by omega, hk2, fun j h1 h2 => ?_, hk4, hk5, hk6⟩
          by_cases hj : j < copied + n
          · exact hpass.backed h1 hj
          · exact hk3 j (by omega) h2
        · refine .inr ⟨m, st', hm1, by omega, hm3, fun j h1 h2 => ?_, hm5, hm6⟩
          by_cases hj : j < copied + n
          · exact hpass.backed h1 hj
          · exact hm4 j (by omega) h2

end Loop

end Relm.Vm
