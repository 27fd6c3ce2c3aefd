import Relm.Ept.Statistics
import Relm.Vm.Memory

/-! Mapping a range of guest RAM with 4 KiB pages only or preferring 2 MiB blocks, around the reserved MMIO
windows, and when the two give the same hardware translation. -/
namespace Relm.Ept
open EptState

/-- Does `[gpa, gpa + size)` touch a reserved MMIO region? The additions wrap. -/
def eptRangeOverlapsMmio (mmio : List Vm.MmioRegion) (gpa size : U64) : Bool :=
  mmio.any fun region => decide (gpa < region.gpaStart + region.size) && decide (region.gpaStart < gpa + size)

section Loops

variable (mmio : List Vm.MmioRegion) (flags : U64)

/-- The loop of `relm_ept_map_guest_ram_4kb`, with the pages left and the index of the next. -/
def mapPages4kb (gpaStart hpaStart : U64) : (left i : Nat) → EptState → Except Errno Unit × EptState
  | 0, _, s => (.ok (), s)
  | left + 1, i, s =>
    let gpa := gpaStart + BitVec.ofNat 64 i * eptPageSize4kb
    let hpa := hpaStart + BitVec.ofNat 64 i * eptPageSize4kb
    if eptRangeOverlapsMmio mmio gpa eptPageSize4kb then mapPages4kb gpaStart hpaStart left (i + 1) s
    else
      match relmEptMapPage s gpa hpa flags with
      | ⟨.error e, s, _⟩ => (.error e, s)
      | ⟨.ok _, s, _⟩ => mapPages4kb gpaStart hpaStart left (i + 1) s

def relmEptMapGuestRam4kb (s : EptState) (gpaStart hpaStart size : U64) : Except Errno Unit × EptState :=
  let size := pageAlign size
  let numPages := size / eptPageSize4kb
  mapPages4kb mmio flags gpaStart hpaStart numPages.toNat 0 s

/-- The test of the huge-preferred loop: both addresses 2 MiB aligned, a whole block left, no MMIO in it. -/
def strideIsHuge (last gpa hpa : U64) : Bool :=
  let remaining := last - gpa
  let offsetIn2mb := gpa &&& (eptPageSize2mb - 1)
  let aligned2mb := offsetIn2mb == 0 && hpa &&& (eptPageSize2mb - 1) == 0
  let whole2mbFits := decide (eptPageSize2mb ≤ remaining)
  aligned2mb && whole2mbFits && !eptRangeOverlapsMmio mmio gpa eptPageSize2mb

/-- How far one iteration advances: a block, or the chunk up to the next 2 MiB boundary or the end. -/
def strideLength (last gpa hpa : U64) : U64 :=
  if strideIsHuge mmio last gpa hpa then eptPageSize2mb
  else
    let remaining := last - gpa
    let toBoundary := eptPageSize2mb - (gpa &&& (eptPageSize2mb - 1))
    if remaining < toBoundary then remaining else toBoundary

/-- The mapping call of one iteration. -/
def mapStride (last gpa hpa : U64) (s : EptState) : Except Errno Unit × EptState :=
  if strideIsHuge mmio last gpa hpa then
    let r := relmEptMapHugePage s gpa hpa flags
    (r.ret, r.next)
  else relmEptMapGuestRam4kb mmio flags s gpa hpa (strideLength mmio last gpa hpa)

theorem strideLength_bounds {last gpa : U64} (hpa : U64) (hlt : gpa < last) :
    0 < (strideLength mmio last gpa hpa).toNat ∧ (strideLength mmio last gpa hpa).toNat ≤ (last - gpa).toNat := by
  have hr : 0 < (last - gpa).toNat := by
    rw [BitVec.toNat_sub_of_le (BitVec.le_of_lt hlt)]
    rw [BitVec.lt_def] at hlt
    omega
  unfold strideLength
  split
  · rename_i hh
    simp only [strideIsHuge, Bool.and_eq_true, decide_eq_true_eq] at hh
    exact ⟨by simp [eptPageSize2mb], hh.1.2⟩
  · have hm : (gpa &&& (eptPageSize2mb - 1)).toNat < eptPageSize2mb.toNat := by
      rw [Lib.Word.and_low_toNat _ _ 21 (by decide), toNat_pageSize2mb]
      exact Nat.mod_lt _ (by decide)
    have hb := BitVec.toNat_sub_of_le (BitVec.le_def.mpr hm.le)
    simp only
    split
    · exact ⟨hr, le_rfl⟩
    · rename_i hge
      rw [BitVec.lt_def, not_lt] at hge
      exact ⟨by omega, hge⟩

/-- The loop of `relm_ept_map_guest_ram_huge`. -/
def mapStrides (last gpa hpa : U64) (s : EptState) : Except Errno Unit × EptState :=
  if _hlt : gpa < last then
    match mapStride mmio flags last gpa hpa s with
    | (.error e, s) => (.error e, s)
    | (.ok _, s) =>
      mapStrides last (gpa + strideLength mmio last gpa hpa) (hpa + strideLength mmio last gpa hpa) s
  else (.ok (), s)
termination_by (last - gpa).toNat
decreasing_by
  obtain ⟨hc, hle⟩ := strideLength_bounds mmio hpa _hlt
  have he := BitVec.sub_sub last gpa (strideLength mmio last gpa hpa)
  rw [← he, BitVec.toNat_sub_of_le (BitVec.le_def.mpr hle)]
  omega

def relmEptMapGuestRamHuge (s : EptState) (gpaStart hpaStart size : U64) : Except Errno Unit × EptState :=
  let size := pageAlign size
  mapStrides mmio flags (gpaStart + size) gpaStart hpaStart s

end Loops

section Pages

theorem pageAddr_toNat {n : Nat} (h : n < 2 ^ 52) : (pageAddr n).toNat = n * 4096 := by
  rw [pageAddr, BitVec.toNat_ofNat, Nat.mod_eq_of_lt (by omega)]

theorem pageAddr_add (n i : Nat) : pageAddr n + BitVec.ofNat 64 i * eptPageSize4kb = pageAddr (n + i) := by
  rw [show eptPageSize4kb = BitVec.ofNat 64 4096 by decide, pageAddr, pageAddr, ← BitVec.ofNat_mul, ← BitVec.ofNat_add,
    Nat.add_mul]

theorem pageAddr_add_pageAddr (n i : Nat) : pageAddr n + pageAddr i = pageAddr (n + i) := by
  rw [pageAddr, pageAddr, pageAddr, ← BitVec.ofNat_add, Nat.add_mul]

theorem pageAddr_sub {n i : Nat} (h : i ≤ n) : pageAddr n - pageAddr i = pageAddr (n - i) := by
  have := pageAddr_add_pageAddr (n - i) i
  rw [Nat.sub_add_cancel h] at this
  rw [← this, BitVec.add_sub_cancel]

theorem pageAddr_aligned {n : Nat} (h : n < 2 ^ 52) : eptIs4kbAligned (pageAddr n) = true := by
  rw [is4kbAligned_iff, pageAddr_toNat h, Nat.mul_mod_left]

theorem blockAddr_eq (b : Nat) : blockAddr b = pageAddr (512 * b) := congrArg (BitVec.ofNat 64) (by omega)

theorem blockOf_eq (a : U64) : blockOf a = pageOf a / 512 := by
  rw [blockOf, pageOf]
  omega

theorem eq_pageAddr {a : U64} (h : a.toNat % 4096 = 0) : a = pageAddr (a.toNat / 4096) := by
  rw [← BitVec.toNat_inj, pageAddr_toNat (by have := a.isLt; omega)]
  omega

theorem gpaPath_of_blockOf {a b : U64} (h : blockOf a = blockOf b) : gpaPath a = gpaPath b := by
  obtain ⟨h1, h2⟩ := (gpaPath2_eq_iff a b).mpr h
  simp only [gpaPath2, List.cons.injEq, and_true] at h1
  simp only [gpaPath, h1, h2]

theorem blockOf_of_gpaPath {a b : U64} (h : gpaPath a = gpaPath b) : blockOf a = blockOf b := by
  simp only [gpaPath, List.cons.injEq, and_true] at h
  exact (index_eq_iff_block a b).mp h

end Pages

section Spec

variable {mmio : List Vm.MmioRegion} {flags : U64} {s : EptState}

/-- The 4 KiB test of a page number. -/
def pageBlocked (mmio : List Vm.MmioRegion) (n : Nat) : Bool := eptRangeOverlapsMmio mmio (pageAddr n) eptPageSize4kb
/-- The 2 MiB test of a block number. -/
def blockBlocked (mmio : List Vm.MmioRegion) (b : Nat) : Bool := eptRangeOverlapsMmio mmio (blockAddr b) eptPageSize2mb

/-- What mapping the pages from `P` to `P + n` at host page `Q` leaves behind. -/
structure PagesMapped (mmio : List Vm.MmioRegion) (flags : U64) (P Q lo hi : Nat) (s t : EptState) : Prop extends
    Extends s t where
  pte : ∀ a, t.pte a = if lo ≤ pageOf a ∧ pageOf a < hi ∧ pageBlocked mmio (pageOf a) = false then
    some (leafEntry (pageAddr (Q + (pageOf a - P))) flags) else s.pte a
  pde : ∀ a, t.pde a = s.pde a
  others : ∀ q, q.length = 3 → (∀ n, lo ≤ n → n < hi → q ≠ gpaPath (pageAddr n)) → t.walk q = s.walk q

variable (mmio) in
/-- The page loop maps every page of its range that is not reserved, unless a table allocation fails. -/
theorem mapPages4kb_spec (P Q : Nat) (hf : present flags = true) (left i : Nat) (s : EptState) (sh : Shape s)
    (hP : P + i + left ≤ 2 ^ 36) (hQ : Q + i + left ≤ 2 ^ 40)
    (hno : ∀ n, P + i ≤ n → n < P + i + left → s.pde (pageAddr n) = none) :
    let r := mapPages4kb mmio flags (pageAddr P) (pageAddr Q) left i s
    (r.1 = .error .enomem ∧ r.2.host.oom = true) ∨ r.1 = .ok () ∧ PagesMapped mmio flags P Q (P + i) (P + i + left) s r.2 := by
  induction left generalizing i s with
  | zero =>
    refine .inr ⟨rfl, .refl sh, fun a => ?_, fun _ => rfl, fun _ _ _ => rfl⟩
    rw [if_neg (by omega)]
    rfl
  | succ left ih =>
    have hnext : P + (i + 1) + left = P + i + (left + 1) := by omega
    simp only [mapPages4kb, pageAddr_add]
    by_cases hb : pageBlocked mmio (P + i) = true
    · rw [pageBlocked] at hb
      rw [if_pos hb]
      rcases ih (i + 1) s sh (by omega) (by omega) (fun n h1 h2 => hno n (by omega) (by omega)) with ho | ⟨hr, hm⟩
      · exact .inl ho
      · rw [hnext] at hm
        refine .inr ⟨hr, hm.toExtends, fun a => ?_, hm.pde, fun q hq hne => hm.others q hq fun n h1 h2 => hne n (by omega) h2⟩
        rw [hm.pte a]
        by_cases ha : pageOf a = P + i
        · rw [if_neg (by omega), if_neg (by simp [pageBlocked, ha, hb])]
        · simp only [show (P + (i + 1) ≤ pageOf a) = (P + i ≤ pageOf a) by rw [eq_iff_iff]; omega]
    · rw [pageBlocked] at hb
      rw [if_neg hb]
      have hpi : pageOf (pageAddr (P + i)) = P + i := pageOf_pageAddr (show P + i < 2 ^ 36 by omega)
      have ho := mapPage_spec _ (pageAddr (Q + i)) flags sh (hno (P + i) (by omega) (by omega))
      rw [pageAddr_aligned (by omega), pageAddr_aligned (by omega), hf] at ho
      generalize relmEptMapPage s (pageAddr (P + i)) (pageAddr (Q + i)) flags = r at ho
      obtain ⟨ret, t, touched⟩ := r
      rcases ho with ⟨hv, _⟩ | ⟨_, hret, hoom, _, _⟩ | ⟨_, hret, hd, _⟩
      · cases hv
      · obtain rfl : ret = .error .enomem := hret
        exact .inl ⟨rfl, hoom⟩
      · obtain rfl : ret = .ok () := hret
        obtain ⟨hl, hw⟩ := hd
        rcases ih (i + 1) t hl.shape (by omega) (by omega)
          (fun n h1 h2 => (hl.pde _).trans (hno n (by omega) (by omega))) with ho | ⟨hr, hm⟩
        · exact .inl ho
        · rw [hnext] at hm
          refine .inr ⟨hr, hl.toExtends.trans hm.toExtends, fun a => ?_, fun a => (hm.pde a).trans (hl.pde a), ?_⟩
          · rw [hm.pte a, hl.pte a, withPte, hpi]
            by_cases ha : pageOf a = P + i
            · rw [if_neg (by omega), if_pos ha, if_pos ⟨by omega, by omega, by rw [ha]; simpa [pageBlocked] using hb⟩, ha]
              congr 4
              omega
            · rw [if_neg ha]
              simp only [show (P + (i + 1) ≤ pageOf a) = (P + i ≤ pageOf a) by rw [eq_iff_iff]; omega]
          · intro q hq hne
            rw [hm.others q hq fun n h1 h2 => hne n (by omega) h2, hw q hq (hne (P + i) (by omega) (by omega))]

/-- Where no block is mapped, the page loop adds no entry of a kind that the links of new tables are not of. -/
theorem mapPages4kb_without {kind : U64 → Bool} (h0 : kind 0#64 = false) (ht : ∀ pa, kind (tableEntry pa) = false)
    (hk : ∀ e, kind e = true → present e = true) (gpaStart hpaStart : U64) (left i : Nat) (s : EptState) (sh : Shape s)
    (hno : ∀ a, s.pde a = none) (hw : Without kind s) :
    Without kind (mapPages4kb mmio flags gpaStart hpaStart left i s).2 := by
  induction left generalizing i s with
  | zero => exact hw
  | succ left ih =>
    simp only [mapPages4kb]
    split
    · exact ih (i + 1) s sh hno hw
    · have hspec := mapPage_spec (gpaStart + BitVec.ofNat 64 i * eptPageSize4kb) (hpaStart + BitVec.ofNat 64 i * eptPageSize4kb)
        flags sh (hno _)
      have hnext := mapPage_without h0 ht hk (gpaStart + BitVec.ofNat 64 i * eptPageSize4kb)
        (hpaStart + BitVec.ofNat 64 i * eptPageSize4kb) flags sh (hno _) hw
      generalize relmEptMapPage s (gpaStart + BitVec.ofNat 64 i * eptPageSize4kb)
        (hpaStart + BitVec.ofNat 64 i * eptPageSize4kb) flags = r at hspec hnext ⊢
      obtain ⟨ret, t, touched⟩ := r
      rcases hspec with ⟨_, hr⟩ | ⟨_, hret, _, _, _⟩ | ⟨_, hret, ⟨hl, _⟩, _⟩
      · obtain ⟨rfl, -⟩ := EptResult.mk.inj hr
        exact hnext
      · obtain rfl : ret = .error .enomem := hret
        exact hnext
      · obtain rfl : ret = .ok () := hret
        exact ih (i + 1) t hl.shape (fun a => (hl.pde a).trans (hno a)) hnext

/-- Once a block has its page table, mapping its pages allocates nothing. -/
theorem mapPages4kb_oom (P Q b : Nat) (hf : present flags = true) (left i : Nat) (s : EptState) (sh : Shape s)
    (hP : 512 * b ≤ P + i ∧ P + i + left ≤ 512 * b + 512) (hb : b < 2 ^ 27) (hQ : Q + i + left ≤ 2 ^ 40)
    (hno : s.pde (blockAddr b) = none) {pt : U64} (hw : s.walk (gpaPath (blockAddr b)) = some pt) :
    (mapPages4kb mmio flags (pageAddr P) (pageAddr Q) left i s).2.host.oom = s.host.oom := by
  induction left generalizing i s with
  | zero => rfl
  | succ left ih =>
    have hbo : blockOf (pageAddr (P + i)) = blockOf (blockAddr b) := by
      rw [blockOf_eq, blockOf_blockAddr hb, pageOf_pageAddr (show P + i < 2 ^ 36 by omega)]
      omega
    simp only [mapPages4kb, pageAddr_add]
    by_cases hblk : eptRangeOverlapsMmio mmio (pageAddr (P + i)) eptPageSize4kb = true
    · rw [if_pos hblk]
      exact ih (i + 1) s sh (by omega) (by omega) hno hw
    · rw [if_neg hblk]
      have hwi : s.walk (gpaPath (pageAddr (P + i))) = some pt := by rw [gpaPath_of_blockOf hbo, hw]
      have hv : (eptIs4kbAligned (pageAddr (P + i)) && eptIs4kbAligned (pageAddr (Q + i)) && present flags) = true := by
        rw [pageAddr_aligned (by omega), pageAddr_aligned (by omega), hf]
        rfl
      obtain ⟨touched, heq⟩ := mapPage_existing hwi hv
      have ho := mapPage_spec _ (pageAddr (Q + i)) flags sh ((pde_congr hbo).trans hno)
      rw [hv, heq] at ho
      rcases ho with ⟨hv, _⟩ | ⟨_, hret, _, _, _⟩ | ⟨_, _, ⟨hl, _⟩, _⟩
      · cases hv
      · cases hret
      · rw [heq]
        refine (ih (i + 1) _ hl.shape (by omega) (by omega) ((hl.pde _).trans hno) (hl.walks _ _ (by simp [gpaPath]) hw)).trans ?_
        rw [setEntry, Host.writeWord_oom, count4kb]
        split <;> rfl

theorem pageAlign_eq {size : U64} (h : size.toNat ≤ 2 ^ 63) : pageAlign size = pageAddr ((size.toNat + 4095) / 4096) := by
  have hs : (size + 4095#64).toNat = size.toNat + 4095 := by
    rw [BitVec.toNat_add, BitVec.toNat_ofNat]
    omega
  rw [← BitVec.toNat_inj, pageAlign, Lib.Word.and_field_toNat _ _ 12 64 (by decide) (by decide), hs,
    pageAddr_toNat (by omega)]
  omega

theorem pageAlign_pageAddr {n : Nat} (h : n < 2 ^ 50) : pageAlign (pageAddr n) = pageAddr n := by
  have hn := pageAddr_toNat (n := n) (by omega)
  rw [pageAlign_eq (by omega), hn]
  congr 1
  omega

theorem pageAddr_div {n : Nat} (h : n < 2 ^ 50) : (pageAddr n / eptPageSize4kb).toNat = n := by
  rw [BitVec.toNat_udiv, pageAddr_toNat (by omega), toNat_pageSize4kb]
  omega

theorem mapGuestRam4kb_eq (gpa hpa : U64) {n : Nat} (h : n < 2 ^ 50) :
    relmEptMapGuestRam4kb mmio flags s gpa hpa (pageAddr n) = mapPages4kb mmio flags gpa hpa n 0 s := by
  simp only [relmEptMapGuestRam4kb, pageAlign_pageAddr h, pageAddr_div h]

/-- The blocks that the huge-preferred loop maps with one entry, for `N` pages from `P` at host page `Q`. -/
def IsStride (mmio : List Vm.MmioRegion) (P Q N b : Nat) : Prop :=
  P ≤ 512 * b ∧ 512 * b + 512 ≤ P + N ∧ (Q + (512 * b - P)) % 512 = 0 ∧ blockBlocked mmio b = false

instance (P Q N b : Nat) : Decidable (IsStride mmio P Q N b) := inferInstanceAs (Decidable (_ ∧ _ ∧ _ ∧ _))

private theorem offset2mb (n : Nat) (h : n < 2 ^ 52) : (pageAddr n &&& (eptPageSize2mb - 1)) = pageAddr (n % 512) := by
  rw [← BitVec.toNat_inj, Lib.Word.and_low_toNat _ _ 21 (by decide), pageAddr_toNat h, pageAddr_toNat (by omega)]
  omega

private theorem pageSize2mb_eq : eptPageSize2mb = pageAddr 512 := by decide

private theorem pageAddr_le_iff {m n : Nat} (hm : m < 2 ^ 52) (hn : n < 2 ^ 52) : pageAddr m ≤ pageAddr n ↔ m ≤ n := by
  rw [BitVec.le_def, pageAddr_toNat hm, pageAddr_toNat hn]
  omega

theorem pageAddr_lt_iff {m n : Nat} (hm : m < 2 ^ 52) (hn : n < 2 ^ 52) : pageAddr m < pageAddr n ↔ m < n := by
  rw [BitVec.lt_def, pageAddr_toNat hm, pageAddr_toNat hn]
  omega

private theorem pageAddr_eq_zero_iff {n : Nat} (hn : n < 2 ^ 52) : pageAddr n = 0 ↔ n = 0 := by
  rw [← BitVec.toNat_inj, pageAddr_toNat hn]
  simp

section Strides

variable {P Q N y : Nat} (hP : P + N ≤ 2 ^ 36) (hQ : Q + N ≤ 2 ^ 40)

include hP hQ

variable (mmio) in
/-- An iteration at a page `P + y` maps a block exactly when that page starts a stride. -/
theorem strideIsHuge_iff (hy : y < N) :
    strideIsHuge mmio (pageAddr (P + N)) (pageAddr (P + y)) (pageAddr (Q + y)) = true ↔
      (P + y) % 512 = 0 ∧ IsStride mmio P Q N ((P + y) / 512) := by
  have hrem : pageAddr (P + N) - pageAddr (P + y) = pageAddr (N - y) := by
    rw [pageAddr_sub (by omega)]
    congr 1
    omega
  simp only [strideIsHuge, hrem, offset2mb _ (show P + y < 2 ^ 52 by omega), offset2mb _ (show Q + y < 2 ^ 52 by omega),
    Bool.and_eq_true, beq_iff_eq, decide_eq_true_eq, pageAddr_eq_zero_iff (show (P + y) % 512 < 2 ^ 52 by omega),
    pageAddr_eq_zero_iff (show (Q + y) % 512 < 2 ^ 52 by omega)]
  rw [pageSize2mb_eq, pageAddr_le_iff (by omega) (by omega), IsStride, blockBlocked, blockAddr_eq, pageSize2mb_eq,
    Bool.not_eq_true']
  constructor
  · rintro ⟨⟨⟨h1, h2⟩, h3⟩, h4⟩
    have hb : 512 * ((P + y) / 512) = P + y := by omega
    rw [hb]
    exact ⟨h1, by omega, by omega, by omega, h4⟩
  · rintro ⟨h1, h2, h3, h4, h5⟩
    have hb : 512 * ((P + y) / 512) = P + y := by omega
    rw [hb] at h2 h3 h4 h5
    exact ⟨⟨⟨h1, by omega⟩, by omega⟩, h5⟩

variable (mmio) in
theorem strideLength_eq (hy : y < N) : strideLength mmio (pageAddr (P + N)) (pageAddr (P + y)) (pageAddr (Q + y)) =
    pageAddr (if (P + y) % 512 = 0 ∧ IsStride mmio P Q N ((P + y) / 512) then 512 else min (N - y) (512 - (P + y) % 512)) := by
  have hrem : pageAddr (P + N) - pageAddr (P + y) = pageAddr (N - y) := by
    rw [pageAddr_sub (by omega)]
    congr 1
    omega
  simp only [strideLength, strideIsHuge_iff mmio hP hQ hy, hrem, offset2mb _ (show P + y < 2 ^ 52 by omega)]
  split
  · exact pageSize2mb_eq
  · rw [pageSize2mb_eq, pageAddr_sub (by omega)]
    simp only [pageAddr_lt_iff (show N - y < 2 ^ 52 by omega) (show 512 - (P + y) % 512 < 2 ^ 52 by omega)]
    split <;> congr 1 <;> omega

/-- The state after the first `y` pages: strides as blocks, other pages as pages, no page table ahead. -/
structure Filled (mmio : List Vm.MmioRegion) (flags : U64) (P Q N y : Nat) (s : EptState) : Prop where
  shape : Shape s
  pte : ∀ a, s.pte a = if P ≤ pageOf a ∧ pageOf a < P + y ∧ pageBlocked mmio (pageOf a) = false ∧
    ¬ IsStride mmio P Q N (pageOf a / 512) then some (leafEntry (pageAddr (Q + (pageOf a - P))) flags) else none
  pde : ∀ a, s.pde a = if IsStride mmio P Q N (blockOf a) ∧ 512 * blockOf a < P + y then
    some (hugeEntry (pageAddr (Q + (512 * blockOf a - P))) flags) else none
  ahead : ∀ a, P + y ≤ 512 * blockOf a → s.walk (gpaPath a) = none

omit hP hQ in
theorem Empty.filled (h : Empty s) : Filled mmio flags P Q N 0 s where
  shape := h.shape
  pte a := by rw [h.pte a, if_neg (by omega)]
  pde a := by
    rw [h.pde a, if_neg]
    rintro ⟨⟨h1, _⟩, h2⟩
    omega
  ahead a _ := h.walks _ _

omit hQ in
private theorem blockOf_pageAddr (hn : P + y < P + N) : blockOf (pageAddr (P + y)) = (P + y) / 512 := by
  rw [blockOf_eq, pageOf_pageAddr (show P + y < 2 ^ 36 by omega)]

/-- A block mapped at a stride. -/
private theorem Filled.huge (hf : present flags = true) (h : Filled mmio flags P Q N y s)
    (hst : (P + y) % 512 = 0 ∧ IsStride mmio P Q N ((P + y) / 512)) :
    let r := relmEptMapHugePage s (pageAddr (P + y)) (pageAddr (Q + y)) flags
    (r.ret = .error .enomem ∧ r.next.host.oom = true) ∨ r.ret = .ok () ∧ Filled mmio flags P Q N (y + 512) r.next := by
  obtain ⟨hal, hs⟩ := hst
  have hb : 512 * ((P + y) / 512) = P + y := by omega
  have hs1 := hs.1
  have hs2 := hs.2.1
  have hs3 := hs.2.2.1
  rw [hb] at hs1 hs2 hs3
  have hbo := blockOf_pageAddr hP (show P + y < P + N by omega)
  have hg : eptIs2mbAligned (pageAddr (P + y)) = true := by
    rw [is2mbAligned_iff, pageAddr_toNat (by omega)]
    omega
  have hh : eptIs2mbAligned (pageAddr (Q + y)) = true := by
    rw [is2mbAligned_iff, pageAddr_toNat (by omega)]
    omega
  have ho := mapHugePage_spec _ (pageAddr (Q + y)) flags h.shape
    (h.ahead (pageAddr (P + y)) (by rw [hbo, hb]))
  rw [hg, hh, hf] at ho
  intro r
  rcases ho with ⟨hv, _⟩ | ⟨_, hret, hoom, _, _⟩ | ⟨_, hret, ⟨hl, hw⟩, _⟩
  · cases hv
  · exact .inl ⟨hret, hoom⟩
  · refine .inr ⟨hret, hl.shape, fun a => ?_, fun a => ?_, fun a ha => ?_⟩
    · rw [hl.pte a, h.pte a]
      by_cases hin : pageOf a / 512 = (P + y) / 512
      · rw [if_neg (fun hc => hc.2.2.2 (hin ▸ hs)), if_neg (fun hc => hc.2.2.2 (hin ▸ hs))]
      · simp only [show (pageOf a < P + (y + 512)) = (pageOf a < P + y) by rw [eq_iff_iff]; omega]
    · rw [hl.pde a, withPde, h.pde a, hbo]
      by_cases hin : blockOf a = (P + y) / 512
      · rw [if_pos hin, if_pos ⟨hin ▸ hs, by omega⟩, hin, hb]
        congr 4
        omega
      · rw [if_neg hin]
        simp only [show (512 * blockOf a < P + (y + 512)) = (512 * blockOf a < P + y) by rw [eq_iff_iff]; omega]
    · rw [hw _ rfl, h.ahead a (by omega)]

/-- A chunk of pages mapped outside the strides. -/
private theorem Filled.chunk (hf : present flags = true) (h : Filled mmio flags P Q N y s) (hy : y < N)
    (hst : ¬ ((P + y) % 512 = 0 ∧ IsStride mmio P Q N ((P + y) / 512)))
    (hbd : y = 0 ∨ (P + y) % 512 = 0 ∨ y = N) :
    let c := min (N - y) (512 - (P + y) % 512)
    let r := mapPages4kb mmio flags (pageAddr (P + y)) (pageAddr (Q + y)) c 0 s
    (r.1 = .error .enomem ∧ r.2.host.oom = true) ∨ r.1 = .ok () ∧ Filled mmio flags P Q N (y + c) r.2 := by
  intro c r
  have hc : c ≤ N - y ∧ c ≤ 512 - (P + y) % 512 := ⟨min_le_left _ _, min_le_right _ _⟩
  have hns : ¬ IsStride mmio P Q N ((P + y) / 512) := by
    intro hs
    have := hs.1
    exact hst ⟨by omega, hs⟩
  have hin : ∀ n, P + y ≤ n → n < P + y + c → n / 512 = (P + y) / 512 := by
    intro n h1 h2
    omega
  have hno : ∀ n, P + y + 0 ≤ n → n < P + y + 0 + c → s.pde (pageAddr n) = none := by
    intro n h1 h2
    rw [h.pde, blockOf_eq, pageOf_pageAddr (show n < 2 ^ 36 by omega), hin n (by omega) (by omega),
      if_neg fun hc => hns hc.1]
  rcases mapPages4kb_spec mmio (P + y) (Q + y) hf c 0 s h.shape (by omega) (by omega) hno with ho | ⟨hr, hm⟩
  · exact .inl ho
  · refine .inr ⟨hr, hm.shape, fun a => ?_, fun a => ?_, fun a ha => ?_⟩
    · rw [hm.pte a]
      by_cases hpa : P + y ≤ pageOf a ∧ pageOf a < P + y + c
      · have hblk := hin (pageOf a) hpa.1 hpa.2
        have hold : s.pte a = none := by rw [h.pte a, if_neg (by omega)]
        rw [hold]
        by_cases hpb : pageBlocked mmio (pageOf a) = false
        · rw [if_pos ⟨by omega, by omega, hpb⟩, if_pos ⟨by omega, by omega, hpb, hblk ▸ hns⟩]
          rw [show Q + y + (pageOf a - (P + y)) = Q + (pageOf a - P) by omega]
        · rw [if_neg fun hc => hpb hc.2.2, if_neg fun hc => hpb hc.2.2.1]
      · rw [if_neg (by omega), h.pte a]
        simp only [show (P ≤ pageOf a ∧ pageOf a < P + (y + c)) = (P ≤ pageOf a ∧ pageOf a < P + y) by
          rw [eq_iff_iff]; omega, ← and_assoc]
    · rw [hm.pde a, h.pde a]
      by_cases hblk : blockOf a = (P + y) / 512
      · rw [if_neg fun hc => hns (hblk ▸ hc.1), if_neg fun hc => hns (hblk ▸ hc.1)]
      · refine if_congr (and_congr_right fun hs => ?_) rfl rfl
        have := hs.1
        omega
    · rw [hm.others _ rfl, h.ahead a (by omega)]
      intro n h1 h2 heq
      have := blockOf_of_gpaPath heq
      rw [blockOf_eq (pageAddr n), pageOf_pageAddr (show n < 2 ^ 36 by omega), hin n (by omega) (by omega)] at this
      omega

variable (mmio) in
/-- The huge-preferred loop fills the rest of the range, unless a table allocation fails. -/
theorem mapStrides_spec (hf : present flags = true) (k : Nat) : ∀ (y : Nat) (s : EptState), N - y ≤ k → y ≤ N →
    (y = 0 ∨ (P + y) % 512 = 0 ∨ y = N) → Filled mmio flags P Q N y s →
    let r := mapStrides mmio flags (pageAddr (P + N)) (pageAddr (P + y)) (pageAddr (Q + y)) s
    (r.1 = .error .enomem ∧ r.2.host.oom = true) ∨ r.1 = .ok () ∧ Filled mmio flags P Q N N r.2 := by
  induction k with
  | zero =>
    intro y s hk hy hbd h
    obtain rfl : y = N := by omega
    rw [mapStrides, dif_neg (by rw [pageAddr_lt_iff (by omega) (by omega)]; omega)]
    exact .inr ⟨rfl, h⟩
  | succ k ih =>
    intro y s hk hy hbd h
    by_cases hlt : y < N
    swap
    · obtain rfl : y = N := by omega
      rw [mapStrides, dif_neg (by rw [pageAddr_lt_iff (by omega) (by omega)]; omega)]
      exact .inr ⟨rfl, h⟩
    have hhuge := strideIsHuge_iff mmio hP hQ hlt
    have hlen := strideLength_eq mmio hP hQ hlt
    rw [mapStrides, dif_pos (by rw [pageAddr_lt_iff (by omega) (by omega)]; omega)]
    by_cases hst : (P + y) % 512 = 0 ∧ IsStride mmio P Q N ((P + y) / 512)
    · have hs2 := hst.2.2.1
      rw [if_pos hst] at hlen
      rw [mapStride, if_pos (hhuge.mpr hst), hlen, pageAddr_add_pageAddr, pageAddr_add_pageAddr]
      have hstep := h.huge hP hQ hf hst
      generalize relmEptMapHugePage s (pageAddr (P + y)) (pageAddr (Q + y)) flags = r at hstep ⊢
      rcases hstep with ⟨he, ho⟩ | ⟨hr, hfill⟩
      · simp only [he]
        exact .inl ⟨trivial, ho⟩
      · simp only [hr, Nat.add_assoc]
        exact ih (y + 512) _ (by omega) (by omega) (by omega) hfill
    · rw [if_neg hst] at hlen
      rw [mapStride, if_neg (fun hc => hst (hhuge.mp hc)), hlen, pageAddr_add_pageAddr, pageAddr_add_pageAddr,
        mapGuestRam4kb_eq _ _ (by omega)]
      have hstep := h.chunk hP hQ hf hlt hst hbd
      simp only at hstep
      have hc : 0 < min (N - y) (512 - (P + y) % 512) ∧ min (N - y) (512 - (P + y) % 512) ≤ N - y ∧
          (min (N - y) (512 - (P + y) % 512) = N - y ∨
            (P + y + min (N - y) (512 - (P + y) % 512)) % 512 = 0) := by omega
      generalize min (N - y) (512 - (P + y) % 512) = c at hstep hc ⊢
      generalize mapPages4kb mmio flags (pageAddr (P + y)) (pageAddr (Q + y)) c 0 s = r at hstep ⊢
      obtain ⟨ret, t⟩ := r
      rcases hstep with ⟨he, ho⟩ | ⟨hr, hfill⟩
      · obtain rfl : ret = .error .enomem := he
        exact .inl ⟨rfl, ho⟩
      · obtain rfl : ret = .ok () := hr
        simp only [Nat.add_assoc]
        exact ih (y + c) t (by omega) (by omega) (by omega) hfill

end Strides

end Spec

end Relm.Ept
