import Relm.Arm64.Stage2Map

/-! Mapping a range of guest RAM on stage 2 with 4 KiB pages only or preferring 2 MiB blocks: both translate every
address of the range that no reserved MMIO window touches, and nothing else. -/
namespace Relm.Arm64
open Relm.Lib.Word
open S2State Refines

/-- The address of a page counted from a base, as both loops compute it. -/
def pageAt (base : U64) (i : Nat) : U64 := base + BitVec.ofNat 64 i * s2PageSize4kb

theorem pageAt_toNat {base : U64} {i : Nat} (h : base.toNat + 4096 * i < 2 ^ 64) :
    (pageAt base i).toNat = base.toNat + 4096 * i :=
  toNat_add_eq rfl (scaled_toNat (by decide) (by decide) (by omega)) h

theorem pageAt_pageAt (base : U64) (i j : Nat) : pageAt (pageAt base i) j = pageAt base (i + j) := by
  rw [pageAt, pageAt, pageAt, BitVec.add_assoc, ← BitVec.add_mul, BitVec.ofNat_add]

@[simp] theorem pageAt_zero (base : U64) : pageAt base 0 = base := by simp [pageAt]

/-- A word whose value is a whole number of pages advances by them. -/
theorem add_eq_pageAt {base len : U64} {c : Nat} (h : len.toNat = 4096 * c) : base + len = pageAt base c := by
  rw [pageAt]
  congr 1
  have hlt := len.isLt
  rw [← BitVec.toNat_inj, h, scaled_toNat (show s2PageSize4kb.toNat = 4096 by decide) (by decide) (by omega)]

/-- What a map says of a page number: the address behind its first byte. -/
def S2Map.view (m : S2Map) (n : Nat) : Option U64 :=
  match m.pages n with
  | some pa => some pa
  | none => (m.blocks (n / 512)).map (pageAt · (n % 512))

theorem S2Map.lookup_eq_view (m : S2Map) (a : Nat) : m.lookup a = match m.view (a / 4096) with
    | some pa => .ok (pa + BitVec.ofNat 64 (a % 4096))
    | none => .error .enoent := by
  rw [S2Map.lookup, S2Map.view]
  cases m.pages (a / 4096) with
  | some pa => rfl
  | none =>
    rw [show a / 4096 / 512 = a / 2 ^ 21 by omega]
    cases m.blocks (a / 2 ^ 21) with
    | none => rfl
    | some pa =>
      simp only [Option.map_some, pageAt]
      rw [BitVec.add_assoc, show s2PageSize4kb = BitVec.ofNat 64 4096 by decide, ← BitVec.ofNat_mul, ← BitVec.ofNat_add]
      congr 4
      omega

/-- Does a page touch no reserved window? -/
def pageFree (mmio : List Vm.MmioRegion) (n : Nat) : Bool :=
  mmio.all fun region => !(decide (4096 * n < region.gpaStart.toNat + region.size.toNat) &&
    decide (region.gpaStart.toNat < 4096 * n + 4096))

/-- The arguments the two mappers are compared on. -/
structure RamArgs (g : Geometry) (mmio : List Vm.MmioRegion) (flags ipa pa size : U64) : Prop where
  valid : s2GeometryValid g = true
  ipaAligned : s2PageAligned ipa = true
  paAligned : s2PageAligned pa = true
  sizeAligned : s2PageAligned size = true
  ipaFits : s2RangeFits ipa size g.ipaBits = true
  paFits : s2RangeFits pa size g.paBits = true
  leafFlags : LeafFlags flags
  readable : flags &&& s2AccessRead ≠ 0
  regions : ∀ region ∈ mmio, region.gpaStart.toNat + region.size.toNat < 2 ^ 64 ∧ region.gpaStart.toNat % 4096 = 0 ∧
    region.size.toNat % 4096 = 0

/-- The state after the first `y` pages of the range have been dealt with. -/
structure Filling (mmio : List Vm.MmioRegion) (g : Geometry) (ipa pa : U64) (y : Nat) (s : S2State) (m : S2Map) : Prop where
  refines : Refines s m
  geometry : s.ctx.geometry = g
  view : ∀ n, m.view n = if ipa.toNat / 4096 ≤ n ∧ n < ipa.toNat / 4096 + y ∧ pageFree mmio n = true then
    some (pageAt pa (n - ipa.toNat / 4096)) else none
  ahead : ∀ a : U64, a.toNat < 2 ^ g.ipaBits → ipa.toNat + 4096 * y ≤ a.toNat / 2 ^ 21 * 2 ^ 21 → s.tableAt 3 a = none

section Overlap

variable {mmio : List Vm.MmioRegion} {a size : U64}

/-- The overlap test read over the naturals. -/
private theorem overlaps_iff (hr : ∀ region ∈ mmio, region.gpaStart.toNat + region.size.toNat < 2 ^ 64)
    (ha : a.toNat + size.toNat < 2 ^ 64) : s2RangeOverlapsMmio mmio a size = true ↔
      ∃ region ∈ mmio, a.toNat < region.gpaStart.toNat + region.size.toNat ∧
        region.gpaStart.toNat < a.toNat + size.toNat := by
  simp only [s2RangeOverlapsMmio, List.any_eq_true, Bool.and_eq_true, decide_eq_true_eq, BitVec.lt_def]
  refine exists_congr fun region => and_congr_right fun hmem => ?_
  rw [toNat_add_eq rfl rfl ha, toNat_add_eq rfl rfl (hr region hmem)]

private theorem pageFree_false_iff (n : Nat) : pageFree mmio n = false ↔
    ∃ region ∈ mmio, 4096 * n < region.gpaStart.toNat + region.size.toNat ∧
      region.gpaStart.toNat < 4096 * n + 4096 := by
  simp only [pageFree, List.all_eq_false, Bool.not_eq_true', Bool.not_eq_false, Bool.and_eq_true, decide_eq_true_eq]

/-- The page test of the loops. -/
private theorem overlaps_page (hr : ∀ region ∈ mmio, region.gpaStart.toNat + region.size.toNat < 2 ^ 64) {n : Nat}
    (ha : a.toNat = 4096 * n) (hlt : 4096 * n + 4096 < 2 ^ 64) : s2RangeOverlapsMmio mmio a s2PageSize4kb = !pageFree mmio n := by
  have hsize : s2PageSize4kb.toNat = 4096 := by decide
  rw [Bool.eq_iff_iff, overlaps_iff hr (by omega), Bool.not_eq_true', pageFree_false_iff, ha, hsize]

/-- The pages of a block that touches no window touch none. -/
private theorem pageFree_of_block (hr : ∀ region ∈ mmio, region.gpaStart.toNat + region.size.toNat < 2 ^ 64) {b n : Nat}
    (ha : a.toNat = 2 ^ 21 * b) (hlt : 2 ^ 21 * b + 2 ^ 21 < 2 ^ 64) (hno : s2RangeOverlapsMmio mmio a s2PageSize2mb = false)
    (hn : n / 512 = b) : pageFree mmio n = true := by
  have hsize : s2PageSize2mb.toNat = 2 ^ 21 := by decide
  by_contra hfree
  obtain ⟨region, hmem, h1, h2⟩ := (pageFree_false_iff n).mp (by simpa using hfree)
  have hover : s2RangeOverlapsMmio mmio a s2PageSize2mb = true :=
    (overlaps_iff hr (by omega)).mpr ⟨region, hmem, by omega, by omega⟩
  rw [hover] at hno
  cases hno

end Overlap

section Steps

variable {mmio : List Vm.MmioRegion} {g : Geometry} {flags ipa pa size : U64} {y : Nat} {s : S2State} {m : S2Map}

/-- The arguments in pages. -/
private structure Bounds (g : Geometry) (ipa pa size : U64) (N : Nat) : Prop where
  pages : size.toNat = 4096 * N
  pos : 0 < N
  ipaMod : ipa.toNat % 4096 = 0
  paMod : pa.toNat % 4096 = 0
  ipaBits : g.ipaBits ≤ 48
  paBits : g.paBits ≤ 48
  ipaFits : ipa.toNat + 4096 * N ≤ 2 ^ g.ipaBits
  paFits : pa.toNat + 4096 * N ≤ 2 ^ g.paBits
  ipaMax : 2 ^ g.ipaBits ≤ 2 ^ 48
  paMax : 2 ^ g.paBits ≤ 2 ^ 48

private theorem RamArgs.bounds (h : RamArgs g mmio flags ipa pa size) : Bounds g ipa pa size (size.toNat / 4096) := by
  obtain ⟨-, hi48, hp48, -, -⟩ := geometry_bounds h.valid
  obtain ⟨hne, hifit, -⟩ := (rangeFits_iff hi48).mp h.ipaFits
  obtain ⟨-, hpfit, -⟩ := (rangeFits_iff hp48).mp h.paFits
  have hsize := (pageAligned_iff size).mp h.sizeAligned
  have hpos : 0 < size.toNat := by
    rw [Nat.pos_iff_ne_zero]
    intro h0
    exact hne (BitVec.toNat_inj.mp h0)
  have hmul : size.toNat = 4096 * (size.toNat / 4096) := by omega
  exact ⟨hmul, by omega, (pageAligned_iff ipa).mp h.ipaAligned, (pageAligned_iff pa).mp h.paAligned, hi48, hp48,
    by omega, by omega, Nat.pow_le_pow_right (by decide) hi48, Nat.pow_le_pow_right (by decide) hp48⟩

variable {N : Nat}

private theorem Bounds.ipaAt (h : Bounds g ipa pa size N) (hy : y ≤ N) : (pageAt ipa y).toNat = ipa.toNat + 4096 * y := by
  have h1 := h.ipaFits
  have h2 := h.ipaMax
  exact pageAt_toNat (by omega)

private theorem Bounds.paAt (h : Bounds g ipa pa size N) (hy : y ≤ N) : (pageAt pa y).toNat = pa.toNat + 4096 * y := by
  have h1 := h.paFits
  have h2 := h.paMax
  exact pageAt_toNat (by omega)

/-- The checks pass for a leaf that lies in the range. -/
private theorem Bounds.accepted (h : Bounds g ipa pa size N) (hread : flags &&& s2AccessRead ≠ 0) {level c : Nat}
    (hl : level = 2 ∨ level = 3) (hc : 2 ^ s2Shift level = 4096 * c) (hy : y + c ≤ N) :
    Accepted g (pageAt ipa y) (pageAt pa y) flags level := by
  have hi := h.ipaAt (show y ≤ N by omega)
  have hp := h.paAt (show y ≤ N by omega)
  have hial := h.ipaMod
  have hpal := h.paMod
  have hsz := levelSize_toNat hl
  have hne : s2LevelSize level ≠ 0 := by rcases hl with rfl | rfl <;> decide
  have hifit := h.ipaFits
  have hpfit := h.paFits
  have hcpos : 0 < c := by
    have : 0 < 2 ^ s2Shift level := Nat.two_pow_pos _
    omega
  refine ⟨(pageAligned_iff _).mpr (by omega), (pageAligned_iff _).mpr (by omega), hread, ?_, ?_⟩
  · exact (rangeFits_iff h.ipaBits).mpr ⟨hne, by omega, by omega⟩
  · exact (rangeFits_iff h.paBits).mpr ⟨hne, by omega, by omega⟩

/-- A page that touches a window is passed over. -/
private theorem Filling.skip (h : Filling mmio g ipa pa y s m) (hfree : pageFree mmio (ipa.toNat / 4096 + y) = false) :
    Filling mmio g ipa pa (y + 1) s m := by
  refine ⟨h.refines, h.geometry, fun n => ?_, fun a ha hle => h.ahead a ha (by omega)⟩
  rw [h.view n]
  by_cases hn : n = ipa.toNat / 4096 + y
  · rw [if_neg (by omega), if_neg (by rw [hn, hfree]; simp)]
  · refine if_congr ?_ rfl rfl
    rw [← and_assoc, ← and_assoc]
    exact and_congr_left fun _ => by omega

/-- No block reaches the position. -/
private theorem Filling.no_block (h : Filling mmio g ipa pa y s m) {b : Nat} (hb : ipa.toNat / 4096 + y ≤ 512 * b + 511) :
    m.blocks b = none := by
  cases hm : m.blocks b with
  | none => rfl
  | some pa' =>
    have hv := h.view (512 * b + 511)
    rw [if_neg (by omega), S2Map.view, show (512 * b + 511) / 512 = b by omega, hm] at hv
    cases hp : m.pages (512 * b + 511) <;> simp [hp] at hv

/-- How one step of the loops ends. -/
def StepTo (mmio : List Vm.MmioRegion) (g : Geometry) (ipa pa : U64) (y : Nat) (r : Except Errno Unit × S2State) : Prop :=
  (r.1 = .error .enomem ∧ r.2.host.oom = true) ∨ r.1 = .ok () ∧ ∃ m, Filling mmio g ipa pa y r.2 m

private theorem Filling.block_none (h : Filling mmio g ipa pa y s m) (hb : Bounds g ipa pa size N) (hy : y < N) :
    s.block (pageAt ipa y) = none := by
  have hat := hb.ipaAt hy.le
  have hfit := hb.ipaFits
  have hmod := hb.ipaMod
  have hlt : (pageAt ipa y).toNat < 2 ^ s.ctx.geometry.ipaBits := by
    rw [h.geometry]
    omega
  have hblock := h.refines.block (pageAt ipa y)
  rw [blockKey, h.refines.walked_eq hlt, h.no_block (by omega), Option.map_eq_none_iff] at hblock
  exact hblock

/-- Mapping one page at the position. -/
private theorem Filling.page (h : Filling mmio g ipa pa y s m) (args : RamArgs g mmio flags ipa pa size)
    (hy : y < size.toNat / 4096) (hfree : pageFree mmio (ipa.toNat / 4096 + y) = true) :
    StepTo mmio g ipa pa (y + 1) (relmStage2MapPage s (pageAt ipa y) (pageAt pa y) flags) := by
  have hb := args.bounds
  have hat := hb.ipaAt hy.le
  have hfit := hb.ipaFits
  have hmod := hb.ipaMod
  have hacc : Accepted s.ctx.geometry (pageAt ipa y) (pageAt pa y) flags 3 := by
    rw [h.geometry]
    exact hb.accepted args.readable (.inr rfl) (show 2 ^ s2Shift 3 = 4096 * 1 by decide) (by omega)
  have hblock := h.block_none hb hy
  have hout : MapOutcome s (pageAt ipa y) 3 (s2LeafEntry (pageAt pa y) flags 3)
      (relmStage2MapPage s (pageAt ipa y) (pageAt pa y) flags) := by
    rw [relmStage2MapPage, map_accepted hacc]
    exact mapOne_page h.refines.shape hblock
  obtain ⟨href, hgeo⟩ := h.refines.step (.mapPage (pageAt ipa y) (pageAt pa y) flags) args.leafFlags fun _ => .inl hblock
  rw [S2Call.exec] at href hgeo
  cases hout with
  | refused hret hoom _ => exact .inl ⟨hret, hoom⟩
  | done hret hm =>
    rw [hret] at href
    refine .inr ⟨hret, _, href, hgeo.trans h.geometry, fun n => ?_, fun a ha hle => ?_⟩
    · have hkey : (pageAt ipa y).toNat / 4096 = ipa.toNat / 4096 + y := by omega
      have hview := h.view n
      simp only [S2Map.after, S2Map.view, hkey] at hview ⊢
      by_cases hn : n = ipa.toNat / 4096 + y
      · subst hn
        rw [Function.update_self, if_pos ⟨by omega, by omega, hfree⟩, Nat.add_sub_cancel_left]
      · rw [Function.update_of_ne hn, hview]
        refine if_congr ?_ rfl rfl
        rw [← and_assoc, ← and_assoc]
        exact and_congr_left fun _ => by omega
    · have hst := hm.toExtends.start_eq
      have hs1 := h.refines.shape.start
      have hga : a.toNat < 2 ^ s.ctx.geometry.ipaBits := by
        rw [h.geometry]
        exact ha
      rw [tableAt, hst, hm.tables _ (path_length _ _ _) fun _ heq => ?_]
      · exact h.ahead a ha (by omega)
      · have hkey := (path_eq_iff hs1 _ _).mp heq
        rw [blockKey, blockKey, h.refines.walked_eq hga,
          h.refines.walked_eq (show (pageAt ipa y).toNat < _ by rw [h.geometry]; omega)] at hkey
        omega

/-- Mapping one block at the position. -/
private theorem Filling.block (h : Filling mmio g ipa pa y s m) (args : RamArgs g mmio flags ipa pa size)
    (hy : y + 512 ≤ size.toNat / 4096) (halign : (pageAt ipa y ||| pageAt pa y) &&& (s2PageSize2mb - 1) = 0)
    (hno : s2RangeOverlapsMmio mmio (pageAt ipa y) s2PageSize2mb = false) :
    StepTo mmio g ipa pa (y + 512) (relmStage2MapHugePage s (pageAt ipa y) (pageAt pa y) flags) := by
  have hb := args.bounds
  have hat := hb.ipaAt (show y ≤ size.toNat / 4096 by omega)
  have hfit := hb.ipaFits
  have hmod := hb.ipaMod
  have hmax := hb.ipaMax
  have h2mb := (mask_or_eq_zero halign).1
  have hlt : (pageAt ipa y).toNat < 2 ^ g.ipaBits := by omega
  have hacc : Accepted s.ctx.geometry (pageAt ipa y) (pageAt pa y) flags 2 := by
    rw [h.geometry]
    exact hb.accepted args.readable (.inl rfl) (show 2 ^ s2Shift 2 = 4096 * 512 by decide) (by omega)
  have hnone := h.ahead (pageAt ipa y) hlt (by omega)
  have hout : MapOutcome s (pageAt ipa y) 2 (s2LeafEntry (pageAt pa y) flags 2)
      (relmStage2MapHugePage s (pageAt ipa y) (pageAt pa y) flags) := by
    rw [relmStage2MapHugePage, if_neg (by rw [halign]; decide), map_accepted hacc]
    exact mapOne_block h.refines.shape (isBlock_block args.leafFlags _) hnone
  obtain ⟨href, hgeo⟩ := h.refines.step (.mapHugePage (pageAt ipa y) (pageAt pa y) flags) args.leafFlags fun _ _ => hnone
  rw [S2Call.exec] at href hgeo
  cases hout with
  | refused hret hoom _ => exact .inl ⟨hret, hoom⟩
  | done hret hm =>
    rw [hret] at href
    refine .inr ⟨hret, _, href, hgeo.trans h.geometry, fun n => ?_, fun a ha hle => ?_⟩
    · have hregions : ∀ region ∈ mmio, region.gpaStart.toNat + region.size.toNat < 2 ^ 64 := fun r hr => (args.regions r hr).1
      have hkey : 512 * ((pageAt ipa y).toNat / 2 ^ 21) = ipa.toNat / 4096 + y := by omega
      have hview := h.view n
      simp only [S2Map.after, S2Map.view] at hview ⊢
      by_cases hn : n / 512 = (pageAt ipa y).toNat / 2 ^ 21
      · have hfree := pageFree_of_block hregions (show (pageAt ipa y).toNat = 2 ^ 21 * ((pageAt ipa y).toNat / 2 ^ 21) by omega)
          (by omega) hno hn
        rw [if_pos hn, hn, Function.update_self, if_pos ⟨by omega, by omega, hfree⟩, Option.map_some, pageAt_pageAt,
          show y + n % 512 = n - ipa.toNat / 4096 by omega]
      · rw [if_neg hn, Function.update_of_ne hn, hview]
        refine if_congr ?_ rfl rfl
        rw [← and_assoc, ← and_assoc]
        exact and_congr_left fun _ => by omega
    · rw [tableAt, hm.toExtends.start_eq, hm.tables _ (path_length _ _ _) (by simp)]
      exact h.ahead a ha (by omega)

private theorem args_regions (args : RamArgs g mmio flags ipa pa size) :
    ∀ region ∈ mmio, region.gpaStart.toNat + region.size.toNat < 2 ^ 64 := fun r hr => (args.regions r hr).1

/-- The page loop, from a position in the range on. -/
private theorem mapPages_spec (args : RamArgs g mmio flags ipa pa size) (left i : Nat) (h : Filling mmio g ipa pa (y + i) s m)
    (hle : y + i + left ≤ size.toNat / 4096) :
    StepTo mmio g ipa pa (y + i + left) (s2MapPages mmio flags (pageAt ipa y) (pageAt pa y) left i s) := by
  induction left generalizing i s m with
  | zero => exact .inr ⟨rfl, m, h⟩
  | succ left ih =>
    have hnext : y + (i + 1) + left = y + i + (left + 1) := by omega
    have hb := args.bounds
    have hat := hb.ipaAt (show y + i ≤ size.toNat / 4096 by omega)
    have hfit := hb.ipaFits
    have hmod := hb.ipaMod
    have hmax := hb.ipaMax
    have hover : s2RangeOverlapsMmio mmio (pageAt ipa (y + i)) s2PageSize4kb = !pageFree mmio (ipa.toNat / 4096 + (y + i)) :=
      overlaps_page (args_regions args) (by omega) (by omega)
    have hipa : pageAt ipa y + BitVec.ofNat 64 i * s2PageSize4kb = pageAt ipa (y + i) := pageAt_pageAt ipa y i
    have hpa : pageAt pa y + BitVec.ofNat 64 i * s2PageSize4kb = pageAt pa (y + i) := pageAt_pageAt pa y i
    simp only [s2MapPages, hipa, hpa, hover]
    cases hfree : pageFree mmio (ipa.toNat / 4096 + (y + i)) with
    | false =>
      have hrest := ih (i + 1) (h.skip hfree) (by omega)
      rw [hnext] at hrest
      exact hrest
    | true =>
      have hstep := h.page args (by omega) hfree
      simp only [Bool.not_true, Bool.false_eq_true, if_false]
      generalize relmStage2MapPage s (pageAt ipa (y + i)) (pageAt pa (y + i)) flags = r at hstep ⊢
      obtain ⟨ret, t⟩ := r
      rcases hstep with ⟨hret, hoom⟩ | ⟨hret, m', hfill⟩
      · obtain rfl : ret = .error .enomem := hret
        exact .inl ⟨rfl, hoom⟩
      · obtain rfl : ret = .ok () := hret
        have hrest := ih (i + 1) hfill (by omega)
        rw [hnext] at hrest
        exact hrest

/-- An iteration of the huge-preferred loop advances by whole pages. -/
private theorem strideLength_pages (mmio : List Vm.MmioRegion) {last address : U64} (physical : U64)
    (hl : last.toNat % 4096 = 0) (ha : address.toNat % 4096 = 0)
    (hlt : address < last) : (s2StrideLength mmio last address physical).toNat % 4096 = 0 := by
  have hsize : s2PageSize2mb.toNat = 2 ^ 21 := by decide
  have hrem := BitVec.toNat_sub_of_le (BitVec.le_of_lt hlt)
  have hlow : (address &&& (s2PageSize2mb - 1)).toNat = address.toNat % 2 ^ 21 := and_low_toNat _ _ 21 (by decide)
  have hto : (s2PageSize2mb - (address &&& (s2PageSize2mb - 1))).toNat = 2 ^ 21 - address.toNat % 2 ^ 21 :=
    toNat_sub_eq hsize hlow (by omega)
  unfold s2StrideLength
  split
  · rw [hsize]
    decide
  · dsimp only
    split
    · omega
    · omega

/-- One iteration of the huge-preferred loop. -/
private theorem Filling.stride (h : Filling mmio g ipa pa y s m) (args : RamArgs g mmio flags ipa pa size)
    (hy : y < size.toNat / 4096) (hless : pageAt ipa y < pageAt ipa (size.toNat / 4096)) :
    StepTo mmio g ipa pa
      (y + (s2StrideLength mmio (pageAt ipa (size.toNat / 4096)) (pageAt ipa y) (pageAt pa y)).toNat / 4096)
      (s2MapStride mmio flags (pageAt ipa (size.toNat / 4096)) (pageAt ipa y) (pageAt pa y) s) := by
  have hb := args.bounds
  have hlast := hb.ipaAt le_rfl
  have hat := hb.ipaAt hy.le
  have hmod := hb.ipaMod
  have hrem := BitVec.toNat_sub_of_le (BitVec.le_of_lt hless)
  have hpages := strideLength_pages mmio (pageAt pa y) (show (pageAt ipa (size.toNat / 4096)).toNat % 4096 = 0 by omega)
    (show (pageAt ipa y).toNat % 4096 = 0 by omega) hless
  obtain ⟨hpos, hle⟩ := s2StrideLength_bounds mmio (pageAt pa y) hless
  rw [hrem] at hle
  rw [s2MapStride]
  by_cases hh : s2StrideIsHuge mmio (pageAt ipa (size.toNat / 4096)) (pageAt ipa y) (pageAt pa y) = true
  · rw [if_pos hh, s2StrideLength, if_pos hh, show s2PageSize2mb.toNat / 4096 = 512 by decide]
    simp only [s2StrideIsHuge, Bool.and_eq_true, decide_eq_true_eq, beq_iff_eq, Bool.not_eq_true', BitVec.le_def] at hh
    rw [hrem, show s2PageSize2mb.toNat = 2 ^ 21 by decide] at hh
    exact h.block args (by omega) hh.1.2 hh.2
  · rw [if_neg hh]
    generalize s2StrideLength mmio (pageAt ipa (size.toNat / 4096)) (pageAt ipa y) (pageAt pa y) = len at *
    have hzero : (len == 0) = false := by
      rw [beq_eq_false_iff_ne]
      rintro rfl
      exact absurd hpos (by decide)
    have hcount : (len / s2PageSize4kb).toNat = len.toNat / 4096 := by
      rw [BitVec.toNat_udiv, show s2PageSize4kb.toNat = 4096 by decide]
    rw [relmStage2MapGuestRam4kb, hzero, (pageAligned_iff len).mpr hpages, hcount]
    exact mapPages_spec args (y := y) (len.toNat / 4096) 0 h (by omega)

/-- The huge-preferred loop, from a position in the range on. -/
private theorem mapStrides_spec (args : RamArgs g mmio flags ipa pa size) (k : Nat) : ∀ (y : Nat) (s : S2State) (m : S2Map),
    size.toNat / 4096 - y ≤ k → y ≤ size.toNat / 4096 → Filling mmio g ipa pa y s m →
    StepTo mmio g ipa pa (size.toNat / 4096)
      (s2MapStrides mmio flags (pageAt ipa (size.toNat / 4096)) (pageAt ipa y) (pageAt pa y) s) := by
  have hb := args.bounds
  have hlast := hb.ipaAt le_rfl
  have hmod := hb.ipaMod
  induction k with
  | zero =>
    intro y s m hk hy h
    obtain rfl : y = size.toNat / 4096 := by omega
    rw [s2MapStrides, dif_neg (by rw [BitVec.lt_def]; omega)]
    exact .inr ⟨rfl, m, h⟩
  | succ k ih =>
    intro y s m hk hy h
    by_cases hlt : y < size.toNat / 4096
    swap
    · obtain rfl : y = size.toNat / 4096 := by omega
      rw [s2MapStrides, dif_neg (by rw [BitVec.lt_def]; omega)]
      exact .inr ⟨rfl, m, h⟩
    have hat := hb.ipaAt hy
    have hless : pageAt ipa y < pageAt ipa (size.toNat / 4096) := by
      rw [BitVec.lt_def]
      omega
    have hrem := BitVec.toNat_sub_of_le (BitVec.le_of_lt hless)
    have hpages := strideLength_pages mmio (pageAt pa y) (show (pageAt ipa (size.toNat / 4096)).toNat % 4096 = 0 by omega)
      (show (pageAt ipa y).toNat % 4096 = 0 by omega) hless
    obtain ⟨hpos, hle⟩ := s2StrideLength_bounds mmio (pageAt pa y) hless
    rw [hrem] at hle
    rw [s2MapStrides, dif_pos hless]
    have hstep := h.stride args hlt hless
    generalize s2StrideLength mmio (pageAt ipa (size.toNat / 4096)) (pageAt ipa y) (pageAt pa y) = len at *
    obtain ⟨c, hc⟩ : ∃ c, len.toNat = 4096 * c := ⟨len.toNat / 4096, by omega⟩
    have hcdiv : len.toNat / 4096 = c := by omega
    rw [hcdiv] at hstep
    rw [add_eq_pageAt hc, add_eq_pageAt hc, pageAt_pageAt, pageAt_pageAt]
    generalize s2MapStride mmio flags (pageAt ipa (size.toNat / 4096)) (pageAt ipa y) (pageAt pa y) s = r at hstep ⊢
    obtain ⟨ret, t⟩ := r
    rcases hstep with ⟨hret, hoom⟩ | ⟨hret, m', hfill⟩
    · obtain rfl : ret = .error .enomem := hret
      exact .inl ⟨rfl, hoom⟩
    · obtain rfl : ret = .ok () := hret
      exact ih (y + c) t m' (by omega) (by omega) hfill

theorem Filling.of_empty (he : Empty s) (hv : s2GeometryValid s.ctx.geometry = true) :
    Filling mmio s.ctx.geometry ipa pa 0 s .empty where
  refines := .of_empty he hv
  geometry := rfl
  view n := by
    rw [if_neg (by omega)]
    rfl
  ahead a _ _ := by
    have hst := he.shape.start
    have hlen := path_length s.start 3 a
    rw [tableAt]
    cases hp : path s.start 3 a with
    | nil =>
      rw [hp, List.length_nil] at hlen
      omega
    | cons i p => exact he.walks i p

private theorem size_ne_zero (args : RamArgs g mmio flags ipa pa size) : (size == 0) = false := by
  rw [beq_eq_false_iff_ne]
  rintro rfl
  have hpos := args.bounds.pos
  exact absurd hpos (by decide)

private theorem pages4kb_result (args : RamArgs s.ctx.geometry mmio flags ipa pa size) (he : Empty s) :
    StepTo mmio s.ctx.geometry ipa pa (size.toNat / 4096) (relmStage2MapGuestRam4kb mmio s ipa pa size flags) := by
  have hcount : (size / s2PageSize4kb).toNat = size.toNat / 4096 := by
    rw [BitVec.toNat_udiv, show s2PageSize4kb.toNat = 4096 by decide]
  have hspec := mapPages_spec args (y := 0) (size.toNat / 4096) 0 (.of_empty he args.valid) (by omega)
  rw [pageAt_zero, pageAt_zero] at hspec
  rw [relmStage2MapGuestRam4kb, size_ne_zero args, args.sizeAligned, hcount]
  simpa using hspec

private theorem huge_result (args : RamArgs s.ctx.geometry mmio flags ipa pa size) (he : Empty s) :
    StepTo mmio s.ctx.geometry ipa pa (size.toNat / 4096) (relmStage2MapGuestRamHuge mmio s ipa pa size flags) := by
  have hspec := mapStrides_spec args (size.toNat / 4096) 0 s .empty (by omega) (by omega) (.of_empty he args.valid)
  rw [pageAt_zero, pageAt_zero, ← add_eq_pageAt args.bounds.pages] at hspec
  rw [relmStage2MapGuestRamHuge, size_ne_zero args, args.sizeAligned]
  exact hspec

/-- What both mappers make of an address. -/
def ramTranslation (mmio : List Vm.MmioRegion) (ipa pa size x : U64) : Except Errno U64 :=
  if ipa.toNat ≤ x.toNat ∧ x.toNat < ipa.toNat + size.toNat ∧ pageFree mmio (x.toNat / 4096) = true then .ok (pa + (x - ipa))
  else .error .enoent

/-- The translation after the whole range. -/
private theorem Filling.translation (args : RamArgs g mmio flags ipa pa size)
    (h : Filling mmio g ipa pa (size.toNat / 4096) s m) {x : U64} (hx : x.toNat < 2 ^ g.ipaBits) :
    relmStage2GetMapping s x = ramTranslation mmio ipa pa size x := by
  have hb := args.bounds
  have hmod := hb.ipaMod
  have hsize := hb.pages
  have hfit := hb.ipaFits
  rw [h.refines.getMapping_eq x, h.refines.walked_eq (by rw [h.geometry]; exact hx), S2Map.lookup_eq_view, h.view, ramTranslation]
  by_cases hin : ipa.toNat ≤ x.toNat ∧ x.toNat < ipa.toNat + size.toNat ∧ pageFree mmio (x.toNat / 4096) = true
  · rw [if_pos hin, if_pos ⟨by omega, by omega, hin.2.2⟩]
    have hle : ipa ≤ x := BitVec.le_def.mpr hin.1
    have hsub := BitVec.toNat_sub_of_le hle
    have hoff : (BitVec.ofNat 64 (x.toNat / 4096 - ipa.toNat / 4096) * s2PageSize4kb + BitVec.ofNat 64 (x.toNat % 4096)) = x - ipa := by
      rw [show s2PageSize4kb = BitVec.ofNat 64 4096 by decide, ← BitVec.ofNat_mul, ← BitVec.ofNat_add, ← BitVec.toNat_inj,
        BitVec.toNat_ofNat, hsub, Nat.mod_eq_of_lt (by have := x.isLt; omega)]
      omega
    dsimp only
    rw [pageAt, BitVec.add_assoc, hoff]
  · rw [if_neg hin, if_neg fun hc => hin ⟨by omega, by omega, hc.2.2⟩]

end Steps

/-- Two empty contexts of one valid geometry, one mapped with pages only and one preferring blocks, translate every
address below the geometry alike, as long as no table allocation fails. -/
theorem stage2_guest_ram_agree {mmio : List Vm.MmioRegion} {flags ipa pa size : U64} {s t : S2State} (hs : Empty s)
    (ht : Empty t) (hgeo : t.ctx.geometry = s.ctx.geometry) (args : RamArgs s.ctx.geometry mmio flags ipa pa size)
    (hoom : (relmStage2MapGuestRam4kb mmio s ipa pa size flags).2.host.oom = false)
    (hoom' : (relmStage2MapGuestRamHuge mmio t ipa pa size flags).2.host.oom = false) :
    (relmStage2MapGuestRam4kb mmio s ipa pa size flags).1 = .ok () ∧
    (relmStage2MapGuestRamHuge mmio t ipa pa size flags).1 = .ok () ∧
    ∀ x : U64, x.toNat < 2 ^ s.ctx.geometry.ipaBits →
      relmStage2GetMapping (relmStage2MapGuestRam4kb mmio s ipa pa size flags).2 x = ramTranslation mmio ipa pa size x ∧
      relmStage2GetMapping (relmStage2MapGuestRamHuge mmio t ipa pa size flags).2 x = ramTranslation mmio ipa pa size x := by
  have args' : RamArgs t.ctx.geometry mmio flags ipa pa size := hgeo ▸ args
  rcases pages4kb_result args hs with ⟨-, ho⟩ | ⟨hret, m, hfill⟩
  · rw [ho] at hoom
    cases hoom
  rcases huge_result args' ht with ⟨-, ho⟩ | ⟨hret', m', hfill'⟩
  · rw [ho] at hoom'
    cases hoom'
  refine ⟨hret, hret', fun x hx => ⟨hfill.translation args hx, hfill'.translation args' ?_⟩⟩
  rw [hgeo]
  exact hx

section Existing

variable {mmio : List Vm.MmioRegion} {flags ipa pa : U64} {s : S2State} {g : U64}

private theorem tableAt_above {level k : Nat} (hst : s.start ≤ level) (h : s.tableAt (level + k) ipa = some g) :
    ∃ f, s.tableAt level ipa = some f := by
  induction k generalizing g with
  | zero => exact ⟨g, h⟩
  | succ k ih =>
    cases hk : s.tableAt (level + k) ipa with
    | none =>
      rw [← Nat.add_assoc, tableAt_succ_none (by omega) hk] at h
      cases h
    | some f => exact ih hk

/-- Where the level 3 table exists, the descent finds it and changes nothing. -/
private theorem descend_existing (h3 : s.tableAt 3 ipa = some g) (left : Nat) (table : U64) (hle : s.start + left ≤ 3)
    (hw : s.tableAt (3 - left) ipa = some table) : s2Descend ipa 3 left table s = (some g, s) := by
  induction left generalizing table with
  | zero =>
    rw [s2Descend, Option.some.inj (hw.symm.trans h3)]
  | succ left ih =>
    have hlevel : 3 - (left + 1) + 1 = 3 - left := by omega
    obtain ⟨f, hf⟩ := tableAt_above (k := left) (show s.start ≤ 3 - left by omega)
      (by rw [show 3 - left + left = 3 by omega]; exact h3)
    have hslot : tableOf (s.host.mem table (s2Index ipa (3 - (left + 1)))) = some f := by
      rw [← tableAt_succ (by omega) hw, hlevel, hf]
    have hget : s2GetOrCreate s table (s2Index ipa (3 - (left + 1))) = (some f, s) := by
      rw [tableOf] at hslot
      split at hslot
      · rename_i ht
        rw [isTable, descType] at ht
        rw [s2GetOrCreate, if_pos ht, Option.some.inj hslot]
      · cases hslot
    rw [s2Descend, hget]
    exact ih f (by omega) hf

/-- A page whose table exists allocates nothing. -/
private theorem mapPage_existing (pa flags : U64) (sh : Shape s) (h3 : s.tableAt 3 ipa = some g) :
    (relmStage2MapPage s ipa pa flags).2.host.oom = s.host.oom ∧ Shape (relmStage2MapPage s ipa pa flags).2 ∧
      ∀ a, (relmStage2MapPage s ipa pa flags).2.tableAt 3 a = s.tableAt 3 a := by
  have hst := sh.start
  unfold relmStage2MapPage s2Map
  split
  · exact ⟨rfl, sh, fun _ => rfl⟩
  split
  · exact ⟨rfl, sh, fun _ => rfl⟩
  split
  · exact ⟨rfl, sh, fun _ => rfl⟩
  rw [mapOne_eq, descend_existing h3 (3 - s.start) s.ctx.root (by omega)
    (by rw [show 3 - (3 - s.start) = s.start by omega]; exact tableAt_start s ipa)]
  have he := isTable_page pa flags
  have hslot := (store_page sh h3 (isOdd_of_isTable _ he) (isBlock_of_isTable _ he) ipa).1
  exact ⟨rfl, ((hslot.extends sh).withStats _).shape, fun a => hslot.walk sh (path_length s.start 3 a).le⟩

/-- Mapping pages whose table exists allocates nothing. -/
private theorem mapPages_existing (left i : Nat) (s : S2State) (sh : Shape s)
    (h3 : ∀ j, i ≤ j → j < i + left → s.tableAt 3 (pageAt ipa j) = some g) :
    (s2MapPages mmio flags ipa pa left i s).2.host.oom = s.host.oom := by
  induction left generalizing i s with
  | zero => rfl
  | succ left ih =>
    rw [s2MapPages]
    split
    · exact ih (i + 1) s sh fun j h1 h2 => h3 j (by omega) (by omega)
    · obtain ⟨hoom, hsh, htab⟩ := mapPage_existing (pageAt pa i) flags sh (h3 i le_rfl (by omega))
      rw [← pageAt, ← pageAt]
      generalize relmStage2MapPage s (pageAt ipa i) (pageAt pa i) flags = r at hoom hsh htab ⊢
      obtain ⟨ret, u⟩ := r
      cases ret with
      | error e => exact hoom
      | ok _ => exact (ih (i + 1) u hsh fun j h1 h2 => (htab _).trans (h3 j (by omega) (by omega))).trans hoom

/-- The page loop in two parts. -/
private theorem mapPages_split (k left i : Nat) (s : S2State) (hok : (s2MapPages mmio flags ipa pa k i s).1 = .ok ()) :
    s2MapPages mmio flags ipa pa (k + left) i s =
      s2MapPages mmio flags ipa pa left (i + k) (s2MapPages mmio flags ipa pa k i s).2 := by
  induction k generalizing i s with
  | zero =>
    rw [Nat.zero_add]
    rfl
  | succ k ih =>
    rw [show k + 1 + left = (k + left) + 1 by omega, show i + (k + 1) = i + 1 + k by omega]
    rw [s2MapPages] at hok ⊢
    rw [s2MapPages]
    split at hok
    · rename_i hover
      rw [if_pos hover, if_pos hover]
      exact ih (i + 1) s hok
    · rename_i hover
      rw [if_neg hover, if_neg hover]
      generalize relmStage2MapPage s _ _ flags = r at hok ⊢
      obtain ⟨ret, u⟩ := r
      cases ret with
      | error e => cases hok
      | ok _ => exact ih (i + 1) u hok

end Existing

section Sample

/-- A context with a root and three more frames to come. -/
private def ramState : S2State where
  host := { Host.idle [some 0x2000#64, some 0x3000#64, some 0x4000#64] [] with
    live := [0x1000#64], managed := fun f => decide (f.toNat < 2 ^ 48), slab := [0], slabNext := 1 }
  ctx := ⟨0x1000#64, ⟨39, 40, 1, 8⟩, 0x80013559#64, 1#16, {}⟩

private theorem ramState_empty : Empty ramState :=
  empty_of_clear (by decide) (fun _ => rfl) (by decide) (fun _ hf => of_decide_eq_true hf) rfl

private def ramWindow : List Vm.MmioRegion := [⟨0x1FF000#64, 0x1000#64, []⟩]

private theorem ramArgs_window :
    RamArgs ramState.ctx.geometry ramWindow s2AccessMask 0x1FE000#64 0x401FE000#64 0x202000#64 :=
  ⟨by decide, by decide, by decide, by decide, by decide, by decide, by decide, by decide, by decide⟩

private theorem strides_single {mmio : List Vm.MmioRegion} {flags last address physical : U64} {s : S2State}
    (hlt : address < last) (hret : (s2MapStride mmio flags last address physical s).1 = .ok ())
    (hend : ¬ address + s2StrideLength mmio last address physical < last) :
    s2MapStrides mmio flags last address physical s = (.ok (), (s2MapStride mmio flags last address physical s).2) := by
  rw [s2MapStrides, dif_pos hlt]
  generalize s2MapStride mmio flags last address physical s = r at hret ⊢
  obtain ⟨ret, t⟩ := r
  obtain rfl : ret = .ok () := hret
  simp only
  rw [s2MapStrides, dif_neg hend]

/-- The stretch below the block, then the block. -/
private theorem strides_two {mmio : List Vm.MmioRegion} {flags last address physical : U64} {s : S2State}
    (hlt : address < last) (hret : (s2MapStride mmio flags last address physical s).1 = .ok ()) :
    s2MapStrides mmio flags last address physical s = s2MapStrides mmio flags last
      (address + s2StrideLength mmio last address physical) (physical + s2StrideLength mmio last address physical)
      (s2MapStride mmio flags last address physical s).2 := by
  rw [s2MapStrides, dif_pos hlt]
  generalize s2MapStride mmio flags last address physical s = r at hret ⊢
  obtain ⟨ret, t⟩ := r
  obtain rfl : ret = .ok () := hret
  rfl

private theorem window_huge : (relmStage2MapGuestRamHuge ramWindow ramState 0x1FE000#64 0x401FE000#64 0x202000#64
    s2AccessMask).2.host.oom = false := by
  have hrun : relmStage2MapGuestRamHuge ramWindow ramState 0x1FE000#64 0x401FE000#64 0x202000#64 s2AccessMask =
      s2MapStrides ramWindow s2AccessMask 0x400000#64 0x1FE000#64 0x401FE000#64 ramState := rfl
  have hlen : s2StrideLength ramWindow 0x400000#64 0x1FE000#64 0x401FE000#64 = 0x2000#64 := by decide
  rw [hrun, strides_two (by decide) rfl, hlen, strides_single (by decide) rfl (by decide)]
  rfl

private theorem window_pages : (relmStage2MapGuestRam4kb ramWindow ramState 0x1FE000#64 0x401FE000#64 0x202000#64
    s2AccessMask).2.host.oom = false := by
  have hcount : (0x202000#64 / s2PageSize4kb).toNat = 3 + 511 := by decide
  have hfirst := mapPages_spec ramArgs_window (y := 0) 3 0 (.of_empty ramState_empty ramArgs_window.valid) (by decide)
  rw [pageAt_zero, pageAt_zero] at hfirst
  rw [relmStage2MapGuestRam4kb, if_neg (by decide), hcount, mapPages_split 3 511 0 ramState rfl]
  rcases hfirst with ⟨hret, -⟩ | ⟨-, m, hfill⟩
  · cases hret
  · -- the pages from the fourth on lie in the block of the third, whose table is there
    have hstart := hfill.refines.shape.start
    have htable : S2State.tableAt (s2MapPages ramWindow s2AccessMask 0x1FE000#64 0x401FE000#64 3 0 ramState).2 3
        (pageAt 0x1FE000#64 2) = some 0x4000#64 := rfl
    have htables : ∀ j, 3 ≤ j → j < 3 + 511 →
        S2State.tableAt (s2MapPages ramWindow s2AccessMask 0x1FE000#64 0x401FE000#64 3 0 ramState).2 3
          (pageAt 0x1FE000#64 j) = some 0x4000#64 := by
      intro j h1 h2
      rw [← htable, tableAt, tableAt, (path_eq_iff hstart _ _).mpr]
      have hgeo : S2State.start (s2MapPages ramWindow s2AccessMask 0x1FE000#64 0x401FE000#64 3 0 ramState).2 = 1 :=
        congrArg Geometry.startLevel hfill.geometry
      have hbase : (0x1FE000#64).toNat = 0x1FE000 := rfl
      rw [blockKey, blockKey, hgeo, walked, walked, pageAt_toNat (by omega), pageAt_toNat (by omega),
        show walkBits 1 = 39 from rfl, hbase]
      omega
    rw [mapPages_existing 511 3 _ hfill.refines.shape htables]
    rfl

/-- A page, a page of a window, and a whole block that the one mapper stores as one descriptor and the other as 512. -/
theorem stage2_guest_ram_agree_block : Empty ramState ∧
    RamArgs ramState.ctx.geometry ramWindow s2AccessMask 0x1FE000#64 0x401FE000#64 0x202000#64 ∧
    (relmStage2MapGuestRam4kb ramWindow ramState 0x1FE000#64 0x401FE000#64 0x202000#64 s2AccessMask).1 = .ok () ∧
    (relmStage2MapGuestRamHuge ramWindow ramState 0x1FE000#64 0x401FE000#64 0x202000#64 s2AccessMask).1 = .ok () ∧
    relmStage2GetMapping (relmStage2MapGuestRam4kb ramWindow ramState 0x1FE000#64 0x401FE000#64 0x202000#64 s2AccessMask).2
      0x312008#64 = .ok 0x40312008#64 ∧
    relmStage2GetMapping (relmStage2MapGuestRamHuge ramWindow ramState 0x1FE000#64 0x401FE000#64 0x202000#64 s2AccessMask).2
      0x312008#64 = .ok 0x40312008#64 := by
  have hagree := stage2_guest_ram_agree ramState_empty ramState_empty rfl ramArgs_window window_pages window_huge
  have hread := hagree.2.2 0x312008#64 (by decide)
  have htranslation : ramTranslation ramWindow 0x1FE000#64 0x401FE000#64 0x202000#64 0x312008#64 = .ok 0x40312008#64 := by
    decide
  exact ⟨ramState_empty, ramArgs_window, hagree.1, hagree.2.1, hread.1.trans htranslation, hread.2.trans htranslation⟩

end Sample

end Relm.Arm64
