import Relm.Host.Pages
import Relm.Vm.Memory

/-! Stage-2 translation tables for arm64: geometry, descriptors, and the functions that map, unmap and look up. -/
namespace Relm.Arm64
open Relm.Lib.Word

/-- `struct relm_stage2_geometry`. -/
structure Geometry where
  ipaBits : Nat
  paBits : Nat
  startLevel : Nat
  vmidBits : Nat
  deriving DecidableEq

def s2MinIpaBits : Nat := 32
def s2MaxIpaBits : Nat := 48
def s2DescValid : U64 := 1#64 <<< 0
def s2DescTypeMask : U64 := 0x3#64
def s2DescInvalid : U64 := 0x0#64
def s2DescBlock : U64 := 0x1#64
def s2DescTable : U64 := 0x3#64
def s2DescPage : U64 := 0x3#64
def s2MemattrMask : U64 := 0xf#64 <<< 2
def s2AccessRead : U64 := 1#64 <<< 6
def s2AccessWrite : U64 := 1#64 <<< 7
def s2AccessMask : U64 := s2AccessRead ||| s2AccessWrite
def s2ShMask : U64 := 0x3#64 <<< 8
def s2Af : U64 := 1#64 <<< 10
def s2Xn : U64 := 1#64 <<< 54
def s2LeafFlagsMask : U64 := s2MemattrMask ||| s2AccessMask ||| s2ShMask ||| s2Xn
def s2TableAddrMask : U64 := 0x0000fffffffff000#64
def s2PageAddrMask : U64 := s2TableAddrMask
def s2PageSize4kb : U64 := 1#64 <<< 12
def s2PageSize2mb : U64 := 1#64 <<< 21
/-- `RES1`, inner shareable, write-back walks, 4 KiB granule. -/
def s2VtcrWalkFlags : U64 := 1#64 <<< 31 ||| 0x3#64 <<< 12 ||| 1#64 <<< 10 ||| 1#64 <<< 8 ||| 0x0#64 <<< 14

def s2PaEncoding (bits : Nat) : Option Nat :=
  match bits with
  | 32 => some 0
  | 36 => some 1
  | 40 => some 2
  | 42 => some 3
  | 44 => some 4
  | 48 => some 5
  | _ => none

def s2GeometryValid (g : Geometry) : Bool :=
  decide (s2MinIpaBits ≤ g.ipaBits) && decide (g.ipaBits ≤ s2MaxIpaBits) && (s2PaEncoding g.paBits).isSome &&
    g.startLevel == (if g.ipaBits ≤ 39 then 1 else 0) && (g.vmidBits == 8 || g.vmidBits == 16)

def s2RangeFits (address size : U64) (bits : Nat) : Bool :=
  let limit := 1#64 <<< bits
  size != 0 && decide (address < limit) && decide (size ≤ limit - address)

def s2PageAligned (value : U64) : Bool := value &&& (s2PageSize4kb - 1) == 0

/-- The lowest address bit that a level indexes. -/
def s2Shift (level : Nat) : Nat := 12 + 9 * (3 - level)

def s2LevelSize (level : Nat) : U64 := 1#64 <<< s2Shift level

def s2Index (ipa : U64) (level : Nat) : Fin 512 :=
  ⟨((ipa >>> s2Shift level) &&& 0x1ff#64).toNat, by
    rw [and_low_toNat _ _ 9 (by decide)]
    exact Nat.mod_lt _ (by decide)⟩

def relmStage2EncodeVtcr (g : Geometry) : Except Errno U64 :=
  if !s2GeometryValid g then .error .einval
  else
    let value := s2VtcrWalkFlags ||| BitVec.ofNat 64 (64 - g.ipaBits)
    let value := value ||| (if g.startLevel != 0 then 0x1#64 <<< 6 else 0x2#64 <<< 6)
    let value := value ||| (BitVec.ofNat 64 ((s2PaEncoding g.paBits).getD 0) <<< 16)
    .ok (if g.vmidBits == 16 then value ||| 0x1#64 <<< 19 else value)

/-- The counters; `pages_1gb` is never written. -/
structure S2Stats where
  pages4kb : U64 := 0
  pages2mb : U64 := 0
  totalMapped : U64 := 0

/-- `struct relm_stage2`, with the root table named by its physical address. -/
structure Stage2 where
  root : U64
  geometry : Geometry
  vtcrEl2 : U64
  vmid : BitVec 16
  stats : S2Stats

structure S2State where
  host : Host
  ctx : Stage2

/-- `limits` are those of the registered runtime, `none` before it is ready. -/
def relmStage2ContextCreate (limits : Option Geometry) (h : Host) (geometry : Geometry) (vmid : BitVec 16) :
    Except Errno Stage2 × Host :=
  match relmStage2EncodeVtcr geometry with
  | .error e => (.error e, h)
  | .ok vtcr =>
    if geometry.vmidBits == 8 && decide (255 < vmid.toNat) then (.error .erange, h)
    else
      match limits with
      | none => (.error .eopnotsupp, h)
      | some limits =>
        if decide (limits.ipaBits < geometry.ipaBits) || decide (limits.paBits < geometry.paBits) ||
            decide (limits.vmidBits < geometry.vmidBits) then (.error .eopnotsupp, h)
        else
          match h.kzalloc with
          | (none, h) => (.error .enomem, h)
          | (some obj, h) =>
            match h.getFreePage with
            | (none, h) => (.error .enomem, h.kfree obj)
            | (some root, h) => (.ok ⟨root, geometry, vtcr, vmid, {}⟩, h)

namespace S2State

/-- Store a descriptor. -/
def setEntry (s : S2State) (table : U64) (idx : Fin 512) (e : U64) : S2State :=
  { s with host := s.host.writeWord table idx e }

/-- Count a new leaf. -/
def count (s : S2State) (leafLevel : Nat) : S2State :=
  let stats := s.ctx.stats
  let stats := if leafLevel == 3 then { stats with pages4kb := stats.pages4kb + 1 }
    else { stats with pages2mb := stats.pages2mb + 1 }
  { s with ctx.stats := { stats with totalMapped := stats.totalMapped + s2LevelSize leafLevel } }

/-- Count a leaf less. -/
def uncount (s : S2State) (level : Nat) (size : U64) : S2State :=
  let stats := s.ctx.stats
  let stats := if level == 3 then { stats with pages4kb := stats.pages4kb - 1 }
    else { stats with pages2mb := stats.pages2mb - 1 }
  { s with ctx.stats := { stats with totalMapped := stats.totalMapped - size } }

end S2State

/-- The table a slot leads to, or a new one: a slot that holds anything but a table descriptor is overwritten. -/
def s2GetOrCreate (s : S2State) (table : U64) (idx : Fin 512) : Option U64 × S2State :=
  let entry := s.host.mem table idx
  if entry &&& s2DescTypeMask == s2DescTable then (some (entry &&& s2TableAddrMask), s)
  else
    match s.host.getFreePage with
    | (none, h) => (none, { s with host := h })
    | (some child, h) => (some child, { s with host := h }.setEntry table idx (child ||| s2DescTable))

/-- The loop of `s2_map_one` over the `left` levels above the leaf. -/
def s2Descend (ipa : U64) (leafLevel : Nat) : (left : Nat) → (table : U64) → S2State → Option U64 × S2State
  | 0, table, s => (some table, s)
  | left + 1, table, s =>
    match s2GetOrCreate s table (s2Index ipa (leafLevel - (left + 1))) with
    | (none, s) => (none, s)
    | (some table, s) => s2Descend ipa leafLevel left table s

/-- The leaf descriptor that `s2_map_one` stores. -/
def s2LeafEntry (pa flags : U64) (leafLevel : Nat) : U64 :=
  (pa &&& s2PageAddrMask) ||| flags ||| s2Af ||| (if leafLevel == 3 then s2DescPage else s2DescBlock)

def s2MapOne (s : S2State) (ipa pa flags : U64) (leafLevel : Nat) : Except Errno Unit × S2State :=
  match s2Descend ipa leafLevel (leafLevel - s.ctx.geometry.startLevel) s.ctx.root s with
  | (none, s) => (.error .enomem, s)
  | (some table, s) =>
    let idx := s2Index ipa leafLevel
    let s := if s.host.mem table idx &&& s2DescValid != 0 then s else s.count leafLevel
    (.ok (), s.setEntry table idx (s2LeafEntry pa flags leafLevel))

def s2Map (s : S2State) (ipa pa flags : U64) (leafLevel : Nat) : Except Errno Unit × S2State :=
  if !s2PageAligned ipa || !s2PageAligned pa then (.error .einval, s)
  else if flags &&& s2AccessRead == 0 then (.error .einval, s)
  else if !s2RangeFits ipa (s2LevelSize leafLevel) s.ctx.geometry.ipaBits ||
      !s2RangeFits pa (s2LevelSize leafLevel) s.ctx.geometry.paBits then (.error .erange, s)
  else s2MapOne s ipa pa flags leafLevel

def relmStage2MapPage (s : S2State) (ipa pa flags : U64) : Except Errno Unit × S2State := s2Map s ipa pa flags 3

def relmStage2MapHugePage (s : S2State) (ipa pa flags : U64) : Except Errno Unit × S2State :=
  if (ipa ||| pa) &&& (s2PageSize2mb - 1) != 0 then (.error .einval, s)
  else s2Map s ipa pa flags 2

/-- What `s2_walk` fills in. -/
structure S2Leaf where
  pa : U64
  base : U64
  size : U64

/-- The loop of `s2_walk` over the `left` levels down to level 3. -/
def s2WalkFrom (s : S2State) (ipa : U64) : (left : Nat) → (table : U64) → Except Errno S2Leaf
  | 0, _ => .error .enoent
  | left + 1, table =>
    let level := 4 - (left + 1)
    let entry := s.host.mem table (s2Index ipa level)
    let type := entry &&& s2DescTypeMask
    if entry == 0 then .error .enoent
    else if decide (level < 3) && type == s2DescTable then s2WalkFrom s ipa left (entry &&& s2TableAddrMask)
    else if level == 0 || (level == 3 && type != s2DescPage) || (decide (level < 3) && type != s2DescBlock) then .error .einval
    else
      let size := s2LevelSize level
      .ok { pa := entry &&& s2PageAddrMask &&& ~~~(size - 1), base := ipa &&& ~~~(size - 1), size }

def s2Walk (s : S2State) (ipa : U64) : Except Errno S2Leaf := s2WalkFrom s ipa (4 - s.ctx.geometry.startLevel) s.ctx.root

def relmStage2GetMapping (s : S2State) (ipa : U64) : Except Errno U64 :=
  match s2Walk s ipa with
  | .error e => .error e
  | .ok leaf => .ok (leaf.pa + (ipa - leaf.base))

/-- The loop of `relm_stage2_unmap_page` down to the table of a leaf of the given size. -/
def s2TableOfSize (s : S2State) (ipa size : U64) : (left : Nat) → (table : U64) → Nat × U64
  | 0, table => (3, table)
  | left + 1, table =>
    let level := 3 - (left + 1)
    if s2LevelSize level != size then s2TableOfSize s ipa size left (s.host.mem table (s2Index ipa level) &&& s2TableAddrMask)
    else (level, table)

def relmStage2UnmapPage (s : S2State) (ipa : U64) : Except Errno Unit × S2State :=
  match s2Walk s ipa with
  | .error .enoent => (.ok (), s)
  | .error e => (.error e, s)
  | .ok leaf =>
    if leaf.base != ipa then (.error .einval, s)
    else
      let (level, table) := s2TableOfSize s ipa leaf.size (3 - s.ctx.geometry.startLevel) s.ctx.root
      (.ok (), (s.setEntry table (s2Index ipa level) s2DescInvalid).uncount level leaf.size)

/-- The loop of `relm_stage2_map_range`, with the pages left and the index of the next. -/
def s2MapFrom (flags ipa pa : U64) : (left i : Nat) → S2State → Except Errno Unit × S2State
  | 0, _, s => (.ok (), s)
  | left + 1, i, s =>
    let offset := BitVec.ofNat 64 i * s2PageSize4kb
    match relmStage2MapPage s (ipa + offset) (pa + offset) flags with
    | (.error e, s) => (.error e, s)
    | (.ok _, s) => s2MapFrom flags ipa pa left (i + 1) s

def relmStage2MapRange (s : S2State) (ipa pa size flags : U64) : Except Errno Unit × S2State :=
  if size == 0 || !s2PageAligned size then (.error .einval, s)
  else s2MapFrom flags ipa pa (size / s2PageSize4kb).toNat 0 s

/-- The loop of `relm_stage2_unmap_range`, with the pages left and the index of the next. -/
def s2UnmapFrom (ipa : U64) : (left i : Nat) → S2State → Except Errno Unit × S2State
  | 0, _, s => (.ok (), s)
  | left + 1, i, s =>
    match relmStage2UnmapPage s (ipa + BitVec.ofNat 64 i * s2PageSize4kb) with
    | (.error e, s) => (.error e, s)
    | (.ok _, s) => s2UnmapFrom ipa left (i + 1) s

/-- An end of the range that wraps lies below its start, and then the loop does not run. -/
def relmStage2UnmapRange (s : S2State) (ipa size : U64) : Except Errno Unit × S2State :=
  if size == 0 || !s2PageAligned ipa || !s2PageAligned size then (.error .einval, s)
  else s2UnmapFrom ipa (if ipa < ipa + size then (size / s2PageSize4kb).toNat else 0) 0 s

/-- Does `[ipa, ipa + size)` touch a reserved MMIO window? The additions wrap. -/
def s2RangeOverlapsMmio (mmio : List Vm.MmioRegion) (ipa size : U64) : Bool :=
  let last := ipa + size
  mmio.any fun region => decide (ipa < region.gpaStart + region.size) && decide (region.gpaStart < last)

/-- The loop of `relm_stage2_map_guest_ram_4kb`, with the pages left and the index of the next. -/
def s2MapPages (mmio : List Vm.MmioRegion) (flags ipa pa : U64) : (left i : Nat) → S2State → Except Errno Unit × S2State
  | 0, _, s => (.ok (), s)
  | left + 1, i, s =>
    let offset := BitVec.ofNat 64 i * s2PageSize4kb
    if s2RangeOverlapsMmio mmio (ipa + offset) s2PageSize4kb then s2MapPages mmio flags ipa pa left (i + 1) s
    else
      match relmStage2MapPage s (ipa + offset) (pa + offset) flags with
      | (.error e, s) => (.error e, s)
      | (.ok _, s) => s2MapPages mmio flags ipa pa left (i + 1) s

def relmStage2MapGuestRam4kb (mmio : List Vm.MmioRegion) (s : S2State) (ipa pa size flags : U64) :
    Except Errno Unit × S2State :=
  if size == 0 || !s2PageAligned size then (.error .einval, s)
  else s2MapPages mmio flags ipa pa (size / s2PageSize4kb).toNat 0 s

/-- The test of the huge-preferred loop. -/
def s2StrideIsHuge (mmio : List Vm.MmioRegion) (last address physical : U64) : Bool :=
  let remaining := last - address
  decide (s2PageSize2mb ≤ remaining) && (address ||| physical) &&& (s2PageSize2mb - 1) == 0 &&
    !s2RangeOverlapsMmio mmio address s2PageSize2mb

/-- How far one iteration advances: a block, or the chunk up to the next 2 MiB boundary or the end. -/
def s2StrideLength (mmio : List Vm.MmioRegion) (last address physical : U64) : U64 :=
  if s2StrideIsHuge mmio last address physical then s2PageSize2mb
  else
    let remaining := last - address
    let toBoundary := s2PageSize2mb - (address &&& (s2PageSize2mb - 1))
    if remaining < toBoundary then remaining else toBoundary

/-- The mapping call of one iteration. -/
def s2MapStride (mmio : List Vm.MmioRegion) (flags last address physical : U64) (s : S2State) : Except Errno Unit × S2State :=
  if s2StrideIsHuge mmio last address physical then relmStage2MapHugePage s address physical flags
  else relmStage2MapGuestRam4kb mmio s address physical (s2StrideLength mmio last address physical) flags

private theorem and_mask_lt (address : U64) : (address &&& (s2PageSize2mb - 1)).toNat < 2 ^ 21 := by
  rw [and_low_toNat _ _ 21 (by decide)]
  exact Nat.mod_lt _ (by decide)

/-- Every iteration advances, and not past the end. -/
theorem s2StrideLength_bounds (mmio : List Vm.MmioRegion) {last address : U64} (physical : U64) (hlt : address < last) :
    0 < (s2StrideLength mmio last address physical).toNat ∧
      (s2StrideLength mmio last address physical).toNat ≤ (last - address).toNat := by
  have hpos : 0 < (last - address).toNat := by
    rw [BitVec.toNat_sub_of_le (BitVec.le_of_lt hlt)]
    have := BitVec.lt_def.mp hlt
    omega
  have hsize : s2PageSize2mb.toNat = 2 ^ 21 := by decide
  have hmask := and_mask_lt address
  unfold s2StrideLength
  split
  · rename_i hh
    simp only [s2StrideIsHuge, Bool.and_eq_true, decide_eq_true_eq] at hh
    have hle := BitVec.le_def.mp hh.1.1
    rw [hsize] at hle ⊢
    exact ⟨by decide, hle⟩
  · have hto : (s2PageSize2mb - (address &&& (s2PageSize2mb - 1))).toNat =
        2 ^ 21 - (address &&& (s2PageSize2mb - 1)).toNat := toNat_sub_eq hsize rfl hmask.le
    dsimp only
    split
    · exact ⟨hpos, le_rfl⟩
    · rename_i hnot
      have hle : 2 ^ 21 - (address &&& (s2PageSize2mb - 1)).toNat ≤ (last - address).toNat := by
        rw [BitVec.lt_def, hto] at hnot
        omega
      rw [hto]
      exact ⟨by omega, hle⟩

/-- The loop of `relm_stage2_map_guest_ram_huge`. -/
def s2MapStrides (mmio : List Vm.MmioRegion) (flags last address physical : U64) (s : S2State) : Except Errno Unit × S2State :=
  if _h : address < last then
    match s2MapStride mmio flags last address physical s with
    | (.error e, s) => (.error e, s)
    | (.ok _, s) =>
      s2MapStrides mmio flags last (address + s2StrideLength mmio last address physical)
        (physical + s2StrideLength mmio last address physical) s
  else (.ok (), s)
termination_by (last - address).toNat
decreasing_by
  obtain ⟨hpos, hle⟩ := s2StrideLength_bounds mmio physical _h
  have hlt := BitVec.lt_def.mp _h
  have hsub := BitVec.toNat_sub_of_le (BitVec.le_of_lt _h)
  rw [hsub] at hle ⊢
  rw [BitVec.toNat_sub, BitVec.toNat_add]
  omega

def relmStage2MapGuestRamHuge (mmio : List Vm.MmioRegion) (s : S2State) (ipa pa size flags : U64) :
    Except Errno Unit × S2State :=
  if size == 0 || !s2PageAligned size then (.error .einval, s)
  else s2MapStrides mmio flags (ipa + size) ipa pa s

end Relm.Arm64
