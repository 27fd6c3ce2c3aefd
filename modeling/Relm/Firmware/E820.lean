import Relm.Vm.Memory

/-! The physical memory map of an x86 guest, assembled from fixed ranges and the size of guest RAM. -/
namespace Relm.Firmware

def e820TypeRam : U32 := 1#32
def e820TypeReserved : U32 := 2#32

/-- `struct e820_entry`. -/
structure E820Entry where
  addr : U64
  size : U64
  type : U32
  deriving DecidableEq

def relmE820ConvMemEnd : U64 := 0xA0000#64
def relmE820VgaReservedBase : U64 := 0xA0000#64
def relmE820VgaReservedEnd : U64 := 0x100000#64
def relmE820ExtendedBase : U64 := 0x100000#64
def relmE820BiosRomBase : U64 := 0xFFFE0000#64
def relmE820BiosRomSize : U64 := 0x20000#64
def relmE820MaxEntries : Nat := 8

/-- `struct relm_e820_map`, as the entries in use; their number is the field `count`. -/
abbrev E820Map := List E820Entry

def relmE820Add (map : E820Map) (addr size : U64) (type : U32) : Except Errno E820Map :=
  if map.length ≥ relmE820MaxEntries then .error .enospc else .ok (map ++ [⟨addr, size, type⟩])

def relmE820Build (memory : Vm.VmMemory) : Except Errno E820Map :=
  let totalRam := memory.totalGuestRam
  if totalRam < 0x200000#64 then .error .einval
  else do
    let map ← relmE820Add [] 0 relmE820ConvMemEnd e820TypeRam
    let map ← relmE820Add map relmE820VgaReservedBase (relmE820VgaReservedEnd - relmE820VgaReservedBase) e820TypeReserved
    let map ← relmE820Add map relmE820ExtendedBase (totalRam - relmE820ExtendedBase) e820TypeRam
    relmE820Add map relmE820BiosRomBase relmE820BiosRomSize e820TypeReserved

/-- The four entries of every map that is built; the build never runs out of slots. -/
theorem e820Build_eq (memory : Vm.VmMemory) : relmE820Build memory =
    if memory.totalGuestRam < 0x200000#64 then .error .einval
    else .ok [⟨0, 0xA0000#64, e820TypeRam⟩, ⟨0xA0000#64, 0x60000#64, e820TypeReserved⟩,
      ⟨0x100000#64, memory.totalGuestRam - 0x100000#64, e820TypeRam⟩, ⟨0xFFFE0000#64, 0x20000#64, e820TypeReserved⟩] := by
  unfold relmE820Build
  dsimp only
  split
  · rfl
  · rfl

/-- The addresses of an entry, as numbers: it may reach past the last address. -/
def E820Entry.Covers (e : E820Entry) (a : Nat) : Prop := e.addr.toNat ≤ a ∧ a < e.addr.toNat + e.size.toNat

/-- The legacy hole, and the ROM at the top of 4 GiB: what the guest never has as RAM. -/
def LegacyHole (a : Nat) : Prop := 0xA0000 ≤ a ∧ a < 0x100000
def BiosRom (a : Nat) : Prop :=
  relmE820BiosRomBase.toNat ≤ a ∧ a < relmE820BiosRomBase.toNat + relmE820BiosRomSize.toNat

/-- What a guest with RAM from address 0 to `ram` may rely on. -/
structure E820Map.Truthful (map : E820Map) (ram : U64) : Prop where
  sorted : map.Pairwise fun e e' => e.addr.toNat ≤ e'.addr.toNat
  disjoint : map.Pairwise fun e e' => ∀ a, ¬ (e.Covers a ∧ e'.Covers a)
  fits : ∀ e ∈ map, e.addr.toNat + e.size.toNat ≤ 2 ^ 64
  ram_iff : ∀ a, (∃ e ∈ map, e.type = e820TypeRam ∧ e.Covers a) ↔ a < ram.toNat ∧ ¬ LegacyHole a ∧ ¬ BiosRom a

section Built

variable {ram : U64}

/-- The entries built for a size of RAM. -/
private def built (ram : U64) : E820Map :=
  [⟨0, 0xA0000#64, e820TypeRam⟩, ⟨0xA0000#64, 0x60000#64, e820TypeReserved⟩,
    ⟨0x100000#64, ram - 0x100000#64, e820TypeRam⟩, ⟨0xFFFE0000#64, 0x20000#64, e820TypeReserved⟩]

private theorem covers_conventional (a : Nat) : E820Entry.Covers ⟨0, 0xA0000#64, e820TypeRam⟩ a ↔ a < 0xA0000 := by
  simp [E820Entry.Covers]

private theorem covers_hole (a : Nat) :
    E820Entry.Covers ⟨0xA0000#64, 0x60000#64, e820TypeReserved⟩ a ↔ LegacyHole a := by
  simp [E820Entry.Covers, LegacyHole]

private theorem extended_toNat (hram : 0x200000#64 ≤ ram) : (ram - 0x100000#64).toNat = ram.toNat - 0x100000 := by
  have h : (0x200000#64).toNat ≤ ram.toNat := hram
  apply BitVec.toNat_sub_of_le
  exact Nat.le_trans (by decide) h

private theorem covers_extended (hram : 0x200000#64 ≤ ram) (a : Nat) :
    E820Entry.Covers ⟨0x100000#64, ram - 0x100000#64, e820TypeRam⟩ a ↔ 0x100000 ≤ a ∧ a < ram.toNat := by
  have h : 0x200000 ≤ ram.toNat := hram
  have hbase : (0x100000#64).toNat = 0x100000 := rfl
  rw [E820Entry.Covers, extended_toNat hram, hbase]
  omega

private theorem covers_rom (a : Nat) :
    E820Entry.Covers ⟨0xFFFE0000#64, 0x20000#64, e820TypeReserved⟩ a ↔ BiosRom a := Iff.rfl

private theorem biosRom_iff (a : Nat) : BiosRom a ↔ 0xFFFE0000 ≤ a ∧ a < 0x100000000 := Iff.rfl

/-- RAM that ends below the ROM leaves the four ranges apart. -/
private theorem built_truthful (hram : 0x200000#64 ≤ ram) (hrom : ram ≤ relmE820BiosRomBase) :
    (built ram).Truthful ram := by
  have hlow : 0x200000 ≤ ram.toNat := hram
  have hhigh : ram.toNat ≤ 0xFFFE0000 := hrom
  refine ⟨by simp [built], ?_, ?_, ?_⟩
  · simp only [built, List.pairwise_cons, List.mem_cons, List.not_mem_nil, or_false, forall_eq_or_imp, forall_eq,
      covers_conventional, covers_hole, covers_extended hram, covers_rom, biosRom_iff, LegacyHole]
    refine ⟨⟨?_, ?_, ?_⟩, ⟨?_, ?_⟩, ?_, ?_, List.Pairwise.nil⟩
    all_goals first | (intro a h; omega) | simp
  · intro e he
    simp only [built, List.mem_cons, List.not_mem_nil, or_false] at he
    obtain rfl | rfl | rfl | rfl := he
    · decide
    · decide
    · dsimp only
      rw [extended_toNat hram]
      have hbase : (0x100000#64).toNat = 0x100000 := rfl
      omega
    · decide
  · intro a
    have htype : e820TypeReserved ≠ e820TypeRam := by decide
    simp only [built, List.mem_cons, List.not_mem_nil, or_false, or_and_right, exists_or, exists_eq_left, true_and,
      covers_conventional, covers_extended hram, htype, false_and, false_or, biosRom_iff, LegacyHole]
    omega

/-- RAM past the start of the ROM has addresses in two entries. -/
private theorem built_overlap (hram : 0x200000#64 ≤ ram) (hrom : relmE820BiosRomBase < ram) :
    ¬ (built ram).Truthful ram := by
  intro h
  have hlt : 0xFFFE0000 < ram.toNat := hrom
  have hram' := (h.ram_iff 0xFFFE0000).mp
    ⟨_, by simp [built], rfl, (covers_extended hram _).mpr ⟨by decide, hlt⟩⟩
  exact hram'.2.2 ((biosRom_iff _).mpr (by decide))

end Built

/-- The map of a guest with at least 2 MiB is truthful exactly if its RAM ends below the BIOS ROM. -/
theorem e820_truthful_iff (memory : Vm.VmMemory) (hram : 0x200000#64 ≤ memory.totalGuestRam) :
    (∃ map, relmE820Build memory = .ok map ∧ map.Truthful memory.totalGuestRam) ↔
      memory.totalGuestRam ≤ relmE820BiosRomBase := by
  have hbuild : relmE820Build memory = .ok (built memory.totalGuestRam) := by
    rw [e820Build_eq, if_neg (BitVec.not_lt.mpr hram)]
    rfl
  rw [hbuild]
  constructor
  · rintro ⟨map, hmap, htrue⟩
    cases hmap
    rw [← BitVec.not_lt]
    intro hrom
    exact built_overlap hram hrom htrue
  · intro hrom
    exact ⟨_, rfl, built_truthful hram hrom⟩

/-- A VM with `ram` bytes of RAM in one region from address 0 on. -/
private def flatMemory (ram : U64) : Vm.VmMemory where
  memRegions :=
    [{ obj := 0, pagesObj := 1, gpaStart := 0, size := ram, nrPages := ram >>> 12, flags := 7,
       pages := some ((List.range (ram >>> 12).toNat).map fun i => BitVec.ofNat 64 (i * 4096)) }]
  totalGuestRam := ram
  mmioRegions := []

theorem e820_truthful_at_two_mib :
    ∃ map, relmE820Build (flatMemory 0x200000#64) = .ok map ∧ map.Truthful 0x200000#64 :=
  (e820_truthful_iff (flatMemory 0x200000#64) (by decide)).mpr (by decide)

/-- With 4 GiB of RAM the map is built, and calls the first byte of the ROM both RAM and reserved. -/
theorem e820_map_overlaps_rom : ∃ map, relmE820Build (flatMemory 0x100000000#64) = .ok map ∧
    (∃ e ∈ map, e.type = e820TypeRam ∧ e.Covers 0xFFFE0000) ∧
    (∃ e ∈ map, e.type = e820TypeReserved ∧ e.Covers 0xFFFE0000) ∧ ¬ map.Truthful 0x100000000#64 := by
  have hram : 0x200000#64 ≤ 0x100000000#64 := by decide
  refine ⟨built 0x100000000#64, rfl, ?_, ?_, built_overlap hram (by decide)⟩
  · exact ⟨⟨0x100000#64, 0x100000000#64 - 0x100000#64, e820TypeRam⟩, by simp [built], rfl,
      (covers_extended hram _).mpr (by decide)⟩
  · exact ⟨⟨0xFFFE0000#64, 0x20000#64, e820TypeReserved⟩, by simp [built], rfl,
      (covers_rom _).mpr ((biosRom_iff _).mpr (by decide))⟩

end Relm.Firmware
