import Relm.Host.Pages

/-! EPT entry formats: access bits, address field, level indices, and how entries decode. -/
namespace Relm.Ept
open Relm.Lib.Word

def eptAccessRead : U64 := 1#64
def eptAccessWrite : U64 := 2#64
def eptAccessExec : U64 := 4#64
def eptRwx : U64 := eptAccessRead ||| eptAccessWrite ||| eptAccessExec
def eptMemtypeUc : U64 := 0#64 <<< 3
def eptMemtypeWb : U64 := 6#64 <<< 3
def eptIgnorePat : U64 := 1#64 <<< 6
/-- The PS bit: a PD entry that carries it is a 2 MiB leaf. -/
def eptPageSize : U64 := 1#64 <<< 7
def eptAddrMask : U64 := 0x000FFFFFFFFFF000#64
def eptPageSize4kb : U64 := 1#64 <<< 12
def eptPageSize2mb : U64 := 1#64 <<< 21

/-- The common shape of the four index macros. -/
def eptIndex (shift : Nat) (gpa : U64) : Fin 512 :=
  ⟨((gpa >>> shift) &&& 0x1FF#64).toNat, by
    rw [and_low_toNat _ _ 9 (by decide)]
    exact Nat.mod_lt _ (by decide)⟩

def eptPml4Index (gpa : U64) : Fin 512 := eptIndex 39 gpa
def eptPdptIndex (gpa : U64) : Fin 512 := eptIndex 30 gpa
def eptPdIndex (gpa : U64) : Fin 512 := eptIndex 21 gpa
def eptPtIndex (gpa : U64) : Fin 512 := eptIndex 12 gpa
def eptPageOffset (gpa : U64) : U64 := gpa &&& 0xFFF#64

def eptIs4kbAligned (addr : U64) : Bool := addr &&& (eptPageSize4kb - 1) == 0
def eptIs2mbAligned (addr : U64) : Bool := addr &&& (eptPageSize2mb - 1) == 0

/-- The presence test every walk uses: read access granted. -/
def present (e : U64) : Bool := e &&& eptAccessRead != 0
/-- The PS test. -/
def isPs (e : U64) : Bool := e &&& eptPageSize != 0
def entryAddr (e : U64) : U64 := e &&& eptAddrMask
/-- The entry `relm_ept_get_or_create_table` stores for a new table. -/
def tableEntry (pa : U64) : U64 := (pa &&& eptAddrMask) ||| eptRwx
/-- A 4 KiB leaf. -/
def leafEntry (hpa flags : U64) : U64 := (hpa &&& eptAddrMask) ||| flags
/-- A 2 MiB leaf, as `relm_ept_map_huge_page` computes it: the address is multiplied by the mask. -/
def hugeEntry (hpa flags : U64) : U64 := (hpa * eptAddrMask) ||| flags ||| eptPageSize

/-- The table an entry above the last level names: present and not a 2 MiB leaf. -/
def tableOf (e : U64) : Option U64 := if present e && !isPs e then some (entryAddr e) else none

/-- The number of the 4 KiB page an address indexes; bits from 48 up play no part. -/
def pageOf (gpa : U64) : Nat := gpa.toNat / 4096 % 2 ^ 36
/-- The number of the 2 MiB block an address indexes. -/
def blockOf (gpa : U64) : Nat := gpa.toNat / 2 ^ 21 % 2 ^ 27

private theorem eptIndex_val (shift : Nat) (gpa : U64) : (eptIndex shift gpa).val = gpa.toNat / 2 ^ shift % 512 := by
  simp only [eptIndex]
  rw [field_toNat _ _ shift 9 (by decide), show (2 : Nat) ^ 9 = 512 from rfl]

/-- Two addresses use the same slot at every level exactly when they lie in one page. -/
theorem index_eq_iff_page (a b : U64) :
    (eptPml4Index a = eptPml4Index b ∧ eptPdptIndex a = eptPdptIndex b ∧ eptPdIndex a = eptPdIndex b ∧
      eptPtIndex a = eptPtIndex b) ↔ pageOf a = pageOf b := by
  simp only [eptPml4Index, eptPdptIndex, eptPdIndex, eptPtIndex, Fin.ext_iff, eptIndex_val, pageOf]
  omega

theorem index_eq_iff_block (a b : U64) :
    (eptPml4Index a = eptPml4Index b ∧ eptPdptIndex a = eptPdptIndex b ∧ eptPdIndex a = eptPdIndex b) ↔
      blockOf a = blockOf b := by
  simp only [eptPml4Index, eptPdptIndex, eptPdIndex, Fin.ext_iff, eptIndex_val, blockOf]
  omega

theorem isFrame_iff_mask (pa : U64) : isFrame pa ↔ pa &&& eptAddrMask = pa := by
  rw [← BitVec.toNat_inj, and_field_toNat pa eptAddrMask 12 52 (by decide) (by decide), isFrame]
  have := pa.isLt
  omega

theorem isFrame_entryAddr (e : U64) : isFrame (entryAddr e) := by
  rw [isFrame_iff_mask, entryAddr, BitVec.and_assoc, BitVec.and_self]

@[simp] theorem present_zero : present 0#64 = false := by decide
@[simp] theorem isPs_zero : isPs 0#64 = false := by decide
@[simp] theorem tableOf_zero : tableOf 0#64 = none := by decide

@[simp] theorem present_tableEntry (pa : U64) : present (tableEntry pa) = true := by
  have := or_and_ne_zero (pa &&& eptAddrMask) eptRwx eptAccessRead (by decide)
  simpa [present, tableEntry] using this

@[simp] theorem isPs_tableEntry (pa : U64) : isPs (tableEntry pa) = false := by
  have hd : (pa &&& eptAddrMask) &&& eptPageSize = 0#64 := by
    rw [BitVec.and_assoc, show eptAddrMask &&& eptPageSize = 0#64 by decide, BitVec.and_zero]
  simp only [isPs, tableEntry, or_and_of_disjoint _ eptRwx eptPageSize (by decide), hd]
  decide

@[simp] theorem entryAddr_tableEntry (pa : U64) (h : isFrame pa) : entryAddr (tableEntry pa) = pa := by
  rw [entryAddr, tableEntry, or_and_of_disjoint _ _ _ (by decide), BitVec.and_assoc, BitVec.and_self]
  exact (isFrame_iff_mask pa).mp h

theorem rwx_tableEntry (pa : U64) : tableEntry pa &&& eptRwx = eptRwx := by
  have hd : (pa &&& eptAddrMask) &&& eptRwx = 0#64 := by
    rw [BitVec.and_assoc, show eptAddrMask &&& eptRwx = 0#64 by decide, BitVec.and_zero]
  rw [tableEntry, BitVec.and_or_distrib_right, hd, BitVec.zero_or, BitVec.and_self]

theorem tableOf_tableEntry (pa : U64) (h : isFrame pa) : tableOf (tableEntry pa) = some pa := by
  simp [tableOf, h]

/-- A leaf is present exactly as the flags say. -/
theorem present_leafEntry (hpa flags : U64) : present (leafEntry hpa flags) = present flags := by
  have hd : (hpa &&& eptAddrMask) &&& eptAccessRead = 0#64 := by
    rw [BitVec.and_assoc, show eptAddrMask &&& eptAccessRead = 0#64 by decide, BitVec.and_zero]
  simp only [present, leafEntry, BitVec.and_or_distrib_right, hd, BitVec.zero_or]

/-- A leaf decodes to the address it was built from when the flags stay out of the address field. -/
theorem entryAddr_leafEntry (hpa flags : U64) (h : isFrame hpa) (hf : flags &&& eptAddrMask = 0#64) :
    entryAddr (leafEntry hpa flags) = hpa := by
  rw [entryAddr, leafEntry, or_and_of_disjoint _ _ _ hf, BitVec.and_assoc, BitVec.and_self]
  exact (isFrame_iff_mask hpa).mp h

theorem isPs_hugeEntry (hpa flags : U64) : isPs (hugeEntry hpa flags) = true := by
  have := or_and_ne_zero ((hpa * eptAddrMask) ||| flags) eptPageSize eptPageSize (by decide)
  simpa [isPs, hugeEntry] using this

theorem present_hugeEntry (hpa flags : U64) (h : present flags = true) : present (hugeEntry hpa flags) = true := by
  have hf : flags &&& eptAccessRead ≠ 0#64 := by simpa [present] using h
  have := or_and_ne_zero (hpa * eptAddrMask ||| eptPageSize) flags eptAccessRead hf
  simp only [present, hugeEntry, bne_iff_ne, ne_eq]
  rwa [BitVec.or_assoc, BitVec.or_comm flags, ← BitVec.or_assoc]

@[simp] theorem tableOf_hugeEntry (hpa flags : U64) : tableOf (hugeEntry hpa flags) = none := by
  simp [tableOf, isPs_hugeEntry]

theorem is4kbAligned_iff (a : U64) : eptIs4kbAligned a = true ↔ a.toNat % 4096 = 0 := by
  rw [eptIs4kbAligned, beq_iff_eq, ← BitVec.toNat_inj, and_low_toNat _ _ 12 (by decide)]
  simp

theorem is2mbAligned_iff (a : U64) : eptIs2mbAligned a = true ↔ a.toNat % 2 ^ 21 = 0 := by
  rw [eptIs2mbAligned, beq_iff_eq, ← BitVec.toNat_inj, and_low_toNat _ _ 21 (by decide)]
  simp

end Relm.Ept
