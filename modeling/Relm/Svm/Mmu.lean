import Relm.Vmx.GuestTables

/-! The page-table walker of the SVM backend, which reads the VMCB where the VMX one reads the VMCS, and when the two
agree. -/
namespace Relm.Svm
open Relm.Vm Relm.Vmx

structure VmcbSeg where
  selector : BitVec 16
  attrib : BitVec 16
  limit : BitVec 32
  base : U64

/-- The part of `struct vmcb_save_area` that the walker reads. -/
structure VmcbSaveArea where
  cs : VmcbSeg
  efer : U64
  cr4 : U64
  cr3 : U64
  cr0 : U64

def ptePresent : U64 := 1#64 <<< 0
def ptePs : U64 := 1#64 <<< 7
def pteAddrMask : U64 := 0x000FFFFFFFFFF000#64

def mmuReadEntry (s : VmState) (entryGpa : U64) (size : Nat) : Walk U64 :=
  match relmVmCopyFromGuest s entryGpa size with
  | .error fault => ExceptT.mk (.error fault)
  | .ok (ret, bytes) => if ret < 0 then throw .efault else pure (Lib.Word.ofBytes bytes)

/-- The loop of `mmu_walk_long`, from a level down. -/
def mmuWalkLevels (s : VmState) (gva : U64) : (level : Nat) → (table : U64) → Walk U64
  | 0, _ => throw .efault
  | below + 1, table => do
    let shift := 12 + 9 * below
    let index := (gva >>> shift) &&& 0x1FF#64
    let entry ← mmuReadEntry s (table + index * 8#64) 8
    if entry &&& ptePresent == 0 then throw .efault
    else if below > 0 && entry &&& ptePs != 0 then
      let pageMask := (1#64 <<< shift) - 1
      if below == 3 then throw .efault
      else return (entry &&& pteAddrMask &&& ~~~pageMask) ||| (gva &&& pageMask)
    else if below == 0 then return (entry &&& pteAddrMask) ||| (gva &&& 0xFFF#64)
    else mmuWalkLevels s gva below (entry &&& pteAddrMask)

def mmuWalkLong (s : VmState) (cr3 gva : U64) : Walk U64 := mmuWalkLevels s gva 4 (cr3 &&& pteAddrMask)

def mmuWalkPae (s : VmState) (pdpt gva : U64) : Walk U64 := do
  let pdpte ← mmuReadEntry s (pdpt + ((gva >>> 30) &&& 0x3#64) * 8#64) 8
  if pdpte &&& ptePresent == 0 then throw .efault
  else
    let pde ← mmuReadEntry s ((pdpte &&& pteAddrMask) + ((gva >>> 21) &&& 0x1FF#64) * 8#64) 8
    if pde &&& ptePresent == 0 then throw .efault
    else if pde &&& ptePs != 0 then return (pde &&& pteAddrMask &&& ~~~0x1FFFFF#64) ||| (gva &&& 0x1FFFFF#64)
    else
      let pte ← mmuReadEntry s ((pde &&& pteAddrMask) + ((gva >>> 12) &&& 0x1FF#64) * 8#64) 8
      if pte &&& ptePresent == 0 then throw .efault
      else return (pte &&& pteAddrMask) ||| (gva &&& 0xFFF#64)

def mmuWalkLegacy (s : VmState) (pd cr4 gva : U64) : Walk U64 := do
  let pde ← mmuReadEntry s (pd + ((gva >>> 22) &&& 0x3FF#64) * 4#64) 4
  if pde &&& ptePresent == 0 then throw .efault
  else if cr4 &&& x86Cr4Pse != 0 && pde &&& ptePs != 0 then
    return (pde &&& 0xFFC00000#64) ||| (gva &&& 0x3FFFFF#64)
  else
    let pte ← mmuReadEntry s ((pde &&& 0xFFFFF000#64) + ((gva >>> 12) &&& 0x3FF#64) * 4#64) 4
    if pte &&& ptePresent == 0 then throw .efault
    else return (pte &&& 0xFFFFF000#64) ||| (gva &&& 0xFFF#64)

/-- `attribL` is `SVM_SEG_ATTRIB_L`, which no header of the repository defines. -/
def relmMmuRipToLinear (attribL : BitVec 16) (save : VmcbSaveArea) (rip : U64) : U64 :=
  if save.efer &&& eferLma != 0 && save.cs.attrib &&& attribL != 0 then rip
  else (save.cs.base + rip) &&& 0xFFFFFFFF#64

def relmMmuGvaToGpa (save : VmcbSaveArea) (s : VmState) (gva : U64) : Walk U64 :=
  if save.cr0 &&& x86Cr0Pg == 0 then pure gva
  else if save.efer &&& eferLma != 0 then
    if save.cr4 &&& x86Cr4La57 != 0 then throw .einval else mmuWalkLong s save.cr3 gva
  else
    let gva := gva &&& 0xFFFFFFFF#64
    if save.cr4 &&& x86Cr4Pae != 0 then mmuWalkPae s (save.cr3 &&& 0xFFFFFFE0#64) gva
    else mmuWalkLegacy s (save.cr3 &&& 0xFFFFF000#64) save.cr4 gva

/-- The page loop of `relm_mmu_copy_from_guest_virt`. -/
def copyVirtLoop (save : VmcbSaveArea) (s : VmState) (gva : U64) (size copied : Nat) (dst : List Byte) :
    Except HostFault (Int × List Byte) :=
  if copied < size then
    let curGva := gva + BitVec.ofNat 64 copied
    let chunk := min (size - copied) (4096 - curGva.toNat % 4096)
    match (relmMmuGvaToGpa save s curGva).run with
    | .error fault => .error fault
    | .ok (.error e) => .ok (-e.code, dst)
    | .ok (.ok gpa) =>
      match relmVmCopyFromGuest s gpa chunk with
      | .error fault => .error fault
      | .ok (ret, bytes) =>
        if ret < 0 then .ok (ret, overwrite dst copied bytes)
        else copyVirtLoop save s gva size (copied + chunk) (overwrite dst copied bytes)
  else .ok (toCInt copied, dst)
  termination_by size - copied
  decreasing_by omega

def relmMmuCopyFromGuestVirt (save : VmcbSaveArea) (s : VmState) (gva : U64) (data : List Byte) :
    Except HostFault (Int × List Byte) :=
  if data.length = 0 then .ok (-Errno.einval.code, data) else copyVirtLoop save s gva data.length 0 data

/-- A VMCS and a VMCB that hold the same registers; CS.L has its own bit in each. -/
structure CommonRegisters (attribL : BitVec 16) (v : Vmcs) (save : VmcbSaveArea) : Prop where
  cr0 : v.vmread guestCr0 = save.cr0
  cr3 : v.vmread guestCr3 = save.cr3
  cr4 : v.vmread guestCr4 = save.cr4
  efer : v.vmread guestIa32Efer = save.efer
  csBase : v.vmread guestCsBase = save.cs.base
  csL : (v.vmread guestCsArBytes &&& csArBytesL != 0) = (save.cs.attrib &&& attribL != 0)

/-- Long mode is active and the code segment is a 64-bit one. -/
def Code64 (v : Vmcs) : Prop := (v.vmread guestIa32Efer &&& eferLma != 0 && v.vmread guestCsArBytes &&& csArBytesL != 0) = true

/-- The two backends give the same answers for a RIP, and for every guest-virtual address and buffer; outside 64-bit
mode a linear address has 32 bits. -/
structure MmusAgree (attribL : BitVec 16) (v : Vmcs) (save : VmcbSaveArea) (s : VmState) (rip : U64) : Prop where
  linear : Vmx.relmMmuRipToLinear v rip = relmMmuRipToLinear attribL save rip
  wrapped : ¬ Code64 v → (Vmx.relmMmuRipToLinear v rip).toNat = ((v.vmread guestCsBase).toNat + rip.toNat) % 2 ^ 32
  translated : ∀ gva, Vmx.relmMmuGvaToGpa v s gva = relmMmuGvaToGpa save s gva
  copied : ∀ gva data, Vmx.relmMmuCopyFromGuestVirt v s gva data = relmMmuCopyFromGuestVirt save s gva data

section Agreement

variable {attribL : BitVec 16} {v : Vmcs} {save : VmcbSaveArea}

private theorem readEntry_eq : Vmx.mmuReadEntry = mmuReadEntry := rfl
private theorem ptePresent_eq : Vmx.ptePresent = ptePresent := rfl
private theorem ptePs_eq : Vmx.ptePs = ptePs := rfl
private theorem pteAddrMask_eq : Vmx.pteAddrMask = pteAddrMask := rfl

private theorem walkLevels_eq (s : VmState) (gva : U64) (level : Nat) (table : U64) :
    Vmx.mmuWalkLevels s gva level table = mmuWalkLevels s gva level table := by
  induction level generalizing table with
  | zero => rfl
  | succ below ih =>
    simp only [Vmx.mmuWalkLevels, mmuWalkLevels, ih, readEntry_eq, ptePresent_eq, ptePs_eq, pteAddrMask_eq]

private theorem walkPae_eq (h : CommonRegisters attribL v save) (s : VmState) (gva : U64) :
    Vmx.mmuWalkPae v s gva = mmuWalkPae s (save.cr3 &&& 0xFFFFFFE0#64) gva := by
  simp only [Vmx.mmuWalkPae, mmuWalkPae, h.cr3, readEntry_eq, ptePresent_eq, ptePs_eq, pteAddrMask_eq]
  rfl

private theorem walkLegacy_eq (h : CommonRegisters attribL v save) (s : VmState) (gva : U64) :
    Vmx.mmuWalkLegacy v s gva = mmuWalkLegacy s (save.cr3 &&& 0xFFFFF000#64) save.cr4 gva := by
  simp only [Vmx.mmuWalkLegacy, mmuWalkLegacy, h.cr3, h.cr4, readEntry_eq, ptePresent_eq, ptePs_eq]
  rfl

/-- The translations agree in every paging mode, whatever the guest's tables hold. -/
theorem gvaToGpa_eq (h : CommonRegisters attribL v save) (s : VmState) (gva : U64) :
    Vmx.relmMmuGvaToGpa v s gva = relmMmuGvaToGpa save s gva := by
  simp only [Vmx.relmMmuGvaToGpa, relmMmuGvaToGpa, Vmx.mmuWalkLong, mmuWalkLong, h.cr0, h.cr3, h.cr4, h.efer,
    walkLevels_eq, walkPae_eq h, walkLegacy_eq h, pteAddrMask_eq]

private theorem copyVirtLoop_eq (h : CommonRegisters attribL v save) (s : VmState) (gva : U64) (size copied : Nat)
    (dst : List Byte) : Vmx.copyVirtLoop v s gva size copied dst = copyVirtLoop save s gva size copied dst := by
  induction hn : size - copied using Nat.strong_induction_on generalizing copied dst with
  | _ n ih =>
    rw [Vmx.copyVirtLoop, copyVirtLoop]
    split
    · rename_i hlt
      simp only [gvaToGpa_eq h]
      generalize (relmMmuGvaToGpa save s (gva + BitVec.ofNat 64 copied)).run = walk
      rcases walk with fault | (e | gpa)
      · rfl
      · rfl
      · dsimp only
        generalize relmVmCopyFromGuest s gpa _ = copy
        rcases copy with fault | ⟨ret, bytes⟩
        · rfl
        · dsimp only
          split
          · rfl
          · exact ih _ (by omega) _ _ rfl
    · rfl

theorem copyFromGuestVirt_eq (h : CommonRegisters attribL v save) (s : VmState) (gva : U64) (data : List Byte) :
    Vmx.relmMmuCopyFromGuestVirt v s gva data = relmMmuCopyFromGuestVirt save s gva data := by
  simp only [Vmx.relmMmuCopyFromGuestVirt, relmMmuCopyFromGuestVirt, copyVirtLoop_eq h]

private theorem mask_toNat (x : U64) : (x &&& 0xFFFFFFFF#64).toNat = x.toNat % 2 ^ 32 :=
  Lib.Word.and_low_toNat _ _ 32 (by decide)

private theorem low_half {a b k : Nat} (ha : a < 4294967296)
    (hk : (a + b * 4294967296) * 4294967295 = 18446744073709551616 * k + a) : a = 0 ∨ a = 2147483648 := by
  -- modulo the smaller power the equation says that twice the low half vanishes
  have hsum : 2 * a + 4294967296 * (b + 4294967296 * k) = 4294967296 * (a + b * 4294967296) := by omega
  have hdvd : 4294967296 ∣ 2 * a + 4294967296 * (b + 4294967296 * k) := by
    rw [hsum]
    exact Nat.dvd_mul_right _ _
  obtain ⟨t, ht⟩ := (Nat.dvd_add_left (Nat.dvd_mul_right _ _)).mp hdvd
  clear hdvd hsum hk
  omega

private theorem mul_mask_nat {a b : Nat} (ha : a < 4294967296) (hb : b < 4294967296)
    (h : (a + b * 4294967296) * 4294967295 % 18446744073709551616 = a) :
    (a = 0 ∧ b = 0) ∨ (a = 2147483648 ∧ b = 2147483647) := by
  obtain ⟨k, hk⟩ : ∃ k, (a + b * 4294967296) * 4294967295 = 18446744073709551616 * k + a :=
    ⟨_, ((Nat.div_add_mod _ _).symm.trans (congrArg _ h))⟩
  clear h
  rcases low_half ha hk with rfl | rfl
  · exact .inl ⟨rfl, by omega⟩
  · exact .inr ⟨rfl, by omega⟩

/-- Multiplying by the mask keeps the low half only of these two values. -/
private theorem mul_mask_iff (x : U64) :
    x * 0xFFFFFFFF#64 = x &&& 0xFFFFFFFF#64 ↔ x = 0#64 ∨ x = 0x7FFFFFFF80000000#64 := by
  constructor
  · intro h
    have hx := x.isLt
    obtain ⟨a, b, ha, hb, hab, hlow⟩ : ∃ a b, a < 4294967296 ∧ b < 4294967296 ∧ x.toNat = a + b * 4294967296 ∧
        x.toNat % 2 ^ 32 = a :=
      ⟨x.toNat % 4294967296, x.toNat / 4294967296, by omega, by omega, by omega, rfl⟩
    have hn := congrArg BitVec.toNat h
    rw [BitVec.toNat_mul, mask_toNat, show (0xFFFFFFFF#64).toNat = 4294967295 by decide, hlow, hab] at hn
    rcases mul_mask_nat ha hb hn with ⟨rfl, rfl⟩ | ⟨rfl, rfl⟩
    · exact .inl (BitVec.eq_of_toNat_eq hab)
    · exact .inr (BitVec.eq_of_toNat_eq hab)
  · rintro (rfl | rfl) <;> decide

private theorem ripToLinear_vmx (hc : ¬ Code64 v) (rip : U64) :
    Vmx.relmMmuRipToLinear v rip = (v.vmread guestCsBase + rip) * 0xFFFFFFFF#64 := if_neg hc

private theorem ripToLinear_svm (h : CommonRegisters attribL v save) (rip : U64) : relmMmuRipToLinear attribL save rip =
    if v.vmread guestIa32Efer &&& eferLma != 0 && v.vmread guestCsArBytes &&& csArBytesL != 0 then rip
    else (v.vmread guestCsBase + rip) &&& 0xFFFFFFFF#64 := by
  rw [relmMmuRipToLinear, h.efer, h.csL, h.csBase]

/-- The backends agree exactly in 64-bit mode and where the multiplication happens to be the mask. -/
theorem mmus_agree_iff (h : CommonRegisters attribL v save) (s : VmState) (rip : U64) :
    MmusAgree attribL v save s rip ↔
      Code64 v ∨ v.vmread guestCsBase + rip = 0#64 ∨ v.vmread guestCsBase + rip = 0x7FFFFFFF80000000#64 := by
  by_cases hc : Code64 v
  · refine ⟨fun _ => .inl hc, fun _ => ⟨?_, fun hn => absurd hc hn, gvaToGpa_eq h s, copyFromGuestVirt_eq h s⟩⟩
    calc Vmx.relmMmuRipToLinear v rip = rip := if_pos hc
      _ = relmMmuRipToLinear attribL save rip := ((ripToLinear_svm h rip).trans (if_pos hc)).symm
  · have hsvm : relmMmuRipToLinear attribL save rip = (v.vmread guestCsBase + rip) &&& 0xFFFFFFFF#64 :=
      (ripToLinear_svm h rip).trans (if_neg hc)
    constructor
    · intro ha
      have hl := ha.linear
      rw [ripToLinear_vmx hc, hsvm] at hl
      exact .inr ((mul_mask_iff _).mp hl)
    · rintro (hl | hl)
      · exact absurd hl hc
      · have heq := (mul_mask_iff _).mpr hl
        refine ⟨?_, fun _ => ?_, gvaToGpa_eq h s, copyFromGuestVirt_eq h s⟩
        · rw [ripToLinear_vmx hc, hsvm, heq]
        · rw [ripToLinear_vmx hc, heq, mask_toNat, BitVec.toNat_add]
          exact Nat.mod_mod_of_dvd _ (by decide)

/-- Both backends with paging off and the given CS base, in real mode. -/
private def realModeVmcs (csBase : U64) : Vmcs where
  supported _ := true
  fields enc := if enc = guestCsBase then csBase else 0
private def realModeSave (csBase : U64) : VmcbSaveArea where
  cs := { selector := 0, attrib := 0, limit := 0xFFFF, base := csBase }
  efer := 0
  cr4 := 0
  cr3 := 0
  cr0 := 0

private theorem realMode_common (csBase : U64) :
    CommonRegisters (1#16 <<< 9) (realModeVmcs csBase) (realModeSave csBase) where
  cr0 := rfl
  cr3 := rfl
  cr4 := rfl
  efer := rfl
  csBase := rfl
  csL := by
    rw [show (realModeVmcs csBase).vmread guestCsArBytes = 0 from rfl, show (realModeSave csBase).cs.attrib = 0 from rfl]
    decide

/-- A VM without guest memory. -/
private def bareVm : VmState where
  host := Host.idle [] []
  ept :=
    { obj := 0, pml4 := 0x1000#64, pml4Pa := 0x1000#64, eptp := 0x101E#64, memtype := 6#64, adEnabled := false
      stats := {}, tables := [0x1000#64] }
  memory := { memRegions := [], totalGuestRam := 0, mmioRegions := [] }
  rom := none

/-- The registers of the guest whose own tables map two pages, as a VMCB. -/
private def mappedSave : VmcbSaveArea where
  cs := { selector := 0, attrib := 1#16 <<< 9, limit := 0xFFFF, base := 0xFFFF0000#64 }
  efer := eferLma
  cr4 := x86Cr4Pae
  cr3 := 0
  cr0 := x86Cr0Pg

private theorem mapped_common : CommonRegisters (1#16 <<< 9) mappedVmcs mappedSave :=
  ⟨rfl, rfl, rfl, rfl, rfl, by decide⟩

/-- In 64-bit mode both walkers take the address `0x400FFE` through the guest's four levels to `0x4FFE`. -/
theorem mmus_agree_iff_mapped : CommonRegisters (1#16 <<< 9) mappedVmcs mappedSave ∧
    MmusAgree (1#16 <<< 9) mappedVmcs mappedSave mappedVm 0x400FFE#64 ∧
    (Vmx.relmMmuGvaToGpa mappedVmcs mappedVm 0x400FFE#64).run = .ok (.ok 0x4FFE#64) ∧
    (relmMmuGvaToGpa mappedSave mappedVm 0x400FFE#64).run = .ok (.ok 0x4FFE#64) := by
  have hagree := (mmus_agree_iff mapped_common mappedVm 0x400FFE#64).mpr (.inl (by unfold Code64; decide))
  have hwalk : Vmx.relmMmuGvaToGpa mappedVmcs mappedVm 0x400FFE#64 = pure 0x4FFE#64 := mapped_walk (by decide)
  refine ⟨mapped_common, hagree, by rw [hwalk]; rfl, ?_⟩
  rw [← hagree.translated, hwalk]
  rfl

/-- At the reset vector the VMX walker fetches from another linear address than the SVM one. -/
theorem reset_vector_disagrees : CommonRegisters (1#16 <<< 9) (realModeVmcs 0xFFFF0000) (realModeSave 0xFFFF0000) ∧
    Vmx.relmMmuRipToLinear (realModeVmcs 0xFFFF0000) 0xFFF0 = 0xFFFFFFEF00000010#64 ∧
    relmMmuRipToLinear (1#16 <<< 9) (realModeSave 0xFFFF0000) 0xFFF0 = 0xFFFFFFF0#64 ∧
    ¬ MmusAgree (1#16 <<< 9) (realModeVmcs 0xFFFF0000) (realModeSave 0xFFFF0000) bareVm 0xFFF0 := by
  have hvmx : Vmx.relmMmuRipToLinear (realModeVmcs 0xFFFF0000) 0xFFF0 = 0xFFFFFFEF00000010#64 := by decide
  have hsvm : relmMmuRipToLinear (1#16 <<< 9) (realModeSave 0xFFFF0000) 0xFFF0 = 0xFFFFFFF0#64 := by decide
  refine ⟨realMode_common _, hvmx, hsvm, fun h => ?_⟩
  have hl := h.linear
  rw [hvmx, hsvm] at hl
  exact absurd hl (by decide)

end Agreement

end Relm.Svm
