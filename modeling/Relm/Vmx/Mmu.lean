import Relm.Vm.Access
import Relm.Vmx.Vmcs

/-! Software walks of the guest's own page tables, in its three paging modes. -/
namespace Relm.Vmx
open Relm.Vm

def ptePresent : U64 := 1#64 <<< 0
def ptePs : U64 := 1#64 <<< 7
def pteAddrMask : U64 := 0x000FFFFFFFFFF000#64
def x86Cr0Pg : U64 := 1#64 <<< 31
def x86Cr4Pse : U64 := 1#64 <<< 4
def x86Cr4Pae : U64 := 1#64 <<< 5
def x86Cr4La57 : U64 := 1#64 <<< 12

def csArBytesL : U64 := 1#64 <<< 13

/-- A walk returns an address or an error number, unless it makes the host fault. -/
abbrev Walk := ExceptT Errno (Except HostFault)

/-- A short read still counts as an entry, with zeros for what is missing. -/
def mmuReadEntry (s : VmState) (entryGpa : U64) (size : Nat) : Walk U64 :=
  match relmVmCopyFromGuest s entryGpa size with
  | .error fault => ExceptT.mk (.error fault)
  | .ok (ret, bytes) => if ret < 0 then throw .efault else pure (Lib.Word.ofBytes bytes)

/-- The loop of `mmu_walk_long`, from a level down. -/
def mmuWalkLevels (s : VmState) (gva : U64) : (level : Nat) → (table : U64) → Walk U64
  | 0, _ => throw .efault
  | below + 1, table => do
    let shift := 12 + 9 * below
    let index := (gva >>> shift) &&& 0x1FF#64
    let entry ← mmuReadEntry s (table + index * 8#64) 8
    if entry &&& ptePresent == 0 then throw .efault
    else if below > 0 && entry &&& ptePs != 0 then
      -- a 1 GiB or 2 MiB leaf; the bit is reserved at the top level
      let pageMask := (1#64 <<< shift) - 1
      if below == 3 then throw .efault
      else return (entry &&& pteAddrMask &&& ~~~pageMask) ||| (gva &&& pageMask)
    else if below == 0 then return (entry &&& pteAddrMask) ||| (gva &&& 0xFFF#64)
    else mmuWalkLevels s gva below (entry &&& pteAddrMask)

def mmuWalkLong (v : Vmcs) (s : VmState) (gva : U64) : Walk U64 :=
  mmuWalkLevels s gva 4 (v.vmread guestCr3 &&& pteAddrMask)

def mmuWalkPae (v : Vmcs) (s : VmState) (gva : U64) : Walk U64 := do
  let pdpt := v.vmread guestCr3 &&& 0xFFFFFFE0#64
  let pdpte ← mmuReadEntry s (pdpt + ((gva >>> 30) &&& 0x3#64) * 8#64) 8
  if pdpte &&& ptePresent == 0 then throw .efault
  else
    let pde ← mmuReadEntry s ((pdpte &&& pteAddrMask) + ((gva >>> 21) &&& 0x1FF#64) * 8#64) 8
    if pde &&& ptePresent == 0 then throw .efault
    else if pde &&& ptePs != 0 then return (pde &&& pteAddrMask &&& ~~~0x1FFFFF#64) ||| (gva &&& 0x1FFFFF#64)
    else
      let pte ← mmuReadEntry s ((pde &&& pteAddrMask) + ((gva >>> 12) &&& 0x1FF#64) * 8#64) 8
      if pte &&& ptePresent == 0 then throw .efault
      else return (pte &&& pteAddrMask) ||| (gva &&& 0xFFF#64)

def mmuWalkLegacy (v : Vmcs) (s : VmState) (gva : U64) : Walk U64 := do
  let pd := v.vmread guestCr3 &&& 0xFFFFF000#64
  let pde ← mmuReadEntry s (pd + ((gva >>> 22) &&& 0x3FF#64) * 4#64) 4
  if pde &&& ptePresent == 0 then throw .efault
  else if v.vmread guestCr4 &&& x86Cr4Pse != 0 && pde &&& ptePs != 0 then
    return (pde &&& 0xFFC00000#64) ||| (gva &&& 0x3FFFFF#64)
  else
    let pte ← mmuReadEntry s ((pde &&& 0xFFFFF000#64) + ((gva >>> 12) &&& 0x3FF#64) * 4#64) 4
    if pte &&& ptePresent == 0 then throw .efault
    else return (pte &&& 0xFFFFF000#64) ||| (gva &&& 0xFFF#64)

def relmMmuGvaToGpa (v : Vmcs) (s : VmState) (gva : U64) : Walk U64 :=
  if v.vmread guestCr0 &&& x86Cr0Pg == 0 then pure gva
  else if v.vmread guestIa32Efer &&& eferLma != 0 then
    if v.vmread guestCr4 &&& x86Cr4La57 != 0 then throw .einval else mmuWalkLong v s gva
  else
    let gva := gva &&& 0xFFFFFFFF#64
    if v.vmread guestCr4 &&& x86Cr4Pae != 0 then mmuWalkPae v s gva else mmuWalkLegacy v s gva

def relmMmuRipToLinear (v : Vmcs) (rip : U64) : U64 :=
  if v.vmread guestIa32Efer &&& eferLma != 0 && v.vmread guestCsArBytes &&& csArBytesL != 0 then rip
  else (v.vmread guestCsBase + rip) * 0xFFFFFFFF#64

/-- Bytes of a buffer from an offset on replaced. -/
def overwrite (dst : List Byte) (offset : Nat) (bytes : List Byte) : List Byte :=
  dst.take offset ++ bytes ++ dst.drop (offset + bytes.length)

/-- The page loop of `relm_mmu_copy_from_guest_virt`. A short copy counts as a whole chunk and leaves the rest of it
as the buffer had it. -/
def copyVirtLoop (v : Vmcs) (s : VmState) (gva : U64) (size copied : Nat) (dst : List Byte) :
    Except HostFault (Int × List Byte) :=
  if copied < size then
    let curGva := gva + BitVec.ofNat 64 copied
    let chunk := min (size - copied) (4096 - curGva.toNat % 4096)
    match (relmMmuGvaToGpa v s curGva).run with
    | .error fault => .error fault
    | .ok (.error e) => .ok (-e.code, dst)
    | .ok (.ok gpa) =>
      match relmVmCopyFromGuest s gpa chunk with
      | .error fault => .error fault
      | .ok (ret, bytes) =>
        if ret < 0 then .ok (ret, overwrite dst copied bytes)
        else copyVirtLoop v s gva size (copied + chunk) (overwrite dst copied bytes)
  else .ok (toCInt copied, dst)
  termination_by size - copied
  decreasing_by omega

def relmMmuCopyFromGuestVirt (v : Vmcs) (s : VmState) (gva : U64) (data : List Byte) : Except HostFault (Int × List Byte) :=
  if data.length = 0 then .ok (-Errno.einval.code, data) else copyVirtLoop v s gva data.length 0 data

end Relm.Vmx
