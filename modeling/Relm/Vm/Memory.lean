import Relm.Host.Pages

/-! The memory part of a VM: guest RAM and pass-through regions in a list, and the reserved MMIO windows. -/
namespace Relm.Vm

def relmMemFRead : U64 := 1#64 <<< 0
def relmMemFWrite : U64 := 1#64 <<< 1
def relmMemFExec : U64 := 1#64 <<< 2
def relmMemFMmio : U64 := 1#64 <<< 3

/-- `struct guest_mem_region`. `pages` is `none` for a pass-through region, whose array pointer is `NULL`;
`obj` and `pagesObj` name the slab objects of the region and of its array. -/
structure GuestMemRegion where
  obj : Nat
  pagesObj : Nat
  gpaStart : U64
  size : U64
  pages : Option (List U64)
  nrPages : U64
  flags : U64

/-- `struct relm_mmio_region`; the name without its terminator. -/
structure MmioRegion where
  gpaStart : U64
  size : U64
  name : List Byte

def relmMaxMmioRegions : Nat := 8

/-- `struct relm_vm_memory`; the head of the list is the region linked last. -/
structure VmMemory where
  memRegions : List GuestMemRegion
  totalGuestRam : U64
  mmioRegions : List MmioRegion

end Relm.Vm
