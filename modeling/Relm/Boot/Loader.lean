import Relm.Firmware.FwCfg
import Relm.Vm.Access

/-! The direct boot loader: a bzImage, an initrd, the command line, `boot_params` and the diagnostic descriptor tables
are copied into guest RAM. -/
namespace Relm.Boot
open Lib.Word Firmware Vm

def relmBootHdrsMagic : U64 := 0x53726448#64
def relmBootFlagMagic : U64 := 0xAA55#64
def relmBootProtocolMin : U64 := 0x020C#64
def relmXlfKernel64 : U64 := 1#64
def relmLoadflagsLoadedHigh : U64 := 1#64
def relmBpE820Max : Nat := 128
def relmBpLoaderType : U64 := 0xFF#64

def relmBpOffsetE820Entries : U64 := 0x1E8#64
def relmBpOffsetHdr : U64 := 0x1F1#64
def relmBpOffsetE820Table : U64 := 0x2D0#64
def relmBpSize : Nat := 0x1000
def relmBzimageHdrOffset : Nat := 0x1F1
def relmStartup64Offset : U64 := 0x200#64

def relmBootParamsGpa : U64 := 0x7000#64
def relmCmdlineGpa : U64 := 0x20000#64
def relmCmdlineMaxLen : Nat := 4096
def relmKernelLoadGpa : U64 := 0x1000000#64
def relmKernelMaxSize : Nat := 64 * 1024 * 1024
def relmInitrdLoadGpa : U64 := 0x4000000#64
def relmInitrdMaxSize : Nat := 60 * 1024 * 1024
def relmGuestGdtGpa : U64 := 0x4000#64
def relmGuestIdtGpa : U64 := 0x5000#64
def relmGuestIdtSize : Nat := 256 * 16
def relmGuestIdtStubsGpa : U64 := 0x6000#64
def relmGuestIdtStubsStride : Nat := 16
def relmGuestIdtStubsSize : Nat := 256 * relmGuestIdtStubsStride
def relmGuestGdtCsSel : U64 := 0x0008#64

def relmDefaultCmdline : List Byte := ascii "console=ttyS0,115200 earlyprintk=serial nokaslr panic=1"

/-- `struct relm_setup_header`: it is packed, and copied from the file and to the guest as it lies in memory. -/
abbrev SetupHeader := Fin 123 → Byte

/-- Where a field of the header lies, and how many bytes it has. -/
structure HdrField where
  offset : Nat
  width : Nat

namespace HdrField

def setupSects : HdrField := ⟨0x00, 1⟩
def vidMode : HdrField := ⟨0x09, 2⟩
def bootFlag : HdrField := ⟨0x0D, 2⟩
def header : HdrField := ⟨0x11, 4⟩
def version : HdrField := ⟨0x15, 2⟩
def typeOfLoader : HdrField := ⟨0x1F, 1⟩
def loadflags : HdrField := ⟨0x20, 1⟩
def ramdiskImage : HdrField := ⟨0x27, 4⟩
def ramdiskSize : HdrField := ⟨0x2B, 4⟩
def cmdLinePtr : HdrField := ⟨0x37, 4⟩
def xloadflags : HdrField := ⟨0x45, 2⟩
def cmdlineSize : HdrField := ⟨0x47, 4⟩
def prefAddress : HdrField := ⟨0x67, 8⟩

end HdrField

namespace SetupHeader

def bytes (hdr : SetupHeader) : List Byte := List.ofFn hdr

/-- The header in a file that is long enough to have one. -/
def ofFile (file : List Byte) : SetupHeader := fun i => file.getD (relmBzimageHdrOffset + i) 0

def get (hdr : SetupHeader) (field : HdrField) : U64 := ofBytes ((hdr.bytes.drop field.offset).take field.width)

def set (hdr : SetupHeader) (field : HdrField) (value : U64) : SetupHeader := fun i =>
  if field.offset ≤ i.val ∧ i.val < field.offset + field.width then getByte value (i.val - field.offset) else hdr i

end SetupHeader

def relmValidateSetupHeader (hdr : SetupHeader) : Except Errno Unit :=
  if hdr.get .bootFlag ≠ relmBootFlagMagic then .error .einval
  else if hdr.get .header ≠ relmBootHdrsMagic then .error .einval
  else if hdr.get .version < relmBootProtocolMin then .error .enotsupp
  else if hdr.get .xloadflags &&& relmXlfKernel64 = 0 then .error .enotsupp
  else if hdr.get .loadflags &&& relmLoadflagsLoadedHigh = 0 then .error .enotsupp
  else .ok ()

/-- The real-mode part of the file, in bytes. -/
def setupSize (hdr : SetupHeader) : Nat :=
  ((if hdr.get .setupSects = 0 then 4 else (hdr.get .setupSects).toNat) + 1) * 512

def loadGpa (hdr : SetupHeader) : U64 := if hdr.get .prefAddress = 0 then relmKernelLoadGpa else hdr.get .prefAddress

/-- `kernel` is what `request_firmware` finds. On success the header and the entry point; a copy that stops short of
the end is taken for a success. -/
def relmKernelLoad (s : VmState) (kernel : Except Errno (List Byte)) :
    Except HostFault (Except Int (SetupHeader × U64) × VmState) :=
  match kernel with
  | .error e => .ok (.error (-e.code), s)
  | .ok file =>
    if file.length < relmBzimageHdrOffset + 123 then .ok (.error (-Errno.einval.code), s)
    else
      let hdr := SetupHeader.ofFile file
      match relmValidateSetupHeader hdr with
      | .error e => .ok (.error (-e.code), s)
      | .ok _ =>
        if file.length ≤ setupSize hdr then .ok (.error (-Errno.einval.code), s)
        else if file.length - setupSize hdr > relmKernelMaxSize then .ok (.error (-Errno.e2big.code), s)
        else if loadGpa hdr + BitVec.ofNat 64 (file.length - setupSize hdr) > s.memory.totalGuestRam then
          .ok (.error (-Errno.enomem.code), s)
        else do
          let (ret, s) ← relmVmCopyToGuest s (loadGpa hdr) (file.drop (setupSize hdr))
          if ret < 0 then return (.error ret, s)
          return (.ok (hdr, loadGpa hdr + relmStartup64Offset), s)

/-- On success the size of the initrd, which is 0 when there is none. -/
def relmInitrdLoad (s : VmState) (initrd : Except Errno (List Byte)) : Except HostFault (Except Int U32 × VmState) :=
  match initrd with
  | .error _ => .ok (.ok 0, s)
  | .ok file =>
    if file.length > relmInitrdMaxSize then .ok (.error (-Errno.e2big.code), s)
    else if relmInitrdLoadGpa + BitVec.ofNat 64 file.length > s.memory.totalGuestRam then
      .ok (.error (-Errno.enomem.code), s)
    else do
      let (ret, s) ← relmVmCopyToGuest s relmInitrdLoadGpa file
      if ret < 0 then return (.error ret, s)
      return (.ok (BitVec.ofNat 32 file.length), s)

/-- The tail of the small writers: a copy that stops short is an error. -/
def guestWrite (s : VmState) (gpa : U64) (data : List Byte) : Except HostFault (Int × VmState) :=
  (relmVmCopyToGuest s gpa data).map fun r =>
    (if r.1 = (data.length : Int) then 0 else if r.1 < 0 then r.1 else -Errno.eio.code, r.2)

def relmGuestWriteU8 (s : VmState) (gpa : U64) (v : Byte) : Except HostFault (Int × VmState) := guestWrite s gpa [v]

/-- A string is the bytes before its terminator; `none` is the `NULL` pointer. -/
def relmCmdlineLoad (s : VmState) (cmdline : Option (List Byte)) : Except HostFault (Int × VmState) := do
  let cmdline := (cmdline.getD relmDefaultCmdline).take (relmCmdlineMaxLen - 1)
  let (ret, s) ← relmVmZeroGuestMemory s relmCmdlineGpa relmCmdlineMaxLen
  if ret < 0 then return (ret, s)
  let (ret, s) ← relmVmCopyToGuest s relmCmdlineGpa cmdline
  if ret < 0 then return (ret, s)
  relmGuestWriteU8 s (relmCmdlineGpa + BitVec.ofNat 64 cmdline.length) 0

/-- The header that the guest gets. -/
def guestHeader (hdr : SetupHeader) (initrdSize : U32) : SetupHeader :=
  (((((hdr.set .typeOfLoader relmBpLoaderType).set .cmdLinePtr relmCmdlineGpa).set .cmdlineSize
    (BitVec.ofNat 64 (relmCmdlineMaxLen - 1))).set .ramdiskImage (if initrdSize = 0 then 0 else relmInitrdLoadGpa)).set
    .ramdiskSize (initrdSize.setWidth 64)).set .vidMode 0xFFFF#64

/-- The table of e820 records from index `i` on. -/
def writeE820 (s : VmState) : (i : Nat) → List E820Entry → Except HostFault (Int × VmState)
  | _, [] => .ok (0, s)
  | i, e :: rest => do
    let (ret, s) ← relmVmCopyToGuest s (relmBootParamsGpa + relmBpOffsetE820Table + BitVec.ofNat 64 (i * 20)) e.bytes
    if ret < 0 then return (ret, s)
    writeE820 s (i + 1) rest

/-- Without the last assignment, of `vm->arch.boot_params_gpa`. -/
def relmBootParamsBuild (s : VmState) (hdr : SetupHeader) (initrdSize : U32) : Except HostFault (Int × VmState) := do
  let (ret, s) ← relmVmZeroGuestMemory s relmBootParamsGpa relmBpSize
  if ret < 0 then return (ret, s)
  match relmE820Build s.memory with
  | .error e => return (-e.code, s)
  | .ok map =>
    if map.length > relmBpE820Max then return (-Errno.e2big.code, s)
    let (ret, s) ← relmVmCopyToGuest s (relmBootParamsGpa + relmBpOffsetHdr) (guestHeader hdr initrdSize).bytes
    if ret < 0 then return (ret, s)
    let (ret, s) ← relmGuestWriteU8 s (relmBootParamsGpa + relmBpOffsetE820Entries) (BitVec.ofNat 8 map.length)
    if ret ≠ 0 then return (ret, s)
    writeE820 s 0 map

def relmWriteGdtEntry (s : VmState) (index : Nat) (entry : U64) : Except HostFault (Int × VmState) :=
  guestWrite s (relmGuestGdtGpa + BitVec.ofNat 64 (index * 8)) (leBytes 8 entry)

def idtGate (handlerGpa : U64) : List Byte :=
  [getByte handlerGpa 0, getByte handlerGpa 1, getByte relmGuestGdtCsSel 0, getByte relmGuestGdtCsSel 1, 0x00, 0x8E,
    getByte handlerGpa 2, getByte handlerGpa 3, getByte handlerGpa 4, getByte handlerGpa 5, getByte handlerGpa 6,
    getByte handlerGpa 7, 0, 0, 0, 0]

def relmWriteIdtGate (s : VmState) (vec : Nat) (handlerGpa : U64) : Except HostFault (Int × VmState) :=
  guestWrite s (relmGuestIdtGpa + BitVec.ofNat 64 (vec * 16)) (idtGate handlerGpa)

/-- The first bytes of `relm_idt_stub_template`: `mov $imm32, %eax`, `vmcall`, then `hlt`. -/
def relmIdtStubTemplate : List Byte := [0xB8, 0, 0, 0, 0, 0x0F, 0x01, 0xC1] ++ List.replicate 8 0xF4

def stubGpa (vec : Nat) : U64 := relmGuestIdtStubsGpa + BitVec.ofNat 64 (vec * relmGuestIdtStubsStride)

def relmWriteIdtStub (s : VmState) (vec : Nat) : Except HostFault (Int × VmState) :=
  guestWrite s (stubGpa vec) (relmIdtStubTemplate.set 1 (BitVec.ofNat 8 vec))

/-- A loop over vectors, up to the first failure. -/
def forVectors (write : VmState → Nat → Except HostFault (Int × VmState)) (s : VmState) :
    List Nat → Except HostFault (Int × VmState)
  | [] => .ok (0, s)
  | vec :: rest => do
    let (ret, s) ← write s vec
    if ret ≠ 0 then return (ret, s)
    forVectors write s rest

def relmInstallDiagIdtGdt (s : VmState) : Except HostFault (Int × VmState) := do
  let (ret, s) ← relmVmZeroGuestMemory s relmGuestGdtGpa 0x1000
  if ret < 0 then return (ret, s)
  let (ret, s) ← relmVmZeroGuestMemory s relmGuestIdtGpa relmGuestIdtSize
  if ret < 0 then return (ret, s)
  let (ret, s) ← relmVmZeroGuestMemory s relmGuestIdtStubsGpa relmGuestIdtStubsSize
  if ret < 0 then return (ret, s)
  let (ret, s) ← relmWriteGdtEntry s 0 0
  if ret ≠ 0 then return (ret, s)
  let (ret, s) ← relmWriteGdtEntry s 1 0x00AF9B000000FFFF#64
  if ret ≠ 0 then return (ret, s)
  let (ret, s) ← relmWriteGdtEntry s 2 0x00CF93000000FFFF#64
  if ret ≠ 0 then return (ret, s)
  let (ret, s) ← forVectors relmWriteIdtStub s (List.range 256)
  if ret ≠ 0 then return (ret, s)
  forVectors (fun s vec => relmWriteIdtGate s vec (stubGpa vec)) s (List.range 256)

/-- A VM with the two fields that the loader sets. -/
structure BootVm where
  vm : VmState
  bootParamsGpa : U64
  kernelEntryGpa : U64

/-- What the loader is given: the two files, as `request_firmware` finds them, and the command line. -/
structure BootInput where
  kernel : Except Errno (List Byte)
  initrd : Except Errno (List Byte)
  cmdline : Option (List Byte)

def relmBootLoad (b : BootVm) (input : BootInput) : Except HostFault (Int × BootVm) := do
  match ← relmKernelLoad b.vm input.kernel with
  | (.error ret, s) => return (ret, { b with vm := s })
  | (.ok (hdr, entryGpa), s) =>
    match ← relmInitrdLoad s input.initrd with
    | (.error ret, s) => return (ret, { b with vm := s })
    | (.ok initrdSize, s) =>
      let (ret, s) ← relmCmdlineLoad s input.cmdline
      if ret ≠ 0 then return (ret, { b with vm := s })
      let (ret, s) ← relmBootParamsBuild s hdr initrdSize
      if ret ≠ 0 then return (ret, { b with vm := s })
      let b := { b with bootParamsGpa := relmBootParamsGpa }
      let (ret, s) ← relmInstallDiagIdtGdt s
      if ret ≠ 0 then return (ret, { b with vm := s })
      return (0, { b with vm := s, kernelEntryGpa := entryGpa })

end Relm.Boot
