import Relm.Virtio.MmioExit
import Relm.Vm.Windows
import Relm.Vmx.ApicAccess
import Relm.Vmx.IoPorts
import Relm.Vmx.MsrAreas

/-! The C half of VM-exit handling: the handler of every exit reason, and what its return value means to the stub. -/
namespace Relm.Vmx
open Relm.Vm Relm.Virtio Relm.Boot Relm.Decoder IoPorts

variable {π : Type}

def vmExitReason : Nat := 0x4402
def vmExitIntrInfo : Nat := 0x4404
def guestPhysicalAddress : Nat := 0x2400
def guestRsp : Nat := 0x681C
def vmcsEntryControls : Nat := 0x4012
def cr0ReadShadow : Nat := 0x6004
def cr4ReadShadow : Nat := 0x6006

def crAccessCrNumberMask : U64 := 0xF#64
def crAccessTypeMask : U64 := 0x30#64
def crAccessTypeWrite : U32 := 0
def crAccessSourceRegMask : U64 := 0xF00#64
def crAccessSourceRegShift : Nat := 8
def x86Cr4Vmxe : U64 := 1#64 <<< 13

def eferValidMask : U64 := 1#64 <<< 0 ||| 1#64 <<< 8 ||| 1#64 <<< 10 ||| 1#64 <<< 11
def vmEntryIa32eMode : U32 := 1#32 <<< 9

def relmKvmCpuidSignature : U32 := 0x40000000#32
def relmKvmCpuidFeatures : U32 := 0x40000001#32

def relmPageFaultInsnDumpWindow : U64 := 0x20#64
def relmInsnDumpRangeMax : Nat := 256

/-- The exit reasons that `handle_vmexit` has a case for. -/
inductive ExitReason
  | exceptionNmi | externalInterrupt | tripleFault | initSignal | cpuid | hlt | vmcall | crAccess | ioInstruction
  | msrRead | msrWrite | invalidGuestState | apicAccess | eptViolation | eptMisconfig | vmxPreemptionTimerExpired | xsetbv
  | other
  deriving DecidableEq, Repr

/-- The reason behind the low 16 bits of the field. -/
def ExitReason.ofBasic : Nat → ExitReason
  | 0x00 => exceptionNmi
  | 0x01 => externalInterrupt
  | 0x02 => tripleFault
  | 0x03 => initSignal
  | 0x0A => cpuid
  | 0x0C => hlt
  | 0x12 => vmcall
  | 0x1C => crAccess
  | 0x1E => ioInstruction
  | 0x1F => msrRead
  | 0x20 => msrWrite
  | 0x21 => invalidGuestState
  | 0x2C => apicAccess
  | 0x30 => eptViolation
  | 0x31 => eptMisconfig
  | 0x34 => vmxPreemptionTimerExpired
  | 0x37 => xsetbv
  | _ => other

/-- What CPUID leaves in `EAX`, `EBX`, `ECX` and `EDX`. -/
structure CpuidResult where
  eax : U32
  ebx : U32
  ecx : U32
  edx : U32

/-- What the handlers take from the host: the decoder, the devices' operations, which vCPU of which VM is current, the
clock, the buffers as they lie on the stack, the length Zydis finds for a dump, CPUID, the fixed bits of the control
registers and `CR2`. -/
structure ExitHost (π : Type) where
  decode : InsnDecoder
  ops : Nat → VirtioOps π
  vmId : Nat
  vcpuId : Nat
  now : U64
  insnBuf : Vector Byte 15
  mmioBuf : Vector Byte 16
  dumpBuf : Vector Byte 15
  insnLength : Vmcs → List Byte → Option Nat
  cpuid : (leaf subleaf : U32) → CpuidResult
  cr0Fixed0 : U64
  cr0Fixed1 : U64
  cr4Fixed0 : U64
  cr4Fixed1 : U64
  cr2 : U64

/-- What the handlers work on: the VMCS, the VM with its devices, APICs and firmware, and the rest of the vCPU. -/
structure VmExit (π : Type) where
  vmcs : Vmcs
  vm : VmState
  regs : GuestRegs
  registry : VirtioRegistry π
  vcpus : Vcpus
  fwData : Option FirmwareData
  state : VcpuStatus
  launched : Bool
  xcr0 : U64
  efer : U64
  cr0 : U64
  cr4 : U64

namespace VmExit

variable (e : VmExit π)

def mmioExit : MmioExit π := ⟨e.vmcs, e.vm, e.regs, e.registry, e.vcpus⟩

def withMmio (m : MmioExit π) : VmExit π :=
  { e with vmcs := m.vmcs, vm := m.vm, regs := m.regs, registry := m.registry, vcpus := m.vcpus }

def apicExit : ApicExit := ⟨e.vmcs, e.vm, e.vcpus, e.regs, e.state⟩

def withApic (a : ApicExit) : VmExit π :=
  { e with vmcs := a.vmcs, vm := a.vm, vcpus := a.vcpus, regs := a.regs, state := a.state }

/-- `vcpu->halted` of the current vCPU. -/
def halted (k : Nat) : Bool :=
  match e.vcpus[k]? with
  | some (some v) => v.halted
  | _ => false

def reg (r : Gpr) : U64 := e.regs.gpr r

def setReg (r : Gpr) (value : U64) : VmExit π := { e with regs.gpr := Function.update e.regs.gpr r value }

def vmwriteIgnored (enc : Nat) (value : U64) : VmExit π := { e with vmcs := e.vmcs.vmwriteIgnored enc value }

/-- `GUEST_RIP` moves past the instruction that starts at `rip`. -/
def advance (rip : U64) : VmExit π := e.vmwriteIgnored guestRip (rip + e.vmcs.vmread vmExitInstructionLen)

/-- The handlers that log and stop the guest. -/
def stop : Int × VmExit π := (0, { e with state := .stopped })

end VmExit

section Dump

variable (h : ExitHost π) (v : Vmcs) (s : VmState)

/-- One instruction is fetched and printed; on success its length. -/
def relmArchDumpGuestInsn (gva : U64) : Except HostFault (Except Int Nat) :=
  match relmMmuCopyFromGuestVirt v s gva h.dumpBuf.toList with
  | .error fault => .error fault
  | .ok (ret, raw) =>
    if ret < 0 then .ok (.error ret)
    else
      match h.insnLength v raw with
      | none => .ok (.error (-Errno.einval.code))
      | some length => .ok (.ok length)

/-- The loop of `relm_dump_guest_insn_range`, with the number of instructions it may still print. -/
def relmDumpGuestInsnRange (gvaEnd : U64) : (left : Nat) → (cursor : U64) → Except HostFault Unit
  | 0, _ => .ok ()
  | left + 1, cursor =>
    if cursor < gvaEnd then
      match relmArchDumpGuestInsn h v s cursor with
      | .error fault => .error fault
      | .ok (.error _) => .ok ()
      | .ok (.ok length) => relmDumpGuestInsnRange gvaEnd left (cursor + BitVec.ofNat 64 length)
    else .ok ()

def relmPageFaultDumpInsnWindow (rip : U64) : Except HostFault Unit :=
  if rip < relmPageFaultInsnDumpWindow then .ok ()
  else relmDumpGuestInsnRange h v s rip relmInsnDumpRangeMax (rip - relmPageFaultInsnDumpWindow)

def relmDumpPageFault (rip : U64) : Except HostFault Unit :=
  match (relmMmuGvaToGpa v s h.cr2).run with
  | .error fault => .error fault
  | .ok (.error _) => relmPageFaultDumpInsnWindow h v s rip
  | .ok (.ok gpa) =>
    if s.memory.memRegions.any (·.contains gpa) then .ok () else relmPageFaultDumpInsnWindow h v s rip

end Dump

section Handlers

variable (h : ExitHost π) (e : VmExit π) (rip : U64)

/-- Whether `VM_EXIT_INTR_INFO` reports an NMI. -/
def isNmi (v : Vmcs) : Bool :=
  let intrInfo : U32 := (v.vmread vmExitIntrInfo).setWidth 32
  intrInfo &&& (1#32 <<< 31) != 0 && (intrInfo >>> 8) &&& 7#32 == 2#32 && intrInfo &&& 0xFF#32 == 2#32

def handleExceptionNmi : Except HostFault (Int × VmExit π) :=
  if isNmi e.vmcs then .ok (1, e)
  else
    let intrInfo : U32 := (e.vmcs.vmread vmExitIntrInfo).setWidth 32
    if intrInfo &&& 0xFF#32 = 14#32 ∧ intrInfo &&& (1#32 <<< 11) ≠ 0 then
      match relmDumpPageFault h e.vmcs e.vm rip with
      | .error fault => .error fault
      | .ok _ => .ok e.stop
    else .ok e.stop

def handleHlt : Int × VmExit π :=
  (0, { e with vcpus := e.vcpus.modify h.vcpuId (Option.map fun v => { v with halted := true }) }.advance rip)

def relmHandleKvmCpuidLeaf (leaf : U32) (r : CpuidResult) : CpuidResult :=
  if leaf = relmKvmCpuidSignature then ⟨relmKvmCpuidFeatures, 0x4b4d564b#32, 0x564b4d56#32, 0x4d#32⟩
  else if leaf = relmKvmCpuidFeatures then ⟨0, 0, 0, 0⟩
  else r

/-- What the guest gets from CPUID. -/
def cpuidResult : CpuidResult :=
  let leaf : U32 := (e.reg .rax).setWidth 32
  relmHandleKvmCpuidLeaf leaf (h.cpuid leaf ((e.reg .rcx).setWidth 32))

def emulateCpuid : VmExit π :=
  let r := cpuidResult h e
  (((e.setReg .rax (r.eax.setWidth 64)).setReg .rbx (r.ebx.setWidth 64)).setReg .rcx (r.ecx.setWidth 64)).setReg .rdx
    (r.edx.setWidth 64)

def handleCpuid : Int × VmExit π := (1, (emulateCpuid h e).advance rip)

def ioExit (qualification : U64) : IoExit := ⟨qualification, e.reg .rax, rip, e.vmcs.vmread vmExitInstructionLen⟩

/-- `handle_io_instruction` on the registers and the VMCS. -/
def handleIoExit (qualification : U64) : Except Fault (Int × VmExit π) :=
  match handleIoInstruction e.fwData (ioExit e rip qualification) with
  | .error fault => .error fault
  | .ok (r, fwData) => .ok (r.ret, ({ e with fwData }.setReg .rax r.rax).vmwriteIgnored guestRip r.guestRip)

/-- The VMCALL of a diagnostic stub. -/
def fromDiagStub : Bool :=
  relmGuestIdtStubsGpa ≤ rip && rip < relmGuestIdtStubsGpa + BitVec.ofNat 64 relmGuestIdtStubsSize && e.reg .rax < 256#64

/-- The branch for a diagnostic stub logs and returns. -/
def handleVmcall : Int × VmExit π := if fromDiagStub e rip then (0, e) else (1, e.advance rip)

/-- What RDMSR answers. -/
def msrValue : U64 :=
  if (e.reg .rcx).setWidth 32 = msrIa32ApicBase then 0xfee00000#64 ||| 1#64 <<< 11 ||| 1#64 <<< 8 else 0

def handleMsrRead : Int × VmExit π :=
  (1, ((e.setReg .rax (((msrValue e).setWidth 32).setWidth 64)).setReg .rdx
    (((msrValue e >>> 32).setWidth 32).setWidth 64)).advance rip)

/-- The guest's EFER after a write: only the valid bits, and `LMA` as the processor sets it. -/
def eferOf (val cr0 : U64) : U64 :=
  let val := val &&& eferValidMask &&& ~~~(1#64 <<< 10)
  if val &&& (1#64 <<< 8) ≠ 0 ∧ cr0 &&& (1#64 <<< 31) ≠ 0 then val ||| 1#64 <<< 10 else val

def writeEfer (val : U64) : VmExit π :=
  let efer := eferOf val (e.vmcs.vmread guestCr0)
  let e := { e.vmwriteIgnored guestIa32Efer efer with efer }
  let entryCtrl : U32 := (e.vmcs.vmread vmcsEntryControls).setWidth 32
  let entryCtrl := if efer &&& (1#64 <<< 10) ≠ 0 then entryCtrl ||| vmEntryIa32eMode else entryCtrl &&& ~~~vmEntryIa32eMode
  e.vmwriteIgnored vmcsEntryControls (entryCtrl.setWidth 64)

def handleMsrWrite : Int × VmExit π :=
  let val := (e.reg .rdx <<< 32) ||| (e.reg .rax &&& 0xFFFFFFFF#64)
  (1, (if (e.reg .rcx).setWidth 32 = msrIa32Efer then writeEfer e val else e).advance rip)

def handleEptViolation (qualification : U64) : Except HostFault (Int × VmExit π) :=
  let gpa := e.vmcs.vmread guestPhysicalAddress
  let wasPresent := qualification &&& (1#64 <<< 3) != 0 || qualification &&& (1#64 <<< 4) != 0 ||
    qualification &&& (1#64 <<< 5) != 0
  if wasPresent = false ∧ relmVmGpaIsMmioRegion e.vm.memory gpa = true then
    match relmVirtioMmioHandleEptViolation h.decode h.ops h.vmId h.vcpuId h.mmioBuf gpa e.mmioExit with
    | .error fault => .error fault
    | .ok (true, m) => .ok (1, e.withMmio m)
    | .ok (false, m) => .ok (0, { e.withMmio m with state := .error })
  else .ok e.stop

def handleApicAccess : Except HostFault (Int × VmExit π) :=
  match relmApicHandleAccess h.decode h.vcpuId h.now h.insnBuf e.apicExit with
  | .error fault => .error fault
  | .ok (ret, a) => .ok (ret, e.withApic a)

def crSourceReg (qualification : U64) : U32 :=
  ((qualification &&& crAccessSourceRegMask) >>> crAccessSourceRegShift).setWidth 32

def crAccessType (qualification : U64) : U32 := (qualification &&& crAccessTypeMask).setWidth 32

/-- A write of a control register that has a read shadow: `keep` stores the software copy. -/
def crWriteHandleExit (field shadow : Nat) (shown : U64 → U64) (fixed0 fixed1 : U64) (keep : VmExit π → U64 → VmExit π)
    (qualification : U64) : Int × VmExit π :=
  if 15 < (crSourceReg qualification).toNat then (1, e.advance (e.vmcs.vmread guestRip))
  else
    let value := (e.regs.guestRegRead (crSourceReg qualification).toNat ||| fixed0) &&& fixed1
    let e := (keep e value).vmwriteIgnored field value
    match e.vmcs.vmwrite shadow (shown value) with
    | none => (-Errno.eio.code, e)
    | some vmcs => (1, { e with vmcs }.advance (vmcs.vmread guestRip))

def relmCr0WriteHandleExit (qualification : U64) : Int × VmExit π :=
  crWriteHandleExit e guestCr0 cr0ReadShadow id h.cr0Fixed0 h.cr0Fixed1 (fun e value => { e with cr0 := value })
    qualification

def relmCr4WriteHandleExit (qualification : U64) : Int × VmExit π :=
  crWriteHandleExit e guestCr4 cr4ReadShadow (· &&& ~~~x86Cr4Vmxe) h.cr4Fixed0 h.cr4Fixed1
    (fun e value => { e with cr4 := value }) qualification

def relmCr3PassthroughHandleExit (qualification : U64) (accType : U32) : Int × VmExit π :=
  let index := (crSourceReg qualification).toNat
  let e :=
    if 15 < index then e
    else if accType = crAccessTypeWrite then
      e.vmwriteIgnored guestCr3 (e.regs.guestRegRead index &&& ~~~(1#64 <<< 63))
    else { e with regs := e.regs.guestRegWrite index (e.vmcs.vmread guestCr3) }
  (1, e.advance (e.vmcs.vmread guestRip))

def handleCrAccess (qualification : U64) : Int × VmExit π :=
  match (qualification &&& crAccessCrNumberMask).toNat with
  | 0 => if crAccessType qualification = crAccessTypeWrite then relmCr0WriteHandleExit h e qualification else e.stop
  | 3 => relmCr3PassthroughHandleExit e qualification (crAccessType qualification)
  | 4 => if crAccessType qualification = crAccessTypeWrite then relmCr4WriteHandleExit h e qualification else e.stop
  | _ => e.stop

def handleXsetbv : Int × VmExit π :=
  let val : U64 := (e.reg .rdx <<< 32) ||| (e.reg .rax &&& 0xFFFFFFFF#64)
  if (e.reg .rcx).setWidth 32 ≠ 0#32 then e.stop
  else if val &&& 1#64 = 0 then e.stop
  else (1, { e with xcr0 := val }.advance rip)

/-- A memory fault of a handler is one of the exit. -/
def ofHostFault {α : Type} : Except HostFault α → Except Fault α
  | .error fault => .error (.memory fault)
  | .ok a => .ok a

/-- The `switch` of `handle_vmexit`. -/
def dispatch (reason : ExitReason) (qualification : U64) : Except Fault (Int × VmExit π) :=
  match reason with
  | .exceptionNmi => ofHostFault (handleExceptionNmi h e rip)
  | .externalInterrupt => .ok (1, e)
  | .tripleFault | .initSignal | .invalidGuestState | .vmxPreemptionTimerExpired | .other => .ok e.stop
  | .apicAccess => ofHostFault (handleApicAccess h e)
  | .hlt => .ok (handleHlt h e rip)
  | .cpuid => .ok (handleCpuid h e rip)
  | .ioInstruction => handleIoExit e rip qualification
  | .vmcall => .ok (handleVmcall e rip)
  | .msrRead => .ok (handleMsrRead e rip)
  | .msrWrite => .ok (handleMsrWrite e rip)
  | .eptViolation => ofHostFault (handleEptViolation h e qualification)
  | .crAccess => .ok (handleCrAccess h e qualification)
  | .eptMisconfig => .ok (0, { e with state := .error })
  | .xsetbv => .ok (handleXsetbv e rip)

end Handlers

/-- The words of `struct stack_guest_gprs`, by their place in it. -/
def stackIndex : Gpr → Option Nat
  | .r15 => some 0
  | .r14 => some 1
  | .r13 => some 2
  | .r12 => some 3
  | .r11 => some 4
  | .r10 => some 5
  | .r9 => some 6
  | .r8 => some 7
  | .rbp => some 8
  | .rdi => some 9
  | .rsi => some 10
  | .rdx => some 11
  | .rcx => some 12
  | .rbx => some 13
  | .rax => some 14
  | .rsp => none

/-- The block that the stub has pushed. -/
abbrev StackGuestGprs := List U64

def StackGuestGprs.get (block : StackGuestGprs) (r : Gpr) : U64 := ((stackIndex r).bind (block[·]?)).getD 0

def StackGuestGprs.set (block : StackGuestGprs) (r : Gpr) (value : U64) : StackGuestGprs :=
  match stackIndex r with
  | some i => List.set block i value
  | none => block

/-- The registers that `handle_vmexit` copies from the block and back to it, in the order of the two copies. -/
def gprCopies : List Gpr :=
  [.rax, .rbx, .rcx, .rdx, .rsi, .rdi, .rbp, .r8, .r9, .r10, .r11, .r12, .r13, .r14, .r15]

/-- The first copy; `RSP` and `RIP` come from the VMCS. -/
def importRegs (v : Vmcs) (block : StackGuestGprs) (regs : GuestRegs) : GuestRegs where
  gpr := Function.update (gprCopies.foldl (fun gpr r => Function.update gpr r (block.get r)) regs.gpr) .rsp
    (v.vmread guestRsp)
  rip := v.vmread guestRip

/-- The second copy. -/
def exportRegs (regs : GuestRegs) (block : StackGuestGprs) : StackGuestGprs :=
  gprCopies.foldl (fun block r => block.set r (regs.gpr r)) block

namespace VmExit

variable (e : VmExit π)

/-- The VM-entry-failure flag. -/
def entryFailed : Bool := e.vmcs.vmread vmExitReason &&& (1#64 <<< 31) != 0

def reason : ExitReason := .ofBasic ((e.vmcs.vmread vmExitReason).toNat % 2 ^ 16)

/-- The state that the handlers find. -/
def imported (block : StackGuestGprs) : VmExit π :=
  { e with launched := true, regs := importRegs e.vmcs block e.regs }

end VmExit

/-- `handle_vmexit` with a current vCPU: the value returned, the block and the state. -/
def handleVmexit (h : ExitHost π) (block : StackGuestGprs) (e : VmExit π) :
    Except Fault (Int × StackGuestGprs × VmExit π) :=
  if e.entryFailed then .ok (0, block, { e with state := .stopped })
  else
    let rip := e.vmcs.vmread guestRip
    match relmArchDumpGuestInsn h e.vmcs e.vm rip with
    | .error fault => .error (.memory fault)
    | .ok _ =>
      match dispatch h (e.imported block) rip e.reason (e.vmcs.vmread vmExitQualification) with
      | .error fault => .error fault
      | .ok (ret, e') => .ok (ret, exportRegs e'.regs block, e')

/-- A host whose decoder knows no instruction. -/
def bareHost : ExitHost Unit where
  decode _ := (-Errno.einval.code, ⟨0, .invalid, 0, .invalid, 0, -1, 0, 0, .none⟩)
  ops _ := idleOps
  vmId := 0
  vcpuId := 0
  now := 1#64
  insnBuf := Vector.replicate 15 0
  mmioBuf := Vector.replicate 16 0
  dumpBuf := Vector.replicate 15 0
  insnLength _ _ := none
  cpuid _ _ := ⟨0x16#32, 0x756E6547#32, 0x6C65746E#32, 0x49656E69#32⟩
  cr0Fixed0 := 0x80000021#64
  cr0Fixed1 := 0xFFFFFFFF#64
  cr4Fixed0 := 0x2000#64
  cr4Fixed1 := 0x3767FF#64
  cr2 := 0#64

/-- An exit of the one vCPU of a VM with two pages, for a reason, with a qualification, an instruction of three bytes at
`rip` and `GUEST_RSP` 0x8000 over `GUEST_CR3` 0x1000. -/
def bareExit (reason qualification rip : U64) : VmExit Unit where
  vmcs := ⟨fun _ => true, fun enc => if enc = vmExitReason then reason else if enc = vmExitQualification then qualification
    else if enc = vmExitInstructionLen then 3#64 else if enc = guestRip then rip else if enc = guestRsp then 0x8000#64
    else if enc = guestCr3 then 0x1000#64 else 0#64⟩
  vm := adjacentVm
  regs := ⟨fun _ => 0#64, 0#64⟩
  registry := ⟨[0], fun _ => .zero, .zero, fun _ => oneQueue.dev, fun _ => ⟨[], 0, []⟩⟩
  vcpus := oneVcpu
  fwData := none
  state := .running
  launched := true
  xcr0 := 1#64
  efer := 0#64
  cr0 := 0x80000021#64
  cr4 := 0x2000#64

theorem bareExit_backed (reason qualification rip : U64) :
    AllBacked (bareExit reason qualification rip).vm.memory.memRegions :=
  fun r hr => ⟨adjacent_layout.linked r hr, adjacent_layout.backed r hr⟩

end Relm.Vmx
