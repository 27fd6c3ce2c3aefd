import Relm.Ept.Context
import Relm.Lib.Fields
import Relm.Vmx.HostState
import Relm.Vmx.VmExit

/-! Phase 2 of a VMX VCPU: everything that `vmx_vcpu_init` writes into the VMCS, and whether the processor's checks on VM
entry accept it. -/
namespace Relm.Vmx.VcpuInit
open Relm.Ept Relm.Lib.Fields

def vmcsVpid : Nat := 0x0000
def vmcsIoBitmapA : Nat := 0x2000
def vmcsIoBitmapB : Nat := 0x2002
def vmcsMsrBitmap : Nat := 0x2004
def vmcsExitMsrStoreAddr : Nat := 0x2006
def vmcsExitMsrLoadAddr : Nat := 0x2008
def vmcsEntryMsrLoadAddr : Nat := 0x200a
def vmcsVirtualApicPageAddr : Nat := 0x2012
def vmcsApicAccessAddr : Nat := 0x2014
def eptPointer : Nat := 0x201A
def vmcsPinBasedExecControls : Nat := 0x4000
def vmcsPrimaryProcBasedExecControls : Nat := 0x4002
def vmcsExceptionBitmap : Nat := 0x4004
def cr3TargetCount : Nat := 0x400A
def vmcsExitControls : Nat := 0x400c
def vmcsExitMsrStoreCount : Nat := 0x2007
def vmcsExitMsrLoadCount : Nat := 0x2009
def vmcsEntryMsrLoadCount : Nat := 0x200b
def vmcsTprThreshold : Nat := 0x401C
def vmcsSecondaryProcBasedExecControls : Nat := 0x401E
def cr0GuestHostMask : Nat := 0x6000
def cr4GuestHostMask : Nat := 0x6002

def guestEsSelector : Nat := 0x0800
def guestCsSelector : Nat := 0x0802
def guestSsSelector : Nat := 0x0804
def guestDsSelector : Nat := 0x0806
def guestFsSelector : Nat := 0x0808
def guestGsSelector : Nat := 0x080a
def guestLdtrSelector : Nat := 0x080c
def guestTrSelector : Nat := 0x080e
def guestEsLimit : Nat := 0x4800
def guestCsLimit : Nat := 0x4802
def guestSsLimit : Nat := 0x4804
def guestDsLimit : Nat := 0x4806
def guestFsLimit : Nat := 0x4808
def guestGsLimit : Nat := 0x480a
def guestLdtrLimit : Nat := 0x480c
def guestTrLimit : Nat := 0x480e
def guestGdtrLimit : Nat := 0x4810
def guestIdtrLimit : Nat := 0x4812
def guestEsArBytes : Nat := 0x4814
def guestSsArBytes : Nat := 0x4818
def guestDsArBytes : Nat := 0x481a
def guestFsArBytes : Nat := 0x481c
def guestGsArBytes : Nat := 0x481e
def guestLdtrArBytes : Nat := 0x4820
def guestTrArBytes : Nat := 0x4822
def guestInterruptibilityInfo : Nat := 0x4824
def guestActivityState : Nat := 0x4826
def guestEsBase : Nat := 0x6806
def guestSsBase : Nat := 0x680a
def guestDsBase : Nat := 0x680c
def guestFsBase : Nat := 0x680e
def guestGsBase : Nat := 0x6810
def guestLdtrBase : Nat := 0x6812
def guestTrBase : Nat := 0x6814
def guestGdtrBase : Nat := 0x6816
def guestIdtrBase : Nat := 0x6818
def guestRflags : Nat := 0x6820
def guestPendingDbgExceptions : Nat := 0x6822
def guestIa32Pat : Nat := 0x2804

def msrIa32CrPat : MsrIndex := 0x277#32
def msrIa32VmxPinbasedCtls : MsrIndex := 0x481#32
def msrIa32VmxProcbasedCtls : MsrIndex := 0x482#32
def msrIa32VmxExitCtls : MsrIndex := 0x483#32
def msrIa32VmxEntryCtls : MsrIndex := 0x484#32
def msrIa32VmxCr0Fixed0 : MsrIndex := 0x486#32
def msrIa32VmxCr0Fixed1 : MsrIndex := 0x487#32
def msrIa32VmxCr4Fixed0 : MsrIndex := 0x488#32
def msrIa32VmxCr4Fixed1 : MsrIndex := 0x489#32
def msrIa32VmxProcbasedCtls2 : MsrIndex := 0x48B#32

def vmcsPinExtintExiting : U32 := 1#32 <<< 0
def vmcsPinNmiExiting : U32 := 1#32 <<< 3
def vmcsPinVirtualNmis : U32 := 1#32 <<< 5
def vmcsProcHltExiting : U32 := 1#32 <<< 7
def vmcsProcCr8LoadExiting : U32 := 1#32 <<< 19
def vmcsProcCr8StoreExiting : U32 := 1#32 <<< 20
def vmcsProcTprShadow : U32 := 1#32 <<< 21
def vmcsProcUncondIoExiting : U32 := 1#32 <<< 24
def vmcsProcUseIoBitmaps : U32 := 1#32 <<< 25
def vmcsProcUseMsrBitmaps : U32 := 1#32 <<< 28
def vmcsProcActivateSecondary : U32 := 1#32 <<< 31
def vmcsProc2VirtualizeApicAccesses : U32 := 1#32 <<< 0
def vmcsProc2EnableEpt : U32 := 1#32 <<< 1
def vmcsProc2Rdtscp : U32 := 1#32 <<< 3
def vmcsProc2Vpid : U32 := 1#32 <<< 5
def vmcsProc2UnrestrictedGuest : U32 := 1#32 <<< 7
def vmcsProc2ApicRegisterVirt : U32 := 1#32 <<< 8
def vmcsProc2EnableInvpcid : U32 := 1#32 <<< 12
def vmcsProc2EnableVmfunc : U32 := 1#32 <<< 13
def vmExitHostAddrSpaceSize : U32 := 1#32 <<< 9
def vmcsExitAckIntrOnExit : U32 := 1#32 <<< 15
def vmcsExitSaveIa32Pat : U32 := 1#32 <<< 18
def vmcsExitLoadIa32Pat : U32 := 1#32 <<< 19
def vmcsExitSaveEfer : U32 := 1#32 <<< 20
def vmcsExitLoadEfer : U32 := 1#32 <<< 21
def vmcsEntryLoadDebug : U32 := 1#32 <<< 2
def vmcsEntryLoadGuestPat : U32 := 1#32 <<< 14
def vmcsEntryLoadIa32Efer : U32 := 1#32 <<< 15

def x86Cr0Pe : U64 := 1#64 <<< 0
def x86Cr0Ne : U64 := 1#64 <<< 5
def x86Cr0Wp : U64 := 1#64 <<< 16
def x86Cr0Nw : U64 := 1#64 <<< 29
def x86Cr0Cd : U64 := 1#64 <<< 30

def apicDefaultBase : U64 := 0xFEE00000#64
def eptApicFlags : U64 := 0x3#64
def relmGuestGdtGpa : U64 := 0x4000#64
def relmGuestGdtSize : U64 := 24#64
def relmGuestIdtGpa : U64 := 0x5000#64
def relmGuestIdtSize : U64 := 4096#64

/-- `__rdmsr1`: an MSR that does not exist reads 0. -/
abbrev Rdmsr := MsrIndex → U64

/-- `struct vmx_exec_ctrls`. -/
structure ExecCtrls where
  pinBased : U32
  primaryProc : U32
  secondaryProc : U32
  vmEntry : U32
  vmExit : U32
  deriving DecidableEq

/-- The low half of a capability MSR: controls that must be 1. -/
def allowed0 (msr : U64) : U32 := msr.setWidth 32

/-- The high half: controls that may be 1. -/
def allowed1 (msr : U64) : U32 := (msr >>> 32).setWidth 32

def cpuHasVpid (rdmsr : Rdmsr) : Bool :=
  allowed1 (rdmsr msrIa32VmxProcbasedCtls) &&& vmcsProcActivateSecondary != 0 &&
    allowed1 (rdmsr msrIa32VmxProcbasedCtls2) &&& vmcsProc2Vpid != 0

def relmInitExecControls (rdmsr : Rdmsr) : ExecCtrls where
  pinBased := vmcsPinExtintExiting ||| vmcsPinNmiExiting ||| vmcsPinVirtualNmis
  primaryProc := vmcsProcUseMsrBitmaps ||| vmcsProcActivateSecondary ||| vmcsProcHltExiting ||| vmcsProcCr8LoadExiting |||
    vmcsProcCr8StoreExiting ||| vmcsProcTprShadow ||| vmcsProcUncondIoExiting ||| vmcsProcUseIoBitmaps
  secondaryProc :=
    let secondary := vmcsProc2EnableEpt ||| vmcsProc2Rdtscp ||| vmcsProc2EnableInvpcid ||| vmcsProc2UnrestrictedGuest |||
      vmcsProc2EnableVmfunc
    if cpuHasVpid rdmsr then secondary ||| vmcsProc2Vpid else secondary
  vmEntry := vmEntryIa32eMode ||| vmcsEntryLoadGuestPat ||| vmcsEntryLoadIa32Efer ||| vmcsEntryLoadDebug
  vmExit := vmExitHostAddrSpaceSize ||| vmcsExitSaveIa32Pat ||| vmcsExitLoadIa32Pat ||| vmcsExitSaveEfer |||
    vmcsExitLoadEfer ||| vmcsExitAckIntrOnExit

def vmxAdjust (req allowed0 allowed1 : U32) : U32 := (req ||| allowed0) &&& allowed1

/-- The parts of `struct vcpu` that phase 2 reads and writes; a page that was not allocated has address 0. -/
structure Vcpu where
  vpid : BitVec 16
  vmcsPa : U64
  hostRsp : U64
  controls : ExecCtrls
  ioBitmapPa : U64
  msrBitmapPa : U64
  vmexitStorePa : U64
  vmexitLoadPa : U64
  vmentryLoadPa : U64
  vmexitCount : U64
  vmentryCount : U64
  exceptionBitmap : U32
  vapicPagePa : U64
  apicAccessPagePa : U64
  apicRegVirtSupported : Bool
  cr0 : U64
  cr3 : U64
  cr4 : U64
  efer : U64
  xcr0 : U64
  rip : U64
  rsi : U64
  rsp : U64
  rflags : U64

/-- What `vm->arch` and `vm->memory` give. -/
structure Vm where
  pml4Gpa : U64
  kernelEntryGpa : U64
  bootParamsGpa : U64
  totalGuestRam : U64

/-- The VMCS of the VCPU, the VCPU, and the EPT context of its VM, `none` for a `NULL` pointer. -/
structure Phase2 where
  vmcs : Vmcs
  vcpu : Vcpu
  ept : Option EptState

/-- The outcome of a function that returns 0 or a negative error. -/
abbrev Step := Except Errno Unit × Phase2

/-- Go on if the call before returned 0. -/
def andThen (r : Step) (k : Phase2 → Step) : Step :=
  match r with
  | (.error e, s) => (.error e, s)
  | (.ok _, s) => k s

/-- Any error becomes `-EIO`. -/
def orEio (r : Step) : Step :=
  match r with
  | (.error _, s) => (.error .eio, s)
  | (.ok _, s) => (.ok (), s)

/-- `CHECK_VMWRITE` one field after the other. -/
def vmwrites (writes : List (Nat × U64)) (s : Phase2) : Step :=
  let r := checkVmwrites writes s.vmcs
  (r.1, { s with vmcs := r.2 })

/-- `_vmwrite` with an odd encoding: the high half of the 64-bit field below it. -/
def vmwriteHigh (v : Vmcs) (enc : Nat) (value : U64) : Option Vmcs :=
  if v.supported enc then
    some { v with fields := fun e =>
      if e = enc - 1 then (v.fields e &&& 0xFFFFFFFF#64) ||| (value <<< 32) else v.fields e }
  else none

/-- `relm_vmclear` and `relm_vmptrld`; `succeeds` is what the instruction reports. -/
def relmVmclear (succeeds : Bool) (s : Phase2) : Step :=
  if s.vcpu.vmcsPa == 0 then (.error .einval, s) else if succeeds then (.ok (), s) else (.error .eio, s)

def relmVmptrld (succeeds : Bool) (s : Phase2) : Step :=
  if s.vcpu.vmcsPa == 0 then (.error .einval, s) else if succeeds then (.ok (), s) else (.error .eio, s)

/-- The adjusted value of one control field. -/
def adjusted (rdmsr : Rdmsr) (msr : MsrIndex) (req : U32) : U64 :=
  (vmxAdjust req (allowed0 (rdmsr msr)) (allowed1 (rdmsr msr))).setWidth 64

def execControlWrites (rdmsr : Rdmsr) (c : ExecCtrls) : List (Nat × U64) :=
  [(vmcsPinBasedExecControls, adjusted rdmsr msrIa32VmxPinbasedCtls c.pinBased),
    (vmcsPrimaryProcBasedExecControls, adjusted rdmsr msrIa32VmxProcbasedCtls c.primaryProc),
    (vmcsSecondaryProcBasedExecControls, adjusted rdmsr msrIa32VmxProcbasedCtls2 c.secondaryProc),
    (vmcsEntryControls, adjusted rdmsr msrIa32VmxEntryCtls c.vmEntry),
    (vmcsExitControls, adjusted rdmsr msrIa32VmxExitCtls c.vmExit)]

def relmApplyExecControls (rdmsr : Rdmsr) (s : Phase2) : Step := vmwrites (execControlWrites rdmsr s.vcpu.controls) s

/-- The address and the count of an MSR area, if there is one. -/
def writeMsrArea (addrEnc countEnc : Nat) (pa count : U64) (s : Phase2) : Step :=
  if pa != 0 && decide (0 < count) then
    match s.vmcs.vmwrite addrEnc pa with
    | none => (.error .eio, s)
    | some v =>
      match vmwriteHigh v countEnc count with
      | none => (.error .eio, { s with vmcs := v })
      | some v => (.ok (), { s with vmcs := v })
  else (.ok (), s)

def apicWrites (vcpu : Vcpu) : List (Nat × U64) :=
  [(vmcsVirtualApicPageAddr, vcpu.vapicPagePa), (vmcsApicAccessAddr, vcpu.apicAccessPagePa), (vmcsTprThreshold, 0)]

def relmApicVmcsSetup (rdmsr : Rdmsr) (s : Phase2) : Step :=
  if s.vcpu.vapicPagePa == 0 || s.vcpu.apicAccessPagePa == 0 then (.error .einval, s)
  else
    andThen (vmwrites (apicWrites s.vcpu) s) fun s =>
      let allowed1 := allowed1 (rdmsr msrIa32VmxProcbasedCtls2)
      if allowed1 &&& vmcsProc2VirtualizeApicAccesses == 0 then (.ok (), { s with vcpu.apicRegVirtSupported := false })
      else
        let currentSec : U32 := (s.vmcs.vmread vmcsSecondaryProcBasedExecControls).setWidth 32
        let newSec := currentSec ||| vmcsProc2VirtualizeApicAccesses
        let apicRegVirtOk := allowed1 &&& vmcsProc2ApicRegisterVirt != 0
        let newSec := if apicRegVirtOk then newSec ||| vmcsProc2ApicRegisterVirt else newSec
        andThen (vmwrites [(vmcsSecondaryProcBasedExecControls, newSec.setWidth 64)] s) fun s =>
          (.ok (), { s with vcpu.apicRegVirtSupported := apicRegVirtOk })

def relmApicEptSetup (s : Phase2) : Step :=
  match s.ept with
  | none => (.error .einval, s)
  | some ept =>
    if s.vcpu.apicAccessPagePa == 0 then (.error .einval, s)
    else
      let r := relmEptMapPage ept apicDefaultBase s.vcpu.apicAccessPagePa eptApicFlags
      (r.ret, { s with ept := some r.next })

/-- `(value | fixed0) & fixed1`. -/
def sanitised (rdmsr : Rdmsr) (fixed0 fixed1 : MsrIndex) (value : U64) : U64 := (value ||| rdmsr fixed0) &&& rdmsr fixed1

def initialCr0 (rdmsr : Rdmsr) : U64 :=
  sanitised rdmsr msrIa32VmxCr0Fixed0 msrIa32VmxCr0Fixed1 (x86Cr0Pg ||| x86Cr0Pe ||| x86Cr0Ne ||| x86Cr0Wp)

def initialCr4 (rdmsr : Rdmsr) : U64 := sanitised rdmsr msrIa32VmxCr4Fixed0 msrIa32VmxCr4Fixed1 x86Cr4Pae

def cr0Mask : U64 := x86Cr0Pe ||| x86Cr0Ne ||| x86Cr0Cd ||| x86Cr0Nw
def cr4Mask : U64 := x86Cr4Pae ||| x86Cr4Pse ||| x86Cr4Vmxe

def crControlWrites (vcpu : Vcpu) : List (Nat × U64) :=
  [(guestCr0, vcpu.cr0), (guestCr4, vcpu.cr4), (guestCr3, vcpu.cr3), (cr0ReadShadow, vcpu.cr0),
    (cr4ReadShadow, vcpu.cr4 &&& ~~~x86Cr4Vmxe), (cr0GuestHostMask, cr0Mask), (cr4GuestHostMask, cr4Mask)]

def relmSetupCrControls (rdmsr : Rdmsr) (s : Phase2) : Step :=
  let s := { s with vcpu.cr0 := initialCr0 rdmsr, vcpu.cr4 := initialCr4 rdmsr }
  vmwrites (crControlWrites s.vcpu) s

/-- A data segment: selector, base, limit and access rights. -/
def dataSegment (sel base limit ar : Nat) : List (Nat × U64) :=
  [(sel, 0x0010#64), (base, 0), (limit, 0xFFFFFFFF#64), (ar, 0xC093#64)]

/-- `IA32_PAT`, the segments and the descriptor tables. -/
def segmentWrites (rdmsr : Rdmsr) : List (Nat × U64) :=
  [(guestIa32Pat, rdmsr msrIa32CrPat), (guestCsSelector, 0x0008#64), (guestCsBase, 0), (guestCsLimit, 0xFFFFFFFF#64),
    (guestCsArBytes, 0xA09B#64)] ++
  dataSegment guestDsSelector guestDsBase guestDsLimit guestDsArBytes ++
  dataSegment guestEsSelector guestEsBase guestEsLimit guestEsArBytes ++
  dataSegment guestSsSelector guestSsBase guestSsLimit guestSsArBytes ++
  dataSegment guestFsSelector guestFsBase guestFsLimit guestFsArBytes ++
  dataSegment guestGsSelector guestGsBase guestGsLimit guestGsArBytes ++
  [(guestLdtrSelector, 0), (guestLdtrBase, 0), (guestLdtrLimit, 0), (guestLdtrArBytes, 0x10000#64),
    (guestTrSelector, 0), (guestTrBase, 0), (guestTrLimit, 0x67#64), (guestTrArBytes, 0x008B#64),
    (guestGdtrBase, relmGuestGdtGpa), (guestGdtrLimit, relmGuestGdtSize - 1), (guestIdtrBase, relmGuestIdtGpa),
    (guestIdtrLimit, relmGuestIdtSize - 1)]

def nonRegisterWrites : List (Nat × U64) :=
  [(guestActivityState, 0), (guestInterruptibilityInfo, 0), (guestPendingDbgExceptions, 0),
    (vmcsLinkPointer, 0xFFFFFFFFFFFFFFFF#64)]

/-- The stack starts at the top of usable RAM, below the page tables. -/
def initialRsp (vm : Vm) : U64 := (vm.totalGuestRam - 3 * 4096) &&& ~~~0xF#64

def longModeEfer : U64 := eferLme ||| eferLma ||| eferSce

def relmSetupGuestStateLongmode (rdmsr : Rdmsr) (vm : Vm) (s : Phase2) : Step :=
  let entryControls : U32 := (s.vmcs.vmread vmcsEntryControls).setWidth 32 ||| vmEntryIa32eMode
  andThen (vmwrites [(vmcsEntryControls, entryControls.setWidth 64)] s) fun s =>
  if vm.pml4Gpa == 0 then (.error .einval, s)
  else
  andThen (vmwrites [(guestCr3, vm.pml4Gpa)] s) fun s =>
  andThen (vmwrites [(guestIa32Efer, longModeEfer)] { s with vcpu.cr3 := vm.pml4Gpa }) fun s =>
  andThen (vmwrites [(guestCr0, initialCr0 rdmsr), (guestCr4, initialCr4 rdmsr)]
    { s with vcpu.efer := longModeEfer }) fun s =>
  andThen (vmwrites (segmentWrites rdmsr)
    { s with vcpu.cr0 := initialCr0 rdmsr, vcpu.cr4 := initialCr4 rdmsr, vcpu.xcr0 := 0 }) fun s =>
  if vm.kernelEntryGpa == 0 then (.error .einval, s)
  else
  andThen (vmwrites [(guestRip, vm.kernelEntryGpa)] s) fun s =>
  if vm.bootParamsGpa == 0 then (.error .einval, s)
  else
  andThen (vmwrites [(guestRsp, initialRsp vm), (guestRflags, 0x2#64)] s) fun s =>
  vmwrites nonRegisterWrites { s with
    vcpu.rip := vm.kernelEntryGpa, vcpu.rsi := vm.bootParamsGpa, vcpu.rsp := s.vmcs.vmread guestRsp, vcpu.rflags := 0x2#64 }

/-- What the processor and the host contribute: the MSRs, the registers that `relm_setup_host_state` saves, the address of
`relm_vmexit_handler`, and whether VMCLEAR and VMPTRLD succeed. -/
structure Machine where
  rdmsr : Rdmsr
  host : HostCpu
  handler : U64
  vmclear : Bool
  vmptrld : Bool

/-- The fields before the APIC. -/
def initControls (m : Machine) (ept : EptState) (s : Phase2) : Step :=
  andThen (vmwrites [(eptPointer, ept.ctx.eptp)] s) fun s =>
  andThen (orEio (relmApplyExecControls m.rdmsr s)) fun s =>
  andThen (if cpuHasVpid m.rdmsr then vmwrites [(vmcsVpid, s.vcpu.vpid.setWidth 64)] s else (.ok (), s)) fun s =>
  andThen (if s.vcpu.controls.primaryProc &&& vmcsProcUseIoBitmaps != 0 && s.vcpu.ioBitmapPa != 0 then
    vmwrites [(vmcsIoBitmapA, s.vcpu.ioBitmapPa), (vmcsIoBitmapB, s.vcpu.ioBitmapPa + 4096)] s else (.ok (), s)) fun s =>
  andThen (if s.vcpu.controls.primaryProc &&& vmcsProcUseMsrBitmaps != 0 && s.vcpu.msrBitmapPa != 0 then
    vmwrites [(vmcsMsrBitmap, s.vcpu.msrBitmapPa)] s else (.ok (), s)) fun s =>
  andThen (writeMsrArea vmcsExitMsrStoreAddr vmcsExitMsrStoreCount s.vcpu.vmexitStorePa s.vcpu.vmexitCount s) fun s =>
  andThen (writeMsrArea vmcsExitMsrLoadAddr vmcsExitMsrLoadCount s.vcpu.vmexitLoadPa s.vcpu.vmentryCount s) fun s =>
  andThen (writeMsrArea vmcsEntryMsrLoadAddr vmcsEntryMsrLoadCount s.vcpu.vmentryLoadPa s.vcpu.vmentryCount s) fun s =>
  vmwrites [(vmcsExceptionBitmap, s.vcpu.exceptionBitmap.setWidth 64), (cr3TargetCount, 0)] s

/-- `relm_setup_host_state` on the VMCS. -/
def setupHostState (m : Machine) (s : Phase2) : Step :=
  let r := relmSetupHostState m.host s.vcpu.hostRsp m.handler s.vmcs
  (r.1, { s with vmcs := r.2 })

def vmxVcpuInit (m : Machine) (vm : Vm) (s : Phase2) : Step :=
  andThen (relmVmclear m.vmclear s) fun s =>
  andThen (relmVmptrld m.vmptrld s) fun s =>
  match s.ept with
  | none => (.error .einval, s)
  | some ept =>
    andThen (initControls m ept s) fun s =>
    andThen (orEio (relmApicVmcsSetup m.rdmsr s)) fun s =>
    andThen (orEio (relmApicEptSetup s)) fun s =>
    andThen (orEio (relmSetupCrControls m.rdmsr s)) fun s =>
    andThen (orEio (setupHostState m s)) fun s =>
    orEio (relmSetupGuestStateLongmode m.rdmsr vm s)

section Fields

/-- The fields after a sequence of writes. -/
def after (writes : List (Nat × U64)) (f : Nat → U64) : Nat → U64 := fun enc => lastWrite writes enc (f enc)

/-- The fields after an MSR area: the count lands in the high half of the address. -/
def areaFields (addrEnc : Nat) (pa count : U64) (f : Nat → U64) : Nat → U64 := fun enc =>
  if pa != 0 && decide (0 < count) then
    if enc = addrEnc then (stored addrEnc pa &&& 0xFFFFFFFF#64) ||| (count <<< 32) else f enc
  else f enc

/-- What the controls, bitmaps and MSR areas leave in the fields. -/
def controlFields (rdmsr : Rdmsr) (eptp : U64) (vcpu : Vcpu) (f : Nat → U64) : Nat → U64 :=
  let f := after (execControlWrites rdmsr vcpu.controls) (after [(eptPointer, eptp)] f)
  let f := after (if cpuHasVpid rdmsr then [(vmcsVpid, vcpu.vpid.setWidth 64)] else []) f
  let f := after (if vcpu.controls.primaryProc &&& vmcsProcUseIoBitmaps != 0 && vcpu.ioBitmapPa != 0 then
    [(vmcsIoBitmapA, vcpu.ioBitmapPa), (vmcsIoBitmapB, vcpu.ioBitmapPa + 4096)] else []) f
  let f := after (if vcpu.controls.primaryProc &&& vmcsProcUseMsrBitmaps != 0 && vcpu.msrBitmapPa != 0 then
    [(vmcsMsrBitmap, vcpu.msrBitmapPa)] else []) f
  let f := areaFields vmcsExitMsrStoreAddr vcpu.vmexitStorePa vcpu.vmexitCount f
  let f := areaFields vmcsExitMsrLoadAddr vcpu.vmexitLoadPa vcpu.vmentryCount f
  let f := areaFields vmcsEntryMsrLoadAddr vcpu.vmentryLoadPa vcpu.vmentryCount f
  after [(vmcsExceptionBitmap, vcpu.exceptionBitmap.setWidth 64), (cr3TargetCount, 0)] f

/-- The secondary controls that the APIC adds. -/
def apicSecondary (rdmsr : Rdmsr) (current : U32) : U32 :=
  let allowed1 := allowed1 (rdmsr msrIa32VmxProcbasedCtls2)
  let newSec := current ||| vmcsProc2VirtualizeApicAccesses
  if allowed1 &&& vmcsProc2ApicRegisterVirt != 0 then newSec ||| vmcsProc2ApicRegisterVirt else newSec

def apicFields (rdmsr : Rdmsr) (vcpu : Vcpu) (f : Nat → U64) : Nat → U64 :=
  let f := after (apicWrites vcpu) f
  if allowed1 (rdmsr msrIa32VmxProcbasedCtls2) &&& vmcsProc2VirtualizeApicAccesses == 0 then f
  else after [(vmcsSecondaryProcBasedExecControls,
    (apicSecondary rdmsr ((f vmcsSecondaryProcBasedExecControls).setWidth 32)).setWidth 64)] f

/-- The writes of the long-mode guest state in order; `entry` are the entry controls found. -/
def longmodeWrites (rdmsr : Rdmsr) (vm : Vm) (entry : U64) : List (Nat × U64) :=
  [(vmcsEntryControls, (entry.setWidth 32 ||| vmEntryIa32eMode : U32).setWidth 64), (guestCr3, vm.pml4Gpa),
    (guestIa32Efer, longModeEfer), (guestCr0, initialCr0 rdmsr), (guestCr4, initialCr4 rdmsr)] ++ segmentWrites rdmsr ++
  [(guestRip, vm.kernelEntryGpa), (guestRsp, initialRsp vm), (guestRflags, 0x2#64)] ++ nonRegisterWrites

def longmodeFields (rdmsr : Rdmsr) (vm : Vm) (f : Nat → U64) : Nat → U64 :=
  after (longmodeWrites rdmsr vm (f vmcsEntryControls)) f

/-- All of phase 2. -/
def initFields (m : Machine) (vm : Vm) (eptp : U64) (vcpu : Vcpu) (f : Nat → U64) : Nat → U64 :=
  let f := apicFields m.rdmsr vcpu (controlFields m.rdmsr eptp vcpu f)
  let f := after (crControlWrites { vcpu with cr0 := initialCr0 m.rdmsr, cr4 := initialCr4 m.rdmsr }) f
  longmodeFields m.rdmsr vm (after (hostStateWrites m.host vcpu.hostRsp m.handler) f)

theorem after_append (a b : List (Nat × U64)) (f : Nat → U64) : after (a ++ b) f = after b (after a f) := by
  funext enc
  rw [after, after, after, lastWrite, lastWrite, lastWrite, List.foldl_append]

/-- What every value written and the value found satisfy, the value left satisfies. -/
theorem after_induction {P : U64 → Prop} {writes : List (Nat × U64)} {enc : Nat} {f : Nat → U64}
    (hw : ∀ w ∈ writes, enc = w.1 → P (stored w.1 w.2)) (hf : P (f enc)) : P (after writes f enc) := by
  induction writes generalizing f with
  | nil => exact hf
  | cons w writes ih =>
    rw [List.forall_mem_cons] at hw
    have hstep : after (w :: writes) f enc = after writes (after [w] f) enc := by
      rw [← after_append]
      rfl
    rw [hstep]
    refine ih hw.2 ?_
    change P (if enc = w.1 then stored w.1 w.2 else f enc)
    split
    · rename_i he
      exact hw.1 he
    · exact hf

theorem after_of_not_mem {writes : List (Nat × U64)} {enc : Nat} (h : enc ∉ writes.map Prod.fst) (f : Nat → U64) :
    after writes f enc = f enc := by
  induction writes generalizing f with
  | nil => rfl
  | cons w writes ih =>
    rw [List.map_cons, List.mem_cons, not_or] at h
    have hstep : after (w :: writes) f enc = after writes (after [w] f) enc := by
      rw [← after_append]
      rfl
    rw [hstep, ih h.2]
    exact if_neg h.1

end Fields

section Success

variable {m : Machine} {vm : Vm} {s t : Phase2}

/-- A call that returned 0 and changed nothing but the fields of the VMCS. -/
structure Wrote (g : (Nat → U64) → Nat → U64) (s t : Phase2) : Prop where
  vcpu : t.vcpu = s.vcpu
  ept : t.ept = s.ept
  supported : t.vmcs.supported = s.vmcs.supported
  fields : t.vmcs.fields = g s.vmcs.fields

theorem Wrote.trans {u : Phase2} {g g' : (Nat → U64) → Nat → U64} (h : Wrote g s t) (h' : Wrote g' t u) :
    Wrote (fun f => g' (g f)) s u :=
  ⟨h'.vcpu.trans h.vcpu, h'.ept.trans h.ept, h'.supported.trans h.supported, by rw [h'.fields, h.fields]⟩

theorem andThen_ok {r : Step} {k : Phase2 → Step} (h : andThen r k = (.ok (), t)) :
    ∃ s, r = (.ok (), s) ∧ k s = (.ok (), t) := by
  obtain ⟨e, s⟩ := r
  cases e with
  | error e => cases h
  | ok => exact ⟨s, rfl, h⟩

theorem orEio_ok {r : Step} (h : orEio r = (.ok (), t)) : r = (.ok (), t) := by
  obtain ⟨e, s⟩ := r
  cases e with
  | error e => cases h
  | ok => exact h

private theorem checkVmwrites_ok {writes : List (Nat × U64)} {v v' : Vmcs} (h : checkVmwrites writes v = (.ok (), v')) :
    v'.supported = v.supported ∧ ∀ enc ∈ writes.map Prod.fst, v.supported enc = true := by
  induction writes generalizing v with
  | nil =>
    cases h
    exact ⟨rfl, by simp⟩
  | cons w writes ih =>
    rw [checkVmwrites] at h
    split at h
    · cases h
    · rename_i u hu
      unfold Vmcs.vmwrite at hu
      split at hu
      · rename_i hs
        cases hu
        obtain ⟨hsup, hrest⟩ := ih h
        refine ⟨hsup, ?_⟩
        rw [List.map_cons, List.forall_mem_cons]
        exact ⟨hs, hrest⟩
      · cases hu

theorem vmwrites_ok {writes : List (Nat × U64)} (h : vmwrites writes s = (.ok (), t)) :
    Wrote (after writes) s t ∧ ∀ enc ∈ writes.map Prod.fst, s.vmcs.supported enc = true := by
  unfold vmwrites at h
  generalize hr : checkVmwrites writes s.vmcs = r at h
  obtain ⟨e, v⟩ := r
  obtain ⟨rfl, rfl⟩ := Prod.mk.inj h
  obtain ⟨hsup, hknown⟩ := checkVmwrites_ok hr
  exact ⟨⟨rfl, rfl, hsup, funext fun enc => checkVmwrites_fields hr enc⟩, hknown⟩

private theorem ite_vmwrites_ok {c : Bool} {writes : List (Nat × U64)}
    (h : (if c then vmwrites writes s else (.ok (), s)) = (.ok (), t)) : Wrote (after (if c then writes else [])) s t := by
  cases c with
  | true => exact (vmwrites_ok h).1
  | false =>
    obtain ⟨-, rfl⟩ := Prod.mk.inj h
    exact ⟨rfl, rfl, rfl, rfl⟩

private theorem writeMsrArea_ok {addrEnc : Nat} {pa count : U64}
    (h : writeMsrArea addrEnc (addrEnc + 1) pa count s = (.ok (), t)) : Wrote (areaFields addrEnc pa count) s t := by
  unfold writeMsrArea at h
  by_cases hc : (pa != 0 && decide (0 < count)) = true
  · rw [if_pos hc] at h
    split at h
    · cases h
    · rename_i v hv
      split at h
      · cases h
      · rename_i v' hv'
        obtain ⟨-, rfl⟩ := Prod.mk.inj h
        unfold Vmcs.vmwrite at hv
        unfold vmwriteHigh at hv'
        split at hv
        · obtain rfl := Option.some.inj hv
          split at hv'
          · obtain rfl := Option.some.inj hv'
            refine ⟨rfl, rfl, rfl, funext fun enc => ?_⟩
            rw [areaFields, if_pos hc]
            by_cases he : enc = addrEnc <;> simp [he]
          · cases hv'
        · cases hv
  · rw [if_neg hc] at h
    obtain ⟨-, rfl⟩ := Prod.mk.inj h
    exact ⟨rfl, rfl, rfl, funext fun enc => by rw [areaFields, if_neg hc]⟩

theorem initControls_ok {ept : EptState} (h : initControls m ept s = (.ok (), t)) :
    Wrote (controlFields m.rdmsr ept.ctx.eptp s.vcpu) s t ∧
      ∀ enc ∈ (execControlWrites m.rdmsr s.vcpu.controls).map Prod.fst, s.vmcs.supported enc = true := by
  unfold initControls at h
  obtain ⟨s1, h1, h⟩ := andThen_ok h
  obtain ⟨s2, h2, h⟩ := andThen_ok h
  obtain ⟨s3, h3, h⟩ := andThen_ok h
  obtain ⟨s4, h4, h⟩ := andThen_ok h
  obtain ⟨s5, h5, h⟩ := andThen_ok h
  obtain ⟨s6, h6, h⟩ := andThen_ok h
  obtain ⟨s7, h7, h⟩ := andThen_ok h
  obtain ⟨s8, h8, h⟩ := andThen_ok h
  have w1 := (vmwrites_ok h1).1
  obtain ⟨w2, known⟩ := vmwrites_ok (orEio_ok h2)
  have w12 := w1.trans w2
  have w3 := w12.trans (ite_vmwrites_ok h3)
  have w4 := w3.trans (ite_vmwrites_ok h4)
  have w5 := w4.trans (ite_vmwrites_ok h5)
  have w6 := w5.trans (writeMsrArea_ok h6)
  have w7 := w6.trans (writeMsrArea_ok h7)
  have w8 := w7.trans (writeMsrArea_ok h8)
  have w9 := w8.trans (vmwrites_ok h).1
  rw [w1.vcpu, w1.supported] at known
  refine ⟨?_, known⟩
  rw [w8.vcpu, w7.vcpu, w6.vcpu, w5.vcpu, w4.vcpu, w3.vcpu, w12.vcpu, w1.vcpu] at w9
  exact w9

private theorem apicVmcsSetup_ok {rdmsr : Rdmsr} (h : relmApicVmcsSetup rdmsr s = (.ok (), t))
    (known : s.vmcs.supported vmcsSecondaryProcBasedExecControls = true) :
    t.ept = s.ept ∧ t.vmcs.supported = s.vmcs.supported ∧ t.vmcs.fields = apicFields rdmsr s.vcpu s.vmcs.fields ∧
      ∃ b, t.vcpu = { s.vcpu with apicRegVirtSupported := b } := by
  unfold relmApicVmcsSetup at h
  split at h
  · cases h
  obtain ⟨u, hu, h⟩ := andThen_ok h
  have w := (vmwrites_ok hu).1
  by_cases hc : (allowed1 (rdmsr msrIa32VmxProcbasedCtls2) &&& vmcsProc2VirtualizeApicAccesses == 0) = true
  · rw [if_pos hc] at h
    obtain ⟨-, rfl⟩ := Prod.mk.inj h
    refine ⟨w.ept, w.supported, ?_, ⟨false, by rw [w.vcpu]⟩⟩
    rw [apicFields, if_pos hc]
    exact w.fields
  · rw [if_neg hc] at h
    obtain ⟨u', hu', h⟩ := andThen_ok h
    obtain ⟨-, rfl⟩ := Prod.mk.inj h
    have w' := w.trans (vmwrites_ok hu').1
    refine ⟨w'.ept, w'.supported, ?_, ⟨_, by rw [w'.vcpu]⟩⟩
    have hread : u.vmcs.vmread vmcsSecondaryProcBasedExecControls =
        after (apicWrites s.vcpu) s.vmcs.fields vmcsSecondaryProcBasedExecControls := by
      rw [Vmcs.vmread, w.supported, if_pos known, w.fields]
    rw [apicFields, if_neg hc, ← hread]
    exact w'.fields

private theorem apicEptSetup_ok (h : relmApicEptSetup s = (.ok (), t)) {ept : EptState} (hept : s.ept = some ept) :
    (relmEptMapPage ept apicDefaultBase s.vcpu.apicAccessPagePa eptApicFlags).ret = .ok () ∧
      t = { s with ept := some (relmEptMapPage ept apicDefaultBase s.vcpu.apicAccessPagePa eptApicFlags).next } := by
  unfold relmApicEptSetup at h
  rw [hept] at h
  dsimp only at h
  split at h
  · cases h
  · obtain ⟨hret, rfl⟩ := Prod.mk.inj h
    exact ⟨hret, rfl⟩

private theorem setupHostState_ok (h : setupHostState m s = (.ok (), t)) :
    Wrote (after (hostStateWrites m.host s.vcpu.hostRsp m.handler)) s t := by
  unfold setupHostState at h
  generalize hr : relmSetupHostState m.host s.vcpu.hostRsp m.handler s.vmcs = r at h
  obtain ⟨e, v⟩ := r
  obtain ⟨rfl, rfl⟩ := Prod.mk.inj h
  refine ⟨rfl, rfl, ?_, funext fun enc => setupHostState_fields hr enc⟩
  unfold relmSetupHostState at hr
  split at hr
  · cases hr
  · rename_i u hu
    split at hr
    · cases hr
    · exact (checkVmwrites_ok hr).1.trans (checkVmwrites_ok hu).1

/-- What the VCPU holds when phase 2 is over. -/
def started (rdmsr : Rdmsr) (vm : Vm) (vcpu : Vcpu) (regVirt : Bool) : Vcpu :=
  { vcpu with
    apicRegVirtSupported := regVirt, cr0 := initialCr0 rdmsr, cr3 := vm.pml4Gpa, cr4 := initialCr4 rdmsr,
    efer := longModeEfer, xcr0 := 0, rip := vm.kernelEntryGpa, rsi := vm.bootParamsGpa, rsp := initialRsp vm,
    rflags := 0x2#64 }

private theorem longmode_ok {rdmsr : Rdmsr} (h : relmSetupGuestStateLongmode rdmsr vm s = (.ok (), t))
    (known : s.vmcs.supported vmcsEntryControls = true) :
    t.ept = s.ept ∧ t.vmcs.supported = s.vmcs.supported ∧ t.vmcs.fields = longmodeFields rdmsr vm s.vmcs.fields ∧
      t.vcpu = started rdmsr vm s.vcpu s.vcpu.apicRegVirtSupported ∧
      vm.pml4Gpa ≠ 0 ∧ vm.kernelEntryGpa ≠ 0 ∧ vm.bootParamsGpa ≠ 0 := by
  unfold relmSetupGuestStateLongmode at h
  obtain ⟨s1, h1, h⟩ := andThen_ok h
  split at h
  · cases h
  rename_i hpml4
  obtain ⟨s2, h2, h⟩ := andThen_ok h
  obtain ⟨s3, h3, h⟩ := andThen_ok h
  obtain ⟨s4, h4, h⟩ := andThen_ok h
  obtain ⟨s5, h5, h⟩ := andThen_ok h
  split at h
  · cases h
  rename_i hrip
  obtain ⟨s6, h6, h⟩ := andThen_ok h
  split at h
  · cases h
  rename_i hrsi
  obtain ⟨s7, h7, h⟩ := andThen_ok h
  have w1 := (vmwrites_ok h1).1
  have w2 := (vmwrites_ok h2).1
  have w3 := (vmwrites_ok h3).1
  have w4 := (vmwrites_ok h4).1
  have w5 := (vmwrites_ok h5).1
  have w6 := (vmwrites_ok h6).1
  obtain ⟨w7, known7⟩ := vmwrites_ok h7
  have w8 := (vmwrites_ok h).1
  have hentry : s.vmcs.vmread vmcsEntryControls = s.vmcs.fields vmcsEntryControls := if_pos known
  have hrsp : s7.vmcs.vmread guestRsp = initialRsp vm := by
    have hs : s7.vmcs.supported guestRsp = true := by
      rw [w7.supported]
      exact known7 guestRsp (by simp)
    rw [Vmcs.vmread, if_pos hs, w7.fields]
    exact stored_natural guestRsp (by decide) _
  refine ⟨?_, ?_, ?_, ?_, by simpa using hpml4, by simpa using hrip, by simpa using hrsi⟩
  · exact w8.ept.trans (w7.ept.trans (w6.ept.trans (w5.ept.trans (w4.ept.trans (w3.ept.trans (w2.ept.trans w1.ept))))))
  · exact w8.supported.trans (w7.supported.trans (w6.supported.trans (w5.supported.trans (w4.supported.trans
      (w3.supported.trans (w2.supported.trans w1.supported))))))
  · rw [w8.fields, w7.fields, w6.fields, w5.fields, w4.fields, w3.fields, w2.fields, w1.fields, hentry, longmodeFields, longmodeWrites]
    simp only [← after_append]
    rfl
  · rw [w8.vcpu, hrsp, w7.vcpu, w6.vcpu, w5.vcpu, w4.vcpu, w3.vcpu, w2.vcpu, w1.vcpu]
    rfl

/-- What a call of `vmx_vcpu_init` that returns 0 has done. -/
structure Initialised (m : Machine) (vm : Vm) (s t : Phase2) : Prop where
  fields : ∃ ept, s.ept = some ept ∧ t.vmcs.fields = initFields m vm ept.ctx.eptp s.vcpu s.vmcs.fields ∧
    (relmEptMapPage ept apicDefaultBase s.vcpu.apicAccessPagePa eptApicFlags).ret = .ok () ∧
    t.ept = some (relmEptMapPage ept apicDefaultBase s.vcpu.apicAccessPagePa eptApicFlags).next
  vcpu : ∃ regVirt, t.vcpu = started m.rdmsr vm s.vcpu regVirt
  supported : t.vmcs.supported = s.vmcs.supported
  pml4 : vm.pml4Gpa ≠ 0
  entry : vm.kernelEntryGpa ≠ 0
  bootParams : vm.bootParamsGpa ≠ 0

theorem vmxVcpuInit_ok (h : vmxVcpuInit m vm s = (.ok (), t)) : Initialised m vm s t := by
  unfold vmxVcpuInit at h
  obtain ⟨s1, h1, h⟩ := andThen_ok h
  obtain ⟨s2, h2, h⟩ := andThen_ok h
  have hs1 : s1 = s := by
    unfold relmVmclear at h1
    split at h1
    · cases h1
    split at h1
    · exact (Prod.mk.inj h1).2.symm
    · cases h1
  have hs2 : s2 = s1 := by
    unfold relmVmptrld at h2
    split at h2
    · cases h2
    split at h2
    · exact (Prod.mk.inj h2).2.symm
    · cases h2
  rw [hs2, hs1] at h
  cases hept : s.ept with
  | none =>
    simp only [hept] at h
    cases h
  | some ept =>
    simp only [hept] at h
    obtain ⟨s3, h3, h⟩ := andThen_ok h
    obtain ⟨s4, h4, h⟩ := andThen_ok h
    obtain ⟨s5, h5, h⟩ := andThen_ok h
    obtain ⟨s6, h6, h⟩ := andThen_ok h
    obtain ⟨s7, h7, h⟩ := andThen_ok h
    obtain ⟨w3, known⟩ := initControls_ok h3
    obtain ⟨e4, u4, f4, regVirt, v4⟩ := apicVmcsSetup_ok (orEio_ok h4) (by
      rw [w3.supported]
      exact known vmcsSecondaryProcBasedExecControls (by simp [execControlWrites]))
    obtain ⟨hret, h5⟩ := apicEptSetup_ok (orEio_ok h5) (e4.trans (w3.ept.trans hept))
    rw [v4, w3.vcpu] at hret h5
    have e5 := congrArg Phase2.ept h5
    have v5 := congrArg Phase2.vcpu h5
    have u5 := congrArg (fun x => x.vmcs.supported) h5
    have f5 := congrArg (fun x => x.vmcs.fields) h5
    dsimp only at e5 v5 u5 f5
    have w6 := (vmwrites_ok (orEio_ok h6)).1
    have w7 := setupHostState_ok (orEio_ok h7)
    obtain ⟨e8, u8, f8, v8, hpml4, hentry, hboot⟩ := longmode_ok (orEio_ok h) (by
      rw [w7.supported, w6.supported, u5, u4, w3.supported]
      exact known vmcsEntryControls (by simp [execControlWrites]))
    refine ⟨⟨ept, hept, ?_, hret, ?_⟩, ⟨regVirt, ?_⟩, ?_, hpml4, hentry, hboot⟩
    · rw [f8, w7.fields, w6.fields, w6.vcpu, f5, v5, f4, w3.fields, w3.vcpu]
      rfl
    · rw [e8, w7.ept, w6.ept, e5]
    · rw [v8, w7.vcpu, w6.vcpu, v5]
      rfl
    · rw [u8, w7.supported, w6.supported, u5, u4, w3.supported]

end Success

section Complete

/-- The call returns 0 and leaves a state of a kind. -/
def Passes (Q : Phase2 → Prop) (r : Step) : Prop := ∃ t, r = (.ok (), t) ∧ Q t

/-- A processor with every field, the EPT and the pages that phase 2 needs. -/
structure Equipped (ept : Option EptState) (access : U64) (s : Phase2) : Prop where
  supported : ∀ enc, s.vmcs.supported enc = true
  ept : s.ept = ept
  vapicPage : s.vcpu.vapicPagePa ≠ 0
  accessPage : s.vcpu.apicAccessPagePa = access

variable {m : Machine} {vm : Vm} {s : Phase2} {r : Step} {k : Phase2 → Step} {Q Q' : Phase2 → Prop} {ept : Option EptState}
  {access : U64}

private theorem Passes.andThen (h : Passes Q r) (hk : ∀ t, Q t → Passes Q' (k t)) : Passes Q' (andThen r k) := by
  obtain ⟨t, rfl, hq⟩ := h
  exact hk t hq

private theorem Passes.orEio (h : Passes Q r) : Passes Q (orEio r) := by
  obtain ⟨t, rfl, hq⟩ := h
  exact ⟨t, rfl, hq⟩

private theorem checkVmwrites_all (writes : List (Nat × U64)) {v : Vmcs} (h : ∀ enc, v.supported enc = true) :
    ∃ v', checkVmwrites writes v = (.ok (), v') ∧ v'.supported = v.supported := by
  induction writes generalizing v with
  | nil => exact ⟨v, rfl, rfl⟩
  | cons w writes ih =>
    rw [checkVmwrites, Vmcs.vmwrite, if_pos (h w.1)]
    exact ih h

private theorem Equipped.vmwrites (h : Equipped ept access s) (writes : List (Nat × U64)) :
    Passes (Equipped ept access) (vmwrites writes s) := by
  obtain ⟨v, hv, hs⟩ := checkVmwrites_all writes h.supported
  exact ⟨{ s with vmcs := v }, by rw [VcpuInit.vmwrites, hv], fun enc => by rw [hs]; exact h.supported enc, h.ept, h.vapicPage,
    h.accessPage⟩

private theorem Equipped.done (h : Equipped ept access s) : Passes (Equipped ept access) (.ok (), s) := ⟨s, rfl, h⟩

private theorem Equipped.ite (h : Equipped ept access s) (c : Bool) (writes : List (Nat × U64)) :
    Passes (Equipped ept access) (if c then VcpuInit.vmwrites writes s else (.ok (), s)) := by
  cases c with
  | true => exact h.vmwrites writes
  | false => exact h.done

private theorem Equipped.msrArea (h : Equipped ept access s) (addrEnc countEnc : Nat) (pa count : U64) :
    Passes (Equipped ept access) (writeMsrArea addrEnc countEnc pa count s) := by
  unfold writeMsrArea
  split
  · simp only [Vmcs.vmwrite, vmwriteHigh, h.supported, if_true]
    exact ⟨_, rfl, h.supported, h.ept, h.vapicPage, h.accessPage⟩
  · exact h.done

/-- The fields before the APIC. -/
private theorem Equipped.controls (h : Equipped ept access s) (e : EptState) :
    Passes (Equipped ept access) (initControls m e s) := by
  unfold initControls
  refine (h.vmwrites _).andThen fun s h => (h.vmwrites _).orEio.andThen fun s h => (h.ite _ _).andThen fun s h => ?_
  refine (h.ite _ _).andThen fun s h => (h.ite _ _).andThen fun s h => (h.msrArea _ _ _ _).andThen fun s h => ?_
  exact (h.msrArea _ _ _ _).andThen fun s h => (h.msrArea _ _ _ _).andThen fun s h => h.vmwrites _

private theorem Equipped.apic (h : Equipped ept access s) (haccess : access ≠ 0) (rdmsr : Rdmsr) :
    Passes (Equipped ept access) (relmApicVmcsSetup rdmsr s) := by
  have hpages : ¬ (s.vcpu.vapicPagePa == 0 || s.vcpu.apicAccessPagePa == 0) = true := by
    rw [h.accessPage, Bool.or_eq_true, beq_iff_eq, beq_iff_eq]
    exact not_or_intro h.vapicPage haccess
  rw [relmApicVmcsSetup, if_neg hpages]
  refine (h.vmwrites _).andThen fun s h => ?_
  dsimp only
  split
  · exact ⟨_, rfl, h.supported, h.ept, h.vapicPage, h.accessPage⟩
  · exact (h.vmwrites _).andThen fun s h => ⟨_, rfl, h.supported, h.ept, h.vapicPage, h.accessPage⟩

private theorem Equipped.host (h : Equipped ept access s) (htr : m.host.tr ≠ 0) :
    Passes (Equipped ept access) (setupHostState m s) := by
  obtain ⟨v, hv, hs⟩ := checkVmwrites_all (writesBeforeTr m.host s.vcpu.hostRsp m.handler) h.supported
  obtain ⟨v', hv', hs'⟩ := checkVmwrites_all (writesAfterTr m.host) (v := v) (hs ▸ h.supported)
  have htr' : ¬ (m.host.tr == 0) = true := fun hc => htr (beq_iff_eq.mp hc)
  refine ⟨{ s with vmcs := v' }, ?_, fun enc => by rw [hs', hs]; exact h.supported enc, h.ept, h.vapicPage, h.accessPage⟩
  rw [setupHostState, relmSetupHostState, hv]
  dsimp only
  rw [if_neg htr', hv']

end Complete

section Reads

variable {m : Machine} {vm : Vm} {eptp : U64} {vcpu : Vcpu} {rdmsr : Rdmsr} {f : Nat → U64} {enc : Nat}

/-- The encodings that each part writes, in the order of the writes. -/
def apicEncs : List Nat := [vmcsVirtualApicPageAddr, vmcsApicAccessAddr, vmcsTprThreshold]

def crControlEncs : List Nat :=
  [guestCr0, guestCr4, guestCr3, cr0ReadShadow, cr4ReadShadow, cr0GuestHostMask, cr4GuestHostMask]

def hostEncs : List Nat :=
  [hostCr0, hostCr3, hostCr4, hostRsp, hostRip, hostCsSelector, hostSsSelector, hostDsSelector, hostEsSelector,
    hostFsSelector, hostGsSelector, hostTrSelector, hostTrBase, hostGdtrBase, hostIdtrBase, vmcsLinkPointer, hostFsBase,
    hostGsBase, hostSysenterCs, hostSysenterEsp, hostSysenterEip, hostIa32Efer, hostIa32Pat]

def longmodeEncs : List Nat := (longmodeWrites (fun _ => 0) ⟨0, 0, 0, 0⟩ 0).map Prod.fst

private theorem initFields_early (h : enc ∉ apicEncs ++ (crControlEncs ++ (hostEncs ++ longmodeEncs)))
    (hs : enc ≠ vmcsSecondaryProcBasedExecControls) :
    initFields m vm eptp vcpu f enc = controlFields m.rdmsr eptp vcpu f enc := by
  simp only [List.mem_append, not_or] at h
  obtain ⟨hapic, hcr, hhost, hlong⟩ := h
  have hapic : enc ∉ (apicWrites vcpu).map Prod.fst := hapic
  have hcr : enc ∉ (crControlWrites { vcpu with cr0 := initialCr0 m.rdmsr, cr4 := initialCr4 m.rdmsr }).map Prod.fst := hcr
  have hhost : enc ∉ (hostStateWrites m.host vcpu.hostRsp m.handler).map Prod.fst := hhost
  have hlong : ∀ entry, enc ∉ (longmodeWrites m.rdmsr vm entry).map Prod.fst := fun _ => hlong
  rw [initFields, longmodeFields, after_of_not_mem (hlong _), after_of_not_mem hhost, after_of_not_mem hcr, apicFields]
  split
  · exact after_of_not_mem hapic _
  · rw [after_of_not_mem (by simpa using hs), after_of_not_mem hapic]

private theorem areaFields_ne {addrEnc : Nat} {pa count : U64} (h : enc ≠ addrEnc) : areaFields addrEnc pa count f enc = f enc := by
  rw [areaFields, if_neg h, ite_self]

private theorem after_ite {c : Bool} {writes : List (Nat × U64)} (h : enc ∉ writes.map Prod.fst) :
    after (if c then writes else []) f enc = f enc := by
  cases c with
  | true => exact after_of_not_mem h f
  | false => rfl

/-- The fields that the optional parts write. -/
def optionalEncs : List Nat :=
  [vmcsVpid, vmcsIoBitmapA, vmcsIoBitmapB, vmcsMsrBitmap, vmcsExitMsrStoreAddr, vmcsExitMsrLoadAddr, vmcsEntryMsrLoadAddr]

private theorem controlFields_exec (h : enc ∉ optionalEncs) (h' : enc ∉ [vmcsExceptionBitmap, cr3TargetCount]) :
    controlFields rdmsr eptp vcpu f enc =
      after (execControlWrites rdmsr vcpu.controls) (after [(eptPointer, eptp)] f) enc := by
  simp only [optionalEncs, List.mem_cons, List.not_mem_nil, or_false, not_or] at h
  obtain ⟨hv, ha, hb, hm, hs, hl, he⟩ := h
  rw [controlFields, after_of_not_mem h', areaFields_ne he, areaFields_ne hl, areaFields_ne hs, after_ite (by simpa using hm),
    after_ite (by simpa using ⟨ha, hb⟩), after_ite (by simpa using hv)]

/-- The bitmaps are written between the VPID and the MSR areas. -/
private theorem controlFields_bitmap (h : enc ∉ [vmcsVpid, vmcsExitMsrStoreAddr, vmcsExitMsrLoadAddr, vmcsEntryMsrLoadAddr])
    (h' : enc ∉ [vmcsExceptionBitmap, cr3TargetCount]) (he : enc ∉ (execControlWrites rdmsr vcpu.controls).map Prod.fst)
    (hp : enc ∉ [eptPointer]) : controlFields rdmsr eptp vcpu f enc =
      after (if vcpu.controls.primaryProc &&& vmcsProcUseMsrBitmaps != 0 && vcpu.msrBitmapPa != 0 then
        [(vmcsMsrBitmap, vcpu.msrBitmapPa)] else [])
      (after (if vcpu.controls.primaryProc &&& vmcsProcUseIoBitmaps != 0 && vcpu.ioBitmapPa != 0 then
        [(vmcsIoBitmapA, vcpu.ioBitmapPa), (vmcsIoBitmapB, vcpu.ioBitmapPa + 4096)] else []) fun _ => f enc) enc := by
  simp only [List.mem_cons, List.not_mem_nil, or_false, not_or] at h
  obtain ⟨hv, hs, hl, hm⟩ := h
  rw [controlFields, after_of_not_mem h', areaFields_ne hm, areaFields_ne hl, areaFields_ne hs]
  have hbefore : after (if cpuHasVpid rdmsr then [(vmcsVpid, vcpu.vpid.setWidth 64)] else [])
      (after (execControlWrites rdmsr vcpu.controls) (after [(eptPointer, eptp)] f)) enc = f enc := by
    rw [after_ite (by simpa using hv), after_of_not_mem he, after_of_not_mem hp]
  rw [after, after, hbefore]
  rfl

/-- The APIC page addresses and the TPR threshold are final once written. -/
private theorem initFields_apic (h : enc ∉ crControlEncs ++ (hostEncs ++ longmodeEncs))
    (hs : enc ≠ vmcsSecondaryProcBasedExecControls) : initFields m vm eptp vcpu f enc =
      after (apicWrites vcpu) (controlFields m.rdmsr eptp vcpu f) enc := by
  simp only [List.mem_append, not_or] at h
  obtain ⟨hcr, hhost, hlong⟩ := h
  have hcr : enc ∉ (crControlWrites { vcpu with cr0 := initialCr0 m.rdmsr, cr4 := initialCr4 m.rdmsr }).map Prod.fst := hcr
  have hhost : enc ∉ (hostStateWrites m.host vcpu.hostRsp m.handler).map Prod.fst := hhost
  have hlong : ∀ entry, enc ∉ (longmodeWrites m.rdmsr vm entry).map Prod.fst := fun _ => hlong
  rw [initFields, longmodeFields, after_of_not_mem (hlong _), after_of_not_mem hhost, after_of_not_mem hcr, apicFields]
  split
  · rfl
  · exact after_of_not_mem (by simpa using hs) _

end Reads

section Checks

/-- Controls that must be 1 are, and controls that must be 0 are not. -/
def Allowed (msr value : U64) : Prop :=
  Within (allowed0 msr) (value.setWidth 32) ∧ Within (value.setWidth 32) (allowed1 msr)

/-- The bits of a control register that VMX operation fixes have their values. -/
def Fixed (fixed0 fixed1 value : U64) : Prop := Within fixed0 value ∧ Within value fixed1

def PageAligned (a : U64) : Prop := a &&& 0xFFF#64 = 0

/-- Canonical for 48 bits of linear address. -/
def Canonical (a : U64) : Prop := a.toNat < 2 ^ 47 ∨ 2 ^ 64 - 2 ^ 47 ≤ a.toNat

/-- An EPT pointer: uncacheable or write-back, four levels, reserved bits clear, below the physical-address width. -/
def EptpValid (width : Nat) (eptp : U64) : Prop :=
  (eptp &&& 7#64 = 0 ∨ eptp &&& 7#64 = 6#64) ∧ eptp &&& 0x38#64 = 3#64 <<< 3 ∧ eptp &&& 0xF80#64 = 0 ∧ eptp.toNat < 2 ^ width

/-- Every byte of a PAT is a memory type. -/
def PatValid (pat : U64) : Prop := ∀ i < 8, (pat >>> (8 * i)) &&& 0xFF#64 ∈ [0#64, 1#64, 4#64, 5#64, 6#64, 7#64]

/-- The secondary controls count only when the primary ones activate them. -/
def secondary (f : Nat → U64) : U64 :=
  if (f vmcsPrimaryProcBasedExecControls).getLsbD 31 then f vmcsSecondaryProcBasedExecControls else 0

/-- Architectural encodings of the counts of the MSR areas and of the VM-function controls. -/
def exitMsrStoreCount : Nat := 0x400E
def exitMsrLoadCount : Nat := 0x4010
def entryMsrLoadCount : Nat := 0x4014
def vmFunctionControls : Nat := 0x2018

def guestDr7 : Nat := 0x681a
def guestIa32Debugctl : Nat := 0x2802
def guestSysenterEsp : Nat := 0x6824
def guestSysenterEip : Nat := 0x6826

/-- The checks of VM entry on the control fields. -/
structure ControlChecks (rdmsr : Rdmsr) (width : Nat) (f : Nat → U64) : Prop where
  pin : Allowed (rdmsr msrIa32VmxPinbasedCtls) (f vmcsPinBasedExecControls)
  primary : Allowed (rdmsr msrIa32VmxProcbasedCtls) (f vmcsPrimaryProcBasedExecControls)
  secondary : (f vmcsPrimaryProcBasedExecControls).getLsbD 31 = true →
    Allowed (rdmsr msrIa32VmxProcbasedCtls2) (f vmcsSecondaryProcBasedExecControls)
  exit : Allowed (rdmsr msrIa32VmxExitCtls) (f vmcsExitControls)
  entry : Allowed (rdmsr msrIa32VmxEntryCtls) (f vmcsEntryControls)
  cr3Targets : (f cr3TargetCount).toNat ≤ 4
  virtualNmis : (f vmcsPinBasedExecControls).getLsbD 5 = true → (f vmcsPinBasedExecControls).getLsbD 3 = true
  ioBitmaps : (f vmcsPrimaryProcBasedExecControls).getLsbD 25 = true →
    PageAligned (f vmcsIoBitmapA) ∧ PageAligned (f vmcsIoBitmapB)
  msrBitmap : (f vmcsPrimaryProcBasedExecControls).getLsbD 28 = true → PageAligned (f vmcsMsrBitmap)
  tprShadow : (f vmcsPrimaryProcBasedExecControls).getLsbD 21 = true →
    PageAligned (f vmcsVirtualApicPageAddr) ∧ (f vmcsTprThreshold).toNat < 16
  noTprShadow : (f vmcsPrimaryProcBasedExecControls).getLsbD 21 = false →
    ∀ i ∈ [4, 8, 9], (VcpuInit.secondary f).getLsbD i = false
  apicAccess : (VcpuInit.secondary f).getLsbD 0 = true →
    PageAligned (f vmcsApicAccessAddr) ∧ (VcpuInit.secondary f).getLsbD 4 = false
  vpid : (VcpuInit.secondary f).getLsbD 5 = true → f vmcsVpid ≠ 0
  ept : (VcpuInit.secondary f).getLsbD 1 = true → EptpValid width (f eptPointer)
  unrestricted : (VcpuInit.secondary f).getLsbD 7 = true → (VcpuInit.secondary f).getLsbD 1 = true
  msrAreas : ∀ a ∈ [(exitMsrStoreCount, vmcsExitMsrStoreAddr), (exitMsrLoadCount, vmcsExitMsrLoadAddr),
    (entryMsrLoadCount, vmcsEntryMsrLoadAddr)], f a.1 ≠ 0 → f a.2 &&& 0xF#64 = 0
  vmFunctions : (VcpuInit.secondary f).getLsbD 13 = true → f vmFunctionControls = 0
  hostMode : (f vmcsExitControls).getLsbD 9 = true

/-- Limit and granularity of a segment. -/
def LimitFits (limit ar : U64) : Prop :=
  (limit &&& 0xFFF#64 = 0xFFF#64 ∨ ar.getLsbD 15 = false) ∧ (limit >>> 20 = 0 ∨ ar.getLsbD 15 = true)

/-- A usable data segment: accessed and writable, present, as privileged as its selector, reserved bits clear. -/
structure DataSegment (f : Nat → U64) (sel base limit ar : Nat) : Prop where
  type : f ar &&& 0xF#64 = 3#64
  code : (f ar).getLsbD 4 = true
  dpl : (f ar >>> 5) &&& 3#64 = f sel &&& 3#64
  present : (f ar).getLsbD 7 = true
  reserved : f ar &&& 0xFFFE0F00#64 = 0
  usable : (f ar).getLsbD 16 = false
  limit : LimitFits (f limit) (f ar)
  base : Canonical (f base) ∧ f base >>> 32 = 0

/-- The checks of VM entry on the guest state of a 64-bit guest. -/
structure GuestChecks (rdmsr : Rdmsr) (width : Nat) (f : Nat → U64) : Prop where
  cr0 : Fixed (rdmsr msrIa32VmxCr0Fixed0) (rdmsr msrIa32VmxCr0Fixed1) (f guestCr0)
  cr4 : Fixed (rdmsr msrIa32VmxCr4Fixed0) (rdmsr msrIa32VmxCr4Fixed1) (f guestCr4)
  longMode : (f vmcsEntryControls).getLsbD 9 = true
  paging : (f guestCr0).getLsbD 31 = true ∧ (f guestCr0).getLsbD 0 = true ∧ (f guestCr4).getLsbD 5 = true
  cr3 : (f guestCr3).toNat < 2 ^ width
  debug : f guestDr7 >>> 32 = 0 ∧ f guestIa32Debugctl = 0
  pat : PatValid (f guestIa32Pat)
  efer : f guestIa32Efer &&& ~~~(eferLme ||| eferLma ||| eferSce ||| 1#64 <<< 11) = 0 ∧
    (f guestIa32Efer).getLsbD 10 = true ∧ (f guestIa32Efer).getLsbD 8 = true
  code : f guestCsArBytes &&& 0x1F#64 = 0x1B#64 ∧ (f guestCsArBytes).getLsbD 7 = true ∧
    (f guestCsArBytes).getLsbD 13 = true ∧ (f guestCsArBytes).getLsbD 14 = false ∧ f guestCsArBytes &&& 0xFFFE0F00#64 = 0 ∧
    (f guestCsArBytes >>> 5) &&& 3#64 = (f guestSsArBytes >>> 5) &&& 3#64 ∧ LimitFits (f guestCsLimit) (f guestCsArBytes) ∧
    f guestCsBase >>> 32 = 0
  rpl : f guestSsSelector &&& 3#64 = f guestCsSelector &&& 3#64
  ss : DataSegment f guestSsSelector guestSsBase guestSsLimit guestSsArBytes
  ds : DataSegment f guestDsSelector guestDsBase guestDsLimit guestDsArBytes
  es : DataSegment f guestEsSelector guestEsBase guestEsLimit guestEsArBytes
  fs : DataSegment f guestFsSelector guestFsBase guestFsLimit guestFsArBytes
  gs : DataSegment f guestGsSelector guestGsBase guestGsLimit guestGsArBytes
  ldtr : (f guestLdtrArBytes).getLsbD 16 = true
  tr : f guestTrArBytes &&& 0x1F#64 = 0xB#64 ∧ (f guestTrArBytes).getLsbD 7 = true ∧ (f guestTrArBytes).getLsbD 16 = false ∧
    f guestTrArBytes &&& 0xFFFE0F00#64 = 0 ∧ LimitFits (f guestTrLimit) (f guestTrArBytes) ∧
    (f guestTrSelector).getLsbD 2 = false ∧ Canonical (f guestTrBase)
  tables : Canonical (f guestGdtrBase) ∧ (f guestGdtrLimit).toNat < 2 ^ 16 ∧ Canonical (f guestIdtrBase) ∧
    (f guestIdtrLimit).toNat < 2 ^ 16
  rip : Canonical (f guestRip)
  sysenter : Canonical (f guestSysenterEsp) ∧ Canonical (f guestSysenterEip)
  rflags : f guestRflags &&& 0xFFFFFFFFFFC0802A#64 = 2#64 ∧ (f guestRflags).getLsbD 17 = false
  nonRegister : f guestActivityState = 0 ∧ f guestInterruptibilityInfo = 0 ∧ f guestPendingDbgExceptions = 0 ∧
    f vmcsLinkPointer = 0xFFFFFFFFFFFFFFFF#64

/-- What is documented of the capability MSRs of a 64-bit processor with VMX. -/
structure Processor where
  rdmsr : Rdmsr
  width : Nat
  width_ge : 32 ≤ width
  controls : ∀ msr ∈ [msrIa32VmxPinbasedCtls, msrIa32VmxProcbasedCtls, msrIa32VmxExitCtls, msrIa32VmxEntryCtls],
    Within (allowed0 (rdmsr msr)) (allowed1 (rdmsr msr))
  secondary : allowed0 (rdmsr msrIa32VmxProcbasedCtls2) = 0
  cr0 : Within (rdmsr msrIa32VmxCr0Fixed0) (rdmsr msrIa32VmxCr0Fixed1)
  cr4 : Within (rdmsr msrIa32VmxCr4Fixed0) (rdmsr msrIa32VmxCr4Fixed1)
  paging : (rdmsr msrIa32VmxCr0Fixed1).getLsbD 31 = true ∧ (rdmsr msrIa32VmxCr0Fixed1).getLsbD 0 = true ∧
    (rdmsr msrIa32VmxCr4Fixed1).getLsbD 5 = true
  longMode : (allowed1 (rdmsr msrIa32VmxEntryCtls)).getLsbD 9 = true ∧ (allowed1 (rdmsr msrIa32VmxExitCtls)).getLsbD 9 = true
  nmis : (allowed1 (rdmsr msrIa32VmxPinbasedCtls)).getLsbD 5 = true →
    (allowed1 (rdmsr msrIa32VmxPinbasedCtls)).getLsbD 3 = true
  registerVirt : (allowed1 (rdmsr msrIa32VmxProcbasedCtls2)).getLsbD 8 = true →
    (allowed1 (rdmsr msrIa32VmxProcbasedCtls)).getLsbD 21 = true
  unrestricted : (allowed1 (rdmsr msrIa32VmxProcbasedCtls2)).getLsbD 7 = true →
    (allowed1 (rdmsr msrIa32VmxProcbasedCtls2)).getLsbD 1 = true
  pat : PatValid (rdmsr msrIa32CrPat)

/-- What phase 1 and the boot loader leave. -/
structure Ready (p : Processor) (vm : Vm) (vcpu : Vcpu) (ept : EptState) : Prop where
  controls : vcpu.controls = relmInitExecControls p.rdmsr
  vpid : vcpu.vpid ≠ 0
  ioBitmap : PageAligned vcpu.ioBitmapPa
  msrBitmap : PageAligned vcpu.msrBitmapPa
  vapicPage : PageAligned vcpu.vapicPagePa
  apicAccessPage : PageAligned vcpu.apicAccessPagePa
  eptp : ∃ pml4, ept.ctx.eptp = constructEptp pml4 eptpMemtypeWb false ∧ pml4.toNat < 2 ^ p.width
  cr3 : vm.pml4Gpa.toNat < 2 ^ p.width
  rip : vm.kernelEntryGpa.toNat < 2 ^ 47

end Checks

section Bits

private theorem setWidth_setWidth (x : U32) : (x.setWidth 64).setWidth 32 = x := by
  refine BitVec.eq_of_getLsbD_eq fun i hi => ?_
  simp [hi]

private theorem toNat_widen {w : Nat} (x : BitVec w) (hw : w ≤ 64) : (x.setWidth 64).toNat = x.toNat := by
  rw [BitVec.toNat_setWidth, Nat.mod_eq_of_lt (Nat.lt_of_lt_of_le x.isLt (Nat.pow_le_pow_right (by decide) hw))]

/-- A field keeps a value of its own width. -/
private theorem stored_widen {w : Nat} (enc : Nat) (h : fieldWidth enc = w) (hw : w ≤ 64) (x : BitVec w) :
    stored enc (x.setWidth 64) = x.setWidth 64 := by
  rw [stored, h, toNat_widen x hw, Nat.mod_eq_of_lt x.isLt]
  refine BitVec.eq_of_toNat_eq ?_
  rw [BitVec.toNat_ofNat, toNat_widen x hw]
  exact Nat.mod_eq_of_lt (Nat.lt_of_lt_of_le x.isLt (Nat.pow_le_pow_right (by decide) hw))

private theorem adjust_allowed {msr : U64} (req : U32) (h : Within (allowed0 msr) (allowed1 msr)) :
    Allowed msr ((vmxAdjust req (allowed0 msr) (allowed1 msr)).setWidth 64) := by
  rw [Allowed, setWidth_setWidth]
  exact ⟨h.forced req, within_and _ _⟩

/-- What the APIC adds to the secondary controls is allowed. -/
private theorem apicSecondary_eq {rdmsr : Rdmsr} (current : U32)
    (h : ¬ (allowed1 (rdmsr msrIa32VmxProcbasedCtls2) &&& vmcsProc2VirtualizeApicAccesses == 0) = true) :
    ∃ extra, apicSecondary rdmsr current = current ||| extra ∧ Within extra (allowed1 (rdmsr msrIa32VmxProcbasedCtls2)) ∧
      Within extra 0x101#32 := by
  have haccess : Within vmcsProc2VirtualizeApicAccesses (allowed1 (rdmsr msrIa32VmxProcbasedCtls2)) :=
    within_of_and_ne_zero fun hz => h (beq_iff_eq.mpr hz)
  rw [apicSecondary]
  by_cases hv : (allowed1 (rdmsr msrIa32VmxProcbasedCtls2) &&& vmcsProc2ApicRegisterVirt != 0) = true
  · have hregister : Within vmcsProc2ApicRegisterVirt (allowed1 (rdmsr msrIa32VmxProcbasedCtls2)) :=
      within_of_and_ne_zero (bne_iff_ne.mp hv)
    refine ⟨vmcsProc2VirtualizeApicAccesses ||| vmcsProc2ApicRegisterVirt, ?_, haccess.or hregister, by rw [Within]; decide⟩
    rw [if_pos hv, BitVec.or_assoc]
  · exact ⟨vmcsProc2VirtualizeApicAccesses, if_neg hv, haccess, by rw [Within]; decide⟩

end Bits

section Values

variable {m : Machine} {vm : Vm} {eptp : U64} {vcpu : Vcpu} {f : Nat → U64}

/-- The value of a control field that later parts leave alone. -/
private theorem control_value {enc : Nat} {msr : MsrIndex} {req : U32}
    (h : enc ∉ apicEncs ++ (crControlEncs ++ (hostEncs ++ longmodeEncs))) (hs : enc ≠ vmcsSecondaryProcBasedExecControls)
    (ho : enc ∉ optionalEncs) (ho' : enc ∉ [vmcsExceptionBitmap, cr3TargetCount]) (hw : fieldWidth enc = 32)
    (hv : after (execControlWrites m.rdmsr vcpu.controls) (after [(eptPointer, eptp)] f) enc =
      stored enc (adjusted m.rdmsr msr req)) :
    initFields m vm eptp vcpu f enc =
      (vmxAdjust req (allowed0 (m.rdmsr msr)) (allowed1 (m.rdmsr msr))).setWidth 64 := by
  rw [initFields_early h hs, controlFields_exec ho ho', hv, adjusted, stored_widen enc hw (by decide)]

private theorem pin_value : initFields m vm eptp vcpu f vmcsPinBasedExecControls =
    (vmxAdjust vcpu.controls.pinBased (allowed0 (m.rdmsr msrIa32VmxPinbasedCtls))
      (allowed1 (m.rdmsr msrIa32VmxPinbasedCtls))).setWidth 64 :=
  control_value (by decide) (by decide) (by decide) (by decide) (by decide) rfl

private theorem primary_value : initFields m vm eptp vcpu f vmcsPrimaryProcBasedExecControls =
    (vmxAdjust vcpu.controls.primaryProc (allowed0 (m.rdmsr msrIa32VmxProcbasedCtls))
      (allowed1 (m.rdmsr msrIa32VmxProcbasedCtls))).setWidth 64 :=
  control_value (by decide) (by decide) (by decide) (by decide) (by decide) rfl

private theorem exit_value : initFields m vm eptp vcpu f vmcsExitControls =
    (vmxAdjust vcpu.controls.vmExit (allowed0 (m.rdmsr msrIa32VmxExitCtls))
      (allowed1 (m.rdmsr msrIa32VmxExitCtls))).setWidth 64 :=
  control_value (by decide) (by decide) (by decide) (by decide) (by decide) rfl

/-- The fields up to the APIC keep their values until the long-mode guest state. -/
private theorem middle_value {enc : Nat} (h : enc ∉ crControlEncs ++ hostEncs) :
    after (hostStateWrites m.host vcpu.hostRsp m.handler)
      (after (crControlWrites { vcpu with cr0 := initialCr0 m.rdmsr, cr4 := initialCr4 m.rdmsr }) f) enc = f enc := by
  rw [List.mem_append, not_or] at h
  have hcr : enc ∉ (crControlWrites { vcpu with cr0 := initialCr0 m.rdmsr, cr4 := initialCr4 m.rdmsr }).map Prod.fst := h.1
  have hhost : enc ∉ (hostStateWrites m.host vcpu.hostRsp m.handler).map Prod.fst := h.2
  rw [after_of_not_mem hhost, after_of_not_mem hcr]

private theorem controlFields_secondary : controlFields m.rdmsr eptp vcpu f vmcsSecondaryProcBasedExecControls =
    (vmxAdjust vcpu.controls.secondaryProc (allowed0 (m.rdmsr msrIa32VmxProcbasedCtls2))
      (allowed1 (m.rdmsr msrIa32VmxProcbasedCtls2))).setWidth 64 := by
  rw [controlFields_exec (by decide) (by decide)]
  exact stored_widen vmcsSecondaryProcBasedExecControls rfl (by decide) _

private theorem controlFields_entry : controlFields m.rdmsr eptp vcpu f vmcsEntryControls =
    (vmxAdjust vcpu.controls.vmEntry (allowed0 (m.rdmsr msrIa32VmxEntryCtls))
      (allowed1 (m.rdmsr msrIa32VmxEntryCtls))).setWidth 64 := by
  rw [controlFields_exec (by decide) (by decide)]
  exact stored_widen vmcsEntryControls rfl (by decide) _

private theorem apicFields_other {enc : Nat} (h : enc ∉ apicEncs) (hs : enc ≠ vmcsSecondaryProcBasedExecControls) :
    apicFields m.rdmsr vcpu f enc = f enc := by
  have hapic : enc ∉ (apicWrites vcpu).map Prod.fst := h
  rw [apicFields]
  split
  · exact after_of_not_mem hapic _
  · rw [after_of_not_mem (by simpa using hs), after_of_not_mem hapic]

variable (m vm eptp vcpu f) in
/-- The secondary controls are those requested, adjusted, and what the APIC adds. -/
private theorem secondary_value : ∃ extra : U32, initFields m vm eptp vcpu f vmcsSecondaryProcBasedExecControls =
    (vmxAdjust vcpu.controls.secondaryProc (allowed0 (m.rdmsr msrIa32VmxProcbasedCtls2))
      (allowed1 (m.rdmsr msrIa32VmxProcbasedCtls2)) ||| extra).setWidth 64 ∧
    Within extra (allowed1 (m.rdmsr msrIa32VmxProcbasedCtls2)) ∧ Within extra 0x101#32 := by
  have hlong : ∀ entry, vmcsSecondaryProcBasedExecControls ∉ (longmodeWrites m.rdmsr vm entry).map Prod.fst := fun _ =>
    show vmcsSecondaryProcBasedExecControls ∉ longmodeEncs by decide
  have hapic : ∀ g, after (apicWrites vcpu) g vmcsSecondaryProcBasedExecControls = g vmcsSecondaryProcBasedExecControls :=
    fun g => after_of_not_mem (show vmcsSecondaryProcBasedExecControls ∉ apicEncs by decide) g
  rw [initFields, longmodeFields, after_of_not_mem (hlong _), middle_value (by decide), apicFields, hapic,
    controlFields_secondary, setWidth_setWidth]
  split
  · refine ⟨0, ?_, within_zero _, within_zero _⟩
    have hzero := @BitVec.or_zero 32 (vmxAdjust vcpu.controls.secondaryProc (allowed0 (m.rdmsr msrIa32VmxProcbasedCtls2))
      (allowed1 (m.rdmsr msrIa32VmxProcbasedCtls2)))
    exact ((hapic _).trans controlFields_secondary).trans (congrArg _ hzero.symm)
  · rename_i hc
    obtain ⟨extra, he, ha, hb⟩ := apicSecondary_eq (vmxAdjust vcpu.controls.secondaryProc
      (allowed0 (m.rdmsr msrIa32VmxProcbasedCtls2)) (allowed1 (m.rdmsr msrIa32VmxProcbasedCtls2))) hc
    refine ⟨extra, ?_, ha, hb⟩
    rw [← he]
    exact stored_widen vmcsSecondaryProcBasedExecControls rfl (by decide) _

private theorem entry_value : initFields m vm eptp vcpu f vmcsEntryControls =
    (vmxAdjust vcpu.controls.vmEntry (allowed0 (m.rdmsr msrIa32VmxEntryCtls)) (allowed1 (m.rdmsr msrIa32VmxEntryCtls)) |||
      vmEntryIa32eMode).setWidth 64 := by
  rw [initFields, longmodeFields, middle_value (by decide), apicFields_other (by decide) (by decide), controlFields_entry,
    longmodeWrites, setWidth_setWidth]
  exact stored_widen vmcsEntryControls rfl (by decide) _

end Values

section Entry

variable {p : Processor} {m : Machine} {vm : Vm} {vcpu : Vcpu} {ept : EptState} {f : Nat → U64}

private theorem dataSegment_checks {f : Nat → U64} {sel base limit ar : Nat} (hsel : f sel = 0x10#64) (hbase : f base = 0)
    (hlimit : f limit = 0xFFFFFFFF#64) (har : f ar = 0xC093#64) : DataSegment f sel base limit ar where
  type := by rw [har]; decide
  code := by rw [har]; decide
  dpl := by rw [har, hsel]; decide
  present := by rw [har]; decide
  reserved := by rw [har]; decide
  usable := by rw [har]; decide
  limit := by rw [hlimit, har]; exact ⟨.inl (by decide), .inr (by decide)⟩
  base := by rw [hbase]; exact ⟨.inl (by decide), by decide⟩

/-- The bits that a sanitised register starts with and that the processor has. -/
private theorem sanitised_bit {rdmsr : Rdmsr} {fixed0 fixed1 : MsrIndex} {value : U64} {i : Nat} (hv : value.getLsbD i = true)
    (h1 : (rdmsr fixed1).getLsbD i = true) : (sanitised rdmsr fixed0 fixed1 value).getLsbD i = true := by
  rw [sanitised, BitVec.getLsbD_and, BitVec.getLsbD_or, hv, h1]
  rfl

/-- The guest state of a successful phase 2 on a cleared VMCS. -/
private theorem guestChecks (hp : m.rdmsr = p.rdmsr) (hr : Ready p vm vcpu ept) (hf : ∀ enc, f enc = 0) :
    GuestChecks p.rdmsr p.width (initFields m vm ept.ctx.eptp vcpu f) := by
  have hcr0 : initFields m vm ept.ctx.eptp vcpu f guestCr0 = initialCr0 p.rdmsr :=
    (stored_natural guestCr0 (by decide) _).trans (by rw [hp])
  have hcr4 : initFields m vm ept.ctx.eptp vcpu f guestCr4 = initialCr4 p.rdmsr :=
    (stored_natural guestCr4 (by decide) _).trans (by rw [hp])
  have hcr3 : initFields m vm ept.ctx.eptp vcpu f guestCr3 = vm.pml4Gpa := stored_natural guestCr3 (by decide) _
  have hpat : initFields m vm ept.ctx.eptp vcpu f guestIa32Pat = p.rdmsr msrIa32CrPat :=
    (stored_natural guestIa32Pat (by decide) _).trans (by rw [hp])
  have hefer : initFields m vm ept.ctx.eptp vcpu f guestIa32Efer = longModeEfer := rfl
  have hrip : initFields m vm ept.ctx.eptp vcpu f guestRip = vm.kernelEntryGpa := stored_natural guestRip (by decide) _
  have hcsAr : initFields m vm ept.ctx.eptp vcpu f guestCsArBytes = 0xA09B#64 := rfl
  have hcsLimit : initFields m vm ept.ctx.eptp vcpu f guestCsLimit = 0xFFFFFFFF#64 := rfl
  have hcsBase : initFields m vm ept.ctx.eptp vcpu f guestCsBase = 0 := rfl
  have hssAr : initFields m vm ept.ctx.eptp vcpu f guestSsArBytes = 0xC093#64 := rfl
  have hsel : initFields m vm ept.ctx.eptp vcpu f guestSsSelector = 0x10#64 ∧
      initFields m vm ept.ctx.eptp vcpu f guestCsSelector = 0x8#64 := ⟨rfl, rfl⟩
  have htrAr : initFields m vm ept.ctx.eptp vcpu f guestTrArBytes = 0x8B#64 := rfl
  have htrLimit : initFields m vm ept.ctx.eptp vcpu f guestTrLimit = 0x67#64 := rfl
  have htr : initFields m vm ept.ctx.eptp vcpu f guestTrSelector = 0 ∧ initFields m vm ept.ctx.eptp vcpu f guestTrBase = 0 :=
    ⟨rfl, rfl⟩
  have hldtr : initFields m vm ept.ctx.eptp vcpu f guestLdtrArBytes = 0x10000#64 := rfl
  have htables : initFields m vm ept.ctx.eptp vcpu f guestGdtrBase = 0x4000#64 ∧
      initFields m vm ept.ctx.eptp vcpu f guestGdtrLimit = 23#64 ∧
      initFields m vm ept.ctx.eptp vcpu f guestIdtrBase = 0x5000#64 ∧
      initFields m vm ept.ctx.eptp vcpu f guestIdtrLimit = 4095#64 := ⟨rfl, rfl, rfl, rfl⟩
  have hrflags : initFields m vm ept.ctx.eptp vcpu f guestRflags = 2#64 := rfl
  have hdr7 : initFields m vm ept.ctx.eptp vcpu f guestDr7 = 0 :=
    ((initFields_early (by decide) (by decide)).trans (controlFields_exec (by decide) (by decide))).trans (hf _)
  have hdebugctl : initFields m vm ept.ctx.eptp vcpu f guestIa32Debugctl = 0 :=
    ((initFields_early (by decide) (by decide)).trans (controlFields_exec (by decide) (by decide))).trans (hf _)
  have hsysenter : initFields m vm ept.ctx.eptp vcpu f guestSysenterEsp = 0 ∧
      initFields m vm ept.ctx.eptp vcpu f guestSysenterEip = 0 :=
    ⟨((initFields_early (by decide) (by decide)).trans (controlFields_exec (by decide) (by decide))).trans (hf _),
      ((initFields_early (by decide) (by decide)).trans (controlFields_exec (by decide) (by decide))).trans (hf _)⟩
  constructor
  case cr0 =>
    rw [hcr0]
    exact ⟨p.cr0.forced _, within_and _ _⟩
  case cr4 =>
    rw [hcr4]
    exact ⟨p.cr4.forced _, within_and _ _⟩
  case longMode =>
    rw [entry_value, BitVec.getLsbD_setWidth, BitVec.getLsbD_or]
    simp [vmEntryIa32eMode]
  case paging =>
    rw [hcr0, hcr4]
    exact ⟨sanitised_bit (by decide) p.paging.1, sanitised_bit (by decide) p.paging.2.1,
      sanitised_bit (by decide) p.paging.2.2⟩
  case cr3 => exact hcr3 ▸ hr.cr3
  case debug => exact ⟨by rw [hdr7]; decide, hdebugctl⟩
  case pat => exact hpat ▸ p.pat
  case efer => rw [hefer]; decide
  case code =>
    rw [hcsAr, hssAr, hcsLimit, hcsBase]
    exact ⟨by decide, by decide, by decide, by decide, by decide, by decide, ⟨.inl (by decide), .inr (by decide)⟩, by decide⟩
  case rpl => rw [hsel.1, hsel.2]; decide
  case ss => exact dataSegment_checks rfl rfl rfl rfl
  case ds => exact dataSegment_checks rfl rfl rfl rfl
  case es => exact dataSegment_checks rfl rfl rfl rfl
  case fs => exact dataSegment_checks rfl rfl rfl rfl
  case gs => exact dataSegment_checks rfl rfl rfl rfl
  case ldtr => rw [hldtr]; decide
  case tr =>
    rw [htrAr, htrLimit, htr.1, htr.2]
    exact ⟨by decide, by decide, by decide, by decide, ⟨.inr (by decide), .inl (by decide)⟩, by decide, .inl (by decide)⟩
  case tables =>
    rw [htables.1, htables.2.1, htables.2.2.1, htables.2.2.2]
    exact ⟨.inl (by decide), by decide, .inl (by decide), by decide⟩
  case rip => exact hrip ▸ .inl hr.rip
  case sysenter =>
    rw [hsysenter.1, hsysenter.2]
    exact ⟨.inl (by decide), .inl (by decide)⟩
  case rflags => rw [hrflags]; decide
  case nonRegister => exact ⟨rfl, rfl, rfl, rfl⟩

private theorem word_bit (x : U32) {i : Nat} (hi : i < 32) : (x.setWidth 64).getLsbD i = x.getLsbD i := by
  rw [BitVec.getLsbD_setWidth, decide_eq_true (by omega), Bool.true_and]

/-- A bit of an adjusted control is allowed; one that is requested and allowed is there. -/
private theorem adjust_bit (req a0 a1 : U32) (i : Nat) :
    (vmxAdjust req a0 a1).getLsbD i = ((req.getLsbD i || a0.getLsbD i) && a1.getLsbD i) := by
  rw [vmxAdjust, BitVec.getLsbD_and, BitVec.getLsbD_or]

private theorem initSecondary_bit {rdmsr : Rdmsr} {i : Nat} (hi : i = 4 ∨ i = 9) :
    (relmInitExecControls rdmsr).secondaryProc.getLsbD i = false := by
  rw [relmInitExecControls]
  rcases hi with rfl | rfl <;> cases cpuHasVpid rdmsr <;> rfl

private theorem init_bits (rdmsr : Rdmsr) : (relmInitExecControls rdmsr).pinBased.getLsbD 3 = true ∧
    (relmInitExecControls rdmsr).primaryProc.getLsbD 21 = true ∧ (relmInitExecControls rdmsr).vmExit.getLsbD 9 = true ∧
    (relmInitExecControls rdmsr).secondaryProc.getLsbD 1 = true := by
  refine ⟨?_, ?_, ?_, ?_⟩
  · change (vmcsPinExtintExiting ||| vmcsPinNmiExiting ||| vmcsPinVirtualNmis).getLsbD 3 = true
    decide
  · change (vmcsProcUseMsrBitmaps ||| vmcsProcActivateSecondary ||| vmcsProcHltExiting ||| vmcsProcCr8LoadExiting |||
      vmcsProcCr8StoreExiting ||| vmcsProcTprShadow ||| vmcsProcUncondIoExiting ||| vmcsProcUseIoBitmaps).getLsbD 21 = true
    decide
  · change (vmExitHostAddrSpaceSize ||| vmcsExitSaveIa32Pat ||| vmcsExitLoadIa32Pat ||| vmcsExitSaveEfer |||
      vmcsExitLoadEfer ||| vmcsExitAckIntrOnExit).getLsbD 9 = true
    decide
  · rw [relmInitExecControls]
    cases cpuHasVpid rdmsr <;> rfl

/-- A secondary control that is on was requested or added for the APIC, and is allowed. -/
private theorem secondary_on (hp : m.rdmsr = p.rdmsr) (hr : Ready p vm vcpu ept) {i : Nat} (hi : i < 32)
    (h : (VcpuInit.secondary (initFields m vm ept.ctx.eptp vcpu f)).getLsbD i = true) :
    (initFields m vm ept.ctx.eptp vcpu f vmcsPrimaryProcBasedExecControls).getLsbD 31 = true ∧
      (allowed1 (p.rdmsr msrIa32VmxProcbasedCtls2)).getLsbD i = true ∧
      ((relmInitExecControls p.rdmsr).secondaryProc.getLsbD i = true ∨ i = 0 ∨ i = 8) := by
  rw [VcpuInit.secondary] at h
  split at h
  · rename_i hprimary
    refine ⟨hprimary, ?_⟩
    obtain ⟨extra, hval, hallowed, hadded⟩ := secondary_value m vm ept.ctx.eptp vcpu f
    rw [within_iff] at hallowed hadded
    rw [hval, word_bit _ hi, BitVec.getLsbD_or, adjust_bit, Bool.or_eq_true, Bool.and_eq_true, hp, p.secondary,
      hr.controls] at h
    rw [hp] at hallowed
    rcases h with ⟨hreq, hall⟩ | hextra
    · refine ⟨hall, .inl ?_⟩
      have hz : (0 : U32).getLsbD i = false := BitVec.getLsbD_zero
      rwa [hz, Bool.or_false] at hreq
    · refine ⟨hallowed i hextra, .inr ?_⟩
      have hmask := hadded i hextra
      have hbits : ∀ i < 32, (0x101#32).getLsbD i = true → i = 0 ∨ i = 8 := by decide
      exact hbits i hi hmask
  · have hz : (0 : U64).getLsbD i = false := BitVec.getLsbD_zero
    rw [hz] at h
    cases h

/-- A secondary control that is requested and allowed is on. -/
private theorem secondary_requested (hp : m.rdmsr = p.rdmsr) (hr : Ready p vm vcpu ept) {i : Nat} (hi : i < 32)
    (hprimary : (initFields m vm ept.ctx.eptp vcpu f vmcsPrimaryProcBasedExecControls).getLsbD 31 = true)
    (hreq : (relmInitExecControls p.rdmsr).secondaryProc.getLsbD i = true)
    (hall : (allowed1 (p.rdmsr msrIa32VmxProcbasedCtls2)).getLsbD i = true) :
    (VcpuInit.secondary (initFields m vm ept.ctx.eptp vcpu f)).getLsbD i = true := by
  obtain ⟨extra, hval, -⟩ := secondary_value m vm ept.ctx.eptp vcpu f
  rw [VcpuInit.secondary, if_pos hprimary, hval, word_bit _ hi, BitVec.getLsbD_or, adjust_bit, hp, hr.controls, hreq, hall]
  rfl

/-- Outside the address, an EPT pointer is the same for every table. -/
private theorem eptp_bits (pml4 : U64) {k : U64} (hk : eptAddrMask &&& k = 0) :
    constructEptp pml4 eptpMemtypeWb false &&& k = 0x1E#64 &&& k := by
  have heptp : constructEptp pml4 eptpMemtypeWb false = (pml4 &&& eptAddrMask) ||| 0x1E#64 := by
    rw [constructEptp, if_neg Bool.false_ne_true, BitVec.or_assoc, BitVec.or_assoc]
    rfl
  rw [heptp, BitVec.and_or_distrib_right, BitVec.and_assoc, hk]
  exact (congrArg (· ||| (0x1E#64 &&& k)) BitVec.and_zero).trans BitVec.zero_or

private theorem eptp_valid {width : Nat} {pml4 : U64} (hw : 32 ≤ width) (h : pml4.toNat < 2 ^ width) :
    EptpValid width (constructEptp pml4 eptpMemtypeWb false) := by
  refine ⟨.inr ?_, ?_, ?_, ?_⟩
  · rw [eptp_bits pml4 (by decide)]
    decide
  · rw [eptp_bits pml4 (by decide)]
    decide
  · rw [eptp_bits pml4 (by decide)]
    decide
  · have hpow : 2 ^ 32 ≤ 2 ^ width := Nat.pow_le_pow_right (by decide) hw
    have haddr : (pml4 &&& eptAddrMask).toNat < 2 ^ width := by
      rw [BitVec.toNat_and]
      exact Nat.lt_of_le_of_lt Nat.and_le_left h
    rw [constructEptp, if_neg Bool.false_ne_true, BitVec.toNat_or, BitVec.toNat_or, BitVec.toNat_or]
    refine Nat.or_lt_two_pow (Nat.or_lt_two_pow (Nat.or_lt_two_pow haddr ?_) ?_) ?_
    · exact Nat.lt_of_lt_of_le (by decide) hpow
    · exact Nat.two_pow_pos width
    · exact Nat.lt_of_lt_of_le (by decide) hpow

/-- A control field that no part writes keeps its value. -/
private theorem untouched {enc : Nat} (h : enc ∉ apicEncs ++ (crControlEncs ++ (hostEncs ++ longmodeEncs)))
    (hs : enc ≠ vmcsSecondaryProcBasedExecControls) (ho : enc ∉ optionalEncs) (ho' : enc ∉ [vmcsExceptionBitmap, cr3TargetCount])
    (he : enc ∉ [vmcsPinBasedExecControls, vmcsPrimaryProcBasedExecControls, vmcsSecondaryProcBasedExecControls,
      vmcsEntryControls, vmcsExitControls, eptPointer]) : initFields m vm ept.ctx.eptp vcpu f enc = f enc := by
  have hexec : enc ∉ (execControlWrites m.rdmsr vcpu.controls).map Prod.fst := fun hmem => he (by
    simp only [execControlWrites, List.map_cons, List.map_nil, List.mem_cons, List.not_mem_nil, or_false] at hmem ⊢
    tauto)
  have heptp : enc ∉ [(eptPointer, ept.ctx.eptp)].map Prod.fst := fun hmem => he (by
    simp only [List.map_cons, List.map_nil, List.mem_cons, List.not_mem_nil, or_false] at hmem ⊢
    tauto)
  rw [initFields_early h hs, controlFields_exec ho ho', after_of_not_mem hexec, after_of_not_mem heptp]

private theorem aligned_next {a : U64} (h : PageAligned a) : PageAligned (a + 4096) := by
  have hmod : ∀ x : U64, x &&& 0xFFF#64 = 0 ↔ x.toNat % 4096 = 0 := by
    intro x
    rw [← BitVec.toNat_inj, BitVec.toNat_and]
    exact (Nat.and_two_pow_sub_one_eq_mod x.toNat 12) ▸ Iff.rfl
  rw [PageAligned, hmod] at h ⊢
  rw [BitVec.toNat_add, show (4096 : U64).toNat = 4096 from rfl]
  omega

/-- The bitmap addresses, written or not, are page addresses. -/
private theorem bitmap_aligned (hr : Ready p vm vcpu ept) (hf : ∀ enc, f enc = 0) {enc : Nat}
    (h : enc ∈ [vmcsIoBitmapA, vmcsIoBitmapB, vmcsMsrBitmap]) : PageAligned (initFields m vm ept.ctx.eptp vcpu f enc) := by
  have hfound : PageAligned (f enc) := by
    rw [hf]
    exact BitVec.zero_and
  have hmsr : PageAligned (stored vmcsMsrBitmap vcpu.msrBitmapPa) := by
    rw [stored_natural vmcsMsrBitmap (by decide)]
    exact hr.msrBitmap
  have hioA : PageAligned (stored vmcsIoBitmapA vcpu.ioBitmapPa) := by
    rw [stored_natural vmcsIoBitmapA (by decide)]
    exact hr.ioBitmap
  have hioB : PageAligned (stored vmcsIoBitmapB (vcpu.ioBitmapPa + 4096)) := by
    rw [stored_natural vmcsIoBitmapB (by decide)]
    exact aligned_next hr.ioBitmap
  have hwhere : enc ∉ apicEncs ++ (crControlEncs ++ (hostEncs ++ longmodeEncs)) ∧ enc ≠ vmcsSecondaryProcBasedExecControls ∧
      enc ∉ [vmcsVpid, vmcsExitMsrStoreAddr, vmcsExitMsrLoadAddr, vmcsEntryMsrLoadAddr] ∧
      enc ∉ [vmcsExceptionBitmap, cr3TargetCount] ∧ enc ∉ [vmcsPinBasedExecControls, vmcsPrimaryProcBasedExecControls,
        vmcsSecondaryProcBasedExecControls, vmcsEntryControls, vmcsExitControls] ∧ enc ∉ [eptPointer] := by
    simp only [List.mem_cons, List.not_mem_nil, or_false] at h
    rcases h with rfl | rfl | rfl <;> decide
  obtain ⟨hearly, hs, ho, ho', hexec, hptr⟩ := hwhere
  rw [initFields_early hearly hs, controlFields_bitmap ho ho' hexec hptr]
  refine after_induction ?_ (after_induction ?_ hfound)
  · split
    · simp only [List.mem_singleton, forall_eq]
      exact fun _ => hmsr
    · simp
  · split
    · simp only [List.mem_cons, List.not_mem_nil, or_false, forall_eq_or_imp, forall_eq]
      exact ⟨fun _ => hioA, fun _ => hioB⟩
    · simp

private theorem vpid_value {rdmsr : Rdmsr} {eptp : U64} (h : cpuHasVpid rdmsr = true) :
    controlFields rdmsr eptp vcpu f vmcsVpid = vcpu.vpid.setWidth 64 := by
  have hlast : vmcsVpid ∉ [vmcsExceptionBitmap, cr3TargetCount] := by decide
  have hmsr : vmcsVpid ∉ [vmcsMsrBitmap] := by decide
  have hio : vmcsVpid ∉ [vmcsIoBitmapA, vmcsIoBitmapB] := by decide
  rw [controlFields, after_of_not_mem hlast, areaFields_ne (by decide), areaFields_ne (by decide), areaFields_ne (by decide),
    after_ite hmsr, after_ite hio, if_pos h]
  exact stored_widen vmcsVpid rfl (by decide) _

private theorem controlChecks (hp : m.rdmsr = p.rdmsr) (hr : Ready p vm vcpu ept) (hf : ∀ enc, f enc = 0) :
    ControlChecks p.rdmsr p.width (initFields m vm ept.ctx.eptp vcpu f) := by
  constructor
  case pin =>
    rw [pin_value, hp]
    exact adjust_allowed _ (p.controls _ (by decide))
  case primary =>
    rw [primary_value, hp]
    exact adjust_allowed _ (p.controls _ (by decide))
  case secondary =>
    intro hprimary
    have hall : ∀ i < 32, (initFields m vm ept.ctx.eptp vcpu f vmcsSecondaryProcBasedExecControls).getLsbD i = true →
        (allowed1 (p.rdmsr msrIa32VmxProcbasedCtls2)).getLsbD i = true := fun i hi h =>
      (secondary_on hp hr hi (by rw [VcpuInit.secondary, if_pos hprimary]; exact h)).2.1
    refine ⟨p.secondary ▸ within_zero _, within_iff.mpr fun i h => ?_⟩
    have hi : i < 32 := BitVec.lt_of_getLsbD h
    rw [BitVec.getLsbD_setWidth, decide_eq_true hi, Bool.true_and] at h
    exact hall i hi h
  case exit =>
    rw [exit_value, hp]
    exact adjust_allowed _ (p.controls _ (by decide))
  case entry =>
    have hbit : Within vmEntryIa32eMode (allowed1 (p.rdmsr msrIa32VmxEntryCtls)) := by
      refine within_iff.mpr fun i hi => ?_
      have hbits : ∀ i < 32, vmEntryIa32eMode.getLsbD i = true → i = 9 := by decide
      rw [hbits i (BitVec.lt_of_getLsbD hi) hi]
      exact p.longMode.1
    obtain ⟨hlow, hhigh⟩ := adjust_allowed vcpu.controls.vmEntry (p.controls msrIa32VmxEntryCtls (by decide))
    rw [setWidth_setWidth] at hlow hhigh
    rw [entry_value, hp, Allowed, setWidth_setWidth]
    refine ⟨within_iff.mpr fun i hi => ?_, hhigh.or hbit⟩
    rw [BitVec.getLsbD_or, within_iff.mp hlow i hi, Bool.true_or]
  case cr3Targets =>
    have hcount : initFields m vm ept.ctx.eptp vcpu f cr3TargetCount = 0 :=
      (initFields_early (by decide) (by decide)).trans rfl
    rw [hcount]
    decide
  case virtualNmis =>
    rw [pin_value, word_bit _ (by decide), word_bit _ (by decide), adjust_bit, adjust_bit, hp, hr.controls]
    intro h
    rw [p.nmis (Bool.and_eq_true_iff.mp h).2, (init_bits p.rdmsr).1]
    rfl
  case ioBitmaps => exact fun _ => ⟨bitmap_aligned hr hf (by decide), bitmap_aligned hr hf (by decide)⟩
  case msrBitmap => exact fun _ => bitmap_aligned hr hf (by decide)
  case tprShadow =>
    have hpage : initFields m vm ept.ctx.eptp vcpu f vmcsVirtualApicPageAddr = vcpu.vapicPagePa :=
      (initFields_apic (by decide) (by decide)).trans (stored_natural vmcsVirtualApicPageAddr (by decide) _)
    have hthreshold : initFields m vm ept.ctx.eptp vcpu f vmcsTprThreshold = 0 :=
      (initFields_apic (by decide) (by decide)).trans rfl
    rw [hpage, hthreshold]
    exact fun _ => ⟨hr.vapicPage, by decide⟩
  case noTprShadow =>
    intro hoff i hi
    by_contra hon
    rw [Bool.not_eq_false] at hon
    simp only [List.mem_cons, List.not_mem_nil, or_false] at hi
    obtain ⟨-, hall, hreq⟩ := secondary_on hp hr (by omega) hon
    rcases hi with rfl | rfl | rfl
    · rw [initSecondary_bit (.inl rfl)] at hreq
      exact absurd hreq (by decide)
    · -- register virtualisation is offered only with the TPR shadow, which is always requested
      rw [primary_value, word_bit _ (by decide), adjust_bit, hp, hr.controls, p.registerVirt hall, (init_bits p.rdmsr).2.1]
        at hoff
      cases hoff
    · rw [initSecondary_bit (.inr rfl)] at hreq
      exact absurd hreq (by decide)
  case apicAccess =>
    have hpage : initFields m vm ept.ctx.eptp vcpu f vmcsApicAccessAddr = vcpu.apicAccessPagePa :=
      (initFields_apic (by decide) (by decide)).trans (stored_natural vmcsApicAccessAddr (by decide) _)
    refine fun _ => ⟨hpage ▸ hr.apicAccessPage, ?_⟩
    by_contra hon
    rw [Bool.not_eq_false] at hon
    obtain ⟨-, -, hreq⟩ := secondary_on hp hr (by decide) hon
    rw [initSecondary_bit (.inl rfl)] at hreq
    exact absurd hreq (by decide)
  case vpid =>
    intro hon
    obtain ⟨-, -, hreq⟩ := secondary_on hp hr (by decide) hon
    have hvpid : cpuHasVpid m.rdmsr = true := by
      rw [hp]
      cases hc : cpuHasVpid p.rdmsr with
      | true => rfl
      | false =>
        rw [relmInitExecControls, hc] at hreq
        revert hreq
        decide
    have hval : initFields m vm ept.ctx.eptp vcpu f vmcsVpid = vcpu.vpid.setWidth 64 := by
      rw [initFields_early (by decide) (by decide)]
      exact vpid_value hvpid
    rw [hval]
    intro hz
    refine hr.vpid (BitVec.eq_of_toNat_eq ?_)
    rw [← toNat_widen vcpu.vpid (by decide), hz]
    rfl
  case ept =>
    have hval : initFields m vm ept.ctx.eptp vcpu f eptPointer = ept.ctx.eptp := by
      rw [initFields_early (by decide) (by decide), controlFields_exec (by decide) (by decide)]
      exact stored_natural eptPointer (by decide) _
    obtain ⟨pml4, heptp, hpml4⟩ := hr.eptp
    rw [hval, heptp]
    exact fun _ => eptp_valid p.width_ge hpml4
  case unrestricted =>
    intro hon
    obtain ⟨hprimary, hall, -⟩ := secondary_on hp hr (by decide) hon
    exact secondary_requested hp hr (by decide) hprimary (init_bits p.rdmsr).2.2.2 (p.unrestricted hall)
  case msrAreas =>
    intro a ha hcount
    simp only [List.mem_cons, List.not_mem_nil, or_false] at ha
    refine absurd ?_ hcount
    rcases ha with rfl | rfl | rfl <;>
      exact (untouched (by decide) (by decide) (by decide) (by decide) (by decide)).trans (hf _)
  case vmFunctions =>
    exact fun _ => (untouched (by decide) (by decide) (by decide) (by decide) (by decide)).trans (hf _)
  case hostMode =>
    rw [exit_value, word_bit _ (by decide), adjust_bit, hp, hr.controls, p.longMode.2, (init_bits p.rdmsr).2.2.1]
    rfl

/-- On every processor, phase 2 of a VCPU that succeeds on a cleared VMCS leaves control fields and a guest state that VM
entry accepts. -/
theorem vcpu_init_enters {s t : Phase2} (h : vmxVcpuInit m vm s = (.ok (), t)) (hp : m.rdmsr = p.rdmsr)
    (hept : s.ept = some ept) (hr : Ready p vm s.vcpu ept) (hclear : ∀ enc, s.vmcs.fields enc = 0) :
    ControlChecks p.rdmsr p.width t.vmcs.fields ∧ GuestChecks p.rdmsr p.width t.vmcs.fields := by
  obtain ⟨ept', hept', hfields, -⟩ := (vmxVcpuInit_ok h).fields
  obtain rfl : ept' = ept := Option.some.inj (hept'.symm.trans hept)
  rw [hfields]
  exact ⟨controlChecks hp hr hclear, guestChecks hp hr hclear⟩

def smallRdmsr : Rdmsr := fun msr =>
  match msr.toNat with
  | 0x277 => 0x0007040600070406#64
  | 0x486 => 0x80000021#64
  | 0x487 => 0xFFFFFFFF#64
  | 0x488 => 0x2000#64
  | 0x489 => 0x3767FF#64
  | _ => 0xFFFFFFFF00000000#64

def smallProcessor : Processor where
  rdmsr := smallRdmsr
  width := 39
  width_ge := by decide
  controls := by
    rw [List.forall_mem_cons, List.forall_mem_cons, List.forall_mem_cons, List.forall_mem_singleton]
    exact ⟨by decide, by decide, by decide, by decide⟩
  secondary := by decide
  cr0 := by decide
  cr4 := by decide
  paging := by decide
  longMode := by decide
  nmis := by decide
  registerVirt := by decide
  unrestricted := by decide
  pat := by unfold PatValid; decide

def smallMachine : Machine where
  rdmsr := smallProcessor.rdmsr
  host :=
    { cr0 := 0x80050033#64, cr3 := 0x1000#64, cr4 := 0x370678#64, tr := 0x40#16, gdtAddress := 0x2000#64, gdtSize := 0x7F#16,
      gdt := fun _ => 0, idtAddress := 0x3000#64, fsBase := 0, gsBase := 0, sysenterCs := 0x10#64, sysenterEsp := 0,
      sysenterEip := 0, efer := 0xD01#64, pat := 0x0007040600070406#64 }
  handler := 0xFFFF800000001000#64
  vmclear := true
  vmptrld := true

private def smallVm : Vm := ⟨0x7FFD000#64, 0x100000#64, 0x7000#64, 0x8000000#64⟩

private def smallEpt : EptState where
  host := { Host.idle [some 0xA000#64, some 0xB000#64, some 0xC000#64] [] with live := [0x9000#64] }
  ctx :=
    { obj := 0, pml4 := 0x9000#64, pml4Pa := 0x9000#64, eptp := constructEptp 0x9000#64 eptpMemtypeWb false,
      memtype := eptpMemtypeWb, adEnabled := false, stats := {}, tables := [0x9000#64] }

def smallVcpu : Vcpu where
  vpid := 1#16
  vmcsPa := 0x10000#64
  hostRsp := 0xFFFF800000002000#64
  controls := relmInitExecControls smallProcessor.rdmsr
  ioBitmapPa := 0x11000#64
  msrBitmapPa := 0x13000#64
  vmexitStorePa := 0x14000#64
  vmexitLoadPa := 0x15000#64
  vmentryLoadPa := 0x16000#64
  vmexitCount := 3#64
  vmentryCount := 2#64
  exceptionBitmap := 0
  vapicPagePa := 0x17000#64
  apicAccessPagePa := 0x18000#64
  apicRegVirtSupported := false
  cr0 := 0
  cr3 := 0
  cr4 := 0
  efer := 0
  xcr0 := 0
  rip := 0
  rsi := 0
  rsp := 0
  rflags := 0

private def smallPhase2 : Phase2 := ⟨⟨fun _ => true, fun _ => 0⟩, smallVcpu, some smallEpt⟩

private theorem small_init : vmxVcpuInit smallMachine smallVm smallPhase2 =
    (.ok (), (vmxVcpuInit smallMachine smallVm smallPhase2).2) := Prod.ext rfl rfl

private theorem small_ready : Ready smallProcessor smallVm smallPhase2.vcpu smallEpt where
  controls := rfl
  vpid := by decide
  ioBitmap := by unfold PageAligned; decide
  msrBitmap := by unfold PageAligned; decide
  vapicPage := by unfold PageAligned; decide
  apicAccessPage := by unfold PageAligned; decide
  eptp := ⟨0x9000#64, rfl, by decide⟩
  cr3 := by decide
  rip := by decide

theorem vcpu_init_enters_small :
    ControlChecks smallProcessor.rdmsr 39 (vmxVcpuInit smallMachine smallVm smallPhase2).2.vmcs.fields ∧
      GuestChecks smallProcessor.rdmsr 39 (vmxVcpuInit smallMachine smallVm smallPhase2).2.vmcs.fields :=
  vcpu_init_enters small_init rfl rfl small_ready fun _ => rfl

/-- The entries of an MSR area that the processor goes through: as many as the count says, from the address on. -/
def areaEntries (f : Nat → U64) (countEnc addrEnc : Nat) : List U64 :=
  (List.range (f countEnc).toNat).map fun i => f addrEnc + 16 * BitVec.ofNat 64 i

/-- The address field of an area after both writes. -/
def areaAddress (pa count : U64) : U64 :=
  if pa != 0 && decide (0 < count) then (pa &&& 0xFFFFFFFF#64) ||| (count <<< 32) else 0

private theorem area_value {addrEnc : Nat} {pa count : U64} (hw : fieldWidth addrEnc = 64) :
    areaFields addrEnc pa count f addrEnc =
      if pa != 0 && decide (0 < count) then (pa &&& 0xFFFFFFFF#64) ||| (count <<< 32) else f addrEnc := by
  rw [areaFields, if_pos rfl, stored_natural addrEnc hw]

/-- The area addresses that the control fields end with. -/
private theorem area_fields {rdmsr : Rdmsr} {eptp : U64} (hf : ∀ enc, f enc = 0) :
    controlFields rdmsr eptp vcpu f vmcsExitMsrStoreAddr = areaAddress vcpu.vmexitStorePa vcpu.vmexitCount ∧
      controlFields rdmsr eptp vcpu f vmcsExitMsrLoadAddr = areaAddress vcpu.vmexitLoadPa vcpu.vmentryCount ∧
      controlFields rdmsr eptp vcpu f vmcsEntryMsrLoadAddr = areaAddress vcpu.vmentryLoadPa vcpu.vmentryCount := by
  have hexec : ∀ enc ∈ [vmcsExitMsrStoreAddr, vmcsExitMsrLoadAddr, vmcsEntryMsrLoadAddr],
      enc ∉ [vmcsPinBasedExecControls, vmcsPrimaryProcBasedExecControls, vmcsSecondaryProcBasedExecControls,
        vmcsEntryControls, vmcsExitControls] ∧ enc ∉ [eptPointer] ∧ enc ∉ [vmcsVpid] ∧ enc ∉ [vmcsIoBitmapA, vmcsIoBitmapB] ∧
        enc ∉ [vmcsMsrBitmap] ∧ enc ∉ [vmcsExceptionBitmap, cr3TargetCount] := by decide
  obtain ⟨hs, hl, hn⟩ : _ ∧ _ ∧ _ := by simpa only [List.forall_mem_cons] using hexec
  refine ⟨?_, ?_, ?_⟩
  · obtain ⟨hexec, hptr, hvpid, hio, hmsr, hlast⟩ := hs
    rw [controlFields, after_of_not_mem hlast, areaFields_ne (by decide), areaFields_ne (by decide), area_value rfl,
      after_ite hmsr, after_ite hio, after_ite hvpid, after_of_not_mem hexec, after_of_not_mem hptr, hf, areaAddress]
  · obtain ⟨hexec, hptr, hvpid, hio, hmsr, hlast⟩ := hl
    rw [controlFields, after_of_not_mem hlast, areaFields_ne (by decide), area_value rfl, areaFields_ne (by decide),
      after_ite hmsr, after_ite hio, after_ite hvpid, after_of_not_mem hexec, after_of_not_mem hptr, hf, areaAddress]
  · obtain ⟨hexec, hptr, hvpid, hio, hmsr, hlast⟩ := hn.1
    rw [controlFields, after_of_not_mem hlast, area_value rfl, areaFields_ne (by decide), areaFields_ne (by decide),
      after_ite hmsr, after_ite hio, after_ite hvpid, after_of_not_mem hexec, after_of_not_mem hptr, hf, areaAddress]

/-- The counts are written to the high halves of the addresses, so after every successful phase 2 the processor finds no
entry in any MSR area: no managed MSR is stored or loaded, and the addresses are no longer those of the pages. -/
theorem msr_areas_unused {s t : Phase2} (h : vmxVcpuInit m vm s = (.ok (), t)) (hclear : ∀ enc, s.vmcs.fields enc = 0) :
    (∀ a ∈ [(exitMsrStoreCount, vmcsExitMsrStoreAddr), (exitMsrLoadCount, vmcsExitMsrLoadAddr),
      (entryMsrLoadCount, vmcsEntryMsrLoadAddr)], areaEntries t.vmcs.fields a.1 a.2 = []) ∧
      t.vmcs.fields vmcsExitMsrStoreAddr = areaAddress s.vcpu.vmexitStorePa s.vcpu.vmexitCount ∧
      t.vmcs.fields vmcsExitMsrLoadAddr = areaAddress s.vcpu.vmexitLoadPa s.vcpu.vmentryCount ∧
      t.vmcs.fields vmcsEntryMsrLoadAddr = areaAddress s.vcpu.vmentryLoadPa s.vcpu.vmentryCount := by
  obtain ⟨ept, -, hfields, -⟩ := (vmxVcpuInit_ok h).fields
  rw [hfields]
  refine ⟨?_, ?_⟩
  · intro a ha
    have hcount : initFields m vm ept.ctx.eptp s.vcpu s.vmcs.fields a.1 = 0 := by
      simp only [List.mem_cons, List.not_mem_nil, or_false] at ha
      rcases ha with rfl | rfl | rfl <;>
        exact (untouched (by decide) (by decide) (by decide) (by decide) (by decide)).trans (hclear _)
    rw [areaEntries, hcount]
    rfl
  · rw [initFields_early (by decide) (by decide), initFields_early (by decide) (by decide),
      initFields_early (by decide) (by decide)]
    exact area_fields hclear

theorem msr_areas_unused_small :
    (∀ a ∈ [(exitMsrStoreCount, vmcsExitMsrStoreAddr), (exitMsrLoadCount, vmcsExitMsrLoadAddr),
      (entryMsrLoadCount, vmcsEntryMsrLoadAddr)],
        areaEntries (vmxVcpuInit smallMachine smallVm smallPhase2).2.vmcs.fields a.1 a.2 = []) ∧
      (vmxVcpuInit smallMachine smallVm smallPhase2).2.vmcs.fields vmcsExitMsrStoreAddr = 0x300014000#64 ∧
      (vmxVcpuInit smallMachine smallVm smallPhase2).2.vmcs.fields vmcsExitMsrLoadAddr = 0x200015000#64 ∧
      (vmxVcpuInit smallMachine smallVm smallPhase2).2.vmcs.fields vmcsEntryMsrLoadAddr = 0x200016000#64 :=
  msr_areas_unused small_init fun _ => rfl

end Entry

end Relm.Vmx.VcpuInit
