import Relm.Host.Pages
import Relm.Lib.Bitmap
import Relm.Lib.Run

/-! The local APIC of a virtual CPU: the software registers, the virtual-APIC page that hardware reads, and the
operations that change them. -/
namespace Relm.Vmx
open Relm.Lib.Bitmap

/-- `struct virt_apic`. `page` is the virtual-APIC page, a 32-bit slot at each register offset; the bitmaps are
arrays of eight words. -/
structure VirtApic where
  page : U32 → U32
  apicId : U32
  version : U32
  tpr : U32
  ppr : U32
  svr : U32
  ldr : U32
  dfr : U32
  esr : U32
  esrPending : U32
  irr : Nat → U32
  isr : Nat → U32
  tmr : Nat → U32
  icrLow : U32
  icrHigh : U32
  lvtTimer : U32
  lvtThermal : U32
  lvtPmc : U32
  lvtLint0 : U32
  lvtLint1 : U32
  lvtError : U32
  timerIcr : U32
  timerDcr : U32
  timerMode : U32
  timerStartNs : U64
  timerDeadlineTsc : U64
  isEnabled : Bool

inductive ApicReg
  | id | version | tpr | apr | ppr | eoi | rrd | ldr | dfr | svr | isr (n : Nat) | tmr (n : Nat) | irr (n : Nat) | esr
  | lvtCmci | icrLow | icrHigh | lvtTimer | lvtThermal | lvtPmc | lvtLint0 | lvtLint1 | lvtError | timerIcr | timerCcr
  | timerDcr
  deriving DecidableEq

/-- The registers with a `case` of their own. -/
def apicTable : List (U32 × ApicReg) :=
  [(0x020#32, .id), (0x030#32, .version), (0x080#32, .tpr), (0x090#32, .apr), (0x0A0#32, .ppr), (0x0B0#32, .eoi),
   (0x0C0#32, .rrd), (0x0D0#32, .ldr), (0x0E0#32, .dfr), (0x0F0#32, .svr), (0x280#32, .esr), (0x2F0#32, .lvtCmci),
   (0x300#32, .icrLow), (0x310#32, .icrHigh), (0x320#32, .lvtTimer), (0x330#32, .lvtThermal), (0x340#32, .lvtPmc),
   (0x350#32, .lvtLint0), (0x360#32, .lvtLint1), (0x370#32, .lvtError), (0x380#32, .timerIcr), (0x390#32, .timerCcr),
   (0x3E0#32, .timerDcr)]

def ApicReg.offset : ApicReg → U32
  | .id => 0x020#32
  | .version => 0x030#32
  | .tpr => 0x080#32
  | .apr => 0x090#32
  | .ppr => 0x0A0#32
  | .eoi => 0x0B0#32
  | .rrd => 0x0C0#32
  | .ldr => 0x0D0#32
  | .dfr => 0x0E0#32
  | .svr => 0x0F0#32
  | .isr n => BitVec.ofNat 32 (0x100 + n * 0x10)
  | .tmr n => BitVec.ofNat 32 (0x180 + n * 0x10)
  | .irr n => BitVec.ofNat 32 (0x200 + n * 0x10)
  | .esr => 0x280#32
  | .lvtCmci => 0x2F0#32
  | .icrLow => 0x300#32
  | .icrHigh => 0x310#32
  | .lvtTimer => 0x320#32
  | .lvtThermal => 0x330#32
  | .lvtPmc => 0x340#32
  | .lvtLint0 => 0x350#32
  | .lvtLint1 => 0x360#32
  | .lvtError => 0x370#32
  | .timerIcr => 0x380#32
  | .timerCcr => 0x390#32
  | .timerDcr => 0x3E0#32

/-- The word of a bitmap that the `default` branch of a read finds at an offset. -/
def bitmapWord (offset : U32) : Option ApicReg :=
  if 0x100#32 ≤ offset && offset ≤ 0x170#32 then some (.isr ((offset.toNat - 0x100) / 0x10))
  else if 0x180#32 ≤ offset && offset ≤ 0x1F0#32 then some (.tmr ((offset.toNat - 0x180) / 0x10))
  else if 0x200#32 ≤ offset && offset ≤ 0x270#32 then some (.irr ((offset.toNat - 0x200) / 0x10))
  else none

def apicRegisterSize : U32 := 0x1000#32
def apicVersionValue : U32 := 0x00050014#32
def apicSvrResetValue : U32 := 0x000000FF#32
def apicSvrSwEnable : U32 := 1#32 <<< 8
def apicLvtMasked : U32 := 1#32 <<< 16
def apicLvtVectorMask : U32 := 0x000000FF#32
def apicIcrVectorMask : U32 := 0x000000FF#32
def apicIcrDeliveryMask : U32 := 0x00000700#32
def apicIcrDeliveryFixed : U32 := 0#32
def apicIcrSendPending : U32 := 1#32 <<< 12
def apicIcrTriggerLevel : U32 := 1#32 <<< 15
def apicIcrShorthandMask : U32 := 0x000C0000#32
def apicIcrShorthandSelf : U32 := 0x00040000#32
def apicIcrShorthandAllIncl : U32 := 0x00080000#32
def apicIcrShorthandAllExcl : U32 := 0x000C0000#32
def apicEsrValidBits : U32 := 0x000000FF#32
def apicIllegalVectorThreshold : U32 := 16#32
def apicTimerDcrDiv1 : U32 := 0x0B#32
def apicTimerModePeriodic : U32 := 1#32

namespace VirtApic

/-- `relm_vapic_sync_reg`. -/
def sync (apic : VirtApic) (offset value : U32) : VirtApic :=
  if offset < apicRegisterSize then { apic with page := Function.update apic.page offset value } else apic

/-- `relm_vapic_read_reg`. -/
def readSlot (apic : VirtApic) (offset : U32) : U32 := if offset < apicRegisterSize then apic.page offset else 0

/-- The highest vector in service; the source looks for it from word 7 down. -/
def inServiceVector (apic : VirtApic) : Option Nat := highestBelow apic.isr 8

def relmApicPprUpdate (apic : VirtApic) : VirtApic :=
  let isrv := BitVec.ofNat 32 (apic.inServiceVector.getD 0)
  let tprClass := apic.tpr &&& 0xF0#32
  let isrClass := isrv &&& 0xF0#32
  let ppr := if 0#32 < isrv then (if tprClass < isrClass then isrClass else tprClass) else tprClass
  { apic with ppr }.sync ApicReg.ppr.offset ppr

/-- `APIC_VEC_MASK`. -/
def vectorMask (vector : Nat) : U32 := 1#32 <<< (vector % 32)

def relmApicEoi (apic : VirtApic) : VirtApic :=
  match apic.inServiceVector with
  | none => apic
  | some vector =>
    let word := vector / 32
    let isr := apic.isr word &&& ~~~vectorMask vector
    let apic := { apic with isr := Function.update apic.isr word isr }.sync (ApicReg.isr word).offset isr
    let apic :=
      if apic.tmr word &&& vectorMask vector != 0 then
        let tmr := apic.tmr word &&& ~~~vectorMask vector
        { apic with tmr := Function.update apic.tmr word tmr }.sync (ApicReg.tmr word).offset tmr
      else apic
    apic.relmApicPprUpdate

/-- The part of `relm_apic_inject_interrupt` under the lock. -/
def inject (apic : VirtApic) (vector : BitVec 8) (levelTriggered : Bool) : VirtApic :=
  let word := vector.toNat / 32
  let mask := vectorMask vector.toNat
  let irr := apic.irr word ||| mask
  let tmr := if levelTriggered then apic.tmr word ||| mask else apic.tmr word &&& ~~~mask
  let apic := { apic with irr := Function.update apic.irr word irr, tmr := Function.update apic.tmr word tmr }
  (apic.sync (ApicReg.irr word).offset irr).sync (ApicReg.tmr word).offset tmr

/-- Clear the first `n` words of each bitmap in the page. -/
def syncBitmaps (apic : VirtApic) : (n : Nat) → VirtApic
  | 0 => apic
  | n + 1 =>
    (((syncBitmaps apic n).sync (ApicReg.isr n).offset 0).sync (ApicReg.tmr n).offset 0).sync (ApicReg.irr n).offset 0

/-- The fields `relm_apic_init` sets; `esr_pending` and the page are not among them. -/
def resetFields (apic : VirtApic) (apicId : BitVec 8) : VirtApic :=
  { apic with
    apicId := apicId.setWidth 32 <<< 24, version := apicVersionValue, svr := apicSvrResetValue, dfr := 0xFFFFFFFF#32
    lvtTimer := apicLvtMasked, lvtThermal := apicLvtMasked, lvtPmc := apicLvtMasked, lvtLint0 := apicLvtMasked
    lvtLint1 := apicLvtMasked, lvtError := apicLvtMasked
    irr := fun _ => 0, isr := fun _ => 0, tmr := fun _ => 0
    tpr := 0, ppr := 0, esr := 0, ldr := 0, icrLow := 0, icrHigh := 0, timerIcr := 0, timerMode := 0
    timerStartNs := 0, timerDeadlineTsc := 0, isEnabled := false, timerDcr := apicTimerDcrDiv1 }

/-- The value the software model holds for a register. -/
def value (apic : VirtApic) : ApicReg → U32
  | .id => apic.apicId
  | .version => apic.version
  | .tpr => apic.tpr
  | .apr => apic.ppr
  | .ppr => apic.ppr
  | .eoi => 0
  | .rrd => 0
  | .ldr => apic.ldr
  | .dfr => apic.dfr
  | .svr => apic.svr
  | .isr n => apic.isr n
  | .tmr n => apic.tmr n
  | .irr n => apic.irr n
  | .esr => apic.esr
  | .lvtCmci => apicLvtMasked
  | .icrLow => apic.icrLow &&& ~~~apicIcrSendPending
  | .icrHigh => apic.icrHigh
  | .lvtTimer => apic.lvtTimer
  | .lvtThermal => apic.lvtThermal
  | .lvtPmc => apic.lvtPmc
  | .lvtLint0 => apic.lvtLint0
  | .lvtLint1 => apic.lvtLint1
  | .lvtError => apic.lvtError
  | .timerIcr => apic.timerIcr
  | .timerCcr => 0
  | .timerDcr => apic.timerDcr

/-- The registers `relm_apic_init` copies to the page, in this order; `ICR_LOW` is not among them. -/
def initSynced : List ApicReg :=
  [.id, .version, .tpr, .ppr, .ldr, .dfr, .svr, .esr, .icrHigh, .lvtTimer, .lvtThermal, .lvtPmc, .lvtLint0, .lvtLint1,
   .lvtError, .timerIcr, .timerDcr]

/-- Copy registers to the page one after the other. -/
def syncRegs (apic : VirtApic) (regs : List ApicReg) : VirtApic :=
  regs.foldl (fun a reg => a.sync reg.offset (a.value reg)) apic

def relmApicInit (apic : VirtApic) (apicId : BitVec 8) : VirtApic :=
  ((apic.resetFields apicId).syncRegs initSynced).syncBitmaps 8

/-- The divisor that `DCR` selects. -/
def timerDivisor (dcr : U32) : Nat :=
  match (dcr &&& 0x0F#32).toNat with
  | 0x00 => 2
  | 0x01 => 4
  | 0x02 => 8
  | 0x03 => 16
  | 0x08 => 32
  | 0x09 => 64
  | 0x0A => 128
  | _ => 1

/-- `now` is what `ktime_get_ns` returns. -/
def relmApicGetTimerCcr (apic : VirtApic) (now : U64) : U32 :=
  if apic.timerIcr == 0 || apic.timerStartNs == 0 then 0
  else
    let elapsedNs := now - apic.timerStartNs
    let ticks := elapsedNs.toNat / (10 * timerDivisor apic.timerDcr)
    if apic.timerMode == apicTimerModePeriodic then apic.timerIcr - BitVec.ofNat 32 (ticks % apic.timerIcr.toNat)
    else if apic.timerIcr.toNat ≤ ticks then 0
    else BitVec.ofNat 32 (apic.timerIcr.toNat - ticks)

/-- The registers a read refreshes before it answers: `TPR` from the page, the priority from `TPR` and `ISR`, the
current count from the clock. -/
def readRegister (apic : VirtApic) (reg : ApicReg) (now : U64) : U32 × VirtApic :=
  match reg with
  | .tpr =>
    let apic := { apic with tpr := apic.readSlot ApicReg.tpr.offset }
    (apic.value .tpr, apic)
  | .apr | .ppr =>
    let apic := apic.relmApicPprUpdate
    (apic.value .ppr, apic)
  | .timerCcr =>
    let ccr := apic.relmApicGetTimerCcr now
    (ccr, apic.sync ApicReg.timerCcr.offset ccr)
  | reg => (apic.value reg, apic)

def relmApicRead (apic : VirtApic) (offset : U32) (now : U64) : (Except Errno Unit × U32) × VirtApic :=
  if offset &&& 3#32 != 0 then ((.ok (), 0), apic)
  else
    match apicTable.lookup offset with
    | some reg => ((.ok (), (apic.readRegister reg now).1), (apic.readRegister reg now).2)
    | none =>
      match bitmapWord offset with
      | some reg => ((.ok (), apic.value reg), apic)
      | none => ((.error .einval, 0), apic)

/-- What a write of a register other than `ICR_LOW` does; `none` for the registers the `switch` has no case for. -/
def writeRegister (apic : VirtApic) (reg : ApicReg) (value : U32) (now : U64) : Option VirtApic :=
  match reg with
  | .id => some ({ apic with apicId := value &&& 0xFF000000#32 }.sync reg.offset (value &&& 0xFF000000#32))
  | .version => some apic
  | .tpr => some ({ apic with tpr := value &&& 0xFF#32 }.sync reg.offset (value &&& 0xFF#32)).relmApicPprUpdate
  | .eoi => some (apic.relmApicEoi.sync reg.offset 0)
  | .ldr => some ({ apic with ldr := value &&& 0xFF000000#32 }.sync reg.offset (value &&& 0xFF000000#32))
  | .dfr => some ({ apic with dfr := value ||| 0x0FFFFFFF#32 }.sync reg.offset (value ||| 0x0FFFFFFF#32))
  | .svr => some ({ apic with svr := value, isEnabled := value &&& apicSvrSwEnable != 0 }.sync reg.offset value)
  | .isr _ | .tmr _ | .irr _ => some apic
  | .esr =>
    let esr := apic.esrPending &&& apicEsrValidBits
    some ({ apic with esr, esrPending := 0 }.sync reg.offset esr)
  | .lvtCmci => some apic
  | .icrHigh => some ({ apic with icrHigh := value }.sync reg.offset value)
  | .lvtTimer => some ({ apic with lvtTimer := value, timerMode := (value >>> 17) &&& 3#32 }.sync reg.offset value)
  | .lvtThermal => some ({ apic with lvtThermal := value }.sync reg.offset value)
  | .lvtPmc => some ({ apic with lvtPmc := value }.sync reg.offset value)
  | .lvtLint0 => some ({ apic with lvtLint0 := value }.sync reg.offset value)
  | .lvtLint1 => some ({ apic with lvtLint1 := value }.sync reg.offset value)
  | .lvtError => some ({ apic with lvtError := value }.sync reg.offset value)
  | .timerIcr =>
    some { { apic with timerIcr := value }.sync reg.offset value with timerStartNs := if value != 0 then now else 0 }
  | .timerCcr => some apic
  | .timerDcr => some ({ apic with timerDcr := value &&& 0x0B#32 }.sync reg.offset (value &&& 0x0B#32))
  | .apr | .ppr | .rrd | .icrLow => none

/-- The write of `ICR_LOW` to the sender's own APIC, before any delivery. -/
def storeIcrLow (apic : VirtApic) (value : U32) : VirtApic :=
  { apic with icrLow := value }.sync ApicReg.icrLow.offset (value &&& ~~~apicIcrSendPending)

end VirtApic

/-- The part of `struct vcpu` that interrupt delivery touches. -/
structure Vcpu where
  apic : VirtApic
  halted : Bool

/-- `vm->vcpus`, with its empty slots. -/
abbrev Vcpus := List (Option Vcpu)

def relmMaxVcpus : Nat := 1

/-- A pending interrupt also wakes its vCPU. -/
def relmApicInjectInterrupt (vcpu : Vcpu) (vector : BitVec 8) (levelTriggered : Bool) : Vcpu :=
  ⟨vcpu.apic.inject vector levelTriggered, false⟩

def relmApicSetError (vcpu : Vcpu) (errorBit : U32) : Vcpu :=
  let errorBit := errorBit &&& apicEsrValidBits
  if errorBit == 0 then vcpu
  else
    let vcpu := { vcpu with apic.esrPending := vcpu.apic.esrPending ||| errorBit }
    if vcpu.apic.isEnabled && vcpu.apic.lvtError &&& apicLvtMasked == 0 then
      let vector := vcpu.apic.lvtError &&& apicLvtVectorMask
      if apicIllegalVectorThreshold ≤ vector then relmApicInjectInterrupt vcpu (vector.setWidth 8) false else vcpu
    else vcpu

/-- Whether an ICR names a candidate. -/
def ipiMatches (candidate : VirtApic) (isSender : Bool) (icrLow icrHigh : U32) : Bool :=
  let shorthand := icrLow &&& apicIcrShorthandMask
  let logical := icrLow &&& (1#32 <<< 11) != 0
  let destField : BitVec 8 := (icrHigh >>> 24).setWidth 8
  if shorthand == apicIcrShorthandSelf then isSender
  else if shorthand == apicIcrShorthandAllIncl then true
  else if shorthand == apicIcrShorthandAllExcl then !isSender
  else if !logical then (candidate.apicId >>> 24).setWidth 8 == destField
  else (candidate.ldr >>> 24).setWidth 8 &&& destField != 0

def relmApicIpiResolveTargets (vcpus : Vcpus) (sender : Nat) (icrLow icrHigh : U32) (maxTargets : Nat) : List Nat :=
  ((List.range vcpus.length).filter fun i =>
    match vcpus[i]? with
    | some (some candidate) => ipiMatches candidate.apic (i == sender) icrLow icrHigh
    | _ => false).take maxTargets

/-- Only fixed delivery does anything yet. -/
def relmApicIpiDeliver (vcpus : Vcpus) (target : Nat) (deliveryMode vector : U32) (level : Bool) : Vcpus :=
  if deliveryMode == apicIcrDeliveryFixed then
    vcpus.modify target (Option.map fun v => relmApicInjectInterrupt v (vector.setWidth 8) level)
  else vcpus

/-- `relm_apic_handle_icr_write` with `RELM_MAX_VCPUS` as a parameter. -/
def relmApicHandleIcrWriteFor (maxVcpus : Nat) (vcpus : Vcpus) (sender : Nat) (apic : VirtApic) (value : U32) : Vcpus :=
  let vcpus := vcpus.modify sender (Option.map fun v => { v with apic := v.apic.storeIcrLow value })
  let targets := relmApicIpiResolveTargets vcpus sender value apic.icrHigh maxVcpus
  targets.foldl (fun vcpus target => relmApicIpiDeliver vcpus target (value &&& apicIcrDeliveryMask)
    (value &&& apicIcrVectorMask) (value &&& apicIcrTriggerLevel != 0)) vcpus

def relmApicHandleIcrWrite (vcpus : Vcpus) (sender : Nat) (apic : VirtApic) (value : U32) : Vcpus :=
  relmApicHandleIcrWriteFor relmMaxVcpus vcpus sender apic value

/-- A write by the vCPU at position `k`, whose state is `vcpu`. -/
def relmApicWrite (vcpus : Vcpus) (k : Nat) (vcpu : Vcpu) (offset value : U32) (now : U64) : Except Errno Unit × Vcpus :=
  if offset &&& 3#32 != 0 then (.ok (), vcpus)
  else
    match apicTable.lookup offset with
    | some .icrLow => (.ok (), relmApicHandleIcrWrite vcpus k vcpu.apic value)
    | some reg =>
      match vcpu.apic.writeRegister reg value now with
      | some apic => (.ok (), vcpus.set k (some { vcpu with apic }))
      | none => (.error .einval, vcpus)
    | none =>
      -- the cases for the words of `ISR`, `TMR` and `IRR`
      if (bitmapWord offset).isSome && offset &&& 0xF#32 == 0 then (.ok (), vcpus) else (.error .einval, vcpus)

inductive ApicOp
  | read (vcpu : Nat) (offset : U32) (now : U64)
  | write (vcpu : Nat) (offset value : U32) (now : U64)
  | inject (vcpu : Nat) (vector : BitVec 8) (levelTriggered : Bool)
  | setError (vcpu : Nat) (errorBit : U32)

/-- One operation on a VM; the answer is the return value and, for a read, the register. Operations on an empty slot
are not possible and do nothing. -/
def ApicOp.exec (vcpus : Vcpus) : ApicOp → (Except Errno Unit × U32) × Vcpus
  | .read k offset now =>
    match vcpus[k]? with
    | some (some v) =>
      let r := v.apic.relmApicRead offset now
      (r.1, vcpus.set k (some { v with apic := r.2 }))
    | _ => ((.ok (), 0), vcpus)
  | .write k offset value now =>
    match vcpus[k]? with
    | some (some v) =>
      let r := relmApicWrite vcpus k v offset value now
      ((r.1, 0), r.2)
    | _ => ((.ok (), 0), vcpus)
  | .inject k vector levelTriggered =>
    ((.ok (), 0), vcpus.modify k (Option.map fun v => relmApicInjectInterrupt v vector levelTriggered))
  | .setError k errorBit => ((.ok (), 0), vcpus.modify k (Option.map fun v => relmApicSetError v errorBit))

end Relm.Vmx
