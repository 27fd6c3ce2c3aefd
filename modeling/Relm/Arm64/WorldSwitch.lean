import Relm.Arm64.Stage2
import Relm.Lib.Run

/-! The switch between an arm64 host and its guests: which system registers keep their values across a guest's run, on
the host's side and on the side of each vCPU. -/
namespace Relm.Arm64
open Relm.Lib.Run

/-- The system registers that the switch reaches, by where they are: at EL2, of the guest at EL1 and EL0, or used by
both. -/
inductive SysReg
  | hcrEl2 | vbarEl2 | vtcrEl2 | vttbrEl2 | cptrEl2 | mdcrEl2 | cnthctlEl2 | vpidrEl2 | vmpidrEl2
  | sctlrEl2 | ttbr0El2 | ttbr1El2 | tcrEl2 | mairEl2 | amairEl2 | contextidrEl2
  | elrEl2 | spsrEl2 | esrEl2 | afsr0El2 | afsr1El2 | farEl2
  | cnthvCvalEl2 | cnthvCtlEl2 | cnthpCvalEl2 | cnthpCtlEl2
  | sctlrEl1 | cpacrEl1 | ttbr0El1 | ttbr1El1 | tcrEl1 | mairEl1 | amairEl1 | vbarEl1 | contextidrEl1 | cntkctlEl1
  | elrEl1 | spsrEl1 | esrEl1 | afsr0El1 | afsr1El1 | farEl1
  | tpidrEl1 | spEl1 | cntvCvalEl0 | cntvCtlEl0 | cntpCvalEl0 | cntpCtlEl0
  | csselrEl1 | mdscrEl1 | tpidrEl0 | tpidrroEl0 | parEl1
  deriving DecidableEq

namespace SysReg

/-- The register that an unsuffixed name reaches from EL2 on a VHE host. -/
def vheAlias : SysReg → SysReg
  | sctlrEl1 => sctlrEl2 | cpacrEl1 => cptrEl2 | ttbr0El1 => ttbr0El2 | ttbr1El1 => ttbr1El2 | tcrEl1 => tcrEl2
  | mairEl1 => mairEl2 | amairEl1 => amairEl2 | vbarEl1 => vbarEl2 | contextidrEl1 => contextidrEl2
  | cntkctlEl1 => cnthctlEl2 | elrEl1 => elrEl2 | spsrEl1 => spsrEl2 | esrEl1 => esrEl2 | afsr0El1 => afsr0El2
  | afsr1El1 => afsr1El2 | farEl1 => farEl2 | cntvCvalEl0 => cnthvCvalEl2 | cntvCtlEl0 => cnthvCtlEl2
  | cntpCvalEl0 => cnthpCvalEl2 | cntpCtlEl0 => cnthpCtlEl2
  | r => r

/-- The timer control registers, whose upper halves read as zero. -/
def timerCtl : SysReg → Bool
  | cntvCtlEl0 | cntpCtlEl0 | cnthvCtlEl2 | cnthpCtlEl2 => true
  | _ => false

/-- The registers of a vCPU: its EL1 state, thread pointers and timers. -/
def ofGuest : SysReg → Bool
  | sctlrEl1 | cpacrEl1 | ttbr0El1 | ttbr1El1 | tcrEl1 | mairEl1 | amairEl1 | vbarEl1 | contextidrEl1 | cntkctlEl1
  | elrEl1 | spsrEl1 | esrEl1 | afsr0El1 | afsr1El1 | farEl1
  | tpidrEl1 | spEl1 | cntvCvalEl0 | cntvCtlEl0 | cntpCvalEl0 | cntpCtlEl0
  | csselrEl1 | mdscrEl1 | tpidrEl0 | tpidrroEl0 | parEl1 => true
  | _ => false

/-- Used by the host and its guests alike. -/
def shared : SysReg → Bool
  | csselrEl1 | mdscrEl1 | tpidrEl0 | tpidrroEl0 | parEl1 => true
  | _ => false

/-- The registers that are live for a VHE host: those at EL2 and the shared ones. -/
def hostLive (r : SysReg) : Bool := !r.ofGuest || r.shared

/-- What changes while the guest runs: its own registers, and what the code that enters it and the exception that ends
its run write at EL2. -/
def guestWritable (r : SysReg) : Bool := r.ofGuest || r == elrEl2 || r == spsrEl2 || r == esrEl2 || r == farEl2

end SysReg

/-- A register file. -/
structure SysRegs where
  get : SysReg → U64
  res0 : ∀ r, r.timerCtl = true → (get r).toNat < 2 ^ 32

namespace SysRegs

def set (regs : SysRegs) (r : SysReg) (value : U64) : SysRegs where
  get q := if q = r then (if r.timerCtl then (value.setWidth 32).setWidth 64 else value) else regs.get q
  res0 q hq := by
    by_cases hr : q = r
    · subst hr
      simp only [if_true, hq, BitVec.toNat_setWidth]
      omega
    · simpa only [hr, if_false] using regs.res0 q hq

/-- Writes in program order. -/
def write (regs : SysRegs) (writes : List (SysReg × U64)) : SysRegs := writes.foldl (fun regs w => regs.set w.1 w.2) regs

def readSysreg (regs : SysRegs) (r : SysReg) : U64 := regs.get r.vheAlias
def readSysregEl1 (regs : SysRegs) (r : SysReg) : U64 := regs.get r
def readSysregEl0 (regs : SysRegs) (r : SysReg) : U64 := regs.get r

private theorem guestRun_res0 (regs : SysRegs) (changes : SysReg → Option U64) (r : SysReg) (hr : r.timerCtl = true) :
    BitVec.toNat (if r.guestWritable then
      match changes r with
      | some v => if r.timerCtl then (v.setWidth 32).setWidth 64 else v
      | none => regs.get r
    else regs.get r) < 2 ^ 32 := by
  have hold := regs.res0 r hr
  cases hc : changes r with
  | none =>
    simp only [ite_self]
    exact hold
  | some v =>
    simp only [hr, if_true]
    split
    · simp only [BitVec.toNat_setWidth]
      omega
    · exact hold

/-- A guest's run, by the values it leaves. -/
def guestRun (regs : SysRegs) (changes : SysReg → Option U64) : SysRegs where
  get r := if r.guestWritable then
      match changes r with
      | some v => if r.timerCtl then (v.setWidth 32).setWidth 64 else v
      | none => regs.get r
    else regs.get r
  res0 := guestRun_res0 regs changes

end SysRegs

def writeSysreg (value : U64) (r : SysReg) : SysReg × U64 := (r.vheAlias, value)
def writeSysregEl1 (value : U64) (r : SysReg) : SysReg × U64 := (r, value)
def writeSysregEl0 (value : U64) (r : SysReg) : SysReg × U64 := (r, value)

/-- `struct relm_arm64_host_state`, one per CPU. -/
structure HostState where
  hcrEl2 : U64
  vbarEl2 : U64
  sctlrEl1 : U64
  cpacrEl1 : U64
  ttbr0El1 : U64
  ttbr1El1 : U64
  tcrEl1 : U64
  mairEl1 : U64
  amairEl1 : U64
  vbarEl1 : U64
  contextidrEl1 : U64
  cntkctlEl1 : U64
  elrEl1 : U64
  spsrEl1 : U64
  esrEl1 : U64
  afsr0El1 : U64
  afsr1El1 : U64
  farEl1 : U64
  cntvCval : U64
  cntpCval : U64
  cntvCtl : U32
  cntpCtl : U32

/-- The EL1 state of a vCPU that the switch loads and captures; `actlr_el1` is in neither list. -/
structure El1State where
  sctlrEl1 : U64
  cpacrEl1 : U64
  ttbr0El1 : U64
  ttbr1El1 : U64
  tcrEl1 : U64
  mairEl1 : U64
  amairEl1 : U64
  vbarEl1 : U64
  contextidrEl1 : U64
  cntkctlEl1 : U64
  elrEl1 : U64
  spsrEl1 : U64
  esrEl1 : U64
  afsr0El1 : U64
  afsr1El1 : U64
  farEl1 : U64
  csselrEl1 : U64
  tpidrEl1 : U64
  mdscrEl1 : U64
  tpidrEl0 : U64
  tpidrroEl0 : U64
  parEl1 : U64

/-- `struct relm_arm64_timer_state`. -/
structure TimerState where
  cntvCval : U64
  cntvCtl : U32
  cntpCval : U64
  cntpCtl : U32

/-- `struct relm_arm64_guest_ctrls`. -/
structure GuestCtrls where
  hcrEl2 : U64
  cptrEl2 : U64
  mdcrEl2 : U64
  cnthctlEl2 : U64

/-- The part of a vCPU that the switch uses; `stage2` is that of its VM. -/
structure Vcpu where
  el1 : El1State
  spEl1 : U64
  timer : TimerState
  ctrls : GuestCtrls
  virtualMidr : U64
  virtualMpidr : U64
  stage2 : Option Stage2

def relmStage2EncodeVttbr (g : Geometry) (rootPa : U64) (vmid : BitVec 16) : Except Errno U64 :=
  if !s2GeometryValid g || !s2PageAligned rootPa then .error .einval
  else if !s2RangeFits rootPa s2PageSize4kb g.paBits || (g.vmidBits == 8 && decide (255 < vmid.toNat)) then .error .erange
  else .ok (rootPa ||| (vmid.setWidth 64 <<< 48))

namespace HostState

/-- The host context that an entry saves. -/
def save (regs : SysRegs) : HostState where
  hcrEl2 := regs.readSysreg .hcrEl2
  vbarEl2 := regs.readSysreg .vbarEl2
  sctlrEl1 := regs.readSysreg .sctlrEl1
  cpacrEl1 := regs.readSysreg .cpacrEl1
  ttbr0El1 := regs.readSysreg .ttbr0El1
  ttbr1El1 := regs.readSysreg .ttbr1El1
  tcrEl1 := regs.readSysreg .tcrEl1
  mairEl1 := regs.readSysreg .mairEl1
  amairEl1 := regs.readSysreg .amairEl1
  vbarEl1 := regs.readSysreg .vbarEl1
  contextidrEl1 := regs.readSysreg .contextidrEl1
  cntkctlEl1 := regs.readSysreg .cntkctlEl1
  elrEl1 := regs.readSysreg .elrEl1
  spsrEl1 := regs.readSysreg .spsrEl1
  esrEl1 := regs.readSysreg .esrEl1
  afsr0El1 := regs.readSysreg .afsr0El1
  afsr1El1 := regs.readSysreg .afsr1El1
  farEl1 := regs.readSysreg .farEl1
  cntvCval := regs.readSysreg .cntvCvalEl0
  cntvCtl := (regs.readSysreg .cntvCtlEl0).setWidth 32
  cntpCval := regs.readSysreg .cntpCvalEl0
  cntpCtl := (regs.readSysreg .cntpCtlEl0).setWidth 32

end HostState

/-- The writes of an entry, once the host context is saved; `vectors` is the address of `relm_hyp_vectors`. -/
def entryWrites (vectors vttbr : U64) (stage2 : Stage2) (vcpu : Vcpu) : List (SysReg × U64) :=
  let el1 := vcpu.el1
  let timer := vcpu.timer
  [writeSysreg stage2.vtcrEl2 .vtcrEl2,
   writeSysreg vttbr .vttbrEl2,
   writeSysregEl1 el1.sctlrEl1 .sctlrEl1,
   writeSysregEl1 el1.cpacrEl1 .cpacrEl1,
   writeSysregEl1 el1.ttbr0El1 .ttbr0El1,
   writeSysregEl1 el1.ttbr1El1 .ttbr1El1,
   writeSysregEl1 el1.tcrEl1 .tcrEl1,
   writeSysregEl1 el1.mairEl1 .mairEl1,
   writeSysregEl1 el1.amairEl1 .amairEl1,
   writeSysregEl1 el1.vbarEl1 .vbarEl1,
   writeSysregEl1 el1.contextidrEl1 .contextidrEl1,
   writeSysregEl1 el1.cntkctlEl1 .cntkctlEl1,
   writeSysregEl1 el1.elrEl1 .elrEl1,
   writeSysregEl1 el1.spsrEl1 .spsrEl1,
   writeSysregEl1 el1.esrEl1 .esrEl1,
   writeSysregEl1 el1.afsr0El1 .afsr0El1,
   writeSysregEl1 el1.afsr1El1 .afsr1El1,
   writeSysregEl1 el1.farEl1 .farEl1,
   writeSysreg el1.csselrEl1 .csselrEl1,
   writeSysreg el1.tpidrEl1 .tpidrEl1,
   writeSysreg el1.mdscrEl1 .mdscrEl1,
   writeSysreg el1.tpidrEl0 .tpidrEl0,
   writeSysreg el1.tpidrroEl0 .tpidrroEl0,
   writeSysreg el1.parEl1 .parEl1,
   writeSysreg vcpu.spEl1 .spEl1,
   writeSysregEl0 timer.cntvCval .cntvCvalEl0,
   writeSysregEl0 (timer.cntvCtl.setWidth 64) .cntvCtlEl0,
   writeSysregEl0 timer.cntpCval .cntpCvalEl0,
   writeSysregEl0 (timer.cntpCtl.setWidth 64) .cntpCtlEl0,
   writeSysreg vcpu.virtualMidr .vpidrEl2,
   writeSysreg vcpu.virtualMpidr .vmpidrEl2,
   writeSysreg vcpu.ctrls.cptrEl2 .cptrEl2,
   writeSysreg vcpu.ctrls.mdcrEl2 .mdcrEl2,
   writeSysreg vcpu.ctrls.cnthctlEl2 .cnthctlEl2,
   writeSysreg vectors .vbarEl2,
   writeSysreg vcpu.ctrls.hcrEl2 .hcrEl2]

/-- The entry reads `el1` and `timer` of the vCPU, as the exit declares them. -/
def relmArm64GuestEntry (vectors : U64) (regs : SysRegs) (vcpu : Vcpu) : Except Errno (HostState × SysRegs) :=
  match vcpu.stage2 with
  | none => .error .einval
  | some stage2 =>
    match relmStage2EncodeVttbr stage2.geometry stage2.root stage2.vmid with
    | .error e => .error e
    | .ok vttbr => .ok (.save regs, regs.write (entryWrites vectors vttbr stage2 vcpu))

/-- What an exit captures from the registers. -/
def Vcpu.capture (vcpu : Vcpu) (regs : SysRegs) : Vcpu :=
  { vcpu with
    el1 :=
      { sctlrEl1 := regs.readSysregEl1 .sctlrEl1
        cpacrEl1 := regs.readSysregEl1 .cpacrEl1
        ttbr0El1 := regs.readSysregEl1 .ttbr0El1
        ttbr1El1 := regs.readSysregEl1 .ttbr1El1
        tcrEl1 := regs.readSysregEl1 .tcrEl1
        mairEl1 := regs.readSysregEl1 .mairEl1
        amairEl1 := regs.readSysregEl1 .amairEl1
        vbarEl1 := regs.readSysregEl1 .vbarEl1
        contextidrEl1 := regs.readSysregEl1 .contextidrEl1
        cntkctlEl1 := regs.readSysregEl1 .cntkctlEl1
        elrEl1 := regs.readSysregEl1 .elrEl1
        spsrEl1 := regs.readSysregEl1 .spsrEl1
        esrEl1 := regs.readSysregEl1 .esrEl1
        afsr0El1 := regs.readSysregEl1 .afsr0El1
        afsr1El1 := regs.readSysregEl1 .afsr1El1
        farEl1 := regs.readSysregEl1 .farEl1
        csselrEl1 := regs.readSysreg .csselrEl1
        tpidrEl1 := regs.readSysreg .tpidrEl1
        mdscrEl1 := regs.readSysreg .mdscrEl1
        tpidrEl0 := regs.readSysreg .tpidrEl0
        tpidrroEl0 := regs.readSysreg .tpidrroEl0
        parEl1 := regs.readSysreg .parEl1 }
    spEl1 := regs.readSysreg .spEl1
    timer :=
      { cntvCval := regs.readSysregEl0 .cntvCvalEl0
        cntvCtl := (regs.readSysregEl0 .cntvCtlEl0).setWidth 32
        cntpCval := regs.readSysregEl0 .cntpCvalEl0
        cntpCtl := (regs.readSysregEl0 .cntpCtlEl0).setWidth 32 } }

/-- The writes of an exit after the capture. -/
def exitWrites (host : HostState) : List (SysReg × U64) :=
  [writeSysregEl0 0 .cntvCtlEl0,
   writeSysregEl0 0 .cntpCtlEl0,
   writeSysreg host.vbarEl2 .vbarEl2,
   writeSysreg host.sctlrEl1 .sctlrEl1,
   writeSysreg host.cpacrEl1 .cpacrEl1,
   writeSysreg host.ttbr0El1 .ttbr0El1,
   writeSysreg host.ttbr1El1 .ttbr1El1,
   writeSysreg host.tcrEl1 .tcrEl1,
   writeSysreg host.mairEl1 .mairEl1,
   writeSysreg host.amairEl1 .amairEl1,
   writeSysreg host.vbarEl1 .vbarEl1,
   writeSysreg host.contextidrEl1 .contextidrEl1,
   writeSysreg host.cntkctlEl1 .cntkctlEl1,
   writeSysreg host.elrEl1 .elrEl1,
   writeSysreg host.spsrEl1 .spsrEl1,
   writeSysreg host.esrEl1 .esrEl1,
   writeSysreg host.afsr0El1 .afsr0El1,
   writeSysreg host.afsr1El1 .afsr1El1,
   writeSysreg host.farEl1 .farEl1,
   writeSysreg host.cntvCval .cntvCvalEl0,
   writeSysreg (host.cntvCtl.setWidth 64) .cntvCtlEl0,
   writeSysreg host.cntpCval .cntpCvalEl0,
   writeSysreg (host.cntpCtl.setWidth 64) .cntpCtlEl0]

def relmArm64GuestExit (host : HostState) (regs : SysRegs) (vcpu : Vcpu) : Vcpu × SysRegs :=
  let regs := regs.write [writeSysreg host.hcrEl2 .hcrEl2]
  (vcpu.capture regs, regs.write (exitWrites host))

/-- The value a vCPU has for one of its registers while it is not running. -/
def Vcpu.value (vcpu : Vcpu) : SysReg → U64
  | .sctlrEl1 => vcpu.el1.sctlrEl1
  | .cpacrEl1 => vcpu.el1.cpacrEl1
  | .ttbr0El1 => vcpu.el1.ttbr0El1
  | .ttbr1El1 => vcpu.el1.ttbr1El1
  | .tcrEl1 => vcpu.el1.tcrEl1
  | .mairEl1 => vcpu.el1.mairEl1
  | .amairEl1 => vcpu.el1.amairEl1
  | .vbarEl1 => vcpu.el1.vbarEl1
  | .contextidrEl1 => vcpu.el1.contextidrEl1
  | .cntkctlEl1 => vcpu.el1.cntkctlEl1
  | .elrEl1 => vcpu.el1.elrEl1
  | .spsrEl1 => vcpu.el1.spsrEl1
  | .esrEl1 => vcpu.el1.esrEl1
  | .afsr0El1 => vcpu.el1.afsr0El1
  | .afsr1El1 => vcpu.el1.afsr1El1
  | .farEl1 => vcpu.el1.farEl1
  | .csselrEl1 => vcpu.el1.csselrEl1
  | .tpidrEl1 => vcpu.el1.tpidrEl1
  | .mdscrEl1 => vcpu.el1.mdscrEl1
  | .tpidrEl0 => vcpu.el1.tpidrEl0
  | .tpidrroEl0 => vcpu.el1.tpidrroEl0
  | .parEl1 => vcpu.el1.parEl1
  | .spEl1 => vcpu.spEl1
  | .cntvCvalEl0 => vcpu.timer.cntvCval
  | .cntvCtlEl0 => vcpu.timer.cntvCtl.setWidth 64
  | .cntpCvalEl0 => vcpu.timer.cntpCval
  | .cntpCtlEl0 => vcpu.timer.cntpCtl.setWidth 64
  | _ => 0

namespace SysReg

/-- Loaded by an entry and restored by no exit. -/
def unsaved (r : SysReg) : Bool :=
  r == vtcrEl2 || r == vttbrEl2 || r == mdcrEl2 || r == vpidrEl2 || r == vmpidrEl2 || r.shared

end SysReg

section Switch

variable {regs : SysRegs} {vcpu : Vcpu} {r : SysReg}

theorem SysRegs.setWidth_get (h : r.timerCtl = true) : ((regs.get r).setWidth 32).setWidth 64 = regs.get r := by
  have hlt := regs.res0 r h
  rw [← BitVec.toNat_inj, BitVec.toNat_setWidth, BitVec.toNat_setWidth]
  omega

private theorem setWidth_ctl (x : U32) : ((x.setWidth 64).setWidth 32).setWidth 64 = x.setWidth 64 := by
  rw [← BitVec.toNat_inj]
  simp only [BitVec.toNat_setWidth]
  have hlt := x.isLt
  omega

/-- The registers of the vCPU after its entry. -/
theorem entry_guest (vectors vttbr : U64) (stage2 : Stage2) (hr : r.ofGuest = true) :
    (regs.write (entryWrites vectors vttbr stage2 vcpu)).get r = vcpu.value r := by
  cases r <;> first | rfl | exact setWidth_ctl _ | cases hr

/-- The capture takes every register of the vCPU. -/
theorem capture_value (hr : r.ofGuest = true) : (vcpu.capture regs).value r = regs.get r := by
  cases r <;> first | rfl | exact SysRegs.setWidth_get rfl | cases hr

/-- A switch back leaves every saved register as it was at the entry. -/
theorem exit_saved {before : SysRegs} (hl : r.hostLive = true) (hu : r.unsaved = false) :
    (relmArm64GuestExit (.save before) regs vcpu).2.get r = before.get r := by
  -- the timer controls go through 32 bits
  cases r <;> first
    | rfl
    | exact absurd hl Bool.false_ne_true
    | exact absurd hu.symm Bool.false_ne_true
    | exact (setWidth_ctl _).trans (SysRegs.setWidth_get rfl)

/-- The others keep what they held at the end of the guest's run. -/
theorem exit_unsaved (host : HostState) (hu : r.unsaved = true) :
    (relmArm64GuestExit host regs vcpu).2.get r = regs.get r := by
  cases r <;> first | rfl | cases hu

theorem exit_guest (host : HostState) (hr : r.ofGuest = true) :
    (relmArm64GuestExit host regs vcpu).1.value r = regs.get r := by
  have hkeep : (regs.write [writeSysreg host.hcrEl2 .hcrEl2]).get r = regs.get r := by
    cases r <;> first | rfl | cases hr
  exact (capture_value hr).trans hkeep

end Switch

/-- A CPU with the vCPUs that take turns on it. -/
structure Cpu where
  regs : SysRegs
  host : HostState
  vcpus : Nat → Vcpu

/-- A run of a vCPU, with the values its guest leaves, and anything the host does to the registers in between. -/
inductive CpuOp
  | run (vcpu : Nat) (changes : SysReg → Option U64)
  | host (regs : SysRegs)

/-- The registers around a run of a vCPU: before its entry, after it, when its exit begins, and after the exit. -/
structure Switch where
  vcpu : Nat
  before : SysRegs
  entered : SysRegs
  left : SysRegs
  after : SysRegs

/-- The host has its registers back after the exit. -/
def Switch.KeepsHost (sw : Switch) : Prop := ∀ r, r.hostLive = true → sw.after.get r = sw.before.get r

namespace CpuOp

/-- `arm64_vcpu_run`: a failed entry returns at once. -/
def exec (vectors : U64) (s : Cpu) : CpuOp → Option Switch × Cpu
  | run v changes =>
    match relmArm64GuestEntry vectors s.regs (s.vcpus v) with
    | .error _ => (none, s)
    | .ok (saved, entered) =>
      let left := entered.guestRun changes
      let r := relmArm64GuestExit saved left (s.vcpus v)
      (some ⟨v, s.regs, entered, left, r.2⟩, { regs := r.2, host := saved, vcpus := Function.update s.vcpus v r.1 })
  | host regs => (none, { s with regs })

/-- The host already has what the entry loads into the control registers it does not save, and the guest leaves the
host's own values in the registers both use. -/
def Neutral (s : Cpu) : CpuOp → Prop
  | run v changes => ∀ stage2 vttbr, (s.vcpus v).stage2 = some stage2 →
      relmStage2EncodeVttbr stage2.geometry stage2.root stage2.vmid = .ok vttbr →
      s.regs.get .vtcrEl2 = stage2.vtcrEl2 ∧ s.regs.get .vttbrEl2 = vttbr ∧
      s.regs.get .mdcrEl2 = (s.vcpus v).ctrls.mdcrEl2 ∧ s.regs.get .vpidrEl2 = (s.vcpus v).virtualMidr ∧
      s.regs.get .vmpidrEl2 = (s.vcpus v).virtualMpidr ∧
      ∀ r, r.shared = true → s.regs.get r = (changes r).getD ((s.vcpus v).value r)
  | host _ => True

end CpuOp

/-- The registers when the last exit of a vCPU began. -/
def lastLeft (v : Nat) (tr : List (CpuOp × Option Switch)) : Option SysRegs :=
  tr.foldl (fun last x => match x.2 with
    | some sw => if sw.vcpu = v then some sw.left else last
    | none => last) none

/-- The host finds its registers after every exit, and every vCPU its own at every entry. -/
structure Isolated (tr : List (CpuOp × Option Switch)) : Prop where
  host : ∀ x ∈ tr, ∀ sw, x.2 = some sw → sw.KeepsHost
  guest : ∀ before x rest, tr = before ++ x :: rest → ∀ sw, x.2 = some sw → ∀ left, lastLeft sw.vcpu before = some left →
    ∀ r, r.ofGuest = true → sw.entered.get r = left.get r

section Run

variable {vectors : U64} {s : Cpu}

/-- A run of a vCPU: the entry fails and nothing happens, or the four register files follow from the functions. -/
theorem exec_run_cases (vectors : U64) (s : Cpu) (v : Nat) (changes : SysReg → Option U64) :
    (CpuOp.exec vectors s (.run v changes) = (none, s) ∧ ∀ (P : Prop) stage2 vttbr, (s.vcpus v).stage2 = some stage2 →
        relmStage2EncodeVttbr stage2.geometry stage2.root stage2.vmid = .ok vttbr → P) ∨
      ∃ stage2 vttbr, (s.vcpus v).stage2 = some stage2 ∧
        relmStage2EncodeVttbr stage2.geometry stage2.root stage2.vmid = .ok vttbr ∧
        let entered := s.regs.write (entryWrites vectors vttbr stage2 (s.vcpus v))
        let left := entered.guestRun changes
        let out := relmArm64GuestExit (.save s.regs) left (s.vcpus v)
        CpuOp.exec vectors s (.run v changes) = (some ⟨v, s.regs, entered, left, out.2⟩,
          { regs := out.2, host := .save s.regs, vcpus := Function.update s.vcpus v out.1 }) := by
  cases hs : (s.vcpus v).stage2 with
  | none =>
    refine .inl ⟨?_, fun _ stage2 vttbr h => by cases h⟩
    simp only [CpuOp.exec, relmArm64GuestEntry, hs]
  | some stage2 =>
    cases he : relmStage2EncodeVttbr stage2.geometry stage2.root stage2.vmid with
    | error e =>
      refine .inl ⟨?_, fun _ stage2' vttbr h h' => ?_⟩
      · simp only [CpuOp.exec, relmArm64GuestEntry, hs, he]
      · obtain rfl := Option.some.inj h
        rw [he] at h'
        cases h'
    | ok vttbr =>
      refine .inr ⟨stage2, vttbr, rfl, he, ?_⟩
      simp only [CpuOp.exec, relmArm64GuestEntry, hs, he]

/-- What the guest leaves in a register that both sides use. -/
theorem guestRun_shared {regs : SysRegs} {changes : SysReg → Option U64} {r : SysReg} (hr : r.shared = true) :
    (regs.guestRun changes).get r = (changes r).getD (regs.get r) := by
  have hw : r.guestWritable = true := by
    cases r <;> first | rfl | cases hr
  have hc : r.timerCtl = false := by
    cases r <;> first | rfl | cases hr
  simp only [SysRegs.guestRun, hw, if_true, hc]
  cases changes r <;> rfl

theorem shared_ofGuest {r : SysReg} (hr : r.shared = true) : r.ofGuest = true ∧ r.hostLive = true ∧ r.unsaved = true := by
  cases r <;> first | exact ⟨rfl, rfl, rfl⟩ | cases hr

/-- One run of a vCPU gives the host its registers back exactly when it is neutral. -/
theorem host_kept_iff (v : Nat) (changes : SysReg → Option U64) :
    (∀ sw, (CpuOp.exec vectors s (.run v changes)).1 = some sw → sw.KeepsHost) ↔ CpuOp.Neutral s (.run v changes) := by
  rcases exec_run_cases vectors s v changes with ⟨he, hno⟩ | ⟨stage2, vttbr, hs, hv, he⟩
  · rw [he]
    exact ⟨fun _ stage2 vttbr hs hv => hno _ stage2 vttbr hs hv, fun _ sw h => by cases h⟩
  · rw [he]
    constructor
    · intro h stage2' vttbr' hs' hv'
      obtain rfl := Option.some.inj (hs.symm.trans hs')
      obtain rfl := Except.ok.inj (hv.symm.trans hv')
      have hall := h _ rfl
      refine ⟨(hall .vtcrEl2 rfl).symm, (hall .vttbrEl2 rfl).symm, (hall .mdcrEl2 rfl).symm, (hall .vpidrEl2 rfl).symm,
        (hall .vmpidrEl2 rfl).symm, fun r hr => ?_⟩
      obtain ⟨hg, hl, hu⟩ := shared_ofGuest hr
      have hr' := hall r hl
      rw [exit_unsaved _ hu, guestRun_shared hr, entry_guest _ _ _ hg] at hr'
      exact hr'.symm
    · intro h sw hsw r hl
      obtain rfl := Option.some.inj hsw
      obtain ⟨h1, h2, h3, h4, h5, hshared⟩ := h stage2 vttbr hs hv
      by_cases hu : r.unsaved = true
      · by_cases hr : r.shared = true
        · have hg := (shared_ofGuest hr).1
          refine (@exit_unsaved _ (s.vcpus v) r _ hu).trans ?_
          rw [guestRun_shared hr, entry_guest _ _ _ hg]
          exact (hshared r hr).symm
        · cases r <;> first
            | exact absurd hu Bool.false_ne_true
            | exact absurd rfl hr
            | exact h1.symm
            | exact h2.symm
            | exact h3.symm
            | exact h4.symm
            | exact h5.symm
      · exact @exit_saved _ (s.vcpus v) r _ hl (Bool.eq_false_iff.mpr hu)

/-- What a run keeps: every vCPU holds the values of its last exit, and found them at its later entries. -/
structure Remembers (tr : List (CpuOp × Option Switch)) (s : Cpu) : Prop where
  held : ∀ v left, lastLeft v tr = some left → ∀ r, r.ofGuest = true → (s.vcpus v).value r = left.get r
  found : ∀ before x rest, tr = before ++ x :: rest → ∀ sw, x.2 = some sw → ∀ left, lastLeft sw.vcpu before = some left →
    ∀ r, r.ofGuest = true → sw.entered.get r = left.get r

private theorem lastLeft_concat (v : Nat) (tr : List (CpuOp × Option Switch)) (x : CpuOp × Option Switch) :
    lastLeft v (tr ++ [x]) = match x.2 with
      | some sw => if sw.vcpu = v then some sw.left else lastLeft v tr
      | none => lastLeft v tr := by
  rw [lastLeft, List.foldl_append]
  rfl

/-- The steps of a trace with one more at the end. -/
private theorem found_concat {tr : List (CpuOp × Option Switch)} {x : CpuOp × Option Switch} (h : Remembers tr s)
    (hx : ∀ sw, x.2 = some sw → ∀ left, lastLeft sw.vcpu tr = some left →
      ∀ r, r.ofGuest = true → sw.entered.get r = left.get r)
    (before : List (CpuOp × Option Switch)) (y : CpuOp × Option Switch) (rest : List (CpuOp × Option Switch))
    (heq : tr ++ [x] = before ++ y :: rest) (sw : Switch) (hy : y.2 = some sw) (left : SysRegs)
    (hl : lastLeft sw.vcpu before = some left) (r : SysReg) (hr : r.ofGuest = true) : sw.entered.get r = left.get r := by
  rcases List.eq_nil_or_concat rest with rfl | ⟨rest, z, rfl⟩
  · obtain ⟨rfl, hxy⟩ := List.append_inj' heq rfl
    obtain rfl := List.singleton_inj.mp hxy
    exact hx sw hy left hl r hr
  · rw [List.concat_eq_append, ← List.cons_append, ← List.append_assoc] at heq
    exact h.found before y rest (List.append_inj' heq rfl).1 sw hy left hl r hr

theorem Remembers.step {tr : List (CpuOp × Option Switch)} (o : CpuOp) (h : Remembers tr s) :
    Remembers (tr ++ [(o, (o.exec vectors s).1)]) (o.exec vectors s).2 := by
  cases o with
  | host regs =>
    refine ⟨fun v left hl => ?_, found_concat h fun sw hsw => by cases hsw⟩
    rw [lastLeft_concat] at hl
    exact h.held v left hl
  | run v changes =>
    rcases exec_run_cases vectors s v changes with ⟨he, -⟩ | ⟨stage2, vttbr, hs, hv, he⟩
    · rw [he]
      refine ⟨fun w left hl => ?_, found_concat h fun sw hsw => by cases hsw⟩
      rw [lastLeft_concat] at hl
      exact h.held w left hl
    · rw [he]
      refine ⟨fun w left hl r hr => ?_, found_concat h fun sw hsw left hl r hr => ?_⟩
      · rw [lastLeft_concat] at hl
        dsimp only at hl ⊢
        by_cases hw : v = w
        · subst hw
          rw [if_pos rfl] at hl
          rw [← Option.some.inj hl, Function.update_self]
          exact exit_guest _ hr
        · rw [if_neg hw] at hl
          rw [Function.update_of_ne (Ne.symm hw)]
          exact h.held w left hl r hr
      · obtain rfl := Option.some.inj hsw
        exact (entry_guest _ _ _ hr).trans (h.held v left hl r hr)

end Run

/-- Over every run of vCPUs that take turns on one CPU, with anything done to the registers by guests while they run and
by the host in between: the switch isolates host and vCPUs exactly when every run is neutral for the registers that an
entry loads without saving them. -/
theorem world_switch_isolates_iff (vectors : U64) (s : Cpu) (ops : List CpuOp) :
    Isolated (run (CpuOp.exec vectors) s ops).1 ↔ Admitted (CpuOp.exec vectors) CpuOp.Neutral s ops := by
  have hstep : ∀ (s : Cpu) (o : CpuOp), (∀ sw, (o.exec vectors s).1 = some sw → sw.KeepsHost) ↔ o.Neutral s := by
    intro s o
    cases o with
    | host regs => exact ⟨fun _ => trivial, fun _ sw h => by cases h⟩
    | run v changes => exact host_kept_iff v changes
  have hhost := forall_mem_run_iff (Q := fun x => ∀ sw : Switch, x.2 = some sw → sw.KeepsHost) hstep s ops
  have hguest : Remembers (run (CpuOp.exec vectors) s ops).1 (run (CpuOp.exec vectors) s ops).2 := by
    refine run_invariant (fun tr s o h _ => h.step o) ⟨fun v left hl => ?_, fun before x rest heq => ?_⟩
      (admitted_of_forall (fun _ _ => trivial) s)
    · cases hl
    · exact absurd heq (by simp)
  exact ⟨fun h => hhost.mp h.host, fun h => ⟨hhost.mpr h, hguest.found⟩⟩

private def switchStage2 : Stage2 where
  root := 0x40000000#64
  geometry := ⟨39, 40, 1, 8⟩
  vtcrEl2 := 0x80023559#64
  vmid := 1#16
  stats := {}

/-- A vCPU that has not run yet. -/
private def switchVcpu : Vcpu where
  el1 := ⟨0, 0, 0, 0, 0, 0, 0, 0, 0, 0, 0, 0, 0, 0, 0, 0, 0, 0, 0, 0, 0, 0⟩
  spEl1 := 0
  timer := ⟨0, 0, 0, 0⟩
  ctrls := ⟨0x480000000#64, 0, 0xE00#64, 0⟩
  virtualMidr := 0x410FD034#64
  virtualMpidr := 0x80000000#64
  stage2 := some switchStage2

/-- A VHE host, with a user thread's pointer in `TPIDR_EL0`. -/
private def switchCpu : Cpu where
  regs :=
    { get := fun r => match r with
        | .hcrEl2 => 0x488000000#64
        | .tpidrEl0 => 0xFFFF80001000#64
        | _ => 0
      res0 := fun r hr => by cases r <;> first | exact absurd hr Bool.false_ne_true | exact Nat.two_pow_pos 32 }
  host := ⟨0, 0, 0, 0, 0, 0, 0, 0, 0, 0, 0, 0, 0, 0, 0, 0, 0, 0, 0, 0, 0, 0⟩
  vcpus _ := switchVcpu

/-- A host that runs with what the entry loads, and keeps the same thread pointer as its guests. -/
private def steadyCpu : Cpu where
  regs :=
    { get := fun r => match r with
        | .hcrEl2 => 0x488000000#64
        | .vtcrEl2 => 0x80023559#64
        | .vttbrEl2 => 0x1000040000000#64
        | .mdcrEl2 => 0xE00#64
        | .vpidrEl2 => 0x410FD034#64
        | .vmpidrEl2 => 0x80000000#64
        | _ => 0
      res0 := fun r hr => by cases r <;> first | exact absurd hr Bool.false_ne_true | exact Nat.two_pow_pos 32 }
  host := switchCpu.host
  vcpus _ := switchVcpu

/-- The guest loads a page table. -/
private def loadsTable (table : U64) (r : SysReg) : Option U64 := if r = .ttbr0El1 then some table else none

/-- Two vCPUs take turns, and each finds the page table that it has left. -/
theorem world_switch_isolates_steady :
    Isolated (run (CpuOp.exec 0xFFFF800008000800#64) steadyCpu
      [.run 0 (loadsTable 0x5000#64), .run 1 (loadsTable 0x7000#64), .run 0 fun _ => none]).1 ∧
    ((run (CpuOp.exec 0xFFFF800008000800#64) steadyCpu
      [.run 0 (loadsTable 0x5000#64), .run 1 (loadsTable 0x7000#64), .run 0 fun _ => none]).1.map fun x =>
        x.2.map fun sw => sw.entered.get .ttbr0El1) = [some 0#64, some 0#64, some 0x5000#64] := by
  refine ⟨(world_switch_isolates_iff _ _ _).mpr ⟨?_, ?_, ?_, trivial⟩, rfl⟩
  all_goals
    intro stage2 vttbr hs hv
    cases hs
    cases hv
    refine ⟨rfl, rfl, rfl, rfl, rfl, fun r hr => ?_⟩
    cases r <;> cases hr <;> rfl

/-- A guest that changes nothing: the host's user thread comes back with the guest's thread pointer, and the host with the
guest's `VTTBR_EL2`. -/
theorem host_registers_lost :
    ¬ Isolated (run (CpuOp.exec 0xFFFF800008000800#64) switchCpu [.run 0 fun _ => none]).1 ∧
    switchCpu.regs.get .tpidrEl0 = 0xFFFF80001000#64 ∧ switchCpu.regs.get .vttbrEl2 = 0#64 ∧
    (run (CpuOp.exec 0xFFFF800008000800#64) switchCpu [.run 0 fun _ => none]).2.regs.get .tpidrEl0 = 0#64 ∧
    (run (CpuOp.exec 0xFFFF800008000800#64) switchCpu [.run 0 fun _ => none]).2.regs.get .vttbrEl2 = 0x1000040000000#64 := by
  refine ⟨fun h => ?_, rfl, rfl, rfl, rfl⟩
  have hkeep := h.host _ List.mem_cons_self _ rfl .tpidrEl0 rfl
  exact absurd hkeep (by decide)

end Relm.Arm64
