import Relm.Boot.Loader
import Relm.Lib.Run
import Relm.Vm.Create
import Relm.Vm.Lifecycle

/-! I/O exits and the fw_cfg device behind them, over every way to bring a VM up: the device is reached through
`vm->fw_data`, which the functions that create, boot and run a VM read and never set. -/
namespace Relm.Vmx.IoPorts
open Firmware Vm Boot

/-- `struct relm_firmware_data`; the ROM block it names is part of the memory state. -/
structure FirmwareData where
  fwCfg : FwCfgDevice

/-- `struct relm_vm`, as far as bringing it up and its I/O exits read it. `fwData` is `none` for a `NULL` pointer. -/
structure Machine where
  boot : BootVm
  cpus : VmCpus
  fwData : Option FirmwareData

/-- What stops the host: an access through a page array, past the VCPU array, or through `vm->fw_data`. -/
inductive Fault
  | memory (fault : HostFault)
  | vcpuArray
  | nullFirmware
  deriving DecidableEq

/-- An I/O exit: what the processor reports, and the registers the handler works on. -/
structure IoExit where
  qualification : U64
  rax : U64
  guestRip : U64
  instrLen : U64

namespace IoExit

variable (e : IoExit)

def size : U32 := (e.qualification &&& 0x7#64).setWidth 32 + 1
def isIn : Bool := e.qualification &&& (1#64 <<< 3) != 0
def isStr : Bool := e.qualification &&& (1#64 <<< 4) != 0
/-- The REP prefix. -/
def isRep : Bool := e.qualification &&& (1#64 <<< 5) != 0
def port : BitVec 16 := (e.qualification >>> 16).setWidth 16

/-- The bits of `RAX` that an OUT of the size hands over. -/
def sizeMask : U64 := if e.size = 1 then 0xFF#64 else if e.size = 2 then 0xFFFF#64 else 0xFFFFFFFF#64

/-- The exits that are emulated; the others are skipped. -/
def emulated : Bool := (e.port == fwCfgPortSel || e.port == fwCfgPortData) && !e.isStr && !e.isRep

end IoExit

/-- A call of `relm_fw_cfg_handle_io`. The device is `none` when the pointer to it goes through `NULL`. -/
structure FwCfgCall where
  device : Option FwCfgDevice
  port : BitVec 16
  isWrite : Bool
  size : U32
  value : U32

/-- The call that `handle_io_instruction` makes on an exit, if it makes one. -/
def fwCfgCall (fwData : Option FirmwareData) (e : IoExit) : Option FwCfgCall :=
  if e.emulated then
    some { device := fwData.map FirmwareData.fwCfg, port := e.port, isWrite := !e.isIn, size := e.size,
           value := if e.isIn then 0 else (e.rax &&& e.sizeMask).setWidth 32 }
  else none

/-- What the handler returns and leaves in `RAX` and `GUEST_RIP`. -/
structure IoResult where
  ret : Int
  rax : U64
  guestRip : U64

/-- `handle_io_instruction`. -/
def handleIoInstruction (fwData : Option FirmwareData) (e : IoExit) : Except Fault (IoResult × Option FirmwareData) :=
  match fwCfgCall fwData e with
  | none => .ok (⟨1, e.rax, e.guestRip + e.instrLen⟩, fwData)
  | some call =>
    match call.device with
    | none => .error .nullFirmware
    | some fw =>
      let r := relmFwCfgHandleIo fw call.port call.isWrite call.size call.value
      .ok (⟨r.1, if e.isIn then r.2.1.setWidth 64 else e.rax, e.guestRip + e.instrLen⟩, some ⟨r.2.2⟩)

namespace Machine

/-- A VM as `relm_create_vm` returns it: the structure is allocated cleared, and `fw_data` is not among the fields it
sets. -/
def created (vm : RelmVm) : Machine :=
  { boot := ⟨vm.vm, 0, 0⟩, cpus := ⟨vm.state, Vm.relmMaxVcpus, 0, vm.vcpus⟩, fwData := none }

def withVm (m : Machine) (s : VmState) : Machine := { m with boot := { m.boot with vm := s } }

/-- `relm_seabios_setup`. Without a firmware record it ends at the first store into it, which comes after the checks
of the image and the allocation of the ROM pages. -/
def relmSeabiosSetup (m : Machine) (firmware : Except Errno Firmware) : Except Fault (Except Errno Unit × Machine) :=
  match m.fwData with
  | none =>
    match firmware with
    | .error e => .ok (.error e, m)
    | .ok image =>
      if image.size ≠ seabiosSize then .ok (.error .einval, m)
      else
        match m.boot.vm.host.getFreePages seabiosOrder with
        | (none, h) => .ok (.error .enomem, m.withVm { m.boot.vm with host := h })
        | (some _, _) => .error .nullFirmware
  | some data =>
    match relmSeabiosLoad m.boot.vm firmware with
    | (.error e, s) => .ok (.error e, m.withVm s)
    | (.ok _, s) =>
      match relmFwCfgSetup s.host data.fwCfg s.memory m.cpus.onlineVcpus with
      | (.error e, h, fw) => .ok (.error e, { m.withVm (relmSeabiosUnload { s with host := h }) with fwData := some ⟨fw⟩ })
      | (.ok _, h, fw) => .ok (.ok (), { m.withVm { s with host := h } with fwData := some ⟨fw⟩ })

/-- The thread of the VCPU in a slot is in the guest loop. -/
def looping (m : Machine) (slot : Nat) : Bool :=
  match m.cpus.vcpus[slot]? with
  | some (some v) => v.hostTask == some .looping
  | _ => false

end Machine

/-- What happens to a VM: the calls that boot it and add a VCPU, with the outcomes of what they call, its life cycle,
and an I/O exit of a VCPU that is in the guest loop. -/
inductive Op
  | bootLoad (input : BootInput)
  | seabiosSetup (firmware : Except Errno Firmware)
  | addVcpu (call : AddCall)
  | life (op : LifeOp)
  | ioExit (slot : Nat) (e : IoExit)

def exec (m : Machine) : Op → Except Fault Machine
  | .bootLoad input =>
    match relmBootLoad m.boot input with
    | .error fault => .error (.memory fault)
    | .ok (_, boot) => .ok { m with boot }
  | .seabiosSetup firmware => (m.relmSeabiosSetup firmware).map Prod.snd
  | .addVcpu call =>
    match relmVmAddVcpu .vmx call.created m.cpus call.vpid with
    | none => .error .vcpuArray
    | some (_, cpus) => .ok { m with cpus }
  | .life op => .ok { m with cpus := (op.exec m.cpus).2 }
  | .ioExit slot e =>
    if m.looping slot then (handleIoInstruction m.fwData e).map fun r => { m with fwData := r.2 } else .ok m

/-- The state after a sequence of operations, unless one of them stops the host. -/
def runOps (m : Machine) (ops : List Op) : Except Fault Machine := ops.foldlM exec m

/-- An exit reaches the device only if there is one and it has been initialised. -/
def ReachesReady (m : Machine) (e : IoExit) : Prop :=
  ∀ call, fwCfgCall m.fwData e = some call → ∃ fw, call.device = some fw ∧ fw.initialized = true

/-- There is a device and it has been initialised. -/
def Machine.ready (m : Machine) : Bool := m.fwData.any fun data => data.fwCfg.initialized

section Ready

variable {m m' : Machine}

private theorem handleIo_ready {fwData fwData' : Option FirmwareData} {e : IoExit} {r : IoResult}
    (h : handleIoInstruction fwData e = .ok (r, fwData')) :
    fwData'.any (·.fwCfg.initialized) = fwData.any (·.fwCfg.initialized) := by
  unfold handleIoInstruction fwCfgCall at h
  by_cases he : e.emulated = true
  · rw [if_pos he] at h
    cases fwData with
    | none => cases h
    | some data =>
      cases h
      exact handleIo_initialized ..
  · rw [if_neg he] at h
    cases h
    rfl

private theorem seabiosSetup_ready {firmware : Except Errno Firmware} {ret : Except Errno Unit}
    (h : m.relmSeabiosSetup firmware = .ok (ret, m')) : m'.ready = m.ready := by
  unfold Machine.relmSeabiosSetup at h
  cases hd : m.fwData with
  | none =>
    simp only [hd] at h
    split at h
    · cases h
      rfl
    · split at h
      · cases h
        rfl
      · split at h
        · cases h
          simp only [Machine.ready, Machine.withVm]
        · cases h
  | some data =>
    simp only [hd] at h
    split at h
    · cases h
      simp only [Machine.ready, Machine.withVm]
    · rename_i s _
      have hi := setup_initialized s.host data.fwCfg s.memory m.cpus.onlineVcpus
      generalize relmFwCfgSetup s.host data.fwCfg s.memory m.cpus.onlineVcpus = r at h hi
      rcases r with ⟨_ | _, host, fw⟩
      · cases h
        simpa only [Machine.ready, hd, Option.any_some] using hi
      · cases h
        simpa only [Machine.ready, hd, Option.any_some] using hi

/-- No operation that returns makes the device ready, and none takes it away. -/
theorem exec_ready {op : Op} (h : exec m op = .ok m') : m'.ready = m.ready := by
  cases op with
  | bootLoad input =>
    rw [exec] at h
    split at h
    · cases h
    · cases h
      rfl
  | seabiosSetup firmware =>
    rw [exec] at h
    cases hs : m.relmSeabiosSetup firmware with
    | error fault =>
      rw [hs] at h
      cases h
    | ok r =>
      rw [hs] at h
      cases h
      exact seabiosSetup_ready hs
  | addVcpu call =>
    rw [exec] at h
    split at h
    · cases h
    · cases h
      rfl
  | life op =>
    cases h
    rfl
  | ioExit slot e =>
    rw [exec] at h
    split at h
    · cases hio : handleIoInstruction m.fwData e with
      | error fault =>
        rw [hio] at h
        cases h
      | ok r =>
        rw [hio] at h
        cases h
        exact handleIo_ready hio
    · cases h
      rfl

/-- Whether there is a device is settled when the VM is created. -/
theorem runOps_ready {ops : List Op} (h : runOps m ops = .ok m') : m'.ready = m.ready :=
  Lib.Run.view_foldlM Machine.ready (fun _ _ _ => exec_ready) h

/-- An exit is safe exactly when the device is ready or the exit is not one of those that reach it. -/
theorem reachesReady_iff (e : IoExit) : ReachesReady m e ↔ m.ready = true ∨ e.emulated = false := by
  unfold ReachesReady fwCfgCall Machine.ready
  cases he : e.emulated with
  | false => simp
  | true =>
    cases m.fwData with
    | none => simp
    | some data => simp

end Ready

section Created

variable {supported : Bool} {ramSize : U64} {h : Host} {vm : RelmVm} {m : Machine}

/-- In every state that a created VM reaches, an I/O exit that reaches fw_cfg reaches it without a device; the exits that
do not are those on other ports and the string and REP forms. -/
theorem fw_cfg_reached_ready_iff (_hc : relmCreateVm supported ramSize h = .ok (.vm vm)) (ops : List Op)
    (hr : runOps (Machine.created vm) ops = .ok m) (e : IoExit) :
    ReachesReady m e ↔ ¬ ((e.port = 0x510#16 ∨ e.port = 0x511#16) ∧ e.isStr = false ∧ e.isRep = false) := by
  have hready : m.ready = false := runOps_ready hr
  rw [reachesReady_iff, hready]
  simp only [Bool.false_eq_true, false_or, IoExit.emulated, fwCfgPortSel, fwCfgPortData, ← Bool.not_eq_true,
    Bool.and_eq_true, Bool.or_eq_true, beq_iff_eq, Bool.not_eq_true', and_assoc]
  rfl

end Created

/-- A host with one page and room for the VM, its EPT context and its VCPU array. -/
private def smallHost : Host := Host.idle [some 0x1000#64] [true, true, true]

/-- A VCPU is added and started, and its thread gets into the guest loop. -/
private def bringUp : List Op :=
  [.addVcpu ⟨1, .ok ()⟩, .life (.run (fun _ => none) fun _ => ⟨[], true, true⟩), .life (.thread 0 .enter),
    .life (.thread 0 (.pin true)), .life (.thread 0 (.init true))]

private theorem bringUp_runs : ∃ vm m, relmCreateVm true 0 smallHost = .ok (.vm vm) ∧
    runOps (Machine.created vm) bringUp = .ok m ∧ m.looping 0 = true := ⟨_, _, rfl, rfl, rfl⟩

/-- `OUT 0x510, AL` and `OUT 0x80, AL`. -/
private def selectorOut : IoExit := ⟨0x05100000#64, 0x19#64, 0x1000#64, 1#64⟩
private def otherOut : IoExit := ⟨0x00800000#64, 0x19#64, 0x1000#64, 1#64⟩

theorem fw_cfg_reached_ready_other_port : ∃ vm m, relmCreateVm true 0 smallHost = .ok (.vm vm) ∧
    runOps (Machine.created vm) bringUp = .ok m ∧ m.looping 0 = true ∧ ReachesReady m otherOut := by
  obtain ⟨vm, m, hc, hr, hl⟩ := bringUp_runs
  refine ⟨vm, m, hc, hr, hl, (fw_cfg_reached_ready_iff hc bringUp hr otherOut).mpr ?_⟩
  decide

/-- A guest that writes the selector port reaches the handler of the device through a `NULL` pointer. -/
theorem fw_cfg_reached_without_device : ∃ vm m, relmCreateVm true 0 smallHost = .ok (.vm vm) ∧
    runOps (Machine.created vm) bringUp = .ok m ∧ m.looping 0 = true ∧ ¬ ReachesReady m selectorOut := by
  obtain ⟨vm, m, hc, hr, hl⟩ := bringUp_runs
  refine ⟨vm, m, hc, hr, hl, ?_⟩
  have hready : m.ready = false := runOps_ready hr
  rw [reachesReady_iff, hready]
  decide

end Relm.Vmx.IoPorts
