import Relm.Vmx.ExitContract

/-! The guest's general purpose registers on their way through an exit: pushed by the stub, copied to `vcpu->arch.regs`,
changed by a handler, and brought back to the processor by the stub or by the next VM entry. -/
namespace Relm.Vmx
open Relm.Vm Relm.Virtio Relm.Decoder IoPorts

variable {π : Type}

/-- The pushes of `relm_vmexit_handler`, from the first on. -/
def pushOrder : List Gpr :=
  [.rax, .rbx, .rcx, .rdx, .rsi, .rdi, .rbp, .r8, .r9, .r10, .r11, .r12, .r13, .r14, .r15]

/-- The pops on the way back into the guest. -/
def popOrder : List Gpr :=
  [.r15, .r14, .r13, .r12, .r11, .r10, .r9, .r8, .rbp, .rdi, .rsi, .rdx, .rcx, .rbx, .rax]

def pushAll (cpu : Gpr → U64) : StackGuestGprs := pushOrder.foldl (fun stack r => cpu r :: stack) []

def popAll : List Gpr → StackGuestGprs → (Gpr → U64) → Gpr → U64
  | r :: rest, w :: stack, cpu => popAll rest stack (Function.update cpu r w)
  | _, _, cpu => cpu

/-- What the guest starts with: `RSP` from the VMCS, the others as the processor holds them. -/
def enterGuest (v : Vmcs) (cpu : Gpr → U64) : Gpr → U64 := Function.update cpu .rsp (v.vmread guestRsp)

/-- The words of `struct guest_regs` that hold general purpose registers, by their offset. -/
def guestRegsField : Nat → Option Gpr
  | 0 => some .rax
  | 8 => some .rbx
  | 16 => some .rcx
  | 24 => some .rdx
  | 32 => some .rsi
  | 40 => some .rdi
  | 48 => some .rbp
  | 56 => some .rsp
  | 64 => some .r8
  | 72 => some .r9
  | 80 => some .r10
  | 88 => some .r11
  | 96 => some .r12
  | 104 => some .r13
  | 112 => some .r14
  | 120 => some .r15
  | _ => none

/-- What a register holds inside `relm_vmentry_asm`. -/
inductive Content
  | word (w : U64)
  /-- The pointer to the `struct guest_regs`. -/
  | regsPointer
  | launchedFlag (launched : Bool)

/-- The instructions between the call of `relm_vmentry_save_rsp` and the branch. -/
inductive EntryInsn
  /-- A load through `R12`. -/
  | load (offset : Nat) (dst : Gpr)
  /-- `test %r13d, %r13d`. -/
  | testLaunched

def vmentryCode : List EntryInsn :=
  [.load 0 .rax, .load 8 .rbx, .load 16 .rcx, .load 24 .rdx, .load 32 .rsi, .load 48 .rbp, .load 64 .r8, .load 72 .r9,
    .load 80 .r10, .load 88 .r11, .load 112 .r14, .load 120 .r15, .testLaunched, .load 40 .rdi, .load 104 .r13, .load 96 .r12]

/-- The registers, and what the last test found. -/
structure EntryCpu where
  gpr : Gpr → Content
  tested : Option Bool

/-- One instruction; `none` where it would use a register that no longer holds what it expects. -/
def EntryInsn.exec (regs : GuestRegs) (c : EntryCpu) : EntryInsn → Option EntryCpu
  | .load offset dst =>
    match c.gpr .r12, guestRegsField offset with
    | .regsPointer, some r => some { c with gpr := Function.update c.gpr dst (.word (regs.gpr r)) }
    | _, _ => none
  | .testLaunched =>
    match c.gpr .r13 with
    | .launchedFlag launched => some { c with tested := some launched }
    | _ => none

/-- `relm_vmentry_asm` up to the entry: whether it is a VMRESUME, and the registers. The arguments have been moved to `R12`
and `R13`; `host` is what the other registers hold. -/
def relmVmentryAsm (regs : GuestRegs) (launched : Bool) (host : Gpr → U64) : Option (Bool × (Gpr → U64)) := do
  let start : EntryCpu :=
    ⟨Function.update (Function.update (fun r => .word (host r)) .r12 .regsPointer) .r13 (.launchedFlag launched), none⟩
  let c ← vmentryCode.foldlM (EntryInsn.exec regs) start
  let tested ← c.tested
  return (tested, fun r => match c.gpr r with
    | .word w => w
    | _ => 0)

/-- What an emulated read of the APIC page finds; a register that cannot be read counts as 0 for a linear read. -/
def ApicExit.loaded (e : ApicExit) (k : Nat) (now : U64) : Option U32 :=
  let r := ApicOp.exec e.vcpus (.read k e.offset now)
  match r.1.1 with
  | .ok _ => some r.1.2
  | .error _ => if e.accessType = apicAccessTypeLinearRead then some 0 else none

/-- The answer of a device to a load. -/
def VmExit.deviceAnswer (h : ExitHost π) (e : VmExit π) (dev : Nat) (a : Access) : U32 :=
  (e.registry.relmVirtioMmioRegisterAccess h.ops dev a).1.1

/-- An EPT violation that goes to the devices. -/
def VmExit.MmioFault (e : VmExit π) : Prop :=
  e.vmcs.vmread vmExitQualification &&& (1#64 <<< 3) = 0 ∧ e.vmcs.vmread vmExitQualification &&& (1#64 <<< 4) = 0 ∧
    e.vmcs.vmread vmExitQualification &&& (1#64 <<< 5) = 0 ∧
    relmVmGpaIsMmioRegion e.vm.memory (e.vmcs.vmread guestPhysicalAddress) = true

/-- The exit of IN from a port of fw_cfg. -/
def VmExit.portExit (e : VmExit π) : IoExit := ioExit e (e.vmcs.vmread guestRip) (e.vmcs.vmread vmExitQualification)

/-- The registers that the handler of an exit writes, with the values; the registers have been imported. -/
inductive Writes (h : ExitHost π) (e : VmExit π) : Gpr → U64 → Prop
  | cpuid {reg : Gpr} {value : U64} (hr : e.reason = .cpuid)
    (hm : (reg, value) ∈ [(Gpr.rax, (cpuidResult h e).eax.setWidth 64), (.rbx, (cpuidResult h e).ebx.setWidth 64),
      (.rcx, (cpuidResult h e).ecx.setWidth 64), (.rdx, (cpuidResult h e).edx.setWidth 64)]) : Writes h e reg value
  | rdmsr {reg : Gpr} {value : U64} (hr : e.reason = .msrRead)
    (hm : (reg, value) ∈ [(Gpr.rax, ((msrValue e).setWidth 32).setWidth 64),
      (.rdx, ((msrValue e >>> 32).setWidth 32).setWidth 64)]) : Writes h e reg value
  | portIn {data : FirmwareData} (hr : e.reason = .ioInstruction) (hem : e.portExit.emulated = true)
    (hin : e.portExit.isIn = true) (hfw : e.fwData = some data) :
    Writes h e .rax ((Firmware.relmFwCfgHandleIo data.fwCfg e.portExit.port false e.portExit.size 0).2.1.setWidth 64)
  | cr3 {reg : Gpr} (hr : e.reason = .crAccess)
    (hn : (e.vmcs.vmread vmExitQualification &&& crAccessCrNumberMask).toNat = 3)
    (ht : crAccessType (e.vmcs.vmread vmExitQualification) ≠ crAccessTypeWrite)
    (hreg : guestRegPtr (crSourceReg (e.vmcs.vmread vmExitQualification)).toNat = some reg) :
    Writes h e reg (e.vmcs.vmread guestCr3)
  | mmio {dev : Nat} {decoded : DecodedInsn} {a : Access} {reg : Gpr} (hr : e.reason = .eptViolation) (hf : e.MmioFault)
    (ha : e.mmioExit.Accepts h.decode h.vmId h.mmioBuf (e.vmcs.vmread guestPhysicalAddress) dev decoded a)
    (hload : a.isWrite = false) (hreg : guestRegPtr decoded.gprIndex = some reg) :
    Writes h e reg (decoded.relmDecodedGprCommit (e.regs.gpr reg) ((e.deviceAnswer h dev a).setWidth 64))
  | apic {decoded : DecodedInsn} {reg : Gpr} {value : U32} (hr : e.reason = .apicAccess)
    (ha : e.apicExit.Accepts h.decode h.insnBuf decoded) (hload : e.apicExit.isStore = false)
    (hvalue : e.apicExit.loaded h.vcpuId h.now = some value) (hreg : guestRegPtr decoded.gprIndex = some reg) :
    Writes h e reg (decoded.relmDecodedGprCommit (e.regs.gpr reg) (value.setWidth 64))

/-- What `handle_vmexit` has its handler write. -/
def HandlerWrites (h : ExitHost π) (block : StackGuestGprs) (e : VmExit π) (reg : Gpr) (value : U64) : Prop :=
  e.entryFailed = false ∧ Writes h (e.imported block) reg value

/-- The registers that are written hold what has been written, the others what they held. -/
structure Reached (writes : Gpr → U64 → Prop) (old new : Gpr → U64) : Prop where
  written : ∀ reg value, writes reg value → new reg = value
  others : ∀ reg, (∀ value, ¬ writes reg value) → new reg = old reg

section Stub

variable {cpu host : Gpr → U64} {regs : GuestRegs} {v : Vmcs} {r : Gpr}

/-- The first copy takes every register to its place. -/
theorem importRegs_pushAll (hsp : cpu .rsp = v.vmread guestRsp) : (importRegs v (pushAll cpu) regs).gpr = cpu := by
  funext r
  cases r
  case rsp => exact hsp.symm
  all_goals rfl

/-- The second copy overwrites the whole block. -/
theorem exportRegs_pushAll (regs : GuestRegs) (cpu : Gpr → U64) : exportRegs regs (pushAll cpu) = pushAll regs.gpr := by
  simp only [exportRegs, gprCopies, pushAll, pushOrder, List.foldl_cons, List.foldl_nil, StackGuestGprs.set, stackIndex,
    List.set_cons_succ, List.set_cons_zero]

/-- The pops bring every register but `RSP` back. -/
theorem popAll_pushAll (hr : r ≠ .rsp) : popAll popOrder (pushAll cpu) host r = cpu r := by
  simp only [pushAll, pushOrder, List.foldl_cons, List.foldl_nil, popOrder, popAll]
  cases r
  case rsp => exact absurd rfl hr
  all_goals rfl

/-- The loads before the test and after it, up to the one that overwrites the pointer. -/
private def loadsBefore : List (Nat × Gpr) :=
  [(0, .rax), (8, .rbx), (16, .rcx), (24, .rdx), (32, .rsi), (48, .rbp), (64, .r8), (72, .r9), (80, .r10), (88, .r11),
    (112, .r14), (120, .r15)]

private def loadsAfter : List (Nat × Gpr) := [(40, .rdi), (104, .r13)]

private theorem vmentryCode_eq : vmentryCode = loadsBefore.map (fun p => .load p.1 p.2) ++
    .testLaunched :: (loadsAfter.map (fun p => .load p.1 p.2) ++ [.load 96 .r12]) := rfl

private theorem exec_load {c : EntryCpu} {offset : Nat} {reg : Gpr} (hc : c.gpr .r12 = .regsPointer)
    (hfield : guestRegsField offset = some reg) (dst : Gpr) : EntryInsn.exec regs c (.load offset dst) =
      some { c with gpr := Function.update c.gpr dst (.word (regs.gpr reg)) } := by
  simp only [EntryInsn.exec, hc, hfield]

/-- A row of loads that leaves the pointer alone, each from the place of its register. -/
private theorem loads_run (l : List (Nat × Gpr)) (hl : ∀ p ∈ l, p.2 ≠ .r12 ∧ guestRegsField p.1 = some p.2) {c : EntryCpu}
    (hc : c.gpr .r12 = .regsPointer) : ∃ c', (l.map fun p => EntryInsn.load p.1 p.2).foldlM (EntryInsn.exec regs) c = some c' ∧
      c'.tested = c.tested ∧ ∀ r, c'.gpr r = if r ∈ l.map Prod.snd then .word (regs.gpr r) else c.gpr r := by
  induction l generalizing c with
  | nil => exact ⟨c, rfl, rfl, fun r => rfl⟩
  | cons p l ih =>
    obtain ⟨hne, hfield⟩ := hl p List.mem_cons_self
    have hkeep : Function.update c.gpr p.2 (.word (regs.gpr p.2)) .r12 = .regsPointer := by
      rw [Function.update_of_ne (Ne.symm hne), hc]
    obtain ⟨c', hrun, htested, hgpr⟩ := ih (fun q hq => hl q (List.mem_cons_of_mem _ hq)) 
      (c := ⟨Function.update c.gpr p.2 (.word (regs.gpr p.2)), c.tested⟩) hkeep
    refine ⟨c', ?_, htested, fun r => ?_⟩
    · rw [List.map_cons, List.foldlM_cons, exec_load hc hfield]
      exact hrun
    · rw [hgpr r, List.map_cons]
      by_cases hr : r = p.2
      · subst hr
        simp
      · simp only [List.mem_cons, hr, false_or, Function.update_of_ne hr]

/-- The code before a VM entry reads no register that it has overwritten, and loads every register but `RSP`. -/
theorem vmentryAsm_spec (regs : GuestRegs) (launched : Bool) (host : Gpr → U64) :
    ∃ cpu, relmVmentryAsm regs launched host = some (launched, cpu) ∧ ∀ r, r ≠ .rsp → cpu r = regs.gpr r := by
  unfold relmVmentryAsm
  dsimp only
  generalize hstart : (⟨Function.update (Function.update (fun r => .word (host r)) .r12 .regsPointer) .r13
    (.launchedFlag launched), none⟩ : EntryCpu) = c
  have h12 : c.gpr .r12 = .regsPointer := by
    rw [← hstart]
    rfl
  have h13 : c.gpr .r13 = .launchedFlag launched := by
    rw [← hstart]
    rfl
  obtain ⟨c1, hrun1, -, hgpr1⟩ := loads_run loadsBefore (by decide) h12
  have htest : EntryInsn.exec regs c1 .testLaunched = some { c1 with tested := some launched } := by
    have hflag : c1.gpr .r13 = .launchedFlag launched := (hgpr1 .r13).trans h13
    simp only [EntryInsn.exec, hflag]
  obtain ⟨c2, hrun2, htested, hgpr2⟩ := loads_run loadsAfter (by decide) (c := { c1 with tested := some launched })
    ((hgpr1 .r12).trans h12)
  have hlast : EntryInsn.exec regs c2 (.load 96 .r12) = _ :=
    exec_load ((hgpr2 .r12).trans ((hgpr1 .r12).trans h12)) (show guestRegsField 96 = some .r12 from rfl) .r12
  have hall : vmentryCode.foldlM (EntryInsn.exec regs) c =
      some { c2 with gpr := Function.update c2.gpr .r12 (.word (regs.gpr .r12)) } := by
    rw [vmentryCode_eq, List.foldlM_append, hrun1]
    change (EntryInsn.exec regs c1 .testLaunched).bind (fun c => List.foldlM _ c _) = _
    rw [htest]
    change List.foldlM _ _ (loadsAfter.map _ ++ _) = _
    rw [List.foldlM_append, hrun2]
    change (EntryInsn.exec regs c2 (.load 96 .r12)).bind (fun c => some c) = _
    rw [hlast]
    rfl
  rw [hall]
  change ∃ cpu, (c2.tested.bind fun tested => some (tested, _)) = _ ∧ _
  rw [htested]
  refine ⟨_, rfl, fun r hr => ?_⟩
  have hword : Function.update c2.gpr .r12 (.word (regs.gpr .r12)) r = .word (regs.gpr r) := by
    cases r
    case rsp => exact absurd rfl hr
    case r12 => exact Function.update_self ..
    case rdi | r13 => exact (Function.update_of_ne (by decide) ..).trans (hgpr2 _)
    all_goals exact (Function.update_of_ne (by decide) ..).trans ((hgpr2 _).trans (hgpr1 _))
  simp only [hword]

end Stub

section Writes

variable {h : ExitHost π} {e e' : VmExit π} {ret : Int}

/-- Updates one after the other, of different registers. -/
private theorem reached_foldl {writes : Gpr → U64 → Prop} (l : List (Gpr × U64)) (hn : (l.map Prod.fst).Nodup)
    (hw : ∀ r value, writes r value ↔ (r, value) ∈ l) (old : Gpr → U64) :
    Reached writes old (l.foldl (fun gpr p => Function.update gpr p.1 p.2) old) := by
  induction l generalizing old writes with
  | nil => exact ⟨fun r value hc => absurd ((hw r value).mp hc) List.not_mem_nil, fun _ _ => rfl⟩
  | cons p l ih =>
    rw [List.map_cons, List.nodup_cons] at hn
    have hrest : Reached (fun r value => (r, value) ∈ l) (Function.update old p.1 p.2) _ :=
      ih hn.2 (fun _ _ => Iff.rfl) (Function.update old p.1 p.2)
    have hfirst : ∀ value, (p.1, value) ∉ l := fun value hc => hn.1 (List.mem_map.mpr ⟨_, hc, rfl⟩)
    refine ⟨fun r value hwr => ?_, fun r hno => ?_⟩
    · rcases List.mem_cons.mp ((hw r value).mp hwr) with heq | hmem
      · obtain ⟨rfl, rfl⟩ := Prod.mk.inj heq
        exact (hrest.others p.1 hfirst).trans (Function.update_self ..)
      · exact hrest.written r value hmem
    · have hne : r ≠ p.1 := by
        rintro rfl
        exact hno p.2 ((hw _ _).mpr List.mem_cons_self)
      refine (hrest.others r fun value hc => hno value ((hw _ _).mpr (List.mem_cons_of_mem _ hc))).trans ?_
      exact Function.update_of_ne hne _ _

/-- One update. -/
private theorem reached_update {writes : Gpr → U64 → Prop} {reg : Gpr} {value : U64} (hw : writes reg value)
    (honly : ∀ r v, writes r v → r = reg ∧ v = value) (old : Gpr → U64) :
    Reached writes old (Function.update old reg value) := by
  refine reached_foldl [(reg, value)] (List.nodup_singleton _) (fun r v => ?_) old
  rw [List.mem_singleton, Prod.mk.injEq]
  constructor
  · exact honly r v
  · rintro ⟨rfl, rfl⟩
    exact hw

/-- What a handler that writes registers leaves: the registers as written, `GUEST_RSP` and the launch flag as they were. -/
structure HandledWrites (h : ExitHost π) (e e' : VmExit π) : Prop where
  regs : Reached (Writes h e) e.regs.gpr e'.regs.gpr
  guestRsp : e'.vmcs.vmread guestRsp = e.vmcs.vmread guestRsp
  launched : e'.launched = e.launched

private theorem advance_guestRsp (e : VmExit π) (rip : U64) :
    (e.advance rip).vmcs.vmread guestRsp = e.vmcs.vmread guestRsp :=
  Vmcs.vmwriteIgnored_vmread_other (by decide)

private theorem cpuid_writes (hr : e.reason = .cpuid) (rip : U64) : HandledWrites h e (handleCpuid h e rip).2 := by
  refine ⟨?_, advance_guestRsp _ rip, rfl⟩
  refine reached_foldl [(Gpr.rax, (cpuidResult h e).eax.setWidth 64), (.rbx, (cpuidResult h e).ebx.setWidth 64),
    (.rcx, (cpuidResult h e).ecx.setWidth 64), (.rdx, (cpuidResult h e).edx.setWidth 64)] (by simp) (fun r value => ?_) _
  refine ⟨fun hw => ?_, .cpuid hr⟩
  cases hw
  case cpuid _ hm => exact hm
  all_goals simp_all

private theorem msrRead_writes (hr : e.reason = .msrRead) (rip : U64) : HandledWrites h e (handleMsrRead e rip).2 := by
  refine ⟨?_, advance_guestRsp _ rip, rfl⟩
  refine reached_foldl [(Gpr.rax, ((msrValue e).setWidth 32).setWidth 64),
    (.rdx, ((msrValue e >>> 32).setWidth 32).setWidth 64)] (by simp) (fun r value => ?_) _
  refine ⟨fun hw => ?_, .rdmsr hr⟩
  cases hw
  case rdmsr _ hm => exact hm
  all_goals simp_all

private theorem portIn_writes {data : FirmwareData} (hr : e.reason = .ioInstruction) (hem : e.portExit.emulated = true)
    (hin : e.portExit.isIn = true) (hfw : e.fwData = some data)
    (heq : handleIoExit e (e.vmcs.vmread guestRip) (e.vmcs.vmread vmExitQualification) = .ok (ret, e')) :
    HandledWrites h e e' := by
  have hem' : (ioExit e (e.vmcs.vmread guestRip) (e.vmcs.vmread vmExitQualification)).emulated = true := hem
  have hin' : (ioExit e (e.vmcs.vmread guestRip) (e.vmcs.vmread vmExitQualification)).isIn = true := hin
  simp only [handleIoExit, handleIoInstruction, fwCfgCall, hem', hin', hfw, if_true, Option.map_some, Bool.not_true] at heq
  cases heq
  refine ⟨reached_update (.portIn hr hem hin hfw) (fun r v hw => ?_) _, Vmcs.vmwriteIgnored_vmread_other (by decide), rfl⟩
  cases hw
  case portIn hfw' =>
    rw [hfw] at hfw'
    cases hfw'
    exact ⟨rfl, rfl⟩
  all_goals simp_all

private theorem cr3_writes {reg : Gpr} (hr : e.reason = .crAccess)
    (hn : (e.vmcs.vmread vmExitQualification &&& crAccessCrNumberMask).toNat = 3)
    (ht : crAccessType (e.vmcs.vmread vmExitQualification) ≠ crAccessTypeWrite)
    (hreg : guestRegPtr (crSourceReg (e.vmcs.vmread vmExitQualification)).toNat = some reg) :
    HandledWrites h e (handleCrAccess h e (e.vmcs.vmread vmExitQualification)).2 := by
  have hcase : handleCrAccess h e (e.vmcs.vmread vmExitQualification) =
      relmCr3PassthroughHandleExit e (e.vmcs.vmread vmExitQualification) (crAccessType (e.vmcs.vmread vmExitQualification)) := by
    unfold handleCrAccess
    rw [hn]
    rfl
  rw [hcase]
  unfold relmCr3PassthroughHandleExit
  dsimp only
  rw [if_neg (Nat.not_lt.mpr (crSourceReg_le _)), if_neg ht]
  refine ⟨?_, advance_guestRsp _ _, rfl⟩
  change Reached (Writes h e) e.regs.gpr (e.regs.guestRegWrite _ _).gpr
  simp only [GuestRegs.guestRegWrite, hreg]
  refine reached_update (.cr3 hr hn ht hreg) (fun r v hw => ?_) _
  cases hw
  case cr3 hreg' =>
    rw [hreg] at hreg'
    cases hreg'
    exact ⟨rfl, rfl⟩
  all_goals simp_all

private theorem mmio_writes {dev : Nat} {decoded : DecodedInsn} {a : Access} {reg : Gpr} (hr : e.reason = .eptViolation)
    (hf : e.MmioFault) (ha : e.mmioExit.Accepts h.decode h.vmId h.mmioBuf (e.vmcs.vmread guestPhysicalAddress) dev decoded a)
    (hload : a.isWrite = false) (hreg : guestRegPtr decoded.gprIndex = some reg)
    (heq : handleEptViolation h e (e.vmcs.vmread vmExitQualification) = .ok (ret, e')) : HandledWrites h e e' := by
  have hpass : (e.vmcs.vmread vmExitQualification &&& (1#64 <<< 3) != 0 ||
      e.vmcs.vmread vmExitQualification &&& (1#64 <<< 4) != 0 ||
      e.vmcs.vmread vmExitQualification &&& (1#64 <<< 5) != 0) = false := by
    rw [hf.1, hf.2.1, hf.2.2.1]
    rfl
  unfold handleEptViolation at heq
  dsimp only at heq
  rw [if_pos ⟨hpass, hf.2.2.2⟩] at heq
  have ho := mmioHandle_outcome h.decode h.ops h.vmId h.vcpuId h.mmioBuf (e.vmcs.vmread guestPhysicalAddress) e.mmioExit
  generalize relmVirtioMmioHandleEptViolation h.decode h.ops h.vmId h.vcpuId h.mmioBuf _ e.mmioExit = r at ho heq
  cases ho with
  | fault => cases heq
  | refused hnot => exact absurd ha (hnot _ _ _)
  | emulated ha' =>
    obtain ⟨rfl, rfl, rfl⟩ := ha.unique ha'
    cases heq
    refine ⟨?_, ?_, rfl⟩
    · change Reached (Writes h e) e.regs.gpr (((e.mmioExit.perform h.ops h.vcpuId _ _ _).step _ _).regs.gpr)
      simp only [MmioExit.step, MmioExit.perform, hload, GuestRegs.loadValue, GuestRegs.guestRegWrite, GuestRegs.guestRegRead, hreg,
        Bool.false_eq_true, if_false]
      refine reached_update (.mmio hr hf ha' hload hreg) (fun r v hw => ?_) _
      cases hw
      case mmio ha'' hload' hreg' =>
        obtain ⟨rfl, rfl, rfl⟩ := ha.unique ha''
        rw [hreg] at hreg'
        cases hreg'
        exact ⟨rfl, rfl⟩
      all_goals simp_all
    · exact Vmcs.vmwriteIgnored_vmread_other (v := e.vmcs) (by decide)

/-- The register file after an emulated load from the APIC page. -/
private theorem emulate_loaded {a a' : ApicExit} {k : Nat} {now : U64} {decoded : DecodedInsn} {value : U32}
    (hload : a.isStore = false) (hvalue : a.loaded k now = some value) (hem : a.emulate k now decoded = some a') :
    a'.regs = a.regs.loadValue decoded value := by
  unfold ApicExit.emulate at hem
  rw [hload, if_neg Bool.false_ne_true] at hem
  split at hem
  · cases hem
  unfold ApicExit.loaded at hvalue
  dsimp only at hem hvalue
  generalize ApicOp.exec a.vcpus (.read k a.offset now) = r at hem hvalue
  obtain ⟨⟨answer, w⟩, vcpus⟩ := r
  cases answer with
  | ok _ =>
    cases hvalue
    split at hem <;> cases hem <;> rfl
  | error _ =>
    dsimp only at hem hvalue
    split at hvalue
    · rename_i hlinear
      cases hvalue
      rw [if_pos hlinear] at hem
      cases hem
      rfl
    · cases hvalue

private theorem apic_writes {decoded : DecodedInsn} {reg : Gpr} {value : U32} (hr : e.reason = .apicAccess)
    (ha : e.apicExit.Accepts h.decode h.insnBuf decoded) (hload : e.apicExit.isStore = false)
    (hvalue : e.apicExit.loaded h.vcpuId h.now = some value) (hreg : guestRegPtr decoded.gprIndex = some reg)
    (heq : handleApicAccess h e = .ok (ret, e')) : HandledWrites h e e' := by
  unfold handleApicAccess at heq
  have ho := apicHandleAccess_outcome h.decode h.vcpuId h.now h.insnBuf e.apicExit
  generalize relmApicHandleAccess h.decode h.vcpuId h.now h.insnBuf e.apicExit = r at ho heq
  cases ho with
  | fault => cases heq
  | stopped hf => exact absurd hf ha.notFetch
  | refused _ hnot => exact absurd ha (hnot _)
  | @emulated decoded' a' ha' hem =>
    obtain rfl := ha.unique ha'
    cases heq
    refine ⟨?_, ?_, rfl⟩
    · change Reached (Writes h e) e.regs.gpr a'.regs.gpr
      rw [emulate_loaded hload hvalue hem]
      change Reached (Writes h e) e.regs.gpr (e.regs.loadValue decoded' value).gpr
      simp only [GuestRegs.loadValue, GuestRegs.guestRegWrite, GuestRegs.guestRegRead, hreg]
      refine reached_update (.apic hr ha hload hvalue hreg) (fun r v hw => ?_) _
      cases hw
      case apic _ ha'' _ hvalue' hreg' =>
        obtain rfl := ha.unique ha''
        rw [hreg] at hreg'
        rw [hvalue] at hvalue'
        cases hreg'
        cases hvalue'
        exact ⟨rfl, rfl⟩
      all_goals simp_all
    · change (a'.vmcs.vmwriteIgnored _ _).vmread guestRsp = _
      rw [Vmcs.vmwriteIgnored_vmread_other (by decide), ApicExit.emulate_vmcs hem]
      rfl

/-- The handler of an exit that writes registers. -/
private theorem dispatch_writes (hw : ∃ reg value, Writes h e reg value)
    (heq : dispatch h e (e.vmcs.vmread guestRip) e.reason (e.vmcs.vmread vmExitQualification) = .ok (ret, e')) :
    HandledWrites h e e' := by
  have hlift : ∀ {r : Except HostFault (Int × VmExit π)}, ofHostFault r = .ok (ret, e') → r = .ok (ret, e') := by
    intro r hr
    cases r with
    | error fault => cases hr
    | ok r => exact congrArg _ (Except.ok.inj hr)
  obtain ⟨reg, value, hw⟩ := hw
  cases hw with
  | cpuid hr =>
    rw [hr] at heq
    cases heq
    exact cpuid_writes hr _
  | rdmsr hr =>
    rw [hr] at heq
    cases heq
    exact msrRead_writes hr _
  | portIn hr hem hin hfw =>
    rw [hr] at heq
    exact portIn_writes hr hem hin hfw heq
  | cr3 hr hn ht hreg =>
    rw [hr] at heq
    have hsnd : (handleCrAccess h e (e.vmcs.vmread vmExitQualification)).2 = e' := congrArg Prod.snd (Except.ok.inj heq)
    rw [← hsnd]
    exact cr3_writes hr hn ht hreg
  | mmio hr hf ha hload hreg =>
    rw [hr] at heq
    exact mmio_writes hr hf ha hload hreg (hlift heq)
  | apic hr ha hload hvalue hreg =>
    rw [hr] at heq
    exact apic_writes hr ha hload hvalue hreg (hlift heq)

/-- What a call that returns has done. -/
private theorem handleVmexit_ok {block block' : StackGuestGprs} (hf : e.entryFailed = false)
    (hr : handleVmexit h block e = .ok (ret, block', e')) :
    dispatch h (e.imported block) (e.vmcs.vmread guestRip) e.reason (e.vmcs.vmread vmExitQualification) = .ok (ret, e') ∧
      block' = exportRegs e'.regs block := by
  unfold handleVmexit at hr
  rw [hf, if_neg Bool.false_ne_true] at hr
  dsimp only at hr
  split at hr
  · cases hr
  split at hr
  · cases hr
  · rename_i hd
    cases hr
    exact ⟨hd, rfl⟩

end Writes

section Flow

variable {h : ExitHost π} {e e' : VmExit π} {cpu host : Gpr → U64} {ret : Int} {block' : StackGuestGprs}

/-- The guest goes on with the registers of the handler, on either way back. -/
structure Carried (h : ExitHost π) (e e' : VmExit π) (cpu host : Gpr → U64) (block' : StackGuestGprs) : Prop where
  resumed : Reached (HandlerWrites h (pushAll cpu) e) cpu (enterGuest e'.vmcs (popAll popOrder block' host))
  reentered : ∃ regs, relmVmentryAsm e'.regs e'.launched host = some (true, regs) ∧
    Reached (HandlerWrites h (pushAll cpu) e) cpu (enterGuest e'.vmcs regs)

/-- A register file that agrees with the one written, except for `RSP`, which has stayed. -/
private theorem reached_but_rsp_iff {writes : Gpr → U64 → Prop} {new : Gpr → U64} (hn : Reached writes cpu new)
    (entered : Gpr → U64) (hother : ∀ r, r ≠ .rsp → entered r = new r) (hsp : entered .rsp = cpu .rsp) :
    Reached writes cpu entered ↔ ∀ value, writes .rsp value → value = cpu .rsp := by
  constructor
  · intro hr value hw
    rw [← hr.written _ _ hw, hsp]
  · intro hrsp
    refine ⟨fun r value hw => ?_, fun r hno => ?_⟩
    · by_cases hr : r = .rsp
      · subst hr
        rw [hsp, hrsp value hw]
      · rw [hother r hr, hn.written r value hw]
    · by_cases hr : r = .rsp
      · subst hr
        exact hsp
      · rw [hother r hr, hn.others r hno]

/-- What a handler writes to a register reaches the guest, and all other registers stay, on both ways back into the guest,
exactly if it does not change `RSP`: no code takes that register from `vcpu->arch.regs` to `GUEST_RSP`. -/
theorem emulated_writes_reach_guest_iff (hsp : cpu .rsp = e.vmcs.vmread guestRsp)
    (hw : ∃ reg value, HandlerWrites h (pushAll cpu) e reg value)
    (hr : handleVmexit h (pushAll cpu) e = .ok (ret, block', e')) :
    Carried h e e' cpu host block' ↔ ∀ value, HandlerWrites h (pushAll cpu) e .rsp value → value = cpu .rsp := by
  obtain ⟨reg, value, hf, hwrite⟩ := hw
  obtain ⟨hd, hblock⟩ := handleVmexit_ok hf hr
  rw [exportRegs_pushAll] at hblock
  have hdone := dispatch_writes (e := e.imported (pushAll cpu)) ⟨reg, value, hwrite⟩ hd
  have hregs : Reached (HandlerWrites h (pushAll cpu) e) cpu e'.regs.gpr := by
    have himport : (e.imported (pushAll cpu)).regs.gpr = cpu := importRegs_pushAll hsp
    refine ⟨fun r v hv => hdone.regs.written r v hv.2, fun r hno => ?_⟩
    rw [hdone.regs.others r fun v hv => hno v ⟨hf, hv⟩, himport]
  have hstack : e'.vmcs.vmread guestRsp = cpu .rsp := hdone.guestRsp.trans hsp.symm
  have hrsp : ∀ regs : Gpr → U64, enterGuest e'.vmcs regs .rsp = cpu .rsp :=
    fun regs => (Function.update_self ..).trans hstack
  have hother : ∀ (regs : Gpr → U64) r, r ≠ .rsp → enterGuest e'.vmcs regs r = regs r :=
    fun regs r hne => Function.update_of_ne hne _ _
  obtain ⟨regs, hasm, hloaded⟩ := vmentryAsm_spec e'.regs e'.launched host
  rw [show e'.launched = true from hdone.launched] at hasm
  have hresume := reached_but_rsp_iff hregs (enterGuest e'.vmcs (popAll popOrder block' host))
    (fun r hne => by rw [hother _ r hne, hblock, popAll_pushAll hne]) (hrsp _)
  have hentry := reached_but_rsp_iff hregs (enterGuest e'.vmcs regs)
    (fun r hne => by rw [hother _ r hne, hloaded r hne]) (hrsp _)
  constructor
  · exact fun hc => hresume.mp hc.resumed
  · intro hcond
    refine ⟨hresume.mpr hcond, regs, ?_, hentry.mpr hcond⟩
    rw [show e'.launched = true from hdone.launched]
    exact hasm

/-- The guest's registers at the exit: 1 in each but `RSP`. -/
private def exitCpu : Gpr → U64 := Function.update (fun _ => 1#64) .rsp 0x8000#64

/-- A MOV from `CR3` to the register of a number. -/
private def movFromCr3 (index : U64) : VmExit Unit := bareExit 0x1C#64 (0x13#64 ||| index <<< 8) 0x1000#64

/-- The exit is handled, and the only register that its handler writes is the one it names. -/
private theorem movFromCr3_spec {index : U64} {reg : Gpr} (hf : (movFromCr3 index).entryFailed = false)
    (hr : (movFromCr3 index).reason = .crAccess)
    (hn : ((movFromCr3 index).vmcs.vmread vmExitQualification &&& crAccessCrNumberMask).toNat = 3)
    (ht : crAccessType ((movFromCr3 index).vmcs.vmread vmExitQualification) ≠ crAccessTypeWrite)
    (hreg : guestRegPtr (crSourceReg ((movFromCr3 index).vmcs.vmread vmExitQualification)).toNat = some reg) :
    (∃ ret block' e', handleVmexit bareHost (pushAll exitCpu) (movFromCr3 index) = .ok (ret, block', e')) ∧
      HandlerWrites bareHost (pushAll exitCpu) (movFromCr3 index) reg 0x1000#64 ∧
      ∀ r value, HandlerWrites bareHost (pushAll exitCpu) (movFromCr3 index) r value → r = reg := by
  refine ⟨?_, ⟨hf, .cr3 hr hn ht hreg⟩, fun r value hw => ?_⟩
  · rw [handleVmexit_eq hf (bareExit_backed _ _ _), hr]
    exact ⟨_, _, _, rfl⟩
  · have hreason : ((movFromCr3 index).imported (pushAll exitCpu)).reason = .crAccess := hr
    obtain ⟨-, hw⟩ := hw
    cases hw
    case cr3 hreg' => exact Option.some.inj (hreg'.symm.trans hreg)
    all_goals simp_all

/-- `mov %cr3, %rax`. -/
theorem emulated_writes_reach_guest_rax : ∃ ret block' e',
    handleVmexit bareHost (pushAll exitCpu) (movFromCr3 0#64) = .ok (ret, block', e') ∧
      Carried bareHost (movFromCr3 0#64) e' exitCpu (fun _ => 0#64) block' := by
  obtain ⟨⟨ret, block', e', hret⟩, hw, honly⟩ := movFromCr3_spec
    (show (movFromCr3 0#64).entryFailed = false by decide) (by decide) (by decide) (by decide) rfl
  refine ⟨ret, block', e', hret, (emulated_writes_reach_guest_iff rfl ⟨_, _, hw⟩ hret).mpr fun value hrsp => ?_⟩
  cases honly _ _ hrsp

/-- `mov %cr3, %rsp`: the guest goes on with its old stack pointer. -/
theorem emulated_write_to_rsp_lost : ∃ ret block' e',
    handleVmexit bareHost (pushAll exitCpu) (movFromCr3 4#64) = .ok (ret, block', e') ∧
      ¬ Carried bareHost (movFromCr3 4#64) e' exitCpu (fun _ => 0#64) block' := by
  obtain ⟨⟨ret, block', e', hret⟩, hw, -⟩ := movFromCr3_spec
    (show (movFromCr3 4#64).entryFailed = false by decide) (by decide) (by decide) (by decide) rfl
  refine ⟨ret, block', e', hret, fun hc => ?_⟩
  have hdone := dispatch_writes (e := (movFromCr3 4#64).imported (pushAll exitCpu)) ⟨_, _, hw.2⟩ (handleVmexit_ok hw.1 hret).1
  have hkept : enterGuest e'.vmcs (popAll popOrder block' fun _ => 0#64) .rsp = 0x8000#64 :=
    (Function.update_self ..).trans hdone.guestRsp
  have hwritten : enterGuest e'.vmcs (popAll popOrder block' fun _ => 0#64) .rsp = 0x1000#64 := hc.resumed.written _ _ hw
  rw [hkept] at hwritten
  exact absurd hwritten (by decide)

end Flow

end Relm.Vmx
