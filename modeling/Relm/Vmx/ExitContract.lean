import Relm.Vmx.VmExit

/-! The return contract of `handle_vmexit`: 1 resumes a guest that has been moved past its instruction, 0 unwinds with a
vCPU that is halted or to be stopped, and there is no other value. -/
namespace Relm.Vmx
open Relm.Vm Relm.Virtio Relm.Decoder IoPorts

variable {π : Type}

namespace VmExit

variable (h : ExitHost π) (e e' : VmExit π)

/-- An external interrupt or an NMI. -/
def Asynchronous : Prop := e.reason = .externalInterrupt ∨ (e.reason = .exceptionNmi ∧ isNmi e.vmcs = true)

/-- The length of the instruction that caused an exit: the processor reports it, except for an EPT violation, where it is
decoded. -/
def InsnLength (len : U64) : Prop :=
  if e.reason = .eptViolation then ∃ n bytes ret decoded,
    fetchInsn e.vmcs e.vm (relmMmuRipToLinear e.vmcs (e.vmcs.vmread guestRip)) h.mmioBuf = .ok (n, bytes) ∧ 0 ≤ n ∧
      h.decode bytes = (ret, decoded) ∧ 0 ≤ ret ∧ len = decoded.length.setWidth 64
  else len = e.vmcs.vmread vmExitInstructionLen

/-- What the stub and the run loop rely on when the handler of `e` returns `ret` and leaves `e'`. -/
structure Kept (ret : Int) : Prop where
  value : ret = 0 ∨ ret = 1
  unwound : ret = 0 → e'.halted h.vcpuId = true ∨ e'.state = .stopped ∨ e'.state = .error
  resumed : ret = 1 → e.Asynchronous ∨
    ∃ len, e.InsnLength h len ∧ e'.vmcs.vmread guestRip = e.vmcs.vmread guestRip + len

/-- `handle_vmexit` returns, and keeps the contract. -/
def Honoured (block : StackGuestGprs) : Prop :=
  ∃ ret block' e', handleVmexit h block e = .ok (ret, block', e') ∧ e.Kept h e' ret

/-- The control register that a MOV writes has a read shadow that can be written. -/
def ShadowWritable (qualification : U64) : Prop :=
  crAccessType qualification = crAccessTypeWrite →
    ((qualification &&& crAccessCrNumberMask).toNat = 0 → e.vmcs.supported cr0ReadShadow = true) ∧
    ((qualification &&& crAccessCrNumberMask).toNat = 4 → e.vmcs.supported cr4ReadShadow = true)

/-- The exits that are handled without breaking the contract, for a state in which the registers have been imported. -/
def Manageable : Prop :=
  match e.reason with
  | .apicAccess => e.apicExit.accessType = apicAccessTypeLinearFetch ∨
      ∃ decoded, e.apicExit.Accepts h.decode h.insnBuf decoded
  | .ioInstruction => (ioExit e (e.vmcs.vmread guestRip) (e.vmcs.vmread vmExitQualification)).emulated = true →
      e.fwData.isSome = true
  | .vmcall => fromDiagStub e (e.vmcs.vmread guestRip) = true →
      e.halted h.vcpuId = true ∨ e.state = .stopped ∨ e.state = .error
  | .crAccess => e.ShadowWritable (e.vmcs.vmread vmExitQualification)
  | _ => True

end VmExit

namespace Vmcs

variable {v : Vmcs} {enc enc' : Nat} {value : U64}

@[simp] theorem vmwriteIgnored_supported (v : Vmcs) (enc : Nat) (value : U64) :
    (v.vmwriteIgnored enc value).supported = v.supported := by
  unfold vmwriteIgnored vmwrite
  split <;> rfl

theorem vmwriteIgnored_vmread_other (h : enc' ≠ enc) : (v.vmwriteIgnored enc value).vmread enc' = v.vmread enc' := by
  unfold vmwriteIgnored vmwrite
  split
  · simp [vmread, if_neg h]
  · rfl

theorem vmwriteIgnored_vmread (hs : v.supported enc = true) (hw : fieldWidth enc = 64) :
    (v.vmwriteIgnored enc value).vmread enc = value := by
  rw [vmwriteIgnored, vmwrite_eq hs, Option.getD_some]
  exact vmread_vmwrite hw (vmwrite_eq hs value)

end Vmcs

section Dumps

variable {h : ExitHost π} {v : Vmcs} {s : VmState}

private theorem dumpInsn_noFault (hb : AllBacked s.memory.memRegions) (gva : U64) :
    ∃ r, relmArchDumpGuestInsn h v s gva = .ok r := by
  unfold relmArchDumpGuestInsn
  obtain ⟨⟨ret, raw⟩, hcopy⟩ := copyVirt_noFault hb v gva h.dumpBuf.toList
  rw [hcopy]
  dsimp only
  split
  · exact ⟨_, rfl⟩
  · split <;> exact ⟨_, rfl⟩

private theorem dumpRange_noFault (hb : AllBacked s.memory.memRegions) (gvaEnd : U64) (left : Nat) (cursor : U64) :
    ∃ r, relmDumpGuestInsnRange h v s gvaEnd left cursor = .ok r := by
  induction left generalizing cursor with
  | zero => exact ⟨_, rfl⟩
  | succ left ih =>
    unfold relmDumpGuestInsnRange
    split
    · obtain ⟨r, hr⟩ := dumpInsn_noFault (h := h) (v := v) hb cursor
      rw [hr]
      cases r with
      | error => exact ⟨_, rfl⟩
      | ok length => exact ih _
    · exact ⟨_, rfl⟩

private theorem dumpPageFault_noFault (hb : AllBacked s.memory.memRegions) (rip : U64) :
    ∃ r, relmDumpPageFault h v s rip = .ok r := by
  have hwindow : ∃ r, relmPageFaultDumpInsnWindow h v s rip = .ok r := by
    unfold relmPageFaultDumpInsnWindow
    split
    · exact ⟨_, rfl⟩
    · exact dumpRange_noFault hb _ _ _
  unfold relmDumpPageFault
  obtain ⟨r, hr⟩ := gvaToGpa_noFault (fun r hr => (hb r hr).1) (fun _ _ r hr => (hb r (findRegion_mem hr)).2) v h.cr2
  rw [hr]
  cases r with
  | error => exact hwindow
  | ok gpa =>
    dsimp only
    split
    · exact ⟨_, rfl⟩
    · exact hwindow

end Dumps

section Contract

variable {h : ExitHost π} {e e' : VmExit π} {rip qualification : U64}

private theorem advance_guestRip (hs : e.vmcs.supported guestRip = true) (rip : U64) :
    (e.advance rip).vmcs.vmread guestRip = rip + e.vmcs.vmread vmExitInstructionLen :=
  Vmcs.vmwriteIgnored_vmread hs rfl

private theorem kept_unwound (h : ExitHost π) (e : VmExit π)
    (hst : e'.halted h.vcpuId = true ∨ e'.state = .stopped ∨ e'.state = .error) : e.Kept h e' 0 :=
  ⟨.inl rfl, fun _ => hst, fun hone => absurd hone (by decide)⟩

private theorem kept_stop (h : ExitHost π) (e x : VmExit π) : e.Kept h x.stop.2 x.stop.1 :=
  kept_unwound h e (.inr (.inl rfl))

private theorem kept_async (ha : e.Asynchronous) (h : ExitHost π) (e' : VmExit π) : e.Kept h e' 1 :=
  ⟨.inr rfl, fun hzero => absurd hzero (by decide), fun _ => .inl ha⟩

private theorem kept_advanced (hr : e.reason ≠ .eptViolation)
    (hrip : e'.vmcs.vmread guestRip = e.vmcs.vmread guestRip + e.vmcs.vmread vmExitInstructionLen) : e.Kept h e' 1 := by
  refine ⟨.inr rfl, fun hzero => absurd hzero (by decide), fun _ => .inr ⟨_, ?_, hrip⟩⟩
  rw [VmExit.InsnLength, if_neg hr]

/-- A handler that returns an error number breaks the contract. -/
private theorem not_kept_of_neg {ret : Int} (hneg : ret < 0) : ¬ e.Kept h e' ret := by
  intro hk
  have hvalue := hk.value
  omega

private theorem exceptionNmi_kept (hr : e.reason = .exceptionNmi) (hb : AllBacked e.vm.memory.memRegions) (rip : U64) :
    ∃ ret e', handleExceptionNmi h e rip = .ok (ret, e') ∧ e.Kept h e' ret := by
  unfold handleExceptionNmi
  split
  · rename_i hnmi
    exact ⟨_, _, rfl, kept_async (.inr ⟨hr, hnmi⟩) h e⟩
  dsimp only
  split
  · obtain ⟨r, hdump⟩ := dumpPageFault_noFault (h := h) (v := e.vmcs) hb rip
    rw [hdump]
    exact ⟨_, _, rfl, kept_stop h e e⟩
  · exact ⟨_, _, rfl, kept_stop h e e⟩

private theorem hlt_kept {v : Vcpu} (hv : e.vcpus[h.vcpuId]? = some (some v)) (rip : U64) :
    e.Kept h (handleHlt h e rip).2 (handleHlt h e rip).1 := by
  refine kept_unwound h e (.inl ?_)
  change VmExit.halted { e with vcpus := e.vcpus.modify h.vcpuId _ } h.vcpuId = true
  simp only [VmExit.halted, List.getElem?_modify, hv]
  rfl

private theorem io_kept_iff (hr : e.reason ≠ .eptViolation) (hs : e.vmcs.supported guestRip = true) :
    (∃ ret e', handleIoExit e (e.vmcs.vmread guestRip) qualification = .ok (ret, e') ∧ e.Kept h e' ret) ↔
      ((ioExit e (e.vmcs.vmread guestRip) qualification).emulated = true → e.fwData.isSome = true) := by
  unfold handleIoExit handleIoInstruction fwCfgCall
  have hadvance : ∀ x : VmExit π, x.vmcs = e.vmcs → e.Kept h
      (x.vmwriteIgnored guestRip (e.vmcs.vmread guestRip + e.vmcs.vmread vmExitInstructionLen)) 1 := by
    intro x hx
    refine kept_advanced hr ?_
    exact Vmcs.vmwriteIgnored_vmread (v := x.vmcs) (by rw [hx]; exact hs) rfl
  cases hem : (ioExit e (e.vmcs.vmread guestRip) qualification).emulated with
  | false => exact ⟨fun _ hc => absurd hc Bool.false_ne_true, fun _ => ⟨_, _, rfl, hadvance _ rfl⟩⟩
  | true =>
    cases hfw : e.fwData with
    | none =>
      refine ⟨fun ⟨ret, e', hr, _⟩ => ?_, fun hsome => ?_⟩
      · cases hr
      · cases hsome rfl
    | some data =>
      refine ⟨fun _ _ => rfl, fun _ => ⟨_, _, rfl, ?_⟩⟩
      rw [Firmware.handleIo_ret]
      exact hadvance _ rfl

private theorem vmcall_kept_iff (hr : e.reason ≠ .eptViolation) (hs : e.vmcs.supported guestRip = true) :
    e.Kept h (handleVmcall e (e.vmcs.vmread guestRip)).2 (handleVmcall e (e.vmcs.vmread guestRip)).1 ↔
      (fromDiagStub e (e.vmcs.vmread guestRip) = true → e.halted h.vcpuId = true ∨ e.state = .stopped ∨ e.state = .error) := by
  unfold handleVmcall
  cases hd : fromDiagStub e (e.vmcs.vmread guestRip) with
  | true =>
    exact ⟨fun hk _ => hk.unwound rfl, fun hst => kept_unwound h e (hst rfl)⟩
  | false =>
    exact ⟨fun _ hc => absurd hc Bool.false_ne_true, fun _ => kept_advanced hr (advance_guestRip hs _)⟩

private theorem msrWrite_kept (hr : e.reason ≠ .eptViolation) (hs : e.vmcs.supported guestRip = true) :
    e.Kept h (handleMsrWrite e (e.vmcs.vmread guestRip)).2 (handleMsrWrite e (e.vmcs.vmread guestRip)).1 := by
  refine kept_advanced hr ?_
  unfold handleMsrWrite
  dsimp only
  split
  · rw [advance_guestRip (by simpa [writeEfer, VmExit.vmwriteIgnored] using hs)]
    congr 1
    unfold writeEfer VmExit.vmwriteIgnored
    dsimp only
    rw [Vmcs.vmwriteIgnored_vmread_other (by decide), Vmcs.vmwriteIgnored_vmread_other (by decide)]
  · exact advance_guestRip hs _

theorem crSourceReg_le (qualification : U64) : (crSourceReg qualification).toNat ≤ 15 := by
  have hmask := Lib.Word.and_field_toNat qualification crAccessSourceRegMask 8 12 (by decide) (by decide)
  rw [crSourceReg, BitVec.toNat_setWidth, BitVec.toNat_ushiftRight, hmask, crAccessSourceRegShift, Nat.shiftRight_eq_div_pow]
  omega

private theorem crWrite_kept_iff (hr : e.reason ≠ .eptViolation) (hs : e.vmcs.supported guestRip = true) {field shadow : Nat}
    (shown : U64 → U64) (fixed0 fixed1 : U64) {keep : VmExit π → U64 → VmExit π} (hkeep : ∀ e value, (keep e value).vmcs = e.vmcs)
    (hfield : field ≠ guestRip ∧ field ≠ vmExitInstructionLen) (hshadow : shadow ≠ guestRip ∧ shadow ≠ vmExitInstructionLen) :
    e.Kept h (crWriteHandleExit e field shadow shown fixed0 fixed1 keep qualification).2
      (crWriteHandleExit e field shadow shown fixed0 fixed1 keep qualification).1 ↔ e.vmcs.supported shadow = true := by
  unfold crWriteHandleExit
  rw [if_neg (Nat.not_lt.mpr (crSourceReg_le qualification))]
  dsimp only
  generalize (e.regs.guestRegRead _ ||| fixed0) &&& fixed1 = value
  have hvmcs : ((keep e value).vmwriteIgnored field value).vmcs = e.vmcs.vmwriteIgnored field value := by
    rw [VmExit.vmwriteIgnored, hkeep]
  rw [hvmcs]
  by_cases hsup : e.vmcs.supported shadow = true
  · have hsup' : (e.vmcs.vmwriteIgnored field value).supported shadow = true := by
      rw [Vmcs.vmwriteIgnored_supported]
      exact hsup
    have hread : ∀ enc, field ≠ enc → shadow ≠ enc →
        ((e.vmcs.vmwriteIgnored field value).vmwriteIgnored shadow (shown value)).vmread enc = e.vmcs.vmread enc := by
      intro enc hf hsh
      rw [Vmcs.vmwriteIgnored_vmread_other (Ne.symm hsh), Vmcs.vmwriteIgnored_vmread_other (Ne.symm hf)]
    have hwrite : (e.vmcs.vmwriteIgnored field value).vmwrite shadow (shown value) =
        some ((e.vmcs.vmwriteIgnored field value).vmwriteIgnored shadow (shown value)) := by
      rw [Vmcs.vmwriteIgnored.eq_1 (e.vmcs.vmwriteIgnored field value), Vmcs.vmwrite_eq hsup', Option.getD_some]
    rw [hwrite]
    refine ⟨fun _ => hsup, fun _ => kept_advanced hr ?_⟩
    rw [advance_guestRip (by simpa using hs), hread guestRip hfield.1 hshadow.1,
      hread vmExitInstructionLen hfield.2 hshadow.2]
  · have hnone : (e.vmcs.vmwriteIgnored field value).vmwrite shadow (shown value) = none := by
      rw [Vmcs.vmwrite, Vmcs.vmwriteIgnored_supported, if_neg hsup]
    have hneg : -Errno.eio.code < 0 := by decide
    rw [hnone]
    exact ⟨fun hk => absurd hk (not_kept_of_neg hneg), fun hc => absurd hc hsup⟩

private theorem cr3_kept (hr : e.reason ≠ .eptViolation) (hs : e.vmcs.supported guestRip = true) (accType : U32) :
    e.Kept h (relmCr3PassthroughHandleExit e qualification accType).2
      (relmCr3PassthroughHandleExit e qualification accType).1 := by
  have hadvance : ∀ x : VmExit π, x.vmcs.supported = e.vmcs.supported → x.vmcs.vmread guestRip = e.vmcs.vmread guestRip →
      x.vmcs.vmread vmExitInstructionLen = e.vmcs.vmread vmExitInstructionLen → e.Kept h (x.advance (x.vmcs.vmread guestRip)) 1 := by
    intro x hsup hrip hlen
    refine kept_advanced hr ?_
    rw [advance_guestRip (by rw [hsup]; exact hs), hrip, hlen]
  unfold relmCr3PassthroughHandleExit
  dsimp only
  split
  · exact hadvance e rfl rfl rfl
  split
  · exact hadvance _ (Vmcs.vmwriteIgnored_supported ..) (Vmcs.vmwriteIgnored_vmread_other (by decide))
      (Vmcs.vmwriteIgnored_vmread_other (by decide))
  · exact hadvance _ rfl rfl rfl

private theorem crAccess_kept_iff (hr : e.reason ≠ .eptViolation) (hs : e.vmcs.supported guestRip = true) :
    e.Kept h (handleCrAccess h e qualification).2 (handleCrAccess h e qualification).1 ↔ e.ShadowWritable qualification := by
  unfold handleCrAccess VmExit.ShadowWritable
  split
  · rename_i hn
    rw [hn]
    split
    · rename_i hw
      rw [relmCr0WriteHandleExit]
      refine (crWrite_kept_iff hr hs _ _ _ ?_ (by decide) (by decide)).trans ?_
      · exact fun _ _ => rfl
      exact ⟨fun hsup _ => ⟨fun _ => hsup, fun hc => absurd hc (by decide)⟩, fun hc => (hc hw).1 rfl⟩
    · rename_i hw
      exact ⟨fun _ hc => absurd hc hw, fun _ => kept_stop h e e⟩
  · rename_i hn
    rw [hn]
    exact ⟨fun _ _ => ⟨fun hc => absurd hc (by decide), fun hc => absurd hc (by decide)⟩, fun _ => cr3_kept hr hs _⟩
  · rename_i hn
    rw [hn]
    split
    · rename_i hw
      rw [relmCr4WriteHandleExit]
      refine (crWrite_kept_iff hr hs _ _ _ ?_ (by decide) (by decide)).trans ?_
      · exact fun _ _ => rfl
      exact ⟨fun hsup _ => ⟨fun hc => absurd hc (by decide), fun _ => hsup⟩, fun hc => (hc hw).2 rfl⟩
    · rename_i hw
      exact ⟨fun _ hc => absurd hc hw, fun _ => kept_stop h e e⟩
  · rename_i h0 _ h4
    exact ⟨fun _ _ => ⟨fun hc => absurd hc h0, fun hc => absurd hc h4⟩, fun _ => kept_stop h e e⟩

private theorem xsetbv_kept (hr : e.reason ≠ .eptViolation) (hs : e.vmcs.supported guestRip = true) :
    e.Kept h (handleXsetbv e (e.vmcs.vmread guestRip)).2 (handleXsetbv e (e.vmcs.vmread guestRip)).1 := by
  unfold handleXsetbv
  dsimp only
  split
  · exact kept_stop h e e
  split
  · exact kept_stop h e e
  · refine kept_advanced hr ?_
    exact Vmcs.vmwriteIgnored_vmread hs rfl

private theorem eptViolation_kept (hr : e.reason = .eptViolation) (hs : e.vmcs.supported guestRip = true)
    (hb : AllBacked e.vm.memory.memRegions) (hrip : e.regs.rip = e.vmcs.vmread guestRip) :
    ∃ ret e', handleEptViolation h e qualification = .ok (ret, e') ∧ e.Kept h e' ret := by
  unfold handleEptViolation
  dsimp only
  split
  · have ho := mmioHandle_outcome h.decode h.ops h.vmId h.vcpuId h.mmioBuf (e.vmcs.vmread guestPhysicalAddress) e.mmioExit
    generalize relmVirtioMmioHandleEptViolation h.decode h.ops h.vmId h.vcpuId h.mmioBuf _ e.mmioExit = r at ho ⊢
    cases ho with
    | fault hno => exact absurd hb hno
    | refused => exact ⟨_, _, rfl, kept_unwound h e (.inr (.inr rfl))⟩
    | @emulated dev decoded a ha =>
      refine ⟨_, _, rfl, ⟨.inr rfl, fun hzero => absurd hzero (by decide), fun _ => .inr ⟨decoded.length.setWidth 64, ?_, ?_⟩⟩⟩
      · obtain ⟨n, bytes, ret, hfetch, hn, hdec, hret⟩ := ha.fetched
        rw [VmExit.InsnLength, if_pos hr, ← hrip]
        exact ⟨n, bytes, ret, decoded, hfetch, hn, hdec, hret, rfl⟩
      · rw [← hrip]
        exact MmioExit.step_guestRip (e := e.mmioExit) hs e.regs.rip decoded.length
  · exact ⟨_, _, rfl, kept_stop h e e⟩

private theorem apicAccess_kept_iff (hr : e.reason ≠ .eptViolation) (hs : e.vmcs.supported guestRip = true)
    (hb : AllBacked e.vm.memory.memRegions) : (∃ ret e', handleApicAccess h e = .ok (ret, e') ∧ e.Kept h e' ret) ↔
      (e.apicExit.accessType = apicAccessTypeLinearFetch ∨ ∃ decoded, e.apicExit.Accepts h.decode h.insnBuf decoded) := by
  unfold handleApicAccess
  have ho := apicHandleAccess_outcome h.decode h.vcpuId h.now h.insnBuf e.apicExit
  generalize relmApicHandleAccess h.decode h.vcpuId h.now h.insnBuf e.apicExit = r at ho ⊢
  cases ho with
  | fault hno => exact absurd hb hno
  | stopped hf => exact ⟨fun _ => .inl hf, fun _ => ⟨_, _, rfl, kept_unwound h e (.inr (.inl rfl))⟩⟩
  | refused hf hnot hneg =>
    constructor
    · rintro ⟨ret, e', heq, hk⟩
      cases heq
      exact absurd hk (not_kept_of_neg hneg)
    · rintro (hc | ⟨decoded, ha⟩)
      · exact absurd hc hf
      · exact absurd ha (hnot decoded)
  | @emulated decoded e' ha hem =>
    refine ⟨fun _ => .inr ⟨decoded, ha⟩, fun _ => ⟨_, _, rfl, kept_advanced hr ?_⟩⟩
    have hlen : decoded.length.setWidth 64 = e.vmcs.vmread vmExitInstructionLen := by
      apply BitVec.eq_of_toNat_eq
      have hlength := ha.length
      have hlt := decoded.length.isLt
      rw [BitVec.toNat_setWidth, Nat.mod_eq_of_lt (by omega)]
      exact hlength
    rw [← hlen]
    exact ApicExit.step_guestRip (e := e.apicExit) (ApicExit.emulate_vmcs hem) hs _ _

/-- Past the diagnostics, which only read and print, the dispatch decides. -/
theorem handleVmexit_eq (hf : e.entryFailed = false) (hb : AllBacked e.vm.memory.memRegions) (block : StackGuestGprs) :
    handleVmexit h block e =
      (dispatch h (e.imported block) (e.vmcs.vmread guestRip) e.reason (e.vmcs.vmread vmExitQualification)).map
        fun r => (r.1, exportRegs r.2.regs block, r.2) := by
  unfold handleVmexit
  rw [hf, if_neg Bool.false_ne_true]
  obtain ⟨r, hdump⟩ := dumpInsn_noFault (h := h) (v := e.vmcs) hb (e.vmcs.vmread guestRip)
  dsimp only
  rw [hdump]
  dsimp only
  cases dispatch h (e.imported block) (e.vmcs.vmread guestRip) e.reason (e.vmcs.vmread vmExitQualification) <;> rfl

/-- The import of the registers changes nothing that the contract is about. -/
private theorem kept_imported {block : StackGuestGprs} {ret : Int} : (e.imported block).Kept h e' ret ↔ e.Kept h e' ret :=
  ⟨fun ⟨hvalue, hunwound, hresumed⟩ => ⟨hvalue, hunwound, hresumed⟩,
    fun ⟨hvalue, hunwound, hresumed⟩ => ⟨hvalue, hunwound, hresumed⟩⟩

/-- The contract in terms of the handler. -/
private theorem honoured_iff (hf : e.entryFailed = false) (hb : AllBacked e.vm.memory.memRegions) (block : StackGuestGprs) :
    e.Honoured h block ↔ ∃ ret e', dispatch h (e.imported block) (e.vmcs.vmread guestRip) e.reason
      (e.vmcs.vmread vmExitQualification) = .ok (ret, e') ∧ (e.imported block).Kept h e' ret := by
  rw [VmExit.Honoured, handleVmexit_eq hf hb]
  generalize dispatch h (e.imported block) (e.vmcs.vmread guestRip) e.reason (e.vmcs.vmread vmExitQualification) = r
  constructor
  · rintro ⟨ret, block', e', heq, hk⟩
    cases r with
    | error fault => cases heq
    | ok r =>
      cases heq
      exact ⟨r.1, r.2, rfl, kept_imported.mpr hk⟩
  · rintro ⟨ret, e', rfl, hk⟩
    exact ⟨ret, _, e', rfl, kept_imported.mp hk⟩

/-- Every reason's handler keeps the contract exactly where its exit can be managed. -/
private theorem dispatch_kept_iff {v : Vcpu} (hv : e.vcpus[h.vcpuId]? = some (some v))
    (hs : e.vmcs.supported guestRip = true) (hb : AllBacked e.vm.memory.memRegions) (hrip : e.regs.rip = e.vmcs.vmread guestRip) :
    (∃ ret e', dispatch h e (e.vmcs.vmread guestRip) e.reason (e.vmcs.vmread vmExitQualification) = .ok (ret, e') ∧
      e.Kept h e' ret) ↔ e.Manageable h := by
  have hlift : ∀ {r : Except HostFault (Int × VmExit π)}, (∃ ret e', ofHostFault r = .ok (ret, e') ∧ e.Kept h e' ret) ↔
      ∃ ret e', r = .ok (ret, e') ∧ e.Kept h e' ret := by
    intro r
    cases r with
    | error fault => simp [ofHostFault]
    | ok r => simp [ofHostFault]
  have hpair : ∀ {r : Int × VmExit π}, (∃ ret e', (Except.ok r : Except Fault _) = .ok (ret, e') ∧ e.Kept h e' ret) ↔
      e.Kept h r.2 r.1 := by
    intro r
    obtain ⟨ret, e'⟩ := r
    simp
  unfold dispatch VmExit.Manageable
  have hnot : ∀ {r : ExitReason}, e.reason = r → r ≠ .eptViolation → e.reason ≠ .eptViolation := fun heq hne => heq ▸ hne
  cases hr : e.reason with
  | exceptionNmi => exact hlift.trans (iff_true_intro (exceptionNmi_kept hr hb _))
  | externalInterrupt => exact hpair.trans (iff_true_intro (kept_async (.inl hr) h e))
  | tripleFault | initSignal | invalidGuestState | vmxPreemptionTimerExpired | other =>
    exact hpair.trans (iff_true_intro (kept_stop h e e))
  | apicAccess => exact hlift.trans (apicAccess_kept_iff (hnot hr (by decide)) hs hb)
  | hlt => exact hpair.trans (iff_true_intro (hlt_kept hv _))
  | cpuid => exact hpair.trans (iff_true_intro (kept_advanced (hnot hr (by decide)) (Vmcs.vmwriteIgnored_vmread hs rfl)))
  | ioInstruction => exact io_kept_iff (hnot hr (by decide)) hs
  | vmcall => exact hpair.trans (vmcall_kept_iff (hnot hr (by decide)) hs)
  | msrRead => exact hpair.trans (iff_true_intro (kept_advanced (hnot hr (by decide)) (Vmcs.vmwriteIgnored_vmread hs rfl)))
  | msrWrite => exact hpair.trans (iff_true_intro (msrWrite_kept (hnot hr (by decide)) hs))
  | eptViolation => exact hlift.trans (iff_true_intro (eptViolation_kept hr hs hb hrip))
  | crAccess => exact hpair.trans (crAccess_kept_iff (hnot hr (by decide)) hs)
  | eptMisconfig => exact hpair.trans (iff_true_intro (kept_unwound h e (.inr (.inr rfl))))
  | xsetbv => exact hpair.trans (iff_true_intro (xsetbv_kept (hnot hr (by decide)) hs))

/-- A VM exit is handled as the stub and the run loop expect exactly where it can be managed: an APIC access is a fetch or
a transfer that the two descriptions agree on, a port of fw_cfg has firmware behind it, a VMCALL does not come from a
diagnostic stub (unless the vCPU was on its way out), and a control register that is written has its read shadow. -/
theorem vmexit_contract_iff (h : ExitHost π) (block : StackGuestGprs) (e : VmExit π) {v : Vcpu}
    (hv : e.vcpus[h.vcpuId]? = some (some v)) (hs : e.vmcs.supported guestRip = true)
    (hb : AllBacked e.vm.memory.memRegions) :
    e.Honoured h block ↔ e.entryFailed = true ∨ (e.imported block).Manageable h := by
  cases hf : e.entryFailed with
  | true =>
    refine iff_of_true ⟨0, block, { e with state := .stopped }, ?_, kept_unwound h e (.inr (.inl rfl))⟩ (.inl rfl)
    unfold handleVmexit
    rw [hf]
    rfl
  | false =>
    refine (honoured_iff hf hb block).trans ((dispatch_kept_iff (e := e.imported block) hv hs hb rfl).trans ?_)
    exact ⟨.inr, fun hm => hm.resolve_left Bool.false_ne_true⟩

/-- CPUID is handled as expected. -/
theorem vmexit_contract_cpuid : (bareExit 0x0A#64 0#64 0x1000#64).Honoured bareHost (List.replicate 15 0) :=
  (vmexit_contract_iff bareHost (List.replicate 15 0) (bareExit 0x0A#64 0#64 0x1000#64) rfl rfl
    (bareExit_backed _ _ _)).mpr (.inr trivial)

/-- The VMCALL of the stub for vector 0 unwinds with the vCPU still running. -/
theorem vmexit_contract_diag_stub : ¬ (bareExit 0x12#64 0#64 0x6005#64).Honoured bareHost (List.replicate 15 0) := by
  rintro ⟨ret, block', e', heq, hk⟩
  rw [handleVmexit_eq (by decide) (bareExit_backed _ _ _)] at heq
  have hret : (ret, block', e') = (0, _, (bareExit 0x12#64 0#64 0x6005#64).imported (List.replicate 15 0)) :=
    (Except.ok.inj heq).symm
  cases hret
  rcases hk.unwound rfl with hc | hc | hc
  · exact absurd hc (by decide)
  · cases hc
  · cases hc

end Contract

end Relm.Vmx
