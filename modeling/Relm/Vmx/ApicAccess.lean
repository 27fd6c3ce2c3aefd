import Relm.Decoder.GprLens
import Relm.Decoder.Zydis
import Relm.Vm.Vcpus
import Relm.Vmx.ApicPage
import Relm.Vmx.GuestRegs
import Relm.Vmx.VirtualCopy

/-! The exit for an access to the APIC page: two descriptions of the instruction are compared before the APIC, the
registers or the instruction pointer change. -/
namespace Relm.Vmx
open Relm.Vm Relm.Decoder

def vmExitQualification : Nat := 0x6400
def vmExitInstructionLen : Nat := 0x440C
def apicAccessOffsetMask : U64 := 0xFFF#64
def apicAccessTypeMask : U64 := 0xF000#64
def apicAccessTypeShift : Nat := 12
def apicAccessTypeLinearRead : U32 := 0
def apicAccessTypeLinearWrite : U32 := 1
def apicAccessTypeLinearFetch : U32 := 2
def apicAccessTypeEventDelivery : U32 := 3

/-- What the handler works on: the VMCS, the guest's memory, the APICs of the VM, the registers and the state of the
vCPU. -/
structure ApicExit where
  vmcs : Vmcs
  vm : VmState
  vcpus : Vcpus
  regs : GuestRegs
  state : VcpuStatus

namespace ApicExit

variable (e : ApicExit)

def offset : U32 := (e.vmcs.vmread vmExitQualification &&& apicAccessOffsetMask).setWidth 32

def accessType : U32 :=
  ((e.vmcs.vmread vmExitQualification &&& apicAccessTypeMask) >>> apicAccessTypeShift).setWidth 32

def instrLen : U64 := e.vmcs.vmread vmExitInstructionLen

/-- The accesses that write. -/
def isStore : Bool := e.accessType == apicAccessTypeLinearWrite || e.accessType == apicAccessTypeEventDelivery

/-- The checks between the decoder and the emulation, in their order. -/
def refusal (decodedLen : Int) (decoded : DecodedInsn) : Option Errno :=
  if decoded.length.toNat ≠ e.instrLen.toNat ∨ decodedLen ≠ e.instrLen.toNat then some .einval
  else if decoded.memoryWidth ≠ 4#32 ∨ e.offset &&& 3#32 ≠ 0 then some .eopnotsupp
  else if (e.isStore = true ∧ decoded.memoryAccess ≠ .write) ∨ (e.isStore = false ∧ decoded.memoryAccess ≠ .read) then
    some .einval
  else if decoded.operandKind = .gpr ∧ decoded.relmDecodedHasValidGpr = false then some .einval
  else none

/-- The `switch` over the access type; `none` where an operand is not of the kind the direction asks for. -/
def emulate (k : Nat) (now : U64) (decoded : DecodedInsn) : Option ApicExit :=
  if e.isStore then
    match e.regs.storeValue decoded with
    | none => none
    | some value => some { e with vcpus := (ApicOp.exec e.vcpus (.write k e.offset value now)).2 }
  else if decoded.operandKind ≠ .gpr then none
  else
    let r := ApicOp.exec e.vcpus (.read k e.offset now)
    if e.accessType = apicAccessTypeLinearRead then
      let value := match r.1.1 with
        | .ok _ => r.1.2
        | .error _ => 0
      some { e with vcpus := r.2, regs := e.regs.loadValue decoded value }
    else
      match r.1.1 with
      | .ok _ => some { e with vcpus := r.2, regs := e.regs.loadValue decoded r.1.2 }
      | .error _ => some { e with vcpus := r.2 }

/-- Both copies of the instruction pointer move past the instruction. -/
def step (rip : U64) (length : U32) : ApicExit :=
  { e with regs.rip := rip + length.setWidth 64, vmcs := e.vmcs.vmwriteIgnored guestRip (rip + length.setWidth 64) }

end ApicExit

/-- `relm_apic_handle_access` for the vCPU at position `k`. `insnBuf` is the buffer as it lies on the stack. -/
def relmApicHandleAccess (decode : InsnDecoder) (k : Nat) (now : U64) (insnBuf : Vector Byte 15) (e : ApicExit) :
    Except HostFault (Int × ApicExit) :=
  if e.accessType = apicAccessTypeLinearFetch then .ok (0, { e with state := .stopped })
  else if e.instrLen = 0 ∨ 15 < e.instrLen.toNat then .ok (-Errno.einval.code, e)
  else
    let rip := e.vmcs.vmread guestRip
    match relmMmuCopyFromGuestVirt e.vmcs e.vm (relmMmuRipToLinear e.vmcs rip) (insnBuf.toList.take e.instrLen.toNat) with
    | .error fault => .error fault
    | .ok (ret, bytes) =>
      if ret < 0 then .ok (ret, e)
      else if ret ≠ e.instrLen.toNat then .ok (-Errno.efault.code, e)
      else
        let (decodedLen, decoded) := decode bytes
        if decodedLen < 0 then .ok (decodedLen, e)
        else
          match e.refusal decodedLen decoded with
          | some errno => .ok (-errno.code, e)
          | none =>
            match e.emulate k now decoded with
            | none => .ok (-Errno.einval.code, e)
            | some e' => .ok (1, e'.step rip decoded.length)

/-- An access that is carried out: the bytes at the instruction pointer decode to an instruction of the length the
processor reported, and this is an aligned transfer of four bytes in the direction it reported. -/
structure ApicExit.Accepts (decode : InsnDecoder) (insnBuf : Vector Byte 15) (e : ApicExit) (decoded : DecodedInsn) : Prop where
  notFetch : e.accessType ≠ apicAccessTypeLinearFetch
  length_le : e.instrLen ≠ 0 ∧ e.instrLen.toNat ≤ 15
  fetched : ∃ bytes, relmMmuCopyFromGuestVirt e.vmcs e.vm (relmMmuRipToLinear e.vmcs (e.vmcs.vmread guestRip))
    (insnBuf.toList.take e.instrLen.toNat) = .ok ((e.instrLen.toNat : Int), bytes) ∧
      decode bytes = ((e.instrLen.toNat : Int), decoded)
  length : decoded.length.toNat = e.instrLen.toNat
  width : decoded.memoryWidth = 4#32
  aligned : e.offset &&& 3#32 = 0
  direction : decoded.memoryAccess = if e.isStore then .write else .read
  register : decoded.operandKind = .gpr → decoded.relmDecodedHasValidGpr = true
  operand : if e.isStore then decoded.operandKind ≠ .invalid else decoded.operandKind = .gpr

section Fetched

variable {decode : InsnDecoder} {insnBuf : Vector Byte 15} {e : ApicExit} {decoded decoded' : DecodedInsn} {ret : Int}
  {bytes : List Byte}

/-- What an access that is carried out says about the copy of its instruction. -/
theorem ApicExit.Accepts.copied (ha : e.Accepts decode insnBuf decoded)
    (hcopy : relmMmuCopyFromGuestVirt e.vmcs e.vm (relmMmuRipToLinear e.vmcs (e.vmcs.vmread guestRip))
      (insnBuf.toList.take e.instrLen.toNat) = .ok (ret, bytes)) :
    ret = e.instrLen.toNat ∧ decode bytes = ((e.instrLen.toNat : Int), decoded) := by
  obtain ⟨bytes', hc, hdec⟩ := ha.fetched
  rw [hcopy] at hc
  cases hc
  exact ⟨rfl, hdec⟩

/-- The instruction carried out is the one decoded, at the length the processor reported. -/
theorem ApicExit.Accepts.decoded_eq (ha : e.Accepts decode insnBuf decoded)
    (hcopy : relmMmuCopyFromGuestVirt e.vmcs e.vm (relmMmuRipToLinear e.vmcs (e.vmcs.vmread guestRip))
      (insnBuf.toList.take e.instrLen.toNat) = .ok (ret, bytes)) {decodedLen : Int}
    (hdec : decode bytes = (decodedLen, decoded')) : decoded = decoded' ∧ decodedLen = e.instrLen.toNat := by
  have hthe := (ha.copied hcopy).2
  rw [hdec] at hthe
  cases hthe
  exact ⟨rfl, rfl⟩

/-- At most one instruction is carried out. -/
theorem ApicExit.Accepts.unique (h : e.Accepts decode insnBuf decoded) (h' : e.Accepts decode insnBuf decoded') :
    decoded' = decoded := by
  obtain ⟨bytes, hf, hd⟩ := h.fetched
  exact (h'.decoded_eq hf hd).1

end Fetched

/-- What an access that has been carried out did: the bytes at the instruction pointer decode to the length the
processor reported, and one aligned read or write of four bytes reached the APIC. -/
structure ApicExit.Emulated (decode : InsnDecoder) (k : Nat) (now : U64) (insnBuf : Vector Byte 15) (e e' : ApicExit)
    (decoded : DecodedInsn) : Prop where
  fetched : ∃ bytes, relmMmuCopyFromGuestVirt e.vmcs e.vm (relmMmuRipToLinear e.vmcs (e.vmcs.vmread guestRip))
    (insnBuf.toList.take e.instrLen.toNat) = .ok ((e.instrLen.toNat : Int), bytes) ∧
      decode bytes = ((e.instrLen.toNat : Int), decoded)
  length : decoded.length.toNat = e.instrLen.toNat
  width : decoded.memoryWidth = 4#32
  aligned : e.offset &&& 3#32 = 0
  store : e.isStore = true → decoded.memoryAccess = .write ∧ e'.regs.gpr = e.regs.gpr ∧
    ∃ value, e.regs.storeValue decoded = some value ∧ e'.vcpus = (ApicOp.exec e.vcpus (.write k e.offset value now)).2
  load : e.isStore = false → decoded.memoryAccess = .read ∧
    e'.vcpus = (ApicOp.exec e.vcpus (.read k e.offset now)).2 ∧
    ∀ reg, guestRegPtr decoded.gprIndex ≠ some reg → e'.regs.gpr reg = e.regs.gpr reg
  rip : e'.regs.rip = e.vmcs.vmread guestRip + decoded.length.setWidth 64
  guestRip : e'.vmcs.vmread guestRip = e.vmcs.vmread guestRip + decoded.length.setWidth 64

section Emulation

variable {e e' : ApicExit} {decoded : DecodedInsn} {k : Nat} {now : U64} {decodedLen : Int}

private theorem refusal_eq_none_iff : e.refusal decodedLen decoded = none ↔
    decoded.length.toNat = e.instrLen.toNat ∧ decodedLen = e.instrLen.toNat ∧ decoded.memoryWidth = 4#32 ∧
      e.offset &&& 3#32 = 0 ∧ decoded.memoryAccess = (if e.isStore then .write else .read) ∧
      (decoded.operandKind = .gpr → decoded.relmDecodedHasValidGpr = true) := by
  unfold ApicExit.refusal
  cases hs : e.isStore <;> grind

private theorem emulate_isSome_iff : (e.emulate k now decoded).isSome = true ↔
    if e.isStore then decoded.operandKind ≠ .invalid else decoded.operandKind = .gpr := by
  unfold ApicExit.emulate GuestRegs.storeValue
  cases hs : e.isStore <;> cases hk : decoded.operandKind <;> grind

private theorem loadValue_other {regs : GuestRegs} (value : U32) {reg : Gpr}
    (h : guestRegPtr decoded.gprIndex ≠ some reg) : (regs.loadValue decoded value).gpr reg = regs.gpr reg :=
  GuestRegs.guestRegWrite_other h _

/-- The emulation itself leaves the VMCS alone. -/
theorem ApicExit.emulate_vmcs (h : e.emulate k now decoded = some e') : e'.vmcs = e.vmcs := by
  unfold ApicExit.emulate at h
  grind

/-- The instruction pointer of the VMCS after the last step. -/
theorem ApicExit.step_guestRip (hvmcs : e'.vmcs = e.vmcs) (hrip : e.vmcs.supported guestRip = true) (rip : U64) (length : U32) :
    (e'.step rip length).vmcs.vmread guestRip = rip + length.setWidth 64 := by
  have hwrite := Vmcs.vmwrite_eq (hvmcs ▸ hrip) (rip + length.setWidth 64)
  change (e'.vmcs.vmwriteIgnored guestRip _).vmread guestRip = _
  rw [Vmcs.vmwriteIgnored, hwrite, Option.getD_some]
  exact Vmcs.vmread_vmwrite rfl hwrite

/-- The emulation of a store. -/
private theorem emulate_store (hs : e.isStore = true) (h : e.emulate k now decoded = some e') :
    e'.regs.gpr = e.regs.gpr ∧ ∃ value, e.regs.storeValue decoded = some value ∧
      e'.vcpus = (ApicOp.exec e.vcpus (.write k e.offset value now)).2 := by
  unfold ApicExit.emulate at h
  rw [if_pos hs] at h
  split at h
  · cases h
  · rename_i value hv
    cases h
    exact ⟨rfl, value, hv, rfl⟩

/-- The emulation of a load. -/
private theorem emulate_load (hs : e.isStore = false) (h : e.emulate k now decoded = some e') :
    e'.vcpus = (ApicOp.exec e.vcpus (.read k e.offset now)).2 ∧
      ∀ reg, guestRegPtr decoded.gprIndex ≠ some reg → e'.regs.gpr reg = e.regs.gpr reg := by
  unfold ApicExit.emulate at h
  rw [hs, if_neg Bool.false_ne_true] at h
  split at h
  · cases h
  dsimp only at h
  split at h
  · cases h
    exact ⟨rfl, fun reg hreg => loadValue_other _ hreg⟩
  split at h
  · cases h
    exact ⟨rfl, fun reg hreg => loadValue_other _ hreg⟩
  · cases h
    exact ⟨rfl, fun _ _ => rfl⟩

end Emulation

private theorem errno_neg (e : Errno) : -e.code < 0 := Int.neg_neg_of_pos e.code_pos

/-- Everything the handler can do. -/
inductive ApicExit.Outcome (decode : InsnDecoder) (k : Nat) (now : U64) (insnBuf : Vector Byte 15) (e : ApicExit) :
    Except HostFault (Int × ApicExit) → Prop
  | fault {fault : HostFault} (hb : ¬ AllBacked e.vm.memory.memRegions) : Outcome decode k now insnBuf e (.error fault)
  | stopped (hf : e.accessType = apicAccessTypeLinearFetch) :
    Outcome decode k now insnBuf e (.ok (0, { e with state := .stopped }))
  | refused {ret : Int} (hf : e.accessType ≠ apicAccessTypeLinearFetch)
    (hnot : ∀ decoded, ¬ e.Accepts decode insnBuf decoded) (hneg : ret < 0) : Outcome decode k now insnBuf e (.ok (ret, e))
  | emulated {decoded : DecodedInsn} {e' : ApicExit} (ha : e.Accepts decode insnBuf decoded)
    (hem : e.emulate k now decoded = some e') :
    Outcome decode k now insnBuf e (.ok (1, e'.step (e.vmcs.vmread guestRip) decoded.length))

theorem apicHandleAccess_outcome (decode : InsnDecoder) (k : Nat) (now : U64) (insnBuf : Vector Byte 15) (e : ApicExit) :
    e.Outcome decode k now insnBuf (relmApicHandleAccess decode k now insnBuf e) := by
  unfold relmApicHandleAccess
  split
  · exact .stopped ‹_›
  rename_i hfetch
  split
  · rename_i hlen
    refine .refused hfetch (fun decoded ha => ?_) (errno_neg _)
    have hle := ha.length_le
    rcases hlen with hlen | hlen
    · exact hle.1 hlen
    · omega
  rename_i hlen
  rw [not_or, not_lt] at hlen
  dsimp only
  cases hcopy : relmMmuCopyFromGuestVirt e.vmcs e.vm (relmMmuRipToLinear e.vmcs (e.vmcs.vmread guestRip))
    (insnBuf.toList.take e.instrLen.toNat) with
  | error fault =>
    refine .fault fun hb => ?_
    obtain ⟨r, hr⟩ := copyVirt_noFault hb e.vmcs (relmMmuRipToLinear e.vmcs (e.vmcs.vmread guestRip))
      (insnBuf.toList.take e.instrLen.toNat)
    rw [hcopy] at hr
    cases hr
  | ok r =>
    obtain ⟨ret, bytes⟩ := r
    dsimp only
    split
    · rename_i hneg
      refine .refused hfetch (fun decoded ha => ?_) hneg
      have hret := (ha.copied hcopy).1
      omega
    split
    · rename_i hret
      exact .refused hfetch (fun decoded ha => hret (ha.copied hcopy).1) (errno_neg _)
    rename_i hret
    rw [not_not] at hret
    rw [hret] at hcopy
    cases hdec : decode bytes with
    | mk decodedLen decoded =>
      dsimp only
      split
      · rename_i hneg
        refine .refused hfetch (fun decoded' ha => ?_) hneg
        have hlen' := (ha.decoded_eq hcopy hdec).2
        omega
      cases href : e.refusal decodedLen decoded with
      | some errno =>
        refine .refused hfetch (fun decoded' ha => ?_) (errno_neg _)
        obtain ⟨rfl, hl⟩ := ha.decoded_eq hcopy hdec
        rw [refusal_eq_none_iff.mpr ⟨ha.length, hl, ha.width, ha.aligned, ha.direction, ha.register⟩] at href
        cases href
      | none =>
        obtain ⟨hlength, hl, hwidth, haligned, hdir, hreg⟩ := refusal_eq_none_iff.mp href
        dsimp only
        cases hem : e.emulate k now decoded with
        | none =>
          refine .refused hfetch (fun decoded' ha => ?_) (errno_neg _)
          obtain ⟨rfl, -⟩ := ha.decoded_eq hcopy hdec
          have hsome : (e.emulate k now decoded').isSome = true := emulate_isSome_iff.mpr ha.operand
          rw [hem] at hsome
          cases hsome
        | some e' =>
          refine .emulated ?_ hem
          exact ⟨hfetch, hlen, ⟨bytes, hcopy, by rw [hdec, hl]⟩, hlength, hwidth, haligned, hdir, hreg,
            emulate_isSome_iff.mp (by rw [hem]; rfl)⟩

/-- The access that has been carried out. -/
private theorem emulated_whole {decode : InsnDecoder} {k : Nat} {now : U64} {insnBuf : Vector Byte 15} {e e' : ApicExit}
    {decoded : DecodedInsn} (hrip : e.vmcs.supported guestRip = true) (ha : e.Accepts decode insnBuf decoded)
    (hem : e.emulate k now decoded = some e') :
    e.Emulated decode k now insnBuf (e'.step (e.vmcs.vmread guestRip) decoded.length) decoded := by
  have haccess := ha.direction
  refine ⟨ha.fetched, ha.length, ha.width, ha.aligned, fun hs => ?_, fun hs => ?_, rfl, ?_⟩
  · obtain ⟨hgpr, hvalue⟩ := emulate_store hs hem
    rw [hs] at haccess
    exact ⟨haccess, hgpr, hvalue⟩
  · obtain ⟨hvcpus, hgpr⟩ := emulate_load hs hem
    rw [hs] at haccess
    exact ⟨haccess, hvcpus, hgpr⟩
  · exact ApicExit.step_guestRip (ApicExit.emulate_vmcs hem) hrip _ _

/-- All or nothing: a negative value leaves everything as it was, and 1 stands for an access carried out as a whole. The
handler does not come back only where guest memory has a region without its pages. -/
def ApicExit.AllOrNothing (decode : InsnDecoder) (k : Nat) (now : U64) (insnBuf : Vector Byte 15) (e : ApicExit) :
    Except HostFault (Int × ApicExit) → Prop
  | .error _ => ¬ AllBacked e.vm.memory.memRegions
  | .ok (ret, e') => (ret < 0 → e' = e) ∧ (ret = 1 → ∃ decoded, e.Emulated decode k now insnBuf e' decoded)

/-- An access to the APIC page is carried out as a whole or leaves everything as it was. -/
theorem apic_access_all_or_nothing (decode : InsnDecoder) (k : Nat) (now : U64) (insnBuf : Vector Byte 15) (e : ApicExit)
    (hrip : e.vmcs.supported guestRip = true) :
    e.AllOrNothing decode k now insnBuf (relmApicHandleAccess decode k now insnBuf e) := by
  have ho := apicHandleAccess_outcome decode k now insnBuf e
  generalize relmApicHandleAccess decode k now insnBuf e = r at ho ⊢
  cases ho with
  | fault hb => exact hb
  | stopped => exact ⟨fun hneg => absurd hneg (by decide), fun hone => absurd hone (by decide)⟩
  | refused _ _ hneg => exact ⟨fun _ => rfl, fun hone => absurd hneg (by omega)⟩
  | emulated ha hem => exact ⟨fun hneg => absurd hneg (by decide), fun _ => ⟨_, emulated_whole hrip ha hem⟩⟩

/-- With the decoder of the module, an emulated load writes its register through a lens. -/
theorem ApicExit.Emulated.load_lens {z : Zydis} {k : Nat} {now : U64} {insnBuf : Vector Byte 15} {e e' : ApicExit}
    {decoded : DecodedInsn} (h : e.Emulated (relmDecodeInstruction z) k now insnBuf e' decoded)
    (hr : decoded.memoryAccess = .read) : decoded.IsLens := by
  obtain ⟨bytes, -, hdec⟩ := h.fetched
  exact (relmDecodeInstruction_conforming hdec (Int.natCast_nonneg _)).load_lens hr

/-- A decoder that knows `mov [rbx], eax`. -/
private def movDecoder : InsnDecoder := fun bytes =>
  if bytes = [0x89#8, 0x03#8] then (2, ⟨2, .write, 4, .gpr, 0, 0, 4, 0, .none⟩)
  else (-22, ⟨0, .invalid, 0, .invalid, 0, -1, 0, 0, .none⟩)

/-- The instruction at address 0, and an exit for a write of the task priority register. -/
private def storeExit : ApicExit where
  vmcs := ⟨fun _ => true, fun enc => if enc = vmExitQualification then 0x1080#64
    else if enc = vmExitInstructionLen then 2#64 else 0⟩
  vm := { adjacentVm with host.mem := fun pa i => if pa = 0x9000#64 ∧ i.val = 0 then 0x0389#64 else 0 }
  vcpus := oneVcpu
  regs := ⟨fun _ => 0x20#64, 0⟩
  state := .running

private theorem storeExit_fetch : relmMmuCopyFromGuestVirt storeExit.vmcs storeExit.vm
    (relmMmuRipToLinear storeExit.vmcs (storeExit.vmcs.vmread guestRip))
    ((Vector.replicate 15 (0 : Byte)).toList.take storeExit.instrLen.toNat) = .ok (2, [0x89#8, 0x03#8]) := by
  have hagrees := copyVirt_agrees (s := storeExit.vm) adjacent_layout storeExit.vmcs
    (relmMmuRipToLinear storeExit.vmcs (storeExit.vmcs.vmread guestRip))
    ((Vector.replicate 15 (0 : Byte)).toList.take storeExit.instrLen.toNat) (by decide) (by decide)
  have hbytes : (virtBytes storeExit.vmcs storeExit.vm
      ((Vector.replicate 15 (0 : Byte)).toList.take storeExit.instrLen.toNat).length
      (relmMmuRipToLinear storeExit.vmcs (storeExit.vmcs.vmread guestRip))).run = .ok (.ok [0x89#8, 0x03#8]) := by
    decide
  rcases hagrees with ⟨bytes, hb, hcopy⟩ | ⟨e, dst, hb, -⟩
  · rw [hbytes] at hb
    cases hb
    exact hcopy
  · rw [hbytes] at hb
    cases hb

theorem apic_access_all_or_nothing_store : ∃ e', relmApicHandleAccess movDecoder 0 1#64 (Vector.replicate 15 0) storeExit =
    .ok (1, e') ∧ ∃ decoded, storeExit.Emulated movDecoder 0 1#64 (Vector.replicate 15 0) e' decoded := by
  have hrun : ∃ e', relmApicHandleAccess movDecoder 0 1#64 (Vector.replicate 15 0) storeExit = .ok (1, e') := by
    unfold relmApicHandleAccess
    rw [if_neg (by decide), if_neg (by decide)]
    dsimp only
    rw [storeExit_fetch]
    exact ⟨_, rfl⟩
  obtain ⟨e', hrun⟩ := hrun
  have hall := apic_access_all_or_nothing movDecoder 0 1#64 (Vector.replicate 15 0) storeExit rfl
  rw [hrun] at hall
  exact ⟨e', hrun, hall.2 rfl⟩

end Relm.Vmx
