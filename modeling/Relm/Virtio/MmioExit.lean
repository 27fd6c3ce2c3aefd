import Relm.Decoder.GprLens
import Relm.Decoder.Zydis
import Relm.Virtio.Readiness
import Relm.Virtio.Reservations
import Relm.Vmx.Apic
import Relm.Vmx.GuestRegs
import Relm.Vmx.VirtualCopy

/-! The exit for a guest access to the registers of a virtio device. -/
namespace Relm.Virtio
open Relm.Vm Relm.Vmx Relm.Decoder

variable {π : Type}

def relmIrqVectorBase : Nat := 0x20

/-- What the handler works on: the VMCS, the guest's memory, the registers of the vCPU, the devices and the APICs. -/
structure MmioExit (π : Type) where
  vmcs : Vmcs
  vm : VmState
  regs : GuestRegs
  registry : VirtioRegistry π
  vcpus : Vcpus

/-- The fetch of up to 16 bytes in two parts, so that a page that cannot be read cuts the instruction short only where it
starts. The count, and the bytes that are decoded. -/
def fetchInsn (v : Vmcs) (s : VmState) (guestLinear : U64) (insnBuf : Vector Byte 16) : Except HostFault (Int × List Byte) :=
  let first := min 16 (4096 - guestLinear.toNat % 4096)
  match relmMmuCopyFromGuestVirt v s guestLinear (insnBuf.toList.take first) with
  | .error fault => .error fault
  | .ok (n, head) =>
    if n > 0 ∧ first < 16 then
      match relmMmuCopyFromGuestVirt v s (guestLinear + BitVec.ofNat 64 first) (insnBuf.toList.drop first) with
      | .error fault => .error fault
      | .ok (n2, tail) =>
        let n := if n2 > 0 then n + n2 else n
        .ok (n, (head ++ tail).take n.toNat)
    else .ok (n, head.take n.toNat)

/-- `vmx_inject_irq`: a line beyond the last vector is refused, which the handler only logs. -/
def vmxInjectIrq (vcpus : Vcpus) (k : Nat) (irq : U32) : Vcpus :=
  let vector := BitVec.ofNat 32 relmIrqVectorBase + irq
  if 255 < vector.toNat then vcpus
  else vcpus.modify k (Option.map fun v => relmApicInjectInterrupt v (vector.setWidth 8) false)

namespace MmioExit

variable (e : MmioExit π)

/-- The access that a decoded instruction makes of the device; `none` where its operands do not fit the direction. -/
def accessOf (offset : U32) (decoded : DecodedInsn) : Option Access :=
  match decoded.memoryAccess with
  | .write => (e.regs.storeValue decoded).map fun value => ⟨offset, true, value⟩
  | .read => if decoded.operandKind = .gpr then some ⟨offset, false, 0⟩ else none
  | .invalid => none

/-- The device answers, a load commits the answer, and an interrupt the device asks for goes to the vCPU. -/
def perform (ops : Nat → VirtioOps π) (k dev : Nat) (decoded : DecodedInsn) (a : Access) : MmioExit π :=
  let r := e.registry.relmVirtioMmioRegisterAccess ops dev a
  { e with
    registry := r.2
    regs := if a.isWrite then e.regs else e.regs.loadValue decoded r.1.1
    vcpus := if r.1.2 then vmxInjectIrq e.vcpus k (r.2.devices dev).irq else e.vcpus }

/-- Both copies of the instruction pointer move past the instruction. Where the VMWRITE fails, `CHECK_VMWRITE` returns
`-EIO`, which is true for a function that returns a `bool`. -/
def step (rip : U64) (length : U32) : MmioExit π :=
  { e with
    regs.rip := rip + length.setWidth 64
    vmcs := (e.vmcs.vmwrite guestRip (rip + length.setWidth 64)).getD e.vmcs }

end MmioExit

/-- `relm_virtio_mmio_handle_ept_violation` for the vCPU at position `k` of a VM. -/
def relmVirtioMmioHandleEptViolation (decode : InsnDecoder) (ops : Nat → VirtioOps π) (vm k : Nat)
    (insnBuf : Vector Byte 16) (faultGpa : U64) (e : MmioExit π) : Except HostFault (Bool × MmioExit π) :=
  match e.registry.relmVirtioFindDeviceForGpa vm faultGpa with
  | none => .ok (false, e)
  | some dev =>
    let offset : U32 := (faultGpa - (e.registry.devices dev).mmioBaseGpa).setWidth 32
    let rip := e.regs.rip
    match fetchInsn e.vmcs e.vm (relmMmuRipToLinear e.vmcs rip) insnBuf with
    | .error fault => .error fault
    | .ok (n, bytes) =>
      if n < 0 then .ok (false, e)
      else
        let (ret, decoded) := decode bytes
        if ret < 0 then .ok (false, e)
        else if decoded.memoryWidth ≠ 4#32 ∨ offset &&& 3#32 ≠ 0 then .ok (false, e)
        else if decoded.operandKind = .gpr ∧ decoded.relmDecodedHasValidGpr = false then .ok (false, e)
        else
          match e.accessOf offset decoded with
          | none => .ok (false, e)
          | some a => .ok (true, (e.perform ops k dev decoded a).step rip decoded.length)

/-- Where a faulting address lies in the window of a device. -/
def MmioExit.offsetIn (e : MmioExit π) (faultGpa : U64) (dev : Nat) : U32 :=
  (faultGpa - (e.registry.devices dev).mmioBaseGpa).setWidth 32

/-- A fault that is emulated: a device owns the address, and the bytes at the instruction pointer decode to an aligned
transfer of four bytes whose operands fit its direction. -/
structure MmioExit.Accepts (decode : InsnDecoder) (vm : Nat) (insnBuf : Vector Byte 16) (faultGpa : U64) (e : MmioExit π)
    (dev : Nat) (decoded : DecodedInsn) (a : Access) : Prop where
  found : e.registry.relmVirtioFindDeviceForGpa vm faultGpa = some dev
  fetched : ∃ n bytes ret, fetchInsn e.vmcs e.vm (relmMmuRipToLinear e.vmcs e.regs.rip) insnBuf = .ok (n, bytes) ∧
    0 ≤ n ∧ decode bytes = (ret, decoded) ∧ 0 ≤ ret
  width : decoded.memoryWidth = 4#32
  aligned : e.offsetIn faultGpa dev &&& 3#32 = 0
  register : decoded.operandKind = .gpr → decoded.relmDecodedHasValidGpr = true
  access : e.accessOf (e.offsetIn faultGpa dev) decoded = some a

section Fetched

variable {decode : InsnDecoder} {vm : Nat} {insnBuf : Vector Byte 16} {faultGpa : U64} {e : MmioExit π} {dev dev' : Nat}
  {decoded decoded' : DecodedInsn} {a a' : Access} {n ret : Int} {bytes : List Byte}

/-- An access that is emulated is that of the device found and of the instruction fetched. -/
theorem MmioExit.Accepts.decoded_eq (ha : e.Accepts decode vm insnBuf faultGpa dev' decoded' a)
    (hfind : e.registry.relmVirtioFindDeviceForGpa vm faultGpa = some dev)
    (hfetch : fetchInsn e.vmcs e.vm (relmMmuRipToLinear e.vmcs e.regs.rip) insnBuf = .ok (n, bytes))
    (hdec : decode bytes = (ret, decoded)) : dev' = dev ∧ decoded' = decoded ∧ 0 ≤ n ∧ 0 ≤ ret := by
  have hfound := ha.found
  rw [hfind] at hfound
  cases hfound
  obtain ⟨n', bytes', ret', hf, hn, hd, hret⟩ := ha.fetched
  rw [hfetch] at hf
  cases hf
  rw [hdec] at hd
  cases hd
  exact ⟨rfl, rfl, hn, hret⟩

/-- At most one access is emulated. -/
theorem MmioExit.Accepts.unique (h : e.Accepts decode vm insnBuf faultGpa dev decoded a)
    (h' : e.Accepts decode vm insnBuf faultGpa dev' decoded' a') : dev' = dev ∧ decoded' = decoded ∧ a' = a := by
  obtain ⟨n, bytes, ret, hf, -, hd, -⟩ := h.fetched
  obtain ⟨rfl, rfl, -⟩ := h'.decoded_eq h.found hf hd
  have ha := h'.access
  rw [h.access] at ha
  cases ha
  exact ⟨rfl, rfl, rfl⟩

end Fetched

/-- Everything the handler can do. -/
inductive MmioExit.Outcome (decode : InsnDecoder) (ops : Nat → VirtioOps π) (vm k : Nat) (insnBuf : Vector Byte 16)
    (faultGpa : U64) (e : MmioExit π) : Except HostFault (Bool × MmioExit π) → Prop
  | fault {fault : HostFault} (hb : ¬ AllBacked e.vm.memory.memRegions) :
    Outcome decode ops vm k insnBuf faultGpa e (.error fault)
  | refused (hnot : ∀ dev decoded a, ¬ e.Accepts decode vm insnBuf faultGpa dev decoded a) :
    Outcome decode ops vm k insnBuf faultGpa e (.ok (false, e))
  | emulated {dev : Nat} {decoded : DecodedInsn} {a : Access} (ha : e.Accepts decode vm insnBuf faultGpa dev decoded a) :
    Outcome decode ops vm k insnBuf faultGpa e
      (.ok (true, (e.perform ops k dev decoded a).step e.regs.rip decoded.length))

/-- The device is one of the VM, and the address lies in its window. -/
structure OwnedBy (registry : VirtioRegistry π) (vm : Nat) (gpa : U64) (dev : Nat) : Prop where
  registered : dev ∈ registry.registered
  vm : (registry.devices dev).vm = vm
  start : (registry.devices dev).mmioBaseGpa.toNat ≤ gpa.toNat
  size : gpa.toNat < (registry.devices dev).mmioBaseGpa.toNat + 0x1000

/-- What an emulated instruction did to the device and the registers: a store hands over its immediate or its register
lane, a load changes the register it was decoded for. -/
inductive Transfer (ops : Nat → VirtioOps π) (dev : Nat) (offset : U32) (decoded : DecodedInsn) (e e' : MmioExit π) : Prop
  | immediate (hw : decoded.memoryAccess = .write) (hk : decoded.operandKind = .immediate) (hgpr : e'.regs.gpr = e.regs.gpr)
    (hdev : e'.registry =
      (e.registry.relmVirtioMmioRegisterAccess ops dev ⟨offset, true, decoded.immediate.setWidth 32⟩).2)
  | lane (reg : Gpr) (hw : decoded.memoryAccess = .write) (hk : decoded.operandKind = .gpr)
    (hreg : guestRegPtr decoded.gprIndex = some reg) (hgpr : e'.regs.gpr = e.regs.gpr)
    (hdev : e'.registry = (e.registry.relmVirtioMmioRegisterAccess ops dev
      ⟨offset, true, (decoded.relmDecodedGprExtract (e.regs.gpr reg)).setWidth 32⟩).2)
  | load (reg : Gpr) (answer : U32) (hr : decoded.memoryAccess = .read) (hk : decoded.operandKind = .gpr)
    (hreg : guestRegPtr decoded.gprIndex = some reg)
    (hanswer : answer = (e.registry.relmVirtioMmioRegisterAccess ops dev ⟨offset, false, 0⟩).1.1)
    (hgpr : e'.regs.gpr = Function.update e.regs.gpr reg
      (decoded.relmDecodedGprCommit (e.regs.gpr reg) (answer.setWidth 64)))
    (hdev : e'.registry = (e.registry.relmVirtioMmioRegisterAccess ops dev ⟨offset, false, 0⟩).2)

/-- A fault that has been emulated: one aligned access of four bytes by the decoded instruction to the device that owns
the address, with the instruction pointer moved past the instruction. -/
structure MmioExit.Emulated (decode : InsnDecoder) (ops : Nat → VirtioOps π) (vm : Nat) (insnBuf : Vector Byte 16)
    (faultGpa : U64) (e e' : MmioExit π) (dev : Nat) (offset : U32) (decoded : DecodedInsn) : Prop where
  owner : OwnedBy e.registry vm faultGpa dev
  offset_eq : offset.toNat = faultGpa.toNat - (e.registry.devices dev).mmioBaseGpa.toNat
  fetched : ∃ n bytes ret, fetchInsn e.vmcs e.vm (relmMmuRipToLinear e.vmcs e.regs.rip) insnBuf = .ok (n, bytes) ∧
    0 ≤ n ∧ decode bytes = (ret, decoded) ∧ 0 ≤ ret
  width : decoded.memoryWidth = 4#32
  aligned : offset &&& 3#32 = 0
  transfer : Transfer ops dev offset decoded e e'
  rip : e'.regs.rip = e.regs.rip + decoded.length.setWidth 64
  guestRip : e'.vmcs.vmread guestRip = e.regs.rip + decoded.length.setWidth 64

/-- All or nothing: false leaves everything as it was, true stands for an emulated access. The handler does not come back
only where guest memory has a region without its pages. -/
def MmioExit.AllOrNothing (decode : InsnDecoder) (ops : Nat → VirtioOps π) (vm : Nat) (insnBuf : Vector Byte 16)
    (faultGpa : U64) (e : MmioExit π) : Except HostFault (Bool × MmioExit π) → Prop
  | .error _ => ¬ AllBacked e.vm.memory.memRegions
  | .ok (false, e') => e' = e
  | .ok (true, e') => ∃ dev offset decoded, e.Emulated decode ops vm insnBuf faultGpa e' dev offset decoded

section Emulation

variable {ops : Nat → VirtioOps π} {vm k dev : Nat} {faultGpa : U64} {e : MmioExit π} {offset : U32}
  {decoded : DecodedInsn} {a : Access}

private theorem found_owned (h : e.registry.relmVirtioFindDeviceForGpa vm faultGpa = some dev) :
    OwnedBy e.registry vm faultGpa dev := by
  have hmem := List.mem_of_find?_eq_some h
  have hfound := List.find?_some h
  simp only [Bool.and_eq_true, beq_iff_eq, decide_eq_true_eq, BitVec.le_def, BitVec.lt_def, BitVec.toNat_add,
    show relmVirtioMmioRegionSize.toNat = 0x1000 from rfl] at hfound
  obtain ⟨⟨hvm, hstart⟩, hlast⟩ := hfound
  have hbase := (e.registry.devices dev).mmioBaseGpa.isLt
  exact ⟨hmem, hvm, hstart, by omega⟩

private theorem offset_toNat (h : OwnedBy e.registry vm faultGpa dev) :
    ((faultGpa - (e.registry.devices dev).mmioBaseGpa).setWidth 32).toNat =
      faultGpa.toNat - (e.registry.devices dev).mmioBaseGpa.toNat := by
  have hstart := h.start
  have hsize := h.size
  rw [BitVec.toNat_setWidth, Lib.Word.toNat_sub_eq rfl rfl hstart]
  exact Nat.mod_eq_of_lt (by omega)

/-- A valid register number stands for a register. -/
private theorem regPtr_of_valid (h : decoded.relmDecodedHasValidGpr = true) :
    ∃ reg, guestRegPtr decoded.gprIndex = some reg := by
  unfold DecodedInsn.relmDecodedHasValidGpr at h
  split at h
  · cases h
  split at h
  · cases h
  rename_i hrange
  rw [not_or, not_lt, not_le] at hrange
  obtain ⟨hlow, hhigh⟩ := hrange
  generalize decoded.gprIndex = index at hlow hhigh ⊢
  obtain ⟨n, rfl⟩ := Int.eq_ofNat_of_zero_le hlow
  have hall : ∀ i : Fin 16, (guestRegPtr (i.val : Int)).isSome = true := by decide
  exact Option.isSome_iff_exists.mp (hall ⟨n, by omega⟩)

private theorem fetchInsn_noFault (h : AllBacked e.vm.memory.memRegions) (guestLinear : U64) (insnBuf : Vector Byte 16) :
    ∃ r, fetchInsn e.vmcs e.vm guestLinear insnBuf = .ok r := by
  unfold fetchInsn
  obtain ⟨⟨n, head⟩, hhead⟩ := copyVirt_noFault h e.vmcs guestLinear
    (insnBuf.toList.take (min 16 (4096 - guestLinear.toNat % 4096)))
  dsimp only
  rw [hhead]
  dsimp only
  split
  · obtain ⟨⟨n2, tail⟩, htail⟩ := copyVirt_noFault h e.vmcs
      (guestLinear + BitVec.ofNat 64 (min 16 (4096 - guestLinear.toNat % 4096)))
      (insnBuf.toList.drop (min 16 (4096 - guestLinear.toNat % 4096)))
    rw [htail]
    exact ⟨_, rfl⟩
  · exact ⟨_, rfl⟩

private theorem and_mask_setWidth (x : U64) : (x &&& relmWidthMask 4#32).setWidth 32 = x.setWidth 32 := by
  apply BitVec.eq_of_toNat_eq
  rw [BitVec.toNat_setWidth, BitVec.toNat_setWidth, Lib.Word.and_low_toNat x (relmWidthMask 4#32) 32 (by decide),
    Nat.mod_mod]

/-- The access of an instruction, and what it leaves. -/
private theorem transfer_of (hwidth : decoded.memoryWidth = 4#32)
    (hvalid : decoded.operandKind = .gpr → decoded.relmDecodedHasValidGpr = true)
    (ha : e.accessOf offset decoded = some a) (rip : U64) :
    Transfer ops dev offset decoded e ((e.perform ops k dev decoded a).step rip decoded.length) := by
  have hptr : decoded.operandKind = .gpr → ∃ reg, guestRegPtr decoded.gprIndex = some reg :=
    fun hk => regPtr_of_valid (hvalid hk)
  unfold MmioExit.accessOf at ha
  split at ha
  · rename_i hw
    unfold GuestRegs.storeValue at ha
    split at ha
    · rename_i hk
      rw [hwidth, and_mask_setWidth, Option.map_some, Option.some.injEq] at ha
      subst ha
      exact .immediate hw hk rfl rfl
    · rename_i hk
      obtain ⟨reg, hreg⟩ := hptr hk
      rw [Option.map_some, Option.some.injEq] at ha
      subst ha
      refine .lane reg hw hk hreg rfl ?_
      simp only [MmioExit.step, MmioExit.perform, GuestRegs.guestRegRead, hreg]
    · cases ha
  · rename_i hr
    split at ha
    · rename_i hk
      obtain ⟨reg, hreg⟩ := hptr hk
      cases ha
      refine .load reg _ hr hk hreg rfl ?_ rfl
      simp only [MmioExit.step, MmioExit.perform, GuestRegs.loadValue, GuestRegs.guestRegWrite, GuestRegs.guestRegRead, hreg,
        Bool.false_eq_true, if_false]
    · cases ha
  · cases ha

/-- The instruction pointer of the VMCS after the last step. -/
theorem MmioExit.step_guestRip (hrip : e.vmcs.supported guestRip = true) (rip : U64) (length : U32) :
    ((e.perform ops k dev decoded a).step rip length).vmcs.vmread guestRip = rip + length.setWidth 64 := by
  have hwrite := Vmcs.vmwrite_eq hrip (rip + length.setWidth 64)
  change ((e.vmcs.vmwrite guestRip _).getD e.vmcs).vmread guestRip = _
  rw [hwrite, Option.getD_some]
  exact Vmcs.vmread_vmwrite rfl hwrite

theorem mmioHandle_outcome (decode : InsnDecoder) (ops : Nat → VirtioOps π) (vm k : Nat) (insnBuf : Vector Byte 16)
    (faultGpa : U64) (e : MmioExit π) : e.Outcome decode ops vm k insnBuf faultGpa
      (relmVirtioMmioHandleEptViolation decode ops vm k insnBuf faultGpa e) := by
  unfold relmVirtioMmioHandleEptViolation
  cases hfind : e.registry.relmVirtioFindDeviceForGpa vm faultGpa with
  | none =>
    refine .refused fun dev decoded a ha => ?_
    have hfound := ha.found
    rw [hfind] at hfound
    cases hfound
  | some dev =>
    dsimp only
    cases hfetch : fetchInsn e.vmcs e.vm (relmMmuRipToLinear e.vmcs e.regs.rip) insnBuf with
    | error fault =>
      refine .fault fun hb => ?_
      obtain ⟨r, hr⟩ := fetchInsn_noFault hb (relmMmuRipToLinear e.vmcs e.regs.rip) insnBuf
      rw [hfetch] at hr
      cases hr
    | ok r =>
      obtain ⟨n, bytes⟩ := r
      cases hdec : decode bytes with
      | mk ret decoded =>
        simp only [hdec]
        split
        · refine .refused fun dev' decoded' a ha => ?_
          have hn := (ha.decoded_eq hfind hfetch hdec).2.2.1
          omega
        rename_i hn
        split
        · refine .refused fun dev' decoded' a ha => ?_
          have hret := (ha.decoded_eq hfind hfetch hdec).2.2.2
          omega
        rename_i hret
        split
        · rename_i hwidth
          refine .refused fun dev' decoded' a ha => ?_
          obtain ⟨rfl, rfl, -⟩ := ha.decoded_eq hfind hfetch hdec
          rcases hwidth with hwidth | halign
          · exact hwidth ha.width
          · exact halign ha.aligned
        rename_i hwidth
        simp only [ne_eq, not_or, not_not] at hwidth
        split
        · rename_i hvalid
          refine .refused fun dev' decoded' a ha => ?_
          obtain ⟨rfl, rfl, -⟩ := ha.decoded_eq hfind hfetch hdec
          have hv := ha.register hvalid.1
          rw [hvalid.2] at hv
          cases hv
        rename_i hvalid
        split
        · rename_i hnone
          refine .refused fun dev' decoded' a ha => ?_
          obtain ⟨rfl, rfl, -⟩ := ha.decoded_eq hfind hfetch hdec
          have haccess := ha.access
          rw [MmioExit.offsetIn, hnone] at haccess
          cases haccess
        rename_i a ha
        refine .emulated ⟨hfind, ⟨n, bytes, ret, hfetch, by omega, hdec, by omega⟩, hwidth.1, hwidth.2, fun hk => ?_, ha⟩
        rw [← Bool.not_eq_false]
        exact fun hc => hvalid ⟨hk, hc⟩

end Emulation

/-- A fault in the window of a virtio device is emulated as a whole or leaves everything as it was. -/
theorem mmio_fault_all_or_nothing (decode : InsnDecoder) (ops : Nat → VirtioOps π) (vm k : Nat) (insnBuf : Vector Byte 16)
    (faultGpa : U64) (e : MmioExit π) (hrip : e.vmcs.supported guestRip = true) :
    e.AllOrNothing decode ops vm insnBuf faultGpa
      (relmVirtioMmioHandleEptViolation decode ops vm k insnBuf faultGpa e) := by
  have ho := mmioHandle_outcome decode ops vm k insnBuf faultGpa e
  generalize relmVirtioMmioHandleEptViolation decode ops vm k insnBuf faultGpa e = r at ho ⊢
  cases ho with
  | fault hb => exact hb
  | refused => rfl
  | @emulated dev decoded a ha =>
    have howned := found_owned ha.found
    exact ⟨dev, e.offsetIn faultGpa dev, decoded, howned, offset_toNat howned, ha.fetched, ha.width, ha.aligned,
      transfer_of ha.width ha.register ha.access _, rfl, MmioExit.step_guestRip hrip _ _⟩

/-- With the decoder of the module, an emulated load writes its register through a lens. -/
theorem MmioExit.Emulated.load_lens {z : Zydis} {ops : Nat → VirtioOps π} {vm dev : Nat} {insnBuf : Vector Byte 16}
    {faultGpa : U64} {e e' : MmioExit π} {offset : U32} {decoded : DecodedInsn}
    (h : e.Emulated (relmDecodeInstruction z) ops vm insnBuf faultGpa e' dev offset decoded)
    (hr : decoded.memoryAccess = .read) : decoded.IsLens := by
  obtain ⟨n, bytes, ret, -, -, hdec, hret⟩ := h.fetched
  exact (relmDecodeInstruction_conforming hdec hret).load_lens hr

/-- A decoder that knows `mov [rbx], eax`. -/
private def storeDecoder : InsnDecoder := fun bytes =>
  if bytes.take 2 = [0x89#8, 0x03#8] then (2, ⟨2, .write, 4, .gpr, 0, 0, 4, 0, .none⟩)
  else (-22, ⟨0, .invalid, 0, .invalid, 0, -1, 0, 0, .none⟩)

/-- The instruction at address 0, and one device. -/
private def queueSelExit : MmioExit Unit where
  vmcs := ⟨fun _ => true, fun _ => 0⟩
  vm := { adjacentVm with host.mem := fun pa i => if pa = 0x9000#64 ∧ i.val = 0 then 0x0389#64 else 0 }
  regs := ⟨fun _ => 0, 0⟩
  registry := ⟨[0], fun _ => .zero, .zero, fun _ => oneQueue.dev, fun _ => ⟨[], 0, []⟩⟩
  vcpus := []

private def insnBytes : List Byte := 0x89#8 :: 0x03#8 :: List.replicate 14 0

private theorem queueSel_fetch : fetchInsn queueSelExit.vmcs queueSelExit.vm
    (relmMmuRipToLinear queueSelExit.vmcs queueSelExit.regs.rip) (Vector.replicate 16 0) = .ok (16, insnBytes) := by
  have hagrees := copyVirt_agrees (s := queueSelExit.vm) adjacent_layout queueSelExit.vmcs
    (relmMmuRipToLinear queueSelExit.vmcs queueSelExit.regs.rip) ((Vector.replicate 16 (0 : Byte)).toList.take 16)
    (by decide) (by decide)
  have hbytes : (virtBytes queueSelExit.vmcs queueSelExit.vm ((Vector.replicate 16 (0 : Byte)).toList.take 16).length
      (relmMmuRipToLinear queueSelExit.vmcs queueSelExit.regs.rip)).run = .ok (.ok insnBytes) := by
    decide
  rcases hagrees with ⟨bytes, hb, hcopy⟩ | ⟨e, dst, hb, -⟩
  · rw [hbytes] at hb
    cases hb
    unfold fetchInsn
    rw [show min 16 (4096 - (relmMmuRipToLinear queueSelExit.vmcs queueSelExit.regs.rip).toNat % 4096) = 16 by decide]
    dsimp only
    rw [hcopy]
    rfl
  · rw [hbytes] at hb
    cases hb

/-- A store to the queue selector of the device. -/
theorem mmio_fault_all_or_nothing_store : ∃ e', relmVirtioMmioHandleEptViolation storeDecoder (fun _ => idleOps) 0 0
    (Vector.replicate 16 0) 0xD0000030#64 queueSelExit = .ok (true, e') ∧ ∃ dev offset decoded,
      queueSelExit.Emulated storeDecoder (fun _ => idleOps) 0 (Vector.replicate 16 0) 0xD0000030#64 e' dev offset decoded := by
  have hrun : ∃ e', relmVirtioMmioHandleEptViolation storeDecoder (fun _ => idleOps) 0 0 (Vector.replicate 16 0)
      0xD0000030#64 queueSelExit = .ok (true, e') := by
    have hfind : queueSelExit.registry.relmVirtioFindDeviceForGpa 0 0xD0000030#64 = some 0 := by decide
    unfold relmVirtioMmioHandleEptViolation
    rw [hfind]
    dsimp only
    rw [queueSel_fetch]
    exact ⟨_, rfl⟩
  obtain ⟨e', hrun⟩ := hrun
  have hall := mmio_fault_all_or_nothing storeDecoder (fun _ => idleOps) 0 0 (Vector.replicate 16 0) 0xD0000030#64
    queueSelExit rfl
  rw [hrun] at hall
  exact ⟨e', hrun, hall⟩

end Relm.Virtio
