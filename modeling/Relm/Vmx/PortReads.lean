import Relm.Decoder.GprLens
import Relm.Firmware.FwCfgStream
import Relm.Vmx.VmExit

/-! The operands of port accesses: what an IN leaves in the registers, what an OUT hands over, and what a sequence of
accesses reads from the fw_cfg device. -/
namespace Relm.Vmx
open Relm.Firmware Relm.Decoder Lib.Run IoPorts

variable {π : Type}

/-- The operand of a size in `RAX`. -/
def portOperand (s : IoSize) (rax : U64) : U32 :=
  match s with
  | .one => (rax.setWidth 8).setWidth 32
  | .two => (rax.setWidth 16).setWidth 32
  | .four => rax.setWidth 32

/-- `RAX` after a value has been written to its operand of a size, as x86 defines it: four bytes are zero-extended, and
fewer keep the bits above them. -/
def writeOperand (s : IoSize) (rax : U64) (value : U32) : U64 :=
  match s with
  | .one => rax.extractLsb' 8 56 ++ value.setWidth 8
  | .two => rax.extractLsb' 16 48 ++ value.setWidth 16
  | .four => value.setWidth 64

/-- An exit for a port access: the vCPU as the guest and the processor have left it, and what the exit reports. -/
structure PortExit (π : Type) where
  vcpu : VmExit π
  guestRip : U64
  qualification : U64

namespace PortExit

variable (x : PortExit π)

def io : IoExit := ioExit x.vcpu x.guestRip x.qualification

/-- The exit is handled with the device that the one before it has left. -/
def exec (fwData : Option FirmwareData) (x : PortExit π) : Except Fault (Int × VmExit π) × Option FirmwareData :=
  match handleIoExit { x.vcpu with fwData } x.guestRip x.qualification with
  | .error fault => (.error fault, fwData)
  | .ok r => (.ok r, r.2.fwData)

/-- A plain access of one, two or four bytes to one of the ports of fw_cfg. -/
structure Plain : Prop where
  emulated : x.io.emulated = true
  size : x.io.size ∈ [1#32, 2#32, 4#32]

def size : IoSize := if x.io.size = 1#32 then .one else if x.io.size = 2#32 then .two else .four

/-- A write of the selector port. -/
def selects : Bool := x.io.port == fwCfgPortSel && !x.io.isIn

/-- A read of the data port. -/
def reads : Bool := x.io.port == fwCfgPortData && x.io.isIn

/-- The call that the device is to get: an OUT passes its operand on. -/
def deviceCall (fw : FwCfgDevice) : Int × U32 × FwCfgDevice :=
  relmFwCfgHandleIo fw x.io.port (!x.io.isIn) x.io.size (if x.io.isIn then 0 else portOperand x.size (x.vcpu.reg .rax))

/-- The registers that x86 defines: an IN writes what the device returns to its operand, an OUT writes none. -/
def definedGpr (fw : FwCfgDevice) : Gpr → U64 :=
  if x.io.isIn then
    Function.update x.vcpu.regs.gpr .rax (writeOperand x.size (x.vcpu.reg .rax) (x.deviceCall fw).2.1)
  else x.vcpu.regs.gpr

/-- The access has its effect on the device, and the guest continues with the registers that x86 defines. -/
def Exact (fw : FwCfgDevice) (r : Except Fault (Int × VmExit π) × Option FirmwareData) : Prop :=
  ∃ e', r = (.ok (1, e'), some ⟨(x.deviceCall fw).2.2⟩) ∧ e'.regs.gpr = x.definedGpr fw

/-- An IN that writes less than four bytes finds nothing in `RAX` above its operand. -/
def NothingAbove : Prop := x.io.isIn = true → x.size = .four ∨ x.vcpu.reg .rax >>> (8 * x.size.count) = 0

end PortExit

/-- The bytes that the reads of the data port in a trace have put into `RAX`. -/
def raxBytes (tr : List (PortExit π × Except Fault (Int × VmExit π))) : List Byte :=
  tr.flatMap fun t =>
    match t.2 with
    | .ok r => if t.1.reads then (List.range t.1.io.size.toNat).map (ioByte ((r.2.reg .rax).setWidth 32)) else []
    | .error _ => []

/-- Every access of a sequence does what x86 defines, and between two selections the reads return the bytes of the
selected item in order, each of them once. -/
structure PortsExact (fw : FwCfgDevice) (exits : List (PortExit π)) : Prop where
  operands : ∀ before x after, exits = before ++ x :: after →
    ∃ fw', (run PortExit.exec (some ⟨fw⟩) before).2 = some ⟨fw'⟩ ∧ x.Exact fw' (PortExit.exec (some ⟨fw'⟩) x)
  stream : ∀ before ins after, exits = before ++ (ins ++ after) → (∀ x ∈ ins, x.selects = false) →
    ∃ fw', (run PortExit.exec (some ⟨fw⟩) before).2 = some ⟨fw'⟩ ∧
      raxBytes (run PortExit.exec (some ⟨fw'⟩) ins).1 =
        (List.range (ins.map fun x => if x.reads then x.io.size.toNat else 0).sum).map fw'.upcoming

section Merge

variable {s : IoSize} {rax : U64} {value : U32}

/-- The bits of a value below a position, and those of another from there on. -/
private theorem splice_getLsbD {n : Nat} (hn : n ≤ 64) (rax : U64) (value : U32) (i : Nat) :
    (rax.extractLsb' n (64 - n) ++ value.setWidth n).getLsbD i = if i < n then value.getLsbD i else rax.getLsbD i := by
  rw [BitVec.getLsbD_append]
  by_cases hi : i < n
  · rw [if_pos hi, if_pos hi, BitVec.getLsbD_setWidth, decide_eq_true hi, Bool.true_and]
  · rw [if_neg hi, if_neg hi, BitVec.getLsbD_extractLsb', Nat.add_sub_cancel' (Nat.le_of_not_lt hi)]
    by_cases hlt : i < 64
    · rw [decide_eq_true (by omega), Bool.true_and]
    · rw [BitVec.getLsbD_of_ge rax i (Nat.not_lt.mp hlt), Bool.and_false]

private theorem writeOperand_getLsbD (hs : s ≠ .four) (i : Nat) :
    (writeOperand s rax value).getLsbD i = if i < 8 * s.count then value.getLsbD i else rax.getLsbD i := by
  cases s with
  | one => exact splice_getLsbD (n := 8) (by omega) rax value i
  | two => exact splice_getLsbD (n := 16) (by omega) rax value i
  | four => exact absurd rfl hs

private theorem ioMask_getLsbD (s : IoSize) (i : Nat) :
    (relmWidthMask (BitVec.ofNat 32 s.count)).getLsbD i = decide (i < 8 * s.count) := by
  cases s with
  | one => exact widthMask_getLsbD (by decide) i
  | two => exact widthMask_getLsbD (by decide) i
  | four => exact widthMask_getLsbD (by decide) i

/-- The register of a load is written by the same rule. -/
theorem writeOperand_eq_gprCommit {decoded : DecodedInsn} (hvalid : decoded.relmDecodedHasValidGpr = true)
    (hwidth : decoded.gprWidth = BitVec.ofNat 32 s.count) (hoffset : decoded.gprBitOffset = 0)
    (hsem : decoded.gprWriteSemantics = DecodedInsn.loadSemantics decoded.gprWidth) :
    decoded.relmDecodedGprCommit rax (value.setWidth 64) = writeOperand s rax value := by
  rw [DecodedInsn.relmDecodedGprCommit, hvalid, hsem, hwidth, hoffset, if_neg (by decide)]
  dsimp only
  rw [show (0 : U32).toNat = 0 from rfl, BitVec.shiftLeft_zero, BitVec.shiftLeft_zero]
  apply BitVec.eq_of_getLsbD_eq
  intro i hi
  by_cases hs : s = .four
  · subst hs
    change (value.setWidth 64 &&& relmWidthMask (BitVec.ofNat 32 IoSize.four.count)).getLsbD i = (value.setWidth 64).getLsbD i
    rw [BitVec.getLsbD_and, ioMask_getLsbD, BitVec.getLsbD_setWidth]
    by_cases hlt : i < 32
    · have hbelow : i < 8 * IoSize.four.count := hlt
      rw [decide_eq_true hbelow, Bool.and_true]
    · rw [BitVec.getLsbD_of_ge value i (Nat.not_lt.mp hlt), Bool.and_false, Bool.false_and]
  · have hmerge : DecodedInsn.loadSemantics (BitVec.ofNat 32 s.count) = .merge := by
      cases s <;> first | rfl | exact absurd rfl hs
    rw [hmerge, writeOperand_getLsbD hs]
    dsimp only
    rw [BitVec.getLsbD_or, BitVec.getLsbD_and, BitVec.getLsbD_and, BitVec.getLsbD_not, ioMask_getLsbD,
      BitVec.getLsbD_setWidth, decide_eq_true hi, Bool.true_and, Bool.true_and]
    by_cases hlt : i < 8 * s.count
    · rw [if_pos hlt, decide_eq_true hlt, Bool.not_true, Bool.and_false, Bool.false_or, Bool.and_true]
    · rw [if_neg hlt, decide_eq_false hlt, Bool.not_false, Bool.and_true, Bool.and_false, Bool.or_false]

/-- A value within the operand that is written to the whole of `RAX` leaves what a write of the operand does exactly if
there is nothing above the operand. -/
theorem setWidth_eq_writeOperand_iff (rax : U64) (hvalue : value.toNat < 2 ^ (8 * s.count)) :
    value.setWidth 64 = writeOperand s rax value ↔ s = .four ∨ rax >>> (8 * s.count) = 0 := by
  by_cases hs : s = .four
  · subst hs
    exact ⟨fun _ => .inl rfl, fun _ => rfl⟩
  · have hhigh : ∀ i, 8 * s.count ≤ i → value.getLsbD i = false := fun i hi =>
      Nat.testBit_lt_two_pow (lt_of_lt_of_le hvalue (Nat.pow_le_pow_right (by omega) hi))
    rw [or_iff_right hs]
    constructor
    · intro h
      apply BitVec.eq_of_getLsbD_eq
      intro i _
      have hbit := congrArg (fun v => v.getLsbD (8 * s.count + i)) h
      rw [writeOperand_getLsbD hs, if_neg (by omega), BitVec.getLsbD_setWidth, hhigh _ (by omega), Bool.and_false] at hbit
      rw [BitVec.getLsbD_ushiftRight, ← hbit]
      exact BitVec.getLsbD_zero.symm
    · intro h
      apply BitVec.eq_of_getLsbD_eq
      intro i hi
      rw [writeOperand_getLsbD hs, BitVec.getLsbD_setWidth, decide_eq_true hi, Bool.true_and]
      split
      · rfl
      · rename_i hge
        have hbit := congrArg (fun v => v.getLsbD (i - 8 * s.count)) h
        rw [BitVec.getLsbD_ushiftRight, Nat.add_sub_cancel' (Nat.le_of_not_lt hge)] at hbit
        rw [hbit, hhigh i (Nat.le_of_not_lt hge)]
        exact BitVec.getLsbD_zero.symm

end Merge

section Exits

variable {x : PortExit π}

private theorem size_eq (hx : x.Plain) : x.io.size = BitVec.ofNat 32 x.size.count := by
  obtain h | h | h : x.io.size = 1#32 ∨ x.io.size = 2#32 ∨ x.io.size = 4#32 := by simpa using hx.size
  all_goals
    rw [PortExit.size, h]
    rfl

private theorem size_toNat (hx : x.Plain) : x.io.size.toNat = x.size.count := by
  rw [size_eq hx]
  cases x.size <;> rfl

private theorem port_of (hx : x.Plain) : x.io.port = fwCfgPortSel ∨ x.io.port = fwCfgPortData := by
  have h := hx.emulated
  rw [IoExit.emulated, Bool.and_eq_true, Bool.and_eq_true, Bool.or_eq_true, beq_iff_eq, beq_iff_eq] at h
  exact h.1.1

/-- What an OUT masks out of `RAX` is its operand. -/
private theorem masked_eq (hx : x.Plain) (rax : U64) :
    (rax &&& x.io.sizeMask).setWidth 32 = portOperand x.size rax := by
  have hmask : x.io.sizeMask = relmWidthMask (BitVec.ofNat 32 x.size.count) := by
    rw [IoExit.sizeMask, size_eq hx]
    cases x.size <;> rfl
  apply BitVec.eq_of_getLsbD_eq
  intro i hi
  rw [hmask, BitVec.getLsbD_setWidth, BitVec.getLsbD_and, ioMask_getLsbD, decide_eq_true hi, Bool.true_and]
  have hoperand : (portOperand x.size rax).getLsbD i = (decide (i < 8 * x.size.count) && rax.getLsbD i) := by
    cases x.size with
    | one => simp [portOperand, IoSize.count, hi]
    | two =>
      simp [portOperand, IoSize.count, hi]
      rfl
    | four => simp [portOperand, IoSize.count, hi]
  rw [hoperand, Bool.and_comm]

/-- What the handler does on a plain access. -/
theorem exec_plain (hx : x.Plain) (fw : FwCfgDevice) :
    ∃ e', PortExit.exec (some ⟨fw⟩) x = (.ok (1, e'), some ⟨(x.deviceCall fw).2.2⟩) ∧
      e'.regs.gpr = if x.io.isIn then Function.update x.vcpu.regs.gpr .rax ((x.deviceCall fw).2.1.setWidth 64)
        else x.vcpu.regs.gpr := by
  have hcall : fwCfgCall (some ⟨fw⟩) x.io = some ⟨some fw, x.io.port, !x.io.isIn, x.io.size,
      if x.io.isIn then 0 else portOperand x.size (x.vcpu.reg .rax)⟩ := by
    rw [fwCfgCall, if_pos hx.emulated]
    cases x.io.isIn with
    | true => rfl
    | false =>
      rw [if_neg (by decide), if_neg (by decide), masked_eq hx]
      rfl
  have hio : handleIoInstruction (some ⟨fw⟩) x.io = .ok (⟨1, if x.io.isIn then (x.deviceCall fw).2.1.setWidth 64 else
      x.vcpu.reg .rax, x.io.guestRip + x.io.instrLen⟩, some ⟨(x.deviceCall fw).2.2⟩) := by
    rw [handleIoInstruction, hcall]
    dsimp only
    rw [handleIo_ret]
    rfl
  have hsame : ioExit { x.vcpu with fwData := some ⟨fw⟩ } x.guestRip x.qualification = x.io := rfl
  rw [PortExit.exec, handleIoExit, hsame, hio]
  refine ⟨_, rfl, ?_⟩
  change Function.update x.vcpu.regs.gpr .rax _ = _
  cases x.io.isIn with
  | true => rfl
  | false => exact Function.update_eq_self _ _

/-- An access as the device sees it. -/
private def access (x : PortExit π) : FwCfgAccess :=
  ⟨if x.io.port = fwCfgPortSel then .sel else .data, !x.io.isIn, x.size,
    if x.io.isIn then 0 else portOperand x.size (x.vcpu.reg .rax)⟩

private theorem access_exec (hx : x.Plain) (fw : FwCfgDevice) : (access x).exec fw = (x.deviceCall fw).2 := by
  have hport : (access x).port.number = x.io.port := by
    rcases port_of hx with h | h
    · rw [access, h]
      rfl
    · rw [access, h]
      rfl
  rw [FwCfgAccess.exec, hport, PortExit.deviceCall, size_eq hx]
  rfl

private theorem access_reads (hx : x.Plain) : (access x).reads = x.reads := by
  rw [FwCfgAccess.reads, PortExit.reads, access]
  rcases port_of hx with h | h
  · rw [h]
    rfl
  · rw [h]
    cases x.io.isIn <;> rfl

private theorem access_selects (hx : x.Plain) : (access x).selects = x.selects := by
  rw [FwCfgAccess.selects, PortExit.selects, access]
  rcases port_of hx with h | h
  · rw [h]
    cases x.io.isIn <;> rfl
  · rw [h]
    rfl

/-- What the device returns fits the operand. -/
private theorem deviceCall_lt (hx : x.Plain) (hin : x.io.isIn = true) (fw : FwCfgDevice) :
    (x.deviceCall fw).2.1.toNat < 2 ^ (8 * x.size.count) := by
  rw [PortExit.deviceCall, hin]
  rcases port_of hx with h | h
  · rw [h]
    exact Nat.two_pow_pos _
  · have hread := readData_lt x.io.size.toNat 0 0 fw (Nat.two_pow_pos _)
    rw [Nat.zero_add, size_toNat hx] at hread
    rw [h, relmFwCfgHandleIo, if_neg (by decide), if_pos rfl, size_toNat hx]
    exact hread

/-- The handler is right about an access exactly if nothing above the operand is lost. -/
private theorem exec_exact_iff (hx : x.Plain) (fw : FwCfgDevice) :
    x.Exact fw (PortExit.exec (some ⟨fw⟩) x) ↔ x.NothingAbove := by
  obtain ⟨e', hexec, hgpr⟩ := exec_plain hx fw
  rw [hexec]
  have hiff : x.Exact fw (.ok (1, e'), some ⟨(x.deviceCall fw).2.2⟩) ↔ e'.regs.gpr = x.definedGpr fw := by
    constructor
    · rintro ⟨e'', heq, hdef⟩
      cases heq
      exact hdef
    · intro hdef
      exact ⟨e', rfl, hdef⟩
  rw [hiff, hgpr, PortExit.definedGpr, PortExit.NothingAbove]
  cases hin : x.io.isIn with
  | false => exact ⟨fun _ h => absurd h Bool.false_ne_true, fun _ => rfl⟩
  | true =>
    have hmerge := setWidth_eq_writeOperand_iff (x.vcpu.reg .rax) (deviceCall_lt hx hin fw)
    rw [if_pos rfl, if_pos rfl]
    constructor
    · intro h _
      have hrax := congrFun h .rax
      rw [Function.update_self, Function.update_self] at hrax
      exact hmerge.mp hrax
    · intro h
      rw [hmerge.mpr (h rfl)]

/-- The accesses reach the device one after the other, and what the reads return arrives in `RAX`. -/
private theorem run_plain {exits : List (PortExit π)} (hp : ∀ x ∈ exits, x.Plain) (fw : FwCfgDevice) :
    (run PortExit.exec (some ⟨fw⟩) exits).2 = some ⟨(run FwCfgAccess.exec fw (exits.map access)).2⟩ ∧
    raxBytes (run PortExit.exec (some ⟨fw⟩) exits).1 = dataBytes (run FwCfgAccess.exec fw (exits.map access)).1 := by
  induction exits generalizing fw with
  | nil => exact ⟨rfl, rfl⟩
  | cons x rest ih =>
    have hx := hp x List.mem_cons_self
    obtain ⟨e', hexec, hgpr⟩ := exec_plain hx fw
    obtain ⟨hstate, hbytes⟩ := ih (fun y hy => hp y (List.mem_cons_of_mem _ hy)) (x.deviceCall fw).2.2
    have hvalue : x.reads = true → (e'.reg .rax).setWidth 32 = (x.deviceCall fw).2.1 := by
      intro hr
      have hin : x.io.isIn = true := (Bool.and_eq_true_iff.mp hr).2
      rw [hin, if_pos rfl] at hgpr
      rw [VmExit.reg, hgpr, Function.update_self]
      exact BitVec.setWidth_setWidth_of_le _ (by decide)
    simp only [run, List.map_cons, hexec, access_exec hx]
    refine ⟨hstate, ?_⟩
    rw [raxBytes, dataBytes, List.flatMap_cons, List.flatMap_cons]
    change _ ++ raxBytes _ = _ ++ dataBytes _
    rw [hbytes]
    dsimp only
    rw [access_reads hx, size_toNat hx]
    congr 1
    cases hr : x.reads with
    | false => rfl
    | true =>
      rw [if_pos rfl, if_pos rfl, hvalue hr]
      rfl

private theorem dataBytes_length (fw : FwCfgDevice) (accesses : List FwCfgAccess) :
    (dataBytes (run FwCfgAccess.exec fw accesses).1).length =
      (accesses.map fun a => if a.reads then a.size.count else 0).sum := by
  induction accesses generalizing fw with
  | nil => rfl
  | cons a rest ih =>
    rw [run, dataBytes, List.flatMap_cons, List.length_append, List.map_cons, List.sum_cons]
    change _ + (dataBytes (run FwCfgAccess.exec (a.exec fw).2 rest).1).length = _
    rw [ih]
    congr 1
    split
    · rw [List.length_map, List.length_range]
    · rfl

/-- The accesses are handled as x86 defines them exactly if every IN of one or two bytes finds nothing in `RAX` above its
operand. -/
theorem port_accesses_exact_iff (fw : FwCfgDevice) (exits : List (PortExit π)) (hp : ∀ x ∈ exits, x.Plain) :
    PortsExact fw exits ↔ ∀ x ∈ exits, x.NothingAbove := by
  constructor
  · intro h x hmem
    obtain ⟨before, after, heq⟩ := List.mem_iff_append.mp hmem
    obtain ⟨fw', -, hexact⟩ := h.operands before x after heq
    exact (exec_exact_iff (hp x hmem) fw').mp hexact
  · intro h
    constructor
    case operands =>
      intro before x after heq
      have hbefore : ∀ y ∈ before, y.Plain := fun y hy => hp y (by rw [heq]; exact List.mem_append_left _ hy)
      have hmem : x ∈ exits := by
        rw [heq]
        exact List.mem_append_right _ List.mem_cons_self
      exact ⟨_, (run_plain hbefore fw).1, (exec_exact_iff (hp x hmem) _).mpr (h x hmem)⟩
    case stream =>
      intro before ins after heq hsel
      have hbefore : ∀ y ∈ before, y.Plain := fun y hy => hp y (by rw [heq]; exact List.mem_append_left _ hy)
      have hins : ∀ y ∈ ins, y.Plain := fun y hy =>
        hp y (by rw [heq]; exact List.mem_append_right _ (List.mem_append_left _ hy))
      refine ⟨_, (run_plain hbefore fw).1, ?_⟩
      rw [(run_plain hins _).2, run_dataBytes _ _ ?_, dataBytes_length, List.map_map]
      · congr 3
        refine List.map_congr_left fun x hx => ?_
        rw [Function.comp_apply, access_reads (hins x hx), size_toNat (hins x hx)]
        rfl
      · intro a ha
        obtain ⟨x, hx, rfl⟩ := List.mem_map.mp ha
        rw [access_selects (hins x hx), hsel x hx]

end Exits

/-- An access to a port with the given qualification and `RAX`. -/
private def portExit (qualification rax : U64) : PortExit Unit :=
  { vcpu := (bareExit 0x1E#64 qualification 0x1000#64).setReg .rax rax, guestRip := 0x1000#64, qualification }

/-- `OUT DX, AX` to the selector, and `IN AL, DX` and `IN EAX, DX` from the data port. -/
private def outSelector (rax : U64) : PortExit Unit := portExit 0x05100001#64 rax
private def inByte (rax : U64) : PortExit Unit := portExit 0x05110008#64 rax
private def inDword (rax : U64) : PortExit Unit := portExit 0x0511000B#64 rax

/-- The device with the signature registered. -/
private def signatureFw : FwCfgDevice :=
  (relmFwCfgRegister (Host.idle [] [true]) relmFwCfgInit fwCfgSignature [] (some [0x51, 0x45, 0x4D, 0x55]) 4).2.2

/-- The guest selects the signature and reads its four bytes and one more. -/
private def readSignature : List (PortExit Unit) :=
  [outSelector 0x77770000#64, inByte 0x22#64, inDword 0xFFFFFFFF#64]

theorem port_accesses_exact_signature : PortsExact signatureFw readSignature ∧
    raxBytes (run PortExit.exec (some ⟨signatureFw⟩) readSignature).1 = [0x51, 0x45, 0x4D, 0x55, 0] := by
  refine ⟨(port_accesses_exact_iff signatureFw readSignature fun x hx => ?_).mpr fun x hx hin => ?_, rfl⟩
  · simp only [readSignature, List.mem_cons, List.not_mem_nil, or_false] at hx
    rcases hx with rfl | rfl | rfl <;> exact ⟨by decide, by decide⟩
  · simp only [readSignature, List.mem_cons, List.not_mem_nil, or_false] at hx
    rcases hx with rfl | rfl | rfl
    · exact absurd hin (by decide)
    · exact .inr (by decide)
    · exact .inl (by decide)

/-- An IN of one byte clears what the guest holds in `AH`. -/
theorem in_clears_ah : ¬ PortsExact relmFwCfgInit [inByte 0x1200#64] := by
  intro h
  obtain ⟨fw', hfw, e', hexec, hgpr⟩ := h.operands [] (inByte 0x1200#64) [] rfl
  cases hfw
  cases hexec
  have hrax := congrFun hgpr .rax
  revert hrax
  decide

end Relm.Vmx
