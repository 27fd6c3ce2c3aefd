import Relm.Decoder.GprLens

/-! The adapter between Zydis and the decoded instructions of the emulators, for every answer Zydis can give. -/
namespace Relm.Decoder

/-- `ZydisRegister`, by the number of the enumeration. -/
abbrev ZydisRegister := Nat

def zydisRegisterAh : ZydisRegister := 5
def zydisRegisterCh : ZydisRegister := 6
def zydisRegisterDh : ZydisRegister := 7
def zydisRegisterBh : ZydisRegister := 8
def zydisRegisterRax : ZydisRegister := 53
def zydisRegisterR15 : ZydisRegister := 68

inductive RegisterClass
  | invalid | gpr8 | gpr16 | gpr32 | gpr64 | x87 | mmx | xmm | ymm | zmm | tmm | flags | ip | segment | table | test
  | control | debug | mask | bound
  deriving DecidableEq, Repr

inductive OperandType
  | unused | register | memory | pointer | immediate
  deriving DecidableEq, Repr

inductive Visibility
  | invalid | explicit | implicit | hidden
  deriving DecidableEq, Repr

inductive MemopType
  | invalid | mem | agen | mib | vsib
  deriving DecidableEq, Repr

/-- `ZydisDecodedOperand`; `reg`, `memType` and the immediate belong to one type of operand each. A signed and an
unsigned immediate are the same 64 bits. -/
structure ZydisOperand where
  visibility : Visibility
  actions : Byte
  size : BitVec 16
  type : OperandType
  reg : ZydisRegister
  memType : MemopType
  immIsRelative : Bool
  imm : U64

/-- `ZydisDecodedInstruction`. -/
structure ZydisInstruction where
  mnemonic : Nat
  length : Byte
  operandCountVisible : Byte
  attributes : U64

/-- What the adapter calls of Zydis. -/
structure Zydis where
  decoderInit : U32
  decoderDecodeFull : List Byte → U32 × ZydisInstruction × (Nat → ZydisOperand)
  registerGetClass : ZydisRegister → RegisterClass
  registerGetLargestEnclosing : ZydisRegister → ZydisRegister

def zydisMnemonicMov : Nat := 436
def zydisAttribHasLock : U64 := 1#64 <<< 27
def zydisOperandActionRead : Byte := 0x01#8
def zydisOperandActionWrite : Byte := 0x02#8
def zydisOperandActionMaskRead : Byte := 0x05#8
def zydisOperandActionMaskWrite : Byte := 0x0A#8

/-- `ZYAN_SUCCESS`. -/
def zyanSuccess (status : U32) : Bool := status &&& 0x80000000#32 == 0

/-- An error and the instruction as far as it has been filled in. -/
def refuse (e : Errno) (out : DecodedInsn) : Int × DecodedInsn := (-e.code, out)

def isGpr : RegisterClass → Bool
  | .gpr8 | .gpr16 | .gpr32 | .gpr64 => true
  | _ => false

/-- A size in bits that is a whole number of bytes of a width the emulators know. -/
def operandWidth (size : BitVec 16) : U32 := size.setWidth 32 / 8#32

def relmZydisDecodeGpr (z : Zydis) (operand : ZydisOperand) (out : DecodedInsn) : Int × DecodedInsn :=
  if operand.type ≠ .register then refuse .eopnotsupp out
  else if !isGpr (z.registerGetClass operand.reg) then refuse .eopnotsupp out
  else if operand.size = 0 ∨ operand.size &&& 7#16 ≠ 0 then refuse .eopnotsupp out
  else
    let out := { out with gprWidth := operandWidth operand.size }
    if relmWidthMask out.gprWidth = 0 then refuse .eopnotsupp out
    else
      let enclosing := z.registerGetLargestEnclosing operand.reg
      if enclosing < zydisRegisterRax ∨ zydisRegisterR15 < enclosing then refuse .eopnotsupp out
      else
        let high := [zydisRegisterAh, zydisRegisterCh, zydisRegisterDh, zydisRegisterBh].contains operand.reg
        let out := { out with gprIndex := (enclosing : Int) - zydisRegisterRax, gprBitOffset := if high then 8 else 0 }
        if out.relmDecodedHasValidGpr then (0, out) else refuse .eopnotsupp out

def relmZydisSetLoadSemantics (out : DecodedInsn) : Int × DecodedInsn :=
  match out.gprWidth.toNat with
  | 1 | 2 => (0, { out with gprWriteSemantics := .merge })
  | 4 => (0, { out with gprWriteSemantics := .zeroExtend })
  | 8 => (0, { out with gprWriteSemantics := .replace })
  | _ => refuse .eopnotsupp out

/-- The loop over the visible operands: each explicit, at most one in memory and at most one elsewhere. -/
def sortOperands (operands : Nat → ZydisOperand) : (left i : Nat) → (memory value : Option ZydisOperand) →
    Option (Option ZydisOperand × Option ZydisOperand)
  | 0, _, memory, value => some (memory, value)
  | left + 1, i, memory, value =>
    if (operands i).visibility ≠ .explicit then none
    else if (operands i).type = .memory then
      if memory.isSome then none else sortOperands operands left (i + 1) (some (operands i)) value
    else if value.isSome then none
    else sortOperands operands left (i + 1) memory (some (operands i))

/-- The access that the actions of the memory operand stand for. -/
def memoryAccessOf (actions : Byte) : MemoryAccess :=
  if actions = zydisOperandActionRead then .read
  else if actions = zydisOperandActionWrite then .write
  else .invalid

/-- Whether the other operand is the source of a store, or the destination of a load, and nothing more. -/
def valueActionsFit (access : MemoryAccess) (actions : Byte) : Bool :=
  match access with
  | .write => actions &&& zydisOperandActionMaskRead != 0 && actions &&& zydisOperandActionMaskWrite == 0
  | .read => actions &&& zydisOperandActionMaskWrite != 0 && actions &&& zydisOperandActionMaskRead == 0
  | .invalid => true

/-- The `switch` over the type of the other operand. -/
def decodeValueOperand (z : Zydis) (value : ZydisOperand) (out : DecodedInsn) : Int × DecodedInsn :=
  match value.type with
  | .register =>
    let (ret, out) := relmZydisDecodeGpr z value { out with operandKind := .gpr }
    if ret < 0 then (ret, out)
    else if out.gprWidth ≠ out.memoryWidth then refuse .eopnotsupp out
    else if out.memoryAccess = .read then relmZydisSetLoadSemantics out
    else (0, { out with gprWriteSemantics := .none })
  | .immediate =>
    if out.memoryAccess ≠ .write ∨ value.immIsRelative then refuse .eopnotsupp out
    else (0, { out with operandKind := .immediate, immediate := value.imm })
  | _ => refuse .eopnotsupp out

/-- Both operands, once they are known. -/
def decodeOperands (z : Zydis) (memory value : ZydisOperand) (out : DecodedInsn) : Int × DecodedInsn :=
  if memory.memType ≠ .mem then refuse .eopnotsupp out
  else if memory.size = 0 ∨ memory.size &&& 7#16 ≠ 0 then refuse .eopnotsupp out
  else
    let out := { out with memoryWidth := operandWidth memory.size }
    if relmWidthMask out.memoryWidth = 0 then refuse .eopnotsupp out
    else if memoryAccessOf memory.actions = .invalid then refuse .eopnotsupp out
    else
      let out := { out with memoryAccess := memoryAccessOf memory.actions }
      if !valueActionsFit out.memoryAccess value.actions then refuse .eopnotsupp out
      else decodeValueOperand z value out

/-- `memset`, and no register yet. -/
def DecodedInsn.blank : DecodedInsn := ⟨0, .invalid, 0, .invalid, 0, -1, 0, 0, .none⟩

/-- `relm_decode_x86`: the first `len` bytes of the buffer are decoded into `out`. -/
def relmDecodeX86 (z : Zydis) (insnBuf : List Byte) (len : Int) (out : DecodedInsn) : Int × DecodedInsn :=
  if len ≤ 0 then refuse .einval out
  else
    let out := DecodedInsn.blank
    if !zyanSuccess z.decoderInit then refuse .einval out
    else
      let (status, instruction, operands) := z.decoderDecodeFull (insnBuf.take len.toNat)
      if !zyanSuccess status then refuse .einval out
      else if instruction.mnemonic ≠ zydisMnemonicMov ∨ instruction.attributes &&& zydisAttribHasLock ≠ 0 then
        refuse .eopnotsupp out
      else if instruction.operandCountVisible ≠ 2#8 then refuse .eopnotsupp out
      else
        match sortOperands operands instruction.operandCountVisible.toNat 0 none none with
        | some (some memory, some value) =>
          let (ret, out) := decodeOperands z memory value out
          if ret < 0 then (ret, out)
          else if instruction.length = 0 ∨ len < instruction.length.toNat then refuse .einval out
          else (instruction.length.toNat, { out with length := instruction.length.setWidth 32 })
        | _ => refuse .eopnotsupp out

/-- `relm_decode_instruction` on x86, as its callers use it. -/
def relmDecodeInstruction (z : Zydis) : InsnDecoder := fun bytes => relmDecodeX86 z bytes bytes.length DecodedInsn.blank

section Accepted

variable {z : Zydis} {operand memory value : ZydisOperand} {out : DecodedInsn}

private theorem refuse_neg (e : Errno) (out : DecodedInsn) : (refuse e out).1 < 0 := by
  have hpos := e.code_pos
  change -e.code < 0
  omega

/-- The lane that a register the decoder takes stands for. -/
private theorem decodeGpr_accepts (h : ¬ (relmZydisDecodeGpr z operand out).1 < 0) :
    isGpr (z.registerGetClass operand.reg) = true ∧ ∃ width index offset, (relmZydisDecodeGpr z operand out).2 =
      { out with gprWidth := width, gprIndex := index, gprBitOffset := offset } ∧
      (relmZydisDecodeGpr z operand out).2.relmDecodedHasValidGpr = true := by
  unfold relmZydisDecodeGpr at h ⊢
  by_cases htype : operand.type ≠ .register
  · rw [if_pos htype] at h
    exact absurd (refuse_neg _ _) h
  rw [if_neg htype] at h ⊢
  by_cases hclass : (!isGpr (z.registerGetClass operand.reg)) = true
  · rw [if_pos hclass] at h
    exact absurd (refuse_neg _ _) h
  rw [if_neg hclass] at h ⊢
  by_cases hsize : operand.size = 0 ∨ operand.size &&& 7#16 ≠ 0
  · rw [if_pos hsize] at h
    exact absurd (refuse_neg _ _) h
  rw [if_neg hsize] at h ⊢
  dsimp only at h ⊢
  generalize (if [zydisRegisterAh, zydisRegisterCh, zydisRegisterDh, zydisRegisterBh].contains operand.reg = true then
    (8 : U32) else 0) = offset at h ⊢
  split at h
  · exact absurd (refuse_neg _ _) h
  rename_i hmask
  rw [if_neg hmask]
  split at h
  · exact absurd (refuse_neg _ _) h
  rename_i henc
  rw [if_neg henc]
  split at h
  swap
  · exact absurd (refuse_neg _ _) h
  rename_i hvalid
  rw [if_pos hvalid]
  exact ⟨by simpa using hclass, _, _, _, rfl, hvalid⟩

private theorem setLoadSemantics_accepts (h : ¬ (relmZydisSetLoadSemantics out).1 < 0) :
    (relmZydisSetLoadSemantics out).2 = { out with gprWriteSemantics := DecodedInsn.loadSemantics out.gprWidth } := by
  unfold relmZydisSetLoadSemantics at h ⊢
  split at h
  · rename_i hw
    rw [show out.gprWidth = 1#32 from BitVec.eq_of_toNat_eq hw]
    rfl
  · rename_i hw
    rw [show out.gprWidth = 2#32 from BitVec.eq_of_toNat_eq hw]
    rfl
  · rename_i hw
    rw [show out.gprWidth = 4#32 from BitVec.eq_of_toNat_eq hw]
    rfl
  · rename_i hw
    rw [show out.gprWidth = 8#32 from BitVec.eq_of_toNat_eq hw]
    rfl
  · exact absurd (refuse_neg _ _) h

/-- The register or immediate that the value of an accepted instruction is. -/
def ZydisOperand.IsValue (z : Zydis) (value : ZydisOperand) (out : DecodedInsn) : Prop :=
  (value.type = .register ∧ isGpr (z.registerGetClass value.reg) = true ∧ out.operandKind = .gpr) ∨
    (value.type = .immediate ∧ out.operandKind = .immediate ∧ out.immediate = value.imm)

/-- The fields of a register operand, with the semantics that the direction of the transfer gives it. -/
private theorem decodeValueOperand_register (htype : value.type = .register)
    (h : ¬ (decodeValueOperand z value out).1 < 0) :
    isGpr (z.registerGetClass value.reg) = true ∧ ∃ width index offset semantics,
      (decodeValueOperand z value out).2 = { out with
        operandKind := .gpr, gprWidth := width, gprIndex := index, gprBitOffset := offset
        gprWriteSemantics := semantics } ∧
      (decodeValueOperand z value out).2.relmDecodedHasValidGpr = true ∧ width = out.memoryWidth ∧
      semantics = if out.memoryAccess = .read then DecodedInsn.loadSemantics out.memoryWidth else .none := by
  simp only [decodeValueOperand, htype] at h ⊢
  split at h
  · exact absurd ‹_› h
  rename_i hret
  obtain ⟨hclass, width, index, offset, hout, hvalid⟩ := decodeGpr_accepts hret
  refine ⟨hclass, width, index, offset, ?_⟩
  rw [if_neg hret]
  split at h
  · exact absurd (refuse_neg _ _) h
  rename_i hwidth
  rw [if_neg hwidth]
  rw [hout] at h hwidth hvalid ⊢
  simp only [ne_eq, not_not] at hwidth
  split at h
  · rename_i hread
    rw [if_pos hread, setLoadSemantics_accepts h]
    exact ⟨_, rfl, hvalid, hwidth, by rw [if_pos hread]; exact congrArg _ hwidth⟩
  · rename_i hread
    rw [if_neg hread]
    exact ⟨_, rfl, hvalid, hwidth, by rw [if_neg hread]⟩

/-- What the switch over the other operand leaves in the instruction when it accepts it. -/
private theorem decodeValueOperand_accepts (hwidth : relmWidthMask out.memoryWidth ≠ 0)
    (haccess : out.memoryAccess = .read ∨ out.memoryAccess = .write) (hindex : out.gprIndex = -1)
    (h : ¬ (decodeValueOperand z value out).1 < 0) :
    (decodeValueOperand z value out).2.Conforming ∧
      (decodeValueOperand z value out).2.memoryAccess = out.memoryAccess ∧
      value.IsValue z (decodeValueOperand z value out).2 := by
  cases htype : value.type with
  | register =>
    obtain ⟨hclass, width, index, offset, semantics, hout, hvalid, hw, hsem⟩ := decodeValueOperand_register htype h
    rw [hout] at hvalid ⊢
    refine ⟨⟨width_of_mask_ne_zero hwidth, haccess, Or.inl ⟨rfl, hvalid, hw, ?_, ?_⟩⟩, rfl,
      Or.inl ⟨htype, hclass, rfl⟩⟩
    · intro hread
      exact hsem.trans (if_pos hread)
    · intro hwrite
      have hread : ¬ out.memoryAccess = .read := by
        rw [show out.memoryAccess = .write from hwrite]
        decide
      exact hsem.trans (if_neg hread)
  | immediate =>
    simp only [decodeValueOperand, htype] at h ⊢
    split at h
    · exact absurd (refuse_neg _ _) h
    rename_i hwrite
    rw [if_neg hwrite]
    simp only [not_or, ne_eq, not_not] at hwrite
    exact ⟨⟨width_of_mask_ne_zero hwidth, haccess, Or.inr ⟨rfl, hwrite.1, hindex⟩⟩, rfl,
      Or.inr ⟨htype, rfl, rfl⟩⟩
  | unused | memory | pointer =>
    simp only [decodeValueOperand, htype] at h
    exact absurd (refuse_neg _ _) h

/-- Both operands of an accepted instruction. -/
private theorem decodeOperands_accepts (hindex : out.gprIndex = -1) (h : ¬ (decodeOperands z memory value out).1 < 0) :
    memory.memType = .mem ∧ (decodeOperands z memory value out).2.Conforming ∧
      (decodeOperands z memory value out).2.memoryAccess = memoryAccessOf memory.actions ∧
      value.IsValue z (decodeOperands z memory value out).2 := by
  unfold decodeOperands at h ⊢
  by_cases hmem : memory.memType ≠ .mem
  · rw [if_pos hmem] at h
    exact absurd (refuse_neg _ _) h
  rw [if_neg hmem] at h ⊢
  by_cases hsize : memory.size = 0 ∨ memory.size &&& 7#16 ≠ 0
  · rw [if_pos hsize] at h
    exact absurd (refuse_neg _ _) h
  rw [if_neg hsize] at h ⊢
  by_cases hmask : relmWidthMask (operandWidth memory.size) = 0
  · simp only [if_pos hmask] at h
    exact absurd (refuse_neg _ _) h
  simp only [if_neg hmask] at h ⊢
  by_cases haccess : memoryAccessOf memory.actions = .invalid
  · rw [if_pos haccess] at h
    exact absurd (refuse_neg _ _) h
  rw [if_neg haccess] at h ⊢
  by_cases hfit : (!valueActionsFit (memoryAccessOf memory.actions) value.actions) = true
  · rw [if_pos hfit] at h
    exact absurd (refuse_neg _ _) h
  rw [if_neg hfit] at h ⊢
  have haccess' : memoryAccessOf memory.actions = .read ∨ memoryAccessOf memory.actions = .write := by
    cases hm : memoryAccessOf memory.actions with
    | invalid => exact absurd hm haccess
    | read => exact Or.inl rfl
    | write => exact Or.inr rfl
  generalize hout : { out with memoryAccess := memoryAccessOf memory.actions, memoryWidth := operandWidth memory.size }
    = filled at h ⊢
  rw [← show filled.memoryWidth = operandWidth memory.size by rw [← hout]] at hmask
  rw [← show filled.memoryAccess = memoryAccessOf memory.actions by rw [← hout]] at haccess' ⊢
  rw [← show filled.gprIndex = out.gprIndex by rw [← hout]] at hindex
  obtain ⟨hconf, hacc, hval⟩ := decodeValueOperand_accepts hmask haccess' hindex h
  exact ⟨not_not.mp hmem, hconf, hacc, hval⟩

/-- The value returned is 0 or a negative errno. -/
private def Settled (r : Int × DecodedInsn) : Prop := r.1 = 0 ∨ ∃ e : Errno, r.1 = -e.code

private theorem settled_refuse (e : Errno) (out : DecodedInsn) : Settled (refuse e out) := Or.inr ⟨e, rfl⟩

private theorem decodeGpr_settled : Settled (relmZydisDecodeGpr z operand out) := by
  unfold relmZydisDecodeGpr
  dsimp only
  generalize (if [zydisRegisterAh, zydisRegisterCh, zydisRegisterDh, zydisRegisterBh].contains operand.reg = true then
    (8 : U32) else 0) = offset
  split_ifs
  all_goals first
    | exact settled_refuse _ _
    | exact Or.inl rfl

private theorem decodeValueOperand_settled : Settled (decodeValueOperand z value out) := by
  unfold decodeValueOperand
  split
  · dsimp only
    split
    · exact decodeGpr_settled
    split
    · exact settled_refuse _ _
    split
    · unfold relmZydisSetLoadSemantics
      split
      · exact Or.inl rfl
      · exact Or.inl rfl
      · exact Or.inl rfl
      · exact Or.inl rfl
      · exact settled_refuse _ _
    · exact Or.inl rfl
  · split
    · exact settled_refuse _ _
    · exact Or.inl rfl
  · exact settled_refuse _ _

private theorem decodeOperands_settled : Settled (decodeOperands z memory value out) := by
  unfold decodeOperands
  dsimp only
  split_ifs
  all_goals first
    | exact settled_refuse _ _
    | exact decodeValueOperand_settled

end Accepted

/-- The two operands of an instruction are the memory operand and the other one, in one of the two orders. -/
private theorem sortOperands_two {operands : Nat → ZydisOperand} {memory value : ZydisOperand}
    (h : sortOperands operands 2 0 none none = some (some memory, some value)) :
    (operands 0).visibility = .explicit ∧ (operands 1).visibility = .explicit ∧ memory.type = .memory ∧
      value.type ≠ .memory ∧
      ((operands 0 = memory ∧ operands 1 = value) ∨ (operands 0 = value ∧ operands 1 = memory)) := by
  simp only [sortOperands, Option.isSome_none, Option.isSome_some, if_true, Bool.false_eq_true, if_false,
    Nat.zero_add] at h
  by_cases hv₀ : (operands 0).visibility = .explicit
  swap
  · rw [if_pos hv₀] at h
    exact absurd h (by simp)
  by_cases hv₁ : (operands 1).visibility = .explicit
  swap
  · simp [hv₁] at h
  simp only [ne_eq, hv₀, hv₁, not_true_eq_false, if_false] at h
  refine ⟨hv₀, hv₁, ?_⟩
  by_cases hm₀ : (operands 0).type = .memory
  · by_cases hm₁ : (operands 1).type = .memory
    · simp [hm₀, hm₁] at h
    · simp only [hm₀, hm₁, if_true, if_false, Option.some.injEq, Prod.mk.injEq] at h
      obtain ⟨rfl, rfl⟩ := h
      exact ⟨hm₀, hm₁, Or.inl ⟨rfl, rfl⟩⟩
  · by_cases hm₁ : (operands 1).type = .memory
    · simp only [hm₀, hm₁, if_true, if_false, Option.some.injEq, Prod.mk.injEq] at h
      obtain ⟨rfl, rfl⟩ := h
      exact ⟨hm₁, hm₀, Or.inr ⟨rfl, rfl⟩⟩
    · simp [hm₀, hm₁] at h

/-- What makes an instruction one that the emulators carry out: a `mov` without a lock prefix whose two visible operands
are explicit, one of them in memory, read or written as the result says, and the other a register or an immediate. -/
structure AcceptedMov (z : Zydis) (bytes : List Byte) (decoded : DecodedInsn) : Prop where
  initialised : zyanSuccess z.decoderInit = true
  status : zyanSuccess (z.decoderDecodeFull bytes).1 = true
  mnemonic : (z.decoderDecodeFull bytes).2.1.mnemonic = zydisMnemonicMov
  unlocked : (z.decoderDecodeFull bytes).2.1.attributes &&& zydisAttribHasLock = 0
  two : (z.decoderDecodeFull bytes).2.1.operandCountVisible = 2#8
  explicit : ∀ i < 2, ((z.decoderDecodeFull bytes).2.2 i).visibility = .explicit
  operands : ∃ memory value : ZydisOperand, memory.type = .memory ∧ memory.memType = .mem ∧
    (((z.decoderDecodeFull bytes).2.2 0 = memory ∧ (z.decoderDecodeFull bytes).2.2 1 = value) ∨
      ((z.decoderDecodeFull bytes).2.2 0 = value ∧ (z.decoderDecodeFull bytes).2.2 1 = memory)) ∧
    (decoded.memoryAccess = .read ↔ memory.actions = zydisOperandActionRead) ∧
    (decoded.memoryAccess = .write ↔ memory.actions = zydisOperandActionWrite) ∧
    value.IsValue z decoded

private theorem memoryAccessOf_read (actions : Byte) :
    memoryAccessOf actions = .read ↔ actions = zydisOperandActionRead := by
  unfold memoryAccessOf
  split
  · simp [*]
  · split
    · rename_i hwrite
      rw [hwrite]
      decide
    · simp [*]

private theorem memoryAccessOf_write (actions : Byte) :
    memoryAccessOf actions = .write ↔ actions = zydisOperandActionWrite := by
  unfold memoryAccessOf
  split
  · rename_i hread
    rw [hread]
    decide
  · split
    · rename_i hwrite
      rw [hwrite]
      decide
    · simp [*]

/-- The decoder returns an errno, or the operands of an unlocked MOV of two and its length. -/
private theorem decodeX86_cases (z : Zydis) (insnBuf : List Byte) (len : Int) (out : DecodedInsn) :
    (∃ e : Errno, (relmDecodeX86 z insnBuf len out).1 = -e.code) ∨
      ∃ instruction operands memory value, instruction = (z.decoderDecodeFull (insnBuf.take len.toNat)).2.1 ∧
        operands = (z.decoderDecodeFull (insnBuf.take len.toNat)).2.2 ∧ zyanSuccess z.decoderInit = true ∧
        zyanSuccess (z.decoderDecodeFull (insnBuf.take len.toNat)).1 = true ∧ instruction.mnemonic = zydisMnemonicMov ∧
        instruction.attributes &&& zydisAttribHasLock = 0 ∧ instruction.operandCountVisible = 2#8 ∧
        sortOperands operands 2 0 none none = some (some memory, some value) ∧
        ¬ (decodeOperands z memory value DecodedInsn.blank).1 < 0 ∧
        ¬ (instruction.length = 0 ∨ len < instruction.length.toNat) ∧
        relmDecodeX86 z insnBuf len out = ((instruction.length.toNat : Int),
          { (decodeOperands z memory value DecodedInsn.blank).2 with length := instruction.length.setWidth 32 }) := by
  unfold relmDecodeX86
  split
  · exact Or.inl ⟨_, rfl⟩
  dsimp only
  split
  · exact Or.inl ⟨_, rfl⟩
  rename_i hinit
  split
  · exact Or.inl ⟨_, rfl⟩
  rename_i hstatus
  split
  · exact Or.inl ⟨_, rfl⟩
  rename_i hmov
  split
  · exact Or.inl ⟨_, rfl⟩
  rename_i htwo
  simp only [ne_eq, not_or, not_not] at hmov htwo
  split
  swap
  · exact Or.inl ⟨_, rfl⟩
  rename_i memory value hsort
  rw [htwo] at hsort
  split
  · rename_i hneg
    exact Or.inl (decodeOperands_settled.resolve_left (ne_of_lt hneg))
  rename_i hret
  split
  · exact Or.inl ⟨_, rfl⟩
  rename_i hlength
  exact Or.inr ⟨_, _, memory, value, rfl, rfl, by simpa using hinit, by simpa using hstatus, hmov.1, hmov.2, htwo, hsort,
    hret, hlength, rfl⟩

/-- What the decoder hands out, in one of two ways: a negative errno, or the length of an instruction within the bytes it
was given that the emulators can carry out from the fields alone. -/
theorem decode_fails_closed (z : Zydis) (insnBuf : List Byte) (len : Int) (out : DecodedInsn) :
    (∃ e : Errno, (relmDecodeX86 z insnBuf len out).1 = -e.code) ∨
      (1 ≤ (relmDecodeX86 z insnBuf len out).1 ∧ (relmDecodeX86 z insnBuf len out).1 ≤ len ∧
        ((relmDecodeX86 z insnBuf len out).2.length.toNat : Int) = (relmDecodeX86 z insnBuf len out).1 ∧
        (relmDecodeX86 z insnBuf len out).2.Conforming ∧
        AcceptedMov z (insnBuf.take len.toNat) (relmDecodeX86 z insnBuf len out).2) := by
  rcases decodeX86_cases z insnBuf len out with
    herr | ⟨instruction, operands, memory, value, hi, ho, hinit, hstatus, hmov, hlock, htwo, hsort, hret, hlength, heq⟩
  · exact Or.inl herr
  obtain ⟨hv₀, hv₁, hm, -, hops⟩ := sortOperands_two hsort
  obtain ⟨hmem, hconf, hacc, hval⟩ := decodeOperands_accepts rfl hret
  subst hi ho
  rw [heq]
  refine Or.inr ⟨?_, ?_, ?_, ⟨hconf.width, hconf.access, hconf.operand⟩,
    ⟨hinit, hstatus, hmov, hlock, htwo, ?_, memory, value, hm, hmem, hops, ?_, ?_, hval⟩⟩
  · have hpos : (z.decoderDecodeFull (List.take len.toNat insnBuf)).2.1.length.toNat ≠ 0 := by
      intro hzero
      exact hlength (Or.inl (BitVec.eq_of_toNat_eq hzero))
    exact Int.ofNat_le.mpr (Nat.one_le_iff_ne_zero.mpr hpos)
  · exact Int.not_lt.mp (fun hlt => hlength (Or.inr hlt))
  · have hbyte := (z.decoderDecodeFull (List.take len.toNat insnBuf)).2.1.length.isLt
    rw [BitVec.toNat_setWidth, Nat.mod_eq_of_lt (by omega)]
  · intro i hi
    match i, hi with
    | 0, _ => exact hv₀
    | 1, _ => exact hv₁
  · rw [← memoryAccessOf_read]
    exact iff_of_eq (congrArg (· = MemoryAccess.read) hacc)
  · rw [← memoryAccessOf_write]
    exact iff_of_eq (congrArg (· = MemoryAccess.write) hacc)

/-- What the emulators get from the decoder without an errno conforms. -/
theorem relmDecodeInstruction_conforming {z : Zydis} {bytes : List Byte} {ret : Int} {decoded : DecodedInsn}
    (h : relmDecodeInstruction z bytes = (ret, decoded)) (hret : 0 ≤ ret) : decoded.Conforming := by
  rw [relmDecodeInstruction] at h
  rcases decodeX86_cases z bytes bytes.length DecodedInsn.blank with
    ⟨e, herr⟩ | ⟨instruction, operands, memory, value, -, -, -, -, -, -, -, -, hok, -, heq⟩
  · rw [h] at herr
    have hpos := e.code_pos
    simp only at herr
    omega
  · obtain ⟨-, hconf, -⟩ := decodeOperands_accepts rfl hok
    rw [heq] at h
    obtain ⟨-, rfl⟩ := Prod.mk.inj h
    exact ⟨hconf.width, hconf.access, hconf.operand⟩

end Relm.Decoder
