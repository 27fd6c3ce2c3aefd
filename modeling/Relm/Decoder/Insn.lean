import Relm.Host.Pages

/-! The result of decoding one guest instruction, and what a transfer through the decoded register does. -/
namespace Relm.Decoder

inductive MemoryAccess
  | invalid | read | write
  deriving DecidableEq, Repr

inductive OperandKind
  | invalid | gpr | immediate
  deriving DecidableEq, Repr

inductive GprWriteSemantics
  | none | merge | zeroExtend | replace
  deriving DecidableEq, Repr

/-- `struct relm_decoded_insn`. -/
structure DecodedInsn where
  length : U32
  memoryAccess : MemoryAccess
  memoryWidth : U32
  operandKind : OperandKind
  immediate : U64
  gprIndex : Int
  gprWidth : U32
  gprBitOffset : U32
  gprWriteSemantics : GprWriteSemantics
  deriving DecidableEq, Repr

/-- The mask of a width in bytes, 0 for a width no operand has. -/
def relmWidthMask (width : U32) : U64 :=
  match width.toNat with
  | 1 => 0xFF#64
  | 2 => 0xFFFF#64
  | 4 => 0xFFFFFFFF#64
  | 8 => ~~~0#64
  | _ => 0

namespace DecodedInsn

variable (decoded : DecodedInsn)

def relmDecodedHasValidGpr : Bool :=
  if decoded.operandKind ≠ .gpr then false
  else if decoded.gprIndex < 0 ∨ 16 ≤ decoded.gprIndex then false
  else if relmWidthMask decoded.gprWidth = 0 then false
  else if decoded.gprBitOffset = 0 then true
  else decoded.gprWidth == 1#32 && decoded.gprBitOffset == 8#32

/-- The lane of the decoded register in the value of its enclosing register. -/
def relmDecodedGprExtract (enclosing : U64) : U64 :=
  if !decoded.relmDecodedHasValidGpr then 0
  else (enclosing >>> decoded.gprBitOffset.toNat) &&& relmWidthMask decoded.gprWidth

/-- The enclosing register after a value has been loaded into the lane. -/
def relmDecodedGprCommit (old transferred : U64) : U64 :=
  if !decoded.relmDecodedHasValidGpr then old
  else
    let mask := relmWidthMask decoded.gprWidth
    match decoded.gprWriteSemantics with
    | .merge =>
      (old &&& ~~~(mask <<< decoded.gprBitOffset.toNat)) ||| ((transferred &&& mask) <<< decoded.gprBitOffset.toNat)
    | .zeroExtend | .replace => transferred &&& mask
    | .none => old

/-- The write semantics a load of a width has. -/
def loadSemantics (width : U32) : GprWriteSemantics :=
  if width = 4#32 then .zeroExtend else if width = 8#32 then .replace else .merge

/-- What a decoder promises of the instruction it hands out: a transfer of 1, 2, 4 or 8 bytes between memory and a
general purpose register of the same width, or from an immediate to memory. -/
structure Conforming : Prop where
  width : decoded.memoryWidth ∈ [1#32, 2#32, 4#32, 8#32]
  access : decoded.memoryAccess = .read ∨ decoded.memoryAccess = .write
  operand : (decoded.operandKind = .gpr ∧ decoded.relmDecodedHasValidGpr = true ∧
      decoded.gprWidth = decoded.memoryWidth ∧
      (decoded.memoryAccess = .read → decoded.gprWriteSemantics = loadSemantics decoded.memoryWidth) ∧
      (decoded.memoryAccess = .write → decoded.gprWriteSemantics = .none)) ∨
    (decoded.operandKind = .immediate ∧ decoded.memoryAccess = .write ∧ decoded.gprIndex = -1)

end DecodedInsn

/-- `relm_decode_instruction`, as its callers see it: the bytes given, the value returned and the instruction. -/
abbrev InsnDecoder := List Byte → Int × DecodedInsn

end Relm.Decoder
