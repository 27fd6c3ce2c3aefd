import Relm.Decoder.Insn
import Relm.Vmx.Vmcs

/-! The general purpose registers of a guest as the exit handlers keep them, and what a decoded transfer reads from them
and leaves in them. -/
namespace Relm.Vmx
open Relm.Decoder

inductive Gpr
  | rax | rbx | rcx | rdx | rsi | rdi | rbp | rsp | r8 | r9 | r10 | r11 | r12 | r13 | r14 | r15
  deriving DecidableEq, Repr

/-- `struct guest_regs`, as far as the handlers use it. -/
structure GuestRegs where
  gpr : Gpr → U64
  rip : U64

/-- The register of an instruction-encoding number. -/
def guestRegPtr (index : Int) : Option Gpr :=
  match index with
  | 0 => some .rax
  | 1 => some .rcx
  | 2 => some .rdx
  | 3 => some .rbx
  | 4 => some .rsp
  | 5 => some .rbp
  | 6 => some .rsi
  | 7 => some .rdi
  | 8 => some .r8
  | 9 => some .r9
  | 10 => some .r10
  | 11 => some .r11
  | 12 => some .r12
  | 13 => some .r13
  | 14 => some .r14
  | 15 => some .r15
  | _ => none

namespace GuestRegs

variable (regs : GuestRegs)

def guestRegRead (index : Int) : U64 :=
  match guestRegPtr index with
  | some reg => regs.gpr reg
  | none => 0

def guestRegWrite (index : Int) (value : U64) : GuestRegs :=
  match guestRegPtr index with
  | some reg => { regs with gpr := Function.update regs.gpr reg value }
  | none => regs

/-- What an emulated store takes from the instruction or from a register; `none` for any other operand. -/
def storeValue (decoded : DecodedInsn) : Option U32 :=
  match decoded.operandKind with
  | .immediate => some ((decoded.immediate &&& relmWidthMask decoded.memoryWidth).setWidth 32)
  | .gpr => some ((decoded.relmDecodedGprExtract (regs.guestRegRead decoded.gprIndex)).setWidth 32)
  | .invalid => none

/-- The registers after an emulated load. -/
def loadValue (decoded : DecodedInsn) (value : U32) : GuestRegs :=
  regs.guestRegWrite decoded.gprIndex
    (decoded.relmDecodedGprCommit (regs.guestRegRead decoded.gprIndex) (value.setWidth 64))

variable {regs}

/-- A write reaches no register but the one the number stands for. -/
theorem guestRegWrite_other {index : Int} {reg : Gpr} (h : guestRegPtr index ≠ some reg) (value : U64) :
    (regs.guestRegWrite index value).gpr reg = regs.gpr reg := by
  unfold guestRegWrite
  split
  · rename_i r hr
    refine Function.update_of_ne (fun heq => ?_) _ _
    exact h (heq ▸ hr)
  · rfl

end GuestRegs

namespace Vmcs

/-- `_vmwrite` where its result is not looked at. -/
def vmwriteIgnored (v : Vmcs) (enc : Nat) (value : U64) : Vmcs := (v.vmwrite enc value).getD v

theorem vmwrite_eq {v : Vmcs} {enc : Nat} (h : v.supported enc = true) (value : U64) :
    v.vmwrite enc value = some { v with fields := fun e => if e = enc then stored enc value else v.fields e } :=
  if_pos h

/-- A natural-width field reads back what has been written. -/
theorem vmread_vmwrite {v w : Vmcs} {enc : Nat} {value : U64} (hw : fieldWidth enc = 64)
    (h : v.vmwrite enc value = some w) : w.vmread enc = value := by
  unfold vmwrite at h
  split at h
  · rename_i hs
    cases h
    have hval : stored enc value = value := by
      apply BitVec.eq_of_toNat_eq
      rw [stored, hw, BitVec.toNat_ofNat, Nat.mod_mod, Nat.mod_eq_of_lt value.isLt]
    simp only [vmread, hs, if_true, hval]
  · cases h

end Vmcs

def guestRip : Nat := 0x681E

end Relm.Vmx
