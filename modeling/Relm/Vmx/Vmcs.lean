import Relm.Host.Pages

/-! The VMCS as VMREAD and VMWRITE see it. -/
namespace Relm.Vmx

/-- The current VMCS. A processor has some of the fields; VMREAD and VMWRITE of another encoding fail. -/
structure Vmcs where
  supported : Nat → Bool
  fields : Nat → U64

/-- Bits a field holds, from the width part of its encoding. -/
def fieldWidth (enc : Nat) : Nat :=
  match enc / 2 ^ 13 % 4 with
  | 0 => 16
  | 2 => 32
  | _ => 64

/-- The value a field keeps of what is written to it. -/
def stored (enc : Nat) (value : U64) : U64 := BitVec.ofNat 64 (value.toNat % 2 ^ fieldWidth enc)

namespace Vmcs

/-- `__vmread`: a failed read yields 0. -/
def vmread (v : Vmcs) (enc : Nat) : U64 := if v.supported enc then v.fields enc else 0

/-- `_vmwrite`: bits beyond the width of the field are dropped. -/
def vmwrite (v : Vmcs) (enc : Nat) (value : U64) : Option Vmcs :=
  if v.supported enc then
    some { v with fields := fun e => if e = enc then stored enc value else v.fields e }
  else none

end Vmcs

def guestCr0 : Nat := 0x6800
def guestCr3 : Nat := 0x6802
def guestCr4 : Nat := 0x6804
def guestIa32Efer : Nat := 0x2806
def guestCsArBytes : Nat := 0x4816
def guestCsBase : Nat := 0x6808

def eferSce : U64 := 1#64 <<< 0
def eferLme : U64 := 1#64 <<< 8
def eferLma : U64 := 1#64 <<< 10

end Relm.Vmx
