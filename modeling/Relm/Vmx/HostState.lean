import Relm.Vmx.Vmcs

/-! The host-state area of the VMCS: what `relm_setup_host_state` writes, and which fields end up with it. -/
namespace Relm.Vmx
open Relm.Lib.Word

def hostCr0 : Nat := 0x6c00
def hostCr3 : Nat := 0x6c02
def hostCr4 : Nat := 0x6c04
def hostRsp : Nat := 0x6c14
def hostRip : Nat := 0x6c16
def hostEsSelector : Nat := 0x0c00
def hostCsSelector : Nat := 0x0c02
def hostSsSelector : Nat := 0x0c04
def hostDsSelector : Nat := 0x0c06
def hostFsSelector : Nat := 0x0c08
def hostGsSelector : Nat := 0x0c0a
def hostTrSelector : Nat := 0x0c0c
def hostFsBase : Nat := 0x6c06
def hostGsBase : Nat := 0x6c08
def hostTrBase : Nat := 0x6c0a
def hostGdtrBase : Nat := 0x6c0c
def hostIdtrBase : Nat := 0x6c0e
def hostIa32SysenterEsp : Nat := 0x6c10
def hostIa32SysenterEip : Nat := 0x6c12
def hostIa32SysenterCs : Nat := 0x4c00
def hostSysenterCs : Nat := 0x6c0c
def hostSysenterEsp : Nat := 0x6c0e
def hostSysenterEip : Nat := 0x6c10
def hostIa32Pat : Nat := 0x2c00
def hostIa32Efer : Nat := 0x2c02
def vmcsLinkPointer : Nat := 0x2800

/-- What the host processor holds when the function runs. `gdt` is the descriptor table, an entry as its 8 bytes. -/
structure HostCpu where
  cr0 : U64
  cr3 : U64
  cr4 : U64
  tr : BitVec 16
  gdtAddress : U64
  gdtSize : BitVec 16
  gdt : Nat → U64
  idtAddress : U64
  fsBase : U64
  gsBase : U64
  sysenterCs : U64
  sysenterEsp : U64
  sysenterEip : U64
  efer : U64
  pat : U64

def kernelCs : U64 := 0x10#64
def kernelDs : U64 := 0x18#64

/-- Fields of `struct desc_struct`. -/
def base0 (d : U64) : U64 := (d >>> 16) &&& 0xFFFF#64
def base1 (d : U64) : U64 := (d >>> 32) &&& 0xFF#64
def base2 (d : U64) : U64 := (d >>> 56) &&& 0xFF#64

/-- The low half of the TSS base as the C expression computes it: an `int`, widened with its sign. -/
def trBaseLow (d : U64) : U64 := ((base0 d ||| base1 d <<< 16 ||| base2 d <<< 24).setWidth 32).signExtend 64

/-- `tr_base`. -/
def HostCpu.trBase (cpu : HostCpu) : U64 :=
  let index := cpu.tr.toNat / 8
  if index + 1 < (cpu.gdtSize.toNat + 1) / 8 then trBaseLow (cpu.gdt index) ||| (cpu.gdt (index + 1) <<< 32)
  else trBaseLow (cpu.gdt index)

/-- `CHECK_VMWRITE` one field after the other; the first failure returns. -/
def checkVmwrites : List (Nat × U64) → Vmcs → Except Errno Unit × Vmcs
  | [], v => (.ok (), v)
  | (enc, value) :: rest, v =>
    match v.vmwrite enc value with
    | none => (.error .eio, v)
    | some v => checkVmwrites rest v

/-- The writes before TR is looked at. `rsp` is `vcpu->arch.host_rsp`, `handler` the address of `relm_vmexit_handler`. -/
def writesBeforeTr (cpu : HostCpu) (rsp handler : U64) : List (Nat × U64) :=
  [(hostCr0, cpu.cr0), (hostCr3, cpu.cr3), (hostCr4, cpu.cr4), (hostRsp, rsp), (hostRip, handler),
    (hostCsSelector, kernelCs &&& 0xFFF8#64), (hostSsSelector, kernelDs &&& 0xFFF8#64),
    (hostDsSelector, kernelDs &&& 0xFFF8#64), (hostEsSelector, kernelDs &&& 0xFFF8#64), (hostFsSelector, 0),
    (hostGsSelector, 0)]

def writesAfterTr (cpu : HostCpu) : List (Nat × U64) :=
  [(hostTrSelector, cpu.tr.setWidth 64 &&& 0xFFF8#64), (hostTrBase, cpu.trBase), (hostGdtrBase, cpu.gdtAddress),
    (hostIdtrBase, cpu.idtAddress), (vmcsLinkPointer, 0xFFFFFFFFFFFFFFFF#64), (hostFsBase, cpu.fsBase),
    (hostGsBase, cpu.gsBase), (hostSysenterCs, cpu.sysenterCs), (hostSysenterEsp, cpu.sysenterEsp),
    (hostSysenterEip, cpu.sysenterEip), (hostIa32Efer, cpu.efer), (hostIa32Pat, cpu.pat)]

def relmSetupHostState (cpu : HostCpu) (rsp handler : U64) (v : Vmcs) : Except Errno Unit × Vmcs :=
  match checkVmwrites (writesBeforeTr cpu rsp handler) v with
  | (.error e, v) => (.error e, v)
  | (.ok _, v) => if cpu.tr == 0 then (.error .einval, v) else checkVmwrites (writesAfterTr cpu) v

/-- The writes of a call that returns 0, in order. -/
def hostStateWrites (cpu : HostCpu) (rsp handler : U64) : List (Nat × U64) :=
  writesBeforeTr cpu rsp handler ++ writesAfterTr cpu

/-- The host registers the area has to hold. -/
inductive HostItem
  | cr0 | cr3 | cr4 | rsp | rip | esSelector | csSelector | ssSelector | dsSelector | fsSelector | gsSelector | trSelector
  | fsBase | gsBase | trBase | gdtrBase | idtrBase | sysenterCs | sysenterEsp | sysenterEip | efer | pat

namespace HostItem

/-- Architectural encodings. -/
def field : HostItem → Nat
  | cr0 => hostCr0 | cr3 => hostCr3 | cr4 => hostCr4 | rsp => hostRsp | rip => hostRip
  | esSelector => hostEsSelector | csSelector => hostCsSelector | ssSelector => hostSsSelector
  | dsSelector => hostDsSelector | fsSelector => hostFsSelector | gsSelector => hostGsSelector
  | trSelector => hostTrSelector | fsBase => hostFsBase | gsBase => hostGsBase | trBase => hostTrBase
  | gdtrBase => hostGdtrBase | idtrBase => hostIdtrBase | sysenterCs => hostIa32SysenterCs
  | sysenterEsp => hostIa32SysenterEsp | sysenterEip => hostIa32SysenterEip | efer => hostIa32Efer | pat => hostIa32Pat

end HostItem

/-- The 64-bit base in a 16-byte TSS descriptor. -/
def tssBase (low high : U64) : U64 := base0 low ||| base1 low <<< 16 ||| base2 low <<< 24 ||| (high &&& 0xFFFFFFFF#64) <<< 32

/-- What each field is meant to hold. -/
def HostCpu.intended (cpu : HostCpu) (rsp handler : U64) : HostItem → U64
  | .cr0 => cpu.cr0 | .cr3 => cpu.cr3 | .cr4 => cpu.cr4 | .rsp => rsp | .rip => handler
  | .csSelector => kernelCs | .ssSelector => kernelDs | .dsSelector => kernelDs | .esSelector => kernelDs
  | .fsSelector => 0 | .gsSelector => 0 | .trSelector => cpu.tr.setWidth 64 &&& 0xFFF8#64
  | .fsBase => cpu.fsBase | .gsBase => cpu.gsBase
  | .trBase => tssBase (cpu.gdt (cpu.tr.toNat / 8)) (cpu.gdt (cpu.tr.toNat / 8 + 1))
  | .gdtrBase => cpu.gdtAddress | .idtrBase => cpu.idtAddress | .sysenterCs => cpu.sysenterCs
  | .sysenterEsp => cpu.sysenterEsp | .sysenterEip => cpu.sysenterEip | .efer => cpu.efer | .pat => cpu.pat

/-- The area is complete and no write spoiled an earlier one. -/
structure HostStateIntact (cpu : HostCpu) (rsp handler : U64) (v : Vmcs) : Prop where
  written : ∀ item : HostItem, item.field ∈ (hostStateWrites cpu rsp handler).map Prod.fst
  once : ((hostStateWrites cpu rsp handler).map Prod.fst).Nodup
  holds : ∀ item : HostItem, v.fields item.field = stored item.field (cpu.intended rsp handler item)

/-- The value a field has after a sequence of writes. -/
def lastWrite (writes : List (Nat × U64)) (enc : Nat) (old : U64) : U64 :=
  writes.foldl (fun old w => if enc = w.1 then stored w.1 w.2 else old) old

theorem checkVmwrites_fields {writes : List (Nat × U64)} {v v' : Vmcs} (h : checkVmwrites writes v = (.ok (), v'))
    (enc : Nat) : v'.fields enc = lastWrite writes enc (v.fields enc) := by
  induction writes generalizing v with
  | nil =>
    cases h
    rfl
  | cons w writes ih =>
    rw [checkVmwrites] at h
    split at h
    · cases h
    · rename_i u hu
      have hfields : u.fields enc = if enc = w.1 then stored w.1 w.2 else v.fields enc := by
        unfold Vmcs.vmwrite at hu
        split at hu
        · cases hu
          rfl
        · cases hu
      rw [ih h, hfields, lastWrite, lastWrite, List.foldl_cons]

/-- A call that returns 0 has made all of its writes. -/
theorem setupHostState_fields {cpu : HostCpu} {rsp handler : U64} {v v' : Vmcs}
    (h : relmSetupHostState cpu rsp handler v = (.ok (), v')) (enc : Nat) :
    v'.fields enc = lastWrite (hostStateWrites cpu rsp handler) enc (v.fields enc) := by
  unfold relmSetupHostState at h
  split at h
  · cases h
  · rename_i u hu
    split at h
    · cases h
    · rw [checkVmwrites_fields h, checkVmwrites_fields hu, hostStateWrites, lastWrite, lastWrite, lastWrite, List.foldl_append]

theorem stored_natural (enc : Nat) (h : fieldWidth enc = 64) (value : U64) : stored enc value = value := by
  rw [stored, h, Nat.mod_eq_of_lt value.isLt, BitVec.ofNat_toNat, BitVec.setWidth_eq]

/-- Whenever the function returns 0 the area is spoiled: the descriptor-table bases hold SYSENTER values, the
SYSENTER stack pointer holds the entry point, and two fields are never written. -/
theorem host_state_never_intact {cpu : HostCpu} {rsp handler : U64} {v v' : Vmcs}
    (h : relmSetupHostState cpu rsp handler v = (.ok (), v')) :
    ¬ HostStateIntact cpu rsp handler v' ∧ v'.fields hostGdtrBase = cpu.sysenterCs ∧
      v'.fields hostIdtrBase = cpu.sysenterEsp ∧ v'.fields hostIa32SysenterEsp = cpu.sysenterEip ∧
      v'.fields hostIa32SysenterCs = v.fields hostIa32SysenterCs ∧
      v'.fields hostIa32SysenterEip = v.fields hostIa32SysenterEip := by
  have hfields := setupHostState_fields h
  refine ⟨fun hi => ?_, ?_, ?_, ?_, hfields _, hfields _⟩
  · have hw := hi.written .sysenterCs
    have henc : (hostStateWrites cpu rsp handler).map Prod.fst =
        [hostCr0, hostCr3, hostCr4, hostRsp, hostRip, hostCsSelector, hostSsSelector, hostDsSelector, hostEsSelector,
          hostFsSelector, hostGsSelector, hostTrSelector, hostTrBase, hostGdtrBase, hostIdtrBase, vmcsLinkPointer,
          hostFsBase, hostGsBase, hostSysenterCs, hostSysenterEsp, hostSysenterEip, hostIa32Efer, hostIa32Pat] := rfl
    rw [henc] at hw
    revert hw
    decide
  · rw [hfields]
    exact stored_natural hostSysenterCs (by decide) cpu.sysenterCs
  · rw [hfields]
    exact stored_natural hostSysenterEsp (by decide) cpu.sysenterEsp
  · rw [hfields]
    exact stored_natural hostSysenterEip (by decide) cpu.sysenterEip

private def sampleCpu : HostCpu where
  cr0 := 0x80050033#64
  cr3 := 0x1000000#64
  cr4 := 0x3726E0#64
  tr := 0x40#16
  gdtAddress := 0xFFFFFE0000001000#64
  gdtSize := 0x7F#16
  gdt n := if n = 8 then 0x00008B0030004087#64 else if n = 9 then 0xFFFFFE00#64 else 0
  idtAddress := 0xFFFFFE0000000000#64
  fsBase := 0
  gsBase := 0xFFFF88813BC00000#64
  sysenterCs := 0x10#64
  sysenterEsp := 0xFFFFFE0000003000#64
  sysenterEip := 0xFFFFFFFF81C01540#64
  efer := 0xD01#64
  pat := 0x0407050600070106#64

/-- A VMCS whose processor has every field, all zero. -/
private def clearVmcs : Vmcs := ⟨fun _ => true, fun _ => 0⟩

theorem host_state_never_intact_sample : ∃ v', relmSetupHostState sampleCpu 0 0 clearVmcs = (.ok (), v') ∧
    ¬ HostStateIntact sampleCpu 0 0 v' ∧ v'.fields hostGdtrBase = 0x10#64 := by
  have h := @host_state_never_intact sampleCpu 0 0 clearVmcs _ rfl
  exact ⟨_, rfl, h.1, h.2.1⟩

/-- The GDTR base reloaded at every VM exit is the SYSENTER code selector. -/
theorem gdtr_base_overwritten : (relmSetupHostState sampleCpu 0 0 clearVmcs).1 = .ok () ∧
    (relmSetupHostState sampleCpu 0 0 clearVmcs).2.fields HostItem.gdtrBase.field ≠
      stored HostItem.gdtrBase.field (sampleCpu.intended 0 0 .gdtrBase) ∧
    ¬ HostStateIntact sampleCpu 0 0 (relmSetupHostState sampleCpu 0 0 clearVmcs).2 := by
  have hne : (relmSetupHostState sampleCpu 0 0 clearVmcs).2.fields HostItem.gdtrBase.field ≠
      stored HostItem.gdtrBase.field (sampleCpu.intended 0 0 .gdtrBase) := by decide
  exact ⟨rfl, hne, fun h => hne (h.holds .gdtrBase)⟩

private theorem base_bounds (d : U64) :
    (base0 d).toNat < 2 ^ 16 ∧ (base1 d).toNat < 2 ^ 8 ∧ (base2 d).toNat < 2 ^ 8 := by
  rw [base0, base1, base2, field_toNat _ _ 16 16 (by decide), field_toNat _ _ 32 8 (by decide),
    field_toNat _ _ 56 8 (by decide)]
  exact ⟨Nat.mod_lt _ (by decide), Nat.mod_lt _ (by decide), Nat.mod_lt _ (by decide)⟩

private theorem low_lt (d : U64) : (base0 d ||| base1 d <<< 16 ||| base2 d <<< 24).toNat < 2 ^ 32 := by
  obtain ⟨h0, h1, h2⟩ := base_bounds d
  have h16 : (base1 d <<< 16).toNat < 2 ^ 24 := by
    rw [BitVec.toNat_shiftLeft, Nat.shiftLeft_eq]
    omega
  have h24 : (base2 d <<< 24).toNat < 2 ^ 32 := by
    rw [BitVec.toNat_shiftLeft, Nat.shiftLeft_eq]
    omega
  rw [BitVec.toNat_or, BitVec.toNat_or]
  exact Nat.or_lt_two_pow (Nat.or_lt_two_pow (by omega) (by omega)) h24

private theorem low_bit (d : U64) : (base0 d ||| base1 d <<< 16 ||| base2 d <<< 24).getLsbD 31 = true ↔
    0x80 ≤ (base2 d).toNat := by
  obtain ⟨h0, h1, h2⟩ := base_bounds d
  have b0 : (base0 d).getLsbD 31 = false := Nat.testBit_lt_two_pow (h0.trans (by decide))
  have b1 : (base1 d).getLsbD 15 = false := Nat.testBit_lt_two_pow (h1.trans (by decide))
  have b2 : (base2 d).getLsbD 7 = decide ((base2 d).toNat / 2 ^ 7 % 2 = 1) := Nat.testBit_eq_decide_div_mod_eq
  simp only [BitVec.getLsbD_or, BitVec.getLsbD_shiftLeft, b0, b1, b2]
  simp
  omega

/-- Widening a value below `2^32` as an `int`, then adding a high half. -/
private theorem widen_or_iff (low high : U64) (hl : low.toNat < 2 ^ 32) :
    (low.setWidth 32).signExtend 64 ||| (high <<< 32) = low ||| (high &&& 0xFFFFFFFF#64) <<< 32 ↔
      low.getLsbD 31 = false ∨ high &&& 0xFFFFFFFF#64 = 0xFFFFFFFF#64 := by
  have hhigh : ∀ i, 32 ≤ i → low.getLsbD i = false := fun i hi =>
    Nat.testBit_lt_two_pow (hl.trans_le (Nat.pow_le_pow_right (by decide) hi))
  have hones : ∀ i, (0xFFFFFFFF#64).getLsbD i = decide (i < 32) := fun i => by
    rw [show (0xFFFFFFFF#64) = (BitVec.allOnes 32).setWidth 64 by decide, BitVec.getLsbD_setWidth, BitVec.getLsbD_allOnes]
    by_cases h : i < 32
    · simp [h, show i < 64 by omega]
    · simp [h]
  have hleft : ∀ i < 64, ((low.setWidth 32).signExtend 64 ||| (high <<< 32)).getLsbD i =
      if i < 32 then low.getLsbD i else (low.getLsbD 31 || high.getLsbD (i - 32)) := by
    intro i hi
    have hmsb : (low.setWidth 32).msb = low.getLsbD 31 := by
      rw [BitVec.msb_eq_getLsbD_last, BitVec.getLsbD_setWidth]
      rfl
    rw [BitVec.getLsbD_or, BitVec.getLsbD_signExtend, BitVec.getLsbD_shiftLeft, BitVec.getLsbD_setWidth, hmsb]
    by_cases h : i < 32
    · rw [if_pos h, if_pos h, decide_eq_true h, decide_eq_true hi]
      simp only [Bool.true_and, Bool.not_true, Bool.and_false, Bool.false_and, Bool.or_false]
    · rw [if_neg h, if_neg h, decide_eq_false h, decide_eq_true hi]
      simp only [Bool.true_and, Bool.not_false]
  have hright : ∀ i < 64, (low ||| (high &&& 0xFFFFFFFF#64) <<< 32).getLsbD i =
      if i < 32 then low.getLsbD i else high.getLsbD (i - 32) := by
    intro i hi
    rw [BitVec.getLsbD_or, BitVec.getLsbD_shiftLeft, BitVec.getLsbD_and, hones]
    by_cases h : i < 32
    · rw [if_pos h, decide_eq_true h]
      simp only [Bool.not_true, Bool.and_false, Bool.false_and, Bool.or_false]
    · rw [if_neg h, decide_eq_false h, decide_eq_true hi, hhigh i (by omega), decide_eq_true (show i - 32 < 32 by omega)]
      simp only [Bool.not_false, Bool.and_true, Bool.true_and, Bool.false_or]
  constructor
  · intro heq
    cases hm : low.getLsbD 31 with
    | false => exact .inl rfl
    | true =>
      refine .inr (BitVec.eq_of_getLsbD_eq fun i hi => ?_)
      rw [BitVec.getLsbD_and, hones]
      by_cases h : i < 32
      · have hb := congrArg (fun x => x.getLsbD (i + 32)) heq
        simp only [hleft (i + 32) (by omega), hright (i + 32) (by omega), if_neg (show ¬ i + 32 < 32 by omega), hm,
          Nat.add_sub_cancel, Bool.true_or] at hb
        simp [h, ← hb]
      · simp [h]
  · intro h
    refine BitVec.eq_of_getLsbD_eq fun i hi => ?_
    rw [hleft i hi, hright i hi]
    split
    · rfl
    · rcases h with hm | hf
      · rw [hm, Bool.false_or]
      · have hb := congrArg (fun x => x.getLsbD (i - 32)) hf
        simp only [BitVec.getLsbD_and, hones, show i - 32 < 32 by omega, decide_true, Bool.and_true] at hb
        rw [hb, Bool.or_true]

/-- The TSS base is right exactly when widening the low half adds nothing the high half does not have. -/
theorem trBase_eq_iff (cpu : HostCpu) (hin : cpu.tr.toNat / 8 + 1 < (cpu.gdtSize.toNat + 1) / 8) :
    cpu.trBase = tssBase (cpu.gdt (cpu.tr.toNat / 8)) (cpu.gdt (cpu.tr.toNat / 8 + 1)) ↔
      (base2 (cpu.gdt (cpu.tr.toNat / 8))).toNat < 0x80 ∨
        cpu.gdt (cpu.tr.toNat / 8 + 1) &&& 0xFFFFFFFF#64 = 0xFFFFFFFF#64 := by
  have hbit := low_bit (cpu.gdt (cpu.tr.toNat / 8))
  have hiff := widen_or_iff _ (cpu.gdt (cpu.tr.toNat / 8 + 1)) (low_lt (cpu.gdt (cpu.tr.toNat / 8)))
  have hbase : cpu.trBase = trBaseLow (cpu.gdt (cpu.tr.toNat / 8)) ||| (cpu.gdt (cpu.tr.toNat / 8 + 1) <<< 32) := if_pos hin
  rw [hbase, trBaseLow, tssBase, hiff, ← Bool.not_eq_true, hbit, Nat.not_le]

end Relm.Vmx
