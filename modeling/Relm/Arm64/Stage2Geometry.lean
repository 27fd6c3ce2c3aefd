import Relm.Arm64.Stage2Operations
import Relm.Arm64.WorldSwitch
import Relm.Lib.Fields

/-! The way of a stage-2 geometry: from the ID registers of the host to the widths that are chosen, to the translation
registers, and to the table slots of an address. -/
namespace Relm.Arm64
open Relm.Lib.Fields Relm.Lib.Word

/-- What the kernel was built for: `PAGE_SHIFT` and `CONFIG_CPU_BIG_ENDIAN`. -/
structure KernelConfig where
  pageShift : Nat
  bigEndian : Bool

/-- `struct relm_stage2_runtime_ops`, without the callbacks that nothing here calls or checks. -/
structure RuntimeOps where
  hostPfr0El1 : U64
  hostMmfr0El1 : U64
  hostMmfr1El1 : U64
  invalidate : Option (U64 → U64 → Except Errno Unit)

def s2GranuleShift : Nat := 12
def s2PaWidths : List Nat := [32, 36, 40, 42, 44, 48, 52, 56]

/-- Host ID registers to the widest geometry the host can support. -/
def s2DecodeLimits (kernel : KernelConfig) (ops : RuntimeOps) : Except Errno Geometry :=
  let el2 := (ops.hostPfr0El1 >>> 8) &&& 0xf#64
  let granule := (ops.hostMmfr0El1 >>> 28) &&& 0xf#64
  let granule2 := (ops.hostMmfr0El1 >>> 40) &&& 0xf#64
  let pa := ops.hostMmfr0El1 &&& 0xf#64
  let vmids := (ops.hostMmfr1El1 >>> 4) &&& 0xf#64
  if kernel.pageShift != s2GranuleShift then .error .eopnotsupp
  else if kernel.bigEndian then .error .eopnotsupp
  else if (el2 != 1 && el2 != 2) || decide (s2PaWidths.length ≤ pa.toNat) || (vmids != 0 && vmids != 2) then
    .error .eopnotsupp
  else if granule2 == 0 && granule != 0 && granule != 1 then .error .eopnotsupp
  else if granule2 != 0 && granule2 != 2 && granule2 != 3 then .error .eopnotsupp
  else
    let width := s2PaWidths.getD pa.toNat 0
    let paBits := if 48 < width then 48 else width
    .ok { ipaBits := paBits
          paBits
          startLevel := if paBits ≤ 39 then 1 else 0
          vmidBits := if vmids == 2 then 16 else 8 }

/-- `s2_runtime`, `s2_limits` and `s2_runtime_ready`. -/
structure S2Runtime where
  ops : RuntimeOps
  limits : Geometry
  ready : Bool

/-- The limits a context is checked against. -/
def S2Runtime.readyLimits (rt : S2Runtime) : Option Geometry := if rt.ready then some rt.limits else none

def relmStage2RegisterRuntime (kernel : KernelConfig) (rt : S2Runtime) (ops : Option RuntimeOps) :
    Except Errno Unit × S2Runtime :=
  match ops with
  | none => (.error .einval, rt)
  | some ops =>
    if ops.invalidate.isNone then (.error .einval, rt)
    else
      match s2DecodeLimits kernel ops with
      | .error e => (.error e, rt)
      | .ok limits => if rt.ready then (.error .ebusy, rt) else (.ok (), { ops, limits, ready := true })

/-- The width is stored in a byte. -/
def relmStage2ChooseGeometry (rt : S2Runtime) (requestedIpaBits : BitVec 32) : Except Errno Geometry :=
  let requested := requestedIpaBits.toNat
  if decide (requested < s2MinIpaBits) || decide (s2MaxIpaBits < requested) then .error .einval
  else if !rt.ready || decide (rt.limits.ipaBits < requested) then .error .eopnotsupp
  else .ok { rt.limits with
    ipaBits := (requestedIpaBits.setWidth 8).toNat
    startLevel := if requested ≤ 39 then 1 else 0 }

def s2VtcrT0szMask : U64 := 0x3f#64
def s2VtcrSl0Mask : U64 := 0x3#64 <<< 6
def s2VtcrPsMask : U64 := 0x7#64 <<< 16
def s2VtcrVs16bit : U64 := 0x1#64 <<< 19
def s2VttbrVmidMask16bit : U64 := 0xffff#64 <<< 48

/-- The masks of `VTCR_EL2` that stage 2 uses: the fixed walk flags and the four fields of a geometry. -/
def vtcrMasks : List U64 := [s2VtcrWalkFlags, s2VtcrT0szMask, s2VtcrSl0Mask, s2VtcrPsMask, s2VtcrVs16bit]

/-- The geometry the processor reads from `VTCR_EL2`: with a 4 KiB granule `SL0` counts the levels up from level 2. -/
def vtcrGeometry (vtcr : U64) : Geometry where
  ipaBits := 64 - (vtcr &&& s2VtcrT0szMask).toNat
  paBits := [32, 36, 40, 42, 44, 48].getD ((vtcr &&& s2VtcrPsMask) >>> 16).toNat 0
  startLevel := 2 - ((vtcr &&& s2VtcrSl0Mask) >>> 6).toNat
  vmidBits := if vtcr &&& s2VtcrVs16bit = 0 then 8 else 16

/-- The root table and the VMID the processor reads from `VTTBR_EL2`. -/
def vttbrRoot (vttbr : U64) : U64 := vttbr &&& s2TableAddrMask
def vttbrVmid (vttbr : U64) : BitVec 16 := ((vttbr &&& s2VttbrVmidMask16bit) >>> 48).setWidth 16

/-- A VMID fits the width of a geometry. -/
def VmidFits (g : Geometry) (vmid : BitVec 16) : Prop := vmid.toNat < 2 ^ g.vmidBits

/-- A page of a geometry's input or output space. -/
def IsPageBelow (bits : Nat) (a : U64) : Prop := a.toNat % 4096 = 0 ∧ a.toNat < 2 ^ bits

/-- What a geometry is good for once the host's limits are known. -/
structure Usable (limits : Option Geometry) (g : Geometry) (vtcr : U64) : Prop where
  encoded : relmStage2EncodeVtcr g = .ok vtcr
  decoded : vtcrGeometry vtcr = g
  walkFlags : vtcr &&& s2VtcrWalkFlags = s2VtcrWalkFlags
  disjoint : vtcrMasks.Pairwise fun a b => a &&& b = 0
  created : ∀ h vmid, VmidFits g vmid → ∀ e, (relmStage2ContextCreate limits h g vmid).1 = .error e → e = .enomem
  vttbr : ∀ root vmid, IsPageBelow g.paBits root → VmidFits g vmid →
    ∃ vttbr, relmStage2EncodeVttbr g root vmid = .ok vttbr ∧ vttbrRoot vttbr = root ∧ vttbrVmid vttbr = vmid
  injective : ∀ root vmid root' vmid', IsPageBelow g.paBits root → VmidFits g vmid → IsPageBelow g.paBits root' →
    VmidFits g vmid' → relmStage2EncodeVttbr g root vmid = relmStage2EncodeVttbr g root' vmid' → root = root' ∧ vmid = vmid'
  paths : ∀ a b, IsPageBelow g.ipaBits a → IsPageBelow g.ipaBits b → path g.startLevel 4 a = path g.startLevel 4 b → a = b

section Limits

variable {kernel : KernelConfig} {ops : RuntimeOps} {rt : S2Runtime} {requested : BitVec 32} {g limits : Geometry}

/-- The widths that the ID registers can name, after the cut at 48 bits, all have an encoding. -/
private theorem width_encodes : ∀ n < 8, (s2PaEncoding
    (if 48 < s2PaWidths.getD n 0 then 48 else s2PaWidths.getD n 0)).isSome = true := by
  decide

private theorem decodeLimits_spec (h : s2DecodeLimits kernel ops = .ok limits) :
    (s2PaEncoding limits.paBits).isSome = true ∧ (limits.vmidBits = 8 ∨ limits.vmidBits = 16) := by
  unfold s2DecodeLimits at h
  dsimp only at h
  split at h
  · cases h
  split at h
  · cases h
  split at h
  · cases h
  rename_i hfields
  split at h
  · cases h
  split at h
  · cases h
  obtain rfl := Except.ok.inj h
  simp only [Bool.or_eq_true, decide_eq_true_eq, not_or, not_le] at hfields
  refine ⟨width_encodes _ hfields.1.2, ?_⟩
  dsimp only
  split
  · exact .inr rfl
  · exact .inl rfl

/-- A registration that succeeds leaves the limits of the registered registers, ready for use. -/
private theorem register_spec {ops : Option RuntimeOps} (h : (relmStage2RegisterRuntime kernel rt ops).1 = .ok ()) :
    ∃ o, s2DecodeLimits kernel o = .ok (relmStage2RegisterRuntime kernel rt ops).2.limits ∧
      (relmStage2RegisterRuntime kernel rt ops).2.ready = true := by
  cases ops with
  | none => cases h
  | some ops =>
    rw [relmStage2RegisterRuntime] at h ⊢
    split at h
    · cases h
    · rename_i hinv
      rw [if_neg hinv]
      cases hd : s2DecodeLimits kernel ops with
      | error e =>
        rw [hd] at h
        cases h
      | ok limits =>
        rw [hd] at h
        dsimp only at h ⊢
        split at h
        · cases h
        · rename_i hready
          rw [if_neg hready]
          exact ⟨ops, hd, rfl⟩

/-- The chosen geometry has the width asked for, and the other widths of the limits. -/
private theorem choose_spec (h : relmStage2ChooseGeometry rt requested = .ok g) :
    rt.ready = true ∧ 32 ≤ g.ipaBits ∧ g.ipaBits ≤ 48 ∧ g.ipaBits ≤ rt.limits.ipaBits ∧
      g.startLevel = (if g.ipaBits ≤ 39 then 1 else 0) ∧ g.paBits = rt.limits.paBits ∧ g.vmidBits = rt.limits.vmidBits := by
  unfold relmStage2ChooseGeometry at h
  dsimp only at h
  split at h
  · cases h
  rename_i hrange
  split at h
  · cases h
  rename_i hlimits
  obtain rfl := Except.ok.inj h
  simp only [Bool.or_eq_true, decide_eq_true_eq, not_or, Nat.not_lt] at hrange
  simp only [Bool.or_eq_true, Bool.not_eq_true', decide_eq_true_eq, not_or, Nat.not_lt, Bool.not_eq_false] at hlimits
  rw [s2MinIpaBits, s2MaxIpaBits] at hrange
  have hbyte : (requested.setWidth 8).toNat = requested.toNat := by
    rw [BitVec.toNat_setWidth, Nat.mod_eq_of_lt (by omega)]
  rw [hbyte]
  exact ⟨hlimits.1, hrange.1, hrange.2, hlimits.2, rfl, rfl, rfl⟩

/-- The geometry is valid, and within the limits that were registered. -/
private theorem chosen {ops : Option RuntimeOps} (hr : (relmStage2RegisterRuntime kernel rt ops).1 = .ok ())
    (hc : relmStage2ChooseGeometry (relmStage2RegisterRuntime kernel rt ops).2 requested = .ok g) :
    s2GeometryValid g = true ∧ ∃ limits, (relmStage2RegisterRuntime kernel rt ops).2.readyLimits = some limits ∧
      g.ipaBits ≤ limits.ipaBits ∧ g.paBits ≤ limits.paBits ∧ g.vmidBits ≤ limits.vmidBits := by
  obtain ⟨o, hd, hready⟩ := register_spec hr
  obtain ⟨hpa, hvmid⟩ := decodeLimits_spec hd
  obtain ⟨-, hlo, hhi, hipa, hstart, hgpa, hgvmid⟩ := choose_spec hc
  constructor
  · rw [← hgpa] at hpa
    rw [← hgvmid] at hvmid
    simp only [s2GeometryValid, Bool.and_eq_true, Bool.or_eq_true, decide_eq_true_eq, beq_iff_eq]
    exact ⟨⟨⟨⟨hlo, hhi⟩, hpa⟩, hstart⟩, hvmid⟩
  · refine ⟨_, if_pos hready, hipa, hgpa.le, hgvmid.le⟩

end Limits

section Vtcr

variable {g : Geometry}

private theorem paEncoding_spec {bits n : Nat} (h : s2PaEncoding bits = some n) :
    n < 6 ∧ [32, 36, 40, 42, 44, 48].getD n 0 = bits := by
  unfold s2PaEncoding at h
  split at h <;> cases h <;> exact ⟨by decide, rfl⟩

private theorem paEncoding_lt (bits : Nat) : (s2PaEncoding bits).getD 0 < 6 := by
  cases h : s2PaEncoding bits with
  | none => decide
  | some n => exact (paEncoding_spec h).1

private def walkField : Field 64 := ⟨s2VtcrWalkFlags, s2VtcrWalkFlags, BitVec.and_self⟩

private def t0szField (hg : s2GeometryValid g = true) : Field 64 where
  value := BitVec.ofNat 64 (64 - g.ipaBits)
  mask := s2VtcrT0szMask
  within := by
    apply within_low (n := 6) _ rfl
    obtain ⟨hlo, -⟩ := geometry_bounds hg
    rw [BitVec.toNat_ofNat]
    omega

private def sl0Field (g : Geometry) : Field 64 where
  value := if g.startLevel != 0 then 0x1#64 <<< 6 else 0x2#64 <<< 6
  mask := s2VtcrSl0Mask
  within := by
    split <;> exact (within_low (n := 2) (by decide) rfl).shiftLeft 6

private def psField (g : Geometry) : Field 64 where
  value := BitVec.ofNat 64 ((s2PaEncoding g.paBits).getD 0) <<< 16
  mask := s2VtcrPsMask
  within := by
    have henc := paEncoding_lt g.paBits
    apply Within.shiftLeft
    apply within_low (n := 3) _ rfl
    rw [BitVec.toNat_ofNat]
    omega

private def vsField (g : Geometry) : Field 64 where
  value := if g.vmidBits == 16 then s2VtcrVs16bit else 0#64
  mask := s2VtcrVs16bit
  within := by
    split
    · exact BitVec.and_self
    · exact within_zero _

private def vtcrFields (hg : s2GeometryValid g = true) : List (Field 64) :=
  [walkField, t0szField hg, sl0Field g, psField g, vsField g]

private theorem vtcrMasks_disjoint : vtcrMasks.Pairwise fun a b => a &&& b = 0 := by
  decide

private theorem vtcrFields_apart (hg : s2GeometryValid g = true) : Apart (vtcrFields hg) := by
  have h : ((vtcrFields hg).map Field.mask).Pairwise fun a b => a &&& b = 0 := vtcrMasks_disjoint
  exact List.pairwise_map.mp h

/-- The register is put together from its fields. -/
private theorem encodeVtcr_eq (hg : s2GeometryValid g = true) :
    relmStage2EncodeVtcr g = .ok (assemble (vtcrFields hg)) := by
  have hvs : ∀ v : U64, (if g.vmidBits == 16 then v ||| 0x1#64 <<< 19 else v) = v ||| (vsField g).value := by
    intro v
    rw [vsField]
    split
    · rfl
    · exact BitVec.or_zero.symm
  rw [relmStage2EncodeVtcr, hg]
  dsimp only [Bool.not_true]
  rw [hvs]
  simp only [BitVec.or_assoc, assemble, vtcrFields, List.foldr_cons, List.foldr_nil, BitVec.or_zero]
  rfl

/-- Each mask reads its own field. -/
private theorem vtcr_reads (hg : s2GeometryValid g = true) : vtcrGeometry (assemble (vtcrFields hg)) = g := by
  have hread : ∀ f ∈ vtcrFields hg, assemble (vtcrFields hg) &&& f.mask = f.value :=
    fun f hf => assemble_and_mask (vtcrFields_apart hg) hf
  generalize assemble (vtcrFields hg) = vtcr at hread
  obtain ⟨hlo, hhi, -⟩ := geometry_bounds hg
  have hipa : 64 - (vtcr &&& s2VtcrT0szMask).toNat = g.ipaBits := by
    have ht0sz : vtcr &&& s2VtcrT0szMask = BitVec.ofNat 64 (64 - g.ipaBits) := hread (t0szField hg) (by simp [vtcrFields])
    rw [ht0sz, BitVec.toNat_ofNat]
    omega
  have hsl0 : vtcr &&& s2VtcrSl0Mask = if g.startLevel != 0 then 0x1#64 <<< 6 else 0x2#64 <<< 6 :=
    hread (sl0Field g) (by simp [vtcrFields])
  have hps : vtcr &&& s2VtcrPsMask = BitVec.ofNat 64 ((s2PaEncoding g.paBits).getD 0) <<< 16 :=
    hread (psField g) (by simp [vtcrFields])
  have hvs : vtcr &&& s2VtcrVs16bit = if g.vmidBits == 16 then s2VtcrVs16bit else 0#64 :=
    hread (vsField g) (by simp [vtcrFields])
  simp only [s2GeometryValid, Bool.and_eq_true, Bool.or_eq_true, decide_eq_true_eq, beq_iff_eq] at hg
  obtain ⟨⟨⟨-, henc⟩, hstart⟩, hvmid⟩ := hg
  have hlevel : 2 - ((vtcr &&& s2VtcrSl0Mask) >>> 6).toNat = g.startLevel := by
    rw [hsl0, hstart]
    by_cases h39 : g.ipaBits ≤ 39
    · rw [if_pos h39]
      rfl
    · rw [if_neg h39]
      rfl
  have hpa : [32, 36, 40, 42, 44, 48].getD ((vtcr &&& s2VtcrPsMask) >>> 16).toNat 0 = g.paBits := by
    obtain ⟨n, hn⟩ := Option.isSome_iff_exists.mp henc
    obtain ⟨hlt, hbits⟩ := paEncoding_spec hn
    have hval : ((vtcr &&& s2VtcrPsMask) >>> 16).toNat = n := by
      rw [hps, hn, Option.getD_some, BitVec.toNat_ushiftRight, BitVec.toNat_shiftLeft, BitVec.toNat_ofNat,
        Nat.shiftLeft_eq, Nat.shiftRight_eq_div_pow]
      omega
    rw [hval, hbits]
  have hwidth : (if vtcr &&& s2VtcrVs16bit = 0 then 8 else 16) = g.vmidBits := by
    rcases hvmid with h | h
    · rw [hvs, h]
      rfl
    · rw [hvs, h]
      rfl
  rw [vtcrGeometry, hipa, hpa, hlevel, hwidth]

private theorem vtcr_walkFlags (hg : s2GeometryValid g = true) :
    assemble (vtcrFields hg) &&& s2VtcrWalkFlags = s2VtcrWalkFlags :=
  assemble_and_mask (vtcrFields_apart hg) List.mem_cons_self

end Vtcr

section Geometry

variable {g : Geometry}

/-- An output space has at least one page. -/
private theorem paBits_ge (hg : s2GeometryValid g = true) : 12 ≤ g.paBits := by
  simp only [s2GeometryValid, Bool.and_eq_true] at hg
  obtain ⟨n, hn⟩ := Option.isSome_iff_exists.mp hg.1.1.2
  obtain ⟨hlt, hbits⟩ := paEncoding_spec hn
  have hwidth : ∀ n < 6, 12 ≤ [32, 36, 40, 42, 44, 48].getD n 0 := by decide
  rw [← hbits]
  exact hwidth n hlt

/-- A VMID that fits passes the check that both functions make. -/
private theorem vmid_accepted {vmid : BitVec 16} (hv : VmidFits g vmid) :
    (g.vmidBits == 8 && decide (255 < vmid.toNat)) = false := by
  rw [Bool.and_eq_false_iff, decide_eq_false_iff_not, Nat.not_lt]
  by_cases h8 : g.vmidBits = 8
  · right
    rw [VmidFits, h8] at hv
    exact Nat.le_of_lt_succ hv
  · exact .inl (beq_eq_false_iff_ne.mpr h8)

/-- Within the limits a context is refused for want of memory only. -/
private theorem contextCreate_refused (hg : s2GeometryValid g = true) {limits : Geometry} (hipa : g.ipaBits ≤ limits.ipaBits)
    (hpa : g.paBits ≤ limits.paBits) (hbits : g.vmidBits ≤ limits.vmidBits) (h : Host) {vmid : BitVec 16}
    (hv : VmidFits g vmid) {e : Errno} (he : (relmStage2ContextCreate (some limits) h g vmid).1 = .error e) : e = .enomem := by
  have hlimits : (decide (limits.ipaBits < g.ipaBits) || decide (limits.paBits < g.paBits) ||
      decide (limits.vmidBits < g.vmidBits)) = false := by
    simp only [Bool.or_eq_false_iff, decide_eq_false_iff_not, Nat.not_lt]
    exact ⟨⟨hipa, hpa⟩, hbits⟩
  rw [relmStage2ContextCreate, encodeVtcr_eq hg] at he
  simp only [vmid_accepted hv, hlimits, Bool.false_eq_true, if_false] at he
  generalize h.kzalloc = r at he
  obtain ⟨obj, h⟩ := r
  cases obj with
  | none => exact (Except.error.inj he).symm
  | some obj =>
    dsimp only at he
    generalize h.getFreePage = r at he
    obtain ⟨root, h⟩ := r
    cases root with
    | none => exact (Except.error.inj he).symm
    | some root => cases he

private def rootField (root : U64) (h : Nameable root) : Field 64 := ⟨root, s2TableAddrMask, (nameable_iff_mask root).mp h⟩

private def vmidField (vmid : BitVec 16) : Field 64 where
  value := vmid.setWidth 64 <<< 48
  mask := s2VttbrVmidMask16bit
  within := by
    apply Within.shiftLeft
    apply within_low (n := 16) _ rfl
    rw [BitVec.toNat_setWidth]
    exact lt_of_le_of_lt (Nat.mod_le _ _) vmid.isLt

/-- The register of a root table that fits and a VMID that fits gives both back. -/
private theorem encodeVttbr_spec (hg : s2GeometryValid g = true) {root : U64} {vmid : BitVec 16}
    (hr : IsPageBelow g.paBits root) (hv : VmidFits g vmid) :
    ∃ vttbr, relmStage2EncodeVttbr g root vmid = .ok vttbr ∧ vttbrRoot vttbr = root ∧ vttbrVmid vttbr = vmid := by
  obtain ⟨haligned, hlt⟩ := hr
  obtain ⟨-, -, hpa, -⟩ := geometry_bounds hg
  have hname : Nameable root := ⟨haligned, lt_of_lt_of_le hlt (Nat.pow_le_pow_right (by decide) hpa)⟩
  have hfits : s2RangeFits root s2PageSize4kb g.paBits = true := by
    have hpage : 2 ^ g.paBits = 4096 * 2 ^ (g.paBits - 12) := by
      rw [show (4096 : Nat) = 2 ^ 12 from rfl, ← Nat.pow_add, Nat.add_sub_cancel' (paBits_ge hg)]
    have hsize : s2PageSize4kb.toNat = 4096 := rfl
    apply (rangeFits_iff hpa).mpr
    rw [hsize]
    exact ⟨by decide, by omega, hlt⟩
  have hread : ∀ f ∈ [rootField root hname, vmidField vmid],
      assemble [rootField root hname, vmidField vmid] &&& f.mask = f.value := by
    intro f hf
    have hdisjoint : s2TableAddrMask &&& s2VttbrVmidMask16bit = 0#64 := by decide
    exact assemble_and_mask (List.pairwise_pair.mpr hdisjoint) hf
  refine ⟨assemble [rootField root hname, vmidField vmid], ?_, ?_, ?_⟩
  · rw [relmStage2EncodeVttbr, hg, (pageAligned_iff root).mpr haligned, hfits, vmid_accepted hv]
    exact congrArg (fun v => Except.ok (root ||| v)) BitVec.or_zero.symm
  · exact hread _ List.mem_cons_self
  · have hvmid : assemble [rootField root hname, vmidField vmid] &&& s2VttbrVmidMask16bit = vmid.setWidth 64 <<< 48 :=
      hread (vmidField vmid) (by simp)
    have hlt := vmid.isLt
    apply BitVec.eq_of_toNat_eq
    rw [vttbrVmid, hvmid, BitVec.toNat_setWidth, BitVec.toNat_ushiftRight, BitVec.toNat_shiftLeft, BitVec.toNat_setWidth,
      Nat.shiftLeft_eq, Nat.shiftRight_eq_div_pow]
    omega

/-- The slots from the start level down to level 3 tell the pages of a geometry apart. -/
private theorem path_injective (hg : s2GeometryValid g = true) {a b : U64} (ha : IsPageBelow g.ipaBits a)
    (hb : IsPageBelow g.ipaBits b) (h : path g.startLevel 4 a = path g.startLevel 4 b) : a = b := by
  obtain ⟨-, -, -, hstart, -⟩ := geometry_bounds hg
  have hslots := (path_succ_eq_iff (show g.startLevel ≤ 3 by omega) a b).mp h
  have hkey := (pageKey_eq_iff hstart a b).mp hslots
  rw [pageKey, pageKey, walked_of_lt hg ha.2, walked_of_lt hg hb.2] at hkey
  apply BitVec.eq_of_toNat_eq
  rw [← Nat.div_add_mod a.toNat 4096, ← Nat.div_add_mod b.toNat 4096, ha.1, hb.1, hkey]

end Geometry

/-- A geometry chosen after a registration is one that every later step takes, and that the translation registers give
back. -/
theorem stage2_geometry_usable {kernel : KernelConfig} {rt : S2Runtime} {ops : Option RuntimeOps}
    {requested : BitVec 32} {g : Geometry} (hr : (relmStage2RegisterRuntime kernel rt ops).1 = .ok ())
    (hc : relmStage2ChooseGeometry (relmStage2RegisterRuntime kernel rt ops).2 requested = .ok g) :
    ∃ vtcr, Usable (relmStage2RegisterRuntime kernel rt ops).2.readyLimits g vtcr := by
  obtain ⟨hg, limits, hlimits, hipa, hpa, hbits⟩ := chosen hr hc
  refine ⟨assemble (vtcrFields hg), encodeVtcr_eq hg, vtcr_reads hg, vtcr_walkFlags hg, vtcrMasks_disjoint, ?_, ?_, ?_, ?_⟩
  · intro h vmid hv e he
    rw [hlimits] at he
    exact contextCreate_refused hg hipa hpa hbits h hv he
  · intro root vmid hroot hv
    exact encodeVttbr_spec hg hroot hv
  · intro root vmid root' vmid' hroot hv hroot' hv' heq
    obtain ⟨vttbr, henc, hdr, hdv⟩ := encodeVttbr_spec hg hroot hv
    obtain ⟨vttbr', henc', hdr', hdv'⟩ := encodeVttbr_spec hg hroot' hv'
    rw [henc, henc'] at heq
    obtain rfl := Except.ok.inj heq
    exact ⟨hdr.symm.trans hdr', hdv.symm.trans hdv'⟩
  · intro a b ha hb h
    exact path_injective hg ha hb h

/-- A host with 48 address bits and 16-bit VMIDs. -/
private def wideHost : RuntimeOps where
  hostPfr0El1 := 0x100#64
  hostMmfr0El1 := 0x5#64
  hostMmfr1El1 := 0x20#64
  invalidate := some fun _ _ => .ok ()

theorem stage2_geometry_usable_default : ∃ vtcr,
    Usable (relmStage2RegisterRuntime ⟨12, false⟩ ⟨wideHost, ⟨0, 0, 0, 0⟩, false⟩ (some wideHost)).2.readyLimits
      ⟨39, 48, 1, 16⟩ vtcr := by
  have hc : relmStage2ChooseGeometry
      (relmStage2RegisterRuntime ⟨12, false⟩ ⟨wideHost, ⟨0, 0, 0, 0⟩, false⟩ (some wideHost)).2 39#32 =
        .ok ⟨39, 48, 1, 16⟩ := rfl
  exact stage2_geometry_usable rfl hc

end Relm.Arm64
