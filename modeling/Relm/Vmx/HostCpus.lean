import Relm.Host.Ledger
import Relm.Lib.Each
import Relm.Lib.Run

/-! VMX operation on the host's CPUs: what the module sets up on each of them when it is loaded, and what it undoes. -/
namespace Relm.Vmx.HostCpus
open Relm.Lib.Each

/-- `IA32_FEATURE_CONTROL_LOCKED`. -/
def featureControlLocked : U64 := 1#64

/-- `IA32_FEATURE_CONTROL_MSR_VMXON_ENABLE_OUTSIDE_SMX`. -/
def featureControlVmxon : U64 := 4#64

/-- `struct host_cpu`, with the slab object it is. -/
structure HostCpu where
  obj : Nat
  logicalCpuId : Nat
  vmxonPa : U64
  deriving DecidableEq

/-- What one CPU has to do with VMX operation, and its `relm_per_cpu_hcpu`. -/
structure Cpu where
  /-- CPUID reports VMX. -/
  supported : Bool
  /-- `CR4.VMXE`. -/
  vmxe : Bool
  /-- CR0 and CR4 have the bits that VMX operation fixes. -/
  fixedBits : Bool
  /-- `IA32_FEATURE_CONTROL`. -/
  featureControl : U64
  /-- The bits of `IA32_FEATURE_CONTROL` that a write changes. -/
  featureWritable : U64
  /-- The revision in `IA32_VMX_BASIC`. -/
  revision : BitVec 31
  /-- The VMXON region of the VMX operation that the CPU is in. -/
  vmxRegion : Option U64
  hcpu : Option HostCpu

namespace Cpu

/-- `VMXON` of a region with this first word: whether it succeeds, or `none` for `#UD` and `#GP`. -/
def vmxon (c : Cpu) (word pa : U64) : Option (Bool × Cpu) :=
  if !c.vmxe then none
  else if c.vmxRegion.isSome then some (false, c)
  else if !(c.fixedBits && c.featureControl &&& 5#64 == 5#64) then none
  else if pa.toNat % 4096 ≠ 0 ∨ word.setWidth 32 ≠ c.revision.setWidth 32 then some (false, c)
  else some (true, { c with vmxRegion := some pa })

/-- `VMXOFF`, or `none` for `#UD`. -/
def vmxoff (c : Cpu) : Option Cpu := if c.vmxRegion.isSome then some { c with vmxRegion := none } else none

/-- `WRMSR` to `IA32_FEATURE_CONTROL`. -/
def writeFeatureControl (c : Cpu) (v : U64) : Cpu :=
  { c with featureControl := (c.featureControl &&& ~~~c.featureWritable) ||| (v &&& c.featureWritable) }

end Cpu

/-- `relm_enable_vmx_operation`; setting `CR4.VMXE` raises `#GP` on a CPU without VMX. -/
def relmEnableVmxOperation (c : Cpu) : Option Cpu := if c.vmxe || c.supported then some { c with vmxe := true } else none

def relmSetupFeatureControl (c : Cpu) : Bool × Cpu :=
  let required := featureControlLocked ||| featureControlVmxon
  if c.featureControl &&& featureControlLocked != 0#64 then (c.featureControl &&& featureControlVmxon != 0#64, c)
  else
    let c := c.writeFeatureControl (c.featureControl ||| required)
    (c.featureControl &&& required == required, c)

/-- The message of a failed `VMXON` reads a VMCS field, which is `#UD` outside VMX operation. -/
def relmVmxon (h : Host) (hcpu : HostCpu) (c : Cpu) : Option (Except Errno Unit × Cpu) :=
  if hcpu.vmxonPa = 0#64 then some (.error .einval, c)
  else
    match c.vmxon (h.mem hcpu.vmxonPa Host.firstWord) hcpu.vmxonPa with
    | none => none
    | some (true, c) => some (.ok (), c)
    | some (false, c) => if c.vmxRegion.isSome then some (.error .eio, c) else none

/-- `relm_vmx_enable_cpu`: whether it counts the CPU as failed. -/
def relmVmxEnableCpu (h : Host) (c : Cpu) : Option (Bool × Cpu) :=
  match c.hcpu with
  | none => some (true, c)
  | some hcpu =>
    match relmEnableVmxOperation c with
    | none => none
    | some c =>
      let fc := relmSetupFeatureControl c
      if !fc.1 then some (true, fc.2) else (relmVmxon h hcpu fc.2).map fun r => (!r.1.toBool, r.2)

def relmVmxDisableCpu (c : Cpu) : Option (Unit × Cpu) :=
  match c.hcpu with
  | none => some ((), c)
  | some _ => c.vmxoff.map fun c => ((), { c with vmxe := false })

/-- The host's memory and its CPUs. -/
structure Machine where
  host : Host
  cpus : Nat → Cpu

/-- `relm_setup_vmxon_region`: a zeroed page with the revision in its first four bytes. -/
def relmSetupVmxonRegion (revision : BitVec 31) (h : Host) : Option U64 × Host :=
  match h.getFreePage with
  | (none, h) => (none, h)
  | (some pa, h) =>
    (some pa, h.writeWord pa Host.firstWord ((h.mem pa Host.firstWord &&& ~~~0xFFFFFFFF#64) ||| revision.setWidth 64))

/-- The first loop of `relm_vmx_enable_on_all_cpus`; `false` when an allocation fails. -/
def setupHostCpus (revision : BitVec 31) : List Nat → Machine → Bool × Machine
  | [], m => (true, m)
  | cpu :: online, m =>
    match m.host.kzalloc with
    | (none, h) => (false, { m with host := h })
    | (some obj, h) =>
      match relmSetupVmxonRegion revision h with
      | (none, h) => (false, { m with host := h.kfree obj })
      | (some pa, h) =>
        setupHostCpus revision online
          ⟨h, Function.update m.cpus cpu { m.cpus cpu with hcpu := some ⟨obj, cpu, pa⟩ }⟩

/-- The loop of `relm_vmx_disable_on_all_cpus`. -/
def freeHostCpus : List Nat → Machine → Machine
  | [], m => m
  | cpu :: online, m =>
    match (m.cpus cpu).hcpu with
    | none => freeHostCpus online m
    | some hcpu =>
      freeHostCpus online
        ⟨(m.host.freePage hcpu.vmxonPa).kfree hcpu.obj, Function.update m.cpus cpu { m.cpus cpu with hcpu := none }⟩

/-- The order is that in which the CPUs take the interrupt. -/
def relmVmxDisableOnAllCpus (online order : List Nat) (m : Machine) : Option Machine :=
  (each (fun _ => relmVmxDisableCpu) order m.cpus).map fun r => freeHostCpus online { m with cpus := r.2 }

/-- Called on one of the CPUs, whose revision goes into every region. The two orders are those of the two rounds of
interrupts. -/
def relmVmxEnableOnAllCpus (self : Nat) (online order order' : List Nat) (m : Machine) :
    Option (Except Errno Unit × Machine) :=
  let setup := setupHostCpus (m.cpus self).revision online m
  if setup.1 then
    (each (fun _ => relmVmxEnableCpu setup.2.host) order setup.2.cpus).bind fun r =>
      let m := { setup.2 with cpus := r.2 }
      if 0 < r.1.count true then (relmVmxDisableOnAllCpus online order' m).map fun m => (.error .eio, m)
      else some (.ok (), m)
  else (relmVmxDisableOnAllCpus online order' setup.2).map fun m => (.error .enomem, m)

/-- The VMXON regions that the given CPUs own. -/
def regions (m : Machine) (cpus : List Nat) : List U64 := cpus.filterMap fun i => (m.cpus i).hcpu.map HostCpu.vmxonPa

/-- The `struct host_cpu` that the given CPUs own. -/
def objects (m : Machine) (cpus : List Nat) : List Nat := cpus.filterMap fun i => (m.cpus i).hcpu.map HostCpu.obj

section Setup

variable {m m' m0 : Machine} {cpus online order order' : List Nat} {revision : BitVec 31}

private theorem regions_append (m : Machine) (a b : List Nat) : regions m (a ++ b) = regions m a ++ regions m b :=
  List.filterMap_append

private theorem objects_append (m : Machine) (a b : List Nat) : objects m (a ++ b) = objects m a ++ objects m b :=
  List.filterMap_append

private theorem regions_congr (h : ∀ i ∈ cpus, (m'.cpus i).hcpu = (m.cpus i).hcpu) : regions m' cpus = regions m cpus := by
  apply List.filterMap_congr
  intro i hi
  rw [h i hi]

private theorem objects_congr (h : ∀ i ∈ cpus, (m'.cpus i).hcpu = (m.cpus i).hcpu) : objects m' cpus = objects m cpus := by
  apply List.filterMap_congr
  intro i hi
  rw [h i hi]

/-- The loop has dealt with the given CPUs: each has its own `struct host_cpu` and a region made for it. -/
structure SetUp (revision : BitVec 31) (m0 m : Machine) (done : List Nat) : Prop where
  own : ∀ i ∈ done, ∃ hcpu, m.cpus i = { m0.cpus i with hcpu := some hcpu } ∧ hcpu.logicalCpuId = i ∧
    hcpu.vmxonPa.toNat % 4096 = 0 ∧ m.host.mem hcpu.vmxonPa Host.firstWord = revision.setWidth 64
  others : ∀ i, i ∉ done → m.cpus i = m0.cpus i
  holds : Host.Holds m0.host m.host (regions m done) (objects m done)
  nodup : (regions m done).Nodup

private theorem SetUp.start (revision : BitVec 31) (m : Machine) : SetUp revision m m [] where
  own _ hi := absurd hi List.not_mem_nil
  others _ _ := rfl
  holds := .start _
  nodup := List.nodup_nil

private theorem SetUp.host {done : List Nat} (s : SetUp revision m0 m done) {h : Host} (hmem : h.mem = m.host.mem)
    (holds : Host.Holds m0.host h (regions m done) (objects m done)) : SetUp revision m0 { m with host := h } done where
  own i hi := by
    obtain ⟨hcpu, hc, hid, hal, hw⟩ := s.own i hi
    exact ⟨hcpu, hc, hid, hal, by rw [← hw, ← hmem]⟩
  others := s.others
  holds := holds
  nodup := s.nodup

/-- One more CPU, with a page that was free. -/
private theorem SetUp.next {done : List Nat} {i : Nat} {pa : U64} (s : SetUp revision m0 m done) (hi : i ∉ done)
    (hav : m.host.slabTake.available pa) :
    SetUp revision m0
      ⟨(m.host.slabTake.take pa).writeWord pa Host.firstWord
          (((m.host.slabTake.take pa).mem pa Host.firstWord &&& ~~~0xFFFFFFFF#64) ||| revision.setWidth 64),
        Function.update m.cpus i { m.cpus i with hcpu := some ⟨m.host.slabNext, i, pa⟩ }⟩ (done ++ [i]) := by
  set m' : Machine := ⟨_, _⟩ with hm'
  have hself : (m'.cpus i) = { m.cpus i with hcpu := some ⟨m.host.slabNext, i, pa⟩ } := Function.update_self ..
  have hother : ∀ j, j ≠ i → m'.cpus j = m.cpus j := fun j hj => Function.update_of_ne hj ..
  have hdone : ∀ j ∈ done, m'.cpus j = m.cpus j := by
    intro j hj
    refine hother j ?_
    rintro rfl
    exact hi hj
  have hregions : regions m' (done ++ [i]) = regions m done ++ [pa] := by
    rw [regions_append, regions_congr fun j hj => congrArg Cpu.hcpu (hdone j hj)]
    simp [regions, hself]
  have hobjects : objects m' (done ++ [i]) = objects m done ++ [m.host.slabNext] := by
    rw [objects_append, objects_congr fun j hj => congrArg Cpu.hcpu (hdone j hj)]
    simp [objects, hself]
  have hnew : pa ∉ regions m done := fun hc => hav.2.2 (s.holds.mem_live hc)
  refine ⟨?_, ?_, ?_, ?_⟩
  · intro j hj
    rcases List.mem_append.mp hj with hj | hj
    · obtain ⟨hcpu, hc, hid, hal, hw⟩ := s.own j hj
      have hne : hcpu.vmxonPa ≠ pa := by
        rintro rfl
        exact hnew (List.mem_filterMap.mpr ⟨j, hj, by rw [hc]; rfl⟩)
      refine ⟨hcpu, (hdone j hj).trans hc, hid, hal, ?_⟩
      rw [← hw, hm', Host.writeWord_mem, Lib.TableTree.setSlot_other _ _ (.inl hne), Host.take_mem,
        Lib.TableTree.fill_other _ _ _ hne]
      rfl
    · obtain rfl := List.mem_singleton.mp hj
      refine ⟨⟨m.host.slabNext, j, pa⟩, ?_, rfl, hav.1.1, ?_⟩
      · rw [hself, s.others j hi]
      · rw [hm', Host.writeWord_mem, Lib.TableTree.setSlot_same, Host.take_mem, Lib.TableTree.fill_same]
        simp
  · intro j hj
    rw [List.mem_append, List.mem_singleton, not_or] at hj
    rw [hother j hj.2, s.others j hj.1]
  · rw [hregions, hobjects]
    have hholds := (s.holds.slabTake.allocated (.took hav)).perm List.perm_append_comm
    exact (hholds.permObjs (List.perm_append_singleton _ _).symm).congr rfl rfl rfl
  · rw [hregions]
    exact List.nodup_append.mpr ⟨s.nodup, List.nodup_singleton pa, by
      intro f hf g hg
      obtain rfl := List.mem_singleton.mp hg
      rintro rfl
      exact hnew hf⟩

/-- The loop deals with every CPU, or stops at the first one that it has no memory for and keeps nothing of that one. -/
private theorem setupHostCpus_from {done : List Nat} (s : SetUp revision m0 m done) (hn : (done ++ online).Nodup) :
    ((setupHostCpus revision online m).1 = true ∧ SetUp revision m0 (setupHostCpus revision online m).2 (done ++ online)) ∨
    ((setupHostCpus revision online m).1 = false ∧ ∃ before i after, online = before ++ i :: after ∧
      SetUp revision m0 (setupHostCpus revision online m).2 (done ++ before)) := by
  induction online generalizing m done with
  | nil =>
    rw [List.append_nil]
    exact .inl ⟨rfl, s⟩
  | cons i online ih =>
    have hi : i ∉ done := fun hc => (List.nodup_append.mp hn).2.2 i hc i List.mem_cons_self rfl
    rw [setupHostCpus]
    rcases m.host.kzalloc_cases with hz | hz
    · simp only [hz]
      refine .inr ⟨trivial, [], i, online, rfl, ?_⟩
      rw [List.append_nil]
      exact s.host rfl (s.holds.congr rfl rfl rfl)
    · simp only [hz, relmSetupVmxonRegion]
      rcases m.host.slabTake.getFreePage_cases with hp | ⟨pa, hav, hp⟩
      · simp only [hp]
        refine .inr ⟨trivial, [], i, online, rfl, ?_⟩
        rw [List.append_nil]
        refine s.host (Host.kfree_mem _ _) ?_
        exact (s.holds.slabTake.allocated (.refused _)).kfree
      · simp only [hp]
        have hnext := s.next hi hav
        have hstep := ih hnext (by rwa [List.append_assoc])
        simp only [List.append_assoc, List.singleton_append] at hstep
        rcases hstep with hok | ⟨hfail, before, j, after, heq, hs⟩
        · exact .inl hok
        · refine .inr ⟨hfail, i :: before, j, after, ?_, hs⟩
          rw [heq, List.cons_append]

/-- How the setting up ends. -/
theorem setupHostCpus_cases (revision : BitVec 31) (m : Machine) (hn : online.Nodup) :
    ((setupHostCpus revision online m).1 = true ∧ SetUp revision m (setupHostCpus revision online m).2 online) ∨
    ((setupHostCpus revision online m).1 = false ∧ ∃ before i after, online = before ++ i :: after ∧
      SetUp revision m (setupHostCpus revision online m).2 before) := by
  have h : ([] ++ online).Nodup := hn
  simpa only [List.nil_append] using setupHostCpus_from (.start revision m) h

/-- The freeing loop gives back exactly what the CPUs own. -/
theorem freeHostCpus_spec {h0 : Host} {pages : List U64} {objs : List Nat} (hn : cpus.Nodup)
    (k : Host.Holds h0 m.host (regions m cpus ++ pages) (objects m cpus ++ objs)) :
    Host.Holds h0 (freeHostCpus cpus m).host pages objs ∧
      (∀ i ∈ cpus, (freeHostCpus cpus m).cpus i = { m.cpus i with hcpu := none }) ∧
      ∀ i, i ∉ cpus → (freeHostCpus cpus m).cpus i = m.cpus i := by
  induction cpus generalizing m with
  | nil => exact ⟨k, fun i hi => absurd hi List.not_mem_nil, fun _ _ => rfl⟩
  | cons i cpus ih =>
    obtain ⟨hi, hn⟩ := List.nodup_cons.mp hn
    rw [freeHostCpus]
    cases hc : (m.cpus i).hcpu with
    | none =>
      obtain ⟨hk, hin, hout⟩ := ih hn (by simpa [regions, objects, hc] using k)
      refine ⟨hk, fun j hj => ?_, fun j hj => hout j fun h => hj (List.mem_cons_of_mem i h)⟩
      rcases List.mem_cons.mp hj with rfl | hj
      · rw [hout j hi, ← hc]
      · exact hin j hj
    | some hcpu =>
      have hk' : Host.Holds h0 m.host (hcpu.vmxonPa :: (regions m cpus ++ pages)) (hcpu.obj :: (objects m cpus ++ objs)) := by
        simpa [regions, objects, hc] using k
      set t : Machine := ⟨(m.host.freePage hcpu.vmxonPa).kfree hcpu.obj,
        Function.update m.cpus i { m.cpus i with hcpu := none }⟩ with ht
      have hrest : ∀ j, j ≠ i → t.cpus j = m.cpus j := fun j hj => Function.update_of_ne hj ..
      have hmem : ∀ j ∈ cpus, t.cpus j = m.cpus j := by
        intro j hj
        refine hrest j ?_
        rintro rfl
        exact hi hj
      obtain ⟨hk, hin, hout⟩ := ih (m := t) hn (by
        rw [regions_congr fun j hj => congrArg Cpu.hcpu (hmem j hj), objects_congr fun j hj => congrArg Cpu.hcpu (hmem j hj)]
        exact hk'.freePage.kfree)
      refine ⟨hk, fun j hj => ?_, fun j hj => ?_⟩
      · rcases List.mem_cons.mp hj with rfl | hj
        · rw [hout j hi, ht]
          exact Function.update_self ..
        · rw [hin j hj, hmem j hj]
      · obtain ⟨hji, hj⟩ := not_or.mp fun h => hj (List.mem_cons.mpr h)
        rw [hout j hj, hrest j hji]

/-- A CPU after `relm_vmx_disable_on_all_cpus`. -/
def Cpu.left (c : Cpu) : Cpu := if c.hcpu.isSome then { c with vmxRegion := none, vmxe := false, hcpu := none } else c

private theorem disableCpu_eq (c : Cpu) : relmVmxDisableCpu c =
    if c.hcpu.isSome ∧ c.vmxRegion = none then none
    else some ((), if c.hcpu.isSome then { c with vmxRegion := none, vmxe := false } else c) := by
  rw [relmVmxDisableCpu]
  cases hc : c.hcpu with
  | none => simp
  | some hcpu => cases hr : c.vmxRegion <;> simp [Cpu.vmxoff, hr, hc]

/-- Disabling faults exactly when some online CPU has a `struct host_cpu` but is not in VMX operation. -/
theorem disableOnAllCpus_eq_none_iff (hn : online.Nodup) (ho : order.Perm online) :
    relmVmxDisableOnAllCpus online order m = none ↔
      ∃ i ∈ online, (m.cpus i).hcpu.isSome ∧ (m.cpus i).vmxRegion = none := by
  rw [relmVmxDisableOnAllCpus, Option.map_eq_none_iff, each_eq_none_iff (ho.nodup_iff.mpr hn)]
  have hstep : ∀ i, relmVmxDisableCpu (m.cpus i) = none ↔ (m.cpus i).hcpu.isSome ∧ (m.cpus i).vmxRegion = none := by
    intro i
    rw [disableCpu_eq]
    split <;> simp_all
  simp only [hstep, ho.mem_iff]

/-- When it does not fault, it takes every online CPU out of VMX operation and frees exactly what these CPUs own. -/
theorem disableOnAllCpus_spec (h0 : Host) (pages : List U64) (objs : List Nat) (hn : online.Nodup) (ho : order.Perm online)
    (k : Host.Holds h0 m.host (regions m online ++ pages) (objects m online ++ objs))
    (hd : relmVmxDisableOnAllCpus online order m = some m') :
    Host.Holds h0 m'.host pages objs ∧ (∀ i ∈ online, m'.cpus i = (m.cpus i).left) ∧ ∀ i, i ∉ online → m'.cpus i = m.cpus i := by
  obtain ⟨r, hr, rfl⟩ := Option.map_eq_some_iff.mp hd
  have hmade := each_made (ho.nodup_iff.mpr hn) hr
  have hcpu : ∀ i ∈ online, r.2 i = if (m.cpus i).hcpu.isSome then { m.cpus i with vmxRegion := none, vmxe := false }
      else m.cpus i := by
    intro i hi
    obtain ⟨a, -, ha⟩ := hmade.answer i (ho.mem_iff.mpr hi)
    rw [disableCpu_eq] at ha
    split at ha
    · cases ha
    · exact (Prod.mk.inj (Option.some.inj ha)).2.symm
  have hsame : ∀ i ∈ online, (r.2 i).hcpu = (m.cpus i).hcpu := by
    intro i hi
    rw [hcpu i hi]
    split <;> rfl
  set t : Machine := { m with cpus := r.2 } with ht
  obtain ⟨hk, hin, hout⟩ := freeHostCpus_spec (m := t) hn (by
    rw [regions_congr (m := m) hsame, objects_congr (m := m) hsame]
    exact k)
  refine ⟨hk, fun i hi => ?_, fun i hi => ?_⟩
  · rw [hin i hi, ht, Cpu.left]
    simp only [hcpu i hi]
    by_cases hs : (m.cpus i).hcpu.isSome
    · simp only [hs, if_true]
    · simp only [hs, Bool.false_eq_true, if_false]
      rw [← Option.not_isSome_iff_eq_none.mp hs]
  · rw [hout i hi]
    exact hmade.others i fun hc => hi (ho.mem_iff.mp hc)

end Setup

namespace Cpu

/-- What lets a CPU outside VMX operation that has a `struct host_cpu` enter it with a region of this revision. -/
def canEnter (revision : BitVec 31) (c : Cpu) : Bool :=
  (c.vmxe || c.supported) && (relmSetupFeatureControl c).1 && c.fixedBits && decide (c.revision = revision) &&
    c.hcpu.any fun hcpu => hcpu.vmxonPa != 0#64

end Cpu

section Enter

variable {c : Cpu} {h : Host} {hcpu : HostCpu} {revision : BitVec 31}

private theorem lock_and_vmxon {fc : U64} (h1 : fc &&& featureControlLocked ≠ 0#64) (h4 : fc &&& featureControlVmxon ≠ 0#64) :
    fc &&& 5#64 = 5#64 := by
  have e1 : fc &&& 1#64 = 1#64 := by
    have h := BitVec.and_twoPow fc 0
    rw [show BitVec.twoPow 64 0 = 1#64 from rfl] at h
    rw [h, if_pos]
    by_contra hc
    exact h1 (by rw [featureControlLocked, h, if_neg hc])
  have e4 : fc &&& 4#64 = 4#64 := by
    have h := BitVec.and_twoPow fc 2
    rw [show BitVec.twoPow 64 2 = 4#64 from rfl] at h
    rw [h, if_pos]
    by_contra hc
    exact h4 (by rw [featureControlVmxon, h, if_neg hc])
  rw [show (5#64 : U64) = 1#64 ||| 4#64 from rfl, BitVec.and_or_distrib_left, e1, e4]

/-- When the set-up succeeds, the MSR is locked with `VMXON` allowed, and nothing else of the CPU has changed. -/
theorem relmSetupFeatureControl_spec (c : Cpu) : ∃ fc, (relmSetupFeatureControl c).2 = { c with featureControl := fc } ∧
    ((relmSetupFeatureControl c).1 = true → fc &&& 5#64 = 5#64) := by
  rw [relmSetupFeatureControl]
  by_cases hl : c.featureControl &&& featureControlLocked = 0#64
  · simp only [hl, bne_self_eq_false, Bool.false_eq_true, if_false]
    exact ⟨_, rfl, fun hr => beq_iff_eq.mp hr⟩
  · simp only [bne_iff_ne.mpr hl, if_true]
    exact ⟨c.featureControl, rfl, fun hr => lock_and_vmxon hl (bne_iff_ne.mp hr)⟩

private theorem setup_vmxe (c : Cpu) : (relmSetupFeatureControl { c with vmxe := true }).1 = (relmSetupFeatureControl c).1 := by
  unfold relmSetupFeatureControl
  by_cases hl : (c.featureControl &&& featureControlLocked != 0#64) = true
  · simp only [hl, if_true]
  · simp only [hl]
    rfl

/-- `relm_vmxon` outside VMX operation: its error path for a failed `VMXON` faults too. -/
private theorem relmVmxon_outside (he : c.vmxe = true) (hr : c.vmxRegion = none) (hfc : c.featureControl &&& 5#64 = 5#64)
    (hal : hcpu.vmxonPa.toNat % 4096 = 0) (hw : h.mem hcpu.vmxonPa Host.firstWord = revision.setWidth 64) :
    relmVmxon h hcpu c =
      if hcpu.vmxonPa = 0#64 then some (.error .einval, c)
      else if c.fixedBits = true ∧ c.revision = revision then some (.ok (), { c with vmxRegion := some hcpu.vmxonPa })
      else none := by
  have hword : (h.mem hcpu.vmxonPa Host.firstWord).setWidth 32 = c.revision.setWidth 32 ↔ c.revision = revision := by
    rw [hw, BitVec.setWidth_setWidth_of_le _ (by decide), ← BitVec.toNat_inj, ← BitVec.toNat_inj, BitVec.toNat_setWidth,
      BitVec.toNat_setWidth]
    have h1 := revision.isLt
    have h2 := c.revision.isLt
    omega
  rw [relmVmxon]
  by_cases hz : hcpu.vmxonPa = 0#64
  · rw [if_pos hz, if_pos hz]
  · rw [if_neg hz, if_neg hz]
    cases hf : c.fixedBits with
    | false => simp [Cpu.vmxon, he, hr, hf]
    | true =>
      by_cases hrev : c.revision = revision
      · simp [Cpu.vmxon, he, hr, hf, hfc, hal, hword.mpr hrev, hrev]
      · simp [Cpu.vmxon, he, hr, hf, hfc, hal, mt hword.mp hrev, hrev]

/-- A CPU enters VMX operation with its own region, or it does not and is counted as failed, or it faults. -/
theorem relmVmxEnableCpu_spec (hc : c.hcpu = some hcpu) (hr : c.vmxRegion = none) (hal : hcpu.vmxonPa.toNat % 4096 = 0)
    (hw : h.mem hcpu.vmxonPa Host.firstWord = revision.setWidth 64) :
    (c.canEnter revision = true → ∃ c', relmVmxEnableCpu h c = some (false, c') ∧ c'.hcpu = c.hcpu ∧
      c'.vmxRegion = some hcpu.vmxonPa ∧ c'.vmxe = true) ∧
    (c.canEnter revision = false → relmVmxEnableCpu h c = none ∨
      ∃ c', relmVmxEnableCpu h c = some (true, c') ∧ c'.hcpu = c.hcpu ∧ c'.vmxRegion = none) := by
  obtain ⟨fc, hset, hbits⟩ := relmSetupFeatureControl_spec { c with vmxe := true }
  rw [setup_vmxe] at hbits
  set t : Cpu := { c with vmxe := true, featureControl := fc } with ht
  have heq : relmVmxEnableCpu h c =
      if (c.vmxe || c.supported) = true then
        if (relmSetupFeatureControl c).1 = true then (relmVmxon h hcpu t).map fun r => (!r.1.toBool, r.2)
        else some (true, t)
      else none := by
    rw [relmVmxEnableCpu, hc]
    simp only [relmEnableVmxOperation]
    by_cases hs : (c.vmxe || c.supported) = true
    · rw [if_pos hs, if_pos hs]
      simp only [setup_vmxe, hset]
      cases (relmSetupFeatureControl c).1 <;> rfl
    · rw [if_neg hs, if_neg hs]
  have hcan : c.canEnter revision = ((c.vmxe || c.supported) && (relmSetupFeatureControl c).1 && c.fixedBits &&
      decide (c.revision = revision) && (hcpu.vmxonPa != 0#64)) := by
    rw [Cpu.canEnter, hc]
    rfl
  rw [heq, hcan]
  by_cases hs : (c.vmxe || c.supported) = true
  · rw [if_pos hs, hs, Bool.true_and]
    cases hfc : (relmSetupFeatureControl c).1 with
    | false => exact ⟨fun hcon => by simp at hcon, fun _ => .inr ⟨t, rfl, rfl, hr⟩⟩
    | true =>
      rw [if_pos rfl, Bool.true_and, relmVmxon_outside (c := t) rfl hr (hbits hfc) hal hw]
      by_cases hz : hcpu.vmxonPa = 0#64
      · rw [if_pos hz]
        exact ⟨fun hcon => by simp [hz] at hcon, fun _ => .inr ⟨t, rfl, rfl, hr⟩⟩
      · rw [if_neg hz]
        by_cases hrev : c.fixedBits = true ∧ c.revision = revision
        · rw [if_pos (show t.fixedBits = true ∧ t.revision = revision from hrev)]
          exact ⟨fun _ => ⟨_, rfl, rfl, rfl, rfl⟩, fun hcon => by simp [hrev, hz] at hcon⟩
        · rw [if_neg (show ¬ (t.fixedBits = true ∧ t.revision = revision) from hrev)]
          refine ⟨fun hcon => absurd ?_ hrev, fun _ => .inl rfl⟩
          simp only [Bool.and_eq_true, decide_eq_true_eq] at hcon
          exact hcon.1
  · rw [if_neg hs]
    exact ⟨fun hcon => by simp [hs] at hcon, fun _ => .inl rfl⟩

end Enter

/-- None of the CPUs is in VMX operation or has a `struct host_cpu`. -/
def Outside (m : Machine) (cpus : List Nat) : Prop := ∀ i ∈ cpus, (m.cpus i).hcpu = none ∧ (m.cpus i).vmxRegion = none

/-- Each of the CPUs is in VMX operation with a region of its own, and that is all that has been kept. -/
structure Enabled (m m' : Machine) (cpus : List Nat) : Prop where
  entered : ∀ i ∈ cpus, ∃ hcpu, (m'.cpus i).hcpu = some hcpu ∧ hcpu.logicalCpuId = i ∧
    (m'.cpus i).vmxRegion = some hcpu.vmxonPa ∧ (m'.cpus i).vmxe = true
  others : ∀ i, i ∉ cpus → m'.cpus i = m.cpus i
  holds : Host.Holds m.host m'.host (regions m' cpus) (objects m' cpus)
  nodup : (regions m' cpus).Nodup

section Outcome

variable {m : Machine} {online order order' : List Nat}

/-- The rounds of interrupts after the memory of every CPU has been set up. -/
private theorem enable_of_setup {m' : Machine} {revision : BitVec 31} (hn : online.Nodup) (ho : order.Perm online)
    (hout : Outside m online) (s : SetUp revision m m' online) :
    ((∃ i ∈ online, (m'.cpus i).canEnter revision = false) → ∀ r, each (fun _ => relmVmxEnableCpu m'.host) order m'.cpus = some r →
      0 < r.1.count true ∧ ∃ i ∈ online, (r.2 i).hcpu.isSome ∧ (r.2 i).vmxRegion = none) ∧
    ((∀ i ∈ online, (m'.cpus i).canEnter revision = true) → ∃ r, each (fun _ => relmVmxEnableCpu m'.host) order m'.cpus = some r ∧
      r.1.count true = 0 ∧ Enabled m { m' with cpus := r.2 } online) := by
  have hstep : ∀ i ∈ online, ∃ hcpu, (m'.cpus i).hcpu = some hcpu ∧ hcpu.logicalCpuId = i ∧
      ((m'.cpus i).canEnter revision = true → ∃ c', relmVmxEnableCpu m'.host (m'.cpus i) = some (false, c') ∧
        c'.hcpu = (m'.cpus i).hcpu ∧ c'.vmxRegion = some hcpu.vmxonPa ∧ c'.vmxe = true) ∧
      ((m'.cpus i).canEnter revision = false → relmVmxEnableCpu m'.host (m'.cpus i) = none ∨
        ∃ c', relmVmxEnableCpu m'.host (m'.cpus i) = some (true, c') ∧ c'.hcpu = (m'.cpus i).hcpu ∧ c'.vmxRegion = none) := by
    intro i hi
    obtain ⟨hcpu, hc, hid, hal, hw⟩ := s.own i hi
    have hsome : (m'.cpus i).hcpu = some hcpu := by rw [hc]
    have hreg : (m'.cpus i).vmxRegion = none := by
      rw [hc]
      exact (hout i hi).2
    exact ⟨hcpu, hsome, hid, relmVmxEnableCpu_spec hsome hreg hal hw⟩
  have hon := ho.nodup_iff.mpr hn
  constructor
  · rintro ⟨i, hi, hno⟩ r hr
    obtain ⟨hcpu, hsome, -, -, hstay⟩ := hstep i hi
    obtain ⟨a, ha, hmade⟩ := (each_made hon hr).answer i (ho.mem_iff.mpr hi)
    rcases hstay hno with hnone | ⟨c', hc', hh, hv⟩
    · rw [hnone] at hmade
      cases hmade
    · obtain ⟨rfl, hc⟩ := Prod.mk.inj (Option.some.inj (hmade.symm.trans hc'))
      refine ⟨List.count_pos_iff.mpr ha, i, hi, ?_⟩
      rw [hc, hh, hsome]
      exact ⟨rfl, hv⟩
  · intro hall
    cases hr : each (fun _ => relmVmxEnableCpu m'.host) order m'.cpus with
    | none =>
      obtain ⟨i, hi, hnone⟩ := (each_eq_none_iff hon).mp hr
      obtain ⟨hcpu, -, -, henter, -⟩ := hstep i (ho.mem_iff.mp hi)
      obtain ⟨c', hc', -⟩ := henter (hall i (ho.mem_iff.mp hi))
      rw [hnone] at hc'
      cases hc'
    | some r =>
      have hmade := each_made hon hr
      have hcpu : ∀ i ∈ online, ∃ hcpu, (m'.cpus i).hcpu = some hcpu ∧ (r.2 i).hcpu = some hcpu ∧ hcpu.logicalCpuId = i ∧
          (r.2 i).vmxRegion = some hcpu.vmxonPa ∧ (r.2 i).vmxe = true := by
        intro i hi
        obtain ⟨hcpu, hsome, hid, henter, -⟩ := hstep i hi
        obtain ⟨c', hc', hh, hv, he⟩ := henter (hall i hi)
        obtain ⟨a, -, ha⟩ := hmade.answer i (ho.mem_iff.mpr hi)
        obtain ⟨-, hc⟩ := Prod.mk.inj (Option.some.inj (ha.symm.trans hc'))
        rw [hc]
        exact ⟨hcpu, hsome, hh.trans hsome, hid, hv, he⟩
      have hsame : ∀ i ∈ online, (({ m' with cpus := r.2 } : Machine).cpus i).hcpu = (m'.cpus i).hcpu := by
        intro i hi
        obtain ⟨hcpu, hsome, hh, -⟩ := hcpu i hi
        exact hh.trans hsome.symm
      refine ⟨r, rfl, List.count_eq_zero.mpr fun ht => ?_, ?_⟩
      · obtain ⟨i, hi, ha⟩ := hmade.only true ht
        obtain ⟨hcpu, -, -, henter, -⟩ := hstep i (ho.mem_iff.mp hi)
        obtain ⟨c', hc', -⟩ := henter (hall i (ho.mem_iff.mp hi))
        rw [ha] at hc'
        cases hc'
      · refine ⟨fun i hi => ?_, fun i hi => ?_, ?_, ?_⟩
        · obtain ⟨hcpu, -, hrest⟩ := hcpu i hi
          exact ⟨hcpu, hrest⟩
        · exact (hmade.others i fun hc => hi (ho.mem_iff.mp hc)).trans (s.others i hi)
        · rw [regions_congr hsame, objects_congr hsame]
          exact s.holds
        · rw [regions_congr hsame]
          exact s.nodup

/-- How `relm_vmx_enable_on_all_cpus` ends on CPUs outside VMX operation. Its clean-up runs `VMXOFF` on every CPU that
has a `struct host_cpu`, so it faults as soon as one of them has not entered. -/
theorem relmVmxEnableOnAllCpus_outcome (self : Nat) (hn : online.Nodup) (ho : order.Perm online) (ho' : order'.Perm online)
    (hout : Outside m online) :
    (relmVmxEnableOnAllCpus self online order order' m = none ↔
      ((setupHostCpus (m.cpus self).revision online m).1 = true ∧
        ∃ i ∈ online, ((setupHostCpus (m.cpus self).revision online m).2.cpus i).canEnter (m.cpus self).revision = false) ∨
      ((setupHostCpus (m.cpus self).revision online m).1 = false ∧
        ∃ i ∈ online, ((setupHostCpus (m.cpus self).revision online m).2.cpus i).hcpu.isSome)) ∧
    ∀ ret m', relmVmxEnableOnAllCpus self online order order' m = some (ret, m') →
      (ret = .ok () ∧ Enabled m m' online) ∨
      (ret = .error .enomem ∧ m'.cpus = m.cpus ∧ Host.Holds m.host m'.host [] []) := by
  rw [relmVmxEnableOnAllCpus]
  set revision := (m.cpus self).revision
  rcases setupHostCpus_cases revision m hn with ⟨hok, s⟩ | ⟨hfail, before, j, after, heq, s⟩
  · simp only [hok, if_true, true_and, Bool.true_eq_false, false_and, or_false]
    obtain ⟨hno, hyes⟩ := enable_of_setup hn ho hout s
    by_cases hall : ∀ i ∈ online, ((setupHostCpus revision online m).2.cpus i).canEnter revision = true
    · obtain ⟨r, hr, hcount, henabled⟩ := hyes hall
      rw [hr, Option.bind_some, hcount, if_neg (Nat.lt_irrefl 0)]
      refine ⟨⟨fun hc => (by cases hc), ?_⟩, ?_⟩
      · rintro ⟨i, hi, hc⟩
        rw [hall i hi] at hc
        cases hc
      · rintro ret m' ⟨⟩
        exact .inl ⟨rfl, henabled⟩
    · have hex : ∃ i ∈ online, ((setupHostCpus revision online m).2.cpus i).canEnter revision = false := by
        simpa using hall
      have hnone : ((each (fun _ => relmVmxEnableCpu (setupHostCpus revision online m).2.host) order
          (setupHostCpus revision online m).2.cpus).bind fun r =>
            if 0 < r.1.count true then (relmVmxDisableOnAllCpus online order'
                { (setupHostCpus revision online m).2 with cpus := r.2 }).map fun m => (Except.error Errno.eio, m)
              else some (.ok (), { (setupHostCpus revision online m).2 with cpus := r.2 })) = none := by
        rw [Option.bind_eq_none_iff]
        intro r hr
        obtain ⟨hcount, i, hi, hcpu⟩ := hno hex r hr
        rw [if_pos hcount, Option.map_eq_none_iff]
        exact (disableOnAllCpus_eq_none_iff hn ho').mpr ⟨i, hi, hcpu⟩
      rw [hnone]
      exact ⟨⟨fun _ => hex, fun _ => rfl⟩, fun ret m' hc => by cases hc⟩
  · simp only [hfail, Bool.false_eq_true, if_false, false_and, true_and, false_or]
    have hcpu : ∀ i ∈ online, ((setupHostCpus revision online m).2.cpus i).hcpu.isSome ↔ i ∈ before := by
      intro i hi
      by_cases hb : i ∈ before
      · obtain ⟨hcpu, hc, -⟩ := s.own i hb
        simp [hb, hc]
      · simp [hb, s.others i hb, (hout i hi).1]
    have hregion : ∀ i ∈ online, ((setupHostCpus revision online m).2.cpus i).vmxRegion = none := by
      intro i hi
      by_cases hb : i ∈ before
      · obtain ⟨hcpu, hc, -⟩ := s.own i hb
        rw [hc]
        exact (hout i hi).2
      · rw [s.others i hb]
        exact (hout i hi).2
    refine ⟨?_, fun ret m' hret => ?_⟩
    · rw [Option.map_eq_none_iff, disableOnAllCpus_eq_none_iff hn ho']
      exact ⟨fun ⟨i, hi, hs, _⟩ => ⟨i, hi, hs⟩, fun ⟨i, hi, hs⟩ => ⟨i, hi, hs, hregion i hi⟩⟩
    · obtain ⟨t, ht, heq'⟩ := Option.map_eq_some_iff.mp hret
      obtain ⟨rfl, rfl⟩ := Prod.mk.inj heq'
      have hnil : before = [] := by
        rw [List.eq_nil_iff_forall_not_mem]
        intro i hi
        have hi' : i ∈ online := by
          rw [heq]
          exact List.mem_append_left _ hi
        rw [(disableOnAllCpus_eq_none_iff hn ho').mpr ⟨i, hi', (hcpu i hi').mpr hi, hregion i hi'⟩] at ht
        cases ht
      rw [hnil] at s
      have hsame : ∀ i, (setupHostCpus revision online m).2.cpus i = m.cpus i := fun i => s.others i List.not_mem_nil
      have hfree : ∀ i ∈ online, ((setupHostCpus revision online m).2.cpus i).hcpu = none := by
        intro i hi
        rw [hsame]
        exact (hout i hi).1
      have hr : regions (setupHostCpus revision online m).2 online = [] :=
        List.filterMap_eq_nil_iff.mpr fun i hi => by rw [hfree i hi, Option.map_none]
      have hob : objects (setupHostCpus revision online m).2 online = [] :=
        List.filterMap_eq_nil_iff.mpr fun i hi => by rw [hfree i hi, Option.map_none]
      obtain ⟨hk, hin, hothers⟩ := disableOnAllCpus_spec m.host [] [] hn ho' (by
        rw [hr, hob]
        exact s.holds) ht
      refine .inr ⟨rfl, funext fun i => ?_, hk⟩
      by_cases hi : i ∈ online
      · rw [hin i hi, Cpu.left, hfree i hi, hsame]
        rfl
      · rw [hothers i hi, hsame]

end Outcome

/-- Two CPUs with VMX, as firmware that leaves the feature control unlocked starts them. -/
def twoCpus (answers : List (Option U64)) : Machine :=
  ⟨Host.idle answers [true, true], fun _ => ⟨true, false, true, 0#64, 5#64, 7#31, none, none⟩⟩

theorem twoCpus_outside (answers : List (Option U64)) : Outside (twoCpus answers) [0, 1] := fun _ _ => ⟨rfl, rfl⟩

/-- The second CPU's region cannot be allocated: the clean-up executes `VMXOFF` on the first, which never executed `VMXON`. -/
theorem enable_faults_without_second_region :
    relmVmxEnableOnAllCpus 0 [0, 1] [0, 1] [1, 0] (twoCpus [some 0x1000#64, none]) = none :=
  (relmVmxEnableOnAllCpus_outcome 0 (by decide) (.refl _) (.swap 0 1 []) (twoCpus_outside _)).1.mpr
    (.inr ⟨by decide, 0, by decide, by decide⟩)

/-- Why `relm_arch_init` refuses. -/
inductive ArchError
  | enodev
  | errno (e : Errno)

def relmArchInit (self : Nat) (online order order' : List Nat) (m : Machine) : Option (Except ArchError Unit × Machine) :=
  if !(m.cpus self).supported then some (.error .enodev, m)
  else (relmVmxEnableOnAllCpus self online order order' m).map fun r => (r.1.mapError .errno, r.2)

def relmArchExit (online order : List Nat) (m : Machine) : Option Machine := relmVmxDisableOnAllCpus online order m

/-- The machine, and whether the module is loaded. -/
structure ModuleState where
  machine : Machine
  loaded : Bool

/-- Loading on one of the CPUs and unloading, with the orders in which the CPUs take the interrupts. -/
inductive ModuleCall
  | load (self : Nat) (order order' : List Nat)
  | unload (order : List Nat)

namespace ModuleCall

/-- The kernel loads a module that is not loaded, and unloads one that is. -/
def exec (online : List Nat) (s : ModuleState) : ModuleCall → Option ModuleState
  | load self order order' =>
    if s.loaded then some s else (relmArchInit self online order order' s.machine).map fun r => ⟨r.2, r.1.toBool⟩
  | unload order => if s.loaded then (relmArchExit online order s.machine).map fun m => ⟨m, false⟩ else some s

/-- Every online CPU takes each interrupt once. -/
def Valid (online : List Nat) : ModuleCall → Prop
  | load _ order order' => order.Perm online ∧ order'.Perm online
  | unload order => order.Perm online

end ModuleCall

/-- What the module keeps, over the machine as it was found: nothing and no CPU in VMX operation while it is not loaded,
and exactly one region and one object for each online CPU while it is. -/
structure Balanced (m0 : Machine) (online : List Nat) (s : ModuleState) : Prop where
  unloaded : s.loaded = false → Outside s.machine online ∧ Host.Holds m0.host s.machine.host [] []
  loaded : s.loaded = true → Enabled m0 s.machine online
  others : ∀ i, i ∉ online → s.machine.cpus i = m0.cpus i

section Module

variable {m m' m0 : Machine} {online order order' : List Nat} {s s' : ModuleState} {c : ModuleCall}

/-- Leaving from the enabled state cannot fault, and undoes it. -/
theorem relmArchExit_of_enabled (hn : online.Nodup) (ho : order.Perm online) (h : Enabled m0 m online) :
    ∃ m', relmArchExit online order m = some m' ∧ Outside m' online ∧ Host.Holds m0.host m'.host [] [] ∧
      ∀ i, i ∉ online → m'.cpus i = m0.cpus i := by
  cases hd : relmArchExit online order m with
  | none =>
    obtain ⟨i, hi, -, hr⟩ := (disableOnAllCpus_eq_none_iff hn ho).mp hd
    obtain ⟨hcpu, -, -, hsome, -⟩ := h.entered i hi
    rw [hsome] at hr
    cases hr
  | some m' =>
    obtain ⟨hk, hin, hout⟩ := disableOnAllCpus_spec m0.host [] [] hn ho (by
      rw [List.append_nil, List.append_nil]
      exact h.holds) hd
    refine ⟨m', rfl, fun i hi => ?_, hk, fun i hi => (hout i hi).trans (h.others i hi)⟩
    obtain ⟨hcpu, hc, -⟩ := h.entered i hi
    rw [hin i hi, Cpu.left, hc]
    exact ⟨rfl, rfl⟩

private theorem Enabled.of_balanced (hk : Host.Holds m0.host m.host [] []) (hothers : ∀ i, i ∉ online → m.cpus i = m0.cpus i)
    (h : Enabled m m' online) : Enabled m0 m' online where
  entered := h.entered
  others i hi := (h.others i hi).trans (hothers i hi)
  holds := by simpa only [List.append_nil] using hk.trans h.holds
  nodup := h.nodup

private theorem Balanced.load {self : Nat} (hn : online.Nodup) (ho : order.Perm online) (ho' : order'.Perm online)
    (b : Balanced m0 online s) (hl : s.loaded = false) {r : Except ArchError Unit × Machine}
    (hr : relmArchInit self online order order' s.machine = some r) : Balanced m0 online ⟨r.2, r.1.toBool⟩ := by
  obtain ⟨hout, hk⟩ := b.unloaded hl
  rw [relmArchInit] at hr
  by_cases hs : (s.machine.cpus self).supported = true
  · rw [if_neg (by simp [hs])] at hr
    obtain ⟨⟨ret, m'⟩, hret, rfl⟩ := Option.map_eq_some_iff.mp hr
    rcases (relmVmxEnableOnAllCpus_outcome self hn ho ho' hout).2 ret m' hret with ⟨rfl, he⟩ | ⟨rfl, hcpus, hk'⟩
    · exact ⟨fun hc => (by cases hc), fun _ => he.of_balanced hk b.others, fun i hi => (he.others i hi).trans (b.others i hi)⟩
    · refine ⟨fun _ => ⟨?_, by simpa using hk.trans hk'⟩, fun hc => (by cases hc), fun i hi => ?_⟩
      · intro i hi
        change (m'.cpus i).hcpu = none ∧ (m'.cpus i).vmxRegion = none
        rw [hcpus]
        exact hout i hi
      · change m'.cpus i = m0.cpus i
        rw [hcpus]
        exact b.others i hi
  · rw [if_pos (by simp [hs])] at hr
    obtain rfl := Option.some.inj hr
    exact ⟨fun _ => ⟨hout, hk⟩, fun hc => (by cases hc), b.others⟩

private theorem Balanced.exec (hn : online.Nodup) (b : Balanced m0 online s) (hv : c.Valid online)
    (he : c.exec online s = some s') : Balanced m0 online s' := by
  cases c with
  | load self order order' =>
    rw [ModuleCall.exec] at he
    cases hl : s.loaded with
    | true =>
      rw [if_pos hl] at he
      exact Option.some.inj he ▸ b
    | false =>
      rw [hl, if_neg (by decide)] at he
      obtain ⟨r, hr, rfl⟩ := Option.map_eq_some_iff.mp he
      exact b.load hn hv.1 hv.2 hl hr
  | unload order =>
    rw [ModuleCall.exec] at he
    cases hl : s.loaded with
    | true =>
      rw [if_pos hl] at he
      obtain ⟨m', hm', rfl⟩ := Option.map_eq_some_iff.mp he
      obtain ⟨m'', hm'', hout, hk, hothers⟩ := relmArchExit_of_enabled hn hv (b.loaded hl)
      obtain rfl := Option.some.inj (hm'.symm.trans hm'')
      exact ⟨fun _ => ⟨hout, hk⟩, fun hc => (by cases hc), hothers⟩
    | false =>
      rw [hl, if_neg (by decide)] at he
      exact Option.some.inj he ▸ b

/-- Over any number of loads and unloads, whatever the allocations and the CPUs do: as long as no CPU has faulted, the
module keeps exactly what it uses, and unloading it cannot fault. -/
theorem module_run_balanced (hn : online.Nodup) (hout : Outside m0 online) {calls : List ModuleCall}
    (hv : ∀ c ∈ calls, c.Valid online) (h : calls.foldlM (ModuleCall.exec online) ⟨m0, false⟩ = some s) :
    Balanced m0 online s ∧ ∀ order, order.Perm online → ((ModuleCall.unload order).exec online s).isSome := by
  have hb : Balanced m0 online s := by
    refine Lib.Run.foldlM_invariant (fun s c s' (b : Balanced m0 online s) hv he => b.exec hn hv he) ?_ hv h
    exact ⟨fun _ => ⟨hout, .start _⟩, fun hc => (by cases hc), fun _ _ => rfl⟩
  refine ⟨hb, fun order ho => ?_⟩
  rw [ModuleCall.exec]
  cases hl : s.loaded with
  | true =>
    obtain ⟨m', hm', -⟩ := relmArchExit_of_enabled hn ho (hb.loaded hl)
    rw [if_pos rfl, hm']
    rfl
  | false => rfl

/-- Loading, unloading and loading again on two CPUs; the last loading finds no memory. -/
theorem module_run_balanced_reload :
    ∃ s, [ModuleCall.load 1 [1, 0] [0, 1], .unload [0, 1], .load 0 [0, 1] [0, 1]].foldlM (ModuleCall.exec [0, 1])
        ⟨twoCpus [some 0x1000#64, some 0x2000#64], false⟩ = some s ∧ s.loaded = false ∧
      Host.Holds (twoCpus [some 0x1000#64, some 0x2000#64]).host s.machine.host [] [] := by
  have hmap : ([ModuleCall.load 1 [1, 0] [0, 1], .unload [0, 1], .load 0 [0, 1] [0, 1]].foldlM (ModuleCall.exec [0, 1])
      ⟨twoCpus [some 0x1000#64, some 0x2000#64], false⟩).map ModuleState.loaded = some false := by decide
  obtain ⟨s, hs, hloaded⟩ := Option.map_eq_some_iff.mp hmap
  refine ⟨s, hs, hloaded, ((module_run_balanced (by decide) (twoCpus_outside _) ?_ hs).1.unloaded hloaded).2⟩
  intro c hc
  simp only [List.mem_cons, List.not_mem_nil, or_false] at hc
  rcases hc with rfl | rfl | rfl
  · exact ⟨.swap 0 1 [], .refl _⟩
  · exact List.Perm.refl [0, 1]
  · exact ⟨.refl _, .refl _⟩

end Module

end Relm.Vmx.HostCpus
