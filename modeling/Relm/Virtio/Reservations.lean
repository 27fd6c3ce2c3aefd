import Relm.Virtio.Registry

/-! The registry of virtio devices against the MMIO windows of the VMs: over runs of registrations and
unregistrations, when the two describe each other. -/
namespace Relm.Virtio
open Relm.Vm Relm.Lib.Run Relm.Lib.Word

variable {π : Type}

inductive RegistryCall
  | register (dev : Nat) (baseGpa : U64) (irq : U32)
  | unregister (dev : Nat)

namespace RegistryCall

def exec (s : VirtioRegistry π) : RegistryCall → Except Errno Unit × VirtioRegistry π
  | register dev baseGpa irq => s.relmVirtioMmioRegisterDevice dev baseGpa irq
  | unregister dev => (.ok (), s.relmVirtioMmioUnregisterDevice dev)

/-- A registration with room in the registry and a window that passes every check is for a device that is not
registered, and its window ends below the top of the address space. -/
def Clean (s : VirtioRegistry π) : RegistryCall → Prop
  | register dev baseGpa _ => s.registered.length < relmVirtioMmioMaxDevices →
      (relmVmReserveMmioRegion (s.memories (s.devices dev).vm) baseGpa relmVirtioMmioRegionSize
        (some (s.devices dev).name)).1 = .ok () →
      dev ∉ s.registered ∧ baseGpa.toNat + relmVirtioMmioRegionSize.toNat < 2 ^ 64
  | unregister _ => True

end RegistryCall

namespace VirtioRegistry

def relmVirtioFindDeviceForGpa (s : VirtioRegistry π) (vm : Nat) (faultGpa : U64) : Option Nat :=
  s.registered.find? fun dev =>
    let d := s.devices dev
    let last := d.mmioBaseGpa + relmVirtioMmioRegionSize
    d.vm == vm && decide (d.mmioBaseGpa ≤ faultGpa) && decide (faultGpa < last)

/-- The reserved windows of a VM. -/
def windows (s : VirtioRegistry π) (vm : Nat) : List MmioRegion := (s.memories vm).mmioRegions

/-- A registered device whose window in a VM starts at an address. -/
def Owns (s : VirtioRegistry π) (vm : Nat) (start : U64) (dev : Nat) : Prop :=
  dev ∈ s.registered ∧ (s.devices dev).vm = vm ∧ (s.devices dev).mmioBaseGpa = start

end VirtioRegistry

/-- The registrations of a run that succeeded and were not undone, by their answers alone. -/
def standing (tr : List (RegistryCall × Except Errno Unit)) : List (Nat × U64) :=
  tr.foldl (fun l c => match c with
    | (.register dev baseGpa _, .ok _) => l ++ [(dev, baseGpa)]
    | (.unregister dev, _) => l.filter fun x => x.1 != dev
    | _ => l) []

/-- Registered entries and reserved windows correspond one to one, a lookup finds the device of the window, and a
window belongs to a registration that still stands. -/
structure Corresponds (tr : List (RegistryCall × Except Errno Unit)) (s : VirtioRegistry π) : Prop where
  entries : s.registered.Nodup
  starts : ∀ vm, ((s.windows vm).map MmioRegion.gpaStart).Nodup
  owner : ∀ vm, ∀ w ∈ s.windows vm, ∃! dev, s.Owns vm w.gpaStart dev
  window : ∀ dev ∈ s.registered, ∃ w ∈ s.windows (s.devices dev).vm,
    w.gpaStart = (s.devices dev).mmioBaseGpa ∧ w.size = relmVirtioMmioRegionSize
  found : ∀ vm, ∀ w ∈ s.windows vm, ∀ gpa ∈ w.addresses,
    ∃ dev, s.Owns vm w.gpaStart dev ∧ s.relmVirtioFindDeviceForGpa vm gpa = some dev
  missed : ∀ vm gpa, (∀ w ∈ s.windows vm, gpa ∉ w.addresses) → s.relmVirtioFindDeviceForGpa vm gpa = none
  stands : ∀ vm, ∀ w ∈ s.windows vm, ∃ dev, (dev, w.gpaStart) ∈ standing tr ∧ (s.devices dev).vm = vm

/-- What every clean step keeps: the windows of a VM are those of its devices, in the order of registration. -/
structure WindowsOf (tr : List (RegistryCall × Except Errno Unit)) (s : VirtioRegistry π) : Prop where
  entries : s.registered.Nodup
  windows : ∀ vm, (s.windows vm).map (fun w => (w.gpaStart, w.size)) =
    (s.registered.filter fun dev => (s.devices dev).vm == vm).map fun dev =>
      ((s.devices dev).mmioBaseGpa, relmVirtioMmioRegionSize)
  below : ∀ dev ∈ s.registered, (s.devices dev).mmioBaseGpa.toNat + relmVirtioMmioRegionSize.toNat < 2 ^ 64
  apart : ∀ a ∈ s.registered, ∀ b ∈ s.registered, a ≠ b → (s.devices a).vm = (s.devices b).vm →
    Apart (addresses (s.devices a).mmioBaseGpa relmVirtioMmioRegionSize)
      (addresses (s.devices b).mmioBaseGpa relmVirtioMmioRegionSize)
  standing : s.registered.map (fun dev => (dev, (s.devices dev).mmioBaseGpa)) = Virtio.standing tr

namespace WindowsOf

variable {tr : List (RegistryCall × Except Errno Unit)} {s : VirtioRegistry π}

theorem mem_windows (h : WindowsOf tr s) {vm : Nat} {w : MmioRegion} (hw : w ∈ s.windows vm) :
    ∃ dev, s.Owns vm w.gpaStart dev ∧ w.size = relmVirtioMmioRegionSize := by
  have hm := List.mem_map_of_mem (f := fun w : MmioRegion => (w.gpaStart, w.size)) hw
  rw [h.windows vm] at hm
  obtain ⟨dev, hd, heq⟩ := List.mem_map.mp hm
  obtain ⟨hreg, hvm⟩ := List.mem_filter.mp hd
  obtain ⟨hstart, hsize⟩ := Prod.mk.inj heq
  exact ⟨dev, ⟨hreg, by simpa using hvm, hstart⟩, hsize.symm⟩

theorem window_of_mem (h : WindowsOf tr s) {dev : Nat} (hd : dev ∈ s.registered) :
    ∃ w ∈ s.windows (s.devices dev).vm, w.gpaStart = (s.devices dev).mmioBaseGpa ∧ w.size = relmVirtioMmioRegionSize := by
  have hm : ((s.devices dev).mmioBaseGpa, relmVirtioMmioRegionSize) ∈
      (s.windows (s.devices dev).vm).map fun w => (w.gpaStart, w.size) := by
    rw [h.windows]
    exact List.mem_map_of_mem (List.mem_filter.mpr ⟨hd, by simp⟩)
  obtain ⟨w, hw, heq⟩ := List.mem_map.mp hm
  obtain ⟨hstart, hsize⟩ := Prod.mk.inj heq
  exact ⟨w, hw, hstart, hsize⟩

theorem start_self (start : U64) : start ∈ addresses start relmVirtioMmioRegionSize := start_mem (by decide)

/-- Two devices of one VM whose windows share an address are the same. -/
theorem eq_of_shared (h : WindowsOf tr s) {a b : Nat} (ha : a ∈ s.registered) (hb : b ∈ s.registered)
    (hvm : (s.devices a).vm = (s.devices b).vm) {gpa : U64}
    (hga : gpa ∈ addresses (s.devices a).mmioBaseGpa relmVirtioMmioRegionSize)
    (hgb : gpa ∈ addresses (s.devices b).mmioBaseGpa relmVirtioMmioRegionSize) : a = b := by
  by_contra hne
  exact h.apart a ha b hb hne hvm gpa hga hgb

theorem owns_unique (h : WindowsOf tr s) {vm a b : Nat} {start : U64} (ha : s.Owns vm start a) (hb : s.Owns vm start b) :
    a = b := by
  have hga : start ∈ addresses (s.devices a).mmioBaseGpa relmVirtioMmioRegionSize := by
    rw [ha.2.2]
    exact start_self start
  have hgb : start ∈ addresses (s.devices b).mmioBaseGpa relmVirtioMmioRegionSize := by
    rw [hb.2.2]
    exact start_self start
  exact h.eq_of_shared ha.1 hb.1 (ha.2.1.trans hb.2.1.symm) hga hgb

/-- The lookup test of a registered device is membership in its window. -/
theorem found_iff (h : WindowsOf tr s) {dev : Nat} (hd : dev ∈ s.registered) (gpa : U64) :
    (decide ((s.devices dev).mmioBaseGpa ≤ gpa) && decide (gpa < (s.devices dev).mmioBaseGpa + relmVirtioMmioRegionSize)) =
      true ↔ gpa ∈ addresses (s.devices dev).mmioBaseGpa relmVirtioMmioRegionSize :=
  window_test (h.below dev hd)

theorem find_eq (h : WindowsOf tr s) {dev : Nat} (hd : dev ∈ s.registered) {gpa : U64}
    (hg : gpa ∈ addresses (s.devices dev).mmioBaseGpa relmVirtioMmioRegionSize) :
    s.relmVirtioFindDeviceForGpa (s.devices dev).vm gpa = some dev := by
  cases hf : s.relmVirtioFindDeviceForGpa (s.devices dev).vm gpa with
  | none =>
    have hno := List.find?_eq_none.mp hf dev hd
    simp only [Bool.and_assoc, (h.found_iff hd gpa).mpr hg, beq_self_eq_true, Bool.and_self, not_true] at hno
  | some other =>
    have ho := List.mem_of_find?_eq_some hf
    have htest := List.find?_some hf
    simp only [Bool.and_assoc] at htest
    rw [Bool.and_eq_true, h.found_iff ho] at htest
    rw [h.eq_of_shared ho hd (by simpa using htest.1) htest.2 hg]

theorem corresponds (h : WindowsOf tr s) : Corresponds tr s where
  entries := h.entries
  starts vm := by
    have hmap : (s.windows vm).map MmioRegion.gpaStart =
        (s.registered.filter fun dev => (s.devices dev).vm == vm).map fun dev => (s.devices dev).mmioBaseGpa := by
      have hw := congrArg (List.map Prod.fst) (h.windows vm)
      rw [List.map_map, List.map_map] at hw
      exact hw
    rw [hmap]
    refine List.Nodup.map_on ?_ (h.entries.filter _)
    intro a ha b hb heq
    obtain ⟨ha, hva⟩ := List.mem_filter.mp ha
    obtain ⟨hb, hvb⟩ := List.mem_filter.mp hb
    exact h.owns_unique ⟨ha, by simpa using hva, heq⟩ ⟨hb, by simpa using hvb, rfl⟩
  owner vm w hw := by
    obtain ⟨dev, hown, -⟩ := h.mem_windows hw
    exact ⟨dev, hown, fun other ho => h.owns_unique ho hown⟩
  window dev hd := h.window_of_mem hd
  found vm w hw gpa hg := by
    obtain ⟨dev, hown, hsize⟩ := h.mem_windows hw
    refine ⟨dev, hown, ?_⟩
    obtain ⟨hd, rfl, hstart⟩ := hown
    refine h.find_eq hd ?_
    rwa [MmioRegion.addresses, ← hstart, hsize] at hg
  missed vm gpa hno := by
    refine List.find?_eq_none.mpr fun dev hd htest => ?_
    simp only [Bool.and_assoc] at htest
    rw [Bool.and_eq_true, h.found_iff hd] at htest
    obtain rfl : (s.devices dev).vm = vm := by simpa using htest.1
    obtain ⟨w, hw, hstart, hsize⟩ := h.window_of_mem hd
    refine hno w hw ?_
    rw [MmioRegion.addresses, hstart, hsize]
    exact htest.2
  stands vm w hw := by
    obtain ⟨dev, ⟨hd, hvm, hstart⟩, -⟩ := h.mem_windows hw
    refine ⟨dev, ?_, hvm⟩
    rw [← h.standing, ← hstart]
    exact List.mem_map_of_mem hd

end WindowsOf

private theorem standing_concat (tr : List (RegistryCall × Except Errno Unit)) (c : RegistryCall × Except Errno Unit) :
    standing (tr ++ [c]) = match c with
      | (.register dev baseGpa _, .ok _) => standing tr ++ [(dev, baseGpa)]
      | (.unregister dev, _) => (standing tr).filter fun x => x.1 != dev
      | _ => standing tr := by
  rw [standing, List.foldl_append]
  rfl

section Register

variable {tr : List (RegistryCall × Except Errno Unit)} {s : VirtioRegistry π} {dev : Nat} {baseGpa : U64} {irq : U32}

/-- A registration as one update of the state. -/
def VirtioRegistry.entered (s : VirtioRegistry π) (dev : Nat) (baseGpa : U64) (irq : U32) (name : List Byte) :
    VirtioRegistry π :=
  let d := s.devices dev
  let m := s.memories d.vm
  { s with registered := s.registered ++ [dev]
           devices := Function.update s.devices dev { d with mmioBaseGpa := baseGpa, irq }
           memories := Function.update s.memories d.vm
             { m with mmioRegions := m.mmioRegions ++ [⟨baseGpa, relmVirtioMmioRegionSize, name⟩] } }

/-- A registration fails and changes nothing, or it passed every check and is entered last. -/
theorem registerDevice_cases (s : VirtioRegistry π) (dev : Nat) (baseGpa : U64) (irq : U32) :
    (∃ e, s.relmVirtioMmioRegisterDevice dev baseGpa irq = (.error e, s) ∧
      ∀ (P : Prop), s.registered.length < relmVirtioMmioMaxDevices →
        (relmVmReserveMmioRegion (s.memories (s.devices dev).vm) baseGpa relmVirtioMmioRegionSize
          (some (s.devices dev).name)).1 = .ok () → P) ∨
      ∃ name, s.relmVirtioMmioRegisterDevice dev baseGpa irq = (.ok (), s.entered dev baseGpa irq name) ∧
        s.registered.length < relmVirtioMmioMaxDevices ∧
        (relmVmReserveMmioRegion (s.memories (s.devices dev).vm) baseGpa relmVirtioMmioRegionSize
          (some (s.devices dev).name)).1 = .ok () ∧
        ∀ w ∈ s.windows (s.devices dev).vm, overlaps baseGpa relmVirtioMmioRegionSize w.gpaStart w.size = false := by
  unfold VirtioRegistry.relmVirtioMmioRegisterDevice
  split
  · rename_i hfull
    exact .inl ⟨_, rfl, fun _ hlt => absurd hfull (not_le.mpr hlt)⟩
  · rename_i hroom
    rcases reserve_cases (s.memories (s.devices dev).vm) baseGpa relmVirtioMmioRegionSize (some (s.devices dev).name) with
      ⟨e, he⟩ | ⟨name, he, -, -, -, -, hwin, -, -⟩
    · refine .inl ⟨e, by simp only [he], fun _ _ hok => ?_⟩
      rw [he] at hok
      cases hok
    · refine .inr ⟨name, ?_, not_le.mp hroom, ?_, hwin⟩
      · simp only [he]
        rfl
      · rw [he]

variable {name : List Byte} {vm other : Nat}

private theorem entered_base (hne : other ≠ dev) : (s.entered dev baseGpa irq name).devices other = s.devices other :=
  Function.update_of_ne hne _ _

private theorem entered_self : (s.entered dev baseGpa irq name).devices dev =
    { s.devices dev with mmioBaseGpa := baseGpa, irq } := Function.update_self ..

private theorem entered_vm (other : Nat) : ((s.entered dev baseGpa irq name).devices other).vm = (s.devices other).vm := by
  by_cases ho : other = dev
  · rw [ho, entered_self]
  · rw [entered_base ho]

private theorem entered_windows (vm : Nat) : (s.entered dev baseGpa irq name).windows vm =
    s.windows vm ++ if (s.devices dev).vm = vm then [⟨baseGpa, relmVirtioMmioRegionSize, name⟩] else [] := by
  unfold VirtioRegistry.windows
  by_cases hv : (s.devices dev).vm = vm
  · obtain rfl := hv
    simp only [VirtioRegistry.entered, Function.update_self, if_true]
  · simp only [VirtioRegistry.entered, Function.update_of_ne (Ne.symm hv), hv, if_false, List.append_nil]

/-- The windows of one VM after a device has been entered, by the devices of that VM. -/
private theorem entered_ranges (hnew : dev ∉ s.registered) (vm : Nat) :
    (((s.entered dev baseGpa irq name).registered.filter fun other =>
        ((s.entered dev baseGpa irq name).devices other).vm == vm).map fun other =>
      (((s.entered dev baseGpa irq name).devices other).mmioBaseGpa, relmVirtioMmioRegionSize)) =
      ((s.registered.filter fun other => (s.devices other).vm == vm).map fun other =>
        ((s.devices other).mmioBaseGpa, relmVirtioMmioRegionSize)) ++
        if (s.devices dev).vm = vm then [(baseGpa, relmVirtioMmioRegionSize)] else [] := by
  have hfilter : ((s.registered ++ [dev]).filter fun other =>
      ((s.entered dev baseGpa irq name).devices other).vm == vm) =
      (s.registered.filter fun other => (s.devices other).vm == vm) ++
        if (s.devices dev).vm = vm then [dev] else [] := by
    simp only [entered_vm, List.filter_append, List.filter_singleton]
    by_cases hv : (s.devices dev).vm = vm
    · simp only [hv, beq_self_eq_true, if_true, cond_true]
    · simp only [beq_eq_false_iff_ne.mpr hv, hv, if_false, cond_false]
  change List.map _ ((s.registered ++ [dev]).filter _) = _
  rw [hfilter, List.map_append]
  congr 1
  · refine List.map_congr_left fun other ho => ?_
    have hne : other ≠ dev := fun hc => hnew (hc ▸ (List.mem_filter.mp ho).1)
    rw [entered_base hne]
  · split
    · rw [List.map_singleton, entered_self]
    · rfl

theorem WindowsOf.register (h : WindowsOf tr s) (hnew : dev ∉ s.registered)
    (hlt : baseGpa.toNat + relmVirtioMmioRegionSize.toNat < 2 ^ 64)
    (hwin : ∀ w ∈ s.windows (s.devices dev).vm, overlaps baseGpa relmVirtioMmioRegionSize w.gpaStart w.size = false) :
    WindowsOf (tr ++ [(.register dev baseGpa irq, .ok ())]) (s.entered dev baseGpa irq name) := by
  have hold : ∀ other ∈ s.registered, (s.entered dev baseGpa irq name).devices other = s.devices other :=
    fun other ho => entered_base fun hc => hnew (hc ▸ ho)
  have hbase : ((s.entered dev baseGpa irq name).devices dev).mmioBaseGpa = baseGpa := by
    rw [entered_self]
  -- the new window keeps off the windows of the other devices of its VM
  have hoff : ∀ other ∈ s.registered, (s.devices other).vm = (s.devices dev).vm →
      Apart (addresses baseGpa relmVirtioMmioRegionSize)
        (addresses (s.devices other).mmioBaseGpa relmVirtioMmioRegionSize) := by
    intro other ho hv
    obtain ⟨w, hw, hstart, hsize⟩ := h.window_of_mem ho
    rw [hv] at hw
    have hno := hwin w hw
    rw [hstart, hsize] at hno
    exact apart_of_not_overlaps hlt (h.below other ho) hno
  refine ⟨?_, fun vm => ?_, ?_, ?_, ?_⟩
  · refine List.Nodup.append h.entries (List.nodup_singleton dev) ?_
    intro a ha ha'
    exact hnew (List.mem_singleton.mp ha' ▸ ha)
  · rw [entered_ranges hnew, entered_windows, List.map_append, h.windows vm]
    congr 1
    split
    · rfl
    · rfl
  · intro other ho
    rcases List.mem_append.mp ho with ho | ho
    · rw [hold other ho]
      exact h.below other ho
    · rw [List.mem_singleton.mp ho, hbase]
      exact hlt
  · intro a ha b hb hne hv
    rw [entered_vm, entered_vm] at hv
    rcases List.mem_append.mp ha with ha' | ha' <;> rcases List.mem_append.mp hb with hb' | hb'
    · rw [hold a ha', hold b hb']
      exact h.apart a ha' b hb' hne hv
    · obtain rfl := List.mem_singleton.mp hb'
      rw [hold a ha', hbase]
      exact (hoff a ha' hv).symm
    · obtain rfl := List.mem_singleton.mp ha'
      rw [hold b hb', hbase]
      exact hoff b hb' hv.symm
    · exact absurd ((List.mem_singleton.mp ha').trans (List.mem_singleton.mp hb').symm) hne
  · rw [standing_concat, ← h.standing]
    change List.map _ (s.registered ++ [dev]) = _
    rw [List.map_append, List.map_singleton, hbase]
    congr 1
    refine List.map_congr_left fun other ho => ?_
    rw [hold other ho]

end Register

section Unregister

variable {tr : List (RegistryCall × Except Errno Unit)} {s : VirtioRegistry π} {dev : Nat}

theorem WindowsOf.distinct (h : WindowsOf tr s) (vm : Nat) :
    (s.windows vm).Pairwise fun v w => v.gpaStart ≠ w.gpaStart := by
  have hnodup := h.corresponds.starts vm
  rwa [List.Nodup, List.pairwise_map] at hnodup

/-- The devices of a VM without one are those whose windows start elsewhere. -/
private theorem filter_others (h : WindowsOf tr s) (hd : dev ∈ s.registered) :
    (s.registered.filter fun other => (s.devices other).vm == (s.devices dev).vm).filter
        (fun other => (s.devices other).mmioBaseGpa != (s.devices dev).mmioBaseGpa) =
      (s.registered.filter (· != dev)).filter fun other => (s.devices other).vm == (s.devices dev).vm := by
  rw [List.filter_filter, List.filter_filter]
  refine List.filter_congr fun other ho => ?_
  by_cases hv : (s.devices other).vm = (s.devices dev).vm
  · have hiff : (s.devices other).mmioBaseGpa = (s.devices dev).mmioBaseGpa ↔ other = dev :=
      ⟨fun heq => h.owns_unique ⟨ho, hv, heq⟩ ⟨hd, rfl, rfl⟩, fun heq => by rw [heq]⟩
    rw [beq_iff_eq.mpr hv, Bool.and_true, Bool.true_and, Bool.eq_iff_iff, bne_iff_ne, bne_iff_ne, ne_eq, ne_eq, hiff]
  · rw [beq_eq_false_iff_ne.mpr hv, Bool.and_false, Bool.false_and]

private theorem unregister_windows (h : WindowsOf tr s) (hd : dev ∈ s.registered) (vm : Nat) :
    ((s.relmVirtioMmioUnregisterDevice dev).windows vm).map (fun w => (w.gpaStart, w.size)) =
      ((s.registered.filter (· != dev)).filter fun other => (s.devices other).vm == vm).map fun other =>
        ((s.devices other).mmioBaseGpa, relmVirtioMmioRegionSize) := by
  rw [VirtioRegistry.relmVirtioMmioUnregisterDevice, if_pos (List.contains_iff_mem.mpr hd)]
  unfold VirtioRegistry.windows
  dsimp only
  by_cases hv : vm = (s.devices dev).vm
  · obtain rfl := hv
    rw [Function.update_self, relmVmReleaseMmioRegion]
    dsimp only
    have hfilter := eraseP_eq_filter (a := (s.devices dev).mmioBaseGpa) (h.distinct (s.devices dev).vm)
    rw [VirtioRegistry.windows] at hfilter
    have hold := congrArg (List.filter fun x : U64 × U64 => x.1 != (s.devices dev).mmioBaseGpa)
      (h.windows (s.devices dev).vm)
    rw [List.filter_map, List.filter_map] at hold
    rw [hfilter, ← filter_others h hd]
    exact hold
  · rw [Function.update_of_ne hv]
    refine (h.windows vm).trans ?_
    congr 1
    rw [List.filter_filter]
    refine List.filter_congr fun other _ => ?_
    by_cases ho : other = dev
    · rw [ho, beq_eq_false_iff_ne.mpr (Ne.symm hv), Bool.false_and]
    · rw [bne_iff_ne.mpr ho, Bool.and_true]

theorem WindowsOf.unregister (h : WindowsOf tr s) (dev : Nat) :
    WindowsOf (tr ++ [(.unregister dev, .ok ())]) (s.relmVirtioMmioUnregisterDevice dev) := by
  have hreg : (s.relmVirtioMmioUnregisterDevice dev).registered = s.registered.filter (· != dev) := by
    rw [VirtioRegistry.relmVirtioMmioUnregisterDevice]
    split
    · exact h.entries.erase_eq_filter dev
    · rename_i hno
      refine (List.filter_eq_self.mpr fun other ho => bne_iff_ne.mpr fun heq => ?_).symm
      exact hno (List.contains_iff_mem.mpr (heq ▸ ho))
  have hdev : (s.relmVirtioMmioUnregisterDevice dev).devices = s.devices := by
    rw [VirtioRegistry.relmVirtioMmioUnregisterDevice]
    split <;> rfl
  refine ⟨?_, fun vm => ?_, ?_, ?_, ?_⟩ <;> rw [hreg] <;> try simp only [hdev]
  · exact h.entries.filter _
  · by_cases hd : dev ∈ s.registered
    · exact unregister_windows h hd vm
    · have hsame : s.relmVirtioMmioUnregisterDevice dev = s :=
        if_neg fun hc => hd (List.contains_iff_mem.mp hc)
      rw [← hreg, hsame]
      exact h.windows vm
  · intro other ho
    exact h.below other (List.mem_filter.mp ho).1
  · intro a ha b hb
    exact h.apart a (List.mem_filter.mp ha).1 b (List.mem_filter.mp hb).1
  · rw [standing_concat, ← h.standing]
    dsimp only
    rw [List.filter_map]
    rfl

end Unregister

namespace WindowsOf

variable {tr : List (RegistryCall × Except Errno Unit)} {s : VirtioRegistry π}

theorem step (c : RegistryCall) (h : WindowsOf tr s) (hc : c.Clean s) :
    WindowsOf (tr ++ [(c, (c.exec s).1)]) (c.exec s).2 := by
  cases c with
  | register dev baseGpa irq =>
    rcases registerDevice_cases s dev baseGpa irq with ⟨e, he, -⟩ | ⟨name, he, hroom, hok, hwin⟩
    · simp only [RegistryCall.exec, he]
      exact ⟨h.entries, h.windows, h.below, h.apart, by rw [standing_concat]; exact h.standing⟩
    · obtain ⟨hnew, hlt⟩ := hc hroom hok
      simp only [RegistryCall.exec, he]
      exact h.register hnew hlt hwin
  | unregister dev => exact h.unregister dev

/-- A step that is not clean breaks the correspondence at once. -/
theorem fails (c : RegistryCall) (hc : ¬ c.Clean s) : ¬ Corresponds (tr ++ [(c, (c.exec s).1)]) (c.exec s).2 := by
  intro hcor
  cases c with
  | register dev baseGpa irq =>
    rcases registerDevice_cases s dev baseGpa irq with ⟨e, -, hno⟩ | ⟨name, he, hroom, hok, -⟩
    · exact hc fun hroom hok => hno _ hroom hok
    · simp only [RegistryCall.exec, he] at hcor
      refine hc fun _ _ => ⟨fun hd => ?_, ?_⟩
      · have hnodup : (s.registered ++ [dev]).Nodup := hcor.entries
        exact (List.nodup_append.mp hnodup).2.2 dev hd dev (List.mem_singleton_self dev) rfl
      · by_contra htop
        have hw : (⟨baseGpa, relmVirtioMmioRegionSize, name⟩ : MmioRegion) ∈
            (s.entered dev baseGpa irq name).windows (s.devices dev).vm := by
          rw [entered_windows, if_pos rfl]
          exact List.mem_append_right _ List.mem_cons_self
        -- the end of the window is computed modulo 2^64, so that no address lies below it
        obtain ⟨owner, ⟨-, -, hbase⟩, hfind⟩ := hcor.found _ _ hw baseGpa (start_self baseGpa)
        have htest := List.find?_some hfind
        simp only [hbase, Bool.and_eq_true, decide_eq_true_eq, BitVec.lt_def] at htest
        have hend := htest.2
        rw [BitVec.toNat_add] at hend
        have hlt := baseGpa.isLt
        have hsize : relmVirtioMmioRegionSize.toNat = 4096 := rfl
        omega
  | unregister dev => exact hc trivial

end WindowsOf

/-- From an empty registry and VMs without windows: over every run of registrations and unregistrations, registered
entries and reserved windows correspond in every state reached exactly when no registered device is registered again
and no window reaches the top of the address space. -/
theorem registry_corresponds_iff (s : VirtioRegistry π) (hreg : s.registered = []) (hwin : ∀ vm, s.windows vm = [])
    (calls : List RegistryCall) :
    Throughout RegistryCall.exec Corresponds [] s calls ↔ Admitted RegistryCall.exec RegistryCall.Clean s calls := by
  refine throughout_iff_admitted (fun _ _ h => WindowsOf.corresponds h) (fun _ _ c h => h.step c)
    (fun _ _ c _ => WindowsOf.fails c) ?_ calls
  refine ⟨?_, fun vm => ?_, ?_, ?_, ?_⟩ <;> rw [hreg]
  · exact List.nodup_nil
  · rw [hwin vm]
    rfl
  · intro dev hd
    cases hd
  · intro a ha
    cases ha
  · rfl

/-- No device registered; devices 0 and 1 of VM 0, the others of VM 1. -/
private def idleRegistry : VirtioRegistry Unit where
  registered := []
  slots _ := .zero
  dummy := .zero
  devices i :=
    { deviceId := 2, mmioBaseGpa := 0, irq := 0, vm := if i < 2 then 0 else 1, status := 0, guestFeatures := 0, isr := 0
      queues := [⟨128, 0, 0, 0, 0, false⟩], name := "virtio-blk", priv := () }
  memories _ := { memRegions := [], totalGuestRam := 0, mmioRegions := [] }

/-- The same window in two VMs, a registration that fails, and an unregistration. -/
theorem registry_corresponds_two_vms : Throughout RegistryCall.exec Corresponds [] idleRegistry
    [.register 0 0xD0000000#64 5#32, .register 2 0xD0000000#64 5#32, .register 0 0xD0000000#64 5#32, .unregister 0] := by
  refine (registry_corresponds_iff idleRegistry rfl (fun _ => rfl) _).mpr ⟨?_, ?_, ?_, trivial, trivial⟩
  · exact fun _ _ => ⟨by decide, by decide⟩
  · exact fun _ _ => ⟨by decide, by decide⟩
  · intro _ hok
    exact absurd hok (by decide)

/-- A device registered twice: its first window stays reserved after both unregistrations. -/
theorem reregistered_window_leaks :
    ¬ Throughout RegistryCall.exec Corresponds [] idleRegistry
      [.register 0 0xD0000000#64 5#32, .register 0 0xD0001000#64 5#32, .unregister 0, .unregister 0] ∧
    (run RegistryCall.exec idleRegistry [.register 0 0xD0000000#64 5#32, .register 0 0xD0001000#64 5#32, .unregister 0,
      .unregister 0]).2.registered = [] ∧
    ((run RegistryCall.exec idleRegistry [.register 0 0xD0000000#64 5#32, .register 0 0xD0001000#64 5#32, .unregister 0,
      .unregister 0]).2.windows 0).map MmioRegion.gpaStart = [0xD0000000#64] := by
  refine ⟨fun h => ?_, by decide, by decide⟩
  have hnodup : ([0, 0] : List Nat).Nodup := h.2.2.1.entries
  exact absurd hnodup (by decide)

end Relm.Virtio
