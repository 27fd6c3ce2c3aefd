import Relm.Vm.Create
import Relm.Vmx.VcpuAlloc

/-! The memory of a VM and of its VMX VCPUs together: from `relm_create_vm` through any additions of VCPUs to
`relm_destroy_vm`. -/
namespace Relm.Vm
open Relm.Ept Relm.Ept.EptState Relm.Host Relm.Vmx.VcpuAlloc

/-- A VM with its VCPU table, and the memory behind the VCPU of each number. -/
structure VmxVm where
  vm : RelmVm
  cpus : VmCpus
  owned : BitVec 16 → Option VmxVcpu

namespace VmxVm

/-- A VM as `relm_create_vm` returns it. -/
def new (vm : RelmVm) : VmxVm := ⟨vm, VmCpus.empty vm.vcpus.length, fun _ => none⟩

def host (s : VmxVm) : Host := s.vm.vm.host
def withHost (s : VmxVm) (h : Host) : VmxVm := { s with vm := { s.vm with vm := { s.vm.vm with host := h } } }

@[simp] theorem withHost_host (s : VmxVm) (h : Host) : (s.withHost h).host = h := rfl
@[simp] theorem withHost_cpus (s : VmxVm) (h : Host) : (s.withHost h).cpus = s.cpus := rfl
@[simp] theorem withHost_owned (s : VmxVm) (h : Host) : (s.withHost h).owned = s.owned := rfl

/-- `relm_vm_add_vcpu` with the operations of VMX; `none` when an access leaves the array. The registers of the new
`struct vcpu` are zero. -/
def addVcpu (size : BitVec 13) (revision : U32) (s : VmxVm) (vpid : Int) : Option (Except Errno Unit × VmxVm) :=
  if !vpidIsValid vpid s.cpus.maxVcpus then some (.error .einval, s)
  else
    match s.cpus.slot (vpidToIndex vpid) with
    | none => none
    | some (some _) => some (.error .eexist, s)
    | some none =>
      match Vmx.VcpuAlloc.relmVcpuCreate size revision 0 0 s.host with
      | (.error e, h) => some (.error e, s.withHost h)
      | (.ok v, h) =>
        (s.cpus.put (vpidToIndex vpid) ⟨BitVec.ofInt 16 vpid, .initialized, false, none⟩).map fun cpus =>
          (.ok (), { s.withHost h with cpus, owned := Function.update s.owned (BitVec.ofInt 16 vpid) (some v) })

/-- `relm_destroy_vm`; stopping the threads returns no memory. -/
def destroy (size : BitVec 13) (s : VmxVm) : Host :=
  relmDestroyVm (fun v h => (s.owned v.vpid).elim h fun m => relmVcpuFree size m h) { s.vm with vcpus := s.cpus.vcpus }

/-- Additions in a row, whatever they return. -/
def addVcpus (size : BitVec 13) (revision : U32) (s : VmxVm) (vpids : List Int) : Option VmxVm :=
  vpids.foldlM (fun s vpid => (s.addVcpu size revision vpid).map Prod.snd) s

/-- On the VCPU table the addition is the one of the table layer. -/
theorem addVcpu_table (size : BitVec 13) (revision : U32) (s : VmxVm) (vpid : Int) :
    (s.addVcpu size revision vpid).map (fun r => (r.1, r.2.cpus)) =
      relmVmAddVcpu .vmx ((Vmx.VcpuAlloc.relmVcpuCreate size revision 0 0 s.host).1.map fun _ => ()) s.cpus vpid := by
  rw [addVcpu, relmVmAddVcpu]
  cases hv : vpidIsValid vpid s.cpus.maxVcpus with
  | false => rfl
  | true =>
    simp only [Bool.not_true, Bool.false_eq_true, if_false]
    cases s.cpus.slot (vpidToIndex vpid) with
    | none => rfl
    | some slot =>
      cases slot with
      | some v => rfl
      | none =>
        simp only [Backend.addVcpu, vmxAddVcpu, relmVcpuCreate]
        generalize Vmx.VcpuAlloc.relmVcpuCreate size revision 0 0 s.host = r
        obtain ⟨ret, h⟩ := r
        cases ret with
        | error e => rfl
        | ok v =>
          simp only [Except.map, Option.map_map]
          rfl

end VmxVm

/-- The pages and the objects behind a slot of the table. -/
def slotPages (size : BitVec 13) (owned : BitVec 16 → Option VmxVcpu) (slot : Option Vcpu) : List U64 :=
  slot.elim [] fun v => (owned v.vpid).elim [] (VmxVcpu.pages size)

def slotObjs (owned : BitVec 16 → Option VmxVcpu) (slot : Option Vcpu) : List Nat :=
  slot.elim [] fun v => (owned v.vpid).elim [] fun m => [m.obj]

/-- Over the host as the VM was created, exactly the memory of the VCPUs in the table is handed out besides. -/
structure Stocked (size : BitVec 13) (h1 : Host) (s : VmxVm) : Prop where
  owns : Owns h1 s.host (s.cpus.vcpus.flatMap (slotPages size s.owned)) (s.cpus.vcpus.flatMap (slotObjs s.owned))
  length : s.cpus.vcpus.length = s.cpus.maxVcpus
  small : s.cpus.maxVcpus < 2 ^ 16
  numbers : ∀ (i : Nat) v, s.cpus.vcpus[i]? = some (some v) → v.vpid.toNat = i + 1

section

variable {size : BitVec 13} {revision : U32} {h0 h1 h : Host} {s s' : VmxVm} {pages : List U64} {objs : List Nat}

/-- Filling an empty slot puts what the new entry stands for before the rest. -/
private theorem flatMap_set {α β : Type*} {l : List α} {i : Nat} {x : α} {f g : α → List β} (hi : i < l.length)
    (hnil : f l[i] = []) (hsame : ∀ (j : Nat) y, j ≠ i → l[j]? = some y → g y = f y) :
    ((l.set i x).flatMap g).Perm (g x ++ l.flatMap f) := by
  have hl : l = l.take i ++ l[i] :: l.drop (i + 1) := by
    rw [List.cons_getElem_drop_succ, List.take_append_drop]
  have hbefore : (l.take i).flatMap g = (l.take i).flatMap f := by
    refine List.flatMap_congr fun y hy => ?_
    obtain ⟨j, hj⟩ := List.mem_iff_getElem?.mp hy
    rw [List.getElem?_take] at hj
    split at hj
    · exact hsame j y (by omega) hj
    · cases hj
  have hafter : (l.drop (i + 1)).flatMap g = (l.drop (i + 1)).flatMap f := by
    refine List.flatMap_congr fun y hy => ?_
    obtain ⟨j, hj⟩ := List.mem_iff_getElem?.mp hy
    rw [List.getElem?_drop] at hj
    exact hsame (i + 1 + j) y (by omega) hj
  have hrest : l.flatMap f = (l.take i).flatMap f ++ (l.drop (i + 1)).flatMap f := by
    conv_lhs => rw [hl]
    rw [List.flatMap_append, List.flatMap_cons, hnil, List.nil_append]
  rw [List.set_eq_take_append_cons_drop, if_pos hi, List.flatMap_append, List.flatMap_cons, hbefore, hafter, hrest,
    ← List.append_assoc, ← List.append_assoc]
  exact List.perm_append_comm.append_right _

/-- Adding a VCPU never leaves the array, and accounts for all that it allocates. -/
theorem Stocked.addVcpu (k : Stocked size h1 s) (revision : U32) (vpid : Int) :
    ∃ ret s', s.addVcpu size revision vpid = some (ret, s') ∧ Stocked size h1 s' ∧ s'.vm = (s.withHost s'.host).vm := by
  rw [VmxVm.addVcpu]
  by_cases hv : vpidIsValid vpid s.cpus.maxVcpus = true
  swap
  · rw [if_pos (by simp [hv])]
    exact ⟨_, s, rfl, k, rfl⟩
  rw [if_neg (by simp [hv])]
  obtain ⟨h1', h2'⟩ := (Placed.valid_iff _ _).mp hv
  have hlen := k.length
  have hlt : (vpid - 1).toNat < s.cpus.vcpus.length := by omega
  have hslot : s.cpus.slot (vpidToIndex vpid) = some s.cpus.vcpus[(vpid - 1).toNat] := by
    rw [VmCpus.slot, vpidToIndex, if_pos (by omega), List.getElem?_eq_getElem hlt]
  rw [hslot]
  cases hc : s.cpus.vcpus[(vpid - 1).toNat] with
  | some v => exact ⟨_, s, rfl, k, rfl⟩
  | none =>
    dsimp only
    rcases relmVcpuCreate_spec size revision 0 0 k.owns with
      ⟨h2, hr, k2⟩ | ⟨v, h2, hr, k2⟩
    · rw [hr]
      exact ⟨_, _, rfl, ⟨k2, k.length, k.small, k.numbers⟩, rfl⟩
    rw [hr]
    dsimp only
    rw [VmCpus.put, vpidToIndex, if_pos ⟨by omega, hlt⟩, Option.map_some]
    have hnum : (BitVec.ofInt 16 vpid).toNat = (vpid - 1).toNat + 1 := by
      have hs := k.small
      rw [BitVec.toNat_ofInt]
      omega
    have hother : ∀ (j : Nat) slot, j ≠ (vpid - 1).toNat → s.cpus.vcpus[j]? = some slot →
        ∀ w, slot = some w → Function.update s.owned (BitVec.ofInt 16 vpid) (some v) w.vpid = s.owned w.vpid := by
      rintro j slot hj hs w rfl
      refine Function.update_of_ne ?_ ..
      rintro heq
      have hw := k.numbers j w hs
      rw [heq, hnum] at hw
      omega
    have hself : Function.update s.owned (BitVec.ofInt 16 vpid) (some v) (BitVec.ofInt 16 vpid) = some v :=
      Function.update_self ..
    refine ⟨_, _, rfl, ⟨?_, ?_, k.small, ?_⟩, rfl⟩
    · have hpages := flatMap_set (x := some ⟨BitVec.ofInt 16 vpid, .initialized, false, none⟩) (f := slotPages size s.owned)
        (g := slotPages size (Function.update s.owned (BitVec.ofInt 16 vpid) (some v))) hlt (by rw [hc]; rfl) (by
          intro j slot hj hs
          cases slot with
          | none => rfl
          | some w => simp only [slotPages, Option.elim_some, hother j _ hj hs w rfl])
      have hobjs := flatMap_set (x := some ⟨BitVec.ofInt 16 vpid, .initialized, false, none⟩) (f := slotObjs s.owned)
        (g := slotObjs (Function.update s.owned (BitVec.ofInt 16 vpid) (some v))) hlt (by rw [hc]; rfl) (by
          intro j slot hj hs
          cases slot with
          | none => rfl
          | some w => simp only [slotObjs, Option.elim_some, hother j _ hj hs w rfl])
      rw [show slotPages size _ (some _) = v.pages size by simp only [slotPages, Option.elim_some, hself]] at hpages
      rw [show slotObjs _ (some _) = [v.obj] by simp only [slotObjs, Option.elim_some, hself]] at hobjs
      exact (k2.perm hpages.symm).permObjs hobjs.symm
    · simpa using k.length
    · intro i w hi
      rw [List.getElem?_set] at hi
      by_cases hi' : (vpid - 1).toNat = i
      · rw [if_pos hi', if_pos (hi' ▸ hlt)] at hi
        obtain rfl := Option.some.inj (Option.some.inj hi)
        rw [hnum, hi']
      · rw [if_neg hi'] at hi
        exact k.numbers i w hi

/-- Over any additions. -/
theorem Stocked.addVcpus (k : Stocked size h1 s) (revision : U32) (vpids : List Int) :
    ∃ s', s.addVcpus size revision vpids = some s' ∧ Stocked size h1 s' ∧ s'.vm = (s.withHost s'.host).vm := by
  induction vpids generalizing s with
  | nil => exact ⟨s, rfl, k, rfl⟩
  | cons vpid vpids ih =>
    obtain ⟨ret, t, ht, kt, hvm⟩ := k.addVcpu revision vpid
    obtain ⟨s', hs', k', hvm'⟩ := ih kt
    refine ⟨s', ?_, k', ?_⟩
    · rw [VmxVm.addVcpus, List.foldlM_cons, ht]
      exact hs'
    · rw [hvm', VmxVm.withHost, VmxVm.withHost, hvm]
      rfl

/-- What `relm_destroy_vm` does for one slot. -/
private def freeSlot (size : BitVec 13) (owned : BitVec 16 → Option VmxVcpu) (h : Host) (slot : Option Vcpu) : Host :=
  slot.elim h fun v => (owned v.vpid).elim h fun m => relmVcpuFree size m h

private theorem freeSlot_spec {owned : BitVec 16 → Option VmxVcpu} {slot : Option Vcpu}
    (k : Owns h1 h (slotPages size owned slot ++ pages) (slotObjs owned slot ++ objs)) :
    Owns h1 (freeSlot size owned h slot) pages objs := by
  cases slot with
  | none => exact k
  | some v =>
    simp only [slotPages, slotObjs, freeSlot, Option.elim_some] at k ⊢
    cases hm : owned v.vpid with
    | none =>
      rw [hm] at k
      exact k
    | some m =>
      rw [hm] at k
      rw [Option.elim_some]
      exact relmVcpuFree_spec (v := m) k

/-- Freeing the VCPUs of a table, slot by slot. -/
private theorem freeVcpus {owned : BitVec 16 → Option VmxVcpu} {slots : List (Option Vcpu)} (pages : List U64) (objs : List Nat)
    (k : Owns h1 h (slots.flatMap (slotPages size owned) ++ pages) (slots.flatMap (slotObjs owned) ++ objs)) :
    Owns h1 (slots.foldl (freeSlot size owned) h) pages objs := by
  induction slots generalizing h with
  | nil => exact k
  | cons slot slots ih =>
    rw [List.flatMap_cons, List.flatMap_cons, List.append_assoc, List.append_assoc] at k
    rw [List.foldl_cons]
    exact ih (freeSlot_spec k)

/-- What a VM that `relm_create_vm` returns stands for: an account that destroying guest memory and the EPT settles. -/
structure Settles (h0 : Host) (vm : RelmVm) (pages : List U64) (objs : List Nat) : Prop where
  ledger : Ledger h0 vm.vm pages (vm.vcpusObj :: objs)
  freeable : ∀ host : Host, Ledger h0 { vm.vm with host } pages objs →
    Ledger h0 (relmVmFreeGuestMem { vm.vm with host }) [] [vm.obj]
  empty : ∃ n < 2 ^ 16, vm.vcpus = List.replicate n none

private theorem createVcpus_settles {obj : Nat} {pml4Gpa : U64} {t : VmState} {vm : RelmVm} (k : Ledger h0 t pages objs)
    (hfree : ∀ host : Host, Ledger h0 { t with host } pages objs → Ledger h0 (relmVmFreeGuestMem { t with host }) [] [obj])
    (h : createVcpus obj pml4Gpa t = .vm vm) : Settles h0 vm pages objs := by
  rw [createVcpus] at h
  rcases t.host.kzalloc_cases with hk | hk
  · rw [hk] at h
    cases h
  · rw [hk] at h
    cases h
    exact ⟨k.slabTake, fun host => hfree host, relmMaxVcpus, by decide, rfl⟩

/-- Every way in which `relm_create_vm` returns a VM. -/
theorem relmCreateVm_settles {supported : Bool} {ramSize : U64} {vm : RelmVm} (h : Host)
    (hc : relmCreateVm supported ramSize h = .ok (.vm vm)) : ∃ pages objs, Settles h vm pages objs := by
  rw [relmCreateVm] at hc
  rcases h.kzalloc_cases with hk | hk
  · rw [hk] at hc
    cases hc
  rw [hk] at hc
  dsimp only at hc
  rcases setupEpt_spec supported (Host.Holds.start h).slabTake with ⟨e, h2, hs, -⟩ | ⟨ept, h2, hs, k2⟩
  · rw [hs] at hc
    cases hc
  rw [hs] at hc
  dsimp only at hc
  by_cases hram : ramSize > 0
  swap
  · rw [if_neg hram] at hc
    exact ⟨[], [h.slabNext], createVcpus_settles k2 (fun host kh => ⟨kh.shape, kh.noBlocks, kh.holds, kh.apart⟩)
      (Except.ok.inj hc)⟩
  rw [if_pos hram] at hc
  rcases k2.allocateGuestRam ramSize 0 with ⟨⟨e, he⟩, -⟩ | ⟨hok, obj, pagesObj, frames, hlen, hmem, k3⟩
  · generalize relmVmAllocateGuestRam (VmState.created h2 ept) ramSize 0 = r at he hc
    obtain ⟨ret, t⟩ := r
    obtain rfl : ret = .error e := he
    cases hc
  · generalize relmVmAllocateGuestRam (VmState.created h2 ept) ramSize 0 = r at hok hmem k3 hc
    obtain ⟨ret, t⟩ := r
    obtain rfl : ret = .ok () := hok
    obtain ⟨hone, htotal⟩ := OneRegion.of_created hlen hmem
    rw [List.append_nil] at k3
    obtain ⟨ret, host, htables, k4, -⟩ := hone.createGuestPageTables k3 rfl htotal
    simp only [createTables, htables, bind, Except.bind] at hc
    cases ret with
    | error e => cases hc
    | ok pml4Gpa =>
      exact ⟨frames, _, createVcpus_settles k4 (fun host' kh => kh.freeGuestMem (hone.withHost host')) (Except.ok.inj hc)⟩

private theorem relmDestroyVm_eq (stopAndFree : Vcpu → Host → Host) (vm : RelmVm) : relmDestroyVm stopAndFree vm =
    (relmEptContextDestroy (relmVmFreeGuestMem { vm.vm with
      host := (vm.vcpus.foldl (fun h slot => slot.elim h fun v => stopAndFree v h) vm.vm.host).kfree vm.vcpusObj }).eptState).kfree
        vm.obj := by
  refine congrArg (fun f : Host → Option Vcpu → Host => (relmEptContextDestroy (relmVmFreeGuestMem { vm.vm with
    host := (vm.vcpus.foldl f vm.vm.host).kfree vm.vcpusObj }).eptState).kfree vm.obj) ?_
  funext h slot
  cases slot <;> rfl

/-- Destroying a VM with the VCPUs of its table, whose memory comes on top of the VM's. -/
theorem Settles.destroy {vm : RelmVm} (k : Settles h0 vm pages objs) (ks : Stocked size vm.vm.host s)
    (hvm : s.vm = { vm with vm := { vm.vm with host := s.host } }) : h0.Holds (s.destroy size) [] [] := by
  have hfree := freeVcpus [] [] (by
    rw [List.append_nil, List.append_nil]
    exact ks.owns)
  set h2 := s.cpus.vcpus.foldl (freeSlot size s.owned) s.host with hh2
  have kl : Ledger h0 { vm.vm with host := h2 } pages (vm.vcpusObj :: objs) := by
    refine k.ledger.ofHost (fun f hf => ?_) ?_ k.ledger.apart
    · exact hfree.frame f (k.ledger.holds.mem_live (List.mem_append_right _ hf))
    · simpa only [List.nil_append] using k.ledger.holds.trans hfree.holds
  have hd : s.destroy size =
      (relmEptContextDestroy (relmVmFreeGuestMem { vm.vm with host := h2.kfree vm.vcpusObj }).eptState).kfree vm.obj := by
    rw [VmxVm.destroy, relmDestroyVm_eq, hvm]
    rfl
  rw [hd]
  exact (k.freeable _ kl.kfree).destroy.kfree

end

/-- Whatever VCPUs are added after `relm_create_vm`, with any numbers and any allocation failing, no addition leaves the
array, and `relm_destroy_vm` then gives back every page and object exactly once. -/
theorem vm_whole_life_balanced {supported : Bool} {ramSize : U64} {h : Host} {vm : RelmVm}
    (hc : relmCreateVm supported ramSize h = .ok (.vm vm)) (size : BitVec 13) (revision : U32) (vpids : List Int) :
    ∃ s, (VmxVm.new vm).addVcpus size revision vpids = some s ∧ h.Holds (s.destroy size) [] [] := by
  obtain ⟨pages, objs, k⟩ := relmCreateVm_settles h hc
  obtain ⟨n, hn, hempty⟩ := k.empty
  have hstart : Stocked size vm.vm.host (VmxVm.new vm) := by
    have hlen : vm.vcpus.length = n := by rw [hempty, List.length_replicate]
    refine ⟨?_, ?_, ?_, ?_⟩
    · simp only [VmxVm.new, VmCpus.empty, List.flatMap_replicate, slotPages, slotObjs, Option.elim_none, List.flatten_replicate_nil]
      exact .start _
    · simp [VmxVm.new, VmCpus.empty]
    · simpa [VmxVm.new, VmCpus.empty, hlen] using hn
    · intro i v hi
      simp [VmxVm.new, VmCpus.empty, List.getElem?_replicate] at hi
  obtain ⟨s, hs, ks, hvm⟩ := hstart.addVcpus revision vpids
  exact ⟨s, hs, k.destroy ks hvm⟩

section Sample

/-- Memory for a VM without guest RAM, a failing allocation, and memory for one VCPU. -/
private def retryHost : Host :=
  Host.idle (some 0x1000#64 :: none :: [0x4000#64, 0x8000#64, 0x9000#64, 0xA000#64, 0xC000#64, 0xE000#64, 0xF000#64,
    0x10000#64, 0x11000#64].map some) [true, true, true, true, true]

/-- The first addition is refused its stack, what is left is enough for the second, and two more are refused. -/
private theorem retry_added : ∃ vm s, relmCreateVm true 0#64 retryHost = .ok (.vm vm) ∧
    (VmxVm.new vm).addVcpus 0x1000#13 7#32 [1, 1, 1, 2] = some s ∧ s.cpus.vcpus = [some ⟨1, .initialized, false, none⟩] := by
  obtain ⟨vm, h, hvm, hrefused, hcpus, v, h', hcreated⟩ : ∃ vm h, relmCreateVm true 0#64 retryHost = .ok (.vm vm) ∧
      Vmx.VcpuAlloc.relmVcpuCreate 0x1000#13 7#32 0 0 (VmxVm.new vm).host = (.error .enomem, h) ∧
      (VmxVm.new vm).cpus = ⟨.initialized, 1, 0, [none]⟩ ∧
      ∃ v h', Vmx.VcpuAlloc.relmVcpuCreate 0x1000#13 7#32 0 0 h = (.ok v, h') := by
    refine ⟨_, _, rfl, rfl, rfl, ?_⟩
    refine @relmVcpuCreate_ok _ 0x1000#13 7#32 0 0 0x4000#64 0x8000#64 0x9000#64 0xA000#64 0xC000#64 0xE000#64 0xF000#64
      0x10000#64 0x11000#64 rfl ?_
    decide +kernel
  have hfirst : (VmxVm.new vm).addVcpu 0x1000#13 7#32 1 = some (.error .enomem, (VmxVm.new vm).withHost h) := by
    rw [VmxVm.addVcpu, hcpus, hrefused]
    rfl
  obtain ⟨t, hsecond, htable⟩ : ∃ t, ((VmxVm.new vm).withHost h).addVcpu 0x1000#13 7#32 1 = some (.ok (), t) ∧
      t.cpus = ⟨.initialized, 1, 1, [some ⟨1, .initialized, false, none⟩]⟩ := by
    rw [VmxVm.addVcpu, VmxVm.withHost_cpus, hcpus, VmxVm.withHost_host, hcreated]
    exact ⟨_, rfl, rfl⟩
  have hthird : t.addVcpu 0x1000#13 7#32 1 = some (.error .eexist, t) := by
    rw [VmxVm.addVcpu, htable]
    rfl
  have hfourth : t.addVcpu 0x1000#13 7#32 2 = some (.error .einval, t) := by
    rw [VmxVm.addVcpu, htable]
    rfl
  refine ⟨vm, t, hvm, ?_, by rw [htable]⟩
  simp only [VmxVm.addVcpus, List.foldlM_cons, List.foldlM_nil, hfirst, hsecond, hthird, hfourth, Option.map_some,
    Option.bind_eq_bind, Option.bind_some]
  rfl

theorem vm_whole_life_balanced_one_vcpu : ∃ vm s, relmCreateVm true 0#64 retryHost = .ok (.vm vm) ∧
    (VmxVm.new vm).addVcpus 0x1000#13 7#32 [1, 1, 1, 2] = some s ∧ s.cpus.vcpus = [some ⟨1, .initialized, false, none⟩] ∧
    retryHost.Holds (s.destroy 0x1000#13) [] [] := by
  obtain ⟨vm, s, hvm, hs, hadded⟩ := retry_added
  obtain ⟨s', hs', hholds⟩ := vm_whole_life_balanced hvm 0x1000#13 7#32 [1, 1, 1, 2]
  obtain rfl : s = s' := Option.some.inj (hs.symm.trans hs')
  exact ⟨vm, s, hvm, hs, hadded, hholds⟩

end Sample

end Relm.Vm
