import Relm.Host.Supplied
import Relm.Vm.GuestBytes

/-! Creating a VM on a host that has the pages and the slab objects for it. -/
namespace Relm

namespace Vm
open Relm.Ept Relm.Ept.EptState

section Tables

variable {s : EptState} {pages objs : Nat} {gpa hpa flags : U64}

/-- A table is found or created. -/
private theorem getOrCreate_supplied (k : s.host.Supplied (pages + 1) objs) (table : U64) (idx : Fin 512) :
    ∃ pa t, relmEptGetOrCreateTable s table idx = (some pa, t) ∧ t.host.Supplied pages objs := by
  unfold relmEptGetOrCreateTable
  dsimp only
  split
  · exact ⟨_, s, rfl, k.mono (Nat.le_succ _)⟩
  · obtain ⟨pa, -, hr, hk⟩ := k.getFreePage
    simp only [hr]
    exact ⟨pa, _, rfl, hk.congr rfl rfl rfl rfl⟩

/-- A page is mapped with at most three new tables. -/
theorem mapPage_supplied (k : s.host.Supplied (pages + 3) objs) (hg : eptIs4kbAligned gpa = true)
    (hp : eptIs4kbAligned hpa = true) (hf : present flags = true) :
    (relmEptMapPage s gpa hpa flags).ret = .ok () ∧ (relmEptMapPage s gpa hpa flags).next.host.Supplied pages objs := by
  unfold relmEptMapPage
  simp only [hg, hp, hf, Bool.not_true, Bool.or_self, Bool.false_eq_true, if_false]
  obtain ⟨pdpt, s1, e1, k1⟩ := getOrCreate_supplied k s.ctx.pml4 (eptPml4Index gpa)
  simp only [e1]
  obtain ⟨pd, s2, e2, k2⟩ := getOrCreate_supplied k1 pdpt (eptPdptIndex gpa)
  simp only [e2]
  obtain ⟨pt, s3, e3, k3⟩ := getOrCreate_supplied k2 pd (eptPdIndex gpa)
  simp only [e3]
  refine ⟨trivial, k3.congr ?_ ?_ ?_ ?_⟩ <;> unfold count4kb setEntry <;> split <;> rfl

end Tables

section Create

variable {s : VmState} {pages objs : Nat}

/-- The page loop takes at most four frames a pass. -/
private theorem ramLoop_supplied (left i : Nat) (done : List U64) (k : s.host.Supplied (pages + 4 * left) objs) :
    (ramLoop 0 left i done s).ret = .ok () ∧ (ramLoop 0 left i done s).next.host.Supplied pages objs := by
  induction left generalizing i done s with
  | zero => exact ⟨rfl, k⟩
  | succ left ih =>
    unfold ramLoop
    have kmore : s.host.Supplied (pages + 4 * left + 3 + 1) objs := k.mono (by omega)
    obtain ⟨pa, hav, hr, hk⟩ := kmore.getFreePage
    simp only [hr]
    have hg : eptIs4kbAligned (0 + BitVec.ofNat 64 i * pageSize) = true := by
      rw [is4kbAligned_iff, show (0 : U64) = 0#64 from rfl, BitVec.zero_add, BitVec.toNat_mul,
        show pageSize.toNat = 4096 from rfl]
      omega
    obtain ⟨hret, hnext⟩ := mapPage_supplied (s := { s with host := s.host.take pa }.eptState) hk hg
      ((is4kbAligned_iff pa).mpr hav.1.1) (show present (vmxEptFlags relmRamFlags) = true by decide)
    unfold vmxMemMapPage
    generalize relmEptMapPage _ _ pa _ = r at hret hnext
    obtain ⟨ret, next, path⟩ := r
    obtain rfl : ret = .ok () := hret
    exact ih (i + 1) (done ++ [pa]) hnext

private theorem writeBytes_slabAnswers (h : Host) (pa : U64) (off : Nat) (data : List Byte) :
    (h.writeBytes pa off data).slabAnswers = h.slabAnswers := by
  induction data generalizing h off with
  | nil => rfl
  | cons b data ih => exact ih (h.setByte pa off b) (off + 1)

private theorem copyToGuest_slabAnswers {t : VmState} {gpa : U64} {data : List Byte} {ret : Int}
    (hl : ∀ r ∈ s.memory.memRegions, r.Linked) (h : relmVmCopyToGuest s gpa data = .ok (ret, t)) :
    t.host.slabAnswers = s.host.slabAnswers ∧ t.memory = s.memory := by
  unfold relmVmCopyToGuest at h
  split at h
  · cases h
    exact ⟨rfl, rfl⟩
  rcases @accessLoop_spec Host s.memory.memRegions gpa hl true
    (fun page off copied n (host : Host) => host.writeBytes page off ((data.drop copied).take n)) data.length
    (fun _ host => host.slabAnswers = s.host.slabAnswers)
    (fun copied r page off n host _ hk => (writeBytes_slabAnswers ..).trans hk)
    0 none s.host (fun _ hc => by cases hc) (by rw [BitVec.add_zero]; rfl) (Nat.zero_le _) rfl with
    ⟨n, r, -, -, -, -, -, hloop⟩ | ⟨n, host, hloop, -, -, -, -, hk⟩
  · rw [hloop] at h
    cases h
  · rw [hloop] at h
    cases h
    exact ⟨hk, rfl⟩

/-- The guest page tables take one slab object. -/
private theorem createGuestPageTables_slabAnswers {t : VmState} {ret : Except Int U64}
    (hl : ∀ r ∈ s.memory.memRegions, r.Linked) (h : relmEptCreateGuestPageTables s = .ok (ret, t)) :
    t.host.slabAnswers = s.host.slabAnswers.tail := by
  have hfree : ∀ (h : Host) obj, (h.kfree obj).slabAnswers = h.slabAnswers := by
    intro h obj
    unfold Host.kfree
    split <;> rfl
  unfold relmEptCreateGuestPageTables at h
  rcases s.host.kzalloc_cases with hk | hk
  · simp only [hk] at h
    cases h
    rfl
  simp only [hk] at h
  cases e3 : relmVmCopyToGuest { s with host := s.host.slabTake } (guestTableBase s + 2#64 * pageSize) (bufBytes pdBuf) with
  | error fault =>
    rw [e3] at h
    cases h
  | ok r3 =>
  obtain ⟨a3, m3⟩ := copyToGuest_slabAnswers (by exact hl) e3
  simp only [e3, bind, Except.bind] at h
  split at h
  · cases h
    exact (hfree _ _).trans a3
  cases e2 : relmVmCopyToGuest r3.2 (guestTableBase s + pageSize) (bufBytes (linkBuf (guestTableBase s + 2#64 * pageSize))) with
  | error fault =>
    rw [e2] at h
    cases h
  | ok r2 =>
  obtain ⟨a2, m2⟩ := copyToGuest_slabAnswers (by rw [m3]; exact hl) e2
  simp only [e2] at h
  split at h
  · cases h
    exact (hfree _ _).trans (a2.trans a3)
  cases e1 : relmVmCopyToGuest r2.2 (guestTableBase s) (bufBytes (linkBuf (guestTableBase s + pageSize))) with
  | error fault =>
    rw [e1] at h
    cases h
  | ok r1 =>
  obtain ⟨a1, -⟩ := copyToGuest_slabAnswers (by rw [m2, m3]; exact hl) e1
  simp only [e1] at h
  split at h
  · cases h
    exact (hfree _ _).trans (a1.trans (a2.trans a3))
  · cases h
    exact (hfree _ _).trans (a1.trans (a2.trans a3))

/-- Guest RAM is allocated. -/
theorem allocateGuestRam_supplied {size : U64} (k : s.host.Supplied (pages + 4 * numPages size) (objs + 2)) :
    (relmVmAllocateGuestRam s size 0).1 = .ok () ∧ (relmVmAllocateGuestRam s size 0).2.host.Supplied pages objs := by
  unfold relmVmAllocateGuestRam ramStart
  obtain ⟨hk, k1⟩ := k.kzalloc
  simp only [hk]
  obtain ⟨hk', k2⟩ := k1.kzalloc
  simp only [hk']
  obtain ⟨hret, hnext⟩ := ramLoop_supplied (s := { s with host := s.host.slabTake.slabTake }) (numPages size) 0 [] k2
  generalize ramLoop 0 (numPages size) 0 [] _ = r at hret hnext
  obtain ⟨ret, frames, t⟩ := r
  obtain rfl : ret = .ok () := hret
  exact ⟨rfl, hnext⟩

/-- The EPT is set up. -/
theorem setupEpt_supplied {h : Host} (k : h.Supplied (pages + 1) (objs + 1)) :
    ∃ ept h', relmSetupEpt true h = (.ok ept, h') ∧ h'.Supplied pages objs := by
  unfold relmSetupEpt relmEptContextCreate
  simp only [Bool.not_true, Bool.false_eq_true, if_false]
  obtain ⟨hk, k1⟩ := k.kzalloc
  simp only [hk]
  obtain ⟨pml4, -, hr, k2⟩ := k1.getFreePage
  simp only [hr]
  exact ⟨_, _, rfl, k2⟩

/-- On a host that has the frames and the objects, a VM with three pages of RAM or more is created. -/
theorem create_vm_supplied {ramSize : U64} {h : Host} (k : h.Supplied (4 * numPages ramSize + 1) 6)
    (hpages : 3 ≤ numPages ramSize) : ∃ vm, relmCreateVm true ramSize h = .ok (.vm vm) ∧
      vm.vm.memory.totalGuestRam = pageAlign ramSize := by
  have hram : ramSize > 0 := by
    by_contra hc
    rw [show ramSize = 0#64 by simpa using hc] at hpages
    exact absurd hpages (by decide)
  unfold relmCreateVm
  obtain ⟨hk, k1⟩ := k.kzalloc
  simp only [hk]
  obtain ⟨ept, h2, hs, k2⟩ := setupEpt_supplied k1
  rcases setupEpt_spec true (Host.Holds.start h).slabTake with ⟨e, h2', hs', -⟩ | ⟨ept', h2', hs', l2⟩
  · rw [hs] at hs'
    cases hs'
  rw [hs] at hs'
  cases hs'
  simp only [hs, if_pos hram]
  obtain ⟨hok, k3⟩ := @allocateGuestRam_supplied (VmState.created h2 ept) 0 2 ramSize (by rw [Nat.zero_add]; exact k2)
  rcases l2.allocateGuestRam ramSize 0 with ⟨⟨e, he⟩, -⟩ | ⟨-, obj, pagesObj, frames, hlen, hmem, l3⟩
  · rw [hok] at he
    cases he
  generalize relmVmAllocateGuestRam (VmState.created h2 ept) ramSize 0 = r at hok hmem k3 l3
  obtain ⟨ret, s⟩ := r
  obtain rfl : ret = .ok () := hok
  rw [List.append_nil] at l3
  obtain ⟨hone, htotal⟩ := OneRegion.of_created hlen hmem
  obtain ⟨hk4, k4⟩ := k3.kzalloc
  obtain ⟨ret, host, htables, -, hiff⟩ := hone.createGuestPageTables l3 rfl htotal
  have hdone : ret.toBool = true := by
    refine hiff.mpr ⟨?_, by rw [hk4]; rfl⟩
    rw [numPages, div_pageSize] at hpages
    exact hpages
  have hslab : host.slabAnswers = s.host.slabTake.slabAnswers := createGuestPageTables_slabAnswers hone.all_linked htables
  have hlast : host.kzalloc = (some host.slabNext, host.slabTake) := by
    obtain ⟨rest, hrest⟩ := k4.objects
    rw [← hslab, List.replicate_succ, List.cons_append] at hrest
    simp only [Host.kzalloc, ← hrest, List.head?_cons]
  cases ret with
  | error e => cases hdone
  | ok pml4Gpa =>
    simp only [createTables, htables, bind, Except.bind, createVcpus, hlast]
    exact ⟨_, rfl, htotal⟩

end Create

end Vm

end Relm
