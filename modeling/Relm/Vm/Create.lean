import Relm.Ept.MixedSizes
import Relm.Host.Ledger
import Relm.Vm.Access
import Relm.Vm.Isolation
import Relm.Vm.Vcpus

/-! Creating and destroying a VM: the guest page tables, the error ladder of `relm_create_vm`, and the account of the
pages and slab objects that each exit gives back. -/
namespace Relm.Vm
open Relm.Ept Relm.Ept.EptState

/-- A VM as `relm_create_vm` returns it. `vcpusObj` is the array of VCPU pointers, `vcpus` what its slots name. -/
structure RelmVm where
  obj : Nat
  state : VmStatus
  vm : VmState
  pml4Gpa : U64
  vcpusObj : Nat
  vcpus : List (Option Vcpu)

/-- The bytes of a page buffer. -/
def bufBytes (buf : Nat → U64) : List Byte := (List.range 4096).map fun off => Lib.Word.getByte (buf (off / 8)) (off % 8)

/-- The buffer for the PD: the first GiB by 2 MiB pages. -/
def pdBuf (i : Nat) : U64 := (BitVec.ofNat 64 i * 0x200000#64) ||| 0x87#64
/-- A cleared buffer whose first entry links a table. -/
def linkBuf (gpa : U64) (i : Nat) : U64 := if i = 0 then gpa ||| 0x7#64 else 0

/-- The three pages below the end of guest RAM; the address is that of the PML4. -/
def guestTableBase (s : VmState) : U64 := s.memory.totalGuestRam - 3#64 * pageSize

/-- `relm_ept_create_guest_page_tables`: the PD, the PDPT and the PML4 are copied in this order, and the buffer is freed on
every path. On success the address of the PML4. -/
def relmEptCreateGuestPageTables (s : VmState) : Except HostFault (Except Int U64 × VmState) :=
  let pml4Gpa := guestTableBase s
  let pdptGpa := guestTableBase s + pageSize
  let pdGpa := guestTableBase s + 2#64 * pageSize
  match s.host.kzalloc with
  | (none, h) => .ok (.error (-Errno.enomem.code), { s with host := h })
  | (some buf, h) => do
    let out (ret : Except Int U64) (s : VmState) := (ret, { s with host := s.host.kfree buf })
    let (ret, s) ← relmVmCopyToGuest { s with host := h } pdGpa (bufBytes pdBuf)
    if ret < 0 then return out (.error ret) s
    let (ret, s) ← relmVmCopyToGuest s pdptGpa (bufBytes (linkBuf pdGpa))
    if ret < 0 then return out (.error ret) s
    let (ret, s) ← relmVmCopyToGuest s pml4Gpa (bufBytes (linkBuf pdptGpa))
    if ret < 0 then return out (.error ret) s
    return out (.ok pml4Gpa) s

/-- The pages of a region in the order they are freed, then its array and the region itself. -/
def freeRegion (h : Host) (region : GuestMemRegion) : Host :=
  match region.pages with
  | some pages => (((pages.take region.nrPages.toNat).foldl Host.freePage h).kfree region.pagesObj).kfree region.obj
  | none => h.kfree region.obj

def relmVmFreeGuestMem (s : VmState) : VmState :=
  { s with host := s.memory.memRegions.foldl freeRegion s.host, memory.memRegions := [], memory.totalGuestRam := 0 }

/-- `relm_setup_ept`; `supported` is what `relm_ept_check_support` finds. -/
def relmSetupEpt (supported : Bool) (h : Host) : Except Errno EptContext × Host :=
  if !supported then (.error .enotsupp, h) else relmEptContextCreate h

/-- What `relm_create_vm` returns: `NULL`, with the host it leaves, or a VM. -/
inductive CreateResult
  | null (h : Host)
  | vm (vm : RelmVm)

/-- The labels of the error ladder, each falling through to the next. -/
def outFreeVm (obj : Nat) (h : Host) : CreateResult := .null (h.kfree obj)
def outFreeMmu (obj : Nat) (s : VmState) : CreateResult := outFreeVm obj (relmEptContextDestroy s.eptState)
def outFreeMemory (obj : Nat) (s : VmState) : CreateResult := outFreeMmu obj (relmVmFreeGuestMem s)

/-- The end of `relm_create_vm`, from the VCPU array on. -/
def createVcpus (obj : Nat) (pml4Gpa : U64) (s : VmState) : CreateResult :=
  match s.host.kzalloc with
  | (none, h) => outFreeMemory obj { s with host := h }
  | (some vcpusObj, h) =>
    .vm { obj, state := .initialized, vm := { s with host := h }, pml4Gpa, vcpusObj, vcpus := List.replicate relmMaxVcpus none }

/-- The guest page tables and what follows; their failure goes to `_out_free_mmu`. -/
def createTables (obj : Nat) (s : VmState) : Except HostFault CreateResult := do
  match ← relmEptCreateGuestPageTables s with
  | (.error _, s) => return outFreeMmu obj s
  | (.ok pml4Gpa, s) => return createVcpus obj pml4Gpa s

def relmCreateVm (supported : Bool) (ramSize : U64) (h : Host) : Except HostFault CreateResult :=
  match h.kzalloc with
  | (none, h) => .ok (.null h)
  | (some obj, h) =>
    match relmSetupEpt supported h with
    | (.error _, h) => .ok (outFreeVm obj h)
    | (.ok ept, h) =>
      if ramSize > 0 then
        match relmVmAllocateGuestRam (VmState.created h ept) ramSize 0 with
        | (.error _, s) => .ok (outFreeMmu obj s)
        | (.ok _, s) => createTables obj s
      else .ok (createVcpus obj 0 (VmState.created h ept))

/-- `relm_destroy_vm`; `stopAndFree` stops the thread of a VCPU and frees it. -/
def relmDestroyVm (stopAndFree : Vcpu → Host → Host) (vm : RelmVm) : Host :=
  let h := vm.vcpus.foldl (fun h slot => match slot with | some v => stopAndFree v h | none => h) vm.vm.host
  let s := relmVmFreeGuestMem { vm.vm with host := h.kfree vm.vcpusObj }
  (relmEptContextDestroy s.eptState).kfree vm.obj

/-- The account of a VM under construction: a well formed EPT context, and besides it `pages` and `objs`. -/
structure Ledger (h0 : Host) (s : VmState) (pages : List U64) (objs : List Nat) : Prop where
  shape : s.eptState.Shape
  noBlocks : ∀ a, s.eptState.pde a = none
  holds : h0.Holds s.host (pages ++ s.ept.tables) (objs ++ [s.ept.obj])
  apart : ∀ f ∈ pages, f ∉ s.ept.tables

namespace Ledger

variable {h0 h' : Host} {s : VmState} {pages l : List U64} {objs : List Nat} {pa : U64} {obj : Nat}

/-- Another host that has the tables, under an account of its own. -/
theorem ofHost {pages' : List U64} {objs' : List Nat} (k : Ledger h0 s pages objs)
    (hmem : ∀ f ∈ s.ept.tables, h'.mem f = s.host.mem f) (hh : h0.Holds h' (pages' ++ s.ept.tables) (objs' ++ [s.ept.obj]))
    (ha : ∀ f ∈ pages', f ∉ s.ept.tables) : Ledger h0 { s with host := h' } pages' objs' := by
  have hfr : Framed s.eptState ⟨h', s.ept⟩ := ⟨rfl, hmem, fun f hf => hh.mem_live (List.mem_append_right _ hf)⟩
  exact ⟨hfr.shape k.shape, fun a => (hfr.pde k.shape a).trans (k.noBlocks a), hh, ha⟩

theorem books (k : Ledger h0 s pages objs) (hm : h'.mem = s.host.mem) (hl : h'.live = s.host.live)
    (hs : h'.slab = s.host.slab) (hb : h'.badFree = s.host.badFree) : Ledger h0 { s with host := h' } pages objs :=
  k.ofHost (fun f _ => by rw [hm]) (k.holds.congr hl hs hb) k.apart

theorem take (k : Ledger h0 s pages objs) (hav : s.host.available pa) :
    Ledger h0 { s with host := s.host.take pa } (pa :: pages) objs := by
  have hnot : pa ∉ s.ept.tables := fun hc => hav.2.2 (k.shape.live pa hc)
  refine k.ofHost (fun f hf => ?_) (k.holds.allocated (.took hav)) ?_
  · have hne : f ≠ pa := fun hc => hnot (hc ▸ hf)
    funext i
    exact Lib.TableTree.fill_other _ _ _ hne
  · intro f hf
    rcases List.mem_cons.mp hf with rfl | hf
    · exact hnot
    · exact k.apart f hf

theorem slabTake (k : Ledger h0 s pages objs) :
    Ledger h0 { s with host := s.host.slabTake } pages (s.host.slabNext :: objs) :=
  k.ofHost (fun _ _ => rfl) k.holds.slabTake k.apart

theorem kfree (k : Ledger h0 s pages (obj :: objs)) : Ledger h0 { s with host := s.host.kfree obj } pages objs :=
  k.ofHost (fun f _ => by rw [Host.kfree_mem]) k.holds.kfree k.apart

theorem freePage (k : Ledger h0 s (pa :: pages) objs) : Ledger h0 { s with host := s.host.freePage pa } pages objs :=
  k.ofHost (fun f _ => by rw [Host.freePage_mem]) k.holds.freePage fun f hf => k.apart f (List.mem_cons_of_mem _ hf)

private theorem foldl_freePage_mem (l : List U64) (h : Host) : (l.foldl Host.freePage h).mem = h.mem := by
  induction l generalizing h with
  | nil => rfl
  | cons f l ih => exact (ih _).trans (Host.freePage_mem h f)

theorem freeAll (k : Ledger h0 s (l ++ pages) objs) :
    Ledger h0 { s with host := l.foldl Host.freePage s.host } pages objs := by
  have hh : h0.Holds s.host (l ++ (pages ++ s.ept.tables)) (objs ++ [s.ept.obj]) := List.append_assoc l pages s.ept.tables ▸ k.holds
  exact k.ofHost (fun f _ => by rw [foldl_freePage_mem]) hh.freeAll fun f hf => k.apart f (List.mem_append_right _ hf)

theorem perm {pages' : List U64} (k : Ledger h0 s pages objs) (hp : pages.Perm pages') : Ledger h0 s pages' objs :=
  ⟨k.shape, k.noBlocks, k.holds.perm (hp.append_right _), fun f hf => k.apart f (hp.mem_iff.mpr hf)⟩

/-- New tables are accounted for by the context. -/
private theorem extend {t : EptState} (k : Ledger h0 s pages objs) (he : Extends s.eptState t)
    (hb : ∀ a, t.pde a = s.eptState.pde a) : Ledger h0 (s.withEpt t) pages objs := by
  obtain ⟨new, htab, halloc⟩ := he.alloc
  have htab' : t.ctx.tables = new ++ s.ept.tables := htab
  have hh : h0.Holds t.host (pages ++ t.ctx.tables) (objs ++ [t.ctx.obj]) := by
    rw [he.obj]
    refine (k.holds.allocated halloc).perm ?_
    rw [htab', ← List.append_assoc, ← List.append_assoc]
    exact List.perm_append_comm.append_right _
  refine ⟨he.shape, fun a => (hb a).trans (k.noBlocks a), hh, fun f hf hc => ?_⟩
  have hc' : f ∈ new ++ s.ept.tables := htab' ▸ hc
  rcases List.mem_append.mp hc' with hc' | hc'
  · exact (halloc.fresh f hc').2.2 (k.holds.mem_live (List.mem_append_left _ hf))
  · exact k.apart f hf hc'

theorem mapPage (k : Ledger h0 s pages objs) (gpa hpa flags : U64) : Ledger h0 (vmxMemMapPage s gpa hpa flags).2 pages objs := by
  unfold vmxMemMapPage
  rcases mapPage_spec gpa hpa (vmxEptFlags flags) k.shape (k.noBlocks gpa) with ⟨_, hr⟩ | ⟨_, _, _, hs, _⟩ | ⟨_, _, ⟨hl, _⟩, _⟩
  · rw [hr]
    exact k
  · exact k.extend hs.toExtends hs.pde
  · exact k.extend hl.toExtends hl.pde

/-- The page loop accounts for the pages it has recorded. -/
theorem ramLoop (gpaStart : U64) (left i : Nat) (done pages : List U64) (s : VmState) (k : Ledger h0 s (done ++ pages) objs) :
    Ledger h0 (Vm.ramLoop gpaStart left i done s).next ((Vm.ramLoop gpaStart left i done s).pages ++ pages) objs := by
  induction left generalizing i done s with
  | zero => exact k
  | succ left ih =>
    unfold Vm.ramLoop
    rcases s.host.getFreePage_cases with hr | ⟨pa, hav, hr⟩
    · simp only [hr]
      exact k.books rfl rfl rfl rfl
    · simp only [hr]
      have hmap := (k.take hav).mapPage (gpaStart + BitVec.ofNat 64 i * pageSize) pa relmRamFlags
      generalize vmxMemMapPage { s with host := s.host.take pa } _ pa relmRamFlags = r at hmap ⊢
      obtain ⟨ret, t⟩ := r
      cases ret with
      | error e => exact hmap.freePage
      | ok _ =>
        refine ih (i + 1) (done ++ [pa]) t (hmap.perm ?_)
        rw [List.append_assoc]
        exact List.perm_middle.symm

/-- The pages, the array and the region that an allocation of guest RAM keeps, or nothing. -/
theorem allocateGuestRam (k : Ledger h0 s pages objs) (size gpaStart : U64) :
    ((∃ e, (relmVmAllocateGuestRam s size gpaStart).1 = .error e) ∧
        Ledger h0 (relmVmAllocateGuestRam s size gpaStart).2 pages objs) ∨
      ((relmVmAllocateGuestRam s size gpaStart).1 = .ok () ∧ ∃ obj pagesObj frames, frames.length = numPages size ∧
        (relmVmAllocateGuestRam s size gpaStart).2.memory =
          { s.memory with
            memRegions := ⟨obj, pagesObj, gpaStart, pageAlign size, some frames, pageAlign size / pageSize, relmRamFlags⟩ ::
              s.memory.memRegions
            totalGuestRam := s.memory.totalGuestRam + pageAlign size } ∧
        Ledger h0 (relmVmAllocateGuestRam s size gpaStart).2 (frames ++ pages) (pagesObj :: obj :: objs)) := by
  unfold relmVmAllocateGuestRam ramStart
  rcases s.host.kzalloc_cases with hk | hk
  · simp only [hk]
    exact .inl ⟨⟨_, rfl⟩, k.books rfl rfl rfl rfl⟩
  simp only [hk]
  have k1 := k.slabTake
  rcases s.host.slabTake.kzalloc_cases with hk' | hk'
  · simp only [hk']
    have k2 : Ledger h0 { s with host := { s.host.slabTake with slabAnswers := s.host.slabTake.slabAnswers.tail } } pages
        (s.host.slabNext :: objs) := k1.books rfl rfl rfl rfl
    exact .inl ⟨⟨_, rfl⟩, k2.kfree⟩
  simp only [hk']
  have k2 := k1.slabTake
  have hloop := Ledger.ramLoop gpaStart (numPages size) 0 [] pages _ k2
  obtain ⟨hmem, hlen⟩ := ramLoop_pages gpaStart (numPages size) 0 [] { s with host := s.host.slabTake.slabTake }
  generalize Vm.ramLoop gpaStart (numPages size) 0 [] { s with host := s.host.slabTake.slabTake } = r at hloop hmem hlen ⊢
  obtain ⟨ret, frames, t⟩ := r
  have hmem' : t.memory = s.memory := hmem
  cases ret with
  | error e =>
    have hperm : (frames ++ pages).Perm (frames.reverse ++ pages) := (List.reverse_perm frames).symm.append_right _
    exact .inl ⟨⟨e, rfl⟩, (hloop.perm hperm).freeAll.kfree.kfree⟩
  | ok _ =>
    refine .inr ⟨rfl, s.host.slabNext, s.host.slabTake.slabNext, frames, ?_, ?_, ?_⟩
    · rw [(hlen rfl).1]
      exact Nat.zero_add _
    · simp only [hmem']
    · exact ⟨hloop.shape, hloop.noBlocks, hloop.holds, hloop.apart⟩

/-- Writing into a page of the account leaves the account as it is. -/
private theorem writeBytes (k : Ledger h0 s pages objs) (hpa : pa ∈ pages) (off : Nat) (data : List Byte) :
    Ledger h0 { s with host := s.host.writeBytes pa off data } pages objs := by
  have hwrite : ∀ (h : Host) (off : Nat), (h.writeBytes pa off data).live = h.live ∧
      (h.writeBytes pa off data).slab = h.slab ∧ (h.writeBytes pa off data).badFree = h.badFree ∧
      ∀ f ≠ pa, (h.writeBytes pa off data).mem f = h.mem f := by
    induction data with
    | nil => exact fun h off => ⟨rfl, rfl, rfl, fun _ _ => rfl⟩
    | cons b data ih =>
      intro h off
      obtain ⟨h1, h2, h3, h4⟩ := ih (h.setByte pa off b) (off + 1)
      refine ⟨h1, h2, h3, fun f hf => (h4 f hf).trans ?_⟩
      funext i
      exact Lib.TableTree.setSlot_other _ _ (.inl hf)
  obtain ⟨h1, h2, h3, h4⟩ := hwrite s.host off
  refine k.ofHost (fun f hf => h4 f fun hc => ?_) (k.holds.congr h1 h2 h3) k.apart
  exact k.apart pa hpa (hc ▸ hf)

end Ledger

section Copies

variable {h0 : Host} {s : VmState} {frames : List U64} {objs : List Nat} {region : GuestMemRegion} {gpa : U64} {data : List Byte}

/-- The memory of the VM is one region of guest RAM. -/
structure OneRegion (s : VmState) (region : GuestMemRegion) (frames : List U64) : Prop where
  regions : s.memory.memRegions = [region]
  linked : region.Linked
  pages : region.pages = some frames

theorem OneRegion.all_linked (h : OneRegion s region frames) : ∀ r ∈ s.memory.memRegions, r.Linked := by
  intro r hr
  rw [h.regions, List.mem_singleton] at hr
  exact hr ▸ h.linked

/-- A copy of less than 2 GiB that stays within the region succeeds. -/
private theorem OneRegion.copy_ok (h : OneRegion s region frames) (k : Ledger h0 s frames objs) (hlen : data.length ≠ 0)
    (hmax : data.length < 2 ^ 31) (hin : ∀ j < data.length, region.contains (gpa + BitVec.ofNat 64 j) = true) :
    ∃ host, relmVmCopyToGuest s gpa data = .ok ((data.length : Int), { s with host }) ∧
      Ledger h0 { s with host } frames objs := by
  have hat : ∀ j < data.length, regionAt s.memory.memRegions gpa j = some region := by
    intro j hj
    have hfirst : regionAt s.memory.memRegions gpa 0 = some region := by
      have h0c := hin 0 (by omega)
      rw [BitVec.add_zero] at h0c
      simp only [regionAt, findRegion, h.regions, List.find?_cons, h0c]
    have hadd := regionAt_add hfirst j fun i hi => by
      rw [Nat.zero_add]
      exact hin i (by omega)
    rwa [Nat.zero_add] at hadd
  unfold relmVmCopyToGuest
  rw [if_neg hlen]
  rcases @accessLoop_spec Host s.memory.memRegions gpa h.all_linked true
    (fun page off copied n (host : Host) => host.writeBytes page off ((data.drop copied).take n)) data.length
    (fun _ host => Ledger h0 { s with host } frames objs) (fun copied r page off n host hpass hk => by
      obtain ⟨ps, hps, hpage⟩ := hpass.pages
      have hr : r = region := by
        have hm := hpass.mem
        rwa [h.regions, List.mem_singleton] at hm
      rw [hr, h.pages] at hps
      obtain rfl := Option.some.inj hps
      exact hk.writeBytes (List.mem_of_getElem? (hpage 0 hpass.pos).1) off _)
    0 none s.host (fun _ hc => by cases hc) (by rw [BitVec.add_zero]; rfl) (Nat.zero_le _) k with
    ⟨n, r, -, hn, -, hr, hp, -⟩ | ⟨n, host, hloop, -, hle, -, hnone, hk⟩
  · rw [hat n hn] at hr
    obtain rfl := Option.some.inj hr
    rw [h.pages] at hp
    cases hp
  · have hn : n = data.length := by
      by_contra hne
      have hlt : n < data.length := by omega
      have hnone' := hnone hlt
      rw [hat n hlt] at hnone'
      cases hnone'
    refine ⟨host, ?_, hk⟩
    rw [hloop, hn]
    have hret : accessRet data.length = (data.length : Int) := by
      have hnat : (BitVec.ofNat 32 data.length).toNat = data.length := by
        rw [BitVec.toNat_ofNat]
        exact Nat.mod_eq_of_lt (by omega)
      rw [accessRet, if_pos (by omega), toCInt, BitVec.toInt_eq_toNat_of_lt (by rw [hnat]; omega), hnat]
    simp only [Except.map, hret]

/-- A copy to an address outside the region fails and changes nothing. -/
theorem OneRegion.copy_fault (h : OneRegion s region frames) (hlen : data.length ≠ 0)
    (hnot : region.contains gpa = false) : relmVmCopyToGuest s gpa data = .ok (-Errno.efault.code, s) := by
  have hfirst : regionAt s.memory.memRegions gpa 0 = none := by
    simp only [regionAt, findRegion, h.regions, List.find?_cons, hnot, List.find?_nil]
  unfold relmVmCopyToGuest
  rw [if_neg hlen]
  rcases @accessLoop_spec Host s.memory.memRegions gpa h.all_linked true
    (fun page off copied n (host : Host) => host.writeBytes page off ((data.drop copied).take n)) data.length
    (fun n host => n = 0 → host = s.host) (fun copied r page off n host hpass _ hc => absurd hc (by
      have := hpass.pos
      omega))
    0 none s.host (fun _ hc => by cases hc) (by rw [BitVec.add_zero]; rfl) (Nat.zero_le _) (fun _ => rfl) with
    ⟨n, r, -, hn, hbacked, hr, -, -⟩ | ⟨n, host, hloop, -, hle, hbacked, -, hk⟩
  · by_cases hn0 : n = 0
    · rw [hn0, hfirst] at hr
      cases hr
    · obtain ⟨r', -, hr', -⟩ := hbacked 0 le_rfl (by omega)
      rw [hfirst] at hr'
      cases hr'
  · have hn0 : n = 0 := by
      by_contra hne
      obtain ⟨r', -, hr', -⟩ := hbacked 0 le_rfl (by omega)
      rw [hfirst] at hr'
      cases hr'
    rw [hloop, hk hn0, hn0]
    rfl

theorem bufBytes_length (buf : Nat → U64) : (bufBytes buf).length = 4096 := by
  rw [bufBytes, List.length_map, List.length_range]

/-- A page is copied if its address lies in the region, and refused otherwise. -/
private theorem OneRegion.copy_page (h : OneRegion s region frames) (k : Ledger h0 s frames objs)
    (hg : gpa.toNat % 4096 = 0) (buf : Nat → U64) :
    ∃ ret host, relmVmCopyToGuest s gpa (bufBytes buf) = .ok (ret, { s with host }) ∧
      Ledger h0 { s with host } frames objs ∧ (0 ≤ ret ↔ region.contains gpa = true) := by
  have hlen := bufBytes_length buf
  cases hc : region.contains gpa with
  | true =>
    have hin : ∀ j < (bufBytes buf).length, region.contains (gpa + BitVec.ofNat 64 j) = true := by
      rw [hlen]
      intro j hj
      have hstart := h.linked.aligned hc
      obtain ⟨h1, h2, h3⟩ := GuestMemRegion.contains_iff.mp hc
      have hsize := h.linked.size
      have hchunk : j < chunkSize false region (gpa.toNat - region.gpaStart.toNat) 4096 := by
        rw [chunkSize, if_neg (by decide)]
        omega
      exact (h.linked.chunk_contains hc hchunk).1
    obtain ⟨host, hcopy, hk⟩ := h.copy_ok k (by omega) (by omega) hin
    refine ⟨_, host, hcopy, hk, fun _ => rfl, fun _ => ?_⟩
    omega
  | false =>
    refine ⟨_, s.host, h.copy_fault (by omega) hc, k, ?_⟩
    decide

/-- Guest RAM from 0 on has the three pages exactly when it has at least three. -/
private theorem tables_fit_iff (hstart : region.gpaStart = 0) (hl : region.Linked) :
    (region.contains (region.size - 3#64 * pageSize + 2#64 * pageSize) = true ∧
      region.contains (region.size - 3#64 * pageSize + pageSize) = true ∧
      region.contains (region.size - 3#64 * pageSize) = true) ↔ 3 ≤ region.size.toNat / 4096 := by
  have hsize := hl.size
  have hlt := region.size.isLt
  simp only [GuestMemRegion.contains_iff, hstart, BitVec.toNat_add, BitVec.toNat_sub, BitVec.toNat_mul,
    show pageSize.toNat = 4096 from rfl, show (3#64).toNat = 3 from rfl, show (2#64).toNat = 2 from rfl,
    show (0 : U64).toNat = 0 from rfl]
  omega

private theorem table_aligned (hl : region.Linked) :
    (region.size - 3#64 * pageSize + 2#64 * pageSize).toNat % 4096 = 0 ∧
      (region.size - 3#64 * pageSize + pageSize).toNat % 4096 = 0 ∧ (region.size - 3#64 * pageSize).toNat % 4096 = 0 := by
  have hsize := hl.size
  have hlt := region.size.isLt
  simp only [BitVec.toNat_add, BitVec.toNat_sub, BitVec.toNat_mul, show pageSize.toNat = 4096 from rfl,
    show (3#64).toNat = 3 from rfl, show (2#64).toNat = 2 from rfl]
  omega

theorem OneRegion.withHost (h : OneRegion s region frames) (host : Host) : OneRegion { s with host } region frames :=
  ⟨h.regions, h.linked, h.pages⟩

/-- The guest page tables are created exactly when guest RAM has three pages and the buffer is allocated; either way
the account is what it was. -/
theorem OneRegion.createGuestPageTables (h : OneRegion s region frames) (k : Ledger h0 s frames objs)
    (hstart : region.gpaStart = 0) (htotal : s.memory.totalGuestRam = region.size) :
    ∃ ret host, relmEptCreateGuestPageTables s = .ok (ret, { s with host }) ∧ Ledger h0 { s with host } frames objs ∧
      (ret.toBool = true ↔ 3 ≤ region.size.toNat / 4096 ∧ s.host.kzalloc.1.isSome = true) := by
  obtain ⟨ha3, ha2, ha1⟩ := table_aligned h.linked
  rw [← tables_fit_iff hstart h.linked]
  unfold relmEptCreateGuestPageTables guestTableBase
  rw [htotal]
  rcases s.host.kzalloc_cases with hk | hk
  · simp only [hk]
    refine ⟨_, _, rfl, k.books rfl rfl rfl rfl, ?_⟩
    simp [Except.toBool]
  simp only [hk]
  obtain ⟨ret3, h3, e3, k3, c3⟩ := (h.withHost _).copy_page k.slabTake ha3 pdBuf
  obtain ⟨ret2, h2, e2, k2, c2⟩ := (h.withHost _).copy_page k3 ha2 (linkBuf (region.size - 3#64 * pageSize + 2#64 * pageSize))
  obtain ⟨ret1, h1, e1, k1, c1⟩ := (h.withHost _).copy_page k2 ha1 (linkBuf (region.size - 3#64 * pageSize + pageSize))
  rw [← c1, ← c2, ← c3]
  simp only [e3, bind, Except.bind]
  by_cases n3 : ret3 < 0
  · rw [if_pos n3]
    refine ⟨_, _, rfl, k3.kfree, ?_⟩
    simp [Except.toBool, n3]
  rw [if_neg n3]
  simp only [e2]
  by_cases n2 : ret2 < 0
  · rw [if_pos n2]
    refine ⟨_, _, rfl, k2.kfree, ?_⟩
    simp [Except.toBool, n2]
  rw [if_neg n2]
  simp only [e1]
  by_cases n1 : ret1 < 0
  · rw [if_pos n1]
    refine ⟨_, _, rfl, k1.kfree, ?_⟩
    simp [Except.toBool, n1]
  rw [if_neg n1]
  refine ⟨_, _, rfl, k1.kfree, ?_⟩
  simp [Except.toBool, not_lt.mp n1, not_lt.mp n2, not_lt.mp n3]

end Copies

section Ladder

variable {h0 : Host} {s : VmState} {pages frames : List U64} {objs : List Nat} {region : GuestMemRegion}

/-- Destroying the EPT context takes its tables and the context off the account. -/
theorem Ledger.destroy (k : Ledger h0 s pages objs) : h0.Holds (relmEptContextDestroy s.eptState) pages objs := by
  obtain ⟨l, hl, hd⟩ := contextDestroy_eq k.shape
  rw [hd]
  have hpages : h0.Holds s.host (l ++ pages) (s.ept.obj :: objs) := by
    refine (k.holds.perm ?_).permObjs List.perm_append_comm
    exact List.perm_append_comm.trans (hl.symm.append_right _)
  exact hpages.freeAll.kfree

/-- Freeing guest memory takes the region, its array and its pages off the account. -/
theorem Ledger.freeGuestMem (k : Ledger h0 s frames (region.pagesObj :: region.obj :: objs)) (h : OneRegion s region frames) :
    Ledger h0 (relmVmFreeGuestMem s) [] objs := by
  have htake : frames.take region.nrPages.toNat = frames := by
    rw [← h.linked.pages frames h.pages, List.take_length]
  have hhost : s.memory.memRegions.foldl freeRegion s.host =
      ((frames.foldl Host.freePage s.host).kfree region.pagesObj).kfree region.obj := by
    rw [h.regions, List.foldl_cons, List.foldl_nil, freeRegion, h.pages]
    simp only [htake]
  have k' : Ledger h0 s (frames ++ []) (region.pagesObj :: region.obj :: objs) := by
    rw [List.append_nil]
    exact k
  have hend := k'.freeAll.kfree.kfree
  unfold relmVmFreeGuestMem
  rw [hhost]
  exact ⟨hend.shape, hend.noBlocks, hend.holds, hend.apart⟩

/-- Setting up the EPT leaves the account as it was, or adds an empty context. -/
theorem setupEpt_spec (supported : Bool) {h : Host} {objs : List Nat} (k : h0.Holds h [] objs) :
    (∃ e h', relmSetupEpt supported h = (.error e, h') ∧ h0.Holds h' [] objs) ∨
      ∃ ept h', relmSetupEpt supported h = (.ok ept, h') ∧ Ledger h0 (VmState.created h' ept) [] objs := by
  unfold relmSetupEpt
  cases supported with
  | false => exact .inl ⟨_, h, rfl, k⟩
  | true =>
    simp only [Bool.not_true, Bool.false_eq_true, if_false]
    cases hc : relmEptContextCreate h with
    | mk ret h' =>
      cases ret with
      | error e =>
        refine .inl ⟨e, h', rfl, ?_⟩
        unfold relmEptContextCreate at hc
        rcases h.kzalloc_cases with hk | hk
        · simp only [hk, Prod.mk.injEq] at hc
          rw [← hc.2]
          exact k.congr rfl rfl rfl
        simp only [hk] at hc
        rcases h.slabTake.getFreePage_cases with hr | ⟨pa, hav, hr⟩
        · simp only [hr, Prod.mk.injEq] at hc
          rw [← hc.2]
          have hrefused : h0.Holds h.slabTake.refuse [] (h.slabNext :: objs) := k.slabTake.congr rfl rfl rfl
          exact hrefused.kfree
        · simp [hr] at hc
      | ok ept =>
        obtain ⟨he, halloc, hslab⟩ := contextCreate_spec hc
        refine .inr ⟨ept, h', rfl, he.shape, he.pde, ?_, by simp⟩
        have htab : ept.tables = [ept.pml4] := by
          unfold relmEptContextCreate at hc
          rcases h.kzalloc_cases with hk | hk
          · simp [hk] at hc
          simp only [hk] at hc
          rcases h.slabTake.getFreePage_cases with hr | ⟨pa, hav, hr⟩
          · simp [hr] at hc
          · simp only [hr, Prod.mk.injEq, Except.ok.injEq] at hc
            rw [← hc.1]
        have hpages := k.allocated halloc
        refine ⟨?_, ?_, hpages.badFree⟩
        · rw [show (VmState.created h' ept).ept.tables = [ept.pml4] from htab]
          exact hpages.live
        · have hs : (VmState.created h' ept).host.slab = ept.obj :: h.slab := hslab
          rw [hs]
          refine (k.slab.cons ept.obj).trans ?_
          rw [← List.cons_append]
          have hcomm : ([ept.obj] ++ objs).Perm (objs ++ [ept.obj]) := List.perm_append_comm
          exact hcomm.append_right _

/-- After the first allocation of guest RAM its region is all the memory there is. -/
theorem OneRegion.of_created {h : Host} {ept : EptContext} {ramSize : U64} {obj pagesObj : Nat}
    (hlen : frames.length = numPages ramSize) (hmem : s.memory = { (VmState.created h ept).memory with
      memRegions := ⟨obj, pagesObj, 0, pageAlign ramSize, some frames, pageAlign ramSize / pageSize, relmRamFlags⟩ ::
        (VmState.created h ept).memory.memRegions
      totalGuestRam := (VmState.created h ept).memory.totalGuestRam + pageAlign ramSize }) :
    OneRegion s ⟨obj, pagesObj, 0, pageAlign ramSize, some frames, pageAlign ramSize / pageSize, relmRamFlags⟩ frames ∧
      s.memory.totalGuestRam = pageAlign ramSize := by
  refine ⟨⟨congrArg VmMemory.memRegions hmem, ⟨pageAlign_mod ramSize, fun _ => rfl, div_pageSize _, ?_⟩, rfl⟩, ?_⟩
  · rintro _ ⟨⟩
    exact hlen
  · exact (congrArg VmMemory.totalGuestRam hmem).trans (BitVec.zero_add _)

/-- An initialised VM whose destruction gives everything back, or nothing left behind. -/
def AllOrNothing (h0 : Host) : Except HostFault CreateResult → Prop
  | .ok (.vm vm) => vm.state = .initialized ∧ ∀ stopAndFree, h0.Holds (relmDestroyVm stopAndFree vm) [] []
  | .ok (.null h) => h0.Holds h [] []
  | .error _ => False

/-- Whenever guest RAM has been allocated it has three pages, and the buffer for the guest page tables is allocated. -/
def TablesCreatable (supported : Bool) (ramSize : U64) (h : Host) : Prop :=
  ∀ obj h1 ept h2 s, h.kzalloc = (some obj, h1) → relmSetupEpt supported h1 = (.ok ept, h2) → 0 < ramSize →
    relmVmAllocateGuestRam (VmState.created h2 ept) ramSize 0 = (.ok (), s) →
      3 ≤ numPages ramSize ∧ s.host.kzalloc.1.isSome = true

/-- From the VCPU array on nothing is lost, given that guest memory can be freed. -/
private theorem createVcpus_allOrNothing {obj : Nat} (pml4Gpa : U64) (k : Ledger h0 s pages objs)
    (hfree : ∀ host : Host, Ledger h0 { s with host } pages objs → Ledger h0 (relmVmFreeGuestMem { s with host }) [] [obj]) :
    AllOrNothing h0 (.ok (createVcpus obj pml4Gpa s)) := by
  unfold createVcpus
  rcases s.host.kzalloc_cases with hk | hk
  · simp only [hk]
    exact (hfree { s.host with slabAnswers := s.host.slabAnswers.tail } (k.books rfl rfl rfl rfl)).destroy.kfree
  · simp only [hk]
    exact ⟨rfl, fun stopAndFree => (hfree (s.host.slabTake.kfree s.host.slabNext) k.slabTake.kfree).destroy.kfree⟩

/-- `relm_create_vm` leaks nothing, and a VM it returns can be destroyed without a trace, exactly when the guest page
tables can be created once guest RAM is there. -/
theorem create_vm_leak_free_iff (supported : Bool) (ramSize : U64) (h : Host) :
    AllOrNothing h (relmCreateVm supported ramSize h) ↔ TablesCreatable supported ramSize h := by
  unfold relmCreateVm TablesCreatable
  rcases h.kzalloc_cases with hk | hk
  · simp only [hk]
    exact ⟨fun _ obj h1 ept h2 s hc => (by cases hc), fun _ => (Host.Holds.start h).congr rfl rfl rfl⟩
  simp only [hk]
  have k1 := (Host.Holds.start h).slabTake
  rcases setupEpt_spec supported k1 with ⟨e, h2, hs, k2⟩ | ⟨ept, h2, hs, k2⟩
  · rw [hs]
    refine ⟨fun _ obj h1 ept h2' s hc hs' => ?_, fun _ => k2.kfree⟩
    cases hc
    rw [hs] at hs'
    cases hs'
  rw [hs]
  simp only
  by_cases hram : ramSize > 0
  swap
  · rw [if_neg hram]
    refine ⟨fun _ obj h1 ept h2' s _ _ hpos => absurd hpos hram, fun _ => ?_⟩
    exact createVcpus_allOrNothing 0 k2 fun host kh => ⟨kh.shape, kh.noBlocks, kh.holds, kh.apart⟩
  rw [if_pos hram]
  have hcond : ∀ (P : VmState → Prop), (∀ obj h1 ept' h2' s, (some h.slabNext, h.slabTake) = (some obj, h1) →
      relmSetupEpt supported h1 = (.ok ept', h2') → 0 < ramSize →
      relmVmAllocateGuestRam (VmState.created h2' ept') ramSize 0 = (.ok (), s) → P s) ↔
        ∀ s, relmVmAllocateGuestRam (VmState.created h2 ept) ramSize 0 = (.ok (), s) → P s := by
    intro P
    constructor
    · exact fun hall s hr => hall _ _ _ _ s rfl hs hram hr
    · intro hall obj h1 ept' h2' s hc hs' _ hr
      cases hc
      rw [hs] at hs'
      cases hs'
      exact hall s hr
  rw [hcond]
  rcases k2.allocateGuestRam ramSize 0 with ⟨⟨e, he⟩, k3⟩ | ⟨hok, obj, pagesObj, frames, hlen, hmem, k3⟩
  · generalize relmVmAllocateGuestRam (VmState.created h2 ept) ramSize 0 = r at he k3 ⊢
    obtain ⟨ret, s⟩ := r
    obtain rfl : ret = .error e := he
    exact ⟨fun _ s' hs' => (by cases hs'), fun _ => k3.destroy.kfree⟩
  · generalize relmVmAllocateGuestRam (VmState.created h2 ept) ramSize 0 = r at hok hmem k3 ⊢
    obtain ⟨ret, s⟩ := r
    obtain rfl : ret = .ok () := hok
    obtain ⟨hone, htotal⟩ := OneRegion.of_created hlen hmem
    rw [List.append_nil] at k3
    obtain ⟨ret, host, htables, k4, hiff⟩ := hone.createGuestPageTables k3 rfl htotal
    have hpages : (pageAlign ramSize).toNat / 4096 = numPages ramSize := (div_pageSize _).symm
    have hgoal : (∀ s', ((Except.ok (), s) : Except Errno Unit × VmState) = (.ok (), s') →
        3 ≤ numPages ramSize ∧ s'.host.kzalloc.1.isSome = true) ↔ ret.toBool = true := by
      rw [hiff, hpages]
      exact ⟨fun hall => hall s rfl, fun hs' s' hc => by cases hc; exact hs'⟩
    rw [hgoal]
    simp only [createTables, htables, bind, Except.bind]
    cases ret with
    | error e =>
      refine ⟨fun hfree => ?_, fun hc => by cases hc⟩
      -- The region and its array are still on the account.
      have hperm : [pagesObj, obj, h.slabNext].Perm [h.slabNext, pagesObj, obj] :=
        @List.perm_append_comm _ [pagesObj, obj] [h.slabNext]
      have hleak := (k4.destroy.permObjs hperm).kfree.objs_length hfree
      cases hleak
    | ok pml4Gpa =>
      refine ⟨fun _ => rfl, fun _ => createVcpus_allOrNothing pml4Gpa k4 fun host' kh => ?_⟩
      exact kh.freeGuestMem (hone.withHost host')

/-- The slab objects still handed out after a failed creation. -/
private def leftSlab : Except HostFault CreateResult → Option (List Nat)
  | .ok (.null h) => some h.slab
  | _ => none

private theorem leftSlab_nil {r : Except HostFault CreateResult} (hr : AllOrNothing h0 r) (hs : h0.slab = []) {l : List Nat}
    (hl : leftSlab r = some l) : l = [] := by
  cases r with
  | error e => cases hl
  | ok c =>
    cases c with
    | vm v => cases hl
    | null h =>
      obtain rfl : h.slab = l := Option.some.inj hl
      have hp := hr.slab
      rw [hs, List.append_nil] at hp
      exact hp.eq_nil

/-- Pages for a PML4, one page of guest RAM and its tables; the fifth slab allocation, the buffer, fails. -/
private def lastBuffer : Host :=
  Host.idle [some 0x1000#64, some 0x2000#64, some 0x3000#64, some 0x4000#64, some 0x5000#64] [true, true, true, true, false]

set_option maxRecDepth 40000 in
/-- Without the buffer for the guest page tables the region and its page array are never freed. -/
theorem guest_ram_leaks : leftSlab (relmCreateVm true 0x1000#64 lastBuffer) = some [3, 2] ∧
    ¬ AllOrNothing lastBuffer (relmCreateVm true 0x1000#64 lastBuffer) := by
  have hleft : leftSlab (relmCreateVm true 0x1000#64 lastBuffer) = some [3, 2] := by decide +kernel
  refine ⟨hleft, fun hr => ?_⟩
  cases leftSlab_nil hr rfl hleft

end Ladder

end Relm.Vm
