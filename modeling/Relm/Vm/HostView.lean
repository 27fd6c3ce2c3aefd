import Relm.Ept.GuestRam
import Relm.Ept.PageMap
import Relm.Lib.Segments
import Relm.Vm.Access
import Relm.Vm.Isolation

/-! The host's view of guest RAM, a list of regions with page arrays, and the guest's, the EPT: they name the same host
byte for every guest address. -/
namespace Relm.Vm
open Relm.Ept Relm.Ept.EptState Relm.Lib.Run Relm.Lib.Segments Relm.Lib.Word

/-- Where the pages of the regions lie, by page number. -/
def ramLayout (regions : List GuestMemRegion) : Layout U64 :=
  regions.map fun region => (region.gpaStart.toNat / 4096, region.pages.getD [])

/-- The EPT maps exactly the pages of a layout, no two to one frame, and every frame is handed out. -/
structure Backs (l : Layout U64) (s : VmState) : Prop where
  shape : s.eptState.Shape
  noBlocks : ∀ a, s.eptState.pde a = none
  books : s.host.WellFormed
  leaf : ∀ a, (s.eptState.pte a).map entryAddr = lookup l (pageOf a)
  frames : ∀ n f, lookup l n = some f → isFrame f ∧ f ∈ s.host.live
  inj : ∀ m n f, lookup l m = some f → lookup l n = some f → m = n

namespace Backs

variable {l : Layout U64} {s : VmState}

theorem congr {l' : Layout U64} (h : Backs l s) (hl : ∀ n, lookup l' n = lookup l n) : Backs l' s where
  shape := h.shape
  noBlocks := h.noBlocks
  books := h.books
  leaf a := (h.leaf a).trans (hl _).symm
  frames n f hf := h.frames n f ((hl n).symm.trans hf)
  inj m n f hm hn := h.inj m n f ((hl m).symm.trans hm) ((hl n).symm.trans hn)

/-- A change of the host that keeps every table and every frame handed out. -/
theorem host {h' : Host} (h : Backs l s) (books : h'.WellFormed) (hmem : ∀ f ∈ s.ept.tables, h'.mem f = s.host.mem f)
    (hlive : ∀ f ∈ s.host.live, f ∈ h'.live) : Backs l { s with host := h' } := by
  have hfr : Framed s.eptState ⟨h', s.ept⟩ := ⟨rfl, hmem, fun f hf => hlive f (h.shape.live f hf)⟩
  exact ⟨hfr.shape h.shape, fun a => (hfr.pde h.shape a).trans (h.noBlocks a), books,
    fun a => (congrArg _ (hfr.pte h.shape a)).trans (h.leaf a), fun n f hf => ⟨(h.frames n f hf).1, hlive f (h.frames n f hf).2⟩,
    h.inj⟩

theorem take {pa : U64} (h : Backs l s) (hav : s.host.available pa) : Backs l { s with host := s.host.take pa } := by
  refine h.host (h.books.allocated (.took hav)) (fun f hf => ?_) fun f hf => List.mem_cons_of_mem _ hf
  have hne : f ≠ pa := fun hc => hav.2.2 (hc ▸ h.shape.live f hf)
  funext i
  exact Lib.TableTree.fill_other _ _ _ hne

/-- A fresh frame becomes the next page of the first array. -/
theorem push {t : EptState} {P : Nat} {pages : List U64} {pa flags : U64} {st : EptStats}
    (h : Backs ((P, pages) :: l) s) (hP : P + pages.length < pageSpace) (hpa : isFrame pa) (hlive : pa ∈ s.host.live)
    (hnew : ∀ n, lookup ((P, pages) :: l) n ≠ some pa) (hf : flags &&& eptAddrMask = 0#64)
    (hl : Leaves s.eptState t (s.eptState.withPte (pageAddr (P + pages.length)) (some (leafEntry pa flags)))
      s.eptState.pde st) : Backs ((P, pages ++ [pa]) :: l) (s.withEpt t) := by
  obtain ⟨new, -, halloc⟩ := hl.alloc
  have hkeep : ∀ f ∈ s.host.live, f ∈ t.host.live := fun f hf => by
    rw [halloc.live]
    exact List.mem_append_right _ hf
  refine ⟨hl.shape, fun a => (hl.pde a).trans (h.noBlocks a), h.books.allocated halloc, fun a => ?_, fun n f hn => ?_,
    fun m n f hm hn => ?_⟩
  · have hpte : (s.withEpt t).eptState.pte a = _ := hl.pte a
    rw [hpte, withPte, pageOf_pageAddr hP, lookup_push]
    split
    · rw [Option.map_some, entryAddr_leafEntry pa flags hpa hf]
    · exact h.leaf a
  · rw [lookup_push] at hn
    split at hn
    · obtain rfl := Option.some.inj hn
      exact ⟨hpa, hkeep _ hlive⟩
    · exact ⟨(h.frames n f hn).1, hkeep f (h.frames n f hn).2⟩
  · rw [lookup_push] at hm hn
    split at hm <;> split at hn
    · omega
    · exact absurd ((Option.some.inj hm) ▸ hn) (hnew n)
    · exact absurd ((Option.some.inj hn) ▸ hm) (hnew m)
    · exact h.inj m n f hm hn

private theorem ramPage_eq (P i : Nat) : pageAddr P + BitVec.ofNat 64 i * pageSize = pageAddr (P + i) := by
  rw [← pageAddr_add]
  rfl

private theorem viewFlags_noAddress : vmxEptFlags relmRamFlags &&& eptAddrMask = 0#64 := by decide

/-- The page loop extends the array it fills, page by page. -/
theorem ramLoop (P left : Nat) (pages : List U64) (s : VmState) (hP : P + pages.length + left ≤ pageSpace)
    (h : Backs ((P, pages) :: l) s) (hok : (Vm.ramLoop (pageAddr P) left pages.length pages s).ret = .ok ()) :
    Backs ((P, (Vm.ramLoop (pageAddr P) left pages.length pages s).pages) :: l)
      (Vm.ramLoop (pageAddr P) left pages.length pages s).next := by
  induction left generalizing pages s with
  | zero => exact h
  | succ left ih =>
    unfold Vm.ramLoop at hok ⊢
    rcases s.host.getFreePage_cases with hr | ⟨pa, hav, hr⟩
    · simp only [hr] at hok
      cases hok
    · simp only [hr, vmxMemMapPage, ramPage_eq] at hok ⊢
      have h1 := h.take hav
      have ho := mapPage_spec (pageAddr (P + pages.length)) pa (vmxEptFlags relmRamFlags) h1.shape (h1.noBlocks _)
      generalize relmEptMapPage _ (pageAddr (P + pages.length)) pa (vmxEptFlags relmRamFlags) = r at ho hok ⊢
      rcases ho with ⟨_, rfl⟩ | ⟨_, hret, _, _, _⟩ | ⟨_, hret, ⟨hl, _⟩, _⟩
      · cases hok
      · simp only [hret] at hok
        cases hok
      · simp only [hret] at hok ⊢
        have hnew : ∀ n, lookup ((P, pages) :: l) n ≠ some pa := fun n hn => hav.2.2 (h.frames n pa hn).2
        have h2 := h1.push (by omega) hav.1 List.mem_cons_self hnew viewFlags_noAddress hl
        have hlen : pages.length + 1 = (pages ++ [pa]).length := by simp
        rw [hlen] at hok ⊢
        exact ih (pages ++ [pa]) _ (by rw [← hlen]; omega) h2 hok

/-- The two slab allocations keep pages and tables. -/
theorem ramStart {obj pagesObj : Nat} {t : VmState} (h : Backs l s) (hs : Vm.ramStart s = .ok (obj, pagesObj, t)) :
    Backs l t := by
  unfold Vm.ramStart at hs
  rcases s.host.kzalloc_cases with hk | hk
  · simp only [hk] at hs
    cases hs
  · simp only [hk] at hs
    rcases s.host.slabTake.kzalloc_cases with hk' | hk'
    · simp only [hk'] at hs
      cases hs
    · simp only [hk'] at hs
      obtain ⟨-, -, rfl⟩ := Prod.mk.inj (Except.ok.inj hs) |>.imp_right Prod.mk.inj
      exact h.host (h.books.congr rfl rfl rfl) (fun _ _ => rfl) fun _ hf => hf

/-- A successful allocation adds its pages to the layout. -/
theorem allocateGuestRam {size : U64} {P : Nat} (h : Backs (ramLayout s.memory.memRegions) s)
    (hP : P + numPages size ≤ pageSpace) (hok : (relmVmAllocateGuestRam s size (pageAddr P)).1 = .ok ()) :
    Backs (ramLayout (relmVmAllocateGuestRam s size (pageAddr P)).2.memory.memRegions)
      (relmVmAllocateGuestRam s size (pageAddr P)).2 := by
  unfold relmVmAllocateGuestRam at hok ⊢
  split at hok
  · cases hok
  · rename_i obj pagesObj t hs
    have hmem := ramStart_memory s
    rw [hs] at hmem
    have h1 : Backs ((P, []) :: ramLayout s.memory.memRegions) t :=
      (h.ramStart hs).congr fun n => lookup_empty P _ n
    have hloop := h1.ramLoop P (numPages size) [] t (by simpa using hP)
    have hpages := ramLoop_pages (pageAddr P) (numPages size) 0 [] t
    simp only [List.length_nil] at hok hloop ⊢
    generalize Vm.ramLoop (pageAddr P) (numPages size) 0 [] t = r at hok hloop hpages ⊢
    obtain ⟨ret, pages, u⟩ := r
    cases ret with
    | error e => cases hok
    | ok x =>
      have hu : u.memory = s.memory := hpages.1.trans hmem
      have hstart : (pageAddr P).toNat / 4096 = P := by
        rw [pageAddr_toNat (by rw [pageSpace] at hP; omega)]
        omega
      have hend := hloop rfl
      simp only [ramLayout, List.map_cons, hu, hstart, Option.getD_some] at hend ⊢
      exact ⟨hend.shape, hend.noBlocks, hend.books, hend.leaf, hend.frames, hend.inj⟩

end Backs

/-- The arguments of a call of `relm_vm_allocate_guest_ram`. -/
structure RamRequest where
  size : U64
  gpaStart : U64

namespace RamRequest

def exec (s : VmState) (r : RamRequest) : Except Errno Unit × VmState := relmVmAllocateGuestRam s r.size r.gpaStart

/-- The guest addresses a request asks for. -/
def Covers (r : RamRequest) (gpa : U64) : Prop :=
  r.gpaStart.toNat ≤ gpa.toNat ∧ gpa.toNat < r.gpaStart.toNat + r.size.toNat

/-- Whole pages below `2^48`. -/
structure Valid (r : RamRequest) : Prop where
  start : r.gpaStart.toNat % 4096 = 0
  size : r.size.toNat % 4096 = 0
  fits : r.gpaStart.toNat + r.size.toNat ≤ 2 ^ 48

def Apart (r r' : RamRequest) : Prop :=
  r.gpaStart.toNat + r.size.toNat ≤ r'.gpaStart.toNat ∨ r'.gpaStart.toNat + r'.size.toNat ≤ r.gpaStart.toNat

variable {r : RamRequest}

theorem Valid.size_eq (h : r.Valid) : pageAlign r.size = r.size := by
  have hf := h.fits
  rw [eq_pageAddr h.size]
  exact pageAlign_pageAddr (by omega)

theorem Valid.numPages_eq (h : r.Valid) : numPages r.size = r.size.toNat / 4096 := by
  rw [numPages, h.size_eq, div_pageSize]

theorem Valid.start_eq (h : r.Valid) : r.gpaStart = pageAddr (r.gpaStart.toNat / 4096) := eq_pageAddr h.start

end RamRequest

/-- Some request covers an address. -/
def InRam (reqs : List RamRequest) (gpa : U64) : Prop := ∃ r ∈ reqs, r.Covers gpa

/-- The state after successful requests: each has its region, newest first, and the EPT maps their pages. -/
structure RamBuilt (reqs : List RamRequest) (s : VmState) : Prop where
  backs : Backs (ramLayout s.memory.memRegions) s
  regions : List.Forall₂ (fun region (r : RamRequest) => ∃ frames, RamRegion r.size r.gpaStart region frames)
    s.memory.memRegions reqs.reverse
  total : s.memory.totalGuestRam = BitVec.ofNat 64 (reqs.map (·.size.toNat)).sum

/-- A region contains what its request covers. -/
theorem RamRegion.contains_iff {region : GuestMemRegion} {r : RamRequest} {frames : List U64}
    (h : RamRegion r.size r.gpaStart region frames) (hv : r.Valid) (gpa : U64) :
    region.contains gpa = true ↔ r.Covers gpa := by
  have hfits := hv.fits
  rw [GuestMemRegion.contains_iff, h.gpaStart, h.size, hv.size_eq, RamRequest.Covers]
  constructor
  · rintro ⟨h1, h2, -⟩
    exact ⟨h1, h2⟩
  · rintro ⟨h1, h2⟩
    exact ⟨h1, h2, by omega⟩

namespace RamBuilt

variable {reqs : List RamRequest} {s : VmState}

theorem step {r : RamRequest} (h : RamBuilt reqs s) (hv : r.Valid) (hok : (r.exec s).1 = .ok ()) :
    RamBuilt (reqs ++ [r]) (r.exec s).2 := by
  have hfits := hv.fits
  have hbacks : Backs (ramLayout (r.exec s).2.memory.memRegions) (r.exec s).2 := by
    have hP : r.gpaStart.toNat / 4096 + numPages r.size ≤ pageSpace := by
      rw [hv.numPages_eq, pageSpace]
      omega
    rw [RamRequest.exec, hv.start_eq] at hok ⊢
    exact h.backs.allocateGuestRam hP hok
  rcases allocateGuestRam_memory s r.size r.gpaStart with ⟨⟨e, he⟩, -⟩ | ⟨-, region, frames, hmem, hregion⟩
  · rw [RamRequest.exec, he] at hok
    cases hok
  · refine ⟨hbacks, ?_, ?_⟩
    · rw [RamRequest.exec, hmem, List.reverse_append]
      exact .cons ⟨frames, hregion⟩ h.regions
    · rw [RamRequest.exec, hmem, hv.size_eq, h.total, List.map_append, List.sum_append, BitVec.ofNat_add]
      simp

/-- A region of the list belongs to a request. -/
theorem mem_region {region : GuestMemRegion} (h : RamBuilt reqs s) (hm : region ∈ s.memory.memRegions) :
    ∃ r ∈ reqs, ∃ frames, RamRegion r.size r.gpaStart region frames := by
  obtain ⟨r, hr, hf⟩ := exists_of_matched h.regions hm
  exact ⟨r, List.mem_reverse.mp hr, hf⟩

/-- A request has its region. -/
theorem mem_request {r : RamRequest} (h : RamBuilt reqs s) (hm : r ∈ reqs) :
    ∃ region ∈ s.memory.memRegions, ∃ frames, RamRegion r.size r.gpaStart region frames :=
  exists_of_matched (List.Forall₂.flip h.regions) (List.mem_reverse.mpr hm)

variable (h : RamBuilt reqs s) (hv : ∀ r ∈ reqs, r.Valid)

include h hv

theorem linked : ∀ region ∈ s.memory.memRegions, region.Linked := by
  intro region hm
  obtain ⟨r, hr, frames, hf⟩ := h.mem_region hm
  have hval := hv r hr
  have hdiv := div_pageSize r.size
  refine ⟨?_, fun _ => ?_, ?_, fun pages hp => ?_⟩
  · rw [hf.size, hval.size_eq]
    exact hval.size
  · rw [hf.gpaStart]
    exact hval.start
  · rw [hf.nrPages, hf.size, hval.size_eq, hdiv]
  · obtain rfl := Option.some.inj (hf.pages.symm.trans hp)
    rw [hf.length, hf.nrPages, hval.numPages_eq, hval.size_eq, hdiv]

theorem inRam_iff (gpa : U64) : InRam reqs gpa ↔ ∃ region ∈ s.memory.memRegions, region.contains gpa = true := by
  constructor
  · rintro ⟨r, hr, hc⟩
    obtain ⟨region, hm, frames, hf⟩ := h.mem_request hr
    exact ⟨region, hm, (hf.contains_iff (hv r hr) gpa).mpr hc⟩
  · rintro ⟨region, hm, hc⟩
    obtain ⟨r, hr, frames, hf⟩ := h.mem_region hm
    exact ⟨r, hr, (hf.contains_iff (hv r hr) gpa).mp hc⟩

theorem layout_separate (ha : reqs.Pairwise RamRequest.Apart) :
    (ramLayout s.memory.memRegions).Pairwise Separate := by
  have hrev : reqs.reverse.Pairwise fun r r' => r.Apart r' ∧ r ∈ reqs ∧ r' ∈ reqs := by
    refine List.Pairwise.imp_of_mem (fun hm hm' hab => ⟨hab, List.mem_reverse.mp hm, List.mem_reverse.mp hm'⟩) ?_
    rw [List.pairwise_reverse]
    exact ha.imp fun hab => hab.symm
  rw [ramLayout, List.pairwise_map]
  refine pairwise_of_matched h.regions hrev ?_
  rintro region region' r r' ⟨frames, hf⟩ ⟨frames', hf'⟩ ⟨hab, hr, hr'⟩
  have hval := hv r hr
  have hval' := hv r' hr'
  have hs := hval.start
  have hs' := hval'.start
  have hz := hval.size
  have hz' := hval'.size
  simp only [Separate, hf.pages, hf'.pages, hf.gpaStart, hf'.gpaStart, Option.getD_some, hf.length, hf'.length,
    hval.numPages_eq, hval'.numPages_eq]
  rcases hab with hab | hab <;> omega

end RamBuilt

/-- The byte at a host physical address. -/
def hostByte (h : Host) (hpa : U64) : Byte := h.byte (hpa &&& pageMask) (hpa.toNat % 4096)

section Bytes

variable {l : Layout U64} {s : VmState} {f a : U64}

theorem toNat_or_offset (hf : isFrame f) (a : U64) : (f ||| a % 4096#64).toNat = f.toNat + a.toNat % 4096 := by
  have hoff : (a % 4096#64).toNat = a.toNat % 4096 := BitVec.toNat_umod ..
  rw [or_low_toNat _ _ 12 hf.1 (by rw [hoff]; omega), hoff]

/-- A frame with a page offset names a byte of the frame. -/
theorem hostByte_or_offset (h : Host) (hf : isFrame f) (a : U64) :
    hostByte h (f ||| a % 4096#64) = h.byte f (a.toNat % 4096) := by
  have hnat := toNat_or_offset hf a
  have halign := hf.1
  have hpage : (f ||| a % 4096#64) &&& pageMask = f := by
    rw [← BitVec.toNat_inj, and_field_toNat _ _ 12 64 (by decide) (by decide), hnat]
    have hlt := f.isLt
    have hsmall := hf.2
    omega
  have hoff : (f ||| a % 4096#64).toNat % 4096 = a.toNat % 4096 := by
    rw [hnat]
    omega
  rw [hostByte, hpage, hoff]

namespace Backs

/-- A lookup in the EPT is a lookup in the layout. -/
theorem translate_eq (h : Backs l s) (a : U64) : translate s.eptState a =
    match lookup l (pageOf a) with
    | none => .error .enoent
    | some f => .ok (f ||| a % 4096#64) := by
  rw [Ept.translate, (getMapping_spec h.shape (h.noBlocks a)).2.2, ← h.leaf a, Refines.offset_eq]
  cases s.eptState.pte a <;> rfl

theorem translate_ok {hpa : U64} (h : Backs l s) (ht : translate s.eptState a = .ok hpa) :
    ∃ f, lookup l (pageOf a) = some f ∧ isFrame f ∧ hpa = f ||| a % 4096#64 := by
  rw [h.translate_eq] at ht
  cases hf : lookup l (pageOf a) with
  | none =>
    rw [hf] at ht
    cases ht
  | some f =>
    rw [hf] at ht
    exact ⟨f, rfl, (h.frames _ f hf).1, (Except.ok.inj ht).symm⟩

/-- A frame and an offset belong to one guest address below `2^48`. -/
theorem address_unique {b : U64} (h : Backs l s) (ha : a.toNat < 2 ^ 48) (hb : b.toNat < 2 ^ 48)
    (hfa : lookup l (pageOf a) = some f) (hfb : lookup l (pageOf b) = some f) (ho : a.toNat % 4096 = b.toNat % 4096) :
    a = b := by
  have hpage := h.inj _ _ f hfa hfb
  rw [pageOf, pageOf] at hpage
  rw [← BitVec.toNat_inj]
  omega

/-- Distinct guest addresses never share a host byte. -/
theorem translate_inj {b hpa : U64} (h : Backs l s) (ha : a.toNat < 2 ^ 48) (hb : b.toNat < 2 ^ 48)
    (hta : translate s.eptState a = .ok hpa) (htb : translate s.eptState b = .ok hpa) : a = b := by
  obtain ⟨f, hf, hfr, rfl⟩ := h.translate_ok hta
  obtain ⟨g, hg, hgr, heq⟩ := h.translate_ok htb
  have hna := toNat_or_offset hfr a
  have hnb := toNat_or_offset hgr b
  rw [heq] at hna
  have hfa := hfr.1
  have hga := hgr.1
  have hfg : f = g := by
    rw [← BitVec.toNat_inj]
    omega
  exact h.address_unique ha hb hf (hfg ▸ hg) (by omega)

end Backs

/-- Byte `k` of a range in guest memory lies at an offset of a frame. -/
def LiesAt (l : Layout U64) (gpa : U64) (k : Nat) (page : U64) (off : Nat) : Prop :=
  lookup l (pageOf (gpa + BitVec.ofNat 64 k)) = some page ∧ (gpa + BitVec.ofNat 64 k).toNat % 4096 = off

/-- The first `n` bytes of a range lie below `2^48`. -/
def Below (gpa : U64) (n : Nat) : Prop := ∀ k < n, (gpa + BitVec.ofNat 64 k).toNat < 2 ^ 48

theorem Below.toNat_eq {gpa : U64} {n : Nat} (h : Below gpa n) {k : Nat} (hk : k < n) :
    (gpa + BitVec.ofNat 64 k).toNat = gpa.toNat + k := by
  induction k with
  | zero => simp
  | succ k ih =>
    have hprev := ih (by omega)
    have hlt := h k (by omega)
    have hstep : gpa + BitVec.ofNat 64 (k + 1) = gpa + BitVec.ofNat 64 k + 1#64 := by
      rw [BitVec.ofNat_add, BitVec.add_assoc]
    rw [hstep, toNat_add_eq hprev (show (1#64).toNat = 1 from rfl) (by omega)]
    omega

/-- Two bytes of such a range lie at different places. -/
theorem LiesAt.inj {gpa page : U64} {n k j off : Nat} (h : Backs l s) (hb : Below gpa n) (hk : k < n) (hj : j < n)
    (h₁ : LiesAt l gpa k page off) (h₂ : LiesAt l gpa j page off) : k = j := by
  have heq := h.address_unique (hb k hk) (hb j hj) h₁.1 h₂.1 (h₁.2.trans h₂.2.symm)
  have hnat := congrArg BitVec.toNat heq
  rw [hb.toNat_eq hk, hb.toNat_eq hj] at hnat
  omega

end Bytes

section Access

/-- After a store of the first `n` bytes of a range: they hold the source, and every other byte is as before. -/
structure Stored (l : Layout U64) (gpa : U64) (src : Nat → Byte) (before : Host) (n : Nat) (after : Host) : Prop where
  below : Below gpa n
  written : ∀ k < n, ∀ page off, LiesAt l gpa k page off → after.byte page off = src k
  others : ∀ page off, off < 4096 → (∀ k < n, ¬ LiesAt l gpa k page off) → after.byte page off = before.byte page off

/-- After a load of the first `n` bytes of a range. -/
structure Loaded (l : Layout U64) (gpa : U64) (h : Host) (n : Nat) (acc : List Byte) : Prop where
  length : acc.length = n
  read : ∀ k < n, ∀ page off, LiesAt l gpa k page off → acc[k]? = some (h.byte page off)

/-- `m` consecutive bytes of a range on one page. -/
def OnPage (l : Layout U64) (gpa : U64) (n m : Nat) (page : U64) (off : Nat) : Prop :=
  ∀ i < m, LiesAt l gpa (n + i) page (off + i) ∧ (gpa + BitVec.ofNat 64 (n + i)).toNat < 2 ^ 48

variable {l : Layout U64} {s : VmState} {gpa page : U64} {n m off : Nat}

theorem Below.add (h : Below gpa n) (hp : OnPage l gpa n m page off) : Below gpa (n + m) := by
  intro k hk
  by_cases hlt : k < n
  · exact h k hlt
  · have hin := (hp (k - n) (by omega)).2
    rwa [show n + (k - n) = k by omega] at hin

theorem Stored.pass {src : Nat → Byte} {before after : Host} {chunk : List Byte} (hb : Backs l s)
    (h : Stored l gpa src before n after) (hp : OnPage l gpa n m page off) (hoff : off + m ≤ 4096)
    (hlen : chunk.length = m) (hsrc : ∀ i < m, chunk.getD i 0 = src (n + i)) :
    Stored l gpa src before (n + m) (after.writeBytes page off chunk) := by
  have hbelow := h.below.add hp
  subst hlen
  refine ⟨hbelow, fun k hk page' off' hat => ?_, fun page' off' ho hnone => ?_⟩
  · have ho : off' < 4096 := by
      rw [← hat.2]
      exact Nat.mod_lt _ (by decide)
    rw [Host.byte_writeBytes _ _ _ _ hoff ho]
    split
    · -- the byte lies in the chunk, so it is the one of the chunk at that offset
      rename_i hin
      obtain ⟨rfl, h1, h2⟩ := hin
      have hi := (hp (off' - off) (by omega)).1
      rw [show off + (off' - off) = off' by omega] at hi
      have hkeq := hat.inj hb hbelow hk (by omega) hi
      rw [hsrc _ (by omega), ← hkeq]
    · rename_i hout
      by_cases hkn : k < n
      · exact h.written k hkn page' off' hat
      · have hi := (hp (k - n) (by omega)).1
        rw [show n + (k - n) = k by omega] at hi
        have hpage := Option.some.inj (hat.1.symm.trans hi.1)
        have hoff' := hat.2.symm.trans hi.2
        exact absurd ⟨hpage, by omega, by omega⟩ hout
  · rw [Host.byte_writeBytes _ _ _ _ hoff ho]
    split
    · rename_i hin
      obtain ⟨rfl, h1, h2⟩ := hin
      have hi := (hp (off' - off) (by omega)).1
      rw [show off + (off' - off) = off' by omega] at hi
      exact absurd hi (hnone _ (by omega))
    · exact h.others page' off' ho fun k hk => hnone k (by omega)

theorem Loaded.pass {h : Host} {acc : List Byte} (hl : Loaded l gpa h n acc) (hp : OnPage l gpa n m page off) :
    Loaded l gpa h (n + m) (acc ++ h.readBytes page off m) := by
  have hlen := hl.length
  refine ⟨by simp [hlen, Host.readBytes], fun k hk page' off' hat => ?_⟩
  by_cases hkn : k < n
  · rw [List.getElem?_append_left (by omega)]
    exact hl.read k hkn page' off' hat
  · have hi := (hp (k - n) (by omega)).1
    rw [show n + (k - n) = k by omega] at hi
    obtain rfl := Option.some.inj (hat.1.symm.trans hi.1)
    obtain rfl := hat.2.symm.trans hi.2
    rw [List.getElem?_append_right (by omega), hlen]
    simp [Host.readBytes, show k - n < m by omega]

end Access

/-- An access of `size` bytes handles those up to the first one outside guest RAM. -/
structure Handled (reqs : List RamRequest) (gpa : U64) (size n : Nat) : Prop where
  inSize : n ≤ size
  inRam : ∀ k < n, InRam reqs (gpa + BitVec.ofNat 64 k)
  stops : n < size → ¬ InRam reqs (gpa + BitVec.ofNat 64 n)

theorem Handled.outside {reqs : List RamRequest} {gpa : U64} {size n : Nat} (h : Handled reqs gpa size n)
    (hout : ¬ InRam reqs gpa) : n = 0 := by
  rcases Nat.eq_zero_or_pos n with h0 | hpos
  · exact h0
  · have hin := h.inRam 0 hpos
    exact absurd (by simpa using hin) hout

namespace RamBuilt

variable {reqs : List RamRequest} {s : VmState} (h : RamBuilt reqs s) (hv : ∀ r ∈ reqs, r.Valid)

include h hv

theorem toNat_lt_of_contains {region : GuestMemRegion} {a : U64} (hm : region ∈ s.memory.memRegions)
    (hc : region.contains a = true) : a.toNat < 2 ^ 48 := by
  obtain ⟨r, hr, frames, hf⟩ := h.mem_region hm
  obtain ⟨-, hlt⟩ := (hf.contains_iff (hv r hr) a).mp hc
  have hfits := (hv r hr).fits
  omega

/-- The page array entry a region has for an address is what the layout has at its page. -/
theorem lookup_of_contains (ha : reqs.Pairwise RamRequest.Apart) {region : GuestMemRegion} {a page : U64} {pages : List U64}
    (hm : region ∈ s.memory.memRegions) (hc : region.contains a = true) (hp : region.pages = some pages)
    (hpage : pages[(a.toNat - region.gpaStart.toNat) / 4096]? = some page) :
    lookup (ramLayout s.memory.memRegions) (pageOf a) = some page := by
  have hlt := h.toNat_lt_of_contains hv hm hc
  have hstart := (h.linked hv region hm).aligned hc
  obtain ⟨hle, -, -⟩ := GuestMemRegion.contains_iff.mp hc
  have hpageOf : pageOf a = a.toNat / 4096 := by
    rw [pageOf]
    omega
  refine lookup_of_mem (h.layout_separate hv ha) (List.mem_map_of_mem hm) ?_
  rw [hp, Option.getD_some, valueAt, hpageOf, if_pos (Nat.div_le_div_right hle), ← hpage]
  congr 1
  dsimp only
  omega

/-- Every guest RAM address has a frame in the layout, and no other has. -/
theorem lookup_isSome_iff (ha : reqs.Pairwise RamRequest.Apart) {a : U64} (hlt : a.toNat < 2 ^ 48) :
    (lookup (ramLayout s.memory.memRegions) (pageOf a)).isSome = true ↔ InRam reqs a := by
  rw [h.inRam_iff hv]
  constructor
  · intro hsome
    obtain ⟨f, hf⟩ := Option.isSome_iff_exists.mp hsome
    obtain ⟨seg, hseg, hval⟩ := lookup_eq_some hf
    obtain ⟨region, hm, rfl⟩ := List.mem_map.mp hseg
    obtain ⟨r, hr, frames, hfr⟩ := h.mem_region hm
    have hin := valueAt_eq_some hval
    have hs := (hv r hr).start
    have hz := (hv r hr).size
    rw [hfr.pages, Option.getD_some, hfr.length, (hv r hr).numPages_eq, hfr.gpaStart, pageOf] at hin
    dsimp only at hin
    refine ⟨region, hm, (hfr.contains_iff (hv r hr) a).mpr ⟨?_, ?_⟩⟩ <;> omega
  · rintro ⟨region, hm, hc⟩
    obtain ⟨r, hr, frames, hfr⟩ := h.mem_region hm
    obtain ⟨page, hpage, -⟩ := (h.linked hv region hm).page_isOk hc hfr.pages
    rw [h.lookup_of_contains hv ha hm hc hfr.pages hpage]
    rfl

/-- One pass of an accessor handles bytes of one page of the layout. -/
theorem onPage (ha : reqs.Pairwise RamRequest.Apart) {gpa page : U64} {size copied off n : Nat} {region : GuestMemRegion}
    (hp : Pass s.memory.memRegions gpa size copied region page off n) :
    OnPage (ramLayout s.memory.memRegions) gpa copied n page off := by
  intro i hi
  have hc := regionAt_contains (hp.inUse i hi)
  obtain ⟨pages, hpages, hall⟩ := hp.pages
  obtain ⟨hpage, hoff⟩ := hall i hi
  have hstart := (h.linked hv region hp.mem).aligned hc
  obtain ⟨hle, -, -⟩ := GuestMemRegion.contains_iff.mp hc
  refine ⟨⟨h.lookup_of_contains hv ha hp.mem hc hpages hpage, ?_⟩, h.toNat_lt_of_contains hv hp.mem hc⟩
  omega

theorem outside_of_regionAt {gpa : U64} {k : Nat} (hn : regionAt s.memory.memRegions gpa k = none) :
    ¬ InRam reqs (gpa + BitVec.ofNat 64 k) := by
  rw [h.inRam_iff hv]
  rintro ⟨region, hm, hc⟩
  have hfind : findRegion s.memory.memRegions (gpa + BitVec.ofNat 64 k) = none := by
    cases k with
    | zero => simpa [regionAt] using hn
    | succ k =>
      rw [regionAt] at hn
      unfold regionFor at hn
      split at hn
      · split at hn
        · cases hn
        · exact hn
      · exact hn
  have hnone := List.find?_eq_none.mp hfind region hm
  exact hnone hc

/-- What every accessor does: its passes cover the bytes up to the first one outside guest RAM. -/
theorem access (ha : reqs.Pairwise RamRequest.Apart) {σ : Type} (clamp : Bool) (act : U64 → Nat → Nat → Nat → σ → σ)
    (gpa : U64) (size : Nat) (P : Nat → σ → Prop)
    (step : ∀ copied page off n st, OnPage (ramLayout s.memory.memRegions) gpa copied n page off → 0 < n →
      copied + n ≤ size → off + n ≤ 4096 → P copied st → P (copied + n) (act page off copied n st)) (st : σ) (h0 : P 0 st) :
    ∃ n st', accessLoop s.memory.memRegions clamp act gpa size none 0 st = .ok (n, st') ∧ Handled reqs gpa size n ∧
      P n st' := by
  have hat : regionFor s.memory.memRegions none (gpa + BitVec.ofNat 64 0) = regionAt s.memory.memRegions gpa 0 := by
    simp [regionFor, regionAt]
  rcases accessLoop_spec (h.linked hv) clamp act size P
    (fun copied region page off n st hp => step copied page off n st (h.onPage hv ha hp) hp.pos hp.inSize hp.inPage) 0 none st
    (by simp) hat (Nat.zero_le _) h0 with ⟨k, region, -, -, -, hr, hnone, -⟩ | ⟨n, st', he, -, hle, hback, hend, hP⟩
  · -- every region of guest RAM has a page array
    obtain ⟨r, -, frames, hf⟩ := h.mem_region (regionAt_mem hr)
    cases hf.pages.symm.trans hnone
  · refine ⟨n, st', he, ⟨hle, fun k hk => ?_, fun hlt => h.outside_of_regionAt hv (hend hlt)⟩, hP⟩
    obtain ⟨region, hm, hk', -⟩ := hback k (Nat.zero_le _) hk
    exact (h.inRam_iff hv _).mpr ⟨region, hm, regionAt_contains hk'⟩

end RamBuilt

/-- Host memory after a store to the first `n` bytes of a guest range: the bytes the EPT names hold the source, and
nothing else changed. -/
structure StoredThroughEpt (s : VmState) (gpa : U64) (src : Nat → Byte) (n : Nat) (after : Host) : Prop where
  written : ∀ k < n, ∀ hpa, translate s.eptState (gpa + BitVec.ofNat 64 k) = .ok hpa → hostByte after hpa = src k
  others : ∀ hpa, (∀ k < n, translate s.eptState (gpa + BitVec.ofNat 64 k) ≠ .ok hpa) →
    hostByte after hpa = hostByte s.host hpa

/-- The host's accessors and the EPT agree about guest RAM. -/
structure ViewsAgree (reqs : List RamRequest) (s : VmState) : Prop where
  mapped : ∀ gpa, InRam reqs gpa → ∃ hpa, translate s.eptState gpa = .ok hpa
  unmapped : ∀ gpa : U64, gpa.toNat < 2 ^ 48 → ¬ InRam reqs gpa → translate s.eptState gpa = .error .enoent
  distinct : ∀ gpa gpa' hpa, InRam reqs gpa → InRam reqs gpa' → translate s.eptState gpa = .ok hpa →
    translate s.eptState gpa' = .ok hpa → gpa = gpa'
  copyTo : ∀ gpa data, data ≠ [] → ∃ n after, relmVmCopyToGuest s gpa data = .ok (accessRet n, { s with host := after }) ∧
    Handled reqs gpa data.length n ∧ StoredThroughEpt s gpa (data.getD · 0) n after
  copyFrom : ∀ gpa size, 0 < size → ∃ n data, relmVmCopyFromGuest s gpa size = .ok (accessRet n, data) ∧
    Handled reqs gpa size n ∧ data.length = n ∧ ∀ k < n, ∀ hpa,
      translate s.eptState (gpa + BitVec.ofNat 64 k) = .ok hpa → data[k]? = some (hostByte s.host hpa)
  zero : ∀ gpa size, 0 < size → ∃ n after, relmVmZeroGuestMemory s gpa size = .ok (accessRet n, { s with host := after }) ∧
    Handled reqs gpa size n ∧ StoredThroughEpt s gpa (fun _ => 0) n after
  rejected : ∀ gpa, ¬ InRam reqs gpa →
    (∀ data, data ≠ [] → relmVmCopyToGuest s gpa data = .ok (-Errno.efault.code, s)) ∧
    (∀ size, 0 < size → relmVmCopyFromGuest s gpa size = .ok (-Errno.efault.code, [])) ∧
    ∀ size, 0 < size → relmVmZeroGuestMemory s gpa size = .ok (-Errno.efault.code, s)
  total : s.memory.totalGuestRam.toNat = (reqs.map (·.size.toNat)).sum

namespace RamBuilt

variable {reqs : List RamRequest} {s : VmState}

theorem stored_through_ept {gpa : U64} {src : Nat → Byte} {n : Nat} {after : Host} (hb : Backs (ramLayout s.memory.memRegions) s)
    (h : Stored (ramLayout s.memory.memRegions) gpa src s.host n after) : StoredThroughEpt s gpa src n after where
  written k hk hpa ht := by
    obtain ⟨f, hf, hfr, rfl⟩ := hb.translate_ok ht
    rw [hostByte_or_offset _ hfr]
    exact h.written k hk f _ ⟨hf, rfl⟩
  others hpa hnone := by
    refine h.others _ _ (Nat.mod_lt _ (by decide)) fun k hk hat => hnone k hk ?_
    have hfr := (hb.frames _ _ hat.1).1
    rw [hb.translate_eq, hat.1]
    refine congrArg Except.ok ?_
    rw [← BitVec.toNat_inj, toNat_or_offset hfr, hat.2, and_field_toNat _ _ 12 64 (by decide) (by decide)]
    have hlt := hpa.isLt
    omega

variable (h : RamBuilt reqs s) (hv : ∀ r ∈ reqs, r.Valid) (ha : reqs.Pairwise RamRequest.Apart)

include h hv ha

/-- The two accessors that write, with what they write as a function of the position. -/
theorem store (clamp : Bool) (chunk : Nat → Nat → List Byte) (src : Nat → Byte) (gpa : U64) (size : Nat)
    (hlen : ∀ copied n, copied + n ≤ size → (chunk copied n).length = n)
    (hsrc : ∀ copied n i, copied + n ≤ size → i < n → (chunk copied n).getD i 0 = src (copied + i)) :
    ∃ n after, accessLoop s.memory.memRegions clamp
        (fun page off copied n (host : Host) => host.writeBytes page off (chunk copied n)) gpa size none 0 s.host =
          .ok (n, after) ∧ Handled reqs gpa size n ∧ StoredThroughEpt s gpa src n after := by
  obtain ⟨n, after, hrun, hh, hs⟩ := h.access hv ha clamp _ gpa size (Stored (ramLayout s.memory.memRegions) gpa src s.host)
    (fun copied page off n st hp _ hle hoff hst =>
      hst.pass h.backs hp hoff (hlen copied n hle) fun i hi => hsrc copied n i hle hi) s.host
    ⟨fun k hk => absurd hk (Nat.not_lt_zero k), fun k hk => absurd hk (Nat.not_lt_zero k), fun _ _ _ _ => rfl⟩
  exact ⟨n, after, hrun, hh, stored_through_ept h.backs hs⟩

/-- An access that starts outside guest RAM handles nothing. -/
theorem reject {σ : Type} (clamp : Bool) (act : U64 → Nat → Nat → Nat → σ → σ) {gpa : U64} (size : Nat) (st : σ)
    (hout : ¬ InRam reqs gpa) : accessLoop s.memory.memRegions clamp act gpa size none 0 st = .ok (0, st) := by
  obtain ⟨n, st', hrun, hh, hP⟩ := h.access hv ha clamp act gpa size (fun n st' => n = 0 → st' = st)
    (fun _ _ _ n _ _ hpos _ _ _ hz => absurd hz (by omega)) st fun _ => rfl
  obtain rfl := hh.outside hout
  rw [hrun, hP rfl]

theorem copyTo (gpa : U64) (data : List Byte) (hd : data ≠ []) :
    ∃ n after, relmVmCopyToGuest s gpa data = .ok (accessRet n, { s with host := after }) ∧
      Handled reqs gpa data.length n ∧ StoredThroughEpt s gpa (data.getD · 0) n after := by
  obtain ⟨n, after, hrun, hh, hs⟩ := h.store hv ha true (fun copied n => (data.drop copied).take n) (data.getD · 0) gpa
    data.length (fun copied n hle => by simp; omega) fun copied n i hle hi => by
      simp [List.getD_eq_getElem?_getD, hi]
  refine ⟨n, after, ?_, hh, hs⟩
  rw [relmVmCopyToGuest, if_neg (fun hc => hd (List.length_eq_zero_iff.mp hc)), hrun]
  rfl

theorem zero (gpa : U64) (size : Nat) (hpos : 0 < size) :
    ∃ n after, relmVmZeroGuestMemory s gpa size = .ok (accessRet n, { s with host := after }) ∧
      Handled reqs gpa size n ∧ StoredThroughEpt s gpa (fun _ => 0) n after := by
  obtain ⟨n, after, hrun, hh, hs⟩ := h.store hv ha false (fun _ n => List.replicate n 0) (fun _ => 0) gpa size
    (fun _ n _ => List.length_replicate) fun _ n i _ hi => by simp [List.getD_eq_getElem?_getD, hi]
  refine ⟨n, after, ?_, hh, hs⟩
  rw [relmVmZeroGuestMemory, if_neg (by omega), hrun]
  rfl

theorem copyFrom (gpa : U64) (size : Nat) (hpos : 0 < size) :
    ∃ n data, relmVmCopyFromGuest s gpa size = .ok (accessRet n, data) ∧ Handled reqs gpa size n ∧ data.length = n ∧
      ∀ k < n, ∀ hpa, translate s.eptState (gpa + BitVec.ofNat 64 k) = .ok hpa →
        data[k]? = some (hostByte s.host hpa) := by
  obtain ⟨n, data, hrun, hh, hl⟩ := h.access hv ha true (fun page off _ n acc => acc ++ s.host.readBytes page off n) gpa size
    (Loaded (ramLayout s.memory.memRegions) gpa s.host) (fun copied page off n st hp _ _ _ hst => hst.pass hp) []
    ⟨rfl, fun k hk => absurd hk (Nat.not_lt_zero k)⟩
  refine ⟨n, data, ?_, hh, hl.length, fun k hk hpa ht => ?_⟩
  · rw [relmVmCopyFromGuest, if_neg (by omega), hrun]
    rfl
  · obtain ⟨f, hf, hfr, rfl⟩ := h.backs.translate_ok ht
    rw [hostByte_or_offset _ hfr]
    exact hl.read k hk f _ ⟨hf, rfl⟩

theorem total_eq : s.memory.totalGuestRam.toNat = (reqs.map (·.size.toNat)).sum := by
  have hpair : (reqs.map fun r => (r.gpaStart.toNat, r.size.toNat)).Pairwise
      fun a b => a.1 + a.2 ≤ b.1 ∨ b.1 + b.2 ≤ a.1 := by
    rw [List.pairwise_map]
    exact ha
  have hle := sum_length_le (2 ^ 48) (reqs.map fun r => (r.gpaStart.toNat, r.size.toNat)) hpair (by
    intro a hm
    obtain ⟨r, hr, rfl⟩ := List.mem_map.mp hm
    exact (hv r hr).fits)
  rw [List.map_map] at hle
  change (reqs.map (·.size.toNat)).sum ≤ 2 ^ 48 at hle
  rw [h.total, BitVec.toNat_ofNat]
  exact Nat.mod_eq_of_lt (by omega)

theorem viewsAgree : ViewsAgree reqs s where
  mapped gpa hin := by
    obtain ⟨region, hm, hc⟩ := (h.inRam_iff hv gpa).mp hin
    have hsome := (h.lookup_isSome_iff hv ha (h.toNat_lt_of_contains hv hm hc)).mpr hin
    obtain ⟨f, hf⟩ := Option.isSome_iff_exists.mp hsome
    rw [h.backs.translate_eq, hf]
    exact ⟨_, rfl⟩
  unmapped gpa hlt hout := by
    have hnone : lookup (ramLayout s.memory.memRegions) (pageOf gpa) = none := by
      by_contra hne
      exact hout ((h.lookup_isSome_iff hv ha hlt).mp (Option.isSome_iff_ne_none.mpr hne))
    rw [h.backs.translate_eq, hnone]
  distinct gpa gpa' hpa hin hin' ht ht' := by
    obtain ⟨region, hm, hc⟩ := (h.inRam_iff hv gpa).mp hin
    obtain ⟨region', hm', hc'⟩ := (h.inRam_iff hv gpa').mp hin'
    exact h.backs.translate_inj (h.toNat_lt_of_contains hv hm hc) (h.toNat_lt_of_contains hv hm' hc') ht ht'
  copyTo := h.copyTo hv ha
  copyFrom := h.copyFrom hv ha
  zero := h.zero hv ha
  rejected gpa hout := by
    refine ⟨fun data hd => ?_, fun size hpos => ?_, fun size hpos => ?_⟩
    · rw [relmVmCopyToGuest, if_neg (fun hc => hd (List.length_eq_zero_iff.mp hc)), h.reject hv ha _ _ _ _ hout]
      rfl
    · rw [relmVmCopyFromGuest, if_neg (by omega), h.reject hv ha _ _ _ _ hout]
      rfl
    · rw [relmVmZeroGuestMemory, if_neg (by omega), h.reject hv ha _ _ _ _ hout]
      rfl
  total := h.total_eq hv ha

end RamBuilt

theorem RamBuilt.of_created {h h' : Host} {ctx : EptContext} (hw : h.WellFormed) (hc : relmEptContextCreate h = (.ok ctx, h')) :
    RamBuilt [] (VmState.created h' ctx) where
  backs := by
    obtain ⟨he, halloc, -⟩ := contextCreate_spec hc
    have hbooks : h'.WellFormed := (hw.allocated halloc).congr rfl rfl rfl
    refine ⟨he.shape, he.pde, hbooks, fun a => congrArg _ (he.pte a), fun n f hf => ?_, fun m n f hm _ => ?_⟩
    · cases hf
    · cases hm
  regions := .nil
  total := rfl

/-- After any successful requests for disjoint ranges of whole pages below `2^48` on a new VM, the host's view of guest
RAM and the guest's are the same. -/
theorem host_view_agrees {h h' : Host} {ctx : EptContext} (hw : h.WellFormed) (hc : relmEptContextCreate h = (.ok ctx, h'))
    {reqs : List RamRequest} (hv : ∀ r ∈ reqs, r.Valid) (ha : reqs.Pairwise RamRequest.Apart)
    (hok : ∀ x ∈ (run RamRequest.exec (VmState.created h' ctx) reqs).1, x.2 = .ok ()) :
    ViewsAgree reqs (run RamRequest.exec (VmState.created h' ctx) reqs).2 := by
  have hadm : Admitted RamRequest.exec (fun _ r => r.Valid) (VmState.created h' ctx) reqs := admitted_of_forall hv _
  have hbuilt : RamBuilt ((run RamRequest.exec (VmState.created h' ctx) reqs).1.map Prod.fst)
      (run RamRequest.exec (VmState.created h' ctx) reqs).2 := by
    refine run_invariant (P := fun tr s => (∀ x ∈ tr, x.2 = .ok ()) → RamBuilt (tr.map Prod.fst) s) ?_
      (fun _ => .of_created hw hc) hadm hok
    intro tr s r hi hr hall
    have hprev := hi fun x hx => hall x (List.mem_append_left _ hx)
    have hlast := hall (r, (r.exec s).1) (by simp)
    rw [List.map_append]
    exact hprev.step hr hlast
  rw [run_map_fst] at hbuilt
  exact hbuilt.viewsAgree hv ha

/-- A VM for two ranges of guest RAM: the context, two pages and the tables, then one page more. -/
private def viewHost : Host :=
  Host.idle [some 0x1000#64, some 0x9000#64, some 0x2000#64, some 0x3000#64, some 0x4000#64, some 0xA000#64, some 0xB000#64]
    [true, true, true, true, true]

private def viewRequests : List RamRequest := [⟨0x2000#64, 0#64⟩, ⟨0x1000#64, 0x100000#64⟩]

private theorem viewRequests_valid : ∀ r ∈ viewRequests, r.Valid := by
  intro r hr
  simp only [viewRequests, List.mem_cons, List.not_mem_nil, or_false] at hr
  rcases hr with rfl | rfl
  · exact ⟨by decide, by decide, by decide⟩
  · exact ⟨by decide, by decide, by decide⟩

private theorem viewRequests_apart : viewRequests.Pairwise RamRequest.Apart :=
  .cons (by simp [RamRequest.Apart]) (.cons (by simp) .nil)

private def viewContext : EptContext where
  obj := 0
  pml4 := 0x1000#64
  pml4Pa := 0x1000#64
  eptp := 0x101E#64
  memtype := 6#64
  adEnabled := false
  stats := {}
  tables := [0x1000#64]

private def viewVm : VmState := VmState.created (relmEptContextCreate viewHost).2 viewContext

private theorem viewVm_created : relmEptContextCreate viewHost = (.ok viewContext, (relmEptContextCreate viewHost).2) := rfl

private theorem viewRequests_succeed : ∀ x ∈ (run RamRequest.exec viewVm viewRequests).1, x.2 = .ok () := by
  have hans : (run RamRequest.exec viewVm viewRequests).1.map Prod.snd = [.ok (), .ok ()] := by decide
  intro x hx
  have hmem := List.mem_map_of_mem (f := Prod.snd) hx
  rw [hans] at hmem
  simpa using hmem

/-- Two ranges, at 0 and at 1 MiB. -/
theorem host_view_agrees_two_ranges : ViewsAgree viewRequests (run RamRequest.exec viewVm viewRequests).2 ∧
    translate (run RamRequest.exec viewVm viewRequests).2.eptState 0x1234#64 = .ok 0xA234#64 :=
  ⟨host_view_agrees (.of_untouched rfl rfl) viewVm_created viewRequests_valid viewRequests_apart viewRequests_succeed,
    by decide⟩

/-- The walk looks at bits 12 to 47 only, so the address `2^48`, outside all ranges, reads as address 0. -/
theorem high_address_resolves : (∀ r ∈ viewRequests, r.Valid) ∧ viewRequests.Pairwise RamRequest.Apart ∧
    (∀ x ∈ (run RamRequest.exec viewVm viewRequests).1, x.2 = .ok ()) ∧ ¬ InRam viewRequests 0x1000000000000#64 ∧
    translate (run RamRequest.exec viewVm viewRequests).2.eptState 0x1000000000000#64 = .ok 0x9000#64 := by
  refine ⟨viewRequests_valid, viewRequests_apart, viewRequests_succeed, ?_, by decide⟩
  rintro ⟨r, hr, -, hlt⟩
  have hfits := (viewRequests_valid r hr).fits
  have hbig : (0x1000000000000#64).toNat = 2 ^ 48 := rfl
  omega

end Relm.Vm
