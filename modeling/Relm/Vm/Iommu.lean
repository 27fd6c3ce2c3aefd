import Relm.Vm.HostView

/-! Guest RAM in the IOMMU domain of a VM: the pages that a device can reach after `relm_iommu_map_guest_ram`, and when
they are all of guest RAM. -/
namespace Relm.Vm
open Relm.Ept Relm.Ept.EptState Relm.Lib.Run Relm.Lib.Segments Relm.Lib.Word

def iommuRead : U32 := 1#32 <<< 0
def iommuWrite : U32 := 1#32 <<< 1
def iommuCache : U32 := 1#32 <<< 2

/-- The IOMMU domains of the kernel. When `iommu_map` returns 0 for one page, exactly this page was mapped. -/
structure IommuApi where
  Domain : Type
  iommuMap : Domain → (iova pa size : U64) → (prot : U32) → Int × Domain
  iovaToPhys : Domain → U64 → Option U64
  map_page : ∀ d iova pa prot, iova.toNat % 4096 = 0 → pa.toNat % 4096 = 0 → (iommuMap d iova pa pageSize prot).1 = 0 →
    ∀ a, iovaToPhys (iommuMap d iova pa pageSize prot).2 a =
      if a.toNat / 4096 = iova.toNat / 4096 then some (pa + a % 4096#64) else iovaToPhys d a

/-- `struct relm_iommu_context`, without the list of devices. -/
structure IommuContext (K : IommuApi) where
  enabled : Bool
  domain : Option K.Domain
  nMappedPages : U64

namespace IommuContext

/-- What `relm_iommu_init` leaves: an enabled domain and no page counted. -/
def init {K : IommuApi} (d : K.Domain) : IommuContext K := { enabled := true, domain := some d, nMappedPages := 0 }

/-- Where the domain sends the address of a device. -/
def deviceView {K : IommuApi} (io : IommuContext K) (a : U64) : Option U64 := io.domain.bind fun d => K.iovaToPhys d a

end IommuContext

variable {K : IommuApi}

def relmIommuMap (io : IommuContext K) (gpa hpa size : U64) (write : Bool) : Int × IommuContext K :=
  match io.enabled, io.domain with
  | true, some d =>
    let prot := (if write then iommuRead ||| iommuWrite else iommuRead) ||| iommuCache
    match K.iommuMap d gpa hpa size prot with
    | (ret, d) =>
      if ret ≠ 0 then (ret, { io with domain := some d })
      else (0, { io with domain := some d, nMappedPages := io.nMappedPages + size / pageSize })
  | _, _ => (0, io)

/-- The loop of `relm_iommu_map_guest_ram`, with the number of its passes left. -/
def mapGuestRamLoop (s : EptState) : (left : Nat) → (gpa : U64) → IommuContext K → Int × IommuContext K
  | 0, _, io => (0, io)
  | left + 1, gpa, io =>
    match translate s gpa with
    | .error _ => mapGuestRamLoop s left (gpa + pageSize) io
    | .ok hpa =>
      match relmIommuMap io gpa (hpa &&& pageMask) pageSize true with
      | (ret, io) => if ret ≠ 0 then (ret, io) else mapGuestRamLoop s left (gpa + pageSize) io

/-- The total is a whole number of pages, so that the address of the loop reaches it before it wraps. -/
def relmIommuMapGuestRam (s : VmState) (io : IommuContext K) : Int × IommuContext K :=
  if !io.enabled || io.domain.isNone then (-Errno.einval.code, io)
  else mapGuestRamLoop s.eptState ((s.memory.totalGuestRam.toNat + 4095) / 4096) 0 io

section Loop

variable {s : EptState} {io : IommuContext K} {n : Nat}

/-- The EPT context has no block and its tables are sound. -/
structure Plain4kb (s : EptState) : Prop where
  shape : s.Shape
  noBlocks : ∀ a, s.pde a = none

theorem Plain4kb.translate_eq (h : Plain4kb s) (a : U64) : translate s a =
    match s.pte a with
    | none => .error .enoent
    | some e => .ok (entryAddr e + a % 4096#64) := by
  rw [Ept.translate, (getMapping_spec h.shape (h.noBlocks a)).2.2, Refines.offset_eq]
  cases s.pte a with
  | none => rfl
  | some e =>
    have hfr := isFrame_entryAddr e
    refine congrArg Except.ok ?_
    have hlt := hfr.2
    have hoff : (a % 4096#64).toNat = a.toNat % 4096 := BitVec.toNat_umod ..
    rw [← BitVec.toNat_inj, toNat_or_offset hfr, toNat_add_eq rfl hoff (by omega)]

/-- After `n` passes the domain agrees with the EPT below page `n` and has nothing above. -/
structure Copied (s : EptState) (n : Nat) (io : IommuContext K) : Prop where
  enabled : io.enabled = true
  domain : io.domain.isSome = true
  view : ∀ a : U64, io.deviceView a = if a.toNat < n * 4096 then (translate s a).toOption else none
  pages : (∀ k < n, (s.pte (pageAddr k)).isSome = true) → io.nMappedPages = BitVec.ofNat 64 n

private theorem pageOf_of_page {a : U64} (hn : n < 2 ^ 52) (ha : a.toNat / 4096 = n) : pageOf a = pageOf (pageAddr n) := by
  rw [pageOf, pageOf, pageAddr_toNat hn, ha]
  congr 1
  omega

/-- A hole of the EPT is skipped. -/
theorem Copied.skip (h : Copied s n io) (hp : Plain4kb s) (hn : n < 2 ^ 52) (hnone : s.pte (pageAddr n) = none) :
    Copied s (n + 1) io where
  enabled := h.enabled
  domain := h.domain
  view a := by
    rw [h.view a]
    by_cases ha : a.toNat / 4096 = n
    · rw [if_neg (by omega), if_pos (by omega), hp.translate_eq, pte_congr (pageOf_of_page hn ha), hnone]
      rfl
    · simp only [show (a.toNat < n * 4096) = (a.toNat < (n + 1) * 4096) by rw [eq_iff_iff]; omega]
  pages hall := by
    have hsome := hall n (Nat.lt_succ_self n)
    rw [hnone] at hsome
    cases hsome

private theorem pageMask_entryAddr (e : U64) (hn : n < 2 ^ 52) :
    (entryAddr e + pageAddr n % 4096#64) &&& pageMask = entryAddr e := by
  have hzero : pageAddr n % 4096#64 = 0#64 := by
    rw [← BitVec.toNat_inj, BitVec.toNat_umod, pageAddr_toNat hn]
    exact Nat.mul_mod_left n 4096
  rw [hzero, BitVec.add_zero, ← BitVec.toNat_inj, and_field_toNat _ _ 12 64 (by decide) (by decide)]
  have hfr := (isFrame_entryAddr e).1
  have hlt := (entryAddr e).isLt
  omega

/-- A page of the EPT is copied, if the kernel maps it. -/
theorem Copied.map {e : U64} (h : Copied s n io) (hp : Plain4kb s) (hn : n < 2 ^ 52) (he : s.pte (pageAddr n) = some e)
    (hret : (relmIommuMap io (pageAddr n) (entryAddr e) pageSize true).1 = 0) :
    Copied s (n + 1) (relmIommuMap io (pageAddr n) (entryAddr e) pageSize true).2 := by
  obtain ⟨d, hd⟩ := Option.isSome_iff_exists.mp h.domain
  have hview := h.view
  have halign : (pageAddr n).toNat % 4096 = 0 := by
    rw [pageAddr_toNat hn]
    exact Nat.mul_mod_left n 4096
  have hpage : (pageAddr n).toNat / 4096 = n := by
    rw [pageAddr_toNat hn]
    omega
  have hlaw := K.map_page d (pageAddr n) (entryAddr e) (iommuRead ||| iommuWrite ||| iommuCache) halign
    (isFrame_entryAddr e).1
  rcases hr : K.iommuMap d (pageAddr n) (entryAddr e) pageSize (iommuRead ||| iommuWrite ||| iommuCache) with ⟨ret, d'⟩
  rw [hr] at hlaw
  simp only [relmIommuMap, h.enabled, hd, if_true, hr] at hret ⊢
  by_cases hz : ret = 0
  · rw [if_neg (not_not.mpr hz)]
    refine ⟨rfl, rfl, fun a => ?_, fun hall => ?_⟩
    · have hold := hview a
      simp only [IommuContext.deviceView, hd, Option.bind_some] at hold ⊢
      rw [hlaw hz a, hpage]
      by_cases ha : a.toNat / 4096 = n
      · rw [if_pos ha, if_pos (by omega), hp.translate_eq, pte_congr (pageOf_of_page hn ha), he]
        rfl
      · rw [if_neg ha, hold]
        simp only [show (a.toNat < n * 4096) = (a.toNat < (n + 1) * 4096) by rw [eq_iff_iff]; omega]
    · change io.nMappedPages + pageSize / pageSize = BitVec.ofNat 64 (n + 1)
      rw [h.pages fun k hk => hall k (by omega), BitVec.ofNat_add]
      rfl
  · rw [if_pos hz] at hret
    exact absurd hret hz

theorem pageAddr_succ (n : Nat) : pageAddr n + pageSize = pageAddr (n + 1) := by
  have hone : pageSize = pageAddr 1 := rfl
  rw [hone, pageAddr_add_pageAddr]

/-- A loop that returns 0 has copied every page it walked over. -/
theorem Copied.loop (hp : Plain4kb s) (left : Nat) (hn : n + left ≤ 2 ^ 52) (h : Copied s n io)
    (hret : (mapGuestRamLoop s left (pageAddr n) io).1 = 0) :
    Copied s (n + left) (mapGuestRamLoop s left (pageAddr n) io).2 := by
  induction left generalizing n io with
  | zero => exact h
  | succ left ih =>
    have hnext : n + (left + 1) = n + 1 + left := by omega
    rw [hnext]
    have htr := hp.translate_eq (pageAddr n)
    simp only [mapGuestRamLoop] at hret ⊢
    cases he : s.pte (pageAddr n) with
    | none =>
      simp only [he] at htr
      simp only [htr, pageAddr_succ] at hret ⊢
      exact ih (by omega) (h.skip hp (by omega) he) hret
    | some e =>
      simp only [he] at htr
      simp only [htr, pageAddr_succ, pageMask_entryAddr e (show n < 2 ^ 52 by omega)] at hret ⊢
      have hmap := h.map hp (by omega) he
      generalize relmIommuMap io (pageAddr n) (entryAddr e) pageSize true = r at hmap hret ⊢
      obtain ⟨ret, io'⟩ := r
      by_cases hz : ret = 0
      · simp only [hz, ne_eq, not_true, if_false] at hret ⊢
        exact ih (by omega) (hmap hz) hret
      · simp only [ne_eq, hz, not_false_eq_true, if_true] at hret

end Loop

/-- Guest RAM only grows: every leaf of one state is one of the other. -/
structure Retains (s t : VmState) : Prop where
  plain : Plain4kb t.eptState
  leaf : ∀ a, (s.eptState.pte a).isSome = true → (t.eptState.pte a).isSome = true

namespace Retains

variable {s t u : VmState}

theorem trans (h : Retains s t) (h' : Retains t u) : Retains s u := ⟨h'.plain, fun a ha => h'.leaf a (h.leaf a ha)⟩

/-- A change of the host that keeps every table. -/
theorem host {h' : Host} (h : Plain4kb s.eptState) (hmem : ∀ f ∈ s.ept.tables, h'.mem f = s.host.mem f)
    (hlive : ∀ f ∈ s.host.live, f ∈ h'.live) : Retains s { s with host := h' } := by
  have hfr : Framed s.eptState ⟨h', s.ept⟩ := ⟨rfl, hmem, fun f hf => hlive f (h.shape.live f hf)⟩
  refine ⟨⟨hfr.shape h.shape, fun a => (hfr.pde h.shape a).trans (h.noBlocks a)⟩, fun a ha => ?_⟩
  have hpte : ({ s with host := h' } : VmState).eptState.pte a = _ := hfr.pte h.shape a
  rwa [hpte]

theorem take {pa : U64} (h : Plain4kb s.eptState) (hav : s.host.available pa) :
    Retains s { s with host := s.host.take pa } := by
  refine host h (fun f hf => ?_) fun f hf => List.mem_cons_of_mem _ hf
  have hne : f ≠ pa := fun hc => hav.2.2 (hc ▸ h.shape.live f hf)
  funext i
  exact Lib.TableTree.fill_other _ _ _ hne

theorem ramStart {obj pagesObj : Nat} (h : Plain4kb s.eptState) (hs : Vm.ramStart s = .ok (obj, pagesObj, t)) :
    Retains s t := by
  unfold Vm.ramStart at hs
  rcases s.host.kzalloc_cases with hk | hk
  · simp only [hk] at hs
    cases hs
  · simp only [hk] at hs
    rcases s.host.slabTake.kzalloc_cases with hk' | hk'
    · simp only [hk'] at hs
      cases hs
    · simp only [hk'] at hs
      obtain ⟨-, -, rfl⟩ := Prod.mk.inj (Except.ok.inj hs) |>.imp_right Prod.mk.inj
      exact host h (fun _ _ => rfl) fun _ hf => hf

/-- The leaf of one more page. -/
theorem leaves {e : EptState} {gpa leaf : U64} {st : EptStats} (h : Plain4kb s.eptState)
    (hl : Leaves s.eptState e (s.eptState.withPte gpa (some leaf)) s.eptState.pde st) :
    Retains s (s.withEpt e) ∧ ∀ a, pageOf a = pageOf gpa → ((s.withEpt e).eptState.pte a).isSome = true := by
  have hpte : ∀ a, (s.withEpt e).eptState.pte a = _ := hl.pte
  refine ⟨⟨⟨hl.shape, fun a => (hl.pde a).trans (h.noBlocks a)⟩, fun a ha => ?_⟩, fun a ha => ?_⟩
  · rw [hpte, withPte]
    split
    · rfl
    · exact ha
  · rw [hpte, withPte, if_pos ha]
    rfl

/-- A page loop that succeeds leaves a leaf for each of its pages. -/
theorem ramLoop (gpaStart : U64) (left i : Nat) (pages : List U64) (s : VmState) (h : Plain4kb s.eptState)
    (hok : (Vm.ramLoop gpaStart left i pages s).ret = .ok ()) :
    Retains s (Vm.ramLoop gpaStart left i pages s).next ∧ ∀ j < left, ∀ a,
      pageOf a = pageOf (gpaStart + BitVec.ofNat 64 (i + j) * pageSize) →
      ((Vm.ramLoop gpaStart left i pages s).next.eptState.pte a).isSome = true := by
  induction left generalizing i pages s with
  | zero => exact ⟨⟨h, fun _ ha => ha⟩, fun j hj => absurd hj (Nat.not_lt_zero j)⟩
  | succ left ih =>
    unfold Vm.ramLoop at hok ⊢
    rcases s.host.getFreePage_cases with hr | ⟨pa, hav, hr⟩
    · simp only [hr] at hok
      cases hok
    · simp only [hr, vmxMemMapPage] at hok ⊢
      have h1 := take h hav
      have ho := mapPage_spec (gpaStart + BitVec.ofNat 64 i * pageSize) pa (vmxEptFlags relmRamFlags) h1.plain.shape
        (h1.plain.noBlocks _)
      generalize relmEptMapPage _ (gpaStart + BitVec.ofNat 64 i * pageSize) pa (vmxEptFlags relmRamFlags) = r at ho hok ⊢
      rcases ho with ⟨_, rfl⟩ | ⟨_, hret, _, _, _⟩ | ⟨_, hret, ⟨hl, _⟩, _⟩
      · cases hok
      · simp only [hret] at hok
        cases hok
      · simp only [hret] at hok ⊢
        obtain ⟨h2, hnew⟩ := leaves h1.plain hl
        obtain ⟨h3, hrest⟩ := ih (i + 1) (pages ++ [pa]) _ h2.plain hok
        refine ⟨(h1.trans h2).trans h3, fun j hj a ha => ?_⟩
        cases j with
        | zero => exact h3.leaf a (hnew a ha)
        | succ j =>
          rw [show i + (j + 1) = i + 1 + j by omega] at ha
          exact hrest j (by omega) a ha

theorem allocateGuestRam {size gpaStart : U64} (h : Plain4kb s.eptState)
    (hok : (relmVmAllocateGuestRam s size gpaStart).1 = .ok ()) :
    Retains s (relmVmAllocateGuestRam s size gpaStart).2 ∧ ∀ j < numPages size, ∀ a,
      pageOf a = pageOf (gpaStart + BitVec.ofNat 64 j * pageSize) →
      ((relmVmAllocateGuestRam s size gpaStart).2.eptState.pte a).isSome = true := by
  unfold relmVmAllocateGuestRam at hok ⊢
  split at hok
  · cases hok
  · rename_i obj pagesObj t hs
    have h1 := ramStart h hs
    have hloop := ramLoop gpaStart (numPages size) 0 [] t h1.plain
    simp only at hok ⊢
    generalize Vm.ramLoop gpaStart (numPages size) 0 [] t = r at hok hloop ⊢
    obtain ⟨ret, pages, u⟩ := r
    cases ret with
    | error e => cases hok
    | ok x =>
      obtain ⟨h2, hnew⟩ := hloop rfl
      refine ⟨⟨⟨h2.plain.shape, h2.plain.noBlocks⟩, fun a ha => h2.leaf a (h1.leaf a ha)⟩, fun j hj a ha => ?_⟩
      rw [← Nat.zero_add j] at ha
      exact hnew j hj a ha

end Retains

/-- Whole pages, anywhere in the address space. -/
structure RamRequest.PageAligned (r : RamRequest) : Prop where
  start : r.gpaStart.toNat % 4096 = 0
  size : r.size.toNat % 4096 = 0
  fits : r.gpaStart.toNat + r.size.toNat ≤ 2 ^ 64

theorem RamRequest.PageAligned.size_eq {r : RamRequest} (h : r.PageAligned) : pageAlign r.size = r.size := by
  have hs := h.size
  have hlt := r.size.isLt
  have hup : (r.size + 4095#64).toNat = r.size.toNat + 4095 := toNat_add_eq rfl rfl (by omega)
  rw [← BitVec.toNat_inj, pageAlign, and_field_toNat _ _ 12 64 (by decide) (by decide), hup]
  omega

/-- After successful requests every page of guest RAM has its leaf. -/
structure Populated (reqs : List RamRequest) (s : VmState) : Prop where
  plain : Plain4kb s.eptState
  leaf : ∀ a, InRam reqs a → (s.eptState.pte a).isSome = true
  total : s.memory.totalGuestRam = BitVec.ofNat 64 (reqs.map (·.size.toNat)).sum

namespace Populated

variable {reqs : List RamRequest} {s : VmState}

theorem of_created {h h' : Host} {ctx : EptContext} (hc : relmEptContextCreate h = (.ok ctx, h')) :
    Populated [] (VmState.created h' ctx) where
  plain := by
    obtain ⟨he, -⟩ := contextCreate_spec hc
    exact ⟨he.shape, he.pde⟩
  leaf a := by
    rintro ⟨r, hr, -⟩
    cases hr
  total := rfl

theorem step {r : RamRequest} (h : Populated reqs s) (hv : r.PageAligned) (hok : (r.exec s).1 = .ok ()) :
    Populated (reqs ++ [r]) (r.exec s).2 := by
  obtain ⟨hkeep, hnew⟩ := Retains.allocateGuestRam h.plain hok
  refine ⟨hkeep.plain, ?_, ?_⟩
  · rintro a ⟨r', hr', hlo, hhi⟩
    rcases List.mem_append.mp hr' with hr' | hr'
    · exact hkeep.leaf a (h.leaf a ⟨r', hr', hlo, hhi⟩)
    · obtain rfl := List.mem_singleton.mp hr'
      have hs := hv.start
      have hz := hv.size
      have hf := hv.fits
      have hnum : numPages r'.size = r'.size.toNat / 4096 := by
        rw [numPages, hv.size_eq, div_pageSize]
      refine hnew ((a.toNat - r'.gpaStart.toNat) / 4096) (by rw [hnum]; omega) a ?_
      have hoff : (BitVec.ofNat 64 ((a.toNat - r'.gpaStart.toNat) / 4096) * pageSize).toNat =
          4096 * ((a.toNat - r'.gpaStart.toNat) / 4096) := scaled_toNat (by decide) (by decide) (by omega)
      rw [pageOf, pageOf, toNat_add_eq rfl hoff (by omega)]
      congr 1
      omega
  · rcases allocateGuestRam_memory s r.size r.gpaStart with ⟨⟨e, he⟩, -⟩ | ⟨-, region, frames, hmem, -⟩
    · rw [RamRequest.exec, he] at hok
      cases hok
    · rw [RamRequest.exec, hmem, hv.size_eq, h.total, List.map_append, List.sum_append, BitVec.ofNat_add]
      simp

end Populated

/-- The domain sends every guest RAM address where the EPT sends it, and counts the pages of guest RAM. -/
structure MirrorsRam (reqs : List RamRequest) (s : VmState) (io : IommuContext K) : Prop where
  mapped : ∀ gpa, InRam reqs gpa → ∃ hpa, translate s.eptState gpa = .ok hpa ∧ io.deviceView gpa = some hpa
  counted : io.nMappedPages.toNat = (reqs.map (·.size.toNat / 4096)).sum

section Total

variable {reqs : List RamRequest}

private theorem sum_pages (hv : ∀ r ∈ reqs, r.PageAligned) :
    (reqs.map (·.size.toNat)).sum = (reqs.map (·.size.toNat / 4096)).sum * 4096 := by
  induction reqs with
  | nil => rfl
  | cons r reqs ih =>
    have hz := (hv r List.mem_cons_self).size
    rw [List.map_cons, List.map_cons, List.sum_cons, List.sum_cons, ih fun r' hr' => hv r' (List.mem_cons_of_mem _ hr')]
    omega

private theorem pairs_apart (ha : reqs.Pairwise RamRequest.Apart) :
    (reqs.map fun r => (r.gpaStart.toNat, r.size.toNat)).Pairwise fun a b => a.1 + a.2 ≤ b.1 ∨ b.1 + b.2 ≤ a.1 := by
  rw [List.pairwise_map]
  exact ha

private theorem sum_le (hv : ∀ r ∈ reqs, r.PageAligned) (ha : reqs.Pairwise RamRequest.Apart) :
    (reqs.map (·.size.toNat)).sum ≤ 2 ^ 64 := by
  have hle := sum_length_le (2 ^ 64) _ (pairs_apart ha) (by
    intro a hm
    obtain ⟨r, hr, rfl⟩ := List.mem_map.mp hm
    exact (hv r hr).fits)
  rw [List.map_map] at hle
  exact hle

variable {total : U64} (hv : ∀ r ∈ reqs, r.PageAligned) (hbelow : ∀ gpa, InRam reqs gpa → gpa < total)

include hv hbelow

private theorem end_le {r : RamRequest} (hr : r ∈ reqs) (h0 : r.size.toNat ≠ 0) :
    r.gpaStart.toNat + r.size.toNat ≤ total.toNat := by
  have hf := (hv r hr).fits
  have hlast : (r.gpaStart + (r.size - 1#64)).toNat = r.gpaStart.toNat + (r.size.toNat - 1) :=
    toNat_add_eq rfl (toNat_sub_eq rfl rfl (by show 1 ≤ _; omega)) (by omega)
  have hlt := hbelow (r.gpaStart + (r.size - 1#64)) ⟨r, hr, by rw [hlast]; omega, by rw [hlast]; omega⟩
  rw [BitVec.lt_def, hlast] at hlt
  omega

variable (ha : reqs.Pairwise RamRequest.Apart) (htotal : total = BitVec.ofNat 64 (reqs.map (·.size.toNat)).sum)

include ha htotal

/-- The total does not wrap. -/
private theorem sum_eq : (reqs.map (·.size.toNat)).sum = total.toNat := by
  have hle := sum_le hv ha
  have hmod : total.toNat = (reqs.map (·.size.toNat)).sum % 2 ^ 64 := by
    rw [htotal, BitVec.toNat_ofNat]
  by_cases hbig : (reqs.map (·.size.toNat)).sum = 2 ^ 64
  · have hall : ∀ r ∈ reqs, r.size.toNat = 0 := by
      intro r hr
      by_contra h0
      have hend := end_le hv hbelow hr h0
      rw [hmod, hbig] at hend
      omega
    have hzero : (reqs.map (·.size.toNat)).sum = 0 := List.sum_eq_zero fun x hx => by
      obtain ⟨r, hr, rfl⟩ := List.mem_map.mp hx
      exact hall r hr
    omega
  · rw [hmod, Nat.mod_eq_of_lt (by omega)]

/-- Ranges below their total cover every address below it. -/
private theorem inRam_of_lt {gpa : U64} (hlt : gpa < total) : InRam reqs gpa := by
  have hsum := sum_eq hv hbelow ha htotal
  obtain ⟨a, hm, hlo, hhi⟩ := covered_of_sum_eq (pairs_apart ha) (by
    intro a hm h0
    obtain ⟨r, hr, rfl⟩ := List.mem_map.mp hm
    exact end_le hv hbelow hr h0) (by rw [List.map_map]; exact hsum) hlt
  obtain ⟨r, hr, rfl⟩ := List.mem_map.mp hm
  exact ⟨r, hr, hlo, hhi⟩

end Total

namespace Populated

variable {reqs : List RamRequest} {s : VmState} (h : Populated reqs s) (hv : ∀ r ∈ reqs, r.PageAligned)

include h hv

theorem total_aligned : s.memory.totalGuestRam.toNat % 4096 = 0 := by
  rw [h.total, BitVec.toNat_ofNat, sum_pages hv]
  omega

/-- What the domain holds when the function returned 0: the EPT below the byte total. -/
theorem copied {d : K.Domain} (hd : ∀ a, K.iovaToPhys d a = none)
    (hret : (relmIommuMapGuestRam s (.init d)).1 = 0) :
    Copied s.eptState (s.memory.totalGuestRam.toNat / 4096) (relmIommuMapGuestRam s (.init d)).2 := by
  have hround : (s.memory.totalGuestRam.toNat + 4095) / 4096 = s.memory.totalGuestRam.toNat / 4096 := by
    have hal := h.total_aligned hv
    omega
  have hlt := s.memory.totalGuestRam.isLt
  have hstart : Copied s.eptState 0 (.init d : IommuContext K) := by
    refine ⟨rfl, rfl, fun a => ?_, fun _ => rfl⟩
    rw [if_neg (by omega)]
    exact hd a
  have hloop := hstart.loop h.plain (s.memory.totalGuestRam.toNat / 4096) (by omega)
  rw [Nat.zero_add] at hloop
  simp only [relmIommuMapGuestRam, IommuContext.init, Bool.not_true, Option.isNone_some, Bool.or_self, Bool.false_eq_true,
    if_false, hround] at hret ⊢
  exact hloop hret

/-- The domain mirrors guest RAM when all of it lies below its byte total. -/
theorem mirrors (ha : reqs.Pairwise RamRequest.Apart) {io : IommuContext K}
    (hc : Copied s.eptState (s.memory.totalGuestRam.toNat / 4096) io)
    (hbelow : ∀ gpa, InRam reqs gpa → gpa < s.memory.totalGuestRam) : MirrorsRam reqs s io := by
  have hal := h.total_aligned hv
  have hlt := s.memory.totalGuestRam.isLt
  refine ⟨fun gpa hin => ?_, ?_⟩
  · obtain ⟨e, he⟩ := Option.isSome_iff_exists.mp (h.leaf gpa hin)
    have htr := h.plain.translate_eq gpa
    rw [he] at htr
    have hgpa := hbelow gpa hin
    rw [BitVec.lt_def] at hgpa
    refine ⟨_, htr, ?_⟩
    rw [hc.view gpa, if_pos (by omega), htr]
    rfl
  · have hall : ∀ k < s.memory.totalGuestRam.toNat / 4096, (s.eptState.pte (pageAddr k)).isSome = true := by
      intro k hk
      refine h.leaf _ (inRam_of_lt hv hbelow ha h.total ?_)
      rw [BitVec.lt_def, pageAddr_toNat (by omega)]
      omega
    have hsum := sum_eq hv hbelow ha h.total
    rw [sum_pages hv] at hsum
    rw [hc.pages hall, BitVec.toNat_ofNat, Nat.mod_eq_of_lt (by omega)]
    omega

end Populated

/-- An address from the byte total on is not in the domain. -/
theorem MirrorsRam.lt_total {reqs : List RamRequest} {s : VmState} {io : IommuContext K}
    (hc : Copied s.eptState (s.memory.totalGuestRam.toNat / 4096) io)
    (hm : MirrorsRam reqs s io) {gpa : U64} (hin : InRam reqs gpa) :
    gpa < s.memory.totalGuestRam := by
  obtain ⟨hpa, -, hview⟩ := hm.mapped gpa hin
  rw [hc.view gpa] at hview
  by_contra hge
  rw [BitVec.lt_def] at hge
  rw [if_neg (by omega)] at hview
  cases hview

theorem Populated.of_run {h h' : Host} {ctx : EptContext} (hc : relmEptContextCreate h = (.ok ctx, h'))
    {reqs : List RamRequest} (hv : ∀ r ∈ reqs, r.PageAligned)
    (hok : ∀ x ∈ (run RamRequest.exec (VmState.created h' ctx) reqs).1, x.2 = .ok ()) :
    Populated reqs (run RamRequest.exec (VmState.created h' ctx) reqs).2 := by
  have hadm : Admitted RamRequest.exec (fun _ r => r.PageAligned) (VmState.created h' ctx) reqs := admitted_of_forall hv _
  have hbuilt : Populated ((run RamRequest.exec (VmState.created h' ctx) reqs).1.map Prod.fst)
      (run RamRequest.exec (VmState.created h' ctx) reqs).2 := by
    refine run_invariant (P := fun tr s => (∀ x ∈ tr, x.2 = .ok ()) → Populated (tr.map Prod.fst) s) ?_
      (fun _ => .of_created hc) hadm hok
    intro tr s r hi hr hall
    have hprev := hi fun x hx => hall x (List.mem_append_left _ hx)
    have hlast := hall (r, (r.exec s).1) (by simp)
    rw [List.map_append]
    exact hprev.step hr hlast
  rwa [run_map_fst] at hbuilt

/-- After successful requests for disjoint ranges of whole pages, a call that returns 0 makes an empty domain mirror
guest RAM exactly when every guest RAM address lies below the byte total, up to which the call walks. -/
theorem iommu_mirrors_ram_iff {h h' : Host} {ctx : EptContext} (hc : relmEptContextCreate h = (.ok ctx, h'))
    {reqs : List RamRequest} (hv : ∀ r ∈ reqs, r.PageAligned) (ha : reqs.Pairwise RamRequest.Apart)
    (hok : ∀ x ∈ (run RamRequest.exec (VmState.created h' ctx) reqs).1, x.2 = .ok ()) {d : K.Domain}
    (hd : ∀ a, K.iovaToPhys d a = none)
    (hret : (relmIommuMapGuestRam (run RamRequest.exec (VmState.created h' ctx) reqs).2 (.init d)).1 = 0) :
    MirrorsRam reqs (run RamRequest.exec (VmState.created h' ctx) reqs).2
        (relmIommuMapGuestRam (run RamRequest.exec (VmState.created h' ctx) reqs).2 (.init d)).2 ↔
      ∀ gpa, InRam reqs gpa → gpa < (run RamRequest.exec (VmState.created h' ctx) reqs).2.memory.totalGuestRam := by
  have hpop := Populated.of_run hc hv hok
  have hcop := hpop.copied hv hd hret
  constructor
  · intro hm gpa hin
    exact hm.lt_total hcop hin
  · intro hbelow
    exact hpop.mirrors hv ha hcop hbelow

/-- A kernel whose domains are tables of pages; a page is mapped once. -/
private def dmaKernel : IommuApi where
  Domain := Nat → Option U64
  iommuMap d iova pa size _ :=
    if size ≠ pageSize then (-Errno.einval.code, d)
    else if (d (iova.toNat / 4096)).isSome then (-98, d)
    else (0, fun n => if n = iova.toNat / 4096 then some pa else d n)
  iovaToPhys d a := (d (a.toNat / 4096)).map (· + a % 4096#64)
  map_page d iova pa prot _ _ hret a := by
    simp only [ne_eq, not_true, if_false] at hret ⊢
    by_cases hm : (d (iova.toNat / 4096)).isSome
    · rw [if_pos hm] at hret
      cases hret
    · rw [if_neg hm]
      by_cases ha : a.toNat / 4096 = iova.toNat / 4096
      · simp only [ha, if_true, Option.map_some]
      · simp only [ha, if_false]

private def dmaDomain : dmaKernel.Domain := fun _ => none

/-- The context and its tables, and three pages of guest RAM. -/
private def dmaHost : Host :=
  Host.idle [some 0x1000#64, some 0x9000#64, some 0x2000#64, some 0x3000#64, some 0x4000#64, some 0xA000#64, some 0xB000#64]
    [true, true, true, true, true]

private def dmaContext : EptContext where
  obj := 0
  pml4 := 0x1000#64
  pml4Pa := 0x1000#64
  eptp := 0x101E#64
  memtype := 6#64
  adEnabled := false
  stats := {}
  tables := [0x1000#64]

private def dmaVm : VmState := VmState.created (relmEptContextCreate dmaHost).2 dmaContext

private theorem dmaVm_created : relmEptContextCreate dmaHost = (.ok dmaContext, (relmEptContextCreate dmaHost).2) := rfl

private theorem all_ok {tr : List (RamRequest × Except Errno Unit)} {n : Nat}
    (h : tr.map Prod.snd = List.replicate n (.ok ())) : ∀ x ∈ tr, x.2 = .ok () := by
  intro x hx
  have hmem := List.mem_map_of_mem (f := Prod.snd) hx
  rw [h] at hmem
  exact List.eq_of_mem_replicate hmem

/-- Two ranges one after the other. -/
private def dmaRequests : List RamRequest := [⟨0x2000#64, 0#64⟩, ⟨0x1000#64, 0x2000#64⟩]

private theorem dmaRequests_below (gpa : U64) (hin : InRam dmaRequests gpa) : gpa < 0x3000#64 := by
  obtain ⟨r, hr, -, hhi⟩ := hin
  simp only [dmaRequests, List.mem_cons, List.not_mem_nil, or_false] at hr
  rw [BitVec.lt_def]
  rcases hr with rfl | rfl
  · exact lt_trans hhi (by decide)
  · exact hhi

theorem iommu_mirrors_ram_iff_adjacent : MirrorsRam dmaRequests (run RamRequest.exec dmaVm dmaRequests).2
    (relmIommuMapGuestRam (run RamRequest.exec dmaVm dmaRequests).2 (.init dmaDomain)).2 := by
  refine (iommu_mirrors_ram_iff dmaVm_created ?_ ?_ ?_ (fun _ => rfl) ?_).mpr dmaRequests_below
  · intro r hr
    simp only [dmaRequests, List.mem_cons, List.not_mem_nil, or_false] at hr
    rcases hr with rfl | rfl <;> exact ⟨by decide, by decide, by decide⟩
  · exact .cons (by simp [RamRequest.Apart]) (.cons (by simp) .nil)
  · exact all_ok (n := 2) (by decide)
  · decide

/-- One page of guest RAM at 1 MiB. -/
private def dmaHighRequests : List RamRequest := [⟨0x1000#64, 0x100000#64⟩]

/-- The call looks at page 0 only, returns 0 and leaves the page of guest RAM out of the domain. -/
theorem ram_above_total_unmapped : (∀ r ∈ dmaHighRequests, r.PageAligned) ∧ dmaHighRequests.Pairwise RamRequest.Apart ∧
    (∀ x ∈ (run RamRequest.exec dmaVm dmaHighRequests).1, x.2 = .ok ()) ∧
    (∀ a, dmaKernel.iovaToPhys dmaDomain a = none) ∧
    (relmIommuMapGuestRam (run RamRequest.exec dmaVm dmaHighRequests).2 (.init dmaDomain)).1 = 0 ∧
    translate (run RamRequest.exec dmaVm dmaHighRequests).2.eptState 0x100000#64 = .ok 0x9000#64 ∧
    ¬ MirrorsRam dmaHighRequests (run RamRequest.exec dmaVm dmaHighRequests).2
      (relmIommuMapGuestRam (run RamRequest.exec dmaVm dmaHighRequests).2 (.init dmaDomain)).2 := by
  refine ⟨?_, .cons (by simp) .nil, all_ok (n := 1) (by decide), fun _ => rfl, by decide, by decide, fun hm => ?_⟩
  · intro r hr
    obtain rfl := List.mem_singleton.mp hr
    exact ⟨by decide, by decide, by decide⟩
  · obtain ⟨hpa, -, hview⟩ := hm.mapped 0x100000#64 ⟨_, List.mem_cons_self, by decide, by decide⟩
    have hnone : (relmIommuMapGuestRam (run RamRequest.exec dmaVm dmaHighRequests).2
        (.init dmaDomain)).2.deviceView 0x100000#64 = none := by decide
    rw [hnone] at hview
    cases hview

end Relm.Vm
