import Relm.Host.Owned
import Relm.Host.Supplied
import Relm.Vmx.MsrBitmap

/-! What a VMX VCPU owns: the allocations of `relm_vcpu_create`, their error ladder, and how `relm_vcpu_free` gives them
back. -/
namespace Relm.Vmx.VcpuAlloc
open Host

/-- `RELM_HOST_STACK_ORDER` and `HOST_STACK_ORDER`. -/
def relmHostStackOrder : Nat := 2

/-- `HOST_STACK_SIZE`. -/
def hostStackSize : U64 := pageSize <<< 2

/-- `VMCS_IO_BITMAP_PAGES_ORDER`. -/
def vmcsIoBitmapPagesOrder : Nat := 1

/-- `VMCS_PROC_USE_IO_BITMAPS`. -/
def vmcsProcUseIoBitmaps : U32 := 1#32 <<< 25

/-- `VMCS_PROC_USE_MSR_BITMAPS`. -/
def vmcsProcUseMsrBitmaps : U32 := 1#32 <<< 28

/-- `controls.primary_proc` as `relm_init_exec_controls` sets it. -/
def primaryProc : U32 :=
  vmcsProcUseMsrBitmaps ||| 1#32 <<< 31 ||| 1#32 <<< 7 ||| 1#32 <<< 19 ||| 1#32 <<< 20 ||| 1#32 <<< 21 ||| 1#32 <<< 24 |||
    vmcsProcUseIoBitmaps

def relmVcpuIoBitmapEnabled (primary : U32) : Bool := primary &&& vmcsProcUseIoBitmaps != 0
def relmVcpuMsrBitmapEnabled (primary : U32) : Bool := primary &&& vmcsProcUseMsrBitmaps != 0

/-- The order of the allocation in `relm_setup_vmcs_region`. The size comes from 13 bits of `IA32_VMX_BASIC`; when they are
zero `_get_vmcs_size` returns -1, whose page alignment wraps to zero, and `get_order(0)` is 52. -/
def vmcsAllocOrder (size : BitVec 13) : Nat :=
  if size = 0 then 52 else if size.toNat ≤ 4096 then getOrder 4096 else getOrder ((size.toNat + 4095) / 4096 * 4096)

/-- The order that `relm_free_vmcs_region` frees; `get_order` of -1 as a `size_t` is 52. -/
def vmcsFreeOrder (size : BitVec 13) : Nat := if size = 0 then 52 else getOrder size.toNat

/-- The memory that belongs to one `struct vcpu`; a bitmap is `none` for a `NULL` pointer. -/
structure VmxVcpu where
  obj : Nat
  hostStack : U64
  hostRsp : U64
  vapicPagePa : U64
  apicAccessPagePa : U64
  vmcsPa : U64
  ioBitmapPa : Option U64
  msrBitmapPa : Option U64
  areas : MsrAreas

/-- `relm_apic_alloc`: the virtual-APIC page and the APIC-access page. -/
def relmApicAlloc (h : Host) : Except Errno (U64 × U64) × Host :=
  match h.getFreePage with
  | (none, h) => (.error .enomem, h)
  | (some vapic, h) =>
    match h.getFreePage with
    | (none, h) => (.error .enomem, h.freePage vapic)
    | (some access, h) => (.ok (vapic, access), h)

def relmApicFree (pages : U64 × U64) (h : Host) : Host := (h.freePage pages.1).freePage pages.2

/-- The revision goes into the first four bytes of the zeroed region. -/
def relmSetupVmcsRegion (size : BitVec 13) (revision : U32) (h : Host) : Option U64 × Host :=
  match h.getFreePages (vmcsAllocOrder size) with
  | (none, h) => (none, h)
  | (some pa, h) => (some pa, h.writeWord pa firstWord ((h.mem pa firstWord &&& ~~~0xFFFFFFFF#64) ||| revision.setWidth 64))

def relmFreeVmcsRegion (size : BitVec 13) (pa : U64) (h : Host) : Host := h.freePages pa (vmcsFreeOrder size)

/-- `relm_setup_io_bitmap`; the two pages are cleared. -/
def relmSetupIoBitmap (h : Host) : Option U64 × Host := h.getFreePages (getOrder (2 * 4096))

def relmFreeIoBitmap (pa : Option U64) (h : Host) : Host :=
  match pa with
  | none => h
  | some pa => h.freePages pa vmcsIoBitmapPagesOrder

/-- `relm_setup_msr_bitmap`: a cleared page with the bits of the intercepted reads. -/
def relmSetupMsrBitmapPage (h : Host) : Option U64 × Host :=
  match h.getFreePage with
  | (none, h) => (none, h)
  | (some pa, h) => (some pa, h.writeBytes pa 0 ((relmSetupMsrBitmap (h.readBytes pa 0 4096)).getD []))

def relmFreeMsrBitmap (pa : Option U64) (h : Host) : Host :=
  match pa with
  | none => h
  | some pa => h.freePage pa

/-- The orders follow the counts, which `relm_setup_msr_areas` has stored. -/
def relmFreeAllMsrAreas (areas : MsrAreas) (h : Host) : Host :=
  let storeOrder := msrAreaOrder areas.vmexitStore.length
  let loadOrder := msrAreaOrder areas.vmentryLoad.length
  ((h.freePages areas.vmexitStorePa storeOrder).freePages areas.vmexitLoadPa loadOrder).freePages areas.vmentryLoadPa loadOrder

/-- A bitmap is set up only if the controls use it; `none` when there is no memory for it. -/
def setupIfEnabled (enabled : Bool) (setup : Host → Option U64 × Host) (h : Host) : Option (Option U64) × Host :=
  if enabled then ((setup h).1.map some, (setup h).2) else (some none, h)

/-- `vmx_vcpu_alloc` for the VCPU in `obj` whose stack has been allocated. -/
def vmxVcpuAlloc (size : BitVec 13) (revision : U32) (fsBase gsBase : U64) (obj : Nat) (stack : U64) (h : Host) :
    Except Errno VmxVcpu × Host :=
  match relmApicAlloc h with
  | (.error _, h) => (.error .enomem, h)
  | (.ok apic, h) =>
    match relmSetupVmcsRegion size revision h with
    | (none, h) => (.error .enomem, relmApicFree apic h)
    | (some vmcs, h) =>
      match setupIfEnabled (relmVcpuIoBitmapEnabled primaryProc) relmSetupIoBitmap h with
      | (none, h) => (.error .enomem, relmApicFree apic (relmFreeVmcsRegion size vmcs h))
      | (some io, h) =>
        match setupIfEnabled (relmVcpuMsrBitmapEnabled primaryProc) relmSetupMsrBitmapPage h with
        | (none, h) => (.error .enomem, relmApicFree apic (relmFreeVmcsRegion size vmcs (relmFreeIoBitmap io h)))
        | (some msr, h) =>
          match relmVcpuSetupMsrState h fsBase gsBase with
          | (.error _, h) =>
            (.error .enomem, relmApicFree apic (relmFreeVmcsRegion size vmcs (relmFreeIoBitmap io (relmFreeMsrBitmap msr h))))
          | (.ok areas, h) =>
            (.ok { obj, hostStack := stack, hostRsp := (stack + hostStackSize - 0x100#64) &&& ~~~0xF#64, vapicPagePa := apic.1,
                   apicAccessPagePa := apic.2, vmcsPa := vmcs, ioBitmapPa := io, msrBitmapPa := msr, areas }, h)

/-- `relm_vcpu_create` with the operations of VMX. -/
def relmVcpuCreate (size : BitVec 13) (revision : U32) (fsBase gsBase : U64) (h : Host) : Except Errno VmxVcpu × Host :=
  match h.kzalloc with
  | (none, h) => (.error .enomem, h)
  | (some obj, h) =>
    match h.getFreePages relmHostStackOrder with
    | (none, h) => (.error .enomem, h.kfree obj)
    | (some stack, h) =>
      match vmxVcpuAlloc size revision fsBase gsBase obj stack h with
      | (.error e, h) => (.error e, (h.freePages stack relmHostStackOrder).kfree obj)
      | (.ok v, h) => (.ok v, h)

def vmxVcpuFree (size : BitVec 13) (v : VmxVcpu) (h : Host) : Host :=
  relmFreeVmcsRegion size v.vmcsPa (relmFreeIoBitmap v.ioBitmapPa (relmFreeMsrBitmap v.msrBitmapPa
    (relmFreeAllMsrAreas v.areas (relmApicFree (v.vapicPagePa, v.apicAccessPagePa) h))))

def relmVcpuFree (size : BitVec 13) (v : VmxVcpu) (h : Host) : Host :=
  ((vmxVcpuFree size v h).freePages v.hostStack relmHostStackOrder).kfree v.obj

/-- The pages of a VCPU, in the order in which they are freed. -/
def VmxVcpu.pages (size : BitVec 13) (v : VmxVcpu) : List U64 :=
  v.vapicPagePa :: v.apicAccessPagePa :: (blockPages v.areas.vmexitStorePa (msrAreaOrder v.areas.vmexitStore.length) ++
    (blockPages v.areas.vmexitLoadPa (msrAreaOrder v.areas.vmentryLoad.length) ++
      (blockPages v.areas.vmentryLoadPa (msrAreaOrder v.areas.vmentryLoad.length) ++ (v.msrBitmapPa.toList ++
        (v.ioBitmapPa.elim [] (blockPages · vmcsIoBitmapPagesOrder) ++
          (blockPages v.vmcsPa (vmcsFreeOrder size) ++ blockPages v.hostStack relmHostStackOrder))))))

/-- What is freed is what was allocated, for every size that the processor can report. -/
theorem vmcsAllocOrder_eq (size : BitVec 13) : vmcsAllocOrder size = vmcsFreeOrder size := by
  rw [vmcsAllocOrder, vmcsFreeOrder]
  by_cases h0 : size = 0
  · rw [if_pos h0, if_pos h0]
  rw [if_neg h0, if_neg h0]
  have hlt := size.isLt
  have hpos : size.toNat ≠ 0 := fun hc => h0 (BitVec.eq_of_toNat_eq hc)
  by_cases hp : size.toNat ≤ 4096
  · rw [if_pos hp, getOrder, getOrder, if_pos (by decide), if_pos (by omega)]
  · have hround : (size.toNat + 4095) / 4096 * 4096 = 8192 := by omega
    have hpages : (size.toNat - 1) / 4096 = 1 := by omega
    rw [if_neg hp, hround, getOrder, getOrder, hpages]

section

variable {h0 h h' : Host} {pages : List U64} {objs : List Nat} {size : BitVec 13} {revision : U32} {fsBase gsBase : U64}

theorem relmApicAlloc_spec (k : Owns h0 h pages objs) :
    (∃ e h', relmApicAlloc h = (.error e, h') ∧ Owns h0 h' pages objs) ∨
    ∃ vapic access h', relmApicAlloc h = (.ok (vapic, access), h') ∧ Owns h0 h' (vapic :: access :: pages) objs := by
  rw [relmApicAlloc]
  rcases h.getFreePage_cases with hp | ⟨vapic, hav, hp⟩
  · simp only [hp]
    exact .inl ⟨_, _, rfl, k.refuse⟩
  · simp only [hp]
    have k1 := k.take hav
    rcases (h.take vapic).getFreePage_cases with hp | ⟨access, hav', hp⟩
    · simp only [hp]
      exact .inl ⟨_, _, rfl, k1.refuse.freePage⟩
    · simp only [hp]
      exact .inr ⟨vapic, access, _, rfl, (k1.take hav').perm (.swap ..)⟩

theorem relmApicFree_spec (apic : U64 × U64) (k : Owns h0 h (apic.1 :: apic.2 :: pages) objs) :
    Owns h0 (relmApicFree apic h) pages objs := k.freePage.freePage

variable (size revision) in
theorem relmSetupVmcsRegion_spec (k : Owns h0 h pages objs) :
    (∃ h', relmSetupVmcsRegion size revision h = (none, h') ∧ Owns h0 h' pages objs) ∨
    ∃ pa h', relmSetupVmcsRegion size revision h = (some pa, h') ∧
      Owns h0 h' (blockPages pa (vmcsFreeOrder size) ++ pages) objs := by
  rw [relmSetupVmcsRegion, vmcsAllocOrder_eq]
  rcases h.getFreePages_cases (vmcsFreeOrder size) with hp | ⟨pa, hn, hav, hp⟩
  · simp only [hp]
    exact .inl ⟨_, rfl, k.refuse⟩
  · simp only [hp]
    have hpa : pa ∈ blockPages pa (vmcsFreeOrder size) := by
      refine List.mem_map.mpr ⟨0, List.mem_range.mpr (Nat.two_pow_pos _), ?_⟩
      simp
    exact .inr ⟨pa, _, rfl, (k.takeBlock hn hav).writeWord (List.mem_append_left _ hpa) _ _⟩

theorem relmSetupIoBitmap_spec (k : Owns h0 h pages objs) :
    (∃ h', relmSetupIoBitmap h = (none, h') ∧ Owns h0 h' pages objs) ∨
    ∃ pa h', relmSetupIoBitmap h = (some pa, h') ∧ Owns h0 h' (blockPages pa vmcsIoBitmapPagesOrder ++ pages) objs := by
  have horder : getOrder (2 * 4096) = vmcsIoBitmapPagesOrder := by decide
  rw [relmSetupIoBitmap, horder]
  rcases h.getFreePages_cases vmcsIoBitmapPagesOrder with hp | ⟨pa, hn, hav, hp⟩
  · rw [hp]
    exact .inl ⟨_, rfl, k.refuse⟩
  · rw [hp]
    exact .inr ⟨pa, _, rfl, k.takeBlock hn hav⟩

theorem relmSetupMsrBitmapPage_spec (k : Owns h0 h pages objs) :
    (∃ h', relmSetupMsrBitmapPage h = (none, h') ∧ Owns h0 h' pages objs) ∨
    ∃ pa h', relmSetupMsrBitmapPage h = (some pa, h') ∧ Owns h0 h' (pa :: pages) objs := by
  rw [relmSetupMsrBitmapPage]
  rcases h.getFreePage_cases with hp | ⟨pa, hav, hp⟩
  · simp only [hp]
    exact .inl ⟨_, rfl, k.refuse⟩
  · simp only [hp]
    exact .inr ⟨pa, _, rfl, (k.take hav).writeBytes List.mem_cons_self _ _⟩

/-- The three areas, or none of them. -/
theorem relmSetupMsrAreas_spec (k : Owns h0 h pages objs) (vmexitList vmentryList : List MsrIndex) (vmentryValues : List U64)
    (hlen : vmentryValues.length = vmentryList.length) :
    (∃ e h', relmSetupMsrAreas h vmexitList vmentryList vmentryValues = (.error e, h') ∧ Owns h0 h' pages objs) ∨
    ∃ areas h', relmSetupMsrAreas h vmexitList vmentryList vmentryValues = (.ok areas, h') ∧
      Owns h0 h' (blockPages areas.vmexitStorePa (msrAreaOrder areas.vmexitStore.length) ++
        (blockPages areas.vmexitLoadPa (msrAreaOrder areas.vmentryLoad.length) ++
          (blockPages areas.vmentryLoadPa (msrAreaOrder areas.vmentryLoad.length) ++ pages))) objs := by
  rw [relmSetupMsrAreas]
  by_cases hbig : vmexitList.length > 65535 ∨ vmentryList.length > 65535
  · rw [if_pos hbig]
    exact .inl ⟨_, _, rfl, k⟩
  rw [if_neg hbig]
  dsimp only
  rcases h.getFreePages_cases (msrAreaOrder vmexitList.length) with hp | ⟨store, hn, hav, hp⟩
  · rw [hp]
    exact .inl ⟨_, _, rfl, k.refuse⟩
  have k1 := k.takeBlock hn hav
  rw [hp]
  dsimp only
  generalize h.takeAll (blockPages store (msrAreaOrder vmexitList.length)) = h1 at k1 ⊢
  rcases h1.getFreePages_cases (msrAreaOrder vmentryList.length) with hp | ⟨exitLoad, hn, hav, hp⟩
  · rw [hp]
    exact .inl ⟨_, _, rfl, k1.refuse.freePages⟩
  have k2 := k1.takeBlock hn hav
  rw [hp]
  dsimp only
  generalize h1.takeAll (blockPages exitLoad (msrAreaOrder vmentryList.length)) = h2 at k2 ⊢
  rcases h2.getFreePages_cases (msrAreaOrder vmentryList.length) with hp | ⟨entryLoad, hn, hav, hp⟩
  · rw [hp]
    exact .inl ⟨_, _, rfl, k2.refuse.freePages.freePages⟩
  have k3 := k2.takeBlock hn hav
  rw [hp]
  refine .inr ⟨_, _, rfl, k3.perm ?_⟩
  simp only [populateMsrStoreArea, populateMsrLoadArea, List.length_map, List.length_zipWith, hlen, Nat.min_self]
  simp only [List.perm_iff_count, List.count_append]
  intro f
  omega

variable (fsBase gsBase) in
theorem relmVcpuSetupMsrState_spec (k : Owns h0 h pages objs) :
    (∃ e h', relmVcpuSetupMsrState h fsBase gsBase = (.error e, h') ∧ Owns h0 h' pages objs) ∨
    ∃ areas h', relmVcpuSetupMsrState h fsBase gsBase = (.ok areas, h') ∧
      Owns h0 h' (blockPages areas.vmexitStorePa (msrAreaOrder areas.vmexitStore.length) ++
        (blockPages areas.vmexitLoadPa (msrAreaOrder areas.vmentryLoad.length) ++
          (blockPages areas.vmentryLoadPa (msrAreaOrder areas.vmentryLoad.length) ++ pages))) objs :=
  relmSetupMsrAreas_spec k managedMsrs managedMsrs (guestMsrValues fsBase gsBase) rfl

private theorem bitmaps_enabled : relmVcpuIoBitmapEnabled primaryProc = true ∧ relmVcpuMsrBitmapEnabled primaryProc = true := by
  decide

variable (size revision fsBase gsBase) in
/-- All the allocations succeed, or the ladder has undone those that did. -/
theorem vmxVcpuAlloc_spec {obj : Nat} {stack : U64}
    (k : Owns h0 h (blockPages stack relmHostStackOrder ++ pages) (obj :: objs)) :
    (∃ h', vmxVcpuAlloc size revision fsBase gsBase obj stack h = (.error .enomem, h') ∧
      Owns h0 h' (blockPages stack relmHostStackOrder ++ pages) (obj :: objs)) ∨
    ∃ v h', vmxVcpuAlloc size revision fsBase gsBase obj stack h = (.ok v, h') ∧ v.obj = obj ∧
      Owns h0 h' (v.pages size ++ pages) (obj :: objs) := by
  rw [vmxVcpuAlloc]
  rcases relmApicAlloc_spec k with ⟨e, h1, hr, k1⟩ | ⟨vapic, access, h1, hr, k1⟩
  · rw [hr]
    exact .inl ⟨h1, rfl, k1⟩
  rw [hr]
  dsimp only
  rcases relmSetupVmcsRegion_spec size revision k1 with ⟨h2, hr, k2⟩ | ⟨vmcs, h2, hr, k2⟩
  · rw [hr]
    exact .inl ⟨_, rfl, relmApicFree_spec _ k2⟩
  rw [hr]
  dsimp only
  rw [setupIfEnabled, if_pos bitmaps_enabled.1]
  rcases relmSetupIoBitmap_spec k2 with ⟨h3, hr, k3⟩ | ⟨io, h3, hr, k3⟩
  · rw [hr]
    exact .inl ⟨_, rfl, relmApicFree_spec _ k3.freePages⟩
  rw [hr]
  dsimp only [Option.map_some]
  rw [setupIfEnabled, if_pos bitmaps_enabled.2]
  rcases relmSetupMsrBitmapPage_spec k3 with ⟨h4, hr, k4⟩ | ⟨msr, h4, hr, k4⟩
  · rw [hr]
    exact .inl ⟨_, rfl, relmApicFree_spec _ k4.freePages.freePages⟩
  rw [hr]
  dsimp only [Option.map_some]
  rcases relmVcpuSetupMsrState_spec fsBase gsBase k4 with ⟨e, h5, hr, k5⟩ | ⟨areas, h5, hr, k5⟩
  · rw [hr]
    exact .inl ⟨_, rfl, relmApicFree_spec _ k5.freePage.freePages.freePages⟩
  rw [hr]
  refine .inr ⟨_, h5, rfl, rfl, k5.perm ?_⟩
  simp only [VmxVcpu.pages, Option.toList_some, Option.elim_some, List.perm_iff_count, List.count_append, List.count_cons,
    List.count_nil]
  intro f
  omega

variable (size revision fsBase gsBase) in
/-- `relm_vcpu_create` leaves nothing behind when it fails, and otherwise exactly the memory of the new VCPU. -/
theorem relmVcpuCreate_spec (k : Owns h0 h pages objs) :
    (∃ h', relmVcpuCreate size revision fsBase gsBase h = (.error .enomem, h') ∧ Owns h0 h' pages objs) ∨
    ∃ v h', relmVcpuCreate size revision fsBase gsBase h = (.ok v, h') ∧ Owns h0 h' (v.pages size ++ pages) (v.obj :: objs) := by
  rw [relmVcpuCreate]
  rcases h.kzalloc_cases with hk | hk
  · rw [hk]
    exact .inl ⟨_, rfl, k.congr rfl rfl rfl fun _ _ => rfl⟩
  rw [hk]
  dsimp only
  have k1 := k.slabTake
  rcases h.slabTake.getFreePages_cases relmHostStackOrder with hp | ⟨stack, hn, hav, hp⟩
  · rw [hp]
    exact .inl ⟨_, rfl, k1.refuse.kfree⟩
  rw [hp]
  dsimp only
  rcases vmxVcpuAlloc_spec size revision fsBase gsBase (k1.takeBlock hn hav)
    with ⟨h2, hr, k2⟩ | ⟨v, h2, hr, hobj, k2⟩
  · rw [hr]
    exact .inl ⟨_, rfl, k2.freePages.kfree⟩
  · rw [hr]
    exact .inr ⟨v, h2, rfl, hobj ▸ k2⟩

section Supply

variable {rest : List (U64 × Nat)} {pa : U64}

private theorem relmSetupVmcsRegion_ok (k : h.HandsOut ((pa, vmcsAllocOrder size) :: rest)) :
    ∃ h', relmSetupVmcsRegion size revision h = (some pa, h') ∧ h'.HandsOut rest := by
  obtain ⟨hfree, k'⟩ := k.getFreePages
  rw [relmSetupVmcsRegion, hfree]
  exact ⟨_, rfl, k'.writeWord pa firstWord _⟩

private theorem relmSetupMsrBitmapPage_ok (k : h.HandsOut ((pa, 0) :: rest)) :
    ∃ h', relmSetupMsrBitmapPage h = (some pa, h') ∧ h'.HandsOut rest := by
  obtain ⟨hfree, k'⟩ := k.getFreePage
  rw [relmSetupMsrBitmapPage, hfree]
  exact ⟨_, rfl, k'.writeBytes pa 0 _⟩

/-- On a host that hands out the nine blocks, and an object, the VCPU is created. -/
theorem relmVcpuCreate_ok {stack vapic access vmcs io msr store exitLoad entryLoad : U64}
    (hobj : h.slabAnswers.head? = some true)
    (k : h.HandsOut [(stack, relmHostStackOrder), (vapic, 0), (access, 0), (vmcs, vmcsAllocOrder size), (io, getOrder (2 * 4096)),
      (msr, 0), (store, msrAreaOrder managedMsrs.length), (exitLoad, msrAreaOrder managedMsrs.length),
      (entryLoad, msrAreaOrder managedMsrs.length)]) :
    ∃ v h', relmVcpuCreate size revision fsBase gsBase h = (.ok v, h') := by
  have hk : h.kzalloc = (some h.slabNext, h.slabTake) := by
    unfold Host.kzalloc
    rw [hobj]
  obtain ⟨e1, k1⟩ := (k.congr rfl rfl rfl : h.slabTake.HandsOut _).getFreePages
  obtain ⟨e2, k2⟩ := k1.getFreePage
  obtain ⟨e3, k3⟩ := k2.getFreePage
  obtain ⟨h4, e4, k4⟩ := @relmSetupVmcsRegion_ok _ size revision _ _ k3
  obtain ⟨e5, k5⟩ := k4.getFreePages
  obtain ⟨h6, e6, k6⟩ := relmSetupMsrBitmapPage_ok k5
  obtain ⟨e7, k7⟩ := k6.getFreePages
  obtain ⟨e8, k8⟩ := k7.getFreePages
  obtain ⟨e9, -⟩ := k8.getFreePages
  rw [relmVcpuCreate, hk]
  simp only [e1, vmxVcpuAlloc, relmApicAlloc, e2, e3, e4, setupIfEnabled, bitmaps_enabled.1, bitmaps_enabled.2, if_true,
    relmSetupIoBitmap, e5, e6, Option.map_some]
  rw [relmVcpuSetupMsrState, relmSetupMsrAreas, if_neg (by decide)]
  simp only [e7, e8, e9]
  exact ⟨_, _, rfl⟩

end Supply

/-- Whenever it is called, `relm_vcpu_free` gives back exactly the memory of the VCPU. -/
theorem relmVcpuFree_spec {v : VmxVcpu} (k : Owns h0 h (v.pages size ++ pages) (v.obj :: objs)) :
    Owns h0 (relmVcpuFree size v h) pages objs := by
  rw [VmxVcpu.pages] at k
  simp only [List.append_assoc, List.cons_append] at k
  have k1 := (relmApicFree_spec (v.vapicPagePa, v.apicAccessPagePa) k).freePages.freePages.freePages
  have k2 : Owns h0 (relmFreeMsrBitmap v.msrBitmapPa (relmFreeAllMsrAreas v.areas
      (relmApicFree (v.vapicPagePa, v.apicAccessPagePa) h))) (v.ioBitmapPa.elim [] (blockPages · vmcsIoBitmapPagesOrder) ++
        (blockPages v.vmcsPa (vmcsFreeOrder size) ++ (blockPages v.hostStack relmHostStackOrder ++ pages))) (v.obj :: objs) := by
    cases hm : v.msrBitmapPa with
    | none =>
      rw [hm] at k1
      exact k1
    | some pa =>
      rw [hm] at k1
      exact k1.freePage
  have k3 : Owns h0 (relmFreeIoBitmap v.ioBitmapPa (relmFreeMsrBitmap v.msrBitmapPa (relmFreeAllMsrAreas v.areas
      (relmApicFree (v.vapicPagePa, v.apicAccessPagePa) h)))) (blockPages v.vmcsPa (vmcsFreeOrder size) ++
        (blockPages v.hostStack relmHostStackOrder ++ pages)) (v.obj :: objs) := by
    cases hm : v.ioBitmapPa with
    | none =>
      rw [hm] at k2
      exact k2
    | some pa =>
      rw [hm] at k2
      exact k2.freePages
  exact k3.freePages.freePages.kfree

end

/-- For every pattern of failures and every VMCS size, `relm_vcpu_create` keeps nothing, or distinct new pages and one
object, writes nothing that was in use, and `relm_vcpu_free` gives all of it back. -/
theorem vcpu_memory_balanced (size : BitVec 13) (revision : U32) (fsBase gsBase : U64) (h : Host) :
    (∃ h', relmVcpuCreate size revision fsBase gsBase h = (.error .enomem, h') ∧ h.Holds h' [] []) ∨
    ∃ v h', relmVcpuCreate size revision fsBase gsBase h = (.ok v, h') ∧ h.Holds h' (v.pages size) [v.obj] ∧
      (v.pages size).Nodup ∧ (∀ f ∈ h.live, h'.mem f = h.mem f) ∧ h.Holds (relmVcpuFree size v h') [] [] := by
  rcases relmVcpuCreate_spec size revision fsBase gsBase (Owns.start h) with
    ⟨h', hr, k⟩ | ⟨v, h', hr, k⟩
  · exact .inl ⟨h', hr, k.holds⟩
  · refine .inr ⟨v, h', hr, ?_⟩
    have hfree := relmVcpuFree_spec k
    rw [List.append_nil] at k
    exact ⟨k.holds, k.nodup, k.frame, hfree.holds⟩

end Relm.Vmx.VcpuAlloc
