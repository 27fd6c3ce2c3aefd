import Relm.Lib.Patch
import Relm.Vm.Create

/-! Guest RAM from address 0 on as a memory of bytes: what the accessors store in it, and what it holds when a VM has
been created. -/
namespace Relm.Vm
open Relm.Ept Relm.Lib.Patch Relm.Lib.Word

/-- Guest RAM is one region from 0 on, with distinct frames for its pages. -/
structure FlatRam (s : VmState) (region : GuestMemRegion) (frames : List U64) : Prop extends OneRegion s region frames where
  start : region.gpaStart = 0
  nodup : frames.Nodup
  isFrame : ∀ f ∈ frames, isFrame f
  total : s.memory.totalGuestRam = region.size

/-- The byte of guest RAM at a guest physical address. -/
def guestByte (h : Host) (frames : List U64) (a : Nat) : Byte :=
  match frames[a / 4096]? with
  | some page => h.byte page (a % 4096)
  | none => 0

/-- The byte that the accessors find at a guest physical address. -/
def VmState.ramByte (s : VmState) (gpa : U64) : Byte :=
  match findRegion s.memory.memRegions gpa with
  | none => 0
  | some region =>
    match region.page ((gpa - region.gpaStart).toNat / 4096) with
    | .error _ => 0
    | .ok page => s.host.byte page ((gpa - region.gpaStart).toNat % 4096)

section Store

variable {h : Host} {s : VmState} {region : GuestMemRegion} {frames : List U64} {gpa page : U64} {g : Nat} {data : List Byte}

/-- A copy into one page of guest RAM. -/
theorem guestByte_writeBytes (hn : frames.Nodup) (hp : frames[g / 4096]? = some page) (ho : g % 4096 + data.length ≤ 4096) :
    guestByte (h.writeBytes page (g % 4096) data) frames = patch (guestByte h frames) g data := by
  funext a
  cases hf : frames[a / 4096]? with
  | none =>
    rw [patch_outside]
    · simp only [guestByte, hf]
    · by_contra hc
      rw [show a / 4096 = g / 4096 by omega, hp] at hf
      cases hf
  | some f =>
    simp only [guestByte, hf]
    rw [Host.byte_writeBytes _ _ _ _ ho (Nat.mod_lt _ (by decide))]
    by_cases hpage : a / 4096 = g / 4096
    · have hfp : f = page := Option.some.inj (hf.symm.trans ((congrArg (frames[·]?) hpage).trans hp))
      by_cases hin : g ≤ a ∧ a < g + data.length
      · rw [if_pos ⟨hfp, by omega, by omega⟩, patch_of_mem hin.1 (by omega), show a % 4096 - g % 4096 = a - g by omega]
        exact List.getD_eq_getElem _ _ (by omega)
      · rw [if_neg (by omega), patch_outside (by omega)]
        simp only [guestByte, hf]
    · have hfp : f ≠ page := by
        rintro rfl
        obtain ⟨h1, e1⟩ := List.getElem?_eq_some_iff.mp hf
        obtain ⟨h2, e2⟩ := List.getElem?_eq_some_iff.mp hp
        exact hpage ((hn.getElem_inj_iff).mp (e1.trans e2.symm))
      rw [if_neg fun hc => hfp hc.1, patch_outside (by omega)]
      simp only [guestByte, hf]

/-- There are no more pages than physical frames. -/
theorem FlatRam.size_le (h : FlatRam s region frames) : region.size.toNat ≤ 2 ^ 52 := by
  have hlen : frames.length ≤ 2 ^ 40 := by
    have hn : (frames.map fun f => f.toNat / 4096).Nodup := by
      refine (List.nodup_map_iff_inj_on h.nodup).mpr fun f hf g hg hfg => ?_
      have h1 := (h.isFrame f hf).1
      have h2 := (h.isFrame g hg).1
      exact BitVec.eq_of_toNat_eq (by omega)
    have hsub : (frames.map fun f => f.toNat / 4096) ⊆ List.range (2 ^ 40) := by
      intro x hx
      obtain ⟨f, hf, rfl⟩ := List.mem_map.mp hx
      have hlt := (h.isFrame f hf).2
      exact List.mem_range.mpr (by omega)
    have hle := (hn.subperm hsub).length_le
    rwa [List.length_map, List.length_range] at hle
  have hpages := h.linked.pages frames h.pages
  rw [h.linked.nrPages] at hpages
  have hsize := h.linked.size
  omega

/-- In guest RAM the accessors find the bytes of its pages. -/
theorem FlatRam.ramByte_eq (h : FlatRam s region frames) {a : Nat} (ha : a < region.size.toNat) :
    s.ramByte (BitVec.ofNat 64 a) = guestByte s.host frames a := by
  have hlt := region.size.isLt
  have hnat : (BitVec.ofNat 64 a).toNat = a := by
    rw [BitVec.toNat_ofNat]
    exact Nat.mod_eq_of_lt (by omega)
  have hc : region.contains (BitVec.ofNat 64 a) = true := by
    rw [GuestMemRegion.contains_iff, h.start, hnat, show (0 : U64).toNat = 0 from rfl]
    omega
  have hfind : findRegion s.memory.memRegions (BitVec.ofNat 64 a) = some region := by
    simp only [findRegion, h.regions, List.find?_cons, hc]
  have hoff : (BitVec.ofNat 64 a - region.gpaStart).toNat = a := by
    rw [GuestMemRegion.offset_eq hc, hnat, h.start]
    rfl
  obtain ⟨page, hpage, hok⟩ := h.linked.page_isOk hc h.pages
  rw [← GuestMemRegion.offset_eq hc, hoff] at hpage hok
  simp only [VmState.ramByte, hfind, hoff, hok, guestByte, hpage]

/-- Every address of a range inside guest RAM is found in the region. -/
private theorem FlatRam.inRange (h : FlatRam s region frames) {length : Nat}
    (hfit : gpa.toNat + length ≤ region.size.toNat) {j : Nat} (hj : j < length) :
    (gpa + BitVec.ofNat 64 j).toNat = gpa.toNat + j ∧ regionAt s.memory.memRegions gpa j = some region := by
  have hlt := region.size.isLt
  have hadd : ∀ j < length, (gpa + BitVec.ofNat 64 j).toNat = gpa.toNat + j := fun j hj => add_offset rfl (by omega)
  have hin : ∀ j < length, region.contains (gpa + BitVec.ofNat 64 j) = true := by
    intro j hj
    rw [GuestMemRegion.contains_iff, h.start, hadd j hj, show (0 : U64).toNat = 0 from rfl]
    omega
  have hfirst : regionAt s.memory.memRegions gpa 0 = some region := by
    have h0c := hin 0 (by omega)
    rw [BitVec.add_zero] at h0c
    simp only [regionAt, findRegion, h.regions, List.find?_cons, h0c]
  have hnext := regionAt_add hfirst j fun i hi => by
    rw [Nat.zero_add]
    exact hin i (by omega)
  rw [Nat.zero_add] at hnext
  exact ⟨hadd j hj, hnext⟩

/-- What both accessors that write do with a range inside guest RAM. -/
private theorem FlatRam.store (h : FlatRam s region frames) (clamp : Bool) (chunk : Nat → Nat → List Byte)
    (hchunk : ∀ copied n, copied + n ≤ data.length → chunk copied n = (data.drop copied).take n)
    (hfit : gpa.toNat + data.length ≤ region.size.toNat) :
    ∃ host, accessLoop s.memory.memRegions clamp
        (fun page off copied n (host : Host) => host.writeBytes page off (chunk copied n)) gpa data.length none 0 s.host =
          .ok (data.length, host) ∧ guestByte host frames = patch (guestByte s.host frames) gpa.toNat data := by
  have hat : ∀ j < data.length, regionAt s.memory.memRegions gpa j = some region := fun j hj => (h.inRange hfit hj).2
  rcases @accessLoop_spec Host s.memory.memRegions gpa h.all_linked clamp
    (fun page off copied n (host : Host) => host.writeBytes page off (chunk copied n)) data.length
    (fun n host => guestByte host frames = patch (guestByte s.host frames) gpa.toNat (data.take n))
    (fun copied r page off n host hpass hk => by
      obtain ⟨ps, hps, hpage⟩ := hpass.pages
      have hr : r = region := by
        have hm := hpass.mem
        rwa [h.regions, List.mem_singleton] at hm
      rw [hr, h.pages] at hps
      obtain rfl := Option.some.inj hps
      have hsize := hpass.inSize
      have hn := hpass.pos
      obtain ⟨hp0, ho0⟩ := hpage 0 hn
      rw [Nat.add_zero, hr, (h.inRange hfit (show copied < data.length by omega)).1, h.start,
        show (0 : U64).toNat = 0 from rfl, Nat.sub_zero] at hp0 ho0
      have hlen : ((data.drop copied).take n).length = n := by
        rw [List.length_take, List.length_drop]
        omega
      have hoff : off = (gpa.toNat + copied) % 4096 := ho0.symm
      rw [hchunk copied n hsize, hoff, guestByte_writeBytes h.nodup hp0 (by have := hpass.inPage; omega), hk, List.take_add]
      have hstart : gpa.toNat + copied = gpa.toNat + (data.take copied).length := by
        rw [List.length_take]
        omega
      rw [hstart, patch_append])
    0 none s.host (fun _ hc => by cases hc) (by rw [BitVec.add_zero]; rfl) (Nat.zero_le _)
    (by rw [List.take_zero, patch_nil]) with
    ⟨n, r, -, hn, -, hr, hp, -⟩ | ⟨n, host, hloop, -, hle, -, hnone, hk⟩
  · rw [hat n hn] at hr
    obtain rfl := Option.some.inj hr
    rw [h.pages] at hp
    cases hp
  · have hn : n = data.length := by
      by_contra hne
      have hlt : n < data.length := by omega
      have hnone' := hnone hlt
      rw [hat n hlt] at hnone'
      cases hnone'
    rw [hn, List.take_length] at hk
    exact ⟨host, hn ▸ hloop, hk⟩

theorem toCInt_eq {n : Nat} (hmax : n < 2 ^ 31) : toCInt n = (n : Int) := by
  have hnat : (BitVec.ofNat 32 n).toNat = n := by
    rw [BitVec.toNat_ofNat]
    exact Nat.mod_eq_of_lt (by omega)
  rw [toCInt, BitVec.toInt_eq_toNat_of_lt (by rw [hnat]; omega), hnat]

theorem accessRet_eq {n : Nat} (hpos : n ≠ 0) (hmax : n < 2 ^ 31) : accessRet n = (n : Int) := by
  rw [accessRet, if_pos (by omega), toCInt_eq hmax]

/-- A copy of less than 2 GiB to a range inside guest RAM. -/
theorem FlatRam.copyTo (h : FlatRam s region frames) (gpa : U64) (data : List Byte)
    (hfit : gpa.toNat + data.length ≤ region.size.toNat) (hpos : data.length ≠ 0) (hmax : data.length < 2 ^ 31) :
    ∃ host, relmVmCopyToGuest s gpa data = .ok ((data.length : Int), { s with host }) ∧
      guestByte host frames = patch (guestByte s.host frames) gpa.toNat data := by
  obtain ⟨host, hloop, hmem⟩ := h.store true (fun copied n => (data.drop copied).take n) (fun _ _ _ => rfl) hfit
  refine ⟨host, ?_, hmem⟩
  rw [relmVmCopyToGuest, if_neg hpos, hloop]
  simp only [Except.map, accessRet_eq hpos hmax]

/-- Zeroing a range inside guest RAM. -/
theorem FlatRam.zero (h : FlatRam s region frames) (gpa : U64) (n : Nat) (hfit : gpa.toNat + n ≤ region.size.toNat)
    (hpos : n ≠ 0) (hmax : n < 2 ^ 31) :
    ∃ host, relmVmZeroGuestMemory s gpa n = .ok ((n : Int), { s with host }) ∧
      guestByte host frames = patch (guestByte s.host frames) gpa.toNat (List.replicate n 0) := by
  have hlen : (List.replicate n (0 : Byte)).length = n := List.length_replicate
  obtain ⟨host, hloop, hmem⟩ := h.store false (fun _ n => List.replicate n 0) (fun copied m hle => by
    rw [hlen] at hle
    rw [List.drop_replicate, List.take_replicate]
    congr 1
    omega) (hlen.symm ▸ hfit)
  rw [hlen] at hloop
  refine ⟨host, ?_, hmem⟩
  rw [relmVmZeroGuestMemory, if_neg hpos, hloop]
  simp only [Except.map, accessRet_eq hpos hmax]

theorem FlatRam.withHost (h : FlatRam s region frames) (host : Host) : FlatRam { s with host } region frames :=
  ⟨h.toOneRegion.withHost host, h.start, h.nodup, h.isFrame, h.total⟩

theorem guestByte_congr {h' : Host} (hm : h'.mem = h.mem) : guestByte h' frames = guestByte h frames := by
  funext a
  simp only [guestByte, Host.byte, hm]

end Store

section Created

variable {h0 : Host} {s : VmState} {region : GuestMemRegion} {frames : List U64} {objs : List Nat}

/-- The page loop records distinct frames. -/
private theorem ramLoop_frames (gpaStart : U64) (left i : Nat) (done : List U64) (s : VmState) (k : Ledger h0 s done objs)
    (hn : done.Nodup ∧ ∀ f ∈ done, isFrame f) :
    (ramLoop gpaStart left i done s).pages.Nodup ∧ ∀ f ∈ (ramLoop gpaStart left i done s).pages, isFrame f := by
  induction left generalizing i done s with
  | zero => exact hn
  | succ left ih =>
    unfold ramLoop
    rcases s.host.getFreePage_cases with hr | ⟨pa, hav, hr⟩
    · simp only [hr]
      exact hn
    · simp only [hr]
      have hmap := (k.take hav).mapPage (gpaStart + BitVec.ofNat 64 i * pageSize) pa relmRamFlags
      generalize vmxMemMapPage { s with host := s.host.take pa } _ pa relmRamFlags = r at hmap ⊢
      obtain ⟨ret, t⟩ := r
      cases ret with
      | error e => exact hn
      | ok _ =>
        have hnew : pa ∉ done := fun hc => hav.2.2 (k.holds.mem_live (List.mem_append_left _ hc))
        refine ih (i + 1) (done ++ [pa]) t (hmap.perm (List.perm_append_singleton pa done).symm) ⟨?_, fun f hf => ?_⟩
        · exact List.nodup_append.mpr ⟨hn.1, List.nodup_singleton pa, fun a ha b hb hab => hnew (by
            rw [← List.mem_singleton.mp hb, ← hab]
            exact ha)⟩
        · rcases List.mem_append.mp hf with hf | hf
          · exact hn.2 f hf
          · rw [List.mem_singleton.mp hf]
            exact hav.1

private theorem allocateGuestRam_frames (k : Ledger h0 s [] objs) {size gpaStart : U64} {t : VmState}
    (hok : relmVmAllocateGuestRam s size gpaStart = (.ok (), t)) {region : GuestMemRegion} {regions : List GuestMemRegion}
    (hr : t.memory.memRegions = region :: regions) (hp : region.pages = some frames) :
    frames.Nodup ∧ ∀ f ∈ frames, isFrame f := by
  unfold relmVmAllocateGuestRam ramStart at hok
  rcases s.host.kzalloc_cases with hk | hk
  · simp only [hk] at hok
    cases hok
  simp only [hk] at hok
  rcases s.host.slabTake.kzalloc_cases with hk' | hk'
  · simp only [hk'] at hok
    cases hok
  simp only [hk'] at hok
  have hn := ramLoop_frames gpaStart (numPages size) 0 [] _ k.slabTake.slabTake ⟨List.nodup_nil, by simp⟩
  generalize ramLoop gpaStart (numPages size) 0 [] { s with host := s.host.slabTake.slabTake } = r at hok hn
  obtain ⟨ret, pages, u⟩ := r
  cases ret with
  | error e => cases hok
  | ok _ =>
    cases hok
    obtain ⟨rfl, -⟩ := List.cons.inj hr
    obtain rfl := Option.some.inj hp
    exact hn

/-- The guest page tables, the PML4 first, as `relm_ept_create_guest_page_tables` writes them. -/
def tablesImage (base : U64) : Nat → Byte :=
  patch (patch (patch (fun _ => 0) 0x2000 (bufBytes pdBuf)) 0x1000 (bufBytes (linkBuf (base + 2#64 * pageSize)))) 0
    (bufBytes (linkBuf (base + pageSize)))

private theorem tablesImage_of (m : Nat → Byte) (start : Nat) (base : U64) :
    HoldsAt (patch (patch (patch m (start + 0x2000) (bufBytes pdBuf)) (start + 0x1000)
      (bufBytes (linkBuf (base + 2#64 * pageSize)))) (start + 0) (bufBytes (linkBuf (base + pageSize)))) start 0x3000
      (tablesImage base) := by
  have hrefl : HoldsAt m start 0x3000 fun k => m (start + k) := fun k _ => rfl
  have hwrites := ((hrefl.patch_within 0x2000 (bufBytes pdBuf)).patch_within 0x1000
    (bufBytes (linkBuf (base + 2#64 * pageSize)))).patch_within 0 (bufBytes (linkBuf (base + pageSize)))
  intro k hk
  rw [hwrites k hk, tablesImage]
  have hl := bufBytes_length
  apply patch_background
  by_cases h1 : k < 0x1000
  · exact .inl (by rw [hl]; omega)
  right
  apply patch_background
  by_cases h2 : k < 0x2000
  · exact .inl (by rw [hl]; omega)
  right
  apply patch_background
  exact .inl (by rw [hl]; omega)

private theorem below_tables (m : Nat → Byte) (start : Nat) (l₁ l₂ l₃ : List Byte) (a : Nat) (ha : a < start) :
    patch (patch (patch m (start + 0x2000) l₁) (start + 0x1000) l₂) (start + 0) l₃ a = m a := by
  rw [patch_of_lt (by omega), patch_of_lt (by omega), patch_of_lt (by omega)]

/-- The three pages below the end of guest RAM, where it has them. -/
private theorem FlatRam.base_toNat (h : FlatRam s region frames) (hsize : 0x3000 ≤ region.size.toNat) :
    guestTableBase s = region.size - 3#64 * pageSize ∧
      (region.size - 3#64 * pageSize + 2#64 * pageSize).toNat = region.size.toNat - 0x3000 + 0x2000 ∧
      (region.size - 3#64 * pageSize + pageSize).toNat = region.size.toNat - 0x3000 + 0x1000 ∧
      (region.size - 3#64 * pageSize).toNat = region.size.toNat - 0x3000 + 0 := by
  refine ⟨by rw [guestTableBase, h.total], ?_⟩
  have hlt := region.size.isLt
  simp only [BitVec.toNat_add, BitVec.toNat_sub, BitVec.toNat_mul, show pageSize.toNat = 4096 from rfl,
    show (3#64).toNat = 3 from rfl, show (2#64).toNat = 2 from rfl]
  omega

/-- With a buffer the guest page tables are created where guest RAM has three pages for them. -/
theorem FlatRam.createTables_ok (h : FlatRam s region frames) (hsize : 0x3000 ≤ region.size.toNat)
    (hk : s.host.kzalloc = (some s.host.slabNext, s.host.slabTake)) :
    ∃ host, relmEptCreateGuestPageTables s = .ok (.ok (region.size - 3#64 * pageSize), { s with host }) ∧
      guestByte host frames = patch (patch (patch (guestByte s.host frames) (region.size.toNat - 0x3000 + 0x2000)
        (bufBytes pdBuf)) (region.size.toNat - 0x3000 + 0x1000)
          (bufBytes (linkBuf (region.size - 3#64 * pageSize + 2#64 * pageSize)))) (region.size.toNat - 0x3000 + 0)
            (bufBytes (linkBuf (region.size - 3#64 * pageSize + pageSize))) := by
  obtain ⟨hbase, hpd, hpdpt, hpml4⟩ := h.base_toNat hsize
  have hl := bufBytes_length
  obtain ⟨h3, e3, m3⟩ := (h.withHost s.host.slabTake).copyTo (region.size - 3#64 * pageSize + 2#64 * pageSize)
    (bufBytes pdBuf) (by rw [hl, hpd]; omega) (by rw [hl]; decide) (by rw [hl]; decide)
  obtain ⟨h2, e2, m2⟩ := (h.withHost h3).copyTo (region.size - 3#64 * pageSize + pageSize)
    (bufBytes (linkBuf (region.size - 3#64 * pageSize + 2#64 * pageSize))) (by rw [hl, hpdpt]; omega) (by rw [hl]; decide)
    (by rw [hl]; decide)
  obtain ⟨h1, e1, m1⟩ := (h.withHost h2).copyTo (region.size - 3#64 * pageSize)
    (bufBytes (linkBuf (region.size - 3#64 * pageSize + pageSize))) (by rw [hl, hpml4]; omega) (by rw [hl]; decide)
    (by rw [hl]; decide)
  have hneg : ¬ ((4096 : Nat) : Int) < 0 := by decide
  have hfree : (h1.kfree s.host.slabNext).mem = h1.mem := by
    unfold Host.kfree
    split <;> rfl
  have hstart : guestByte s.host.slabTake frames = guestByte s.host frames := guestByte_congr rfl
  refine ⟨h1.kfree s.host.slabNext, ?_, ?_⟩
  · unfold relmEptCreateGuestPageTables
    rw [hbase]
    simp only [hk, e3, e2, e1, hl, bind, Except.bind, if_neg hneg, pure, Except.pure]
  · dsimp only at m1 m2 m3
    rw [guestByte_congr hfree, m1, m2, m3, hstart, hpd, hpdpt, hpml4]

/-- What a successful creation of the guest page tables leaves in guest RAM: the tables, and below them what was there. -/
theorem FlatRam.createTables (h : FlatRam s region frames) (hsize : 0x3000 ≤ region.size.toNat) {pml4Gpa : U64} {t : VmState}
    (heq : relmEptCreateGuestPageTables s = .ok (.ok pml4Gpa, t)) : FlatRam t region frames ∧
      HoldsAt (guestByte t.host frames) (region.size.toNat - 0x3000) 0x3000 (tablesImage (region.size - 3#64 * pageSize)) ∧
      pml4Gpa = region.size - 3#64 * pageSize ∧
      ∀ a < region.size.toNat - 0x3000, guestByte t.host frames a = guestByte s.host frames a := by
  rcases s.host.kzalloc_cases with hk | hk
  · unfold relmEptCreateGuestPageTables at heq
    simp only [hk] at heq
    cases heq
  obtain ⟨host, hcreate, hmem⟩ := h.createTables_ok hsize hk
  rw [hcreate] at heq
  cases heq
  refine ⟨h.withHost _, ?_⟩
  dsimp only
  rw [hmem]
  refine ⟨tablesImage_of _ _ _, rfl, ?_⟩
  exact below_tables _ _ _ _ _

end Created

/-- A VM created with RAM has it from 0 on, with the guest page tables in its last three pages. -/
theorem created_flat {supported : Bool} {ramSize : U64} {h : Host} {vm : RelmVm}
    (hc : relmCreateVm supported ramSize h = .ok (.vm vm)) (hram : 0 < ramSize) :
    ∃ region frames, FlatRam vm.vm region frames ∧ region.size = pageAlign ramSize ∧ 0x3000 ≤ region.size.toNat ∧
      HoldsAt (guestByte vm.vm.host frames) (region.size.toNat - 0x3000) 0x3000
        (tablesImage (region.size - 3#64 * pageSize)) := by
  unfold relmCreateVm at hc
  rcases h.kzalloc_cases with hk | hk
  · simp only [hk] at hc
    cases hc
  simp only [hk] at hc
  rcases setupEpt_spec supported (Host.Holds.start h).slabTake with ⟨e, h2, hs, -⟩ | ⟨ept, h2, hs, k2⟩
  · rw [hs] at hc
    cases hc
  rw [hs] at hc
  simp only [gt_iff_lt, if_pos hram] at hc
  rcases k2.allocateGuestRam ramSize 0 with ⟨⟨e, he⟩, -⟩ | ⟨hok, obj, pagesObj, frames, hlen, hmem, k3⟩
  · generalize relmVmAllocateGuestRam (VmState.created h2 ept) ramSize 0 = r at he hc
    obtain ⟨ret, s⟩ := r
    obtain rfl : ret = .error e := he
    cases hc
  · generalize hr : relmVmAllocateGuestRam (VmState.created h2 ept) ramSize 0 = r at hok hmem k3 hc
    obtain ⟨ret, s⟩ := r
    obtain rfl : ret = .ok () := hok
    rw [List.append_nil] at k3
    obtain ⟨hone, htotal⟩ := OneRegion.of_created hlen hmem
    obtain ⟨hnodup, hframes⟩ := allocateGuestRam_frames k2 hr hone.regions rfl
    have hflat : FlatRam s _ frames := ⟨hone, rfl, hnodup, hframes, htotal⟩
    obtain ⟨ret, host, htables, -, hiff⟩ := hone.createGuestPageTables k3 rfl htotal
    simp only [createTables, htables, bind, Except.bind] at hc
    cases ret with
    | error e => cases hc
    | ok pml4Gpa =>
      have hsize : 0x3000 ≤ (pageAlign ramSize).toNat := by
        have hpages := (hiff.mp rfl).1
        dsimp only at hpages
        omega
      obtain ⟨hflat', hholds, -, -⟩ := hflat.createTables hsize htables
      simp only [createVcpus] at hc
      rcases host.kzalloc_cases with hv | hv
      · simp only [hv] at hc
        cases hc
      · simp only [hv] at hc
        cases hc
        exact ⟨_, frames, hflat'.withHost _, rfl, hsize, hholds⟩

end Relm.Vm
