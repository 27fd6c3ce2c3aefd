import Relm.Vm.Copies
import Relm.Vmx.Mmu

/-! The page tables a VM is created with, seen by the software walk in long mode. -/
namespace Relm.Vm
open Relm.Ept Relm.Lib.Patch

variable {s : VmState} {region : GuestMemRegion} {frames : List U64}

theorem FlatRam.layout (h : FlatRam s region frames) : RamLayout s.memory.memRegions where
  linked := h.all_linked
  backed r hr := by
    rw [h.regions, List.mem_singleton] at hr
    rw [hr, h.pages]
    rfl
  bounded r hr := by
    rw [h.regions, List.mem_singleton] at hr
    have hsize := h.size_le
    rw [hr, h.start, show (0 : U64).toNat = 0 from rfl]
    omega
  disjoint := by
    rw [h.regions]
    exact List.pairwise_singleton _ _
  frames := by
    rw [h.regions, List.flatMap_cons, List.flatMap_nil, List.append_nil, h.pages]
    exact h.nodup

/-- Guest memory is the bytes of the pages, up to the end of RAM. -/
theorem FlatRam.guestMemory_eq (h : FlatRam s region frames) (a : Nat) :
    s.guestMemory a = if a < region.size.toNat then some (guestByte s.host frames a) else none := by
  have hmem : region ∈ s.memory.memRegions := by
    rw [h.regions]
    exact List.mem_singleton_self _
  have hzero : region.gpaStart.toNat = 0 := by
    rw [h.start]
    rfl
  by_cases ha : a < region.size.toNat
  · have hc : region.Covers a := ⟨by omega, by omega⟩
    obtain ⟨ps, page, hp, hi⟩ := h.layout.page_of_covers hmem hc
    obtain rfl := Option.some.inj (h.pages.symm.trans hp)
    rw [if_pos ha, VmState.guestMemory, h.layout.memory_of_covers hmem hc, byteAt_page hp hc hi]
    rw [hzero, Nat.sub_zero] at hi ⊢
    simp only [guestByte, hi]
  · rw [if_neg ha]
    refine memory_of_not_covered (fun r hr hc => ?_) _
    rw [h.regions, List.mem_singleton] at hr
    have hlt := hc.2
    rw [hr, hzero] at hlt
    omega

end Relm.Vm

namespace Relm.Vmx
open Relm.Vm Relm.Ept Relm.Lib.Patch Relm.Lib.Word

section Entry

variable {s : VmState} {gpa : U64}

/-- An entry whose eight bytes are RAM. -/
theorem mmuReadEntry_eq (k : RamLayout s.memory.memRegions) (w : U64)
    (h : ∀ j < 8, s.guestMemory (gpa.toNat + j) = some (getByte w j)) : mmuReadEntry s gpa 8 = pure w := by
  obtain ⟨n, data, hcopy, hlong, hdata⟩ := k.copyFrom gpa (show (8 : Nat) ≠ 0 by decide) (by decide)
  have hn : n = 8 := by
    by_contra hne
    have hlt : n < 8 := lt_of_le_of_ne hlong.le hne
    have hnone : s.guestMemory (gpa.toNat + n) = none := memory_of_not_covered (hlong.maximal hlt) _
    rw [h n hlt] at hnone
    cases hnone
  subst hn
  have heq : data = (List.range 8).map (getByte w) := by
    apply List.map_injective_iff.mpr (Option.some_injective _)
    rw [hdata, List.map_map]
    exact List.map_congr_left fun j hj => h j (List.mem_range.mp hj)
  rw [mmuReadEntry, hcopy]
  dsimp only
  rw [if_neg (by decide), heq, ofBytes_getByte]

end Entry

/-- The three tables of a guest stand in its memory from an address on. -/
def HasTables (s : VmState) (base : U64) : Prop :=
  ∀ k < 0x3000, s.guestMemory (base.toNat + k) = some (tablesImage base k)

section Image

variable (base : U64) {i j : Nat}

private theorem bufBytes_word (buf : Nat → U64) (hj : j < 8) (h : 8 * i + j < (bufBytes buf).length) :
    (bufBytes buf)[8 * i + j] = getByte (buf i) j := by
  simp only [bufBytes, List.getElem_map, List.getElem_range]
  rw [show (8 * i + j) / 8 = i by omega, show (8 * i + j) % 8 = j by omega]

theorem tablesImage_pml4 (hi : i < 512) (hj : j < 8) :
    tablesImage base (8 * i + j) = getByte (linkBuf (base + pageSize) i) j := by
  have hl := bufBytes_length (linkBuf (base + pageSize))
  rw [tablesImage, patch_of_mem (by omega) (by omega)]
  simp only [Nat.sub_zero]
  exact bufBytes_word _ hj _

theorem tablesImage_pdpt (hi : i < 512) (hj : j < 8) :
    tablesImage base (0x1000 + (8 * i + j)) = getByte (linkBuf (base + 2#64 * pageSize) i) j := by
  have hl := bufBytes_length (linkBuf (base + pageSize))
  have hl' := bufBytes_length (linkBuf (base + 2#64 * pageSize))
  rw [tablesImage, patch_of_ge (by omega), patch_of_mem (by omega) (by omega)]
  simp only [Nat.add_sub_cancel_left]
  exact bufBytes_word _ hj _

theorem tablesImage_pd (hi : i < 512) (hj : j < 8) :
    tablesImage base (0x2000 + (8 * i + j)) = getByte (pdBuf i) j := by
  have hl := bufBytes_length (linkBuf (base + pageSize))
  have hl' := bufBytes_length (linkBuf (base + 2#64 * pageSize))
  have hl'' := bufBytes_length pdBuf
  rw [tablesImage, patch_of_ge (by omega), patch_of_ge (by omega), patch_of_mem (by omega) (by omega)]
  simp only [Nat.add_sub_cancel_left]
  exact bufBytes_word _ hj _

end Image

section Walk

variable {v : Vmcs} {s : VmState} {base gva : U64}

/-- The index of an address into a table of one level. -/
theorem index_toNat (gva : U64) (k : Nat) : ((gva >>> k) &&& 0x1FF#64).toNat = gva.toNat / 2 ^ k % 512 :=
  field_toNat gva _ k 9 (by decide)

/-- The address of an entry. -/
theorem entry_toNat {table index : U64} {n : Nat} (ht : table.toNat = n) (hn : n + 0x1000 ≤ 2 ^ 52)
    (hi : index.toNat < 512) : (table + index * 8#64).toNat = n + 8 * index.toNat := by
  have hmul : (index * 8#64).toNat = 8 * index.toNat := by
    rw [BitVec.toNat_mul, show (8#64).toNat = 8 from rfl, Nat.mod_eq_of_lt (by omega), Nat.mul_comm]
  exact toNat_add_eq ht hmul (by omega)

/-- A link to a table is present, no leaf, and holds the address. -/
theorem link_entry (table : U64) (ha : table.toNat % 4096 = 0) (hlt : table.toNat < 2 ^ 52) :
    ((table ||| 0x7#64) &&& ptePresent == 0) = false ∧ ((table ||| 0x7#64) &&& ptePs != 0) = false ∧
      (table ||| 0x7#64) &&& pteAddrMask = table := by
  have hor : (table ||| 0x7#64).toNat = table.toNat + 7 := or_low_toNat _ _ 12 ha (by decide)
  refine ⟨?_, ?_, ?_⟩
  · rw [beq_eq_false_iff_ne]
    intro hc
    have h := congrArg BitVec.toNat hc
    rw [and_low_toNat _ ptePresent 1 (by decide), hor, show (0 : U64).toNat = 0 from rfl] at h
    omega
  · rw [bne_eq_false_iff_eq]
    apply BitVec.eq_of_toNat_eq
    rw [and_field_toNat _ ptePs 7 8 (by decide) (by decide), hor, show (0 : U64).toNat = 0 from rfl]
    omega
  · apply BitVec.eq_of_toNat_eq
    rw [and_field_toNat _ pteAddrMask 12 52 (by decide) (by decide), hor]
    omega

/-- An entry of the page directory is a present 2 MiB leaf, and gives an address of its own range back. -/
theorem leaf_entry {i : Nat} (hi : gva.toNat / 2 ^ 21 = i) (hlt : i < 512) :
    (pdBuf i &&& ptePresent == 0) = false ∧ (pdBuf i &&& ptePs != 0) = true ∧
      (pdBuf i &&& pteAddrMask &&& ~~~((1#64 <<< (12 + 9 * 1)) - 1)) ||| (gva &&& ((1#64 <<< (12 + 9 * 1)) - 1)) = gva := by
  have hmul : (BitVec.ofNat 64 i * 0x200000#64).toNat = 2 ^ 21 * i := scaled_toNat rfl (by decide) (by omega)
  have hor : (pdBuf i).toNat = 2 ^ 21 * i + 0x87 := by
    rw [pdBuf, or_low_toNat _ _ 21 (by rw [hmul]; omega) (by decide), hmul]
    rfl
  refine ⟨?_, ?_, ?_⟩
  · rw [beq_eq_false_iff_ne]
    intro hc
    have h := congrArg BitVec.toNat hc
    rw [and_low_toNat _ ptePresent 1 (by decide), hor, show (0 : U64).toNat = 0 from rfl] at h
    omega
  · rw [bne_iff_ne]
    intro hc
    have h := congrArg BitVec.toNat hc
    rw [and_field_toNat _ ptePs 7 8 (by decide) (by decide), hor, show (0 : U64).toNat = 0 from rfl] at h
    omega
  · have hbase : (pdBuf i &&& pteAddrMask &&& ~~~((1#64 <<< (12 + 9 * 1)) - 1)).toNat = i * 2 ^ 21 := by
      rw [and_field_toNat _ (~~~((1#64 <<< (12 + 9 * 1)) - 1)) 21 64 (by decide) (by decide),
        and_field_toNat _ pteAddrMask 12 52 (by decide) (by decide), hor]
      omega
    have hoff : (gva &&& ((1#64 <<< (12 + 9 * 1)) - 1)).toNat = gva.toNat % 2 ^ 21 := and_low_toNat _ _ 21 (by decide)
    apply BitVec.eq_of_toNat_eq
    rw [or_low_toNat _ _ 21 (by rw [hbase]; omega) (by rw [hoff]; exact Nat.mod_lt _ (by decide)), hbase, hoff]
    omega

/-- One level down through a link. -/
theorem mmuWalkLevels_link {below : Nat} {table entry : U64} (hb : below ≠ 0)
    (he : mmuReadEntry s (table + ((gva >>> (12 + 9 * below)) &&& 0x1FF#64) * 8#64) 8 = pure entry)
    (hpresent : (entry &&& ptePresent == 0) = false) (hps : (entry &&& ptePs != 0) = false) :
    mmuWalkLevels s gva (below + 1) table = mmuWalkLevels s gva below (entry &&& pteAddrMask) := by
  rw [mmuWalkLevels]
  dsimp only
  rw [he, pure_bind, hpresent, if_neg Bool.false_ne_true, hps, Bool.and_false, if_neg Bool.false_ne_true,
    if_neg (by simpa using hb)]

/-- The last level of a walk. -/
theorem mmuWalkLevels_page {table entry : U64}
    (he : mmuReadEntry s (table + ((gva >>> (12 + 9 * 0)) &&& 0x1FF#64) * 8#64) 8 = pure entry)
    (hpresent : (entry &&& ptePresent == 0) = false) :
    mmuWalkLevels s gva 1 table = pure ((entry &&& pteAddrMask) ||| (gva &&& 0xFFF#64)) := by
  rw [mmuWalkLevels]
  dsimp only
  rw [he, pure_bind, hpresent, if_neg Bool.false_ne_true, decide_eq_false (Nat.lt_irrefl 0), Bool.false_and,
    if_neg Bool.false_ne_true, if_pos (by decide)]

/-- Tables in RAM, on page boundaries that an entry can hold. -/
private structure Placed (s : VmState) (base : U64) : Prop where
  layout : RamLayout s.memory.memRegions
  tables : HasTables s base
  aligned : base.toNat % 4096 = 0
  bounded : base.toNat + 0x3000 ≤ 2 ^ 52

private theorem Placed.table_toNat (h : Placed s base) : (base + pageSize).toNat = base.toNat + 0x1000 ∧
    (base + 2#64 * pageSize).toNat = base.toNat + 0x2000 := by
  have hb := h.bounded
  exact ⟨toNat_add_eq rfl rfl (by omega), toNat_add_eq rfl rfl (by omega)⟩

private theorem Placed.readPml4 (h : Placed s base) {i : U64} (hi : i.toNat < 512) :
    mmuReadEntry s (base + i * 8#64) 8 = pure (linkBuf (base + pageSize) i.toNat) := by
  have hb := h.bounded
  refine mmuReadEntry_eq h.layout _ fun j hj => ?_
  rw [entry_toNat rfl (by omega) hi, Nat.add_assoc, h.tables _ (by omega), tablesImage_pml4 base hi hj]

private theorem Placed.readPdpt (h : Placed s base) {i : U64} (hi : i.toNat < 512) :
    mmuReadEntry s (base + pageSize + i * 8#64) 8 = pure (linkBuf (base + 2#64 * pageSize) i.toNat) := by
  have hb := h.bounded
  refine mmuReadEntry_eq h.layout _ fun j hj => ?_
  rw [entry_toNat h.table_toNat.1 (by omega) hi, Nat.add_assoc, Nat.add_assoc, h.tables _ (by omega),
    tablesImage_pdpt base hi hj]

private theorem Placed.readPd (h : Placed s base) {i : U64} (hi : i.toNat < 512) :
    mmuReadEntry s (base + 2#64 * pageSize + i * 8#64) 8 = pure (pdBuf i.toNat) := by
  have hb := h.bounded
  refine mmuReadEntry_eq h.layout _ fun j hj => ?_
  rw [entry_toNat h.table_toNat.2 (by omega) hi, Nat.add_assoc, Nat.add_assoc, h.tables _ (by omega),
    tablesImage_pd base hi hj]

/-- An index that is not 0 finds an entry that is not present. -/
theorem linkBuf_absent (table : U64) {i : Nat} (hi : i ≠ 0) : (linkBuf table i &&& ptePresent == 0) = true := by
  rw [linkBuf, if_neg hi]
  decide

/-- The walk from the page directory down. -/
private theorem Placed.walkPd (h : Placed s base) (hgva : gva.toNat < 2 ^ 30) :
    mmuWalkLevels s gva 2 (base + 2#64 * pageSize) = pure gva := by
  have hi := index_toNat gva (12 + 9 * 1)
  have hidx : ((gva >>> (12 + 9 * 1)) &&& 0x1FF#64).toNat = gva.toNat / 2 ^ 21 := by
    rw [hi]
    omega
  obtain ⟨hpresent, hps, hleaf⟩ := leaf_entry hidx.symm (by omega)
  rw [mmuWalkLevels]
  dsimp only
  rw [h.readPd (by omega), pure_bind, hpresent, if_neg Bool.false_ne_true, hps, Bool.and_true, if_pos (by decide),
    if_neg (by decide), hleaf]

/-- The walk from the page-directory-pointer table down. -/
private theorem Placed.walkPdpt (h : Placed s base) (hgva : gva.toNat < 2 ^ 39) :
    mmuWalkLevels s gva 3 (base + pageSize) = if gva.toNat < 2 ^ 30 then pure gva else throw .efault := by
  have hi := index_toNat gva (12 + 9 * 2)
  have hidx : ((gva >>> (12 + 9 * 2)) &&& 0x1FF#64).toNat = gva.toNat / 2 ^ 30 := by
    rw [hi]
    omega
  have hb := h.bounded
  have ha := h.aligned
  have ht := h.table_toNat.2
  obtain ⟨hpresent, hps, haddr⟩ := link_entry (base + 2#64 * pageSize) (by omega) (by omega)
  have hread := h.readPdpt (i := (gva >>> (12 + 9 * 2)) &&& 0x1FF#64) (by omega)
  by_cases hlow : gva.toNat < 2 ^ 30
  · rw [hidx, show gva.toNat / 2 ^ 30 = 0 by omega, linkBuf, if_pos rfl] at hread
    rw [if_pos hlow, mmuWalkLevels_link (by decide) hread hpresent hps, haddr, h.walkPd hlow]
  · rw [if_neg hlow, mmuWalkLevels]
    dsimp only
    rw [hread, pure_bind, linkBuf_absent _ (by omega), if_pos rfl]

/-- The whole walk: addresses below 1 GiB are their own translation, the others have none. -/
private theorem Placed.walkLong (h : Placed s base) (hcr3 : v.vmread guestCr3 = base) (hgva : gva.toNat < 2 ^ 48) :
    mmuWalkLong v s gva = if gva.toNat < 2 ^ 30 then pure gva else throw .efault := by
  have hi := index_toNat gva (12 + 9 * 3)
  have hidx : ((gva >>> (12 + 9 * 3)) &&& 0x1FF#64).toNat = gva.toNat / 2 ^ 39 := by
    rw [hi]
    omega
  have hb := h.bounded
  have ha := h.aligned
  have ht := h.table_toNat.1
  obtain ⟨hpresent, hps, haddr⟩ := link_entry (base + pageSize) (by omega) (by omega)
  have hroot : base &&& pteAddrMask = base := by
    apply BitVec.eq_of_toNat_eq
    rw [and_field_toNat _ pteAddrMask 12 52 (by decide) (by decide)]
    omega
  have hread := h.readPml4 (i := (gva >>> (12 + 9 * 3)) &&& 0x1FF#64) (by omega)
  rw [mmuWalkLong, hcr3, hroot]
  by_cases hlow : gva.toNat < 2 ^ 39
  · rw [hidx, show gva.toNat / 2 ^ 39 = 0 by omega, linkBuf, if_pos rfl] at hread
    rw [mmuWalkLevels_link (by decide) hread hpresent hps, haddr, h.walkPdpt hlow]
  · rw [if_neg (show ¬ gva.toNat < 2 ^ 30 by omega), mmuWalkLevels]
    dsimp only
    rw [hread, pure_bind, linkBuf_absent _ (by omega), if_pos rfl]

end Walk

/-- 64-bit paging with the root of the tables at an address. -/
structure LongMode (v : Vmcs) (root : U64) : Prop where
  pg : v.vmread guestCr0 &&& x86Cr0Pg ≠ 0
  lma : v.vmread guestIa32Efer &&& eferLma ≠ 0
  la57 : v.vmread guestCr4 &&& x86Cr4La57 = 0
  cr3 : v.vmread guestCr3 = root

theorem LongMode.gvaToGpa {v : Vmcs} {root : U64} (h : LongMode v root) (s : VmState) (gva : U64) :
    relmMmuGvaToGpa v s gva = mmuWalkLong v s gva := by
  have hpg : ¬ (v.vmread guestCr0 &&& x86Cr0Pg == 0) = true := fun hc => h.pg (beq_iff_eq.mp hc)
  have hla57 : ¬ (v.vmread guestCr4 &&& x86Cr4La57 != 0) = true := fun hc => bne_iff_ne.mp hc h.la57
  rw [relmMmuGvaToGpa, if_neg hpg, if_pos (bne_iff_ne.mpr h.lma), if_neg hla57]

/-- The page tables written at the top of guest RAM map the first GiB onto itself and nothing else, for as long as their
pages stay as they are; no other byte of the guest is touched. -/
theorem guest_tables_identity {s t : VmState} {region : GuestMemRegion} {frames : List U64} (h : FlatRam s region frames)
    (hsize : 0x3000 ≤ region.size.toNat) {pml4Gpa : U64} (heq : relmEptCreateGuestPageTables s = .ok (.ok pml4Gpa, t)) :
    (∀ a, a < region.size.toNat - 0x3000 ∨ region.size.toNat ≤ a → t.guestMemory a = s.guestMemory a) ∧
    ∀ (u : VmState) (v : Vmcs), u.memory.memRegions = t.memory.memRegions →
      (∀ a, region.size.toNat - 0x3000 ≤ a → a < region.size.toNat → u.guestMemory a = t.guestMemory a) →
      LongMode v pml4Gpa → ∀ gva : U64, gva.toNat < 2 ^ 48 →
        (relmMmuGvaToGpa v u gva).run = if gva.toNat < 2 ^ 30 then .ok (.ok gva) else .ok (.error .efault) := by
  obtain ⟨hflat, hholds, rfl, hbelow⟩ := h.createTables hsize heq
  refine ⟨fun a ha => ?_, fun u v hregions htables hlong gva hgva => ?_⟩
  · rw [hflat.guestMemory_eq, h.guestMemory_eq]
    rcases ha with ha | ha
    · rw [hbelow a ha]
    · rw [if_neg (by omega), if_neg (by omega)]
  · have hmax := h.size_le
    have hbase : (region.size - 3#64 * pageSize).toNat = region.size.toNat - 0x3000 :=
      toNat_sub_eq rfl rfl (show 3 * 4096 ≤ region.size.toNat by omega)
    have hpages := h.linked.size
    have hplaced : Placed u (region.size - 3#64 * pageSize) := by
      refine ⟨hregions ▸ hflat.layout, fun k hk => ?_, by omega, by omega⟩
      rw [hbase, htables _ (by omega) (by omega), hflat.guestMemory_eq, if_pos (by omega), hholds k hk]
    rw [hlong.gvaToGpa, hplaced.walkLong hlong.cr3 hgva]
    split <;> rfl

private def tableRegion : GuestMemRegion :=
  ⟨0, 1, 0#64, 0x3000#64, some [0x5000#64, 0x6000#64, 0x7000#64], 3, relmMemFRead⟩

/-- Three pages of RAM, and one slab object to come. -/
private def tableVm : VmState where
  host := Host.idle [] [true]
  ept := ⟨0, 0x1000#64, 0x1000#64, 0x101E#64, 6#64, false, {}, [0x1000#64]⟩
  memory := ⟨[tableRegion], 0x3000#64, []⟩
  rom := none

private theorem tableVm_flat : FlatRam tableVm tableRegion [0x5000#64, 0x6000#64, 0x7000#64] where
  regions := rfl
  linked := ⟨by decide, fun _ => by decide, by decide, fun ps hp => by cases hp; decide⟩
  pages := rfl
  start := rfl
  nodup := by decide
  isFrame f hf := by
    simp only [List.mem_cons, List.not_mem_nil, or_false] at hf
    rcases hf with rfl | rfl | rfl
    · exact ⟨by decide, by decide⟩
    · exact ⟨by decide, by decide⟩
    · exact ⟨by decide, by decide⟩
  total := rfl

/-- The smallest guest that the tables fit in: they are created, and the address 0x1234 is its own translation. -/
theorem guest_tables_identity_three_pages : ∃ t, relmEptCreateGuestPageTables tableVm = .ok (.ok 0#64, t) ∧
    (relmMmuGvaToGpa ⟨fun _ => true, fun e => if e = guestCr0 then x86Cr0Pg else if e = guestIa32Efer then eferLma else 0⟩ t
      0x1234#64).run = .ok (.ok 0x1234#64) := by
  obtain ⟨host, heq, -⟩ := tableVm_flat.createTables_ok (by decide) rfl
  refine ⟨_, heq, ?_⟩
  exact (guest_tables_identity tableVm_flat (by decide) heq).2 _ _ rfl (fun _ _ _ => rfl)
    ⟨by decide, by decide, by decide, rfl⟩ 0x1234#64 (by decide)

section Mapped

/-- Four pages of tables and one of data; the last table maps two virtual pages to the data. -/
private def mappedPages (f : U64) (i : Fin 512) : U64 :=
  if f = 0x11000#64 ∧ i.val = 0 then 0x1007#64
  else if f = 0x12000#64 ∧ i.val = 0 then 0x2007#64
  else if f = 0x13000#64 ∧ i.val = 2 then 0x3007#64
  else if f = 0x14000#64 ∧ i.val ≤ 1 then 0x4007#64
  else if f = 0x15000#64 ∧ i.val = 0 then 0x0201#64
  else if f = 0x15000#64 ∧ i.val = 511 then 0x0403000000000000#64
  else 0

private def mappedRegion : GuestMemRegion :=
  ⟨0, 1, 0#64, 0x5000#64, some [0x11000#64, 0x12000#64, 0x13000#64, 0x14000#64, 0x15000#64], 5, relmMemFRead⟩

/-- A guest whose own tables map the two pages from `0x400000` on to its page at `0x4000`. -/
def mappedVm : VmState where
  host := { Host.idle [] [] with mem := mappedPages }
  ept := ⟨0, 0x1000#64, 0x1000#64, 0x101E#64, 6#64, false, {}, [0x1000#64]⟩
  memory := ⟨[mappedRegion], 0x5000#64, []⟩
  rom := none

/-- That guest in 64-bit mode, its code segment included, at a CS base that does not count there. -/
def mappedVmcs : Vmcs where
  supported _ := true
  fields enc :=
    if enc = guestCr0 then x86Cr0Pg else if enc = guestIa32Efer then eferLma else if enc = guestCr4 then x86Cr4Pae
    else if enc = guestCsArBytes then csArBytesL else if enc = guestCsBase then 0xFFFF0000#64 else 0

theorem mapped_layout : RamLayout mappedVm.memory.memRegions where
  linked r hr := by
    obtain rfl := List.mem_singleton.mp hr
    exact ⟨by decide, fun _ => by decide, by decide, fun ps hp => by cases hp; decide⟩
  backed := by decide
  bounded := by decide
  disjoint := List.pairwise_singleton _ _
  frames := by decide

theorem mapped_longMode : LongMode mappedVmcs 0 := ⟨by decide, by decide, by decide, rfl⟩

private theorem mapped_entry (gpa w : U64)
    (h : ∀ j < 8, mappedVm.guestMemory (gpa.toNat + j) = some (getByte w j)) : mmuReadEntry mappedVm gpa 8 = pure w :=
  mmuReadEntry_eq mapped_layout w h

/-- Either page is translated to the page at `0x4000`. -/
theorem mapped_walk {gva : U64} (h : gva.toNat / 0x2000 = 0x200) :
    relmMmuGvaToGpa mappedVmcs mappedVm gva = pure (0x4000#64 ||| (gva &&& 0xFFF#64)) := by
  have h4 : (gva >>> (12 + 9 * 3)) &&& 0x1FF#64 = 0#64 := BitVec.eq_of_toNat_eq (by rw [index_toNat]; simp; omega)
  have h3 : (gva >>> (12 + 9 * 2)) &&& 0x1FF#64 = 0#64 := BitVec.eq_of_toNat_eq (by rw [index_toNat]; simp; omega)
  have h2 : (gva >>> (12 + 9 * 1)) &&& 0x1FF#64 = 2#64 := BitVec.eq_of_toNat_eq (by rw [index_toNat]; simp; omega)
  have e4 : mmuReadEntry mappedVm 0#64 8 = pure 0x1007#64 := mapped_entry _ _ (by decide)
  have e3 : mmuReadEntry mappedVm 0x1000#64 8 = pure 0x2007#64 := mapped_entry _ _ (by decide)
  have e2 : mmuReadEntry mappedVm 0x2010#64 8 = pure 0x3007#64 := mapped_entry _ _ (by decide)
  have e1 : mmuReadEntry mappedVm (0x3000#64 + ((gva >>> (12 + 9 * 0)) &&& 0x1FF#64) * 8#64) 8 = pure 0x4007#64 := by
    have hidx : ((gva >>> (12 + 9 * 0)) &&& 0x1FF#64) = 0#64 ∨ ((gva >>> (12 + 9 * 0)) &&& 0x1FF#64) = 1#64 := by
      rcases (show gva.toNat / 0x1000 % 512 = 0 ∨ gva.toNat / 0x1000 % 512 = 1 by omega) with hi | hi
      · exact .inl (BitVec.eq_of_toNat_eq ((index_toNat gva _).trans hi))
      · exact .inr (BitVec.eq_of_toNat_eq ((index_toNat gva _).trans hi))
    rcases hidx with hi | hi
    · rw [hi]
      exact mapped_entry _ _ (by decide)
    · rw [hi]
      exact mapped_entry _ _ (by decide)
  rw [mapped_longMode.gvaToGpa, mmuWalkLong, mapped_longMode.cr3,
    mmuWalkLevels_link (by decide) (by rw [h4]; exact e4) (by decide) (by decide),
    mmuWalkLevels_link (by decide) (by rw [h3]; exact e3) (by decide) (by decide),
    mmuWalkLevels_link (by decide) (by rw [h2]; exact e2) (by decide) (by decide),
    mmuWalkLevels_page (by exact e1) (by decide)]
  rfl

end Mapped

end Relm.Vmx
