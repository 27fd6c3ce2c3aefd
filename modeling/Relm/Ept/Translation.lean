import Mathlib.Tactic.NormNum.GCD
import Relm.Ept.GuestRam

/-! What the processor makes of the tables, and when huge-preferred mapping of guest RAM agrees with 4 KiB
mapping: the 2 MiB entry multiplies the host address by the address mask. -/
namespace Relm.Ept
open EptState Relm.Lib.Word

def eptAddrMask2mb : U64 := 0x000FFFFFFFE00000#64

/-- The processor's walk: host address and granted accesses. A PD entry with the PS bit is a 2 MiB leaf, and an
access is granted when every level grants it. -/
def hwTranslate (s : EptState) (gpa : U64) : Option (U64 × U64) :=
  let pml4e := s.host.mem s.ctx.pml4 (eptPml4Index gpa)
  if !present pml4e then none
  else
    let pdpte := s.host.mem (entryAddr pml4e) (eptPdptIndex gpa)
    if !present pdpte then none
    else
      let pde := s.host.mem (entryAddr pdpte) (eptPdIndex gpa)
      if !present pde then none
      else if isPs pde then
        some ((pde &&& eptAddrMask2mb) ||| (gpa &&& (eptPageSize2mb - 1)), pde &&& (pdpte &&& (pml4e &&& eptRwx)))
      else
        let pte := s.host.mem (entryAddr pde) (eptPtIndex gpa)
        if !present pte then none
        else some (entryAddr pte ||| eptPageOffset gpa, pte &&& (pde &&& (pdpte &&& (pml4e &&& eptRwx))))

section Walk

variable {s : EptState} {p : List (Fin 512)} {g : U64} {i : Fin 512}

private theorem link_rwx (sh : Shape s) (hl : p.length ≤ 2) (hp : s.walk p = some g)
    (hpr : present (s.host.mem g i) = true) (hps : isPs (s.host.mem g i) = false) :
    s.host.mem g i &&& eptRwx = eptRwx := by
  have hw : Lib.TableTree.walk tableOf s.host.mem s.ctx.pml4 p = some g := hp
  have hl := sh.links p i hl
  rw [weak, Lib.TableTree.leafAt, hw, Option.bind_some] at hl
  simpa [tableOf, hpr, hps] using hl

/-- The processor sees the 2 MiB leaf of an address, else its 4 KiB leaf. -/
theorem hwTranslate_eq (sh : Shape s) (a : U64) : hwTranslate s a = match s.pde a with
    | some e => some ((e &&& eptAddrMask2mb) ||| (a &&& (eptPageSize2mb - 1)), e &&& eptRwx)
    | none => (s.pte a).map fun e => (entryAddr e ||| eptPageOffset a, e &&& eptRwx) := by
  have hroot : s.walk [] = some s.ctx.pml4 := rfl
  have u1 := sh.upper [] (eptPml4Index a) (by simp)
  have h1 : s.walk [eptPml4Index a] = _ := walk_slot hroot u1
  rw [huge_eq hroot] at u1
  by_cases a1 : present (s.host.mem s.ctx.pml4 (eptPml4Index a)) = true
  swap
  · rw [if_neg a1] at h1
    have hd : s.pde a = none := huge_none (walk_append_none h1 [_])
    have ht : s.pte a = none := leaf_none (walk_append_none h1 [_, _])
    simp [hwTranslate, a1, hd, ht]
  rw [if_pos a1] at h1
  have p1 : isPs (s.host.mem s.ctx.pml4 (eptPml4Index a)) = false := by simpa [a1] using u1
  have r1 := link_rwx sh (by simp) hroot a1 p1
  generalize hpml4e : s.host.mem s.ctx.pml4 (eptPml4Index a) = pml4e at *
  have u2 := sh.upper [eptPml4Index a] (eptPdptIndex a) (by simp)
  have h2 : s.walk (gpaPath2 a) = _ := walk_slot h1 u2
  rw [huge_eq h1] at u2
  by_cases a2 : present (s.host.mem (entryAddr pml4e) (eptPdptIndex a)) = true
  swap
  · rw [if_neg a2] at h2
    have hd : s.pde a = none := huge_none h2
    have ht : s.pte a = none := leaf_none (walk_append_none h2 [_])
    simp [hwTranslate, hpml4e, a1, a2, hd, ht]
  rw [if_pos a2] at h2
  have p2 : isPs (s.host.mem (entryAddr pml4e) (eptPdptIndex a)) = false := by simpa [a2] using u2
  have r2 := link_rwx sh (by simp) h1 a2 p2
  generalize hpdpte : s.host.mem (entryAddr pml4e) (eptPdptIndex a) = pdpte at *
  have hpde : s.pde a = _ := huge_eq h2
  by_cases a3 : present (s.host.mem (entryAddr pdpte) (eptPdIndex a)) = true
  swap
  · have hd : s.pde a = none := by simpa [a3] using hpde
    have h3 : s.walk (gpaPath a) = _ := walk_slot h2 hd
    rw [if_neg a3] at h3
    have ht : s.pte a = none := leaf_none h3
    simp [hwTranslate, hpml4e, a1, hpdpte, a2, a3, hd, ht]
  by_cases a4 : isPs (s.host.mem (entryAddr pdpte) (eptPdIndex a)) = true
  · have hd : s.pde a = some (s.host.mem (entryAddr pdpte) (eptPdIndex a)) := by simpa [a3, a4] using hpde
    simp [hwTranslate, hpml4e, a1, hpdpte, a2, a3, a4, hd, r1, r2]
  · have hd : s.pde a = none := by simpa [a3, a4] using hpde
    have h3 : s.walk (gpaPath a) = _ := walk_slot h2 hd
    rw [if_pos a3] at h3
    have r3 := link_rwx sh (by simp [gpaPath2]) h2 a3 (by simpa using a4)
    generalize hpdee : s.host.mem (entryAddr pdpte) (eptPdIndex a) = pde at *
    have hpte : s.pte a = _ := leaf_eq h3
    by_cases a5 : present (s.host.mem (entryAddr pde) (eptPtIndex a)) = true
    · rw [if_pos a5] at hpte
      simp [hwTranslate, hpml4e, a1, hpdpte, a2, hpdee, a3, a4, a5, hd, hpte, r1, r2, r3]
    · rw [if_neg a5] at hpte
      simp [hwTranslate, hpml4e, a1, hpdpte, a2, hpdee, a3, a4, a5, hd, hpte]

end Walk

section Agreement

/-- A size rounded up to whole pages. -/
def pageRound (n : Nat) : Nat := (n + 4095) / 4096 * 4096

/-- The page of an address shares a byte with a reserved MMIO region. -/
def InMmio (mmio : List Vm.MmioRegion) (a : U64) : Prop :=
  ∃ region ∈ mmio, ∃ x, a.toNat / 4096 * 4096 ≤ x ∧ x < a.toNat / 4096 * 4096 + 4096 ∧
    region.gpaStart.toNat ≤ x ∧ x < region.gpaStart.toNat + region.size.toNat

/-- The arguments of a guest RAM mapping: page-aligned starts, ranges within the 48-bit guest and 52-bit host
widths, regions that do not wrap, and flags that grant read access and hold no address bits. -/
structure RamArgs (mmio : List Vm.MmioRegion) (flags gpaStart hpaStart size : U64) : Prop where
  gpaAligned : gpaStart.toNat % 4096 = 0
  hpaAligned : hpaStart.toNat % 4096 = 0
  gpaRange : gpaStart.toNat + pageRound size.toNat ≤ 2 ^ 48
  hpaRange : hpaStart.toNat + pageRound size.toNat ≤ 2 ^ 52
  regions : ∀ region ∈ mmio, region.gpaStart.toNat + region.size.toNat < 2 ^ 64
  readable : present flags = true
  noAddress : flags &&& eptAddrMask = 0#64

/-- Two mapped contexts agree: both calls succeed, the processor translates every address alike, and neither
maps reserved pages or anything outside the range. -/
structure RamMapsAgree (mmio : List Vm.MmioRegion) (gpaStart size : U64) (r r' : Except Errno Unit × EptState) : Prop where
  ret : r.1 = .ok ()
  ret' : r'.1 = .ok ()
  same : ∀ a : U64, a.toNat < 2 ^ 48 → hwTranslate r.2 a = hwTranslate r'.2 a
  reserved : ∀ a : U64, a.toNat < 2 ^ 48 → InMmio mmio a → hwTranslate r.2 a = none ∧ hwTranslate r'.2 a = none
  outside : ∀ a : U64, a.toNat < 2 ^ 48 → a.toNat < gpaStart.toNat ∨ gpaStart.toNat + pageRound size.toNat ≤ a.toNat →
    hwTranslate r.2 a = none ∧ hwTranslate r'.2 a = none

/-- Every whole MMIO-free block of the range whose host address is 2 MiB aligned too lies at host address 0. -/
def BlocksAtZero (mmio : List Vm.MmioRegion) (gpaStart hpaStart size : U64) : Prop :=
  ∀ b : Nat, gpaStart.toNat ≤ b * 2 ^ 21 → b * 2 ^ 21 + 2 ^ 21 ≤ gpaStart.toNat + pageRound size.toNat →
    (hpaStart.toNat + (b * 2 ^ 21 - gpaStart.toNat)) % 2 ^ 21 = 0 →
    eptRangeOverlapsMmio mmio (blockAddr b) eptPageSize2mb = false → hpaStart.toNat + (b * 2 ^ 21 - gpaStart.toNat) = 0

variable {mmio : List Vm.MmioRegion} {flags gpaStart hpaStart size : U64}

theorem pageBlocked_of_inMmio (hm : ∀ region ∈ mmio, region.gpaStart.toNat + region.size.toNat < 2 ^ 64)
    {a : U64} (ha : a.toNat < 2 ^ 48) (h : InMmio mmio a) : pageBlocked mmio (pageOf a) = true := by
  obtain ⟨region, hr, x, h1, h2, h3, h4⟩ := h
  have hn : (pageAddr (pageOf a)).toNat = a.toNat / 4096 * 4096 := by
    have := pageOf_lt a
    rw [pageSpace] at this
    rw [pageAddr_toNat (by omega), pageOf]
    omega
  have hsum := toNat_add_eq (a := region.gpaStart) (b := region.size) rfl rfl (hm region hr)
  have hend := toNat_add_eq (a := pageAddr (pageOf a)) hn toNat_pageSize4kb (by omega)
  rw [pageBlocked, eptRangeOverlapsMmio, List.any_eq_true]
  refine ⟨region, hr, ?_⟩
  rw [Bool.and_eq_true, decide_eq_true_eq, decide_eq_true_eq, BitVec.lt_def, BitVec.lt_def, hsum, hend, hn]
  exact ⟨by omega, by omega⟩

/-- A page that overlaps MMIO lies in a block that does. -/
theorem pageBlocked_false {n : Nat} (hn : n < 2 ^ 36) (hb : blockBlocked mmio (n / 512) = false) :
    pageBlocked mmio n = false := by
  have hp : (pageAddr n).toNat = n * 4096 := pageAddr_toNat (by omega)
  have hba : (pageAddr (512 * (n / 512))).toNat = 512 * (n / 512) * 4096 := pageAddr_toNat (by omega)
  have h4 := toNat_add_eq hp toNat_pageSize4kb (by omega)
  have h2 := toNat_add_eq hba toNat_pageSize2mb (by omega)
  rw [blockBlocked, blockAddr_eq, eptRangeOverlapsMmio, List.any_eq_false] at hb
  rw [pageBlocked, eptRangeOverlapsMmio, List.any_eq_false]
  intro region hr hc
  refine hb region hr ?_
  rw [Bool.and_eq_true, decide_eq_true_eq, decide_eq_true_eq, BitVec.lt_def, BitVec.lt_def] at hc ⊢
  rw [hp, h4] at hc
  rw [hba, h2]
  exact ⟨by omega, by omega⟩

/-- The address field of a 2 MiB entry. -/
private theorem hugeEntry_addr (k : Nat) (hk : k < 2 ^ 31) (hf : flags &&& eptAddrMask = 0#64) :
    (hugeEntry (pageAddr (512 * k)) flags &&& eptAddrMask2mb).toNat = k * (2 ^ 52 - 2 ^ 12) % 2 ^ 31 * 2 ^ 21 := by
  have hf2 : flags &&& eptAddrMask2mb = 0#64 := by
    rw [show eptAddrMask2mb = eptAddrMask &&& eptAddrMask2mb by decide, ← BitVec.and_assoc, hf, BitVec.zero_and]
  rw [hugeEntry, Lib.Word.or_and_of_disjoint _ _ _ (by decide), Lib.Word.or_and_of_disjoint _ _ _ hf2,
    Lib.Word.and_field_toNat _ _ 21 52 (by decide) (by decide), BitVec.toNat_mul, pageAddr_toNat (by omega),
    show eptAddrMask.toNat = 2 ^ 52 - 2 ^ 12 by decide]
  omega

private theorem mul_mask_mod_ne (k : Nat) (h0 : 0 < k) (hk : k < 2 ^ 31) : k * (2 ^ 52 - 2 ^ 12) % 2 ^ 31 ≠ k := by
  intro hc
  have hdvd := Nat.dvd_sub_mod (n := 2 ^ 31) (k * (2 ^ 52 - 2 ^ 12))
  rw [hc] at hdvd
  have hmul : k * (2 ^ 52 - 2 ^ 12) - k = (2 ^ 52 - 2 ^ 12 - 1) * k := by
    rw [Nat.sub_mul, Nat.one_mul, Nat.mul_comm]
  rw [hmul] at hdvd
  have hle := Nat.le_of_dvd h0 ((by norm_num : Nat.Coprime (2 ^ 31) (2 ^ 52 - 2 ^ 12 - 1)).dvd_of_dvd_mul_left hdvd)
  exact absurd hk (Nat.not_lt.mpr hle)

private theorem hugeEntry_addr_ne (k : Nat) (h0 : 0 < k) (hk : k < 2 ^ 31) (hf : flags &&& eptAddrMask = 0#64) :
    hugeEntry (pageAddr (512 * k)) flags &&& eptAddrMask2mb ≠ pageAddr (512 * k) := by
  intro hc
  have h := congrArg BitVec.toNat hc
  rw [hugeEntry_addr k hk hf, pageAddr_toNat (by omega)] at h
  refine mul_mask_mod_ne k h0 hk ?_
  generalize k * (2 ^ 52 - 2 ^ 12) % 2 ^ 31 = x at h ⊢
  omega

/-- The translation that 4 KiB leaves give. -/
private def pageTranslation (mmio : List Vm.MmioRegion) (flags : U64) (P Q N : Nat) (a : U64) : Option (U64 × U64) :=
  if P ≤ pageOf a ∧ pageOf a < P + N ∧ pageBlocked mmio (pageOf a) = false then
    some (pageAddr (Q + (pageOf a - P)) ||| eptPageOffset a, flags &&& eptRwx) else none

/-- The entry of a page in the processor's reading. -/
theorem leaf_decode {m : Nat} (hm : m < 2 ^ 40) (hf : flags &&& eptAddrMask = 0#64) (a : U64) :
    (entryAddr (leafEntry (pageAddr m) flags) ||| eptPageOffset a, leafEntry (pageAddr m) flags &&& eptRwx) =
      (pageAddr m ||| eptPageOffset a, flags &&& eptRwx) := by
  have hp := pageAddr_toNat (n := m) (by omega)
  have hd : (pageAddr m &&& eptAddrMask) &&& eptRwx = 0#64 := by
    rw [BitVec.and_assoc, show eptAddrMask &&& eptRwx = 0#64 by decide, BitVec.and_zero]
  rw [entryAddr_leafEntry _ _ ⟨by omega, by omega⟩ hf, leafEntry, BitVec.and_or_distrib_right, hd, BitVec.zero_or]

section

variable {P Q N : Nat} (hQ : Q + N ≤ 2 ^ 40) (hf : flags &&& eptAddrMask = 0#64)

include hQ hf

private theorem hw_pages {s t : EptState} (he : Empty s) (h : PagesMapped mmio flags P Q P (P + N) s t) (a : U64) :
    hwTranslate t a = pageTranslation mmio flags P Q N a := by
  rw [hwTranslate_eq h.shape, h.pde, he.pde, h.pte, he.pte, pageTranslation]
  by_cases hc : P ≤ pageOf a ∧ pageOf a < P + N ∧ pageBlocked mmio (pageOf a) = false
  · simp only [if_pos hc, Option.map_some, leaf_decode (show Q + (pageOf a - P) < 2 ^ 40 by omega) hf]
  · simp only [if_neg hc, Option.map_none]

private theorem hw_filled {s : EptState} (h : Filled mmio flags P Q N N s) (a : U64) :
    hwTranslate s a = if IsStride mmio P Q N (pageOf a / 512) then
      some ((hugeEntry (pageAddr (Q + (512 * (pageOf a / 512) - P))) flags &&& eptAddrMask2mb) |||
        (a &&& (eptPageSize2mb - 1)), hugeEntry (pageAddr (Q + (512 * (pageOf a / 512) - P))) flags &&& eptRwx)
      else pageTranslation mmio flags P Q N a := by
  rw [hwTranslate_eq h.shape, h.pde, blockOf_eq, h.pte, pageTranslation]
  by_cases hs : IsStride mmio P Q N (pageOf a / 512)
  · have h2 := hs.2.1
    rw [if_pos ⟨hs, by omega⟩, if_pos hs]
  · rw [if_neg (fun hc => hs hc.1), if_neg hs]
    by_cases hc : P ≤ pageOf a ∧ pageOf a < P + N ∧ pageBlocked mmio (pageOf a) = false
    · simp only [if_pos hc, if_pos (show P ≤ pageOf a ∧ pageOf a < P + N ∧ pageBlocked mmio (pageOf a) = false ∧ _ from
        ⟨hc.1, hc.2.1, hc.2.2, hs⟩), Option.map_some, leaf_decode (show Q + (pageOf a - P) < 2 ^ 40 by omega) hf]
    · rw [if_neg hc, if_neg fun hd => hc ⟨hd.1, hd.2.1, hd.2.2.1⟩]
      rfl

/-- At host address 0 a stride translates as its pages do. -/
private theorem stride_zero {a : U64} (hs : IsStride mmio P Q N (pageOf a / 512))
    (h0 : Q + (512 * (pageOf a / 512) - P) = 0) :
    some ((hugeEntry (pageAddr (Q + (512 * (pageOf a / 512) - P))) flags &&& eptAddrMask2mb) |||
        (a &&& (eptPageSize2mb - 1)), hugeEntry (pageAddr (Q + (512 * (pageOf a / 512) - P))) flags &&& eptRwx) =
      pageTranslation mmio flags P Q N a := by
  have hlt : pageOf a < 2 ^ 36 := pageOf_lt a
  obtain ⟨h1, h2, -, hb⟩ := hs
  have hq : Q + (pageOf a - P) = pageOf a % 512 := by omega
  have hz : hugeEntry (pageAddr 0) flags = flags ||| eptPageSize := by
    rw [hugeEntry, show pageAddr 0 = 0#64 by decide, BitVec.zero_mul, BitVec.zero_or]
  have hf2 : flags &&& eptAddrMask2mb = 0#64 := by
    rw [show eptAddrMask2mb = eptAddrMask &&& eptAddrMask2mb by decide, ← BitVec.and_assoc, hf, BitVec.zero_and]
  rw [pageTranslation, if_pos ⟨by omega, by omega, pageBlocked_false hlt hb⟩, h0, hz, hq,
    Lib.Word.or_and_of_disjoint _ _ _ (by decide), Lib.Word.or_and_of_disjoint _ _ _ (by decide), hf2, BitVec.zero_or]
  have hoff : (eptPageOffset a).toNat = a.toNat % 4096 := Lib.Word.and_low_toNat _ _ 12 (by decide)
  have hp := pageAddr_toNat (n := pageOf a % 512) (by omega)
  have ha : (a &&& (eptPageSize2mb - 1)) = pageAddr (pageOf a % 512) ||| eptPageOffset a := by
    rw [← BitVec.toNat_inj, Lib.Word.and_low_toNat _ _ 21 (by decide),
      Lib.Word.or_low_toNat _ _ 12 (by rw [hp]; omega) (by rw [hoff]; omega), hp, hoff, pageOf]
    omega
  rw [ha]

/-- Elsewhere the first byte of a stride already differs. -/
private theorem stride_nonzero {b : Nat} (hP : P + N ≤ 2 ^ 36) (hs : IsStride mmio P Q N b) (h0 : Q + (512 * b - P) ≠ 0) :
    some ((hugeEntry (pageAddr (Q + (512 * b - P))) flags &&& eptAddrMask2mb) |||
        (blockAddr b &&& (eptPageSize2mb - 1)), hugeEntry (pageAddr (Q + (512 * b - P))) flags &&& eptRwx) ≠
      pageTranslation mmio flags P Q N (blockAddr b) := by
  have hbo : pageOf (blockAddr b) = 512 * b := by
    rw [blockAddr_eq, pageOf_pageAddr (show 512 * b < 2 ^ 36 by have := hs.2.1; omega)]
  obtain ⟨h1, h2, h3, hb⟩ := hs
  obtain ⟨k, hk⟩ := Nat.dvd_of_mod_eq_zero h3
  have hz : blockAddr b &&& (eptPageSize2mb - 1) = 0#64 := by
    rw [← BitVec.toNat_inj, Lib.Word.and_low_toNat _ _ 21 (by decide), blockAddr_eq, pageAddr_toNat (by omega)]
    simp only [BitVec.toNat_ofNat]
    omega
  have hz4 : eptPageOffset (blockAddr b) = 0#64 := by
    rw [← BitVec.toNat_inj, eptPageOffset, Lib.Word.and_low_toNat _ _ 12 (by decide), blockAddr_eq, pageAddr_toNat (by omega)]
    simp only [BitVec.toNat_ofNat]
    omega
  rw [pageTranslation, hbo, if_pos ⟨h1, by omega, pageBlocked_false (by omega) (by
    rw [Nat.mul_div_cancel_left b (by decide)]; exact hb)⟩, hk, hz, hz4, BitVec.or_zero, BitVec.or_zero]
  intro hc
  have heq := congrArg Prod.fst (Option.some.inj hc)
  exact hugeEntry_addr_ne k (by omega) (by omega) hf heq

end

section Result

variable {s t : EptState}

theorem RamArgs.pages (h : RamArgs mmio flags gpaStart hpaStart size) :
    gpaStart = pageAddr (gpaStart.toNat / 4096) ∧ hpaStart = pageAddr (hpaStart.toNat / 4096) ∧
      pageAlign size = pageAddr ((size.toNat + 4095) / 4096) ∧
      gpaStart.toNat / 4096 + (size.toNat + 4095) / 4096 ≤ 2 ^ 36 ∧
      hpaStart.toNat / 4096 + (size.toNat + 4095) / 4096 ≤ 2 ^ 40 := by
  have hg := h.gpaRange
  have hh := h.hpaRange
  have ha := h.gpaAligned
  have hb := h.hpaAligned
  rw [pageRound] at hg hh
  exact ⟨eq_pageAddr ha, eq_pageAddr hb, pageAlign_eq (by omega), by omega, by omega⟩

private theorem huge_result (h : RamArgs mmio flags gpaStart hpaStart size) (hs : Empty s)
    (ho : (relmEptMapGuestRamHuge mmio flags s gpaStart hpaStart size).2.host.oom = false) :
    (relmEptMapGuestRamHuge mmio flags s gpaStart hpaStart size).1 = .ok () ∧
      Filled mmio flags (gpaStart.toNat / 4096) (hpaStart.toNat / 4096) ((size.toNat + 4095) / 4096)
        ((size.toNat + 4095) / 4096) (relmEptMapGuestRamHuge mmio flags s gpaStart hpaStart size).2 := by
  obtain ⟨hg, hh, hsz, hP, hQ⟩ := h.pages
  have hspec := mapStrides_spec mmio hP hQ h.readable _ 0 s le_rfl (Nat.zero_le _) (.inl rfl) (Empty.filled hs)
  have heq : relmEptMapGuestRamHuge mmio flags s gpaStart hpaStart size =
      mapStrides mmio flags (pageAddr (gpaStart.toNat / 4096 + (size.toNat + 4095) / 4096))
        (pageAddr (gpaStart.toNat / 4096 + 0)) (pageAddr (hpaStart.toNat / 4096 + 0)) s := by
    rw [← pageAddr_add_pageAddr, ← pageAddr_add_pageAddr, ← pageAddr_add_pageAddr, ← hg, ← hh, ← hsz,
      show pageAddr 0 = 0#64 by decide, BitVec.add_zero, BitVec.add_zero]
    rfl
  rw [heq] at ho ⊢
  rcases hspec with ⟨_, hoom⟩ | hok
  · rw [hoom] at ho
    cases ho
  · exact hok

theorem pages_result (h : RamArgs mmio flags gpaStart hpaStart size) (hs : Empty s)
    (ho : (relmEptMapGuestRam4kb mmio flags s gpaStart hpaStart size).2.host.oom = false) :
    (relmEptMapGuestRam4kb mmio flags s gpaStart hpaStart size).1 = .ok () ∧
      PagesMapped mmio flags (gpaStart.toNat / 4096) (hpaStart.toNat / 4096) (gpaStart.toNat / 4096)
        (gpaStart.toNat / 4096 + (size.toNat + 4095) / 4096) s
        (relmEptMapGuestRam4kb mmio flags s gpaStart hpaStart size).2 := by
  obtain ⟨hg, hh, hsz, hP, hQ⟩ := h.pages
  have hspec := mapPages4kb_spec mmio (gpaStart.toNat / 4096) (hpaStart.toNat / 4096) h.readable
    ((size.toNat + 4095) / 4096) 0 s hs.shape hP hQ fun n _ _ => hs.pde _
  have heq : relmEptMapGuestRam4kb mmio flags s gpaStart hpaStart size =
      mapPages4kb mmio flags (pageAddr (gpaStart.toNat / 4096)) (pageAddr (hpaStart.toNat / 4096))
        ((size.toNat + 4095) / 4096) 0 s := by
    rw [relmEptMapGuestRam4kb, hsz, ← hg, ← hh]
    simp only [pageAddr_div (show (size.toNat + 4095) / 4096 < 2 ^ 50 by omega)]
  rw [heq] at ho ⊢
  rcases hspec with ⟨_, hoom⟩ | hok
  · rw [hoom] at ho
    cases ho
  · exact hok

private theorem blocksAtZero_iff (h : RamArgs mmio flags gpaStart hpaStart size) :
    BlocksAtZero mmio gpaStart hpaStart size ↔
      ∀ b, IsStride mmio (gpaStart.toNat / 4096) (hpaStart.toNat / 4096) ((size.toNat + 4095) / 4096) b →
        hpaStart.toNat / 4096 + (512 * b - gpaStart.toNat / 4096) = 0 := by
  have ha := h.gpaAligned
  have hb := h.hpaAligned
  refine forall_congr' fun b => ?_
  rw [IsStride, blockBlocked, pageRound]
  constructor
  · rintro hz ⟨h1, h2, h3, h4⟩
    have := hz (by omega) (by omega) (by omega) h4
    omega
  · intro hz h1 h2 h3 h4
    have := hz ⟨by omega, by omega, by omega, h4⟩
    omega

private theorem agree_of_zero (h : RamArgs mmio flags gpaStart hpaStart size) (hs : Empty s) (ht : Empty t)
    (hos : (relmEptMapGuestRamHuge mmio flags s gpaStart hpaStart size).2.host.oom = false)
    (hot : (relmEptMapGuestRam4kb mmio flags t gpaStart hpaStart size).2.host.oom = false)
    (hz : BlocksAtZero mmio gpaStart hpaStart size) :
    RamMapsAgree mmio gpaStart size (relmEptMapGuestRamHuge mmio flags s gpaStart hpaStart size)
      (relmEptMapGuestRam4kb mmio flags t gpaStart hpaStart size) := by
  obtain ⟨-, -, -, hP, hQ⟩ := h.pages
  obtain ⟨hr, hfill⟩ := huge_result h hs hos
  obtain ⟨hr', hmap⟩ := pages_result h ht hot
  rw [blocksAtZero_iff h] at hz
  have hsame : ∀ a, hwTranslate (relmEptMapGuestRamHuge mmio flags s gpaStart hpaStart size).2 a =
      pageTranslation mmio flags (gpaStart.toNat / 4096) (hpaStart.toNat / 4096) ((size.toNat + 4095) / 4096) a := by
    intro a
    rw [hw_filled hQ h.noAddress hfill a]
    split
    · rename_i hst
      exact stride_zero hQ h.noAddress hst (hz _ hst)
    · rfl
  have hpages := hw_pages hQ h.noAddress ht hmap
  refine ⟨hr, hr', fun a _ => by rw [hsame, hpages], fun a ha hin => ?_, fun a ha hout => ?_⟩
  · have hb := pageBlocked_of_inMmio h.regions ha hin
    rw [hsame, hpages, pageTranslation, if_neg (by simp [hb])]
    exact ⟨rfl, rfl⟩
  · have hal := h.gpaAligned
    have hpo : pageOf a = a.toNat / 4096 := by rw [pageOf]; omega
    rw [pageRound] at hout
    rw [hsame, hpages, pageTranslation, if_neg (by omega)]
    exact ⟨rfl, rfl⟩

private theorem zero_of_agree (h : RamArgs mmio flags gpaStart hpaStart size) (hs : Empty s) (ht : Empty t)
    (hos : (relmEptMapGuestRamHuge mmio flags s gpaStart hpaStart size).2.host.oom = false)
    (hot : (relmEptMapGuestRam4kb mmio flags t gpaStart hpaStart size).2.host.oom = false)
    (hag : RamMapsAgree mmio gpaStart size (relmEptMapGuestRamHuge mmio flags s gpaStart hpaStart size)
      (relmEptMapGuestRam4kb mmio flags t gpaStart hpaStart size)) : BlocksAtZero mmio gpaStart hpaStart size := by
  obtain ⟨-, -, -, hP, hQ⟩ := h.pages
  rw [blocksAtZero_iff h]
  intro b hst
  by_contra hne
  have hlt : 512 * b < 2 ^ 36 := by
    have := hst.2.1
    omega
  have hbo : pageOf (blockAddr b) / 512 = b := by
    rw [blockAddr_eq, pageOf_pageAddr hlt]
    omega
  have hb48 : (blockAddr b).toNat < 2 ^ 48 := by
    rw [blockAddr_eq, pageAddr_toNat (by omega)]
    omega
  have hsame := hag.same (blockAddr b) hb48
  rw [hw_filled hQ h.noAddress (huge_result h hs hos).2, hw_pages hQ h.noAddress ht (pages_result h ht hot).2, hbo,
    if_pos hst] at hsame
  exact stride_nonzero hQ h.noAddress hP hst hne hsame

/-- With successful allocations, the huge-preferred and the 4 KiB mapping of a range agree exactly when every
block the former maps with one entry lies at host address 0. -/
theorem guest_ram_maps_agree_iff (h : RamArgs mmio flags gpaStart hpaStart size) (hs : Empty s) (ht : Empty t)
    (hos : (relmEptMapGuestRamHuge mmio flags s gpaStart hpaStart size).2.host.oom = false)
    (hot : (relmEptMapGuestRam4kb mmio flags t gpaStart hpaStart size).2.host.oom = false) :
    RamMapsAgree mmio gpaStart size (relmEptMapGuestRamHuge mmio flags s gpaStart hpaStart size)
      (relmEptMapGuestRam4kb mmio flags t gpaStart hpaStart size) ↔ BlocksAtZero mmio gpaStart hpaStart size :=
  ⟨zero_of_agree h hs ht hos hot, agree_of_zero h hs ht hos hot⟩

end Result

end Agreement

section Sample

/-- A context with a root and three more frames to come. -/
private def ramState : EptState where
  host := { Host.idle [some 0x2000#64, some 0x3000#64, some 0x4000#64] [] with live := [0x1000#64], slab := [0], slabNext := 1 }
  ctx :=
    { obj := 0, pml4 := 0x1000#64, pml4Pa := 0x1000#64, eptp := 0x101E#64, memtype := 6#64, adEnabled := false,
      stats := {}, tables := [0x1000#64] }

private theorem ramState_empty : Empty ramState := empty_of_clear (fun _ => rfl) rfl (by decide) rfl

private theorem mapStrides_single {mmio : List Vm.MmioRegion} {flags last gpa hpa : U64} {s : EptState} (hlt : gpa < last)
    (hret : (mapStride mmio flags last gpa hpa s).1 = .ok ()) (hend : ¬ gpa + strideLength mmio last gpa hpa < last) :
    mapStrides mmio flags last gpa hpa s = (.ok (), (mapStride mmio flags last gpa hpa s).2) := by
  rw [mapStrides, dif_pos hlt]
  generalize mapStride mmio flags last gpa hpa s = r at hret ⊢
  obtain ⟨ret, t⟩ := r
  obtain rfl : ret = .ok () := hret
  simp only
  rw [mapStrides, dif_neg hend]

/-- The first page of a loop without reserved regions. -/
theorem mapPages4kb_first {flags gpa hpa : U64} {s : EptState} (left : Nat)
    (hret : (relmEptMapPage s gpa hpa flags).ret = .ok ()) :
    mapPages4kb [] flags gpa hpa (left + 1) 0 s = mapPages4kb [] flags gpa hpa left 1 (relmEptMapPage s gpa hpa flags).next := by
  rw [mapPages4kb, BitVec.zero_mul, BitVec.add_zero, BitVec.add_zero, if_neg (by simp [eptRangeOverlapsMmio])]
  generalize relmEptMapPage s gpa hpa flags = r at hret ⊢
  obtain ⟨ret, t, touched⟩ := r
  obtain rfl : ret = .ok () := hret
  rfl

/-- A whole block, page by page: all its pages share the page table of the first. -/
private theorem block_pages (b Q : Nat) (hb : b < 2 ^ 27) (hQ : Q + 512 ≤ 2 ^ 40)
    (hret : (relmEptMapPage ramState (pageAddr (512 * b)) (pageAddr Q) eptRwx).ret = .ok ())
    (hwalk : (relmEptMapPage ramState (pageAddr (512 * b)) (pageAddr Q) eptRwx).next.walk (gpaPath (blockAddr b)) =
      some 0x4000#64)
    (hoom : (relmEptMapPage ramState (pageAddr (512 * b)) (pageAddr Q) eptRwx).next.host.oom = false) :
    (relmEptMapGuestRam4kb [] eptRwx ramState (pageAddr (512 * b)) (pageAddr Q) 0x200000#64).2.host.oom = false := by
  have hsize : relmEptMapGuestRam4kb [] eptRwx ramState (pageAddr (512 * b)) (pageAddr Q) 0x200000#64 =
      mapPages4kb [] eptRwx (pageAddr (512 * b)) (pageAddr Q) (511 + 1) 0 ramState :=
    mapGuestRam4kb_eq (n := 511 + 1) _ _ (by decide)
  have ho := mapPage_spec (pageAddr (512 * b)) (pageAddr Q) eptRwx ramState_empty.shape (ramState_empty.pde _)
  rcases ho with ⟨_, hr⟩ | ⟨_, hr, _⟩ | ⟨_, _, ⟨hl, _⟩, _⟩
  · rw [hr] at hret
    cases hret
  · rw [hr] at hret
    cases hret
  · rw [hsize, mapPages4kb_first 511 hret, mapPages4kb_oom (512 * b) Q b rfl 511 1 _ hl.shape (by omega) hb (by omega)
      ((hl.pde _).trans (ramState_empty.pde _)) hwalk]
    exact hoom

private theorem ramArgs_zero : RamArgs [] eptRwx 0x200000#64 0#64 0x200000#64 :=
  ⟨by decide, by decide, by decide, by decide, by simp, by decide, by decide⟩

private theorem zero_huge : (relmEptMapGuestRamHuge [] eptRwx ramState 0x200000#64 0#64 0x200000#64).2.host.oom = false := by
  rw [relmEptMapGuestRamHuge, mapStrides_single (by decide) rfl (by decide)]
  rfl

/-- A whole block at host address 0 is one entry here and 512 there, and translated alike. -/
theorem guest_ram_maps_agree_at_zero :
    RamArgs [] eptRwx 0x200000#64 0#64 0x200000#64 ∧ Empty ramState ∧
      (relmEptMapGuestRamHuge [] eptRwx ramState 0x200000#64 0#64 0x200000#64).2.pde 0x200000#64 = some 0x87#64 ∧
      RamMapsAgree [] 0x200000#64 0x200000#64 (relmEptMapGuestRamHuge [] eptRwx ramState 0x200000#64 0#64 0x200000#64)
        (relmEptMapGuestRam4kb [] eptRwx ramState 0x200000#64 0#64 0x200000#64) := by
  have hpages := block_pages 1 0 (by decide) (by decide) rfl rfl rfl
  rw [show pageAddr (512 * 1) = 0x200000#64 from rfl, show pageAddr 0 = 0#64 from rfl] at hpages
  refine ⟨ramArgs_zero, ramState_empty, ?_,
    (guest_ram_maps_agree_iff ramArgs_zero ramState_empty ramState_empty zero_huge hpages).mpr fun b h1 h2 _ _ => ?_⟩
  · rw [relmEptMapGuestRamHuge, mapStrides_single (by decide) rfl (by decide)]
    rfl
  · have hblock : (0x200000#64).toNat = 2097152 := rfl
    rw [hblock] at h1 h2 ⊢
    rw [show pageRound 2097152 = 2097152 from rfl] at h2
    rw [show (0#64).toNat = 0 from rfl]
    omega

private theorem ramArgs_block : RamArgs [] eptRwx 0#64 0x200000#64 0x200000#64 :=
  ⟨by decide, by decide, by decide, by decide, by simp, by decide, by decide⟩

private theorem block_huge : (relmEptMapGuestRamHuge [] eptRwx ramState 0#64 0x200000#64 0x200000#64).2.host.oom = false := by
  rw [relmEptMapGuestRamHuge, mapStrides_single (by decide) rfl (by decide)]
  rfl

/-- One 2 MiB block of guest RAM at host address 2 MiB is translated differently by the two mappings. -/
theorem block_maps_disagree :
    RamArgs [] eptRwx 0#64 0x200000#64 0x200000#64 ∧ Empty ramState ∧
      (relmEptMapGuestRamHuge [] eptRwx ramState 0#64 0x200000#64 0x200000#64).2.host.oom = false ∧
      (relmEptMapGuestRam4kb [] eptRwx ramState 0#64 0x200000#64 0x200000#64).2.host.oom = false ∧
      ¬ RamMapsAgree [] 0#64 0x200000#64 (relmEptMapGuestRamHuge [] eptRwx ramState 0#64 0x200000#64 0x200000#64)
        (relmEptMapGuestRam4kb [] eptRwx ramState 0#64 0x200000#64 0x200000#64) := by
  have hpages := block_pages 0 512 (by decide) (by decide) rfl rfl rfl
  rw [show pageAddr (512 * 0) = 0#64 from rfl, show pageAddr 512 = 0x200000#64 from rfl] at hpages
  refine ⟨ramArgs_block, ramState_empty, block_huge, hpages, fun hag => ?_⟩
  have hz := zero_of_agree ramArgs_block ramState_empty ramState_empty block_huge hpages hag 0
  revert hz
  decide

end Sample

end Relm.Ept
