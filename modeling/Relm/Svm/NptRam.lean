import Relm.Svm.Npt

/-! Mapping guest RAM in the nested page tables: the huge-preferred loop passes over the blocks it should map with one
entry, so it agrees with the 4 KiB loop exactly when the range holds no such block. -/
namespace Relm.Svm
open Relm.Ept NptState

/-- The arguments of a guest RAM mapping: page-aligned starts, ranges within the 48-bit guest and 52-bit host widths,
regions that do not wrap, and flags with present and user set that hold no address bits. -/
structure NptRamArgs (mmio : List Vm.MmioRegion) (flags gpaStart hpaStart size : U64) : Prop where
  gpaAligned : gpaStart.toNat % 4096 = 0
  hpaAligned : hpaStart.toNat % 4096 = 0
  gpaRange : gpaStart.toNat + pageRound size.toNat ≤ 2 ^ 48
  hpaRange : hpaStart.toNat + pageRound size.toNat ≤ 2 ^ 52
  regions : ∀ region ∈ mmio, region.gpaStart.toNat + region.size.toNat < 2 ^ 64
  user : presentUser flags = true
  noAddress : flags &&& nptAddrMask = 0#64

/-- Two mapped contexts agree: both calls return 0, the processor translates every address alike, and neither maps
reserved pages or anything outside the range. -/
structure NptRamMapsAgree (mmio : List Vm.MmioRegion) (gpaStart size : U64) (r : Int × NptState)
    (r' : Except Errno Unit × NptState) : Prop where
  ret : r.1 = 0
  ret' : r'.1 = .ok ()
  same : ∀ a : U64, a.toNat < 2 ^ 48 → nptHwTranslate r.2 a = nptHwTranslate r'.2 a
  reserved : ∀ a : U64, a.toNat < 2 ^ 48 → InMmio mmio a → nptHwTranslate r.2 a = none ∧ nptHwTranslate r'.2 a = none
  outside : ∀ a : U64, a.toNat < 2 ^ 48 → a.toNat < gpaStart.toNat ∨ gpaStart.toNat + pageRound size.toNat ≤ a.toNat →
    nptHwTranslate r.2 a = none ∧ nptHwTranslate r'.2 a = none

/-- No 2 MiB block of the range is whole, free of MMIO and 2 MiB aligned on both sides. -/
def NoWholeBlock (mmio : List Vm.MmioRegion) (gpaStart hpaStart size : U64) : Prop :=
  ∀ b : Nat, gpaStart.toNat ≤ b * 2 ^ 21 → b * 2 ^ 21 + 2 ^ 21 ≤ gpaStart.toNat + pageRound size.toNat →
    (hpaStart.toNat + (b * 2 ^ 21 - gpaStart.toNat)) % 2 ^ 21 = 0 →
    nptRangeOverlapsMmio mmio (blockAddr b) nptPageSize2mb = true

variable {mmio : List Vm.MmioRegion} {flags gpaStart hpaStart size : U64} {s t : NptState}

theorem NptRamArgs.toRamArgs (h : NptRamArgs mmio flags gpaStart hpaStart size) : RamArgs mmio flags gpaStart hpaStart size :=
  ⟨h.gpaAligned, h.hpaAligned, h.gpaRange, h.hpaRange, h.regions, present_of_presentUser h.user, h.noAddress⟩

private theorem noWholeBlock_iff (h : NptRamArgs mmio flags gpaStart hpaStart size) :
    NoWholeBlock mmio gpaStart hpaStart size ↔
      ∀ b, ¬ IsStride mmio (gpaStart.toNat / 4096) (hpaStart.toNat / 4096) ((size.toNat + 4095) / 4096) b := by
  have ha := h.gpaAligned
  have hb := h.hpaAligned
  have hover : ∀ b, nptRangeOverlapsMmio mmio (blockAddr b) nptPageSize2mb = blockBlocked mmio b := fun _ => rfl
  refine forall_congr' fun b => ?_
  rw [IsStride, pageRound, hover]
  constructor
  · rintro hz ⟨h1, h2, h3, h4⟩
    rw [hz (by omega) (by omega) (by omega)] at h4
    cases h4
  · intro hz h1 h2 h3
    by_contra hc
    exact hz ⟨by omega, by omega, by omega, by simpa using hc⟩

/-- The state after the first `y` pages: pages outside the strides are mapped, strides are not. -/
structure NptFilled (mmio : List Vm.MmioRegion) (flags : U64) (P Q N y : Nat) (s : NptState) : Prop where
  sound : Sound s
  pte : ∀ a, s.toEpt.pte a = if P ≤ pageOf a ∧ pageOf a < P + y ∧ pageBlocked mmio (pageOf a) = false ∧
    ¬ IsStride mmio P Q N (pageOf a / 512) then some (leafEntry (pageAddr (Q + (pageOf a - P))) flags) else none
  pde : ∀ a, s.toEpt.pde a = none

private theorem mapGuestRam4kb_pages (gpa hpa : U64) {n : Nat} (h : n < 2 ^ 50) :
    relmNptMapGuestRam4kb mmio flags s gpa hpa (pageAddr n) = nptMapPages4kb mmio flags gpa hpa n 0 s := by
  have hn : (pageAddr n / nptPageSize4kb).toNat = n := pageAddr_div h
  rw [relmNptMapGuestRam4kb, pageAlign_pageAddr h, hn]

private theorem code_neg (e : Errno) : -e.code < 0 := by cases e <;> decide

section Strides

variable {P Q N y : Nat} (hP : P + N ≤ 2 ^ 36) (hQ : Q + N ≤ 2 ^ 40)

include hP hQ

omit hP hQ in
/-- A stride is passed over. -/
private theorem NptFilled.stride (h : NptFilled mmio flags P Q N y s)
    (hst : (P + y) % 512 = 0 ∧ IsStride mmio P Q N ((P + y) / 512)) : NptFilled mmio flags P Q N (y + 512) s := by
  refine ⟨h.sound, fun a => ?_, h.pde⟩
  rw [h.pte a]
  by_cases hin : pageOf a / 512 = (P + y) / 512
  · rw [if_neg (fun hc => hc.2.2.2 (hin ▸ hst.2)), if_neg (fun hc => hc.2.2.2 (hin ▸ hst.2))]
  · have hal := hst.1
    simp only [show (pageOf a < P + (y + 512)) = (pageOf a < P + y) by rw [eq_iff_iff]; omega]

/-- A chunk of pages mapped outside the strides. -/
private theorem NptFilled.chunk (hf : presentUser flags = true) (h : NptFilled mmio flags P Q N y s) (hy : y < N)
    (hst : ¬ ((P + y) % 512 = 0 ∧ IsStride mmio P Q N ((P + y) / 512))) {c : Nat} (hc : c ≤ N - y) (hc' : c ≤ 512 - (P + y) % 512)
    (hbd : y = 0 ∨ (P + y) % 512 = 0) :
    let r := nptMapPages4kb mmio flags (pageAddr (P + y)) (pageAddr (Q + y)) c 0 s
    (r.1 = .error .enomem ∧ r.2.host.oom = true) ∨ r.1 = .ok () ∧ NptFilled mmio flags P Q N (y + c) r.2 := by
  intro r
  obtain ⟨hret, hnext⟩ := mapPages4kb_toEpt mmio (pageAddr (P + y)) (pageAddr (Q + y)) hf c 0 s
  have hns : ¬ IsStride mmio P Q N ((P + y) / 512) := by
    intro hs
    have := hs.1
    exact hst ⟨by omega, hs⟩
  have hin : ∀ n, P + y ≤ n → n < P + y + c → n / 512 = (P + y) / 512 := by
    intro n h1 h2
    omega
  have hw : EptState.Without nxLink (mapPages4kb mmio flags (pageAddr (P + y)) (pageAddr (Q + y)) c 0 s.toEpt).2 :=
    mapPages4kb_without nxLink_zero nxLink_tableEntry present_of_nxLink _ _ c 0 s.toEpt h.sound.shape h.pde h.sound.links
  rcases mapPages4kb_spec mmio (P + y) (Q + y) (present_of_presentUser hf) c 0 s.toEpt h.sound.shape (by omega) (by omega)
    (fun n _ _ => h.pde _) with ⟨he, ho⟩ | ⟨hr, hm⟩
  · refine .inl ⟨hret.trans he, ?_⟩
    rw [← hnext] at ho
    exact ho
  · rw [← hnext] at hm hw
    refine .inr ⟨hret.trans hr, ⟨hm.shape, hw⟩, fun a => ?_, fun a => (hm.pde a).trans (h.pde a)⟩
    rw [hm.pte a]
    by_cases hpa : P + y ≤ pageOf a ∧ pageOf a < P + y + c
    · have hblk := hin (pageOf a) hpa.1 hpa.2
      have hold : s.toEpt.pte a = none := by rw [h.pte a, if_neg (by omega)]
      rw [hold]
      by_cases hpb : pageBlocked mmio (pageOf a) = false
      · rw [if_pos ⟨by omega, by omega, hpb⟩, if_pos ⟨by omega, by omega, hpb, hblk ▸ hns⟩,
          show Q + y + (pageOf a - (P + y)) = Q + (pageOf a - P) by omega]
      · rw [if_neg fun hd => hpb hd.2.2, if_neg fun hd => hpb hd.2.2.1]
    · rw [if_neg (by omega), h.pte a]
      simp only [show (P ≤ pageOf a ∧ pageOf a < P + (y + c)) = (P ≤ pageOf a ∧ pageOf a < P + y) by
        rw [eq_iff_iff]; omega, ← and_assoc]

/-- The huge-preferred loop from a position on: an allocation failed, a stride was met, or the rest is filled. -/
private theorem nptMapStrides_spec (hf : presentUser flags = true) (k : Nat) :
    ∀ (y : Nat) (ret : Int) (s : NptState), N - y ≤ k → y ≤ N →
    (y = 0 ∨ (P + y) % 512 = 0 ∨ y = N) → NptFilled mmio flags P Q N y s →
    let r := nptMapStrides mmio flags (pageAddr (P + N)) (pageAddr (P + y)) (pageAddr (Q + y)) ret s
    r.2.host.oom = true ∨ (r.1 ≠ 0 ∧ ∃ b, IsStride mmio P Q N b) ∨ r.1 = 0 ∧ NptFilled mmio flags P Q N N r.2 := by
  induction k with
  | zero =>
    intro y ret s hk hy hbd h
    obtain rfl : y = N := by omega
    rw [nptMapStrides, dif_neg (by rw [pageAddr_lt_iff (by omega) (by omega)]; omega)]
    exact .inr (.inr ⟨rfl, h⟩)
  | succ k ih =>
    intro y ret s hk hy hbd h
    by_cases hlt : y < N
    swap
    · obtain rfl : y = N := by omega
      rw [nptMapStrides, dif_neg (by rw [pageAddr_lt_iff (by omega) (by omega)]; omega)]
      exact .inr (.inr ⟨rfl, h⟩)
    have hhuge := strideIsHuge_iff mmio hP hQ hlt
    have hlen := strideLength_eq mmio hP hQ hlt
    rw [nptMapStrides, dif_pos (by rw [pageAddr_lt_iff (by omega) (by omega)]; omega), nptMapStride, nptStrideIsHuge_eq,
      nptStrideLength_eq]
    by_cases hst : (P + y) % 512 = 0 ∧ IsStride mmio P Q N ((P + y) / 512)
    · have hs2 := hst.2.2.1
      rw [if_pos hst] at hlen
      rw [if_pos (hhuge.mpr hst), hlen, pageAddr_add_pageAddr, pageAddr_add_pageAddr]
      simp only [Nat.add_assoc]
      split
      · rename_i hneg
        exact .inr (.inl ⟨by dsimp only; omega, _, hst.2⟩)
      · exact ih (y + 512) ret s (by omega) (by omega) (by omega) (h.stride hst)
    · rw [if_neg hst] at hlen
      have hc : 0 < min (N - y) (512 - (P + y) % 512) ∧ min (N - y) (512 - (P + y) % 512) ≤ N - y ∧
          min (N - y) (512 - (P + y) % 512) ≤ 512 - (P + y) % 512 ∧
          (min (N - y) (512 - (P + y) % 512) = N - y ∨
            (P + y + min (N - y) (512 - (P + y) % 512)) % 512 = 0) := by omega
      generalize min (N - y) (512 - (P + y) % 512) = c at hlen hc
      rw [if_neg (fun hd => hst (hhuge.mp hd)), hlen, pageAddr_add_pageAddr, pageAddr_add_pageAddr,
        mapGuestRam4kb_pages _ _ (by omega)]
      have hstep := h.chunk hP hQ hf hlt hst hc.2.1 hc.2.2.1 (by omega)
      generalize nptMapPages4kb mmio flags (pageAddr (P + y)) (pageAddr (Q + y)) c 0 s = r at hstep ⊢
      obtain ⟨res, t⟩ := r
      rcases hstep with ⟨he, ho⟩ | ⟨hr, hfill⟩
      · obtain rfl : res = .error .enomem := he
        simp only [if_pos (code_neg .enomem)]
        exact .inl ho
      · obtain rfl : res = .ok () := hr
        simp only [Nat.add_assoc, lt_irrefl, if_false]
        exact ih (y + c) 0 t (by omega) (by omega) (by omega) hfill

end Strides

section Result

variable {P Q N : Nat}

/-- What the processor makes of the leaf of a page of the range. -/
private theorem leafGrant_page (m : Nat) (hu : presentUser flags = true) (a : U64) :
    ∃ grant, leafGrant a (leafEntry (pageAddr m) flags) = some grant := by
  have hu' : presentUser (leafEntry (pageAddr m) flags) = true := by
    rw [presentUser, beq_iff_eq] at hu ⊢
    have hd : (pageAddr m &&& eptAddrMask) &&& (nptPresent ||| nptUser) = 0#64 := by
      rw [BitVec.and_assoc, show eptAddrMask &&& (nptPresent ||| nptUser) = 0#64 by decide, BitVec.and_zero]
    rw [leafEntry, BitVec.and_or_distrib_right, hd, BitVec.zero_or, hu]
  exact ⟨_, if_pos hu'⟩

private theorem huge_spec (h : NptRamArgs mmio flags gpaStart hpaStart size) (indeterminate : Int)
    (he : EptState.Empty s.toEpt) (hs : Sound s)
    (ho : (relmNptMapGuestRamHuge mmio flags indeterminate s gpaStart hpaStart size).2.host.oom = false) :
    let r := relmNptMapGuestRamHuge mmio flags indeterminate s gpaStart hpaStart size
    (r.1 ≠ 0 ∧ ∃ b, IsStride mmio (gpaStart.toNat / 4096) (hpaStart.toNat / 4096) ((size.toNat + 4095) / 4096) b) ∨
      r.1 = 0 ∧ NptFilled mmio flags (gpaStart.toNat / 4096) (hpaStart.toNat / 4096) ((size.toNat + 4095) / 4096)
        ((size.toNat + 4095) / 4096) r.2 := by
  obtain ⟨hg, hh, hsz, hP, hQ⟩ := h.toRamArgs.pages
  have hstart : NptFilled mmio flags (gpaStart.toNat / 4096) (hpaStart.toNat / 4096) ((size.toNat + 4095) / 4096) 0 s :=
    ⟨hs, fun a => by rw [he.pte a, if_neg (by omega)], he.pde⟩
  have hspec := nptMapStrides_spec hP hQ h.user _ 0 indeterminate s le_rfl (Nat.zero_le _) (.inl rfl) hstart
  have heq : relmNptMapGuestRamHuge mmio flags indeterminate s gpaStart hpaStart size =
      nptMapStrides mmio flags (pageAddr (gpaStart.toNat / 4096 + (size.toNat + 4095) / 4096))
        (pageAddr (gpaStart.toNat / 4096 + 0)) (pageAddr (hpaStart.toNat / 4096 + 0)) indeterminate s := by
    rw [← pageAddr_add_pageAddr, ← pageAddr_add_pageAddr, ← pageAddr_add_pageAddr, ← hg, ← hh, ← hsz,
      show pageAddr 0 = 0#64 by decide, BitVec.add_zero, BitVec.add_zero]
    rfl
  rw [heq] at ho ⊢
  rcases hspec with hoom | hrest
  · rw [hoom] at ho
    cases ho
  · exact hrest

private theorem pages_spec (h : NptRamArgs mmio flags gpaStart hpaStart size) (he : EptState.Empty t.toEpt) (ht : Sound t)
    (ho : (relmNptMapGuestRam4kb mmio flags t gpaStart hpaStart size).2.host.oom = false) :
    (relmNptMapGuestRam4kb mmio flags t gpaStart hpaStart size).1 = .ok () ∧
      Sound (relmNptMapGuestRam4kb mmio flags t gpaStart hpaStart size).2 ∧
      PagesMapped mmio flags (gpaStart.toNat / 4096) (hpaStart.toNat / 4096) (gpaStart.toNat / 4096)
        (gpaStart.toNat / 4096 + (size.toNat + 4095) / 4096) t.toEpt
        (relmNptMapGuestRam4kb mmio flags t gpaStart hpaStart size).2.toEpt := by
  obtain ⟨hret, hnext⟩ := mapGuestRam4kb_toEpt mmio t gpaStart hpaStart size h.user
  have ho' : (relmEptMapGuestRam4kb mmio flags t.toEpt gpaStart hpaStart size).2.host.oom = false := by
    rw [← hnext]
    exact ho
  have hw : EptState.Without nxLink (relmEptMapGuestRam4kb mmio flags t.toEpt gpaStart hpaStart size).2 :=
    mapPages4kb_without nxLink_zero nxLink_tableEntry present_of_nxLink _ _ _ 0 t.toEpt ht.shape he.pde ht.links
  obtain ⟨hr, hm⟩ := pages_result h.toRamArgs he ho'
  rw [← hnext] at hm hw
  exact ⟨hret.trans hr, ⟨hm.shape, hw⟩, hm⟩

/-- The translation of an address once the 4 KiB loop is through. -/
private theorem pages_translate (h : NptRamArgs mmio flags gpaStart hpaStart size) (he : EptState.Empty t.toEpt) (ht : Sound t)
    (ho : (relmNptMapGuestRam4kb mmio flags t gpaStart hpaStart size).2.host.oom = false) (a : U64) :
    nptHwTranslate (relmNptMapGuestRam4kb mmio flags t gpaStart hpaStart size).2 a =
      if gpaStart.toNat / 4096 ≤ pageOf a ∧ pageOf a < gpaStart.toNat / 4096 + (size.toNat + 4095) / 4096 ∧
        pageBlocked mmio (pageOf a) = false then
        leafGrant a (leafEntry (pageAddr (hpaStart.toNat / 4096 + (pageOf a - gpaStart.toNat / 4096))) flags) else none := by
  obtain ⟨-, hsound, hm⟩ := pages_spec h he ht ho
  rw [hwTranslate_pte hsound ((hm.pde a).trans (he.pde a)), hm.pte a, he.pte a]
  split <;> rfl

/-- With successful allocations and whatever `ret` starts from, the two mappings of a range agree exactly when the range
holds no block that the huge-preferred loop would map with one entry. -/
theorem npt_guest_ram_maps_agree_iff {h h' k k' : Host} {ctx ctx' : NptContext} (indeterminate : Int)
    (hc : relmNptContextCreate h = (.ok ctx, h')) (kc : relmNptContextCreate k = (.ok ctx', k'))
    (args : NptRamArgs mmio flags gpaStart hpaStart size)
    (ho : (relmNptMapGuestRamHuge mmio flags indeterminate ⟨h', ctx⟩ gpaStart hpaStart size).2.host.oom = false)
    (ko : (relmNptMapGuestRam4kb mmio flags ⟨k', ctx'⟩ gpaStart hpaStart size).2.host.oom = false) :
    NptRamMapsAgree mmio gpaStart size (relmNptMapGuestRamHuge mmio flags indeterminate ⟨h', ctx⟩ gpaStart hpaStart size)
      (relmNptMapGuestRam4kb mmio flags ⟨k', ctx'⟩ gpaStart hpaStart size) ↔ NoWholeBlock mmio gpaStart hpaStart size := by
  obtain ⟨he, hs⟩ := nptContextCreate_spec hc
  obtain ⟨ke, ks⟩ := nptContextCreate_spec kc
  obtain ⟨-, -, -, hP, hQ⟩ := args.toRamArgs.pages
  have hhuge := huge_spec args indeterminate he hs ho
  have hpages := pages_translate args ke ks ko
  obtain ⟨hret', -, -⟩ := pages_spec args ke ks ko
  rw [noWholeBlock_iff args]
  constructor
  · intro hag b hst
    rcases hhuge with ⟨hne, -⟩ | ⟨-, hfill⟩
    · exact hne hag.ret
    have hlt : 512 * b < 2 ^ 36 := by
      have := hst.2.1
      omega
    have hpo : pageOf (blockAddr b) = 512 * b := by rw [blockAddr_eq, pageOf_pageAddr hlt]
    have hb48 : (blockAddr b).toNat < 2 ^ 48 := by
      rw [blockAddr_eq, pageAddr_toNat (by omega)]
      omega
    have hbb : 512 * b / 512 = b := by omega
    have hsame := hag.same (blockAddr b) hb48
    rw [hwTranslate_pte hfill.sound (hfill.pde _), hfill.pte, hpages, hpo, hbb, if_neg (fun hd => hd.2.2.2 hst),
      if_pos ⟨hst.1, by have := hst.2.1; omega, pageBlocked_false (by omega) (by rw [hbb]; exact hst.2.2.2)⟩] at hsame
    obtain ⟨grant, hgrant⟩ :=
      leafGrant_page (hpaStart.toNat / 4096 + (512 * b - gpaStart.toNat / 4096)) args.user (blockAddr b)
    rw [hgrant] at hsame
    cases hsame
  · intro hno
    rcases hhuge with ⟨-, b, hst⟩ | ⟨hret, hfill⟩
    · exact absurd hst (hno b)
    have hsame : ∀ a, nptHwTranslate (relmNptMapGuestRamHuge mmio flags indeterminate ⟨h', ctx⟩ gpaStart hpaStart size).2 a =
        nptHwTranslate (relmNptMapGuestRam4kb mmio flags ⟨k', ctx'⟩ gpaStart hpaStart size).2 a := by
      intro a
      rw [hwTranslate_pte hfill.sound (hfill.pde _), hfill.pte, hpages]
      by_cases hin : gpaStart.toNat / 4096 ≤ pageOf a ∧ pageOf a < gpaStart.toNat / 4096 + (size.toNat + 4095) / 4096 ∧
          pageBlocked mmio (pageOf a) = false
      · rw [if_pos hin, if_pos ⟨hin.1, hin.2.1, hin.2.2, hno _⟩]
        rfl
      · rw [if_neg hin, if_neg fun hd => hin ⟨hd.1, hd.2.1, hd.2.2.1⟩]
        rfl
    refine ⟨hret, hret', fun a _ => hsame a, fun a ha hin => ?_, fun a ha hout => ?_⟩
    · have hb := pageBlocked_of_inMmio args.regions ha hin
      rw [hsame, hpages, if_neg (by simp [hb])]
      exact ⟨rfl, rfl⟩
    · have hal := args.gpaAligned
      have hpo : pageOf a = a.toNat / 4096 := by rw [pageOf]; omega
      rw [pageRound] at hout
      rw [hsame, hpages, if_neg (by omega)]
      exact ⟨rfl, rfl⟩

end Result

section Sample

private def nptHost : Host := Host.idle [some 0x1000#64, some 0x2000#64, some 0x3000#64, some 0x4000#64] [true]

private def nptSample : NptState where
  host := nptHost.slabTake.take 0x1000#64
  ctx := ⟨0, 0x1000#64, 0x1000#64, {}, [0x1000#64]⟩

private theorem nptSample_created : relmNptContextCreate nptHost = (.ok nptSample.ctx, nptSample.host) := rfl

private theorem strides_single {last gpa hpa : U64} {ret ret' : Int} (hlt : gpa < last)
    (hret : nptMapStride mmio flags last gpa hpa ret s = (ret', t)) (hok : ¬ ret' < 0)
    (hend : ¬ gpa + nptStrideLength mmio last gpa hpa < last) :
    nptMapStrides mmio flags last gpa hpa ret s = (0, t) := by
  rw [nptMapStrides, dif_pos hlt, hret]
  simp only [if_neg hok]
  rw [nptMapStrides, dif_neg hend]

private theorem oom_of_run {r : Int × NptState} {ret : Int} (hr : r = (ret, t)) (ho : t.host.oom = false) :
    r.2.host.oom = false := by
  rw [hr]
  exact ho

/-- A block of guest pages, page by page: they all share the page table of the first. -/
private theorem block_pages_oom (Q : Nat) (hQ : Q + 512 ≤ 2 ^ 40)
    (hret : (relmEptMapPage nptSample.toEpt 0#64 (pageAddr Q) nptRwx).ret = .ok ())
    (hwalk : (relmEptMapPage nptSample.toEpt 0#64 (pageAddr Q) nptRwx).next.walk (gpaPath (pageAddr 0)) = some 0x4000#64)
    (hoom : (relmEptMapPage nptSample.toEpt 0#64 (pageAddr Q) nptRwx).next.host.oom = false) :
    (relmNptMapGuestRam4kb [] nptRwx nptSample 0#64 (pageAddr Q) 0x200000#64).2.host.oom = false := by
  obtain ⟨-, hnext⟩ := mapGuestRam4kb_toEpt [] nptSample 0#64 (pageAddr Q) 0x200000#64 (show presentUser nptRwx = true by decide)
  have he : EptState.Empty nptSample.toEpt := (nptContextCreate_spec nptSample_created).1
  have hsize : relmEptMapGuestRam4kb [] nptRwx nptSample.toEpt 0#64 (pageAddr Q) 0x200000#64 =
      mapPages4kb [] nptRwx (pageAddr 0) (pageAddr Q) (511 + 1) 0 nptSample.toEpt :=
    mapGuestRam4kb_eq (n := 511 + 1) _ _ (by decide)
  have hspec := EptState.mapPage_spec 0#64 (pageAddr Q) nptRwx he.shape (he.pde _)
  rcases hspec with ⟨_, hr⟩ | ⟨_, hr, _⟩ | ⟨_, _, ⟨hl, _⟩, _⟩
  · rw [hr] at hret
    cases hret
  · rw [hr] at hret
    cases hret
  · have hfirst : mapPages4kb [] nptRwx (pageAddr 0) (pageAddr Q) (511 + 1) 0 nptSample.toEpt =
        mapPages4kb [] nptRwx (pageAddr 0) (pageAddr Q) 511 1 (relmEptMapPage nptSample.toEpt 0#64 (pageAddr Q) nptRwx).next :=
      mapPages4kb_first 511 hret
    rw [← toEpt_host, hnext, hsize, hfirst, mapPages4kb_oom 0 Q 0 rfl 511 1 _ hl.shape (by decide) (by decide) (by omega)
      ((hl.pde _).trans (he.pde _)) hwalk]
    exact hoom

private theorem shifted_oom : (relmNptMapGuestRam4kb [] nptRwx nptSample 0#64 0x201000#64 0x200000#64).2.host.oom = false := by
  have h := block_pages_oom 513 (by decide) rfl rfl rfl
  rwa [show pageAddr 513 = 0x201000#64 from rfl] at h

private theorem shiftedArgs : NptRamArgs [] nptRwx 0#64 0x201000#64 0x200000#64 :=
  ⟨by decide, by decide, by decide, by decide, by simp, by decide, by decide⟩

/-- A block at a host address that is not 2 MiB aligned is one stretch of 4 KiB pages for the huge-preferred loop. -/
private theorem shifted_huge : relmNptMapGuestRamHuge [] nptRwx 0 nptSample 0#64 0x201000#64 0x200000#64 =
    (0, (relmNptMapGuestRam4kb [] nptRwx nptSample 0#64 0x201000#64 0x200000#64).2) := by
  have he : EptState.Empty nptSample.toEpt := (nptContextCreate_spec nptSample_created).1
  have hs : Sound nptSample := (nptContextCreate_spec nptSample_created).2
  obtain ⟨hok, -, -⟩ := pages_spec shiftedArgs he hs shifted_oom
  suffices hstride : nptMapStride [] nptRwx 0x200000#64 0#64 0x201000#64 0 nptSample =
      (0, (relmNptMapGuestRam4kb [] nptRwx nptSample 0#64 0x201000#64 0x200000#64).2) from
    strides_single (by decide) hstride (by decide) (by decide)
  have hlen : nptStrideLength [] 0x200000#64 0#64 0x201000#64 = 0x200000#64 := by decide
  rw [nptMapStride, if_neg (by decide), hlen]
  change (relmNptMapGuestRam4kb [] nptRwx nptSample 0#64 0x201000#64 0x200000#64).1 = _ at hok
  generalize relmNptMapGuestRam4kb [] nptRwx nptSample 0#64 0x201000#64 0x200000#64 = r at hok ⊢
  obtain ⟨ret, t⟩ := r
  obtain rfl : ret = .ok () := hok
  rfl

/-- Two MiB of RAM that no entry could map as a whole are mapped alike. -/
theorem npt_guest_ram_maps_agree_shifted : relmNptContextCreate nptHost = (.ok nptSample.ctx, nptSample.host) ∧
    NptRamArgs [] nptRwx 0#64 0x201000#64 0x200000#64 ∧
      NptRamMapsAgree [] 0#64 0x200000#64 (relmNptMapGuestRamHuge [] nptRwx 0 nptSample 0#64 0x201000#64 0x200000#64)
        (relmNptMapGuestRam4kb [] nptRwx nptSample 0#64 0x201000#64 0x200000#64) := by
  have heta : NptState.mk nptSample.host nptSample.ctx = nptSample := rfl
  have hhuge : (relmNptMapGuestRamHuge [] nptRwx 0 (NptState.mk nptSample.host nptSample.ctx) 0#64 0x201000#64
      0x200000#64).2.host.oom = false := by
    rw [heta]
    exact oom_of_run shifted_huge shifted_oom
  have hpages : (relmNptMapGuestRam4kb [] nptRwx (NptState.mk nptSample.host nptSample.ctx) 0#64 0x201000#64
      0x200000#64).2.host.oom = false := by
    rw [heta]
    exact shifted_oom
  have hiff := npt_guest_ram_maps_agree_iff 0 nptSample_created nptSample_created shiftedArgs hhuge hpages
  rw [heta] at hiff
  refine ⟨nptSample_created, shiftedArgs, hiff.mpr fun b _ _ h => ?_⟩
  rw [show (0x201000#64).toNat = 2101248 from rfl, show (0#64).toNat = 0 from rfl] at h
  omega

private theorem block_huge : relmNptMapGuestRamHuge [] nptRwx 0 nptSample 0#64 0x200000#64 0x200000#64 = (0, nptSample) :=
  strides_single (by decide) (show nptMapStride [] nptRwx 0x200000#64 0#64 0x200000#64 0 nptSample = (0, nptSample) from rfl)
    (by decide) (by decide)

private theorem block_oom : (relmNptMapGuestRam4kb [] nptRwx nptSample 0#64 0x200000#64 0x200000#64).2.host.oom = false := by
  have h := block_pages_oom 512 (by decide) rfl rfl rfl
  rwa [show pageAddr 512 = 0x200000#64 from rfl] at h

/-- One 2 MiB block of guest RAM: the huge-preferred mapping returns 0 and maps nothing. -/
theorem npt_block_not_mapped : relmNptContextCreate nptHost = (.ok nptSample.ctx, nptSample.host) ∧
    NptRamArgs [] nptRwx 0#64 0x200000#64 0x200000#64 ∧
    (relmNptMapGuestRam4kb [] nptRwx nptSample 0#64 0x200000#64 0x200000#64).2.host.oom = false ∧
    relmNptMapGuestRamHuge [] nptRwx 0 nptSample 0#64 0x200000#64 0x200000#64 = (0, nptSample) ∧
    ¬ NptRamMapsAgree [] 0#64 0x200000#64 (relmNptMapGuestRamHuge [] nptRwx 0 nptSample 0#64 0x200000#64 0x200000#64)
      (relmNptMapGuestRam4kb [] nptRwx nptSample 0#64 0x200000#64 0x200000#64) := by
  have hargs : NptRamArgs [] nptRwx 0#64 0x200000#64 0x200000#64 :=
    ⟨by decide, by decide, by decide, by decide, by simp, by decide, by decide⟩
  refine ⟨nptSample_created, hargs, block_oom, block_huge, fun hag => ?_⟩
  have he : EptState.Empty nptSample.toEpt := (nptContextCreate_spec nptSample_created).1
  have hs : Sound nptSample := (nptContextCreate_spec nptSample_created).2
  have hsame := hag.same 0#64 (by decide)
  rw [block_huge, pages_translate hargs he hs block_oom] at hsame
  revert hsame
  decide

end Sample

end Relm.Svm
