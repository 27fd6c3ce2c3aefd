import Relm.Vm.Copies

/-! Guest memory with pass-through regions beside the RAM: accesses to a range that is RAM all through. -/
namespace Relm.Vm
open Relm.Lib.Patch Relm.Lib.Word

/-- The regions that have pages. -/
def ramRegions (regions : List GuestMemRegion) : List GuestMemRegion := regions.filter (·.pages.isSome)

/-- Regions of either kind that do not overlap, in any order; no page backs two places. -/
structure VmLayout (regions : List GuestMemRegion) : Prop where
  linked : ∀ r ∈ regions, r.Linked
  bounded : ∀ r ∈ regions, r.gpaStart.toNat + r.size.toNat < 2 ^ 64
  disjoint : regions.Pairwise GuestMemRegion.Apart
  frames : (regions.flatMap fun r => r.pages.getD []).Nodup

/-- The `n` bytes from `start` on are RAM. -/
def RamCovers (regions : List GuestMemRegion) (start n : Nat) : Prop :=
  ∀ i < n, ∃ r ∈ ramRegions regions, r.Covers (start + i)

theorem RamCovers.sub {regions : List GuestMemRegion} {start n : Nat} (h : RamCovers regions start n) (off len : Nat)
    (hle : off + len ≤ n) : RamCovers regions (start + off) len := by
  intro i hi
  rw [Nat.add_assoc]
  exact h (off + i) (by omega)

section Regions

variable {regions : List GuestMemRegion} {r : GuestMemRegion} {gpa : U64}

private theorem mem_ramRegions : r ∈ ramRegions regions ↔ r ∈ regions ∧ r.pages.isSome = true := List.mem_filter

private theorem ram_frames (regions : List GuestMemRegion) :
    ((ramRegions regions).flatMap fun r => r.pages.getD []) = regions.flatMap fun r => r.pages.getD [] := by
  induction regions with
  | nil => rfl
  | cons r rest ih =>
    unfold ramRegions at ih ⊢
    cases hp : r.pages with
    | none => simp [hp, ih]
    | some ps => simp [hp, ih]

theorem VmLayout.ram (k : VmLayout regions) : RamLayout (ramRegions regions) where
  linked r hr := k.linked r (mem_ramRegions.mp hr).1
  backed r hr := (mem_ramRegions.mp hr).2
  bounded r hr := k.bounded r (mem_ramRegions.mp hr).1
  disjoint := k.disjoint.sublist List.filter_sublist
  frames := by
    rw [ram_frames]
    exact k.frames

/-- A pass-through region holds no byte of guest memory. -/
theorem guestMemory_ram (regions : List GuestMemRegion) (h : Host) :
    guestMemory (ramRegions regions) h = guestMemory regions h := by
  funext a
  unfold guestMemory ramRegions
  induction regions with
  | nil => rfl
  | cons r rest ih =>
    cases hp : r.pages with
    | none =>
      have hnone : r.byteAt h a = none := by
        unfold GuestMemRegion.byteAt
        rw [hp]
        exact ite_self _
      simp [hp, ih, hnone]
    | some ps =>
      rw [List.filter_cons_of_pos (by simp [hp]), List.findSome?_cons, List.findSome?_cons, ih]

/-- At an address that is RAM the lookup does not see the pass-through regions. -/
private theorem findRegion_ram (k : VmLayout regions) (hr : r ∈ ramRegions regions) (hc : r.Covers gpa.toNat) :
    findRegion regions gpa = findRegion (ramRegions regions) gpa := by
  have hone : ∀ l : List GuestMemRegion, l.Pairwise GuestMemRegion.Apart → (∀ q ∈ l, q ∈ regions) → r ∈ l →
      findRegion l gpa = some r := by
    intro l hd hsub hmem
    have hin : r.contains gpa = true :=
      (GuestMemRegion.contains_iff_covers (k.bounded r (mem_ramRegions.mp hr).1)).mpr hc
    cases hf : findRegion l gpa with
    | none => exact absurd hin (by simpa using List.find?_eq_none.mp hf r hmem)
    | some q =>
      have hq := findRegion_mem hf
      have hqc := (GuestMemRegion.contains_iff_covers (k.bounded q (hsub q hq))).mp (findRegion_contains hf)
      by_contra hne
      have hsymm : Std.Symm GuestMemRegion.Apart := ⟨fun _ _ ha => Or.symm ha⟩
      have hap := hd.forall hq hmem fun heq => hne (congrArg some heq)
      unfold GuestMemRegion.Apart at hap
      obtain ⟨h1, h2⟩ := hc
      obtain ⟨h3, h4⟩ := hqc
      omega
  rw [hone regions k.disjoint (fun _ hq => hq) (mem_ramRegions.mp hr).1,
    hone (ramRegions regions) k.ram.disjoint (fun _ hq => (mem_ramRegions.mp hq).1) hr]

private theorem address_toNat {start : U64} {n i : Nat} (k : VmLayout regions) (h : RamCovers regions start.toNat n)
    (hi : i < n) : (start + BitVec.ofNat 64 i).toNat = start.toNat + i := by
  obtain ⟨r, hr, hc⟩ := h i hi
  have hb := k.bounded r (mem_ramRegions.mp hr).1
  exact add_offset rfl (Nat.lt_trans hc.2 hb)

private theorem regionFor_ram {start : U64} {n i : Nat} (k : VmLayout regions) (h : RamCovers regions start.toNat n)
    (hi : i < n) (inUse : Option GuestMemRegion) : regionFor regions inUse (start + BitVec.ofNat 64 i) =
      regionFor (ramRegions regions) inUse (start + BitVec.ofNat 64 i) := by
  obtain ⟨r, hr, hc⟩ := h i hi
  rw [← address_toNat k h hi] at hc
  unfold regionFor
  rw [findRegion_ram k hr hc]

/-- The loop of the accessors, over a range that is RAM, does not see the pass-through regions. -/
private theorem accessLoop_ram {σ : Type} (k : VmLayout regions) (clamp : Bool)
    (act : U64 → Nat → Nat → Nat → σ → σ) (start : U64) (size : Nat) (h : RamCovers regions start.toNat size)
    (inUse : Option GuestMemRegion) (copied : Nat) (st : σ) :
    accessLoop regions clamp act start size inUse copied st =
      accessLoop (ramRegions regions) clamp act start size inUse copied st := by
  fun_induction accessLoop regions clamp act start size inUse copied st with
  | case1 inUse copied st hlt current hnone =>
    rw [regionFor_ram k h hlt] at hnone
    rw [accessLoop, if_pos hlt]
    dsimp only
    split
    · rfl
    · rename_i hsome
      rw [hnone] at hsome
      cases hsome
  | case2 inUse copied st hlt current region hregion offset fault hpage =>
    rw [regionFor_ram k h hlt] at hregion
    rw [accessLoop, if_pos hlt]
    dsimp only
    split
    · rename_i hn
      rw [hn] at hregion
      cases hregion
    · rename_i region' hregion'
      obtain rfl := Option.some.inj (hregion.symm.trans hregion')
      rw [hpage]
  | case3 inUse copied st hlt current region hregion offset page hpage n ih =>
    rw [regionFor_ram k h hlt] at hregion
    rw [ih]
    conv_rhs => rw [accessLoop, if_pos hlt]
    dsimp only
    split
    · rename_i hn
      rw [hn] at hregion
      cases hregion
    · rename_i region' hregion'
      obtain rfl := Option.some.inj (hregion.symm.trans hregion')
      rw [hpage]
  | case4 inUse copied st hge =>
    rw [accessLoop, if_neg hge]

end Regions

section Accessors

variable {s : VmState}

private theorem LongestPrefix.eq_of_covered {regions : List GuestMemRegion} {start size n : Nat}
    (h : LongestPrefix (ramRegions regions) start size n) (hc : RamCovers regions start size) : n = size := by
  by_contra hne
  have hle := h.le
  obtain ⟨r, hr, hcov⟩ := hc n (by omega)
  exact h.maximal (by omega) r hr hcov

private theorem guestMemory_withRam (s : VmState) (host : Host) :
    VmState.guestMemory { s with host, memory.memRegions := ramRegions s.memory.memRegions } =
      VmState.guestMemory { s with host } := guestMemory_ram _ _

/-- A block copied into RAM is there in full, and nothing else changes. -/
theorem VmLayout.copyTo (k : VmLayout s.memory.memRegions) (gpa : U64) (data : List Byte) (hpos : data.length ≠ 0)
    (hmax : data.length < 2 ^ 31) (hc : RamCovers s.memory.memRegions gpa.toNat data.length) :
    ∃ host, relmVmCopyToGuest s gpa data = .ok ((data.length : Int), { s with host }) ∧
      VmState.guestMemory { s with host } = patch s.guestMemory gpa.toNat (data.map some) := by
  obtain ⟨n, host, hcopy, hlong, hmem⟩ :=
    RamLayout.copyTo (s := { s with memory.memRegions := ramRegions s.memory.memRegions }) k.ram gpa data hpos hmax
  obtain rfl := hlong.eq_of_covered hc
  rw [List.take_length] at hmem
  refine ⟨host, ?_, (guestMemory_withRam s host).symm.trans (hmem.trans ?_)⟩
  · rw [relmVmCopyToGuest, if_neg hpos] at hcopy ⊢
    rw [accessLoop_ram k _ _ _ _ hc]
    generalize accessLoop (ramRegions s.memory.memRegions) true _ gpa data.length none 0 s.host = r at hcopy ⊢
    cases r with
    | error fault => cases hcopy
    | ok r =>
      have hpair := Except.ok.inj hcopy
      have hcount : accessRet r.1 = countRet data.length := congrArg Prod.fst hpair
      have hret : accessRet r.1 = (data.length : Int) := hcount.trans (if_neg hpos)
      have hhost : r.2 = host := congrArg (fun p => p.2.host) hpair
      simp only [Except.map, hret, hhost]
  · rw [guestMemory_withRam s s.host]

/-- A range of RAM that is cleared is cleared in full, and nothing else changes. -/
theorem VmLayout.zero (k : VmLayout s.memory.memRegions) (gpa : U64) {size : Nat} (hpos : size ≠ 0)
    (hmax : size < 2 ^ 31) (hc : RamCovers s.memory.memRegions gpa.toNat size) :
    ∃ host, relmVmZeroGuestMemory s gpa size = .ok ((size : Int), { s with host }) ∧
      VmState.guestMemory { s with host } = patch s.guestMemory gpa.toNat (List.replicate size (some 0)) := by
  obtain ⟨n, host, hzero, hlong, hmem⟩ :=
    RamLayout.zero (s := { s with memory.memRegions := ramRegions s.memory.memRegions }) k.ram gpa hpos hmax
  obtain rfl := hlong.eq_of_covered hc
  refine ⟨host, ?_, (guestMemory_withRam s host).symm.trans (hmem.trans ?_)⟩
  · rw [relmVmZeroGuestMemory, if_neg hpos] at hzero ⊢
    rw [accessLoop_ram k _ _ _ _ hc]
    generalize accessLoop (ramRegions s.memory.memRegions) false _ gpa n none 0 s.host = r at hzero ⊢
    cases r with
    | error fault => cases hzero
    | ok r =>
      have hpair := Except.ok.inj hzero
      have hcount : accessRet r.1 = countRet n := congrArg Prod.fst hpair
      have hret : accessRet r.1 = (n : Int) := hcount.trans (if_neg hpos)
      have hhost : r.2 = host := congrArg (fun p => p.2.host) hpair
      simp only [Except.map, hret, hhost]
  · rw [guestMemory_withRam s s.host]

end Accessors

end Relm.Vm
