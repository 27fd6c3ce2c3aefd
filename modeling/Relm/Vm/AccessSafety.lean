import Relm.Vm.Isolation
import Relm.Vmx.Mmu

/-! When the accessors of guest memory, and the page-table walks built on them, cannot make the host fault: exactly
when they meet no pass-through region and stay below `2^31` bytes. -/
namespace Relm.Vm
open Relm.Ept Relm.Lib.Run Relm.Lib.Word Relm.Vmx

section Regions

variable {s : VmState}

private theorem allocateGuestRam_regions (s : VmState) (size gpaStart : U64) :
    (relmVmAllocateGuestRam s size gpaStart).2.memory.memRegions = s.memory.memRegions ∨
      ∃ region : GuestMemRegion, region.Linked ∧
        (relmVmAllocateGuestRam s size gpaStart).2.memory.memRegions = region :: s.memory.memRegions := by
  rcases allocateGuestRam_memory s size gpaStart with ⟨-, hm⟩ | ⟨-, region, pages, hm, hl⟩
  · exact .inl (congrArg VmMemory.memRegions hm)
  · refine .inr ⟨region, ⟨?_, fun h0 => hl.gpaStart ▸ hl.aligned ?_, ?_, ?_⟩, congrArg VmMemory.memRegions hm⟩
    · rw [hl.size]
      exact pageAlign_mod size
    · have h1 := pageAlign_mod size
      have h2 : (pageAlign size).toNat ≠ 0 := fun hc => h0 (hl.size.trans (BitVec.eq_of_toNat_eq hc))
      rw [numPages, div_pageSize]
      omega
    · rw [hl.nrPages, hl.size, div_pageSize]
    · intro ps hps
      rw [hl.pages] at hps
      rw [← Option.some.inj hps, hl.length, hl.nrPages, numPages]

private theorem mmioLoop_memory (gpa hpa : U64) (left i : Nat) (s : VmState) :
    (mmioLoop gpa hpa left i s).2.2.memory = s.memory := by
  induction left generalizing i s with
  | zero => rfl
  | succ left ih =>
    unfold mmioLoop
    split
    · rename_i h
      exact congrArg (fun x => x.2.memory) h.symm
    · rename_i h
      exact (ih _ _).trans (congrArg (fun x => x.2.memory) h.symm)

private theorem mmioUnmap_memory (gpa : U64) (i : Nat) (s : VmState) : (mmioUnmap gpa i s).memory = s.memory := by
  induction i generalizing s with
  | zero => rfl
  | succ i ih => exact ih _

private theorem mapMmioRegion_regions (s : VmState) (gpa hpa size : U64) :
    (relmVmMapMmioRegion s gpa hpa size).2.memory.memRegions = s.memory.memRegions ∨
      ∃ region : GuestMemRegion, region.Linked ∧
        (relmVmMapMmioRegion s gpa hpa size).2.memory.memRegions = region :: s.memory.memRegions := by
  unfold relmVmMapMmioRegion
  split
  · exact .inl rfl
  split
  · exact .inl rfl
  rename_i hal
  simp only [bne_iff_ne, ne_eq, Bool.or_eq_true, not_or, not_not] at hal
  split
  · exact .inl rfl
  · rename_i h _
    have hm := mmioLoop_memory gpa hpa (size / pageSize).toNat 0 { s with host := h }
    split
    · rename_i heq
      rw [heq] at hm
      refine .inr ⟨_, ?_, congrArg (fun m : VmMemory => _ :: m.memRegions) hm⟩
      exact ⟨(pageMask_iff size).mp hal.2, fun _ => (pageMask_iff gpa).mp hal.1.1, div_pageSize size, fun _ h => by cases h⟩
    · rename_i heq
      rw [heq] at hm
      refine .inl ?_
      change (mmioUnmap gpa _ _).memory.memRegions = _
      rw [mmioUnmap_memory]
      exact congrArg VmMemory.memRegions hm

private theorem seabiosLoad_memory (s : VmState) (firmware : Except Errno Firmware) :
    (relmSeabiosLoad s firmware).2.memory = s.memory := by
  unfold relmSeabiosLoad
  split
  · rfl
  · split
    · rfl
    · split <;> rfl

private theorem seabiosUnload_memory (s : VmState) : (relmSeabiosUnload s).memory = s.memory := by
  unfold relmSeabiosUnload
  split <;> rfl

/-- Every call leaves the list of regions or puts one more, whole-page region in front. -/
private theorem exec_regions (s : VmState) (c : VmCall) :
    (c.exec s).2.memory.memRegions = s.memory.memRegions ∨
      ∃ region : GuestMemRegion, region.Linked ∧ (c.exec s).2.memory.memRegions = region :: s.memory.memRegions := by
  cases c with
  | allocateGuestRam size gpaStart => exact allocateGuestRam_regions s size gpaStart
  | mapMmioRegion gpa hpa size => exact mapMmioRegion_regions s gpa hpa size
  | seabiosSetup firmware fwCfg =>
    refine .inl ?_
    have hm := seabiosLoad_memory s firmware
    change (relmSeabiosSetup s firmware fwCfg).2.memory.memRegions = _
    unfold relmSeabiosSetup
    generalize relmSeabiosLoad s firmware = r at hm ⊢
    obtain ⟨ret, t⟩ := r
    cases ret with
    | error e => exact congrArg VmMemory.memRegions hm
    | ok u =>
      cases fwCfg with
      | ok u => exact congrArg VmMemory.memRegions hm
      | error e => exact congrArg VmMemory.memRegions ((seabiosUnload_memory t).trans hm)
  | seabiosUnload => exact .inl (congrArg VmMemory.memRegions (seabiosUnload_memory s))

/-- The regions of every VM that the memory-building functions can produce. -/
theorem linked_of_run (host : Host) (ept : EptContext) (calls : List VmCall) :
    ∀ r ∈ (run VmCall.exec (VmState.created host ept) calls).2.memory.memRegions, r.Linked := by
  have hall : ∀ c ∈ calls, True := fun _ _ => trivial
  refine run_invariant (P := fun _ (s : VmState) => ∀ r ∈ s.memory.memRegions, r.Linked) ?_ (fun r hr => by cases hr)
    (admitted_of_forall hall _)
  intro tr s c hs _ r hr
  rcases exec_regions s c with heq | ⟨region, hreg, heq⟩
  · exact hs r (heq ▸ hr)
  · rw [heq] at hr
    rcases List.mem_cons.mp hr with rfl | hr
    · exact hreg
    · exact hs r hr

end Regions

section Accessors

variable {s : VmState} {regions : List GuestMemRegion} {gpa : U64} {size : Nat}

theorem coveredBytes_le (regions : List GuestMemRegion) (gpa : U64) (size : Nat) : coveredBytes regions gpa size ≤ size := by
  induction size with
  | zero => exact le_rfl
  | succ size ih =>
    unfold coveredBytes
    split <;> omega

private theorem lt_coveredBytes {k : Nat} (hk : k < size) (h : ∀ j ≤ k, (regionAt regions gpa j).isSome) :
    k < coveredBytes regions gpa size := by
  induction size generalizing k with
  | zero => omega
  | succ size ih =>
    unfold coveredBytes
    rcases Nat.lt_or_ge k size with hlt | hge
    · have := ih hlt h
      split <;> omega
    · obtain rfl : k = size := by omega
      have hfull : coveredBytes regions gpa k = k := by
        refine le_antisymm (coveredBytes_le regions gpa k) ?_
        cases k with
        | zero => exact Nat.zero_le _
        | succ k => exact ih (by omega) fun j hj => h j (by omega)
      rw [if_pos ⟨hfull, h k le_rfl⟩]
      omega

private theorem coveredBytes_stop {n : Nat} (h : regionAt regions gpa n = none) : coveredBytes regions gpa size ≤ n := by
  induction size with
  | zero => exact Nat.zero_le _
  | succ size ih =>
    unfold coveredBytes
    split
    · rename_i hc
      have hne : size ≠ n := by
        rintro rfl
        rw [h] at hc
        cases hc.2
      omega
    · exact ih

private theorem coveredBytes_eq {n : Nat} (hle : n ≤ size) (hs : ∀ j < n, (regionAt regions gpa j).isSome)
    (hn : n < size → regionAt regions gpa n = none) : coveredBytes regions gpa size = n := by
  refine le_antisymm ?_ ?_
  · rcases Nat.lt_or_ge n size with hlt | hge
    · exact coveredBytes_stop (hn hlt)
    · exact (coveredBytes_le regions gpa size).trans hge
  · cases n with
    | zero => exact Nat.zero_le _
    | succ n => exact lt_coveredBytes (by omega) fun j hj => hs j (by omega)

/-- What a caller may rely on: the accessor returns, with the number of bytes handled, or with an error number when
there were none. -/
def Answered {α : Type} (handled : Nat) (o : Except HostFault (Int × α)) : Prop :=
  ∃ ret value, o = .ok (ret, value) ∧ (0 < handled ∧ ret = handled ∨ handled = 0 ∧ ∃ e : Errno, ret = -e.code)

/-- All three accessors answer for a range. -/
def AccessorsAnswer (s : VmState) (gpa : U64) (size : Nat) : Prop :=
  (∀ data : List Byte, data.length = size →
      Answered (coveredBytes s.memory.memRegions gpa size) (relmVmCopyToGuest s gpa data)) ∧
    Answered (coveredBytes s.memory.memRegions gpa size) (relmVmCopyFromGuest s gpa size) ∧
    Answered (coveredBytes s.memory.memRegions gpa size) (relmVmZeroGuestMemory s gpa size)

/-- The bytes that regions cover lie in page-backed regions, and there are fewer than `2^31`. -/
def PageBacked (s : VmState) (gpa : U64) (size : Nat) : Prop :=
  coveredBytes s.memory.memRegions gpa size < 2 ^ 31 ∧
    ∀ k < coveredBytes s.memory.memRegions gpa size, ∀ region, regionAt s.memory.memRegions gpa k = some region →
      region.pages.isSome

private theorem toCInt_eq_iff (n : Nat) : toCInt n = n ↔ n < 2 ^ 31 := by
  rw [toCInt, BitVec.toInt_eq_toNat_cond, BitVec.toNat_ofNat]
  have := Nat.mod_lt n (show 2 ^ 32 > 0 by decide)
  have hdiv := Nat.mod_add_div n (2 ^ 32)
  split
  · constructor
    · intro h
      omega
    · intro h
      rw [Nat.mod_eq_of_lt (by omega)]
  · constructor
    · intro h
      omega
    · intro h
      omega

/-- One accessor, whatever it does with a page. -/
private theorem accessLoop_answered {σ α : Type} (hw : ∀ r ∈ regions, r.Linked) (clamp : Bool)
    (act : U64 → Nat → Nat → Nat → σ → σ) (st : σ) (value : σ → α) :
    Answered (coveredBytes regions gpa size)
        ((accessLoop regions clamp act gpa size none 0 st).map fun r => (accessRet r.1, value r.2)) ↔
      coveredBytes regions gpa size < 2 ^ 31 ∧
        ∀ k < coveredBytes regions gpa size, ∀ region, regionAt regions gpa k = some region → region.pages.isSome := by
  have hat : regionFor regions none (gpa + BitVec.ofNat 64 0) = regionAt regions gpa 0 := by
    simp [regionFor, regionAt]
  rcases accessLoop_spec hw clamp act size (fun _ _ => True) (fun _ _ _ _ _ _ _ _ => trivial) 0 none st (by simp) hat
    (Nat.zero_le _) trivial with ⟨k, region, _, hk, hback, hr, hp, he⟩ | ⟨n, st', he, _, hle, hback, hend, _⟩
  · rw [he]
    constructor
    · rintro ⟨_, _, h, _⟩
      cases h
    · rintro ⟨_, hall⟩
      have hkc : k < coveredBytes regions gpa size := lt_coveredBytes hk fun j hj => by
        rcases Nat.lt_or_ge j k with hlt | hge
        · obtain ⟨_, _, hj, _⟩ := hback j (Nat.zero_le _) hlt
          rw [hj]
          rfl
        · obtain rfl : j = k := by omega
          rw [hr]
          rfl
      have := hall k hkc region hr
      rw [hp] at this
      cases this
  · have hn : coveredBytes regions gpa size = n := coveredBytes_eq hle (fun j hj => by
      obtain ⟨_, _, hj, _⟩ := hback j (Nat.zero_le _) hj
      rw [hj]
      rfl) hend
    rw [he, hn]
    have hret : Answered n (Except.map (fun r => (accessRet r.1, value r.2)) (.ok (n, st') : Except HostFault (Nat × σ))) ↔
        n < 2 ^ 31 := by
      constructor
      · rintro ⟨ret, v, h, hcase⟩
        cases h
        rcases hcase with ⟨hpos, hret⟩ | ⟨rfl, _⟩
        · rw [accessRet, if_pos hpos] at hret
          exact (toCInt_eq_iff n).mp hret
        · decide
      · intro h
        refine ⟨_, _, rfl, ?_⟩
        rcases Nat.eq_zero_or_pos n with rfl | hpos
        · exact .inr ⟨rfl, .efault, rfl⟩
        · exact .inl ⟨hpos, by rw [accessRet, if_pos hpos, (toCInt_eq_iff n).mpr h]⟩
    rw [hret]
    refine ⟨fun h => ⟨h, fun k hk region hr => ?_⟩, fun h => h.1⟩
    obtain ⟨_, _, hj, hsome⟩ := hback k (Nat.zero_le _) hk
    rw [hr] at hj
    obtain rfl := Option.some.inj hj
    exact hsome

theorem accessorsAnswer_iff (hw : ∀ r ∈ s.memory.memRegions, r.Linked) (gpa : U64) (hsize : 0 < size) :
    AccessorsAnswer s gpa size ↔ PageBacked s gpa size := by
  have hfrom : Answered (coveredBytes s.memory.memRegions gpa size) (relmVmCopyFromGuest s gpa size) ↔
      PageBacked s gpa size := by
    rw [relmVmCopyFromGuest, if_neg (by omega)]
    exact accessLoop_answered hw true _ _ id
  have hzero : Answered (coveredBytes s.memory.memRegions gpa size) (relmVmZeroGuestMemory s gpa size) ↔
      PageBacked s gpa size := by
    rw [relmVmZeroGuestMemory, if_neg (by omega)]
    exact accessLoop_answered hw false _ _ fun h => { s with host := h }
  have hto : ∀ data : List Byte, data.length = size →
      (Answered (coveredBytes s.memory.memRegions gpa size) (relmVmCopyToGuest s gpa data) ↔ PageBacked s gpa size) := by
    rintro data rfl
    rw [relmVmCopyToGuest, if_neg (by omega)]
    exact accessLoop_answered hw true _ _ fun h => { s with host := h }
  constructor
  · intro h
    exact hfrom.mp h.2.1
  · intro h
    exact ⟨fun data hd => (hto data hd).mpr h, hfrom.mpr h, hzero.mpr h⟩

end Accessors

section Walks

variable {s : VmState} {regions : List GuestMemRegion} {gpa : U64} {size : Nat}

/-- Page-backed or absent, whichever region a lookup finds. -/
def NoDeviceBelow (regions : List GuestMemRegion) : Prop :=
  ∀ a : U64, a.toNat < 2 ^ 52 → ∀ region, findRegion regions a = some region → region.pages.isSome

private theorem contains_page {region : GuestMemRegion} (h : region.Linked) {a b : U64}
    (hab : a.toNat / 4096 = b.toNat / 4096) (hc : region.contains a = true) : region.contains b = true := by
  have hst := h.aligned hc
  have hsz := h.size
  rw [GuestMemRegion.contains_iff] at hc ⊢
  omega

/-- Every address of a page finds the same region. -/
private theorem findRegion_page (hw : ∀ r ∈ regions, r.Linked) {a b : U64} (hab : a.toNat / 4096 = b.toNat / 4096) :
    findRegion regions a = findRegion regions b := by
  induction regions with
  | nil => rfl
  | cons r regions ih =>
    have hr := hw r List.mem_cons_self
    have hc : r.contains a = r.contains b := Bool.eq_iff_iff.mpr ⟨contains_page hr hab, contains_page hr hab.symm⟩
    have htail : findRegion regions a = findRegion regions b := ih fun r hr => hw r (List.mem_cons_of_mem _ hr)
    simp only [findRegion] at htail ⊢
    rw [List.find?_cons, List.find?_cons, hc, htail]

private theorem regionAt_page (hw : ∀ r ∈ regions, r.Linked) {k : Nat} (hk : gpa.toNat % 4096 + k < 4096) :
    regionAt regions gpa k = findRegion regions gpa := by
  have hadd : ∀ j ≤ k, (gpa + BitVec.ofNat 64 j).toNat / 4096 = gpa.toNat / 4096 := by
    intro j hj
    have := gpa.isLt
    have hsum : (gpa + BitVec.ofNat 64 j).toNat = gpa.toNat + j := by
      refine toNat_add_eq rfl ?_ ?_
      · rw [BitVec.toNat_ofNat]
        exact Nat.mod_eq_of_lt (by omega)
      · omega
    omega
  induction k with
  | zero => rfl
  | succ k ih =>
    have hk' := ih (by omega) fun j hj => hadd j (by omega)
    have hsame := hadd (k + 1) le_rfl
    change regionFor regions (regionAt regions gpa k) _ = _
    rw [hk']
    unfold regionFor
    split
    · rename_i region heq
      have hc := contains_page (hw region (findRegion_mem heq)) hsame.symm (findRegion_contains heq)
      rw [if_pos hc, heq]
    · rename_i heq
      rw [findRegion_page hw hsame]

/-- A computation that does not make the host fault. -/
def NoFault {α : Type} (w : Walk α) : Prop := ∃ r, w.run = .ok r

private theorem noFault_pure {α : Type} (a : α) : NoFault (pure a) := ⟨_, rfl⟩
private theorem noFault_throw {α : Type} (e : Errno) : NoFault (throw e : Walk α) := ⟨_, rfl⟩

private theorem noFault_bind {α β : Type} {w : Walk α} {f : α → Walk β} (hw : NoFault w) (hf : ∀ a, NoFault (f a)) :
    NoFault (w >>= f) := by
  obtain ⟨r, hr⟩ := hw
  rw [NoFault, ExceptT.run_bind, hr]
  cases r with
  | ok a => exact hf a
  | error e => exact ⟨_, rfl⟩

/-- A read within one page below the address limit. -/
private theorem readEntry_noFault (hw : ∀ r ∈ s.memory.memRegions, r.Linked) (hd : NoDeviceBelow s.memory.memRegions)
    (hlim : gpa.toNat < 2 ^ 52) (hpage : gpa.toNat % 4096 + size ≤ 4096) (hpos : 0 < size) :
    NoFault (mmuReadEntry s gpa size) := by
  have hbacked : PageBacked s gpa size := by
    have hle := coveredBytes_le s.memory.memRegions gpa size
    refine ⟨by omega, fun k hk region hr => ?_⟩
    rw [regionAt_page hw (by omega)] at hr
    exact hd gpa hlim region hr
  obtain ⟨-, ⟨ret, bytes, hret, -⟩, -⟩ := (accessorsAnswer_iff hw gpa hpos).mpr hbacked
  unfold mmuReadEntry
  rw [hret]
  simp only
  split
  · exact noFault_throw _
  · exact noFault_pure _

/-- Bits the mask selects, plus an index into the table. -/
private theorem entry_bounds (stride bound limit : Nat) (x mask : U64) {index : U64} (n : U64) (hn : n.toNat = stride)
    (hx : (x &&& mask).toNat % 4096 + bound * stride ≤ 4096) (hl : (x &&& mask).toNat < limit)
    (hal : limit % 4096 = 0) (hlim : limit ≤ 2 ^ 52) (hi : index.toNat < bound) (hs : 0 < stride) :
    ((x &&& mask) + index * n).toNat < 2 ^ 52 ∧ ((x &&& mask) + index * n).toNat % 4096 + stride ≤ 4096 := by
  have hmul : index.toNat * stride + stride ≤ bound * stride := by
    have := Nat.mul_le_mul_right stride (show index.toNat + 1 ≤ bound from hi)
    rwa [Nat.add_mul, Nat.one_mul] at this
  have hm : (index * n).toNat = index.toNat * stride := by
    rw [BitVec.toNat_mul, hn]
    exact Nat.mod_eq_of_lt (by omega)
  have hsum := toNat_add_eq (a := x &&& mask) rfl hm (by omega)
  rw [hsum]
  omega

private theorem longEntry_noFault (hw : ∀ r ∈ s.memory.memRegions, r.Linked) (hd : NoDeviceBelow s.memory.memRegions)
    (x gva : U64) (k : Nat) :
    NoFault (mmuReadEntry s ((x &&& pteAddrMask) + ((gva >>> k) &&& 0x1FF#64) * 8#64) 8) := by
  have hm : (x &&& pteAddrMask).toNat = x.toNat % 2 ^ 52 / 2 ^ 12 * 2 ^ 12 :=
    and_field_toNat x pteAddrMask 12 52 (by decide) (by decide)
  have hi : ((gva >>> k) &&& 0x1FF#64).toNat < 512 := by
    rw [and_low_toNat _ _ 9 (by decide)]
    exact Nat.mod_lt _ (by decide)
  obtain ⟨h1, h2⟩ := entry_bounds 8 512 (2 ^ 52) x pteAddrMask 8#64 rfl (by omega) (by omega)
    (by decide) le_rfl hi (by decide)
  exact readEntry_noFault hw hd h1 h2 (by decide)

private theorem walkLevels_noFault (hw : ∀ r ∈ s.memory.memRegions, r.Linked) (hd : NoDeviceBelow s.memory.memRegions)
    (gva : U64) (level : Nat) (x : U64) : NoFault (mmuWalkLevels s gva level (x &&& pteAddrMask)) := by
  induction level generalizing x with
  | zero => exact noFault_throw _
  | succ below ih =>
    refine noFault_bind (longEntry_noFault hw hd x gva _) fun entry => ?_
    split
    · exact noFault_throw _
    split
    · dsimp only
      split
      · exact noFault_throw _
      · exact noFault_pure _
    split
    · exact noFault_pure _
    · exact ih entry

private theorem walkPae_noFault (hw : ∀ r ∈ s.memory.memRegions, r.Linked) (hd : NoDeviceBelow s.memory.memRegions)
    (v : Vmcs) (gva : U64) : NoFault (mmuWalkPae v s gva) := by
  have hm : (v.vmread guestCr3 &&& 0xFFFFFFE0#64).toNat = (v.vmread guestCr3).toNat % 2 ^ 32 / 2 ^ 5 * 2 ^ 5 :=
    and_field_toNat _ _ 5 32 (by decide) (by decide)
  have hi : ((gva >>> 30) &&& 0x3#64).toNat < 4 := by
    rw [and_low_toNat _ _ 2 (by decide)]
    exact Nat.mod_lt _ (by decide)
  obtain ⟨h1, h2⟩ := entry_bounds 8 4 (2 ^ 32) (v.vmread guestCr3) 0xFFFFFFE0#64 8#64 rfl (by omega)
    (by omega) (by decide) (by decide) hi (by decide)
  refine noFault_bind (readEntry_noFault hw hd h1 h2 (by decide)) fun pdpte => ?_
  split
  · exact noFault_throw _
  refine noFault_bind (longEntry_noFault hw hd pdpte gva 21) fun pde => ?_
  split
  · exact noFault_throw _
  split
  · exact noFault_pure _
  refine noFault_bind (longEntry_noFault hw hd pde gva 12) fun pte => ?_
  split
  · exact noFault_throw _
  · exact noFault_pure _

private theorem legacyEntry_noFault (hw : ∀ r ∈ s.memory.memRegions, r.Linked) (hd : NoDeviceBelow s.memory.memRegions)
    (x gva : U64) (k : Nat) :
    NoFault (mmuReadEntry s ((x &&& 0xFFFFF000#64) + ((gva >>> k) &&& 0x3FF#64) * 4#64) 4) := by
  have hm : (x &&& 0xFFFFF000#64).toNat = x.toNat % 2 ^ 32 / 2 ^ 12 * 2 ^ 12 :=
    and_field_toNat _ _ 12 32 (by decide) (by decide)
  have hi : ((gva >>> k) &&& 0x3FF#64).toNat < 1024 := by
    rw [and_low_toNat _ _ 10 (by decide)]
    exact Nat.mod_lt _ (by decide)
  obtain ⟨h1, h2⟩ := entry_bounds 4 1024 (2 ^ 32) x 0xFFFFF000#64 4#64 rfl (by omega)
    (by omega) (by decide) (by decide) hi (by decide)
  exact readEntry_noFault hw hd h1 h2 (by decide)

private theorem walkLegacy_noFault (hw : ∀ r ∈ s.memory.memRegions, r.Linked) (hd : NoDeviceBelow s.memory.memRegions)
    (v : Vmcs) (gva : U64) : NoFault (mmuWalkLegacy v s gva) := by
  refine noFault_bind (legacyEntry_noFault hw hd _ gva 22) fun pde => ?_
  split
  · exact noFault_throw _
  split
  · exact noFault_pure _
  refine noFault_bind (legacyEntry_noFault hw hd pde gva 12) fun pte => ?_
  split
  · exact noFault_throw _
  · exact noFault_pure _

/-- Walks in every mode, whatever the guest put in CR3 and in its tables. -/
theorem gvaToGpa_noFault (hw : ∀ r ∈ s.memory.memRegions, r.Linked) (hd : NoDeviceBelow s.memory.memRegions)
    (v : Vmcs) (gva : U64) : NoFault (relmMmuGvaToGpa v s gva) := by
  unfold relmMmuGvaToGpa
  split
  · exact noFault_pure _
  split
  · split
    · exact noFault_throw _
    · exact walkLevels_noFault hw hd gva 4 _
  · dsimp only
    split
    · exact walkPae_noFault hw hd v _
    · exact walkLegacy_noFault hw hd v _

/-- Long mode, with the root of the tables at a chosen address. -/
private def longModeAt (root : U64) : Vmcs where
  supported _ := true
  fields enc := if enc = guestCr0 then x86Cr0Pg else if enc = guestIa32Efer then eferLma
    else if enc = guestCr3 then root else 0

private theorem noDevice_of_noFault (hw : ∀ r ∈ s.memory.memRegions, r.Linked)
    (h : ∀ v gva, ∃ r, (relmMmuGvaToGpa v s gva).run = .ok r) : NoDeviceBelow s.memory.memRegions := by
  intro a ha region hr
  by_contra hp
  have hfind : findRegion s.memory.memRegions (a &&& pteAddrMask) = some region := by
    rw [← hr]
    refine findRegion_page hw ?_
    rw [and_field_toNat a pteAddrMask 12 52 (by decide) (by decide)]
    omega
  obtain ⟨r, hrun⟩ := h (longModeAt a) 0
  have hfault : relmVmCopyFromGuest s (a &&& pteAddrMask) 8 = .error .nullPages := by
    rw [relmVmCopyFromGuest, if_neg (by decide)]
    have hat : regionFor s.memory.memRegions none ((a &&& pteAddrMask) + BitVec.ofNat 64 0) =
        regionAt s.memory.memRegions (a &&& pteAddrMask) 0 := by simp [regionFor, regionAt]
    rcases accessLoop_spec hw true (fun page off _ n acc => acc ++ s.host.readBytes page off n) 8 (fun _ _ => True)
      (fun _ _ _ _ _ _ _ _ => trivial) 0 none [] (by simp) hat (by decide) trivial with
      ⟨_, _, _, _, _, _, _, he⟩ | ⟨n, _, _, _, _, hback, hend, _⟩
    · rw [he]
      rfl
    · rcases Nat.eq_zero_or_pos n with rfl | hpos
      · cases (hend (by decide)).symm.trans hfind
      · obtain ⟨_, _, hat, hsome⟩ := hback 0 le_rfl hpos
        obtain rfl := Option.some.inj (hat.symm.trans hfind)
        exact absurd hsome hp
  have hwalk : (relmMmuGvaToGpa (longModeAt a) s 0).run = .error .nullPages := by
    have hroot : (longModeAt a).vmread guestCr3 = a := rfl
    have hindex : ((0 : U64) >>> (12 + 9 * 3) &&& 0x1FF#64) * 8#64 = 0#64 := by decide
    have hread : (mmuReadEntry s ((a &&& pteAddrMask) + ((0 : U64) >>> (12 + 9 * 3) &&& 0x1FF#64) * 8#64) 8).run =
        .error .nullPages := by
      rw [hindex, BitVec.add_zero, mmuReadEntry, hfault]
      rfl
    have hcr0 : (longModeAt a).vmread guestCr0 = x86Cr0Pg := rfl
    have hefer : (longModeAt a).vmread guestIa32Efer = eferLma := rfl
    have hcr4 : (longModeAt a).vmread guestCr4 = 0 := rfl
    have hlong : relmMmuGvaToGpa (longModeAt a) s 0 = mmuWalkLevels s 0 4 (a &&& pteAddrMask) := by
      rw [relmMmuGvaToGpa, hcr0, hefer, hcr4, if_neg (by decide), if_pos (by decide), if_neg (by decide), mmuWalkLong, hroot]
    rw [hlong, mmuWalkLevels, ExceptT.run_bind, hread]
    rfl
  rw [hwalk] at hrun
  cases hrun

end Walks

/-- On every VM the memory-building functions can produce, whatever its memory holds: the accessors answer for a range
exactly when what regions cover of it is page-backed and shorter than `2^31` bytes, and page-table walks never make the
host fault exactly when no address a walk can read lies in a pass-through region. -/
theorem accessors_answer_iff_page_backed (host : Host) (ept : EptContext) (calls : List VmCall) (s : VmState)
    (hs : s.memory = (run VmCall.exec (VmState.created host ept) calls).2.memory) :
    (∀ gpa size, 0 < size → (AccessorsAnswer s gpa size ↔ PageBacked s gpa size)) ∧
    ((∀ v gva, ∃ r, (relmMmuGvaToGpa v s gva).run = .ok r) ↔ NoDeviceBelow s.memory.memRegions) := by
  have hw : ∀ r ∈ s.memory.memRegions, r.Linked := by
    rw [hs]
    exact linked_of_run host ept calls
  refine ⟨fun gpa size hsize => accessorsAnswer_iff hw gpa hsize, noDevice_of_noFault hw, fun hd v gva => ?_⟩
  exact gvaToGpa_noFault hw hd v gva

private def ioHost : Host :=
  { Host.idle [some 0x1000#64, some 0x9000#64, some 0x2000#64, some 0x3000#64, some 0x4000#64, some 0x5000#64,
      some 0x6000#64] [true, true, true, true] with managed := fun f => f.toNat < 0x80000000 }

private def ioContext : EptContext where
  obj := 0
  pml4 := 0x1000#64
  pml4Pa := 0x1000#64
  eptp := 0x101E#64
  memtype := 6#64
  adEnabled := false
  stats := {}
  tables := [0x1000#64]

/-- One page of RAM, and the I/O APIC page passed through. -/
private def ioCalls : List VmCall :=
  [.allocateGuestRam 0x1000#64 0#64, .mapMmioRegion 0xFEC00000#64 0xFEC00000#64 0x1000#64]

private def ioVm : VmState := (run VmCall.exec (VmState.created (relmEptContextCreate ioHost).2 ioContext) ioCalls).2

theorem accessors_answer_iff_page_backed_io : ioVm.memory.memRegions.length = 2 ∧
    (∀ gpa size, 0 < size → (AccessorsAnswer ioVm gpa size ↔ PageBacked ioVm gpa size)) ∧
    ((∀ v gva, ∃ r, (relmMmuGvaToGpa v ioVm gva).run = .ok r) ↔ NoDeviceBelow ioVm.memory.memRegions) :=
  ⟨by decide, accessors_answer_iff_page_backed (relmEptContextCreate ioHost).2 ioContext ioCalls ioVm rfl⟩

/-- The eight bytes at the start of the passed-through page: the page array of its region is `NULL`. -/
theorem device_page_faults : relmEptContextCreate ioHost = (.ok ioContext, (relmEptContextCreate ioHost).2) ∧
    (run VmCall.exec (VmState.created (relmEptContextCreate ioHost).2 ioContext) ioCalls).1.map Prod.snd =
      [.ok (), .ok ()] ∧ ¬ AccessorsAnswer ioVm 0xFEC00000#64 8 ∧
    ¬ ∀ v gva, ∃ r, (relmMmuGvaToGpa v ioVm gva).run = .ok r := by
  have hw := linked_of_run (relmEptContextCreate ioHost).2 ioContext ioCalls
  have hfind : (findRegion ioVm.memory.memRegions 0xFEC00000#64).map (·.pages) = some none := by decide
  obtain ⟨region, hr, hp⟩ := Option.map_eq_some_iff.mp hfind
  refine ⟨rfl, by decide, fun h => ?_, fun h => ?_⟩
  · have hback := (accessorsAnswer_iff hw 0xFEC00000#64 (by decide)).mp h
    have hcov : 0 < coveredBytes ioVm.memory.memRegions 0xFEC00000#64 8 := by decide
    have := hback.2 0 hcov region hr
    rw [hp] at this
    cases this
  · have := noDevice_of_noFault hw h 0xFEC00000#64 (by decide) region hr
    rw [hp] at this
    cases this

end Relm.Vm
