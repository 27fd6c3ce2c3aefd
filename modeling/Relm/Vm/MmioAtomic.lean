import Relm.Ept.Translation
import Relm.Vm.Iommu
import Relm.Lib.Loop

/-! Passing a host range through to the guest: what a call that fails half way leaves behind, and what one that succeeds
maps. -/
namespace Relm.Vm
open Relm.Ept Relm.Ept.EptState Relm.Lib.Loop Relm.Lib.Word

/-- An EPT with 4 KiB leaves only, and counters that count them. -/
structure CountedPages (e : EptState) : Prop extends Plain4kb e where
  counted : Counted e

/-- Every context that a run of mapping and unmapping calls leads to is one. -/
theorem CountedPages.of_refines {e : EptState} {m : PageMap} (h : Refines e m) : CountedPages e :=
  ⟨⟨h.shape, h.noHuge⟩, h.counted⟩

/-- The address of a page of a region. -/
def mmioPage (base : U64) (i : Nat) : U64 := base + BitVec.ofNat 64 i * pageSize

/-- `map_page` for a page of a region. -/
def mmioStep (gpa hpa : U64) (e : EptState) (i : Nat) : Except Errno Unit × EptState :=
  let r := relmEptMapPage e (mmioPage gpa i) (mmioPage hpa i) (vmxEptFlags relmMmioFlags)
  (r.ret, r.next)

/-- What the processor makes of a guest-physical address: a four-level walk takes 48 bits. -/
def VmState.translation (s : VmState) (a : U64) : Option (U64 × U64) :=
  if a.toNat < 2 ^ 48 then hwTranslate s.eptState a else none

/-- A failed call leaves everything as it was, and one that succeeds maps the pages of the region and no others. -/
structure MmioAtomic (s : VmState) (gpa hpa size : U64) (r : Except Errno Unit × VmState) : Prop where
  failed : ∀ e, r.1 = .error e → (∀ a, r.2.translation a = s.translation a) ∧ r.2.ept.stats = s.ept.stats ∧
    r.2.memory.memRegions = s.memory.memRegions
  mapped : r.1 = .ok () → ∀ a : U64, gpa.toNat ≤ a.toNat → a.toNat < gpa.toNat + size.toNat →
    ∃ pa, r.2.translation a = some (pa, eptAccessRead ||| eptAccessWrite) ∧
      pa.toNat = hpa.toNat + (a.toNat - gpa.toNat)
  others : r.1 = .ok () → ∀ a : U64, a.toNat < gpa.toNat ∨ gpa.toNat + size.toNat ≤ a.toNat →
    r.2.translation a = s.translation a

/-- Neither of the two ways to go wrong is open: if a page cannot be mapped then none of those before it was mapped
already, and if all can then the region lies within the widths of the addresses. -/
structure MmioFits (e : EptState) (gpa hpa size : U64) : Prop where
  fresh : ∀ j < size.toNat / 4096, Fails (mmioStep gpa hpa) e j → (∀ i < j, ¬ Fails (mmioStep gpa hpa) e i) →
    ∀ i < j, e.pte (mmioPage gpa i) = none
  widths : (∀ i < size.toNat / 4096, ¬ Fails (mmioStep gpa hpa) e i) →
    gpa.toNat + size.toNat ≤ 2 ^ 48 ∧ hpa.toNat + size.toNat ≤ 2 ^ 52

/-- A state of the page loops: the EPT differs from the one they started from in the leaves of the first pages only. -/
structure Touched (gpa : U64) (i : Nat) (e t : EptState) : Prop where
  plain : CountedPages t
  pte : ∀ a, (∀ j < i, pageOf a ≠ pageOf (mmioPage gpa j)) → t.pte a = e.pte a
  pages1gb : t.ctx.stats.pages1gb = e.ctx.stats.pages1gb

section Steps

variable (gpa hpa : U64) {e t : EptState}

private theorem add4kb_pages1gb (st : EptStats) (c : Bool) : (bif c then st else st.add4kb).pages1gb = st.pages1gb := by
  cases c <;> rfl

/-- What `map_page` does for a page of a region: nothing to the leaves when it fails. -/
private theorem mmioStep_spec (h : CountedPages t) (i : Nat) :
    CountedPages (mmioStep gpa hpa t i).2 ∧
    (mmioStep gpa hpa t i).2.ctx.stats.pages1gb = t.ctx.stats.pages1gb ∧
    ((mmioStep gpa hpa t i).1 ≠ .ok () → (mmioStep gpa hpa t i).2.pte = t.pte) ∧
    ((mmioStep gpa hpa t i).1 = .ok () → (mmioStep gpa hpa t i).2.pte =
      t.withPte (mmioPage gpa i) (some (leafEntry (mmioPage hpa i) (vmxEptFlags relmMmioFlags)))) := by
  rw [mmioStep]
  cases mapPage_spec (mmioPage gpa i) (mmioPage hpa i) (vmxEptFlags relmMmioFlags) h.shape (h.noBlocks _) with
  | invalid _ hr =>
    rw [hr]
    exact ⟨h, rfl, fun _ => rfl, fun hret => by cases hret⟩
  | refused _ hret _ same _ =>
    refine ⟨⟨⟨same.shape, fun a => (same.pde a).trans (h.noBlocks a)⟩, h.counted.same same⟩, by rw [same.stats],
      fun _ => funext same.pte, fun hok => ?_⟩
    rw [hret] at hok
    cases hok
  | done _ hret hd _ =>
    refine ⟨⟨⟨hd.1.shape, fun a => (hd.1.pde a).trans (h.noBlocks a)⟩, h.counted.mapPage hd.1⟩, ?_,
      fun hne => absurd hret hne, fun _ => funext hd.1.pte⟩
    rw [hd.1.stats, add4kb_pages1gb]

/-- Unmapping a page leaves it without a leaf. -/
private theorem unmapPage_clears (h : CountedPages t) (a : U64) :
    CountedPages (relmEptUnmapPage t a).next ∧
    (relmEptUnmapPage t a).next.ctx.stats.pages1gb = t.ctx.stats.pages1gb ∧
    (relmEptUnmapPage t a).next.pte = t.withPte a none := by
  have hspec := (unmapPage_spec h.shape (h.noBlocks a)).2
  cases hp : t.pte a with
  | none =>
    rw [hp] at hspec
    rw [hspec.2]
    refine ⟨h, rfl, funext fun b => ?_⟩
    rw [withPte]
    split
    · rename_i hb
      rw [pte_congr hb, hp]
    · rfl
  | some leaf =>
    rw [hp] at hspec
    obtain ⟨-, hl⟩ := hspec
    have hcounted := h.counted.unmapPage (by rw [hp]; rfl) hl
    exact ⟨⟨⟨hl.shape, fun b => (hl.pde b).trans (h.noBlocks b)⟩, hcounted⟩, by rw [hl.stats]; rfl, funext hl.pte⟩

theorem states_touched (h : CountedPages e) (i : Nat) : Touched gpa i e (states (mmioStep gpa hpa) e i) := by
  induction i with
  | zero => exact ⟨h, fun _ _ => rfl, rfl⟩
  | succ i ih =>
    obtain ⟨hplain, hgb, hfail, hok⟩ := mmioStep_spec gpa hpa ih.plain i
    refine ⟨hplain, fun a ha => ?_, hgb.trans ih.pages1gb⟩
    have hold := ih.pte a fun j hj => ha j (by omega)
    rw [states]
    by_cases hret : (mmioStep gpa hpa (states (mmioStep gpa hpa) e i) i).1 = .ok ()
    · rw [hok hret, withPte, if_neg (ha i (by omega)), hold]
    · rw [hfail hret, hold]

/-- The page mapped last has its leaf. -/
private theorem states_last (h : CountedPages e) {i : Nat} (hok : ¬ Fails (mmioStep gpa hpa) e i) :
    (states (mmioStep gpa hpa) e (i + 1)).pte (mmioPage gpa i) =
      some (leafEntry (mmioPage hpa i) (vmxEptFlags relmMmioFlags)) := by
  have hspec := (mmioStep_spec gpa hpa (states_touched gpa hpa h i).plain i).2.2.2
  rw [states, hspec (not_not.mp hok), withPte, if_pos rfl]

/-- A page that cannot be mapped leaves the leaves as the ones before it have made them. -/
private theorem states_fails (h : CountedPages e) {i : Nat} (hfail : Fails (mmioStep gpa hpa) e i) :
    (states (mmioStep gpa hpa) e (i + 1)).pte = (states (mmioStep gpa hpa) e i).pte :=
  (mmioStep_spec gpa hpa (states_touched gpa hpa h i).plain i).2.2.1 hfail

/-- The leaves of a region whose pages are distinct. -/
private theorem states_pte (h : CountedPages e) {n : Nat} (hok : ∀ i < n, ¬ Fails (mmioStep gpa hpa) e i)
    (hinj : ∀ i j, i < j → j < n → pageOf (mmioPage gpa i) ≠ pageOf (mmioPage gpa j)) (i : Nat) (hi : i < n) :
    (states (mmioStep gpa hpa) e n).pte (mmioPage gpa i) =
      some (leafEntry (mmioPage hpa i) (vmxEptFlags relmMmioFlags)) := by
  induction n with
  | zero => exact absurd hi (Nat.not_lt_zero i)
  | succ n ih =>
    rcases Nat.lt_succ_iff_lt_or_eq.mp hi with hlt | rfl
    · have hold := ih (fun j hj => hok j (by omega)) (fun j k hjk hk => hinj j k hjk (by omega)) hlt
      have hspec := (mmioStep_spec gpa hpa (states_touched gpa hpa h n).plain n).2.2.2
      rw [states, hspec (not_not.mp (hok n (by omega))), withPte, if_neg (hinj i n hlt (by omega)), hold]
    · exact states_last gpa hpa h (hok i (by omega))

end Steps

section Region

variable (gpa hpa : U64) {e : EptState}

/-- The mapping loop, on the EPT alone. -/
private theorem mmioLoop_eq (left i : Nat) (s : VmState) : mmioLoop gpa hpa left i s =
    ((loop (mmioStep gpa hpa) left i s.eptState).1, (loop (mmioStep gpa hpa) left i s.eptState).2.1,
      s.withEpt (loop (mmioStep gpa hpa) left i s.eptState).2.2) := by
  induction left generalizing i s with
  | zero => rfl
  | succ left ih =>
    have hstep : vmxMemMapPage s (gpa + BitVec.ofNat 64 i * pageSize) (hpa + BitVec.ofNat 64 i * pageSize)
        relmMmioFlags = ((mmioStep gpa hpa s.eptState i).1, s.withEpt (mmioStep gpa hpa s.eptState i).2) := rfl
    rw [mmioLoop, loop, hstep]
    generalize mmioStep gpa hpa s.eptState i = r
    obtain ⟨ret, t⟩ := r
    cases ret with
    | error err => rfl
    | ok u => exact ih (i + 1) (s.withEpt t)

/-- Taking the first pages out again, last first, leaves none of them a leaf. -/
private theorem mmioUnmap_spec (i : Nat) (s : VmState) (h : CountedPages s.eptState) :
    (mmioUnmap gpa i s).memory = s.memory ∧ Touched gpa i s.eptState (mmioUnmap gpa i s).eptState ∧
      ∀ a, (∃ j < i, pageOf a = pageOf (mmioPage gpa j)) → (mmioUnmap gpa i s).eptState.pte a = none := by
  induction i generalizing s with
  | zero =>
    refine ⟨rfl, ⟨h, fun _ _ => rfl, rfl⟩, ?_⟩
    rintro a ⟨j, hj, -⟩
    exact absurd hj (Nat.not_lt_zero j)
  | succ i ih =>
    obtain ⟨hplain, hgb, hpte⟩ := unmapPage_clears h (mmioPage gpa i)
    obtain ⟨hmem, ht, hnone⟩ := ih (s.withEpt (relmEptUnmapPage s.eptState (mmioPage gpa i)).next) hplain
    rw [mmioUnmap]
    refine ⟨hmem, ⟨ht.plain, fun a ha => ?_, ht.pages1gb.trans hgb⟩, ?_⟩
    · refine (ht.pte a fun j hj => ha j (by omega)).trans ?_
      exact (congrFun hpte a).trans (if_neg (ha i (by omega)))
    · rintro a ⟨j, hj, ha⟩
      by_cases hlow : ∃ k < i, pageOf a = pageOf (mmioPage gpa k)
      · exact hnone a hlow
      · have hji : j = i := by
          by_contra hne
          exact hlow ⟨j, by omega, ha⟩
        subst hji
        refine (ht.pte a fun k hk hc => hlow ⟨k, hk, hc⟩).trans ?_
        exact (congrFun hpte a).trans (if_pos ha)

end Region

section Translation

variable {s t : VmState}

/-- The translation in terms of the leaf. -/
private theorem translation_eq (h : CountedPages s.eptState) {a : U64} (ha : a.toNat < 2 ^ 48) :
    s.translation a = (s.eptState.pte a).map fun leaf => (entryAddr leaf ||| eptPageOffset a, leaf &&& eptRwx) := by
  rw [VmState.translation, if_pos ha, hwTranslate_eq h.shape, h.noBlocks]

/-- A host that differs in what is not memory makes no difference. -/
private theorem translation_congr (hmem : t.host.mem = s.host.mem) (hept : t.ept = s.ept) (a : U64) :
    t.translation a = s.translation a := by
  have hw : hwTranslate t.eptState a = hwTranslate s.eptState a := by
    unfold hwTranslate
    rw [show t.eptState.host.mem = s.eptState.host.mem from hmem, show t.eptState.ctx = s.eptState.ctx from hept]
  rw [VmState.translation, VmState.translation, hw]

/-- Contexts with the same leaves have the same counters. -/
private theorem stats_eq {e e' : EptState} (h : CountedPages e) (h' : CountedPages e') (hpte : e'.pte = e.pte)
    (hgb : e'.ctx.stats.pages1gb = e.ctx.stats.pages1gb) : e'.ctx.stats = e.ctx.stats := by
  have h4 : e'.leaves4kb = e.leaves4kb := leaves4kb_same fun a => congrFun hpte a
  have h2 : e'.leaves2mb = e.leaves2mb := leaves2mb_same fun a => (h'.noBlocks a).trans (h.noBlocks a).symm
  have hp : e'.ctx.stats.pages4kb = e.ctx.stats.pages4kb :=
    BitVec.eq_of_toNat_eq (by rw [h'.counted.pages4kb, h.counted.pages4kb, h4])
  have hb : e'.ctx.stats.pages2mb = e.ctx.stats.pages2mb :=
    BitVec.eq_of_toNat_eq (by rw [h'.counted.pages2mb, h.counted.pages2mb, h2])
  have ht : e'.ctx.stats.totalMapped = e.ctx.stats.totalMapped :=
    BitVec.eq_of_toNat_eq (by rw [h'.counted.totalMapped, h.counted.totalMapped, h4, h2])
  cases hst : e.ctx.stats
  cases hst' : e'.ctx.stats
  simp_all

/-- An address that the processor makes lies within 52 bits. -/
private theorem translation_lt (h : CountedPages s.eptState) {a : U64} {r : U64 × U64} (hr : s.translation a = some r) :
    r.1.toNat < 2 ^ 52 := by
  by_cases ha : a.toNat < 2 ^ 48
  · rw [translation_eq h ha] at hr
    obtain ⟨leaf, -, rfl⟩ := Option.map_eq_some_iff.mp hr
    have hframe := isFrame_entryAddr leaf
    have hoff : (eptPageOffset a).toNat = a.toNat % 4096 := and_low_toNat _ _ 12 (by decide)
    rw [or_low_toNat _ _ 12 hframe.1 (by rw [hoff]; omega), hoff]
    have h1 := hframe.1
    have h2 := hframe.2
    omega
  · rw [VmState.translation, if_neg ha] at hr
    cases hr

end Translation

section Outcome

variable {s : VmState} {gpa hpa size : U64} {e : EptState} {obj : Nat} {h' : Host}

/-- The slab allocation does not touch the EPT. -/
private theorem CountedPages.kzalloc (h : CountedPages s.eptState) (hk : s.host.kzalloc = (some obj, h')) :
    CountedPages ⟨h', s.ept⟩ ∧ (⟨h', s.ept⟩ : EptState).pte = s.eptState.pte := by
  have hmem : h'.mem = s.host.mem := by
    have hm := s.host.kzalloc_mem
    rwa [hk] at hm
  have hlive : h'.live = s.host.live := by
    have hl := s.host.kzalloc_live
    rwa [hk] at hl
  have hframed : Framed s.eptState ⟨h', s.ept⟩ := by
    refine ⟨rfl, fun f _ => congrFun hmem f, fun f hf => ?_⟩
    rw [hlive]
    exact h.shape.live f hf
  have hpte : (⟨h', s.ept⟩ : EptState).pte = s.eptState.pte := funext (hframed.pte h.shape)
  have hpde : ∀ a, (⟨h', s.ept⟩ : EptState).pde a = s.eptState.pde a := hframed.pde h.shape
  have h4 := leaves4kb_same fun a => congrFun hpte a
  have h2 := leaves2mb_same hpde
  refine ⟨⟨⟨hframed.shape h.shape, fun a => (hpde a).trans (h.noBlocks a)⟩, ?_⟩, hpte⟩
  exact ⟨h.counted.pages4kb.trans h4.symm, h.counted.pages2mb.trans h2.symm,
    h.counted.totalMapped.trans (by rw [h4, h2])⟩

private theorem masks_pass (hg : gpa.toNat % 4096 = 0) (hh : hpa.toNat % 4096 = 0) (hs : size.toNat % 4096 = 0) :
    (gpa &&& ~~~pageMask != 0 || hpa &&& ~~~pageMask != 0 || size &&& ~~~pageMask != 0) = false := by
  simp [(pageMask_iff gpa).mpr hg, (pageMask_iff hpa).mpr hh, (pageMask_iff size).mpr hs]

/-- How a call on aligned arguments ends once the region has been allocated. -/
private theorem region_outcome (hg : gpa.toNat % 4096 = 0) (hh : hpa.toNat % 4096 = 0) (hs : size.toNat % 4096 = 0)
    (hne : size ≠ 0) (hk : s.host.kzalloc = (some obj, h')) :
    (∃ err j, j < size.toNat / 4096 ∧ Fails (mmioStep gpa hpa) ⟨h', s.ept⟩ j ∧
      (∀ i < j, ¬ Fails (mmioStep gpa hpa) ⟨h', s.ept⟩ i) ∧ ∃ u : VmState,
      u = mmioUnmap gpa j (s.withEpt (states (mmioStep gpa hpa) ⟨h', s.ept⟩ (j + 1))) ∧
      relmVmMapMmioRegion s gpa hpa size = (.error err, { u with host := u.host.kfree obj })) ∨
    ((∀ i < size.toNat / 4096, ¬ Fails (mmioStep gpa hpa) ⟨h', s.ept⟩ i) ∧ ∃ u : VmState,
      u.eptState = states (mmioStep gpa hpa) ⟨h', s.ept⟩ (size.toNat / 4096) ∧
      relmVmMapMmioRegion s gpa hpa size = (.ok (), u)) := by
  have hz : (size == 0) = false := beq_eq_false_iff_ne.mpr hne
  have hmask := masks_pass hg hh hs
  unfold relmVmMapMmioRegion
  rw [hz, hmask, hk, div_pageSize]
  simp only [Bool.false_eq_true, if_false]
  have hend := loop_ended (mmioStep gpa hpa) ⟨h', s.ept⟩ (size.toNat / 4096)
  rw [mmioLoop_eq]
  change Ended _ _ _ (loop (mmioStep gpa hpa) (size.toNat / 4096) 0 ({ s with host := h' } : VmState).eptState) at hend
  generalize loop (mmioStep gpa hpa) (size.toNat / 4096) 0 ({ s with host := h' } : VmState).eptState = r at hend ⊢
  cases hend with
  | stopped err j hj hfail hbefore => exact .inl ⟨err, j, hj, hfail, hbefore, _, rfl, rfl⟩
  | finished hall => exact .inr ⟨hall, _, rfl, rfl⟩

/-- The leaves after the rollback: the pages that were mapped have none. -/
private theorem rolledBack (h : CountedPages e) {j : Nat} (hfail : Fails (mmioStep gpa hpa) e j) {u : VmState}
    (hu : u = mmioUnmap gpa j (s.withEpt (states (mmioStep gpa hpa) e (j + 1)))) :
    Touched gpa j e u.eptState ∧ (∀ a, (∃ i < j, pageOf a = pageOf (mmioPage gpa i)) → u.eptState.pte a = none) ∧
      u.memory = s.memory := by
  subst hu
  have hplain : CountedPages (s.withEpt (states (mmioStep gpa hpa) e (j + 1))).eptState :=
    (states_touched gpa hpa h (j + 1)).plain
  obtain ⟨hmem, ht, hnone⟩ := mmioUnmap_spec gpa j _ hplain
  have hmapped := states_touched gpa hpa h j
  refine ⟨⟨ht.plain, fun a ha => ?_, ?_⟩, hnone, hmem⟩
  · refine (ht.pte a ha).trans ?_
    exact (congrFun (states_fails gpa hpa h hfail) a).trans (hmapped.pte a ha)
  · exact ht.pages1gb.trans (states_touched gpa hpa h (j + 1)).pages1gb

/-- A rollback restores what was there exactly if none of the pages it unmaps was mapped before. -/
private theorem failed_iff (h : CountedPages s.eptState) (he : CountedPages e) (hpte : e.pte = s.eptState.pte)
    (hctx : e.ctx = s.ept) {j : Nat} (hfail : Fails (mmioStep gpa hpa) e j) {u : VmState}
    (hu : u = mmioUnmap gpa j (s.withEpt (states (mmioStep gpa hpa) e (j + 1)))) :
    ((∀ a, u.translation a = s.translation a) ∧ u.ept.stats = s.ept.stats ∧ u.memory.memRegions = s.memory.memRegions) ↔
      ∀ i < j, e.pte (mmioPage gpa i) = none := by
  obtain ⟨ht, hnone, hmem⟩ := rolledBack he hfail hu
  constructor
  · rintro ⟨htr, -, -⟩ i hi
    have hlt : pageOf (mmioPage gpa i) < pageSpace := pageOf_lt _
    have hpage := pageOf_pageAddr hlt
    have ha : (pageAddr (pageOf (mmioPage gpa i))).toNat < 2 ^ 48 := by
      rw [pageSpace] at hlt
      rw [pageAddr_toNat (by omega)]
      omega
    have heq := htr (pageAddr (pageOf (mmioPage gpa i)))
    rw [translation_eq ht.plain ha, translation_eq h ha, hnone _ ⟨i, hi, hpage⟩, Option.map_none] at heq
    rw [hpte, ← pte_congr hpage]
    exact Option.map_eq_none_iff.mp heq.symm
  · intro hclear
    have hsame : u.eptState.pte = e.pte := by
      funext a
      by_cases hin : ∃ i < j, pageOf a = pageOf (mmioPage gpa i)
      · obtain ⟨i, hi, hpage⟩ := hin
        rw [hnone a ⟨i, hi, hpage⟩, pte_congr hpage, hclear i hi]
      · exact ht.pte a fun i hi hc => hin ⟨i, hi, hc⟩
    refine ⟨fun a => ?_, ?_, by rw [hmem]⟩
    · by_cases ha : a.toNat < 2 ^ 48
      · rw [translation_eq ht.plain ha, translation_eq h ha, hsame, hpte]
      · rw [VmState.translation, VmState.translation, if_neg ha, if_neg ha]
    · rw [← hctx]
      exact stats_eq he ht.plain hsame ht.pages1gb

private theorem mmioPage_toNat {base : U64} {i : Nat} (h : base.toNat + 4096 * i < 2 ^ 64) :
    (mmioPage base i).toNat = base.toNat + 4096 * i :=
  toNat_add_eq rfl (scaled_toNat (by decide) (by decide) (by omega)) h

/-- The translation of an address of a mapped region within the widths. -/
private theorem mapped_translation (he : CountedPages e) (hg : gpa.toNat % 4096 = 0) (hh : hpa.toNat % 4096 = 0)
    (hs : size.toNat % 4096 = 0) (hok : ∀ i < size.toNat / 4096, ¬ Fails (mmioStep gpa hpa) e i) {u : VmState}
    (hu : u.eptState = states (mmioStep gpa hpa) e (size.toNat / 4096)) (hgw : gpa.toNat + size.toNat ≤ 2 ^ 48)
    (hhw : hpa.toNat + size.toNat ≤ 2 ^ 52) {a : U64} (hlo : gpa.toNat ≤ a.toNat) (hhi : a.toNat < gpa.toNat + size.toNat) :
    ∃ pa, u.translation a = some (pa, eptAccessRead ||| eptAccessWrite) ∧
      pa.toNat = hpa.toNat + (a.toNat - gpa.toNat) := by
  have hplain : CountedPages u.eptState := by
    rw [hu]
    exact (states_touched gpa hpa he _).plain
  obtain ⟨i, hi⟩ : ∃ i, i = (a.toNat - gpa.toNat) / 4096 := ⟨_, rfl⟩
  have hlt : i < size.toNat / 4096 := by omega
  have hga : ∀ k < size.toNat / 4096, (mmioPage gpa k).toNat = gpa.toNat + 4096 * k := fun k hk =>
    mmioPage_toNat (by omega)
  have hpage : pageOf a = pageOf (mmioPage gpa i) := by
    rw [pageOf, pageOf, hga i hlt]
    congr 1
    omega
  have hinj : ∀ k l, k < l → l < size.toNat / 4096 → pageOf (mmioPage gpa k) ≠ pageOf (mmioPage gpa l) := by
    intro k l hkl hl
    rw [pageOf, pageOf, hga k (by omega), hga l hl]
    omega
  have hha : (mmioPage hpa i).toNat = hpa.toNat + 4096 * i := mmioPage_toNat (by omega)
  have hm : mmioPage hpa i = pageAddr (hpa.toNat / 4096 + i) := by
    rw [eq_pageAddr (show (mmioPage hpa i).toNat % 4096 = 0 by rw [hha]; omega), hha]
    congr 1
    omega
  have hleaf := states_pte gpa hpa he hok hinj i hlt
  rw [translation_eq hplain (by omega), hu, pte_congr hpage, hleaf, Option.map_some, hm,
    leaf_decode (by omega) (by decide) a]
  refine ⟨_, rfl, ?_⟩
  have hoff : (eptPageOffset a).toNat = a.toNat % 4096 := and_low_toNat _ _ 12 (by decide)
  have hp : (pageAddr (hpa.toNat / 4096 + i)).toNat = (hpa.toNat / 4096 + i) * 4096 := pageAddr_toNat (by omega)
  rw [or_low_toNat _ _ 12 (by rw [hp]; omega) (by rw [hoff]; omega), hp, hoff]
  omega

/-- A region that has been mapped is where it was asked for exactly if it lies within the widths of the addresses. -/
private theorem mapped_iff (h : CountedPages s.eptState) (he : CountedPages e) (hpte : e.pte = s.eptState.pte)
    (hg : gpa.toNat % 4096 = 0) (hh : hpa.toNat % 4096 = 0) (hs : size.toNat % 4096 = 0) (hne : size ≠ 0)
    (hok : ∀ i < size.toNat / 4096, ¬ Fails (mmioStep gpa hpa) e i) {u : VmState}
    (hu : u.eptState = states (mmioStep gpa hpa) e (size.toNat / 4096)) :
    ((∀ a : U64, gpa.toNat ≤ a.toNat → a.toNat < gpa.toNat + size.toNat →
        ∃ pa, u.translation a = some (pa, eptAccessRead ||| eptAccessWrite) ∧
          pa.toNat = hpa.toNat + (a.toNat - gpa.toNat)) ∧
      ∀ a : U64, a.toNat < gpa.toNat ∨ gpa.toNat + size.toNat ≤ a.toNat → u.translation a = s.translation a) ↔
    gpa.toNat + size.toNat ≤ 2 ^ 48 ∧ hpa.toNat + size.toNat ≤ 2 ^ 52 := by
  have hplain : CountedPages u.eptState := by
    rw [hu]
    exact (states_touched gpa hpa he _).plain
  have hpos : size.toNat ≠ 0 := fun hz => hne (BitVec.eq_of_toNat_eq hz)
  constructor
  · rintro ⟨hin, -⟩
    have hno : ∀ a : U64, 2 ^ 48 ≤ a.toNat → gpa.toNat ≤ a.toNat → gpa.toNat + size.toNat ≤ a.toNat := by
      intro a ha hlo
      by_contra hhi
      obtain ⟨pa, hpa, -⟩ := hin a hlo (by omega)
      rw [VmState.translation, if_neg (by omega)] at hpa
      cases hpa
    have hgw : gpa.toNat + size.toNat ≤ 2 ^ 48 := by
      by_cases hlt : gpa.toNat < 2 ^ 48
      · have hword : (0x1000000000000#64).toNat = 2 ^ 48 := by decide
        have hbound := hno 0x1000000000000#64 hword.ge (by omega)
        omega
      · have hself := hno gpa (by omega) le_rfl
        omega
    have hlast : (mmioPage gpa (size.toNat / 4096 - 1)).toNat = gpa.toNat + 4096 * (size.toNat / 4096 - 1) :=
      mmioPage_toNat (by omega)
    obtain ⟨pa, htr, hval⟩ := hin (mmioPage gpa (size.toNat / 4096 - 1)) (by omega) (by omega)
    have hwidth := translation_lt hplain htr
    dsimp only at hwidth
    exact ⟨hgw, by omega⟩
  · rintro ⟨hgw, hhw⟩
    refine ⟨fun a hlo hhi => mapped_translation he hg hh hs hok hu hgw hhw hlo hhi, fun a hout => ?_⟩
    by_cases ha : a.toNat < 2 ^ 48
    · have hkeep : u.eptState.pte a = e.pte a := by
        rw [hu]
        refine (states_touched gpa hpa he _).pte a fun i hi hpage => ?_
        rw [pageOf, pageOf, mmioPage_toNat (by omega)] at hpage
        omega
      rw [translation_eq hplain ha, translation_eq h ha, hkeep, hpte]
    · rw [VmState.translation, VmState.translation, if_neg ha, if_neg ha]

/-- The call is atomic exactly if no page was mapped before that comes before one that cannot be mapped, and a region
that can be mapped lies within the widths of the addresses. -/
theorem mmio_region_atomic_iff (h : CountedPages s.eptState) (hg : gpa.toNat % 4096 = 0) (hh : hpa.toNat % 4096 = 0)
    (hs : size.toNat % 4096 = 0) : MmioAtomic s gpa hpa size (relmVmMapMmioRegion s gpa hpa size) ↔
      ∀ obj h', s.host.kzalloc = (some obj, h') → size ≠ 0 → MmioFits ⟨h', s.ept⟩ gpa hpa size := by
  by_cases hne : size = 0
  · have hret : relmVmMapMmioRegion s gpa hpa size = (.error .einval, s) := by
      rw [relmVmMapMmioRegion, hne]
      rfl
    rw [hret]
    refine ⟨fun _ _ _ _ hc => absurd hne hc, fun _ => ⟨fun _ _ => ⟨fun _ => rfl, rfl, rfl⟩, fun hok => ?_, fun hok => ?_⟩⟩
    · cases hok
    · cases hok
  rcases hk : s.host.kzalloc with ⟨_ | obj, h'⟩
  · have hz : (size == 0) = false := beq_eq_false_iff_ne.mpr hne
    have hret : relmVmMapMmioRegion s gpa hpa size = (.error .enomem, { s with host := h' }) := by
      rw [relmVmMapMmioRegion, hz, masks_pass hg hh hs, hk]
      rfl
    have hmem : h'.mem = s.host.mem := by
      have hm := s.host.kzalloc_mem
      rwa [hk] at hm
    rw [hret]
    refine ⟨fun _ _ _ hc => absurd (congrArg Prod.fst hc) (Option.some_ne_none _).symm, fun _ => ?_⟩
    refine ⟨fun _ _ => ⟨translation_congr hmem rfl, rfl, rfl⟩, fun hok => ?_, fun hok => ?_⟩
    · cases hok
    · cases hok
  obtain ⟨he, hpte⟩ := h.kzalloc hk
  rcases region_outcome hg hh hs hne hk with ⟨err, j, hj, hfail, hbefore, u, hu, hret⟩ | ⟨hok, u, hu, hret⟩
  · rw [hret]
    have hiff := failed_iff h he hpte rfl hfail hu
    have hfree : ∀ a, ({ u with host := u.host.kfree obj } : VmState).translation a = u.translation a :=
      translation_congr (u.host.kfree_mem obj) rfl
    constructor
    · intro hat obj' h'' heq _
      cases heq
      obtain ⟨htr, hstats, hregions⟩ := hat.failed err rfl
      have hclear := hiff.mp ⟨fun a => (hfree a).symm.trans (htr a), hstats, hregions⟩
      refine ⟨fun j' hj' hfail' hbefore' => ?_, fun hall => absurd hfail (hall j hj)⟩
      rw [first_unique hfail' hbefore' hfail hbefore]
      exact hclear
    · intro hfits
      obtain ⟨htr, hstats, hregions⟩ := hiff.mpr ((hfits obj h' rfl hne).fresh j hj hfail hbefore)
      refine ⟨fun _ _ => ⟨fun a => (hfree a).trans (htr a), hstats, hregions⟩, fun hok => ?_, fun hok => ?_⟩
      · cases hok
      · cases hok
  · rw [hret]
    have hiff := mapped_iff (s := s) h he hpte hg hh hs hne hok hu
    constructor
    · intro hat obj' h'' heq _
      cases heq
      refine ⟨fun j hj hfail => absurd hfail (hok j hj), fun _ => ?_⟩
      exact hiff.mp ⟨hat.mapped rfl, hat.others rfl⟩
    · intro hfits
      have hw := hiff.mpr ((hfits obj h' rfl hne).widths hok)
      exact ⟨fun _ hc => (by cases hc), fun _ => hw.1, fun _ => hw.2⟩

end Outcome

/-- A VM with nothing mapped, and three tables to be had. -/
private def passVm : VmState where
  host := { Host.idle [some 0x2000#64, some 0x3000#64, some 0x4000#64, none] [true] with live := [0x1000#64] }
  ept :=
    { obj := 0, pml4 := 0x1000#64, pml4Pa := 0x1000#64, eptp := 0x101E#64, memtype := 6#64, adEnabled := false
      stats := {}, tables := [0x1000#64] }
  memory := { memRegions := [], totalGuestRam := 0, mmioRegions := [] }
  rom := none

private theorem passVm_counted : CountedPages passVm.eptState := by
  have he : Empty passVm.eptState := empty_of_clear (fun _ => rfl) rfl (by decide) rfl
  exact ⟨⟨he.shape, he.pde⟩, he.counted⟩

/-- The VM after its page at `0x4000` has been mapped; no more tables are to be had. -/
private def besideVm : VmState := passVm.withEpt (mmioStep 0x4000#64 0x9000#64 passVm.eptState 0).2

/-- Three pages beside that mapping are mapped, the mapping stays, and three pages of which the last needs a table leave
nothing behind. -/
theorem mmio_region_atomic_beside : CountedPages besideVm.eptState ∧
    (MmioAtomic besideVm 0x5000#64 0xD0000000#64 0x3000#64 (relmVmMapMmioRegion besideVm 0x5000#64 0xD0000000#64 0x3000#64) ∧
      (relmVmMapMmioRegion besideVm 0x5000#64 0xD0000000#64 0x3000#64).1 = .ok () ∧
      (relmVmMapMmioRegion besideVm 0x5000#64 0xD0000000#64 0x3000#64).2.translation 0x4123#64 = some (0x9123#64, 3#64)) ∧
    (MmioAtomic besideVm 0x1FE000#64 0xD0000000#64 0x3000#64 (relmVmMapMmioRegion besideVm 0x1FE000#64 0xD0000000#64 0x3000#64) ∧
      (relmVmMapMmioRegion besideVm 0x1FE000#64 0xD0000000#64 0x3000#64).1 = .error .enomem) := by
  have hplain : CountedPages besideVm.eptState := (states_touched 0x4000#64 0x9000#64 passVm_counted 1).plain
  have hfresh : ∀ gpa hpa : U64, (∀ i < 3, EptState.pte ⟨besideVm.host.kzalloc.2, besideVm.ept⟩ (mmioPage gpa i) = none) →
      gpa.toNat + 0x3000 ≤ 2 ^ 48 ∧ hpa.toNat + 0x3000 ≤ 2 ^ 52 →
      ∀ obj h', besideVm.host.kzalloc = (some obj, h') → (0x3000#64 : U64) ≠ 0 →
        MmioFits ⟨h', besideVm.ept⟩ gpa hpa 0x3000#64 := by
    intro gpa hpa hnone hwidths obj h' hk _
    obtain rfl : _ = h' := congrArg Prod.snd hk
    refine ⟨fun j hj _ _ i hi => hnone i ?_, fun _ => hwidths⟩
    have hthree : (0x3000#64).toNat / 4096 = 3 := by decide
    omega
  refine ⟨hplain, ⟨?_, by decide +kernel, by decide +kernel⟩, ?_, by decide +kernel⟩
  · exact (mmio_region_atomic_iff hplain (by decide) (by decide) (by decide)).mpr
      (hfresh _ _ (by decide +kernel) ⟨by decide, by decide⟩)
  · exact (mmio_region_atomic_iff hplain (by decide) (by decide) (by decide)).mpr
      (hfresh _ _ (by decide +kernel) ⟨by decide, by decide⟩)

/-- The VM after its last page below 2 MiB has been mapped; no more tables are to be had. -/
private def remapVm : VmState := passVm.withEpt (mmioStep 0x1FF000#64 0x9000#64 passVm.eptState 0).2

/-- Mapping a region over that page and the next fails at the second one, and the rollback takes the first one away. -/
theorem mmio_rollback_unmaps_page : CountedPages remapVm.eptState ∧
    ¬ MmioAtomic remapVm 0x1FF000#64 0xD0000000#64 0x2000#64
      (relmVmMapMmioRegion remapVm 0x1FF000#64 0xD0000000#64 0x2000#64) := by
  refine ⟨(states_touched 0x1FF000#64 0x9000#64 passVm_counted 1).plain, fun h => ?_⟩
  have htr := (h.failed .enomem rfl).1 0x1FF000#64
  revert htr
  decide +kernel

end Relm.Vm
