import Mathlib.Order.Lattice.Nat
import Relm.Vmx.ApicPage

/-! End of interrupt: the highest vector in service is retired, and a row of them empties `ISR` from the top. -/
namespace Relm.Vmx
open Relm.Lib.Bitmap Relm.Lib.Word

namespace VirtApic

variable {apic : VirtApic} {v : Nat}

/-- The vectors in service. -/
def inService (apic : VirtApic) : Finset Nat := members apic.isr 8

/-- The greatest vector in service, 0 when there is none. -/
def topInService (apic : VirtApic) : Nat := apic.inService.sup id

/-- The priority of the processor: the higher of the classes of `TPR` and of the greatest vector in service. -/
def priority (apic : VirtApic) : Nat :=
  max (apic.tpr &&& 0xF0#32).toNat (BitVec.ofNat 32 apic.topInService &&& 0xF0#32).toNat

/-- What a write of the `EOI` register does to the APIC. -/
def writeEoi (apic : VirtApic) : VirtApic := apic.relmApicEoi.sync ApicReg.eoi.offset 0

theorem inServiceVector_eq_some_iff : apic.inServiceVector = some v ↔ IsGreatest (apic.inService : Set Nat) v :=
  highestBelow_eq_some_iff

theorem inServiceVector_eq_none_iff : apic.inServiceVector = none ↔ apic.inService = ∅ := highestBelow_eq_none_iff

/-- The scan of `relm_apic_ppr_update` finds the greatest vector in service. -/
theorem inServiceVector_getD (apic : VirtApic) : apic.inServiceVector.getD 0 = apic.topInService := by
  cases h : apic.inServiceVector with
  | none =>
    rw [topInService, inServiceVector_eq_none_iff.mp h]
    rfl
  | some v =>
    have hg := inServiceVector_eq_some_iff.mp h
    refine le_antisymm (Finset.le_sup (f := id) (Finset.mem_coe.mp hg.1)) (Finset.sup_le fun u hu => ?_)
    exact hg.2 (Finset.mem_coe.mpr hu)

theorem pprValue_eq_priority (apic : VirtApic) : apic.pprValue.toNat = apic.priority := by
  rw [pprValue_toNat, inServiceVector_getD, priority]

/-- Without a vector in service nothing is done. -/
theorem relmApicEoi_empty (h : apic.inService = ∅) : apic.relmApicEoi = apic := by
  rw [relmApicEoi, inServiceVector_eq_none_iff.mpr h]

/-- The greatest vector in service leaves `ISR` and `TMR`, and the priority is computed anew. -/
theorem relmApicEoi_serving (h : IsGreatest (apic.inService : Set Nat) v) :
    apic.relmApicEoi.inService = apic.inService.erase v ∧ (∀ u, Member apic.relmApicEoi.tmr u ↔ u ≠ v ∧ Member apic.tmr u) ∧
      apic.relmApicEoi.irr = apic.irr ∧ apic.relmApicEoi.tpr = apic.tpr ∧
      apic.relmApicEoi.ppr = apic.relmApicEoi.pprValue := by
  have hv := inServiceVector_eq_some_iff.mpr h
  have hw := inServiceVector_lt hv
  simp only [relmApicEoi, hv, sync_eq (show (ApicReg.isr (v / 32)).Valid from hw), sync_eq (show (ApicReg.tmr (v / 32)).Valid from hw),
    relmApicPprUpdate_eq, sync_eq (show ApicReg.ppr.Valid from trivial)]
  cases ht : apic.tmr (v / 32) &&& vectorMask v != 0 with
  | false =>
    rw [if_neg (by simp)]
    refine ⟨members_erase apic.isr 8 v, fun u => ?_, rfl, rfl, rfl⟩
    have hnot : ¬ Member apic.tmr v := (and_bit_eq_zero_iff apic.tmr v).mp (by simpa [vectorMask] using ht)
    exact ⟨fun hu => ⟨fun hc => hnot (hc ▸ hu), hu⟩, fun hu => hu.2⟩
  | true =>
    rw [if_pos rfl]
    exact ⟨members_erase apic.isr 8 v, member_erase apic.tmr v, rfl, rfl, rfl⟩

theorem writeEoi_eq (apic : VirtApic) : apic.writeEoi =
    { apic.relmApicEoi with page := Function.update apic.relmApicEoi.page ApicReg.eoi.offset 0 } :=
  sync_eq (show ApicReg.eoi.Valid from trivial)

theorem writeEoi_inService (apic : VirtApic) : apic.writeEoi.inService = apic.relmApicEoi.inService := by
  rw [writeEoi_eq]
  rfl

/-- The class of a vector grows with the vector. -/
private theorem and_class_le {u v : Nat} (h : u ≤ v) (hv : v < 256) :
    (BitVec.ofNat 32 u &&& 0xF0#32).toNat ≤ (BitVec.ofNat 32 v &&& 0xF0#32).toNat := by
  rw [and_field_toNat _ _ 4 8 (by decide) (by decide), and_field_toNat _ _ 4 8 (by decide) (by decide), BitVec.toNat_ofNat,
    BitVec.toNat_ofNat]
  omega

/-- With the same `TPR`, fewer vectors in service never mean a higher priority. -/
theorem priority_le {a : VirtApic} (htpr : a.tpr = apic.tpr) (hsub : a.inService ⊆ apic.inService) :
    a.priority ≤ apic.priority := by
  have htop : a.topInService ≤ apic.topInService := Finset.sup_mono hsub
  have hlt : apic.topInService < 256 := by
    refine (Finset.sup_lt_iff (by decide)).mpr fun u hu => ?_
    exact (mem_members.mp hu).1
  rw [priority, priority, htpr]
  exact max_le_max le_rfl (and_class_le htop hlt)

end VirtApic

/-- A write of `EOI` retires exactly the greatest vector in service, a row of them retires the vectors in service in
decreasing order, and without one it leaves the registers as they are. -/
theorem eoi_retires_highest (apic : VirtApic) :
    (∀ (vcpus : Vcpus) (k : Nat) (halted : Bool) (value : U32) (now : U64),
      relmApicWrite vcpus k ⟨apic, halted⟩ 0x0B0#32 value now = (.ok (), vcpus.set k (some ⟨apic.writeEoi, halted⟩))) ∧
    (∀ v, IsGreatest (apic.inService : Set Nat) v →
      apic.writeEoi.inService = apic.inService.erase v ∧
      (∀ u, Member apic.writeEoi.tmr u ↔ u ≠ v ∧ Member apic.tmr u) ∧ apic.writeEoi.irr = apic.irr ∧
      apic.writeEoi.ppr.toNat = apic.writeEoi.priority ∧ apic.writeEoi.priority ≤ apic.priority) ∧
    (apic.inService = ∅ → apic.writeEoi = { apic with page := Function.update apic.page 0x0B0#32 0 }) ∧
    (apic.inService.sort (· ≥ ·)).Pairwise (· > ·) ∧
    (∀ i, (VirtApic.writeEoi^[i] apic).inService = ((apic.inService.sort (· ≥ ·)).drop i).toFinset) ∧
    (VirtApic.writeEoi^[apic.inService.card] apic).inService = ∅ := by
  have hall : ∀ i, (VirtApic.writeEoi^[i] apic).inService = ((apic.inService.sort (· ≥ ·)).drop i).toFinset := by
    intro i
    apply iterate_erase_greatest
    · intro a v hg
      rw [a.writeEoi_inService, (VirtApic.relmApicEoi_serving hg).1]
    · intro a he
      rw [a.writeEoi_inService, VirtApic.relmApicEoi_empty he, he]
  refine ⟨fun vcpus k halted value now => rfl, fun v hg => ?_, fun he => ?_, ?_, hall, ?_⟩
  · obtain ⟨hisr, htmr, hirr, htpr, hppr⟩ := VirtApic.relmApicEoi_serving hg
    refine ⟨apic.writeEoi_inService.trans hisr, ?_, ?_, ?_, ?_⟩
    · rw [VirtApic.writeEoi_eq]
      exact htmr
    · rw [VirtApic.writeEoi_eq]
      exact hirr
    · rw [VirtApic.writeEoi_eq, ← VirtApic.pprValue_eq_priority]
      exact congrArg BitVec.toNat hppr
    · apply VirtApic.priority_le
      · rw [VirtApic.writeEoi_eq]
        exact htpr
      · rw [apic.writeEoi_inService, hisr]
        exact Finset.erase_subset ..
  · rw [VirtApic.writeEoi_eq, VirtApic.relmApicEoi_empty he]
    rfl
  · exact (Finset.sortedGT_sort apic.inService).pairwise
  · rw [hall, List.drop_eq_nil_of_le (by rw [Finset.length_sort]), List.toFinset_nil]

end Relm.Vmx
