import Relm.Ept.Operations
import Relm.Lib.Run

/-! The counters of an EPT context equal the numbers of leaves it holds. -/
namespace Relm.Ept
open Relm.Lib.Run Relm.Lib.Word

/-- First address of a 4 KiB page. -/
def pageAddr (n : Nat) : U64 := BitVec.ofNat 64 (n * 4096)
/-- First address of a 2 MiB block. -/
def blockAddr (n : Nat) : U64 := BitVec.ofNat 64 (n * 2 ^ 21)

/-- How many 4 KiB pages the 48 indexed address bits name. -/
def pageSpace : Nat := 2 ^ 36
/-- How many 2 MiB blocks they name. -/
def blockSpace : Nat := 2 ^ 27

theorem pageOf_pageAddr {n : Nat} (h : n < pageSpace) : pageOf (pageAddr n) = n := by
  rw [pageSpace] at h
  rw [pageOf, pageAddr, BitVec.toNat_ofNat, Nat.mod_eq_of_lt (by omega)]
  omega

theorem blockOf_blockAddr {n : Nat} (h : n < blockSpace) : blockOf (blockAddr n) = n := by
  rw [blockSpace] at h
  rw [blockOf, blockAddr, BitVec.toNat_ofNat, Nat.mod_eq_of_lt (by omega)]
  omega

theorem pageOf_lt (a : U64) : pageOf a < pageSpace := Nat.mod_lt _ (by decide)
theorem blockOf_lt (a : U64) : blockOf a < blockSpace := Nat.mod_lt _ (by decide)

namespace EptState

variable {s t : EptState} {gpa e : U64} {st : EptStats}

theorem pte_congr {a b : U64} (h : pageOf a = pageOf b) : s.pte a = s.pte b := by
  obtain ⟨hp, hi⟩ := (gpaPath_eq_iff a b).mpr h
  rw [pte, pte, hp, hi]

theorem pde_congr {a b : U64} (h : blockOf a = blockOf b) : s.pde a = s.pde b := by
  obtain ⟨hp, hi⟩ := (gpaPath2_eq_iff a b).mpr h
  rw [pde, pde, hp, hi]

/-- The number of 4 KiB leaves. -/
noncomputable def leaves4kb (s : EptState) : Nat := countBelow pageSpace fun n => (s.pte (pageAddr n)).isSome
/-- The number of 2 MiB leaves. -/
noncomputable def leaves2mb (s : EptState) : Nat := countBelow blockSpace fun n => (s.pde (blockAddr n)).isSome

/-- The counters say how many leaves there are. -/
structure Counted (s : EptState) : Prop where
  pages4kb : s.ctx.stats.pages4kb.toNat = s.leaves4kb
  pages2mb : s.ctx.stats.pages2mb.toNat = s.leaves2mb
  totalMapped : s.ctx.stats.totalMapped.toNat = 4096 * s.leaves4kb + 2 ^ 21 * s.leaves2mb

theorem leaves4kb_le (s : EptState) : s.leaves4kb ≤ 2 ^ 36 := countBelow_le _ _
theorem leaves2mb_le (s : EptState) : s.leaves2mb ≤ 2 ^ 27 := countBelow_le _ _

theorem leaves4kb_withPte {o : Option U64} (h : ∀ a, t.pte a = s.withPte gpa o a) :
    t.leaves4kb + (s.pte gpa).isSome.toNat = s.leaves4kb + o.isSome.toNat := by
  have hg : pageOf (pageAddr (pageOf gpa)) = pageOf gpa := pageOf_pageAddr (pageOf_lt gpa)
  have hc := countBelow_update (f := fun n => (s.pte (pageAddr n)).isSome) (g := fun n => (t.pte (pageAddr n)).isSome)
    (pageOf_lt gpa) fun i hi hne => by
      simp only [h, withPte, pageOf_pageAddr hi, hne, if_false]
  rw [pte_congr hg, h, withPte, if_pos hg] at hc
  exact hc

theorem leaves2mb_withPde {o : Option U64} (h : ∀ a, t.pde a = s.withPde gpa o a) :
    t.leaves2mb + (s.pde gpa).isSome.toNat = s.leaves2mb + o.isSome.toNat := by
  have hg : blockOf (blockAddr (blockOf gpa)) = blockOf gpa := blockOf_blockAddr (blockOf_lt gpa)
  have hc := countBelow_update (f := fun n => (s.pde (blockAddr n)).isSome) (g := fun n => (t.pde (blockAddr n)).isSome)
    (blockOf_lt gpa) fun i hi hne => by
      simp only [h, withPde, blockOf_blockAddr hi, hne, if_false]
  rw [pde_congr hg, h, withPde, if_pos hg] at hc
  exact hc

theorem leaves4kb_same (h : ∀ a, t.pte a = s.pte a) : t.leaves4kb = s.leaves4kb := by simp only [leaves4kb, h]
theorem leaves2mb_same (h : ∀ a, t.pde a = s.pde a) : t.leaves2mb = s.leaves2mb := by simp only [leaves2mb, h]

theorem toNat_one64 : (1 : U64).toNat = 1 := by decide
theorem toNat_pageSize4kb : eptPageSize4kb.toNat = 4096 := by decide
theorem toNat_pageSize2mb : eptPageSize2mb.toNat = 2 ^ 21 := by simp [eptPageSize2mb]

namespace Counted

theorem same (hc : Counted s) (h : Same s t) : Counted t := by
  have h4 := leaves4kb_same h.pte
  have h2 := leaves2mb_same h.pde
  exact ⟨by rw [h.stats, h4, hc.pages4kb], by rw [h.stats, h2, hc.pages2mb], by rw [h.stats, h4, h2, hc.totalMapped]⟩

theorem mapPage (hc : Counted s) (h : Leaves s t (s.withPte gpa (some e)) s.pde
    (bif (s.pte gpa).isSome then s.ctx.stats else s.ctx.stats.add4kb)) : Counted t := by
  have h4 := leaves4kb_withPte h.pte
  have h2 := leaves2mb_same h.pde
  have hb4 : t.leaves4kb ≤ 2 ^ 36 := leaves4kb_le t
  have hb2 : t.leaves2mb ≤ 2 ^ 27 := leaves2mb_le t
  cases hs : (s.pte gpa).isSome with
  | true =>
    have hst : t.ctx.stats = s.ctx.stats := by simp [h.stats, hs]
    simp only [hs, Option.isSome_some, Nat.add_right_cancel_iff] at h4
    exact ⟨by rw [hst, h4, hc.pages4kb], by rw [hst, h2, hc.pages2mb], by rw [hst, h4, h2, hc.totalMapped]⟩
  | false =>
    have hst : t.ctx.stats = s.ctx.stats.add4kb := by simp [h.stats, hs]
    simp only [hs, Option.isSome_some, Bool.toNat_false, Bool.toNat_true, Nat.add_zero] at h4
    have hp : t.ctx.stats.pages4kb.toNat = s.leaves4kb + 1 :=
      hst ▸ toNat_add_eq hc.pages4kb toNat_one64 (by omega)
    have ht : t.ctx.stats.totalMapped.toNat = 4096 * s.leaves4kb + 2 ^ 21 * s.leaves2mb + 4096 :=
      hst ▸ toNat_add_eq hc.totalMapped toNat_pageSize4kb (by omega)
    exact ⟨hp.trans h4.symm, hst ▸ hc.pages2mb.trans h2.symm, by omega⟩

theorem mapHugePage (hc : Counted s) (h : Leaves s t s.pte (s.withPde gpa (some e))
    (bif (s.pde gpa).isSome then s.ctx.stats else s.ctx.stats.add2mb)) : Counted t := by
  have h4 := leaves4kb_same h.pte
  have h2 := leaves2mb_withPde h.pde
  have hb4 : t.leaves4kb ≤ 2 ^ 36 := leaves4kb_le t
  have hb2 : t.leaves2mb ≤ 2 ^ 27 := leaves2mb_le t
  cases hs : (s.pde gpa).isSome with
  | true =>
    have hst : t.ctx.stats = s.ctx.stats := by simp [h.stats, hs]
    simp only [hs, Option.isSome_some, Nat.add_right_cancel_iff] at h2
    exact ⟨by rw [hst, h4, hc.pages4kb], by rw [hst, h2, hc.pages2mb], by rw [hst, h4, h2, hc.totalMapped]⟩
  | false =>
    have hst : t.ctx.stats = s.ctx.stats.add2mb := by simp [h.stats, hs]
    simp only [hs, Option.isSome_some, Bool.toNat_false, Bool.toNat_true, Nat.add_zero] at h2
    have hp : t.ctx.stats.pages2mb.toNat = s.leaves2mb + 1 :=
      hst ▸ toNat_add_eq hc.pages2mb toNat_one64 (by omega)
    have ht : t.ctx.stats.totalMapped.toNat = 4096 * s.leaves4kb + 2 ^ 21 * s.leaves2mb + 2 ^ 21 :=
      hst ▸ toNat_add_eq hc.totalMapped toNat_pageSize2mb (by omega)
    exact ⟨hst ▸ hc.pages4kb.trans h4.symm, hp.trans h2.symm, by omega⟩

theorem unmapPage (hc : Counted s) (hs : (s.pte gpa).isSome = true)
    (h : Leaves s t (s.withPte gpa none) s.pde s.ctx.stats.sub4kb) : Counted t := by
  have h4 := leaves4kb_withPte h.pte
  have h2 := leaves2mb_same h.pde
  simp only [hs, Option.isSome_none, Bool.toNat_false, Bool.toNat_true, Nat.add_zero] at h4
  have hp : t.ctx.stats.pages4kb.toNat = s.leaves4kb - 1 :=
    h.stats ▸ toNat_sub_eq hc.pages4kb toNat_one64 (by omega)
  have ht : t.ctx.stats.totalMapped.toNat = 4096 * s.leaves4kb + 2 ^ 21 * s.leaves2mb - 4096 :=
    h.stats ▸ toNat_sub_eq hc.totalMapped toNat_pageSize4kb (by omega)
  exact ⟨by omega, h.stats ▸ hc.pages2mb.trans h2.symm, by omega⟩

end Counted

theorem Empty.counted (h : Empty s) : Counted s := by
  have h4 : s.leaves4kb = 0 := by simp [leaves4kb, countBelow, h.pte]
  have h2 : s.leaves2mb = 0 := by simp [leaves2mb, countBelow, h.pde]
  constructor <;> rw [h.stats] <;> simp [h4, h2]

end EptState
end Relm.Ept
