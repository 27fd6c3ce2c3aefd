import Relm.Decoder.Insn
import Relm.Lib.Lane

/-! The lane of a decoded register as a lens on its enclosing register: what is loaded into it is what is stored from
it, and the rest of the register is left alone or cleared by the width. -/
namespace Relm.Decoder
open Relm.Lib

theorem width_of_mask_ne_zero {width : U32} (h : relmWidthMask width ≠ 0) : width ∈ [1#32, 2#32, 4#32, 8#32] := by
  unfold relmWidthMask at h
  split at h
  · rename_i hw
    simp [show width = 1#32 from BitVec.eq_of_toNat_eq hw]
  · rename_i hw
    simp [show width = 2#32 from BitVec.eq_of_toNat_eq hw]
  · rename_i hw
    simp [show width = 4#32 from BitVec.eq_of_toNat_eq hw]
  · rename_i hw
    simp [show width = 8#32 from BitVec.eq_of_toNat_eq hw]
  · exact absurd rfl h

/-- A mask has a one for every bit of its width. -/
theorem widthMask_getLsbD {width : U32} (h : width ∈ [1#32, 2#32, 4#32, 8#32]) (i : Nat) :
    (relmWidthMask width).getLsbD i = decide (i < 8 * width.toNat) := by
  have hmask : relmWidthMask width = BitVec.ofNat 64 (2 ^ (8 * width.toNat) - 1) ∧ width.toNat ≤ 8 := by
    simp only [List.mem_cons, List.not_mem_nil, or_false] at h
    rcases h with rfl | rfl | rfl | rfl <;> exact ⟨rfl, by decide⟩
  rw [hmask.1, BitVec.getLsbD_ofNat, Nat.testBit_two_pow_sub_one]
  by_cases hi : i < 8 * width.toNat
  · have h64 : i < 64 := by omega
    rw [decide_eq_true hi, decide_eq_true h64, Bool.true_and]
  · rw [decide_eq_false hi, Bool.and_false]

namespace DecodedInsn

variable {d : DecodedInsn}

/-- The write semantics that go with the width: fewer than four bytes are merged, four are zero-extended, and eight
replace the register. -/
def SemanticsMatch (d : DecodedInsn) : Prop :=
  (d.gprWriteSemantics = .merge ∧ (d.gprWidth = 1#32 ∨ d.gprWidth = 2#32)) ∨
    (d.gprWriteSemantics = .zeroExtend ∧ d.gprWidth = 4#32) ∨ (d.gprWriteSemantics = .replace ∧ d.gprWidth = 8#32)

instance (d : DecodedInsn) : Decidable d.SemanticsMatch := inferInstanceAs (Decidable (_ ∨ _))

/-- A bit of the enclosing register belongs to the lane. -/
def InLane (d : DecodedInsn) (i : Nat) : Prop :=
  d.gprBitOffset.toNat ≤ i ∧ i < d.gprBitOffset.toNat + 8 * d.gprWidth.toNat

/-- Loads into the lane and stores from it. -/
structure IsLens (d : DecodedInsn) : Prop where
  extract_commit : ∀ old v, (d.relmDecodedGprExtract (d.relmDecodedGprCommit old v)).toNat =
    v.toNat % 2 ^ (8 * d.gprWidth.toNat)
  commit_commit : ∀ old v w, d.relmDecodedGprCommit (d.relmDecodedGprCommit old v) w = d.relmDecodedGprCommit old w
  commit_extract : d.gprWriteSemantics = .merge → ∀ old, d.relmDecodedGprCommit old (d.relmDecodedGprExtract old) = old
  outside : d.gprWriteSemantics = .merge → ∀ old v i, ¬ d.InLane i →
    (d.relmDecodedGprCommit old v).getLsbD i = old.getLsbD i
  forgets : d.gprWriteSemantics = .zeroExtend ∨ d.gprWriteSemantics = .replace → ∀ old old' v,
    d.relmDecodedGprCommit old v = d.relmDecodedGprCommit old' v
  above : d.gprWriteSemantics = .zeroExtend ∨ d.gprWriteSemantics = .replace → ∀ old v i, 8 * d.gprWidth.toNat ≤ i →
    (d.relmDecodedGprCommit old v).getLsbD i = false

/-- What a valid register descriptor says of its lane: high bytes are the only lanes that do not start at bit 0. -/
private theorem valid_lane (h : d.relmDecodedHasValidGpr = true) : d.gprWidth ∈ [1#32, 2#32, 4#32, 8#32] ∧
    (d.gprBitOffset = 0 ∨ d.gprWidth = 1#32 ∧ d.gprBitOffset = 8#32) := by
  unfold relmDecodedHasValidGpr at h
  split at h
  · cases h
  split at h
  · cases h
  split at h
  · cases h
  rename_i hmask
  refine ⟨width_of_mask_ne_zero hmask, ?_⟩
  split at h
  · rename_i hzero
    exact .inl hzero
  · rw [Bool.and_eq_true, beq_iff_eq, beq_iff_eq] at h
    exact .inr h

private theorem lane_fits (h : d.relmDecodedHasValidGpr = true) :
    Lane.Fits (relmWidthMask d.gprWidth) d.gprBitOffset.toNat := by
  obtain ⟨hwidth, hoffset⟩ := valid_lane h
  intro i hi
  rw [widthMask_getLsbD hwidth, decide_eq_true_eq] at hi
  rcases hoffset with h0 | ⟨h1, h8⟩
  · have hle : d.gprWidth.toNat ≤ 8 := by
      simp only [List.mem_cons, List.not_mem_nil, or_false] at hwidth
      rcases hwidth with hw | hw | hw | hw <;> rw [hw] <;> decide
    rw [h0, show (0 : U32).toNat = 0 from rfl]
    omega
  · rw [h1, show (1#32).toNat = 1 from rfl] at hi
    rw [h8, show (8#32).toNat = 8 from rfl]
    omega

private theorem extract_eq (h : d.relmDecodedHasValidGpr = true) (x : U64) :
    d.relmDecodedGprExtract x = Lane.get (relmWidthMask d.gprWidth) d.gprBitOffset.toNat x := by
  rw [relmDecodedGprExtract, h]
  rfl

private theorem commit_merge (h : d.relmDecodedHasValidGpr = true) (hs : d.gprWriteSemantics = .merge) (old v : U64) :
    d.relmDecodedGprCommit old v = Lane.put (relmWidthMask d.gprWidth) d.gprBitOffset.toNat old v := by
  rw [relmDecodedGprCommit, h, hs]
  rfl

/-- Four and eight bytes are the whole of what is left of the register. -/
private theorem commit_wide (h : d.relmDecodedHasValidGpr = true) (hm : d.SemanticsMatch)
    (hs : d.gprWriteSemantics ≠ .merge) :
    d.gprBitOffset = 0 ∧ ∀ old v, d.relmDecodedGprCommit old v = v &&& relmWidthMask d.gprWidth := by
  obtain ⟨-, hoffset⟩ := valid_lane h
  rcases hm with ⟨hmerge, -⟩ | ⟨hsem, hw⟩ | ⟨hsem, hw⟩
  · exact absurd hmerge hs
  · refine ⟨hoffset.resolve_right fun hc => ?_, fun old v => ?_⟩
    · rw [hw] at hc
      exact absurd hc.1 (by decide)
    · rw [relmDecodedGprCommit, h, hsem]
      rfl
  · refine ⟨hoffset.resolve_right fun hc => ?_, fun old v => ?_⟩
    · rw [hw] at hc
      exact absurd hc.1 (by decide)
    · rw [relmDecodedGprCommit, h, hsem]
      rfl

private theorem masked_toNat (h : d.relmDecodedHasValidGpr = true) (v : U64) :
    (v &&& relmWidthMask d.gprWidth).toNat = v.toNat % 2 ^ (8 * d.gprWidth.toNat) := by
  obtain ⟨hwidth, -⟩ := valid_lane h
  apply Nat.eq_of_testBit_eq
  intro i
  have hmask : (relmWidthMask d.gprWidth).toNat.testBit i = decide (i < 8 * d.gprWidth.toNat) := widthMask_getLsbD hwidth i
  rw [BitVec.toNat_and, Nat.testBit_and, hmask, Nat.testBit_mod_two_pow, Bool.and_comm]

private theorem merge_lens (h : d.relmDecodedHasValidGpr = true) (hs : d.gprWriteSemantics = .merge) : d.IsLens where
  extract_commit old v := by
    rw [commit_merge h hs, extract_eq h, Lane.get_put (lane_fits h), masked_toNat h]
  commit_commit old v w := by
    rw [commit_merge h hs, commit_merge h hs, commit_merge h hs, Lane.put_put]
  commit_extract _ old := by
    rw [extract_eq h, commit_merge h hs, Lane.put_get]
  outside _ old v i hi := by
    obtain ⟨hwidth, -⟩ := valid_lane h
    rw [commit_merge h hs]
    apply Lane.put_outside
    rw [widthMask_getLsbD hwidth, decide_eq_false_iff_not]
    by_cases hlt : i < d.gprBitOffset.toNat
    · exact .inl hlt
    · exact .inr fun hc => hi ⟨Nat.not_lt.mp hlt, by omega⟩
  forgets hwide := by
    rw [hs] at hwide
    rcases hwide with hc | hc <;> cases hc
  above hwide := by
    rw [hs] at hwide
    rcases hwide with hc | hc <;> cases hc

private theorem wide_lens (h : d.relmDecodedHasValidGpr = true) (hm : d.SemanticsMatch)
    (hs : d.gprWriteSemantics ≠ .merge) : d.IsLens where
  extract_commit old v := by
    obtain ⟨hoffset, hcommit⟩ := commit_wide h hm hs
    rw [hcommit, extract_eq h, Lane.get, hoffset, show (0 : U32).toNat = 0 from rfl, BitVec.ushiftRight_zero,
      BitVec.and_assoc, BitVec.and_self, masked_toNat h]
  commit_commit old v w := by
    obtain ⟨-, hcommit⟩ := commit_wide h hm hs
    rw [hcommit, hcommit]
  commit_extract hmerge := absurd hmerge hs
  outside hmerge := absurd hmerge hs
  forgets _ old old' v := by
    obtain ⟨-, hcommit⟩ := commit_wide h hm hs
    rw [hcommit, hcommit]
  above _ old v i hi := by
    obtain ⟨hwidth, -⟩ := valid_lane h
    obtain ⟨-, hcommit⟩ := commit_wide h hm hs
    rw [hcommit, BitVec.getLsbD_and, widthMask_getLsbD hwidth, decide_eq_false (Nat.not_lt.mpr hi), Bool.and_false]

theorem lens_of_match (h : d.relmDecodedHasValidGpr = true) (hm : d.SemanticsMatch) : d.IsLens := by
  by_cases hs : d.gprWriteSemantics = .merge
  · exact merge_lens h hs
  · exact wide_lens h hm hs

/-- Every load into a register that a decoder hands out goes through a lens. -/
theorem Conforming.load_lens (h : d.Conforming) (hr : d.memoryAccess = .read) : d.IsLens := by
  obtain ⟨-, hvalid, hwidth, hload, -⟩ | ⟨-, hwrite, -⟩ := h.operand
  · apply lens_of_match hvalid
    have hsem := hload hr
    rw [← hwidth] at hsem
    have hwidths := h.width
    rw [← hwidth] at hwidths
    simp only [List.mem_cons, List.not_mem_nil, or_false] at hwidths
    rcases hwidths with hw | hw | hw | hw <;> rw [hw] at hsem
    · exact .inl ⟨hsem, .inl hw⟩
    · exact .inl ⟨hsem, .inr hw⟩
    · exact .inr (.inl ⟨hsem, hw⟩)
    · exact .inr (.inr ⟨hsem, hw⟩)
  · rw [hr] at hwrite
    cases hwrite

end DecodedInsn

/-- Extract and commit are a lens on the lane of a valid descriptor, and commit does nothing without one or without
write semantics. -/
theorem gpr_lane_is_lens (d : DecodedInsn) :
    (d.relmDecodedHasValidGpr = true → d.SemanticsMatch → d.IsLens) ∧
      (d.relmDecodedHasValidGpr = false ∨ d.gprWriteSemantics = .none →
        ∀ old v, d.relmDecodedGprCommit old v = old) := by
  constructor
  · exact DecodedInsn.lens_of_match
  · intro h old v
    rw [DecodedInsn.relmDecodedGprCommit]
    cases hv : d.relmDecodedHasValidGpr with
    | false => rfl
    | true =>
      rcases h with h | h
      · rw [h] at hv
        cases hv
      · rw [h]
        rfl

/-- `mov ah, byte ptr [rax]`. -/
private def loadAh : DecodedInsn where
  length := 2
  memoryAccess := .read
  memoryWidth := 1
  operandKind := .gpr
  immediate := 0
  gprIndex := 0
  gprWidth := 1
  gprBitOffset := 8
  gprWriteSemantics := .merge

theorem gpr_lane_is_lens_ah : loadAh.IsLens ∧
    loadAh.relmDecodedGprCommit 0x1122334455667788#64 0xAA#64 = 0x112233445566AA88#64 ∧
    ∀ old v, { loadAh with gprBitOffset := 16 }.relmDecodedGprCommit old v = old :=
  ⟨(gpr_lane_is_lens loadAh).1 (by decide) (by decide), by decide,
    (gpr_lane_is_lens { loadAh with gprBitOffset := 16 }).2 (.inl (by decide))⟩

end Relm.Decoder
