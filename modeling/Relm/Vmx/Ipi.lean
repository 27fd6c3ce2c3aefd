import Relm.Vmx.ApicPage

/-! Interprocessor interrupts: which vCPUs a write of `ICR_LOW` names, and what it does to them and to the others. -/
namespace Relm.Vmx
open Relm.Lib.Bitmap Relm.Lib.Word

/-- The fields of an ICR, as the architecture lays them out. -/
def icrVector (icrLow : U32) : BitVec 8 := icrLow.extractLsb' 0 8
def IcrFixed (icrLow : U32) : Prop := icrLow.extractLsb' 8 3 = 0#3
instance (icrLow : U32) : Decidable (IcrFixed icrLow) := inferInstanceAs (Decidable (_ = _))

def icrLevel (icrLow : U32) : Bool := icrLow.extractLsb' 15 1 == 1#1

/-- The vCPUs an ICR selects: by its shorthand, self, all or all but self; without one by the APIC ID in physical mode,
and by a common bit with the LDR in logical mode. -/
def IcrSelects (icrLow icrHigh : U32) (isSender : Bool) (apic : VirtApic) : Prop :=
  if icrLow.extractLsb' 18 2 = 1#2 then isSender = true
  else if icrLow.extractLsb' 18 2 = 2#2 then True
  else if icrLow.extractLsb' 18 2 = 3#2 then isSender = false
  else if icrLow.extractLsb' 11 1 = 0#1 then apic.apicId.extractLsb' 24 8 = icrHigh.extractLsb' 24 8
  else apic.ldr.extractLsb' 24 8 &&& icrHigh.extractLsb' 24 8 ≠ 0#8

section Fields

variable (icrLow icrHigh : U32)

private theorem shorthand_eq (icrLow : U32) : icrLow &&& apicIcrShorthandMask = (icrLow.extractLsb' 18 2).setWidth 32 <<< 18 :=
  and_field_eq icrLow apicIcrShorthandMask 18 2 (by decide)

private theorem logical_eq (icrLow : U32) : icrLow &&& (1#32 <<< 11) = (icrLow.extractLsb' 11 1).setWidth 32 <<< 11 :=
  and_field_eq icrLow (1#32 <<< 11) 11 1 (by decide)

/-- The tests of `relm_apic_ipi_resolve_targets` are the architecture's. -/
theorem ipiMatches_iff (apic : VirtApic) (isSender : Bool) :
    ipiMatches apic isSender icrLow icrHigh = true ↔ IcrSelects icrLow icrHigh isSender apic := by
  have hself : ∀ b : BitVec 2, (b.setWidth 32 <<< 18 == apicIcrShorthandSelf) = true ↔ b = 1#2 := by decide
  have hincl : ∀ b : BitVec 2, (b.setWidth 32 <<< 18 == apicIcrShorthandAllIncl) = true ↔ b = 2#2 := by decide
  have hexcl : ∀ b : BitVec 2, (b.setWidth 32 <<< 18 == apicIcrShorthandAllExcl) = true ↔ b = 3#2 := by decide
  have hmode : ∀ b : BitVec 1, (!(b.setWidth 32 <<< 11 != (0 : U32))) = true ↔ b = 0#1 := by decide
  unfold ipiMatches IcrSelects
  simp only [shorthand_eq, hself, hincl, hexcl]
  split
  · rfl
  split
  · exact ⟨fun _ => trivial, fun _ => rfl⟩
  split
  · exact iff_of_eq (Bool.not_eq_true' isSender)
  simp only [logical_eq, setWidth_ushiftRight]
  by_cases hphys : icrLow.extractLsb' 11 1 = 0#1
  · rw [if_pos ((hmode _).mpr hphys), if_pos hphys, beq_iff_eq]
  · rw [if_neg fun hc => hphys ((hmode _).mp hc), if_neg hphys, bne_iff_ne]
    rfl

theorem fixed_iff : (icrLow &&& apicIcrDeliveryMask == apicIcrDeliveryFixed) = true ↔ IcrFixed icrLow := by
  have hall : ∀ b : BitVec 3, (b.setWidth 32 <<< 8 == apicIcrDeliveryFixed) = true ↔ b = 0#3 := by decide
  rw [and_field_eq icrLow apicIcrDeliveryMask 8 3 (by decide), hall, IcrFixed]

theorem level_eq : (icrLow &&& apicIcrTriggerLevel != 0) = icrLevel icrLow := by
  have hall : ∀ b : BitVec 1, (b.setWidth 32 <<< 15 != 0#32) = (b == 1#1) := by decide
  rw [and_field_eq icrLow apicIcrTriggerLevel 15 1 (by decide)]
  exact hall _

theorem vector_eq : (icrLow &&& apicIcrVectorMask).setWidth 8 = icrVector icrLow := by
  have hall : ∀ b : BitVec 8, (b.setWidth 32 <<< 0).setWidth 8 = b := by decide
  rw [and_field_eq icrLow apicIcrVectorMask 0 8 (by decide), hall, icrVector]

end Fields

section Targets

variable {vcpus : Vcpus} {sender maxVcpus : Nat} {icrLow icrHigh : U32}

/-- The targets are distinct and fit their array. -/
theorem resolveTargets_fits (vcpus : Vcpus) (sender : Nat) (icrLow icrHigh : U32) (maxVcpus : Nat) :
    (relmApicIpiResolveTargets vcpus sender icrLow icrHigh maxVcpus).Nodup ∧
      (relmApicIpiResolveTargets vcpus sender icrLow icrHigh maxVcpus).length ≤ maxVcpus := by
  refine ⟨List.Nodup.sublist (List.take_sublist ..) (List.nodup_range.filter _), ?_⟩
  exact List.length_take_le ..

/-- In a table that is not longer than the array the targets are the vCPUs the ICR selects. -/
theorem mem_resolveTargets (hlen : vcpus.length ≤ maxVcpus) (i : Nat) :
    i ∈ relmApicIpiResolveTargets vcpus sender icrLow icrHigh maxVcpus ↔
      ∃ w, vcpus[i]? = some (some w) ∧ IcrSelects icrLow icrHigh (i == sender) w.apic := by
  unfold relmApicIpiResolveTargets
  rw [List.take_of_length_le, List.mem_filter, List.mem_range]
  · constructor
    · rintro ⟨hlt, hm⟩
      rw [List.getElem?_eq_getElem hlt] at hm ⊢
      cases hw : vcpus[i] with
      | none =>
        rw [hw] at hm
        cases hm
      | some w =>
        rw [hw] at hm
        exact ⟨w, rfl, (ipiMatches_iff _ _ _ _).mp hm⟩
    · rintro ⟨w, hw, hsel⟩
      refine ⟨(List.getElem?_eq_some_iff.mp hw).1, ?_⟩
      rw [hw]
      exact (ipiMatches_iff _ _ _ _).mpr hsel
  · refine (List.length_filter_le ..).trans ?_
    rw [List.length_range]
    exact hlen

/-- A step at each of several distinct positions. -/
private theorem foldl_modify {α : Type} (f : α → α) (targets : List Nat) (l : List α) (hn : targets.Nodup) (i : Nat) :
    (targets.foldl (fun l t => l.modify t f) l)[i]? = if i ∈ targets then l[i]?.map f else l[i]? := by
  induction targets generalizing l with
  | nil => simp
  | cons t targets ih =>
    obtain ⟨hnot, hn⟩ := List.nodup_cons.mp hn
    rw [List.foldl_cons, ih _ hn, List.getElem?_modify]
    by_cases hit : i = t
    · subst hit
      simp [hnot]
    · have hti : ¬ t = i := fun hc => hit hc.symm
      simp [hti, hit]

/-- What the deliveries do at each position. -/
private theorem deliver_getElem (targets : List Nat) (vcpus : Vcpus) (hn : targets.Nodup) (icrLow : U32) (i : Nat) :
    (targets.foldl (fun vcpus target => relmApicIpiDeliver vcpus target (icrLow &&& apicIcrDeliveryMask)
      (icrLow &&& apicIcrVectorMask) (icrLow &&& apicIcrTriggerLevel != 0)) vcpus)[i]? =
      if i ∈ targets ∧ IcrFixed icrLow then
        vcpus[i]?.map (Option.map fun v => relmApicInjectInterrupt v (icrVector icrLow) (icrLevel icrLow))
      else vcpus[i]? := by
  unfold relmApicIpiDeliver
  simp only [fixed_iff, vector_eq, level_eq]
  by_cases hf : IcrFixed icrLow
  · simp only [hf, and_true]
    exact foldl_modify _ targets vcpus hn i
  · simp only [hf, and_false, if_false]
    rw [List.foldl_fixed]

/-- What injecting an interrupt does to the bitmaps of an APIC. -/
theorem inject_bits (apic : VirtApic) (vector : BitVec 8) (level : Bool) (u : Nat) :
    (Member (apic.inject vector level).irr u ↔ u = vector.toNat ∨ Member apic.irr u) ∧
      (Member (apic.inject vector level).tmr u ↔ if u = vector.toNat then level = true else Member apic.tmr u) := by
  have hw : vector.toNat / 32 < 8 := by
    have hlt := vector.isLt
    omega
  simp only [VirtApic.inject, VirtApic.sync_eq (show (ApicReg.irr (vector.toNat / 32)).Valid from hw),
    VirtApic.sync_eq (show (ApicReg.tmr (vector.toNat / 32)).Valid from hw)]
  refine ⟨member_insert apic.irr vector.toNat u, ?_⟩
  cases level with
  | true =>
    refine (member_insert apic.tmr vector.toNat u).trans ?_
    by_cases hu : u = vector.toNat <;> simp [hu]
  | false =>
    refine (member_erase apic.tmr vector.toNat u).trans ?_
    by_cases hu : u = vector.toNat <;> simp [hu]

theorem storeIcrLow_eq (apic : VirtApic) (value : U32) : apic.storeIcrLow value =
    { apic with icrLow := value,
                page := Function.update apic.page ApicReg.icrLow.offset (value &&& ~~~apicIcrSendPending) } :=
  VirtApic.sync_eq (show ApicReg.icrLow.Valid from trivial)

end Targets

/-- The sender stores what it writes before anything is delivered. -/
def Vcpu.storeIcr (v : Vcpu) (isSender : Bool) (value : U32) : Vcpu :=
  if isSender then { v with apic := v.apic.storeIcrLow value } else v

/-- What an IPI does to a vCPU: one that is hit has the vector pending, with the trigger mode of the ICR, and is awake;
one that is not keeps everything but, in the sender, `ICR_LOW`. -/
structure IpiEffect (icrLow : U32) (isSender : Bool) (hit : Prop) (before after : Vcpu) : Prop where
  irr : ∀ u, Member after.apic.irr u ↔ (hit ∧ u = (icrVector icrLow).toNat) ∨ Member before.apic.irr u
  tmr : ∀ u, Member after.apic.tmr u ↔
    (hit ∧ u = (icrVector icrLow).toNat ∧ icrLevel icrLow = true) ∨
      (¬ (hit ∧ u = (icrVector icrLow).toNat) ∧ Member before.apic.tmr u)
  halted : after.halted = true ↔ ¬ hit ∧ before.halted = true
  missed : ¬ hit → after = before.storeIcr isSender icrLow

/-- The vCPUs an IPI is delivered to, in this order. -/
def ipiTargets (maxVcpus : Nat) (vcpus : Vcpus) (sender : Nat) (apic : VirtApic) (value : U32) : List Nat :=
  relmApicIpiResolveTargets (vcpus.modify sender (Option.map fun v => { v with apic := v.apic.storeIcrLow value })) sender value
    apic.icrHigh maxVcpus

section Effect

variable {icrLow : U32} {isSender : Bool} {v : Vcpu}

private theorem storeIcr_bits : (v.storeIcr isSender icrLow).apic.irr = v.apic.irr ∧
    (v.storeIcr isSender icrLow).apic.tmr = v.apic.tmr ∧ (v.storeIcr isSender icrLow).halted = v.halted := by
  unfold Vcpu.storeIcr
  cases isSender with
  | false => exact ⟨rfl, rfl, rfl⟩
  | true =>
    rw [if_pos rfl, storeIcrLow_eq]
    exact ⟨rfl, rfl, rfl⟩

private theorem effect_hit {hit : Prop} (h : hit) : IpiEffect icrLow isSender hit v
    (relmApicInjectInterrupt (v.storeIcr isSender icrLow) (icrVector icrLow) (icrLevel icrLow)) := by
  obtain ⟨hirr, htmr, -⟩ := @storeIcr_bits icrLow isSender v
  refine ⟨fun u => ?_, fun u => ?_, ?_, fun hn => absurd h hn⟩
  · rw [← hirr]
    refine (inject_bits (v.storeIcr isSender icrLow).apic (icrVector icrLow) (icrLevel icrLow) u).1.trans ?_
    simp [h]
  · rw [← htmr]
    refine (inject_bits (v.storeIcr isSender icrLow).apic (icrVector icrLow) (icrLevel icrLow) u).2.trans ?_
    by_cases hu : u = (icrVector icrLow).toNat <;> simp [h, hu]
  · simp [relmApicInjectInterrupt, h]

private theorem effect_missed {hit : Prop} (h : ¬ hit) : IpiEffect icrLow isSender hit v (v.storeIcr isSender icrLow) := by
  obtain ⟨hirr, htmr, hhalted⟩ := @storeIcr_bits icrLow isSender v
  refine ⟨fun u => ?_, fun u => ?_, ?_, fun _ => rfl⟩
  · simp [h, hirr]
  · simp [h, htmr]
  · simp [h, hhalted]

end Effect

section Table

variable {vcpus : Vcpus} {sender : Nat} {value icrHigh : U32} {i : Nat}

/-- The table once the sender has stored what it writes. -/
private theorem stored_getElem (vcpus : Vcpus) (sender : Nat) (value : U32) (i : Nat) :
    (vcpus.modify sender (Option.map fun v => { v with apic := v.apic.storeIcrLow value }))[i]? =
      vcpus[i]?.map (Option.map fun v => v.storeIcr (i == sender) value) := by
  rw [List.getElem?_modify]
  by_cases hi : sender = i
  · subst hi
    simp [Vcpu.storeIcr]
  · have hne : (i == sender) = false := by
      rw [beq_eq_false_iff_ne]
      exact fun hc => hi hc.symm
    cases hv : vcpus[i]? with
    | none => rfl
    | some slot => cases slot <;> simp [hi, hne, Vcpu.storeIcr]

/-- What the ICR selects does not depend on `ICR_LOW`. -/
private theorem selects_storeIcr (w : Vcpu) (isSender : Bool) :
    IcrSelects value icrHigh isSender (w.storeIcr isSender value).apic ↔ IcrSelects value icrHigh isSender w.apic := by
  cases isSender with
  | false => rfl
  | true =>
    rw [Vcpu.storeIcr, if_pos rfl, storeIcrLow_eq]
    rfl

end Table

/-- A write of `ICR_LOW` in a table that is not longer than `RELM_MAX_VCPUS` reaches exactly the vCPUs the ICR selects,
each once, when the delivery mode is fixed, and none otherwise. -/
theorem ipi_hits_its_targets (maxVcpus : Nat) (vcpus : Vcpus) (hlen : vcpus.length ≤ maxVcpus) (sender : Nat) (origin : Vcpu)
    (_hs : vcpus[sender]? = some (some origin)) (value : U32) :
    (∀ now, relmApicWrite vcpus sender origin 0x300#32 value now =
      (.ok (), relmApicHandleIcrWriteFor relmMaxVcpus vcpus sender origin.apic value)) ∧
    (ipiTargets maxVcpus vcpus sender origin.apic value).Nodup ∧
    (ipiTargets maxVcpus vcpus sender origin.apic value).length ≤ maxVcpus ∧
    (∀ i, i ∈ ipiTargets maxVcpus vcpus sender origin.apic value ↔
      ∃ w, vcpus[i]? = some (some w) ∧ IcrSelects value origin.apic.icrHigh (i == sender) w.apic) ∧
    ∀ i, match vcpus[i]? with
      | some (some w) => ∃ w', (relmApicHandleIcrWriteFor maxVcpus vcpus sender origin.apic value)[i]? = some (some w') ∧
        IpiEffect value (i == sender) (IcrFixed value ∧ IcrSelects value origin.apic.icrHigh (i == sender) w.apic) w w'
      | slot => (relmApicHandleIcrWriteFor maxVcpus vcpus sender origin.apic value)[i]? = slot := by
  have hmem : ∀ i, i ∈ ipiTargets maxVcpus vcpus sender origin.apic value ↔
      ∃ w, vcpus[i]? = some (some w) ∧ IcrSelects value origin.apic.icrHigh (i == sender) w.apic := by
    intro i
    rw [ipiTargets, mem_resolveTargets (by rw [List.length_modify]; exact hlen), stored_getElem]
    constructor
    · rintro ⟨w', hw', hsel⟩
      cases hv : vcpus[i]? with
      | none =>
        rw [hv] at hw'
        cases hw'
      | some slot =>
        rw [hv] at hw'
        cases slot with
        | none => cases hw'
        | some w =>
          obtain rfl := Option.some.inj (Option.some.inj hw')
          exact ⟨w, rfl, (selects_storeIcr w _).mp hsel⟩
    · rintro ⟨w, hw, hsel⟩
      exact ⟨w.storeIcr (i == sender) value, by rw [hw]; rfl, (selects_storeIcr w _).mpr hsel⟩
  obtain ⟨hnodup, hfits⟩ := resolveTargets_fits
    (vcpus.modify sender (Option.map fun v => { v with apic := v.apic.storeIcrLow value })) sender value origin.apic.icrHigh maxVcpus
  refine ⟨fun now => rfl, hnodup, hfits, hmem, fun i => ?_⟩
  have hafter := deliver_getElem (ipiTargets maxVcpus vcpus sender origin.apic value)
    (vcpus.modify sender (Option.map fun v => { v with apic := v.apic.storeIcrLow value })) hnodup value i
  change (relmApicHandleIcrWriteFor maxVcpus vcpus sender origin.apic value)[i]? = _ at hafter
  rw [stored_getElem] at hafter
  cases hv : vcpus[i]? with
  | none =>
    rw [hafter, hv]
    simp
  | some slot =>
    cases slot with
    | none =>
      rw [hafter, hv]
      simp
    | some w =>
      have hin : i ∈ ipiTargets maxVcpus vcpus sender origin.apic value ↔
          IcrSelects value origin.apic.icrHigh (i == sender) w.apic := by
        rw [hmem, hv]
        simp
      rw [hv] at hafter
      by_cases hhit : IcrFixed value ∧ IcrSelects value origin.apic.icrHigh (i == sender) w.apic
      · rw [if_pos ⟨hin.mpr hhit.2, hhit.1⟩] at hafter
        exact ⟨_, hafter, effect_hit hhit⟩
      · rw [if_neg fun hc => hhit ⟨hc.2, hin.mp hc.1⟩] at hafter
        exact ⟨_, hafter, effect_missed hhit⟩

/-- Two vCPUs around an empty slot, the second halted. -/
private def twoVcpus : Vcpus :=
  [some ⟨zeroedApic.relmApicInit 0, false⟩, none, some ⟨zeroedApic.relmApicInit 1, true⟩]

/-- Vector 0x31 to all but self reaches the second vCPU and wakes it. -/
theorem ipi_all_but_self : ∃ w', (relmApicHandleIcrWriteFor 4 twoVcpus 0 (zeroedApic.relmApicInit 0) 0x000C0031#32)[2]? =
    some (some w') ∧ Member w'.apic.irr 0x31 ∧ ¬ w'.halted = true := by
  obtain ⟨-, -, -, -, heffect⟩ := ipi_hits_its_targets 4 twoVcpus (by decide) 0 ⟨zeroedApic.relmApicInit 0, false⟩ rfl 0x000C0031#32
  obtain ⟨w', hw', heff⟩ := heffect 2
  have hhit : IcrFixed 0x000C0031#32 ∧ IcrSelects 0x000C0031#32 (zeroedApic.relmApicInit 0).icrHigh (2 == 0)
      (zeroedApic.relmApicInit 1) := ⟨by decide, by
    unfold IcrSelects
    rw [if_neg (by decide), if_neg (by decide), if_pos (by decide)]
    rfl⟩
  exact ⟨w', hw', (heff.irr 0x31).mpr (.inl ⟨hhit, by decide⟩), fun hc => (heff.halted.mp hc).1 hhit⟩

end Relm.Vmx
