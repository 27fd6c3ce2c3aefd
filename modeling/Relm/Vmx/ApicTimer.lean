import Relm.Vmx.ApicPage

/-! The APIC timer: the count that is read back, from the history of the writes to its three registers. -/
namespace Relm.Vmx
open Relm.Lib.Run Relm.Lib.Word

inductive TimerReg
  | icr | dcr | lvt

def TimerReg.offset : TimerReg → U32
  | .icr => 0x380#32
  | .dcr => 0x3E0#32
  | .lvt => 0x320#32

/-- A write to a register of the timer, at a time of the nanosecond clock. -/
structure TimerWrite where
  reg : TimerReg
  value : U32
  now : U64

/-- The write as an operation of the vCPU at position `k`. -/
def TimerWrite.op (k : Nat) (w : TimerWrite) : ApicOp := .write k w.reg.offset w.value w.now

/-- What the guest last wrote: the initial count, and when, the divide configuration, and the LVT entry. -/
structure TimerSettings where
  icr : U32
  start : U64
  dcr : U32
  lvt : U32

namespace TimerSettings

def powerOn : TimerSettings := ⟨0, 0, apicTimerDcrDiv1, apicLvtMasked⟩

def note (s : TimerSettings) (w : TimerWrite) : TimerSettings :=
  match w.reg with
  | .icr => { s with icr := w.value, start := w.now }
  | .dcr => { s with dcr := w.value }
  | .lvt => { s with lvt := w.value }

def after (writes : List TimerWrite) : TimerSettings := writes.foldl note powerOn

/-- The divisor as the architecture encodes it in bits 3, 1 and 0: 2, 4, up to 128, and 1 for all ones. -/
def divisor (s : TimerSettings) : Nat :=
  let code := 4 * (s.dcr.extractLsb' 3 1).toNat + (s.dcr.extractLsb' 0 2).toNat
  if code = 7 then 1 else 2 ^ (code + 1)

/-- Bits 18:17 of the LVT entry select periodic mode. -/
def Periodic (s : TimerSettings) : Prop := s.lvt.extractLsb' 17 2 = 1#2

instance (s : TimerSettings) : Decidable s.Periodic := inferInstanceAs (Decidable (_ = _))

/-- Ticks of 10 ns times the divisor since the start. -/
def ticks (s : TimerSettings) (t : U64) : Nat := (t.toNat - s.start.toNat) / (10 * s.divisor)

/-- What the current count register answers at a time. -/
structure CountLaw (s : TimerSettings) (apic : VirtApic) (t : U64) : Prop where
  read : (apic.relmApicRead 0x390#32 t).1 = (.ok (), apic.relmApicGetTimerCcr t)
  divides : 0 < 10 * s.divisor
  elapsed : s.icr ≠ 0 → s.start ≤ t
  stopped : s.icr = 0 → apic.relmApicGetTimerCcr t = 0
  periodic : s.icr ≠ 0 → s.Periodic →
    (apic.relmApicGetTimerCcr t).toNat = s.icr.toNat - s.ticks t % s.icr.toNat ∧
    1 ≤ (apic.relmApicGetTimerCcr t).toNat ∧ (apic.relmApicGetTimerCcr t).toNat ≤ s.icr.toNat ∧
    ∀ t' : U64, t'.toNat = t.toNat + 10 * s.divisor * s.icr.toNat → apic.relmApicGetTimerCcr t' = apic.relmApicGetTimerCcr t
  countdown : s.icr ≠ 0 → ¬ s.Periodic →
    (apic.relmApicGetTimerCcr t).toNat = s.icr.toNat - s.ticks t ∧
    (t = s.start → apic.relmApicGetTimerCcr t = s.icr) ∧
    (∀ t' ≥ t, apic.relmApicGetTimerCcr t' ≤ apic.relmApicGetTimerCcr t) ∧
    (apic.relmApicGetTimerCcr t = 0 ↔ s.icr.toNat ≤ s.ticks t)

/-- The fields of the APIC are what the writes have made them. -/
structure Held (s : TimerSettings) (apic : VirtApic) : Prop where
  icr : apic.timerIcr = s.icr
  start : apic.timerStartNs = if s.icr != 0 then s.start else 0
  dcr : apic.timerDcr = s.dcr &&& 0x0B#32
  mode : apic.timerMode = (s.lvt >>> 17) &&& 3#32

end TimerSettings

section Settings

variable {s : TimerSettings} {apic : VirtApic}

private theorem sync_timer (apic : VirtApic) (offset value : U32) :
    (apic.sync offset value).timerMode = apic.timerMode ∧ (apic.sync offset value).timerStartNs = apic.timerStartNs ∧
      (apic.sync offset value).timerIcr = apic.timerIcr ∧ (apic.sync offset value).timerDcr = apic.timerDcr := by
  unfold VirtApic.sync
  split <;> exact ⟨rfl, rfl, rfl, rfl⟩

/-- A fact that no copy to the page changes survives the copies of `relm_apic_init`. -/
private theorem init_keeps {P : VirtApic → Prop} (hP : ∀ a offset value, P a → P (a.sync offset value)) (apicId : BitVec 8)
    (h : P (apic.resetFields apicId)) : P (apic.relmApicInit apicId) := by
  have hregs : ∀ regs a, P a → P (VirtApic.syncRegs a regs) := by
    intro regs
    induction regs with
    | nil => exact fun a ha => ha
    | cons reg regs ih => exact fun a ha => ih _ (hP a _ _ ha)
  have hbitmaps : ∀ n a, P a → P (VirtApic.syncBitmaps a n) := by
    intro n
    induction n with
    | zero => exact fun a ha => ha
    | succ n ih => exact fun a ha => hP _ _ _ (hP _ _ _ (hP _ _ _ (ih a ha)))
  exact hbitmaps 8 _ (hregs _ _ h)

theorem init_held (apic : VirtApic) (apicId : BitVec 8) : TimerSettings.powerOn.Held (apic.relmApicInit apicId) := by
  apply init_keeps
  · intro a offset value h
    obtain ⟨h1, h2, h3, h4⟩ := sync_timer a offset value
    exact ⟨h3.trans h.icr, h2.trans h.start, h4.trans h.dcr, h1.trans h.mode⟩
  · exact ⟨rfl, rfl, rfl, rfl⟩

/-- One write keeps the fields what the writes have made them, and the slot of its vCPU occupied. -/
theorem write_held {vcpus : Vcpus} {k : Nat} {v : Vcpu} (hk : vcpus[k]? = some (some v)) (h : s.Held v.apic) (w : TimerWrite) :
    ∃ next, ((w.op k).exec vcpus).2[k]? = some (some next) ∧ (s.note w).Held next.apic := by
  have hlt : k < vcpus.length := (List.getElem?_eq_some_iff.mp hk).1
  obtain ⟨reg, value, now⟩ := w
  have hslot : ∀ a : VirtApic, (vcpus.set k (some { v with apic := a }))[k]? = some (some { v with apic := a }) :=
    fun a => List.getElem?_set_self hlt
  simp only [TimerWrite.op, ApicOp.exec, hk]
  cases reg with
  | icr => exact ⟨_, hslot _, rfl, rfl, h.dcr, h.mode⟩
  | dcr => exact ⟨_, hslot _, h.icr, h.start, rfl, h.mode⟩
  | lvt => exact ⟨_, hslot _, h.icr, h.start, h.dcr, rfl⟩

/-- After a run of writes the fields are what the writes have made them. -/
theorem run_held {vcpus : Vcpus} {k : Nat} {v : Vcpu} (hk : vcpus[k]? = some (some v)) (h : s.Held v.apic)
    (writes : List TimerWrite) : ∃ next, (run ApicOp.exec vcpus (writes.map (TimerWrite.op k))).2[k]? = some (some next) ∧
      (writes.foldl TimerSettings.note s).Held next.apic := by
  induction writes generalizing vcpus v s with
  | nil => exact ⟨v, hk, h⟩
  | cons w writes ih =>
    obtain ⟨next, hnext, hheld⟩ := write_held hk h w
    exact ih hnext hheld

theorem timerDivisor_eq (s : TimerSettings) : VirtApic.timerDivisor (s.dcr &&& 0x0B#32) = s.divisor := by
  have hbits : s.dcr &&& 0x0B#32 = (s.dcr.extractLsb' 3 1).setWidth 32 <<< 3 ||| (s.dcr.extractLsb' 0 2).setWidth 32 := by
    apply BitVec.eq_of_getLsbD_eq
    intro i hi
    simp only [BitVec.getLsbD_and, BitVec.getLsbD_or, BitVec.getLsbD_shiftLeft, BitVec.getLsbD_setWidth,
      BitVec.getLsbD_extractLsb', BitVec.getLsbD_ofNat]
    rcases (by omega : i = 0 ∨ i = 1 ∨ i = 2 ∨ i = 3 ∨ 4 ≤ i) with rfl | rfl | rfl | rfl | h
    · simp
    · simp [show Nat.testBit 11 1 = true by decide]
    · simp [show Nat.testBit 11 2 = false by decide]
    · simp [show Nat.testBit 11 3 = true by decide]
    · have hmask : Nat.testBit 11 i = false :=
        Nat.testBit_lt_two_pow (Nat.lt_of_lt_of_le (show 11 < 2 ^ 4 by decide) (Nat.pow_le_pow_right (by decide) h))
      simp [hmask, show ¬ i - 3 < 1 by omega, show ¬ i < 2 by omega]
  have hall : ∀ (high : BitVec 1) (low : BitVec 2), VirtApic.timerDivisor (high.setWidth 32 <<< 3 ||| low.setWidth 32) =
      if 4 * high.toNat + low.toNat = 7 then 1 else 2 ^ (4 * high.toNat + low.toNat + 1) := by decide
  rw [hbits, hall, TimerSettings.divisor]

theorem periodic_iff (s : TimerSettings) : ((s.lvt >>> 17) &&& 3#32 == apicTimerModePeriodic) = true ↔ s.Periodic := by
  have hbits : (s.lvt >>> 17) &&& 3#32 = (s.lvt.extractLsb' 17 2).setWidth 32 := by
    apply BitVec.eq_of_toNat_eq
    rw [and_low_toNat _ _ 2 rfl, BitVec.toNat_setWidth, BitVec.extractLsb'_toNat, BitVec.toNat_ushiftRight]
    omega
  have hall : ∀ mode : BitVec 2, (mode.setWidth 32 == apicTimerModePeriodic) = true ↔ mode = 1#2 := by decide
  rw [hbits, hall, TimerSettings.Periodic]

/-- The count of a timer that was started at a positive time. -/
theorem TimerSettings.Held.ccr_eq (h : s.Held apic) (hicr : s.icr ≠ 0) (hstart : 0 < s.start) {t : U64} (hle : s.start ≤ t) :
    (apic.relmApicGetTimerCcr t).toNat =
      if s.Periodic then s.icr.toNat - s.ticks t % s.icr.toNat else s.icr.toNat - s.ticks t := by
  have hlt := s.icr.isLt
  have hns : apic.timerStartNs = s.start := by rw [h.start, if_pos (by simpa using hicr)]
  have hne : s.start ≠ 0 := fun hc => absurd hstart (by rw [hc]; decide)
  have hrunning : ¬ (s.icr == 0 || s.start == 0) = true := by
    rw [Bool.or_eq_true, beq_iff_eq, beq_iff_eq]
    exact not_or.mpr ⟨hicr, hne⟩
  have hticks : (t - s.start).toNat / (10 * VirtApic.timerDivisor (s.dcr &&& 0x0B#32)) = s.ticks t := by
    rw [timerDivisor_eq, BitVec.toNat_sub_of_le hle, TimerSettings.ticks]
  unfold VirtApic.relmApicGetTimerCcr
  rw [h.icr, hns, if_neg hrunning, h.dcr, h.mode]
  dsimp only
  rw [hticks]
  by_cases hp : s.Periodic
  · rw [if_pos ((periodic_iff s).mpr hp), if_pos hp]
    have hpos : 0 < s.icr.toNat := Nat.pos_of_ne_zero fun hc => hicr (BitVec.eq_of_toNat_eq hc)
    have hmod := Nat.mod_lt (s.ticks t) hpos
    have hof : (BitVec.ofNat 32 (s.ticks t % s.icr.toNat)).toNat = s.ticks t % s.icr.toNat := by
      rw [BitVec.toNat_ofNat]
      exact Nat.mod_eq_of_lt (by omega)
    rw [BitVec.toNat_sub_of_le (by rw [BitVec.le_def, hof]; omega), hof]
  · rw [if_neg fun hc => hp ((periodic_iff s).mp hc), if_neg hp]
    split
    · rename_i hdone
      exact (Nat.sub_eq_zero_of_le hdone).symm
    · rw [BitVec.toNat_ofNat]
      exact Nat.mod_eq_of_lt (by omega)

theorem TimerSettings.divisor_pos (s : TimerSettings) : 0 < s.divisor := by
  unfold TimerSettings.divisor
  dsimp only
  split
  · decide
  · exact Nat.two_pow_pos _

/-- What the fields say of the count. -/
theorem TimerSettings.Held.countLaw (h : s.Held apic) {t : U64} (hstart : s.icr ≠ 0 → 0 < s.start ∧ s.start ≤ t) :
    s.CountLaw apic t := by
  have hd : 0 < 10 * s.divisor := Nat.mul_pos (by decide) s.divisor_pos
  refine ⟨rfl, hd, fun hicr => (hstart hicr).2, fun hicr => ?_, fun hicr hp => ?_, fun hicr hp => ?_⟩
  · rw [VirtApic.relmApicGetTimerCcr, h.icr, hicr]
    rfl
  · obtain ⟨hpos, hle⟩ := hstart hicr
    have hmod := Nat.mod_lt (s.ticks t) (Nat.pos_of_ne_zero fun hc => hicr (BitVec.eq_of_toNat_eq hc))
    have hccr := h.ccr_eq hicr hpos hle
    rw [if_pos hp] at hccr
    refine ⟨hccr, by omega, by omega, fun t' ht' => ?_⟩
    have hle' : s.start ≤ t' := by
      rw [BitVec.le_def] at hle ⊢
      omega
    have hticks : s.ticks t' = s.ticks t + s.icr.toNat := by
      rw [BitVec.le_def] at hle
      rw [TimerSettings.ticks, ht', Nat.add_comm t.toNat, Nat.add_sub_assoc hle, Nat.add_comm, Nat.add_mul_div_left _ _ hd,
        TimerSettings.ticks]
    apply BitVec.eq_of_toNat_eq
    rw [h.ccr_eq hicr hpos hle', if_pos hp, hccr, hticks, Nat.add_mod_right]
  · obtain ⟨hpos, hle⟩ := hstart hicr
    have hccr := h.ccr_eq hicr hpos hle
    rw [if_neg hp] at hccr
    refine ⟨hccr, fun ht => ?_, fun t' ht' => ?_, ?_⟩
    · apply BitVec.eq_of_toNat_eq
      rw [hccr, TimerSettings.ticks, ht, Nat.sub_self, Nat.zero_div, Nat.sub_zero]
    · have hmono : s.ticks t ≤ s.ticks t' := Nat.div_le_div_right (Nat.sub_le_sub_right (BitVec.le_def.mp ht') _)
      rw [BitVec.le_def, hccr, h.ccr_eq hicr hpos (BitVec.le_trans hle ht'), if_neg hp]
      exact Nat.sub_le_sub_left hmono _
    · rw [← BitVec.toNat_inj, hccr]
      exact Nat.sub_eq_zero_iff_le

/-- The timer was started by one of the writes. -/
theorem after_start (writes : List TimerWrite) (s : TimerSettings) (times : List U64) (hs : s.icr ≠ 0 → s.start ∈ times) :
    (writes.foldl TimerSettings.note s).icr ≠ 0 → (writes.foldl TimerSettings.note s).start ∈ times ++ writes.map TimerWrite.now := by
  induction writes generalizing s times with
  | nil =>
    rw [List.map_nil, List.append_nil]
    exact hs
  | cons w writes ih =>
    rw [List.map_cons, List.append_cons, List.foldl_cons]
    refine ih (s.note w) (times ++ [w.now]) fun hicr => ?_
    obtain ⟨reg, value, now⟩ := w
    cases reg with
    | icr => exact List.mem_append_right _ List.mem_cons_self
    | dcr => exact List.mem_append_left _ (hs hicr)
    | lvt => exact List.mem_append_left _ (hs hicr)

end Settings

/-- Clock readings, in the order they are taken. -/
structure Clock (times : List U64) : Prop where
  positive : ∀ t ∈ times, 0 < t
  monotone : times.Pairwise (· ≤ ·)

/-- After any row of writes to the timer registers the current count follows the law of the timer. -/
theorem timer_count_law (apic : VirtApic) (apicId : BitVec 8) (halted : Bool) (vcpus : Vcpus) (k : Nat)
    (hk : vcpus[k]? = some (some ⟨apic.relmApicInit apicId, halted⟩)) (writes : List TimerWrite) (t : U64)
    (hclock : Clock (writes.map TimerWrite.now ++ [t])) :
    ∃ next, (run ApicOp.exec vcpus (writes.map (TimerWrite.op k))).2[k]? = some (some next) ∧
      (TimerSettings.after writes).CountLaw next.apic t := by
  obtain ⟨next, hnext, hheld⟩ := run_held hk (init_held apic apicId) writes
  refine ⟨next, hnext, hheld.countLaw fun hicr => ?_⟩
  have hmem : (TimerSettings.after writes).start ∈ writes.map TimerWrite.now := by
    have hstart := after_start writes TimerSettings.powerOn [] (fun hc => absurd rfl hc) hicr
    rwa [List.nil_append] at hstart
  exact ⟨hclock.positive _ (List.mem_append_left _ hmem),
    (List.pairwise_append.mp hclock.monotone).2.2 _ hmem t List.mem_cons_self⟩

/-- Divide by 16, then start a count of 1000 at 10 ns. -/
private def startCount : List TimerWrite := [⟨.dcr, 3#32, 5#64⟩, ⟨.icr, 1000#32, 10#64⟩]

/-- Five ticks of 160 ns later the count is 995. -/
theorem timer_count_law_one_shot : ∃ next, (run ApicOp.exec oneVcpu (startCount.map (TimerWrite.op 0))).2[0]? = some (some next) ∧
    (TimerSettings.after startCount).CountLaw next.apic 810#64 ∧ (next.apic.relmApicGetTimerCcr 810#64).toNat = 995 := by
  have hclock : Clock (startCount.map TimerWrite.now ++ [810#64]) := by
    constructor <;> simp [startCount]
  obtain ⟨next, hnext, hlaw⟩ := timer_count_law zeroedApic 0 false oneVcpu 0 rfl startCount 810#64 hclock
  exact ⟨next, hnext, hlaw, (hlaw.countdown (by decide) (by decide)).1⟩

end Relm.Vmx
