import Relm.Vmx.Apic

/-! The virtual-APIC page holds what the software APIC would answer, over every run of APIC operations. -/
namespace Relm.Vmx
open Relm.Lib.Bitmap Relm.Lib.Run

namespace ApicReg

/-- A word of a bitmap is one of eight. -/
def Valid : ApicReg → Prop
  | .isr n | .tmr n | .irr n => n < 8
  | _ => True

/-- The registers that the page mirrors. `APR` and `LVT_CMCI` answer without a slot, `EOI` and `RRD` read as 0, the
current count comes from the clock. -/
def Mirrored : ApicReg → Prop
  | .apr | .eoi | .rrd | .lvtCmci | .timerCcr => False
  | reg => reg.Valid

theorem Mirrored.valid {reg : ApicReg} (h : reg.Mirrored) : reg.Valid := by
  cases reg <;> first | exact h | trivial

/-- Where a read looks a register up. -/
def decode (offset : U32) : Option ApicReg := (apicTable.lookup offset).or (bitmapWord offset)

/-- The registers with a slot, to check facts about offsets on. -/
def all : List ApicReg :=
  apicTable.map Prod.snd ++ (List.range 8).map isr ++ (List.range 8).map tmr ++ (List.range 8).map irr

theorem Valid.mem_all {reg : ApicReg} (h : reg.Valid) : reg ∈ all := by
  cases reg with
  | isr n => simp [all, show n < 8 from h]
  | tmr n => simp [all, show n < 8 from h]
  | irr n => simp [all, show n < 8 from h]
  | _ => decide

theorem decode_offset {reg : ApicReg} (h : reg.Valid) : decode reg.offset = some reg := by
  have hall : ∀ r ∈ all, decode r.offset = some r := by decide
  exact hall reg h.mem_all

theorem offset_lt {reg : ApicReg} (h : reg.Valid) : reg.offset < apicRegisterSize := by
  have hall : ∀ r ∈ all, r.offset < apicRegisterSize := by decide
  exact hall reg h.mem_all

theorem offset_aligned {reg : ApicReg} (h : reg.Valid) : (reg.offset &&& 3#32 != 0) = false := by
  have hall : ∀ r ∈ all, (r.offset &&& 3#32 != 0) = false := by decide
  exact hall reg h.mem_all

theorem offset_injective {reg reg' : ApicReg} (h : reg.Valid) (h' : reg'.Valid) (heq : reg.offset = reg'.offset) :
    reg = reg' := by
  have hd := decode_offset h
  rw [heq, decode_offset h'] at hd
  exact (Option.some.inj hd).symm

end ApicReg

namespace VirtApic

variable {apic a : VirtApic} {reg : ApicReg} {v : U32}

/-- Every mirrored slot holds the register. -/
def PageMirror (apic : VirtApic) : Prop := ∀ reg : ApicReg, reg.Mirrored → apic.page reg.offset = apic.value reg

/-- The priority that `relm_apic_ppr_update` computes. -/
def pprValue (apic : VirtApic) : U32 :=
  let isrv := BitVec.ofNat 32 (apic.inServiceVector.getD 0)
  if 0#32 < isrv then (if apic.tpr &&& 0xF0#32 < isrv &&& 0xF0#32 then isrv &&& 0xF0#32 else apic.tpr &&& 0xF0#32)
  else apic.tpr &&& 0xF0#32

theorem relmApicPprUpdate_eq (apic : VirtApic) :
    apic.relmApicPprUpdate = { apic with ppr := apic.pprValue }.sync ApicReg.ppr.offset apic.pprValue := rfl

theorem sync_eq (h : reg.Valid) :
    apic.sync reg.offset v = { apic with page := Function.update apic.page reg.offset v } :=
  if_pos (ApicReg.offset_lt h)

/-- A register and its slot are written together; the other registers stay. -/
theorem PageMirror.store (h : apic.PageMirror) (hv : reg.Valid) (hpage : a.page = apic.page)
    (hreg : reg.Mirrored → a.value reg = v) (hother : ∀ r : ApicReg, r.Mirrored → r ≠ reg → a.value r = apic.value r) :
    (a.sync reg.offset v).PageMirror := by
  intro r hr
  rw [sync_eq hv]
  by_cases hrr : r = reg
  · subst hrr
    change Function.update a.page r.offset v r.offset = a.value r
    rw [Function.update_self, hreg hr]
  · have hne : r.offset ≠ reg.offset := fun hc => hrr (ApicReg.offset_injective hr.valid hv hc)
    change Function.update a.page reg.offset v r.offset = a.value r
    rw [Function.update_of_ne hne, hpage, h r hr, hother r hr hrr]

theorem PageMirror.pprUpdate (h : apic.PageMirror) : apic.relmApicPprUpdate.PageMirror := by
  rw [relmApicPprUpdate_eq]
  refine h.store trivial rfl (fun _ => rfl) fun r hr hne => ?_
  cases r <;> first | rfl | exact absurd rfl hne | exact absurd hr id

/-- What every operation keeps: the page mirrors the registers, and the priority is current. -/
structure Synced (apic : VirtApic) : Prop where
  page : apic.PageMirror
  ppr : apic.ppr = apic.pprValue

theorem PageMirror.synced (h : apic.PageMirror) : apic.relmApicPprUpdate.Synced := by
  refine ⟨h.pprUpdate, ?_⟩
  rw [relmApicPprUpdate_eq, sync_eq (show ApicReg.ppr.Valid from trivial)]
  rfl

/-- A store to a register that the priority does not depend on. -/
theorem Synced.store (h : apic.Synced) (hv : reg.Valid) (hpage : a.page = apic.page)
    (hreg : reg.Mirrored → a.value reg = v) (hother : ∀ r : ApicReg, r.Mirrored → r ≠ reg → a.value r = apic.value r)
    (hppr : a.ppr = apic.ppr) (htpr : a.tpr = apic.tpr) (hisr : a.isr = apic.isr) :
    (a.sync reg.offset v).Synced := by
  refine ⟨h.page.store hv hpage hreg hother, ?_⟩
  rw [sync_eq hv]
  change a.ppr = a.pprValue
  rw [hppr, h.ppr, pprValue, pprValue, inServiceVector, inServiceVector, htpr, hisr]

/-- Changes that no mirrored register and no slot shows. -/
theorem Synced.congr (h : apic.Synced) (hpage : a.page = apic.page) (hvalue : ∀ r, a.value r = apic.value r)
    (htpr : a.tpr = apic.tpr) (hisr : a.isr = apic.isr) : a.Synced := by
  refine ⟨fun r hr => ?_, ?_⟩
  · rw [hpage, hvalue]
    exact h.page r hr
  · have hppr : a.ppr = apic.ppr := hvalue .ppr
    rw [hppr, h.ppr, pprValue, pprValue, inServiceVector, inServiceVector, htpr, hisr]

theorem inServiceVector_lt {vector : Nat} (h : apic.inServiceVector = some vector) : vector / 32 < 8 := by
  have hlt := (highestBelow_some h).2.1
  omega

/-- A word of `ISR` or `TMR` and its slot. -/
theorem PageMirror.storeIsr (h : apic.PageMirror) {word : Nat} (hw : word < 8) (w : U32) :
    ({ apic with isr := Function.update apic.isr word w }.sync (ApicReg.isr word).offset w).PageMirror := by
  refine h.store hw rfl (fun _ => Function.update_self ..) fun r hr hne => ?_
  cases r with
  | isr n => exact Function.update_of_ne (fun hc => hne (congrArg ApicReg.isr hc)) ..
  | _ => rfl

theorem PageMirror.storeTmr (h : apic.PageMirror) {word : Nat} (hw : word < 8) (w : U32) :
    ({ apic with tmr := Function.update apic.tmr word w }.sync (ApicReg.tmr word).offset w).PageMirror := by
  refine h.store hw rfl (fun _ => Function.update_self ..) fun r hr hne => ?_
  cases r with
  | tmr n => exact Function.update_of_ne (fun hc => hne (congrArg ApicReg.tmr hc)) ..
  | _ => rfl

theorem Synced.eoi (h : apic.Synced) : apic.relmApicEoi.Synced := by
  rw [relmApicEoi]
  split
  · exact h
  · rename_i vector hv
    have hword := inServiceVector_lt hv
    have h1 := h.page.storeIsr hword (apic.isr (vector / 32) &&& ~~~vectorMask vector)
    apply PageMirror.synced
    split
    · exact h1.storeTmr hword _
    · exact h1

theorem Synced.writeRegister {value : U32} {now : U64} (h : apic.Synced) (hw : apic.writeRegister reg value now = some a) :
    a.Synced := by
  cases reg with
  | tpr =>
    cases hw
    apply PageMirror.synced
    refine h.page.store trivial rfl (fun _ => rfl) fun r hr hne => ?_
    cases r <;> first | rfl | exact absurd rfl hne
  | eoi =>
    cases hw
    exact h.eoi.store trivial rfl (fun hm => absurd hm id) (fun _ _ _ => rfl) rfl rfl rfl
  | timerIcr =>
    cases hw
    have hs : ({ apic with timerIcr := value }.sync ApicReg.timerIcr.offset value).Synced := by
      refine h.store trivial rfl (fun _ => rfl) (fun r hr hne => ?_) rfl rfl rfl
      cases r <;> first | rfl | exact absurd rfl hne
    refine hs.congr rfl (fun r => ?_) rfl rfl
    cases r <;> rfl
  | version | isr | tmr | irr | lvtCmci | timerCcr => cases hw; exact h
  | apr | ppr | rrd | icrLow => cases hw
  | _ =>
    cases hw
    refine h.store trivial rfl (fun _ => rfl) (fun r hr hne => ?_) rfl rfl rfl
    cases r <;> first | rfl | exact absurd rfl hne

theorem Synced.storeIcrLow (h : apic.Synced) (value : U32) : (apic.storeIcrLow value).Synced := by
  refine h.store (show ApicReg.icrLow.Valid from trivial) rfl (fun _ => rfl) (fun r hr hne => ?_) rfl rfl rfl
  cases r <;> first | rfl | exact absurd rfl hne

theorem Synced.storeIrr (h : apic.Synced) {word : Nat} (hw : word < 8) (w : U32) :
    ({ apic with irr := Function.update apic.irr word w }.sync (ApicReg.irr word).offset w).Synced := by
  refine h.store hw rfl (fun _ => Function.update_self ..) (fun r hr hne => ?_) rfl rfl rfl
  cases r with
  | irr n => exact Function.update_of_ne (fun hc => hne (congrArg ApicReg.irr hc)) ..
  | _ => rfl

theorem Synced.storeTmr (h : apic.Synced) {word : Nat} (hw : word < 8) (w : U32) :
    ({ apic with tmr := Function.update apic.tmr word w }.sync (ApicReg.tmr word).offset w).Synced := by
  refine ⟨h.page.storeTmr hw w, ?_⟩
  rw [sync_eq (show (ApicReg.tmr word).Valid from hw)]
  exact h.ppr

theorem Synced.inject (h : apic.Synced) (vector : BitVec 8) (levelTriggered : Bool) :
    (apic.inject vector levelTriggered).Synced := by
  have hword : vector.toNat / 32 < 8 := by
    have hlt := vector.isLt
    omega
  have hirr := h.storeIrr hword (apic.irr (vector.toNat / 32) ||| vectorMask vector.toNat)
  have htmr := hirr.storeTmr hword (if levelTriggered then apic.tmr (vector.toNat / 32) ||| vectorMask vector.toNat
    else apic.tmr (vector.toNat / 32) &&& ~~~vectorMask vector.toNat)
  -- both words are set before either slot is written, which the page does not show
  rw [sync_eq (show (ApicReg.irr (vector.toNat / 32)).Valid from hword),
    sync_eq (show (ApicReg.tmr (vector.toNat / 32)).Valid from hword)] at htmr
  dsimp only [VirtApic.inject]
  rw [sync_eq (show (ApicReg.irr (vector.toNat / 32)).Valid from hword),
    sync_eq (show (ApicReg.tmr (vector.toNat / 32)).Valid from hword)]
  exact htmr

theorem Synced.read (h : apic.Synced) (offset : U32) (now : U64) : (apic.relmApicRead offset now).2.Synced := by
  rw [relmApicRead]
  split
  · exact h
  · split
    · rename_i reg _
      dsimp only
      cases reg with
      | tpr =>
        have hslot : apic.readSlot ApicReg.tpr.offset = apic.tpr := h.page .tpr trivial
        dsimp only [readRegister]
        rw [hslot]
        exact h
      | apr => exact h.page.synced
      | ppr => exact h.page.synced
      | timerCcr => exact h.store (show ApicReg.timerCcr.Valid from trivial) rfl (fun hm => absurd hm id) (fun _ _ _ => rfl) rfl rfl rfl
      | _ => exact h
    · split <;> exact h

/-- A read of a mirrored register answers with its slot. -/
theorem Synced.read_eq (h : apic.Synced) (hr : reg.Mirrored) (now : U64) :
    (apic.relmApicRead reg.offset now).1 = (.ok (), apic.page reg.offset) := by
  rw [relmApicRead, ApicReg.offset_aligned hr.valid, if_neg Bool.false_ne_true, h.page reg hr]
  have hd := ApicReg.decode_offset hr.valid
  rw [ApicReg.decode] at hd
  cases ht : apicTable.lookup reg.offset with
  | none =>
    rw [ht, Option.none_or] at hd
    rw [hd]
  | some reg' =>
    rw [ht, Option.some_or] at hd
    obtain rfl := Option.some.inj hd
    dsimp only
    cases reg' with
    | apr => exact absurd hr id
    | timerCcr => exact absurd hr id
    | tpr =>
      have hslot : apic.readSlot ApicReg.tpr.offset = apic.tpr := h.page .tpr trivial
      simp only [readRegister, hslot]
    | ppr =>
      dsimp only [readRegister]
      rw [relmApicPprUpdate_eq, sync_eq (show ApicReg.ppr.Valid from trivial)]
      exact congrArg (Prod.mk _) h.ppr.symm
    | _ => rfl

section Init

theorem sync_value (hv : reg.Valid) (r : ApicReg) : (apic.sync reg.offset v).value r = apic.value r := by
  rw [sync_eq hv]
  cases r <;> rfl

/-- Copying registers to the page: the copied ones agree with their slots, the other slots stay. -/
theorem syncRegs_page (regs : List ApicReg) (hv : ∀ r ∈ regs, r.Valid) (apic : VirtApic) :
    (∀ r, (apic.syncRegs regs).value r = apic.value r) ∧
      (∀ r ∈ regs, (apic.syncRegs regs).page r.offset = apic.value r) ∧
      ∀ r, r.Valid → r ∉ regs → (apic.syncRegs regs).page r.offset = apic.page r.offset := by
  induction regs generalizing apic with
  | nil => exact ⟨fun _ => rfl, fun r hr => absurd hr List.not_mem_nil, fun _ _ _ => rfl⟩
  | cons reg regs ih =>
    have hreg : reg.Valid := hv reg List.mem_cons_self
    obtain ⟨h1, h2, h3⟩ := ih (fun r hr => hv r (List.mem_cons_of_mem _ hr)) (apic.sync reg.offset (apic.value reg))
    change (∀ r, ((apic.sync reg.offset (apic.value reg)).syncRegs regs).value r = _) ∧
      (∀ r ∈ reg :: regs, ((apic.sync reg.offset (apic.value reg)).syncRegs regs).page r.offset = _) ∧
      ∀ r, r.Valid → r ∉ reg :: regs → ((apic.sync reg.offset (apic.value reg)).syncRegs regs).page r.offset = _
    refine ⟨fun r => (h1 r).trans (sync_value hreg r), fun r hr => ?_, fun r hval hr => ?_⟩
    · by_cases hmem : r ∈ regs
      · rw [h2 r hmem, sync_value hreg]
      · rcases List.mem_cons.mp hr with rfl | hr
        · rw [h3 r hreg hmem, sync_eq hreg]
          exact Function.update_self ..
        · exact absurd hr hmem
    · obtain ⟨hne, hmem⟩ := not_or.mp fun hc => hr (List.mem_cons.mpr hc)
      rw [h3 r hval hmem, sync_eq hreg]
      exact Function.update_of_ne (fun hc => hne (ApicReg.offset_injective hval hreg hc)) ..

/-- Clearing the bitmap slots: theirs become 0, the other slots and the registers stay. -/
theorem syncBitmaps_page (n : Nat) (hn : n ≤ 8) (apic : VirtApic) :
    (∀ r, (apic.syncBitmaps n).value r = apic.value r) ∧
      (∀ i < n, (apic.syncBitmaps n).page (ApicReg.isr i).offset = 0 ∧
        (apic.syncBitmaps n).page (ApicReg.tmr i).offset = 0 ∧ (apic.syncBitmaps n).page (ApicReg.irr i).offset = 0) ∧
      ∀ r : ApicReg, r.Valid → (∀ i, r ≠ .isr i ∧ r ≠ .tmr i ∧ r ≠ .irr i) →
        (apic.syncBitmaps n).page r.offset = apic.page r.offset := by
  induction n with
  | zero => exact ⟨fun _ => rfl, fun i hi => absurd hi (by omega), fun _ _ _ => rfl⟩
  | succ n ih =>
    obtain ⟨h1, h2, h3⟩ := ih (by omega)
    have hisr : (ApicReg.isr n).Valid := show n < 8 by omega
    have htmr : (ApicReg.tmr n).Valid := show n < 8 by omega
    have hirr : (ApicReg.irr n).Valid := show n < 8 by omega
    have hslot : ∀ r : ApicReg, r.Valid → (apic.syncBitmaps (n + 1)).page r.offset =
        if r = .irr n ∨ r = .tmr n ∨ r = .isr n then 0 else (apic.syncBitmaps n).page r.offset := by
      intro r hr
      have hne : ∀ {r' : ApicReg}, r'.Valid → r ≠ r' → r.offset ≠ r'.offset :=
        fun hr' hrr hc => hrr (ApicReg.offset_injective hr hr' hc)
      rw [syncBitmaps, sync_eq hisr, sync_eq htmr, sync_eq hirr]
      by_cases h1 : r = .irr n
      · rw [if_pos (.inl h1), h1]
        exact Function.update_self ..
      · by_cases h2 : r = .tmr n
        · rw [if_pos (.inr (.inl h2))]
          dsimp only
          rw [Function.update_of_ne (hne hirr h1), h2, Function.update_self]
        · by_cases h3 : r = .isr n
          · rw [if_pos (.inr (.inr h3))]
            dsimp only
            rw [Function.update_of_ne (hne hirr h1), Function.update_of_ne (hne htmr h2), h3, Function.update_self]
          · rw [if_neg (by simp [h1, h2, h3])]
            dsimp only
            rw [Function.update_of_ne (hne hirr h1), Function.update_of_ne (hne htmr h2), Function.update_of_ne (hne hisr h3)]
    refine ⟨fun r => ?_, fun i hi => ?_, fun r hr hnone => ?_⟩
    · rw [syncBitmaps, sync_value hirr, sync_value htmr, sync_value hisr, h1]
    · rw [hslot (.isr i) (show i < 8 by omega), hslot (.tmr i) (show i < 8 by omega), hslot (.irr i) (show i < 8 by omega)]
      by_cases hin : i = n
      · simp [hin]
      · have hold := h2 i (by omega)
        simp [hin, hold]
    · rw [hslot r hr, if_neg (by simp [(hnone n).1, (hnone n).2.1, (hnone n).2.2]), h3 r hr hnone]

private theorem initSynced_valid : ∀ r ∈ initSynced, r.Valid := by
  intro r hr
  cases r <;> first | trivial | simp [initSynced] at hr

/-- The registers after `relm_apic_init`. -/
theorem init_value (apic : VirtApic) (apicId : BitVec 8) (r : ApicReg) :
    (apic.relmApicInit apicId).value r = (apic.resetFields apicId).value r :=
  ((syncBitmaps_page 8 le_rfl _).1 r).trans ((syncRegs_page initSynced initSynced_valid _).1 r)

theorem init_copied (apic : VirtApic) (apicId : BitVec 8) {r : ApicReg} (hr : r ∈ initSynced)
    (hnone : ∀ i, r ≠ .isr i ∧ r ≠ .tmr i ∧ r ≠ .irr i) :
    (apic.relmApicInit apicId).page r.offset = (apic.resetFields apicId).value r :=
  ((syncBitmaps_page 8 le_rfl _).2.2 r (initSynced_valid r hr) hnone).trans
    ((syncRegs_page initSynced initSynced_valid _).2.1 r hr)

theorem init_skipped (apic : VirtApic) (apicId : BitVec 8) {r : ApicReg} (hv : r.Valid) (hr : r ∉ initSynced)
    (hnone : ∀ i, r ≠ .isr i ∧ r ≠ .tmr i ∧ r ≠ .irr i) : (apic.relmApicInit apicId).page r.offset = apic.page r.offset :=
  ((syncBitmaps_page 8 le_rfl _).2.2 r hv hnone).trans ((syncRegs_page initSynced initSynced_valid _).2.2 r hv hr)

theorem init_page (hzero : ∀ o, apic.page o = 0) (apicId : BitVec 8) : (apic.relmApicInit apicId).PageMirror := by
  intro r hr
  have hbits := (syncBitmaps_page 8 le_rfl ((apic.resetFields apicId).syncRegs initSynced)).2.1
  rw [init_value]
  cases r with
  | isr n => exact (hbits n hr).1
  | tmr n => exact (hbits n hr).2.1
  | irr n => exact (hbits n hr).2.2
  | icrLow =>
    have hslot := init_skipped apic apicId (show ApicReg.icrLow.Valid from trivial) (by decide) (by simp)
    rw [hslot, hzero]
    exact (BitVec.zero_and).symm
  | apr => exact absurd hr id
  | eoi => exact absurd hr id
  | rrd => exact absurd hr id
  | lvtCmci => exact absurd hr id
  | timerCcr => exact absurd hr id
  | _ => exact init_copied apic apicId (by decide) (by simp)

/-- After `relm_apic_init` on a cleared page the page mirrors the registers. -/
theorem init_synced (hzero : ∀ o, apic.page o = 0) (apicId : BitVec 8) : (apic.relmApicInit apicId).Synced := by
  refine ⟨init_page hzero apicId, ?_⟩
  have hvalue := init_value apic apicId
  generalize apic.relmApicInit apicId = b at hvalue ⊢
  have hisr : b.isr = fun _ => 0 := by
    funext n
    exact hvalue (.isr n)
  have htpr : b.tpr = 0 := hvalue .tpr
  have hppr : b.ppr = 0 := hvalue .ppr
  have hnone : highestBelow (fun _ => (0 : BitVec 32)) 8 = none := by decide
  rw [pprValue, inServiceVector, hisr, htpr, hppr, hnone]
  decide

end Init

/-- `PPR` as the architecture defines it: the class of `TPR`, or that of the highest vector in service if higher. -/
structure PprSpec (apic : VirtApic) : Prop where
  idle : (∀ u < 256, ¬ Member apic.isr u) → apic.ppr = apic.tpr &&& 0xF0#32
  serving : ∀ v < 256, Member apic.isr v → (∀ u < 256, Member apic.isr u → u ≤ v) →
    apic.ppr.toNat = max (apic.tpr &&& 0xF0#32).toNat (BitVec.ofNat 32 v &&& 0xF0#32).toNat

/-- The priority that is computed is the larger of the two classes; vector 0 in service counts as none. -/
theorem pprValue_toNat (apic : VirtApic) : apic.pprValue.toNat =
    max (apic.tpr &&& 0xF0#32).toNat (BitVec.ofNat 32 (apic.inServiceVector.getD 0) &&& 0xF0#32).toNat := by
  unfold pprValue
  generalize BitVec.ofNat 32 (apic.inServiceVector.getD 0) = isrv
  dsimp only
  split
  · split
    · rename_i hlt
      rw [max_eq_right (le_of_lt (BitVec.lt_def.mp hlt))]
    · rename_i hlt
      rw [max_eq_left (not_lt.mp fun hc => hlt (BitVec.lt_def.mpr hc))]
  · rename_i hzero
    have hisrv : isrv = 0#32 := by
      apply BitVec.eq_of_toNat_eq
      have hnot : ¬ 0 < isrv.toNat := fun hc => hzero (BitVec.lt_def.mpr hc)
      exact Nat.eq_zero_of_not_pos hnot
    rw [hisrv, BitVec.zero_and]
    exact (Nat.max_eq_left (Nat.zero_le _)).symm

theorem Synced.pprSpec (h : apic.Synced) : apic.PprSpec := by
  have hppr := congrArg BitVec.toNat h.ppr
  rw [pprValue_toNat] at hppr
  cases hv : apic.inServiceVector with
  | none =>
    rw [hv] at hppr
    refine ⟨fun _ => BitVec.eq_of_toNat_eq (hppr.trans (Nat.max_eq_left (Nat.zero_le _))), fun v hlt hm _ => ?_⟩
    exact absurd hm (highestBelow_none hv v (by omega))
  | some w =>
    obtain ⟨hm, hlt, hmax⟩ := highestBelow_some hv
    refine ⟨fun hnone => absurd hm (hnone w hlt), fun v hvlt hvm hvmax => ?_⟩
    obtain rfl : v = w := le_antisymm (hmax v (by omega) hvm) (hvmax w (by omega) hm)
    rw [hv] at hppr
    exact hppr

end VirtApic

section Run

/-- Every APIC of a VM is in step with its page. -/
def AllSynced (vcpus : Vcpus) : Prop := ∀ v, some v ∈ vcpus → v.apic.Synced

theorem AllSynced.set {vcpus : Vcpus} (h : AllSynced vcpus) (k : Nat) {v : Vcpu} (hv : v.apic.Synced) :
    AllSynced (vcpus.set k (some v)) := by
  intro w hw
  rcases List.mem_or_eq_of_mem_set hw with hw | hw
  · exact h w hw
  · cases hw
    exact hv

theorem AllSynced.modify {vcpus : Vcpus} (h : AllSynced vcpus) (k : Nat) {f : Vcpu → Vcpu}
    (hf : ∀ v, v.apic.Synced → (f v).apic.Synced) : AllSynced (vcpus.modify k (Option.map f)) := by
  intro w hw
  obtain ⟨i, hi⟩ := List.mem_iff_getElem?.mp hw
  rw [List.getElem?_modify] at hi
  obtain ⟨slot, hs, heq⟩ := Option.map_eq_some_iff.mp hi
  split at heq
  · obtain ⟨v, rfl, rfl⟩ := Option.map_eq_some_iff.mp heq
    exact hf v (h v (List.mem_of_getElem? hs))
  · subst heq
    exact h w (List.mem_of_getElem? hs)

theorem setError_synced {v : Vcpu} (h : v.apic.Synced) (errorBit : U32) : (relmApicSetError v errorBit).apic.Synced := by
  have hpending : ({ v.apic with esrPending := v.apic.esrPending ||| (errorBit &&& apicEsrValidBits) } : VirtApic).Synced := by
    refine h.congr rfl (fun r => ?_) rfl rfl
    cases r <;> rfl
  dsimp only [relmApicSetError]
  split
  · exact h
  · split
    · split
      · exact hpending.inject _ _
      · exact hpending
    · exact hpending

theorem ipiDeliver_synced {vcpus : Vcpus} (h : AllSynced vcpus) (target : Nat) (mode vector : U32) (level : Bool) :
    AllSynced (relmApicIpiDeliver vcpus target mode vector level) := by
  rw [relmApicIpiDeliver]
  split
  · exact h.modify target fun v hv => hv.inject _ _
  · exact h

theorem handleIcrWrite_synced {vcpus : Vcpus} (h : AllSynced vcpus) (sender : Nat) (apic : VirtApic) (value : U32) :
    AllSynced (relmApicHandleIcrWrite vcpus sender apic value) := by
  have hstored : AllSynced (vcpus.modify sender (Option.map fun v => { v with apic := v.apic.storeIcrLow value })) :=
    h.modify sender fun v hv => hv.storeIcrLow value
  dsimp only [relmApicHandleIcrWrite, relmApicHandleIcrWriteFor]
  generalize vcpus.modify sender (Option.map fun v => { v with apic := v.apic.storeIcrLow value }) = stored at hstored ⊢
  generalize relmApicIpiResolveTargets stored sender value apic.icrHigh relmMaxVcpus = targets
  induction targets generalizing stored with
  | nil => exact hstored
  | cons target targets ih => exact ih _ (ipiDeliver_synced hstored _ _ _ _)

theorem write_synced {vcpus : Vcpus} (h : AllSynced vcpus) {k : Nat} {v : Vcpu} (hv : v.apic.Synced)
    (offset value : U32) (now : U64) : AllSynced (relmApicWrite vcpus k v offset value now).2 := by
  rw [relmApicWrite]
  split
  · exact h
  · split
    · exact handleIcrWrite_synced h k v.apic value
    · split
      · rename_i hw
        exact h.set k (hv.writeRegister hw)
      · exact h
    · split <;> exact h

theorem exec_synced {vcpus : Vcpus} (h : AllSynced vcpus) (op : ApicOp) : AllSynced (op.exec vcpus).2 := by
  cases op with
  | read k offset now =>
    dsimp only [ApicOp.exec]
    split
    · rename_i v hk
      exact h.set k ((h v (List.mem_of_getElem? hk)).read offset now)
    · exact h
  | write k offset value now =>
    dsimp only [ApicOp.exec]
    split
    · rename_i v hk
      exact write_synced h (h v (List.mem_of_getElem? hk)) offset value now
    · exact h
  | inject k vector level => exact h.modify k fun v hv => hv.inject vector level
  | setError k errorBit => exact h.modify k fun v hv => setError_synced hv errorBit

/-- After any run of APIC operations on the vCPUs of a VM, a read of every mirrored register returns the slot of the
virtual-APIC page, and `PPR` is the higher of the two classes. -/
theorem vapic_page_mirrors (vcpus : Vcpus)
    (hinit : ∀ v, some v ∈ vcpus → ∃ old apicId, (∀ o, old.page o = 0) ∧ v.apic = VirtApic.relmApicInit old apicId)
    (ops : List ApicOp) (v : Vcpu) (hv : some v ∈ (run ApicOp.exec vcpus ops).2) :
    (∀ reg : ApicReg, reg.Mirrored → ∀ now,
      (v.apic.relmApicRead reg.offset now).1 = (.ok (), v.apic.page reg.offset)) ∧ v.apic.PprSpec := by
  have hstart : AllSynced vcpus := by
    intro w hw
    obtain ⟨old, apicId, hzero, heq⟩ := hinit w hw
    rw [heq]
    exact VirtApic.init_synced hzero apicId
  have hall : ∀ op ∈ ops, True := fun _ _ => trivial
  have hend : AllSynced (run ApicOp.exec vcpus ops).2 :=
    run_invariant (P := fun _ vcpus => AllSynced vcpus) (fun _ _ op h _ => exec_synced h op) hstart
      (admitted_of_forall hall vcpus)
  exact ⟨fun reg hr now => (hend v hv).read_eq hr now, (hend v hv).pprSpec⟩

/-- A zeroed `struct virt_apic`. -/
def zeroedApic : VirtApic :=
  { page := fun _ => 0, apicId := 0, version := 0, tpr := 0, ppr := 0, svr := 0, ldr := 0, dfr := 0, esr := 0
    esrPending := 0, irr := fun _ => 0, isr := fun _ => 0, tmr := fun _ => 0, icrLow := 0, icrHigh := 0, lvtTimer := 0
    lvtThermal := 0, lvtPmc := 0, lvtLint0 := 0, lvtLint1 := 0, lvtError := 0, timerIcr := 0, timerDcr := 0
    timerMode := 0, timerStartNs := 0, timerDeadlineTsc := 0, isEnabled := false }

/-- One vCPU as `relm_apic_init` leaves it. -/
def oneVcpu : Vcpus := [some ⟨zeroedApic.relmApicInit 0, false⟩]

/-- After an interrupt on vector 0x31 the page shows the pending bit in the second word of `IRR`. -/
theorem vapic_page_mirrors_inject :
    ∃ v, some v ∈ (run ApicOp.exec oneVcpu [.inject 0 0x31#8 false]).2 ∧
      (v.apic.relmApicRead (ApicReg.irr 1).offset 0).1 = (.ok (), v.apic.page (ApicReg.irr 1).offset) ∧
      v.apic.page (ApicReg.irr 1).offset = 0x20000#32 ∧ v.apic.PprSpec := by
  have hinit : ∀ v, some v ∈ oneVcpu →
      ∃ old apicId, (∀ o, old.page o = 0) ∧ v.apic = VirtApic.relmApicInit old apicId := by
    intro v hv
    obtain rfl : v = ⟨zeroedApic.relmApicInit 0, false⟩ := by simpa [oneVcpu] using hv
    exact ⟨zeroedApic, 0, fun _ => rfl, rfl⟩
  have hmem : some (relmApicInjectInterrupt ⟨zeroedApic.relmApicInit 0, false⟩ 0x31#8 false) ∈
      (run ApicOp.exec oneVcpu [.inject 0 0x31#8 false]).2 := List.mem_cons_self
  obtain ⟨hread, hppr⟩ := vapic_page_mirrors oneVcpu hinit _ _ hmem
  exact ⟨_, hmem, hread (.irr 1) (show 1 < 8 by decide) 0, by decide, hppr⟩

end Run

end Relm.Vmx
