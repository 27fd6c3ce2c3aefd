import Relm.Lib.Word
import Relm.Virtio.Readiness
import Relm.Virtio.Registry

/-! What a driver's register writes make of the queues of a device: the rings by the history of the driver alone, and
which queue one write can reach. -/
namespace Relm.Virtio
open Relm.Lib.Run Relm.Lib.Word

variable {π : Type}

/-- The callbacks leave the queues alone. -/
structure VirtioOps.KeepsQueues (ops : VirtioOps π) : Prop where
  deviceFeatures : ∀ dev sel, (ops.deviceFeatures dev sel).2.queues = dev.queues
  driverFeaturesAck : ∀ dev sel value, (ops.driverFeaturesAck dev sel value).queues = dev.queues
  queueNumMax : ∀ dev queue, (ops.queueNumMax dev queue).2.queues = dev.queues
  configRead : ∀ dev offset size, (ops.configRead dev offset size).2.queues = dev.queues
  queueNotify : ∀ dev queue, (ops.queueNotify dev queue).2.queues = dev.queues
  notifyStatus : ∀ dev status, (ops.notifyStatus dev status).queues = dev.queues

/-- The three rings of a queue. -/
inductive Ring
  | desc | avail | used
  deriving DecidableEq

namespace Ring

/-- The register of the low half of the address. -/
def low : Ring → Register
  | desc => .queueDescLow
  | avail => .queueDriverLow
  | used => .queueDeviceLow

def high : Ring → Register
  | desc => .queueDescHigh
  | avail => .queueDriverHigh
  | used => .queueDeviceHigh

def gpa : Ring → Virtqueue → U64
  | desc, vq => vq.descGpa
  | avail, vq => vq.availGpa
  | used, vq => vq.usedGpa

end Ring

/-- The accesses of a driver, each with the queue selector in force. -/
def tagged (sel : Selectors) : List Access → List (U32 × Access)
  | [] => []
  | a :: rest => (sel.queueSel, a) :: tagged (sel.note a) rest

/-- A write of `Status` that resets the device or fails it. -/
def clearsRings (a : Access) : Bool :=
  a.isWrite && registerAt a.offset == .status && (a.value == 0 || a.value &&& virtioConfigSFailed != 0)

/-- A write of a register while a queue is selected. -/
def writesWhile (reg : Register) (q : Nat) (x : U32 × Access) : Bool :=
  x.2.isWrite && registerAt x.2.offset == reg && x.1.toNat == q

/-- The last value written to a register while queue `q` was selected, since the last reset; 0 after a reset, and
`start` where there was neither. -/
def lastWritten (reg : Register) (q : Nat) (start : U32) (history : List (U32 × Access)) : U32 :=
  match history.reverse.find? fun x => clearsRings x.2 || writesWhile reg q x with
  | none => start
  | some x => if clearsRings x.2 then 0 else x.2.value

/-- The two halves of an address. -/
def lowHalf (gpa : U64) : U32 := gpa.extractLsb' 0 32
def highHalf (gpa : U64) : U32 := gpa.extractLsb' 32 32

/-- The address of a ring that a history gives. -/
def ringAddress (ring : Ring) (q : Nat) (start : U64) (history : List (U32 × Access)) : U64 :=
  lastWritten ring.high q (highHalf start) history ++ lastWritten ring.low q (lowHalf start) history

section Halves

variable (gpa : U64) (value : U32)

private theorem setLow_toNat : (setLow gpa value).toNat = gpa.toNat / 2 ^ 32 * 2 ^ 32 + value.toNat := by
  have hv := value.isLt
  have hand : (gpa &&& 0xFFFFFFFF00000000#64).toNat = gpa.toNat / 2 ^ 32 * 2 ^ 32 := by
    rw [and_field_toNat _ _ 32 64 (by decide) (by decide), Nat.mod_eq_of_lt gpa.isLt]
  have hw : (value.setWidth 64).toNat = value.toNat := by
    rw [BitVec.toNat_setWidth]
    exact Nat.mod_eq_of_lt (by omega)
  rw [setLow, or_low_toNat _ _ 32 (by rw [hand]; omega) (by rw [hw]; exact hv), hand, hw]

private theorem setHigh_toNat : (setHigh gpa value).toNat = value.toNat * 2 ^ 32 + gpa.toNat % 2 ^ 32 := by
  have hv := value.isLt
  have hand : (gpa &&& 0x00000000FFFFFFFF#64).toNat = gpa.toNat % 2 ^ 32 := and_low_toNat _ _ 32 (by decide)
  have hw : (value.setWidth 64 <<< 32).toNat = value.toNat * 2 ^ 32 := by
    rw [BitVec.toNat_shiftLeft, BitVec.toNat_setWidth, Nat.shiftLeft_eq, Nat.mod_eq_of_lt (show value.toNat < 2 ^ 64 by omega)]
    exact Nat.mod_eq_of_lt (by omega)
  rw [setHigh, BitVec.or_comm, or_low_toNat _ _ 32 (by rw [hw]; omega) (by rw [hand]; exact Nat.mod_lt _ (by decide)), hand,
    hw]

theorem lowHalf_setLow : lowHalf (setLow gpa value) = value := by
  apply BitVec.eq_of_toNat_eq
  have hv := value.isLt
  rw [lowHalf, BitVec.extractLsb'_toNat, setLow_toNat, Nat.shiftRight_zero]
  omega

theorem highHalf_setLow : highHalf (setLow gpa value) = highHalf gpa := by
  apply BitVec.eq_of_toNat_eq
  have hv := value.isLt
  rw [highHalf, highHalf, BitVec.extractLsb'_toNat, BitVec.extractLsb'_toNat, setLow_toNat, Nat.shiftRight_eq_div_pow,
    Nat.shiftRight_eq_div_pow]
  omega

theorem lowHalf_setHigh : lowHalf (setHigh gpa value) = lowHalf gpa := by
  apply BitVec.eq_of_toNat_eq
  rw [lowHalf, lowHalf, BitVec.extractLsb'_toNat, BitVec.extractLsb'_toNat, setHigh_toNat, Nat.shiftRight_zero,
    Nat.shiftRight_zero]
  omega

theorem highHalf_setHigh : highHalf (setHigh gpa value) = value := by
  apply BitVec.eq_of_toNat_eq
  have hv := value.isLt
  rw [highHalf, BitVec.extractLsb'_toNat, setHigh_toNat, Nat.shiftRight_eq_div_pow]
  omega

theorem halves_append : highHalf gpa ++ lowHalf gpa = gpa := by
  apply BitVec.eq_of_toNat_eq
  have hg := gpa.isLt
  rw [BitVec.toNat_append, highHalf, lowHalf, BitVec.extractLsb'_toNat, BitVec.extractLsb'_toNat, Nat.shiftRight_zero,
    Nat.shiftRight_eq_div_pow, ← Nat.shiftLeft_add_eq_or_of_lt (Nat.mod_lt _ (by decide)), Nat.shiftLeft_eq]
  omega

end Halves

section Step

variable {ops : VirtioOps π}

/-- What a write does to the selected queue; `none` for the registers that reach no single queue. -/
def queueEffect (ops : VirtioOps π) (e : Endpoint π) (value : U32) : Register → Option (Virtqueue → Virtqueue)
  | .queueNum =>
    if value = (ops.queueNumMax e.dev e.sel.queueSel).1.setWidth 32 then
      some fun vq => { vq with queueSize := (value.setWidth 16).setWidth 64 }
    else none
  | .queueReady => some (Virtqueue.writeReady e.dev.status value)
  | .queueDescLow => some fun vq => { vq with descGpa := setLow vq.descGpa value }
  | .queueDescHigh => some fun vq => { vq with descGpa := setHigh vq.descGpa value }
  | .queueDriverLow => some fun vq => { vq with availGpa := setLow vq.availGpa value }
  | .queueDriverHigh => some fun vq => { vq with availGpa := setHigh vq.availGpa value }
  | .queueDeviceLow => some fun vq => { vq with usedGpa := setLow vq.usedGpa value }
  | .queueDeviceHigh => some fun vq => { vq with usedGpa := setHigh vq.usedGpa value }
  | _ => none

private theorem accessQueueReady_queues (e : Endpoint π) (isWrite : Bool) (value : U32) :
    (e.accessQueueReady isWrite value).2.dev.queues =
      if isWrite then e.dev.queues.modify e.sel.queueSel.toNat (Virtqueue.writeReady e.dev.status value)
      else e.dev.queues := by
  unfold Endpoint.accessQueueReady
  split
  · rename_i hnone
    rw [List.modify_eq_self (List.getElem?_eq_none_iff.mp hnone), ite_self]
    rfl
  · split <;> rfl

private theorem accessQueueNotify_queues (hk : ops.KeepsQueues) (e : Endpoint π) (isWrite : Bool) (value : U32) :
    (e.accessQueueNotify ops isWrite value).2.dev.queues = e.dev.queues := by
  unfold Endpoint.accessQueueNotify
  split
  · dsimp only
    split
    · exact hk.queueNotify e.dev value
    · exact hk.queueNotify e.dev value
  · rfl

private theorem writeDriverFeatures_queues (hk : ops.KeepsQueues) (e : Endpoint π) (value : U32) :
    (e.writeDriverFeatures ops value).dev.queues = e.dev.queues := by
  unfold Endpoint.writeDriverFeatures
  dsimp only
  split
  · exact hk.driverFeaturesAck e.dev _ value
  · exact hk.driverFeaturesAck e.dev _ value

private theorem writeQueueNum_queues (hk : ops.KeepsQueues) (e : Endpoint π) (value : U32) :
    (e.writeQueueNum ops value).dev.queues = match queueEffect ops e value .queueNum with
      | some f => e.dev.queues.modify e.sel.queueSel.toNat f
      | none => e.dev.queues := by
  have hmax := hk.queueNumMax e.dev e.sel.queueSel
  unfold Endpoint.writeQueueNum queueEffect
  by_cases h : value = (ops.queueNumMax e.dev e.sel.queueSel).1.setWidth 32
  · rw [if_pos h, if_neg (by simpa using h)]
    simp only [Endpoint.modifyQueue, hmax]
  · rw [if_neg h, if_pos (bne_iff_ne.mpr h)]
    exact hmax

/-- The queues after one access: a write of `Status` goes over all of them, any other write over the selected one. -/
theorem exec_queues (hk : ops.KeepsQueues) (e : Endpoint π) (a : Access) : (e.exec ops a).2.dev.queues =
    if a.isWrite = true ∧ registerAt a.offset = .status then statusQueues a.value e.dev.queues
    else match (if a.isWrite then queueEffect ops e a.value (registerAt a.offset) else none) with
      | some f => e.dev.queues.modify e.sel.queueSel.toNat f
      | none => e.dev.queues := by
  obtain ⟨offset, isWrite, value⟩ := a
  simp only [Endpoint.exec, Endpoint.access]
  generalize registerAt offset = reg
  cases isWrite with
  | false =>
    cases reg <;> simp [Endpoint.answer, Endpoint.query, Endpoint.store, hk.configRead, hk.deviceFeatures, hk.queueNumMax,
      accessQueueNotify_queues hk, accessQueueReady_queues]
  | true =>
    cases reg with
    | queueNum =>
      simp only [Endpoint.store, if_true, writeQueueNum_queues hk]
      rfl
    | _ => simp [Endpoint.answer, Endpoint.query, Endpoint.store, queueEffect, Endpoint.modifyQueue, Endpoint.writeStatus,
        hk.notifyStatus, writeDriverFeatures_queues hk, accessQueueNotify_queues hk, accessQueueReady_queues]

/-- One queue after one access. -/
theorem exec_queue (hk : ops.KeepsQueues) (e : Endpoint π) (a : Access) (q : Nat)
    (hs : ¬ (a.isWrite = true ∧ registerAt a.offset = .status)) : (e.exec ops a).2.dev.queues[q]? =
      match (if a.isWrite then queueEffect ops e a.value (registerAt a.offset) else none) with
      | some f => if e.sel.queueSel.toNat = q then e.dev.queues[q]?.map f else e.dev.queues[q]?
      | none => e.dev.queues[q]? := by
  rw [exec_queues hk, if_neg hs]
  split
  · rw [List.getElem?_modify]
    split
    · rfl
    · exact Option.map_id'
  · rfl

private theorem writeReady_gpa (ring : Ring) (status : Byte) (value : U32) (vq : Virtqueue) :
    ring.gpa (vq.writeReady status value) = ring.gpa vq := by
  unfold Virtqueue.writeReady
  split
  · cases ring <;> rfl
  split
  · rfl
  · cases ring <;> rfl

/-- The halves of a ring address after an effect on its queue. -/
private theorem effect_halves {e : Endpoint π} {value : U32} {reg : Register} {f : Virtqueue → Virtqueue}
    (hf : queueEffect ops e value reg = some f) (ring : Ring) (vq : Virtqueue) :
    lowHalf (ring.gpa (f vq)) = (if reg = ring.low then value else lowHalf (ring.gpa vq)) ∧
      highHalf (ring.gpa (f vq)) = if reg = ring.high then value else highHalf (ring.gpa vq) := by
  cases reg with
  | queueNum =>
    simp only [queueEffect] at hf
    split at hf
    · cases hf
      cases ring <;> exact ⟨rfl, rfl⟩
    · cases hf
  | queueReady =>
    cases hf
    rw [writeReady_gpa]
    cases ring <;> exact ⟨rfl, rfl⟩
  | queueDescLow | queueDescHigh | queueDriverLow | queueDriverHigh | queueDeviceLow | queueDeviceHigh =>
    cases hf
    cases ring <;> simp [Ring.low, Ring.high, Ring.gpa, lowHalf_setLow, highHalf_setLow, lowHalf_setHigh, highHalf_setHigh]
  | _ => cases hf

private theorem no_effect {e : Endpoint π} {value : U32} {reg : Register} (hf : queueEffect ops e value reg = none)
    (ring : Ring) : reg ≠ ring.low ∧ reg ≠ ring.high := by
  cases ring <;> refine ⟨?_, ?_⟩ <;> rintro rfl <;> cases hf

private theorem reset_gpa (ring : Ring) (vq : Virtqueue) : ring.gpa vq.reset = 0 := by
  cases ring <;> rfl

private theorem ready_gpa (ring : Ring) (vq : Virtqueue) (b : Bool) : ring.gpa { vq with ready := b } = ring.gpa vq := by
  cases ring <;> rfl

/-- What one access makes of the value of a half. -/
def nextHalf (reg : Register) (q : Nat) (sel : U32) (a : Access) (before : U32) : U32 :=
  if clearsRings a then 0 else if writesWhile reg q (sel, a) then a.value else before

private theorem low_ne_status (ring : Ring) : ring.low ≠ .status := by
  cases ring <;> decide

private theorem high_ne_status (ring : Ring) : ring.high ≠ .status := by
  cases ring <;> decide

section Half

variable {a : Access} {reg : Register} {q : Nat} {sel before : U32}

/-- A write of the status register clears the half or leaves it alone. -/
private theorem nextHalf_status (hs : a.isWrite = true ∧ registerAt a.offset = .status) (hreg : reg ≠ .status) :
    nextHalf reg q sel a before =
      if (a.value == 0 || a.value &&& virtioConfigSFailed != 0) = true then 0 else before := by
  have hclear : clearsRings a = (a.value == 0 || a.value &&& virtioConfigSFailed != 0) := by
    simp only [clearsRings, hs.1, hs.2, beq_self_eq_true, Bool.true_and]
  have hwrite : writesWhile reg q (sel, a) = false := by
    simp only [writesWhile, hs.1, hs.2, Bool.true_and, Bool.and_eq_false_iff]
    exact Or.inl (beq_eq_false_iff_ne.mpr (Ne.symm hreg))
  rw [nextHalf, hclear, hwrite, if_neg Bool.false_ne_true]

private theorem clearsRings_other (hs : ¬ (a.isWrite = true ∧ registerAt a.offset = .status)) : clearsRings a = false := by
  unfold clearsRings
  cases hw : a.isWrite with
  | false => rfl
  | true =>
    have hreg : registerAt a.offset ≠ .status := fun hc => hs ⟨hw, hc⟩
    rw [beq_eq_false_iff_ne.mpr hreg]
    rfl

/-- Any other access that does not write the half of this queue leaves it alone. -/
private theorem nextHalf_keep (hs : ¬ (a.isWrite = true ∧ registerAt a.offset = .status))
    (hno : ¬ (a.isWrite = true ∧ registerAt a.offset = reg ∧ sel.toNat = q)) : nextHalf reg q sel a before = before := by
  rw [nextHalf, clearsRings_other hs, if_neg Bool.false_ne_true, if_neg]
  simp only [writesWhile, Bool.and_eq_true, beq_iff_eq]
  exact fun hc => hno ⟨hc.1.1, hc.1.2, hc.2⟩

/-- A write while this queue is selected. -/
private theorem nextHalf_write (hs : ¬ (a.isWrite = true ∧ registerAt a.offset = .status)) (hw : a.isWrite = true)
    (hq : sel.toNat = q) : nextHalf reg q sel a before = if registerAt a.offset = reg then a.value else before := by
  simp only [nextHalf, clearsRings_other hs, Bool.false_eq_true, if_false, writesWhile, hw, hq, beq_self_eq_true,
    Bool.and_true, Bool.true_and, beq_iff_eq]

end Half

/-- The halves of every ring of a queue follow from those before an access. -/
private def Follows (sel : U32) (a : Access) (q : Nat) (vq vq' : Virtqueue) : Prop := ∀ ring : Ring,
  lowHalf (ring.gpa vq') = nextHalf ring.low q sel a (lowHalf (ring.gpa vq)) ∧
    highHalf (ring.gpa vq') = nextHalf ring.high q sel a (highHalf (ring.gpa vq))

private theorem exec_rings_status (hk : ops.KeepsQueues) (e : Endpoint π) {a : Access} {q : Nat} {vq : Virtqueue}
    (h : e.dev.queues[q]? = some vq) (hs : a.isWrite = true ∧ registerAt a.offset = .status) :
    ∃ vq', (e.exec ops a).2.dev.queues[q]? = some vq' ∧ Follows e.sel.queueSel a q vq vq' := by
  rw [exec_queues hk, if_pos hs, statusQueues]
  split
  · rename_i hc
    refine ⟨vq.reset, by rw [List.getElem?_map, h, Option.map_some], fun ring => ?_⟩
    rw [nextHalf_status hs (low_ne_status ring), nextHalf_status hs (high_ne_status ring), if_pos hc, if_pos hc, reset_gpa]
    exact ⟨rfl, rfl⟩
  rename_i hc
  split
  · refine ⟨{ vq with ready := vq.complete }, by rw [List.getElem?_map, h, Option.map_some], fun ring => ?_⟩
    rw [nextHalf_status hs (low_ne_status ring), nextHalf_status hs (high_ne_status ring), if_neg hc, if_neg hc, ready_gpa]
    exact ⟨rfl, rfl⟩
  · refine ⟨vq, h, fun ring => ?_⟩
    rw [nextHalf_status hs (low_ne_status ring), nextHalf_status hs (high_ne_status ring), if_neg hc, if_neg hc]
    exact ⟨rfl, rfl⟩

private theorem exec_rings_other (hk : ops.KeepsQueues) (e : Endpoint π) {a : Access} {q : Nat} {vq : Virtqueue}
    (h : e.dev.queues[q]? = some vq) (hs : ¬ (a.isWrite = true ∧ registerAt a.offset = .status)) :
    ∃ vq', (e.exec ops a).2.dev.queues[q]? = some vq' ∧ Follows e.sel.queueSel a q vq vq' := by
  have hstep := exec_queue hk e a q hs
  cases hw : a.isWrite with
  | false =>
    rw [hw] at hstep
    refine ⟨vq, by rw [hstep, h]; rfl, fun ring => ?_⟩
    rw [nextHalf_keep hs (by simp [hw]), nextHalf_keep hs (by simp [hw])]
    exact ⟨rfl, rfl⟩
  | true =>
    rw [hw, if_pos rfl] at hstep
    cases heff : queueEffect ops e a.value (registerAt a.offset) with
    | none =>
      rw [heff] at hstep
      refine ⟨vq, hstep.trans h, fun ring => ?_⟩
      obtain ⟨hl, hh⟩ := no_effect heff ring
      rw [nextHalf_keep hs fun hc => hl hc.2.1, nextHalf_keep hs fun hc => hh hc.2.1]
      exact ⟨rfl, rfl⟩
    | some f =>
      rw [heff] at hstep
      dsimp only at hstep
      by_cases hq : e.sel.queueSel.toNat = q
      · rw [if_pos hq, h, Option.map_some] at hstep
        refine ⟨f vq, hstep, fun ring => ?_⟩
        rw [nextHalf_write hs hw hq, nextHalf_write hs hw hq]
        exact effect_halves heff ring vq
      · rw [if_neg hq] at hstep
        refine ⟨vq, hstep.trans h, fun ring => ?_⟩
        rw [nextHalf_keep hs fun hc => hq hc.2.2, nextHalf_keep hs fun hc => hq hc.2.2]
        exact ⟨rfl, rfl⟩

/-- The rings of one queue after one access. -/
private theorem exec_rings (hk : ops.KeepsQueues) (e : Endpoint π) (a : Access) {q : Nat} {vq : Virtqueue}
    (h : e.dev.queues[q]? = some vq) :
    ∃ vq', (e.exec ops a).2.dev.queues[q]? = some vq' ∧ Follows e.sel.queueSel a q vq vq' := by
  by_cases hs : a.isWrite = true ∧ registerAt a.offset = .status
  · exact exec_rings_status hk e h hs
  · exact exec_rings_other hk e h hs

end Step

section History

variable {ops : VirtioOps π}

theorem tagged_append (sel : Selectors) (history : List Access) (a : Access) :
    tagged sel (history ++ [a]) = tagged sel history ++ [((history.foldl Selectors.note sel).queueSel, a)] := by
  induction history generalizing sel with
  | nil => rfl
  | cons b history ih =>
    rw [List.cons_append, tagged, tagged, ih, List.foldl_cons, List.cons_append]

/-- A history that goes on with one access. -/
theorem lastWritten_append (reg : Register) (q : Nat) (start : U32) (history : List (U32 × Access)) (sel : U32) (a : Access) :
    lastWritten reg q start (history ++ [(sel, a)]) = nextHalf reg q sel a (lastWritten reg q start history) := by
  unfold lastWritten nextHalf
  rw [List.reverse_append, List.reverse_singleton, List.singleton_append, List.find?_cons]
  dsimp only
  by_cases hc : clearsRings a = true
  · simp only [hc, Bool.true_or, if_true]
  · rw [Bool.not_eq_true] at hc
    rw [hc, Bool.false_or, if_neg Bool.false_ne_true]
    by_cases hw : writesWhile reg q (sel, a) = true
    · simp only [hw, if_true, hc, Bool.false_eq_true, if_false]
    · rw [Bool.not_eq_true] at hw
      simp only [hw, Bool.false_eq_true, if_false]

/-- The rings of a queue after any history. -/
theorem run_rings (hk : ops.KeepsQueues) (e : Endpoint π) (history : List Access) {q : Nat} {vq : Virtqueue}
    (h : e.dev.queues[q]? = some vq) : ∃ vq', (run (Endpoint.exec ops) e history).2.dev.queues[q]? = some vq' ∧
      ∀ ring : Ring, ring.gpa vq' = ringAddress ring q (ring.gpa vq) (tagged e.sel history) := by
  suffices hhalves : ∃ vq', (run (Endpoint.exec ops) e history).2.dev.queues[q]? = some vq' ∧ ∀ ring : Ring,
      lowHalf (ring.gpa vq') = lastWritten ring.low q (lowHalf (ring.gpa vq)) (tagged e.sel history) ∧
      highHalf (ring.gpa vq') = lastWritten ring.high q (highHalf (ring.gpa vq)) (tagged e.sel history) by
    obtain ⟨vq', hvq', hring⟩ := hhalves
    refine ⟨vq', hvq', fun ring => ?_⟩
    rw [ringAddress, ← (hring ring).1, ← (hring ring).2, halves_append]
  induction history using List.reverseRecOn with
  | nil => exact ⟨vq, h, fun ring => ⟨rfl, rfl⟩⟩
  | append_singleton history a ih =>
    obtain ⟨vq₁, h₁, hring₁⟩ := ih
    obtain ⟨vq₂, h₂, hring₂⟩ := exec_rings hk (run (Endpoint.exec ops) e history).2 a h₁
    refine ⟨vq₂, by rw [run_append]; exact h₂, fun ring => ?_⟩
    obtain ⟨hl₁, hh₁⟩ := hring₁ ring
    obtain ⟨hl₂, hh₂⟩ := hring₂ ring
    rw [run_sel] at hl₂ hh₂
    rw [tagged_append, lastWritten_append, lastWritten_append, hl₂, hh₂, hl₁, hh₁]
    exact ⟨rfl, rfl⟩

end History

/-- The queues of a device after a history, and what the next access can do to them. -/
structure QueueLaw (ops : VirtioOps π) (e : Endpoint π) (history : List Access) (e' : Endpoint π) : Prop where
  rings : ∀ q vq, e.dev.queues[q]? = some vq → ∃ vq', e'.dev.queues[q]? = some vq' ∧
    ∀ ring : Ring, ring.gpa vq' = ringAddress ring q (ring.gpa vq) (tagged e.sel history)
  size : ∀ a q vq vq', e'.dev.queues[q]? = some vq → (e'.exec ops a).2.dev.queues[q]? = some vq' →
    vq'.queueSize ≠ vq.queueSize → a.isWrite = true ∧ registerAt a.offset = .queueNum ∧ e'.sel.queueSel.toNat = q ∧
      a.value = (ops.queueNumMax e'.dev e'.sel.queueSel).1.setWidth 32
  outOfRange : ∀ a, registerAt a.offset ≠ .status → e'.dev.queues.length ≤ e'.sel.queueSel.toNat →
    (e'.exec ops a).2.dev.queues = e'.dev.queues
  others : ∀ a q, registerAt a.offset ≠ .status → e'.sel.queueSel.toNat ≠ q →
    (e'.exec ops a).2.dev.queues[q]? = e'.dev.queues[q]?

section Law

variable {ops : VirtioOps π}

private theorem exec_others (hk : ops.KeepsQueues) (e : Endpoint π) (a : Access) {q : Nat}
    (hs : registerAt a.offset ≠ .status) (hq : e.sel.queueSel.toNat ≠ q) :
    (e.exec ops a).2.dev.queues[q]? = e.dev.queues[q]? := by
  rw [exec_queue hk e a q fun hc => hs hc.2]
  split
  · rw [if_neg hq]
  · rfl

private theorem exec_outOfRange (hk : ops.KeepsQueues) (e : Endpoint π) (a : Access) (hs : registerAt a.offset ≠ .status)
    (hq : e.dev.queues.length ≤ e.sel.queueSel.toNat) : (e.exec ops a).2.dev.queues = e.dev.queues := by
  rw [exec_queues hk, if_neg fun hc => hs hc.2]
  split
  · exact List.modify_eq_self hq
  · rfl

/-- The effects that keep the size of a queue. -/
private theorem effect_size {e : Endpoint π} {value : U32} {reg : Register} {f : Virtqueue → Virtqueue}
    (hf : queueEffect ops e value reg = some f) {vq : Virtqueue} (hne : (f vq).queueSize ≠ vq.queueSize) :
    reg = .queueNum ∧ value = (ops.queueNumMax e.dev e.sel.queueSel).1.setWidth 32 := by
  cases reg with
  | queueNum =>
    simp only [queueEffect] at hf
    split at hf
    · exact ⟨rfl, ‹_›⟩
    · cases hf
  | queueReady =>
    cases hf
    refine absurd ?_ hne
    unfold Virtqueue.writeReady
    split
    · rfl
    split <;> rfl
  | queueDescLow | queueDescHigh | queueDriverLow | queueDriverHigh | queueDeviceLow | queueDeviceHigh =>
    cases hf
    exact absurd rfl hne
  | _ => cases hf

private theorem status_size (value : U32) {queues : List Virtqueue} {q : Nat} {vq vq' : Virtqueue}
    (h : queues[q]? = some vq) (h' : (statusQueues value queues)[q]? = some vq') : vq'.queueSize = vq.queueSize := by
  unfold statusQueues at h'
  split at h'
  · rw [List.getElem?_map, h, Option.map_some] at h'
    cases h'
    rfl
  split at h'
  · rw [List.getElem?_map, h, Option.map_some] at h'
    cases h'
    rfl
  · rw [h] at h'
    cases h'
    rfl

private theorem exec_size (hk : ops.KeepsQueues) (e : Endpoint π) (a : Access) {q : Nat} {vq vq' : Virtqueue}
    (h : e.dev.queues[q]? = some vq) (h' : (e.exec ops a).2.dev.queues[q]? = some vq')
    (hne : vq'.queueSize ≠ vq.queueSize) : a.isWrite = true ∧ registerAt a.offset = .queueNum ∧
      e.sel.queueSel.toNat = q ∧ a.value = (ops.queueNumMax e.dev e.sel.queueSel).1.setWidth 32 := by
  by_cases hs : a.isWrite = true ∧ registerAt a.offset = .status
  · rw [exec_queues hk, if_pos hs] at h'
    exact absurd (status_size a.value h h') hne
  rw [exec_queue hk e a q hs] at h'
  split at h'
  · rename_i f hf
    split at hf
    · rename_i hw
      split at h'
      · rename_i hq
        rw [h, Option.map_some] at h'
        cases h'
        obtain ⟨hreg, hvalue⟩ := effect_size hf hne
        exact ⟨hw, hreg, hq, hvalue⟩
      · rw [h] at h'
        cases h'
        exact absurd rfl hne
    · cases hf
  · rw [h] at h'
    cases h'
    exact absurd rfl hne

end Law

/-- The queues of a registered device after any accesses to it and to other devices: every ring address is made of the
last halves written while its queue was selected, and writes other than `Status` reach the selected queue only. -/
theorem queue_config_follows_selection (ops : Nat → VirtioOps π) {dev : Nat} (hk : (ops dev).KeepsQueues)
    {s : VirtioRegistry π} (hm : dev ∈ s.registered) (calls : List VirtioCall)
    (hc : ∀ c ∈ calls, ∃ d a, c = .access d a) :
    QueueLaw (ops dev) (s.endpoint dev) (calls.filterMap (VirtioCall.accessTo dev))
      ((run (VirtioRegistry.exec ops) s calls).2.endpoint dev) := by
  have hadmitted : Admitted (VirtioRegistry.exec ops) (fun s c => c.Leaves dev ∧ c.Harmless dev s) s calls := by
    refine (admitted_of_forall hc s).imp fun s c => ?_
    rintro ⟨d, a, rfl⟩
    exact ⟨trivial, trivial⟩
  have hrun := congrArg Prod.snd (VirtioRegistry.run_endpoint hm hadmitted)
  dsimp only at hrun
  rw [← hrun]
  exact ⟨fun q vq h => run_rings hk _ _ h, fun a q vq vq' h h' hne => exec_size hk _ a h h' hne,
    fun a hs hq => exec_outOfRange hk _ a hs hq, fun a q hs hq => exec_others hk _ a hs hq⟩

private theorem idleOps_keepsQueues : idleOps.KeepsQueues :=
  ⟨fun _ _ => rfl, fun _ _ _ => rfl, fun _ _ => rfl, fun _ _ _ => rfl, fun _ _ => rfl, fun _ _ => rfl⟩

private def oneDevice : VirtioRegistry Unit :=
  ⟨[0], fun _ => .zero, .zero, fun _ => oneQueue.dev, fun _ => ⟨[], 0, []⟩⟩

/-- The high half first, with another queue selected in between. -/
private def ringWrites : List VirtioCall :=
  [.access 0 ⟨0x084#32, true, 1#32⟩, .access 0 ⟨0x030#32, true, 1#32⟩, .access 0 ⟨0x080#32, true, 0x2000#32⟩,
    .access 0 ⟨0x030#32, true, 0#32⟩, .access 0 ⟨0x080#32, true, 0x1000#32⟩]

theorem queue_config_follows_selection_interleaved :
    QueueLaw idleOps (oneDevice.endpoint 0) (ringWrites.filterMap (VirtioCall.accessTo 0))
      ((run (VirtioRegistry.exec fun _ => idleOps) oneDevice ringWrites).2.endpoint 0) ∧
    ringAddress .desc 0 0 (tagged .zero (ringWrites.filterMap (VirtioCall.accessTo 0))) = 0x100001000#64 :=
  ⟨queue_config_follows_selection (fun _ => idleOps) idleOps_keepsQueues (s := oneDevice) (by decide) ringWrites (by
    simp [ringWrites]), by decide⟩

/-- A reset while the selector is out of range: the descriptor address of queue 0 goes. -/
theorem reset_out_of_range :
    let e := (run (Endpoint.exec idleOps) oneQueue [⟨0x080#32, true, 0x1000#32⟩, ⟨0x030#32, true, 1#32⟩]).2
    e.dev.queues.length ≤ e.sel.queueSel.toNat ∧ (e.exec idleOps ⟨0x070#32, true, 0#32⟩).2.dev.queues ≠ e.dev.queues := by
  decide

end Relm.Virtio
