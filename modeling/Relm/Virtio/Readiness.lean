import Relm.Virtio.Device

/-! When a virtqueue may be used: `ready` against the ring addresses, the device status and what the driver wrote. -/
namespace Relm.Virtio
open Relm.Lib.Run

variable {π : Type}

/-- What the driver has written: its selectors, and its last `QueueReady` for each queue since the last reset. -/
structure DriverView where
  sel : Selectors
  lastReady : Nat → Option U32

def DriverView.note (v : DriverView) (a : Access) : DriverView where
  sel := v.sel.note a
  lastReady :=
    if a.isWrite then
      match registerAt a.offset with
      | .queueReady => Function.update v.lastReady v.sel.queueSel.toNat (some a.value)
      | .status => if a.value = 0 then fun _ => none else v.lastReady
      | _ => v.lastReady
    else v.lastReady

/-- An endpoint next to the record of what its driver wrote. -/
structure Watched (π : Type) where
  view : DriverView
  endpoint : Endpoint π

namespace Watched

def start (e : Endpoint π) : Watched π := ⟨⟨e.sel, fun _ => none⟩, e⟩

def exec (ops : VirtioOps π) (w : Watched π) (a : Access) : (U32 × Bool) × Watched π :=
  let r := w.endpoint.exec ops a
  (r.1, ⟨w.view.note a, r.2⟩)

end Watched

def driverOk (status : Byte) : Bool := status &&& 4#8 != 0
def failed (status : Byte) : Bool := status &&& 0x80#8 != 0

/-- The driver's last word on a queue is that it is ready. -/
def DriverView.Announced (v : DriverView) (i : Nat) : Prop := ∃ value, v.lastReady i = some value ∧ value ≠ 0

/-- What `ready` stands for. -/
def ReadyQueues (w : Watched π) : Prop :=
  ∀ i vq, w.endpoint.dev.queues[i]? = some vq → vq.ready = true →
    vq.complete = true ∧ driverOk w.endpoint.dev.status = true ∧ failed w.endpoint.dev.status = false ∧ w.view.Announced i

/-- The registers that hold half of a ring address. -/
def ringWrite : Register → Option (U32 → Virtqueue → Virtqueue)
  | .queueDescLow => some fun value vq => { vq with descGpa := setLow vq.descGpa value }
  | .queueDescHigh => some fun value vq => { vq with descGpa := setHigh vq.descGpa value }
  | .queueDriverLow => some fun value vq => { vq with availGpa := setLow vq.availGpa value }
  | .queueDriverHigh => some fun value vq => { vq with availGpa := setHigh vq.availGpa value }
  | .queueDeviceLow => some fun value vq => { vq with usedGpa := setLow vq.usedGpa value }
  | .queueDeviceHigh => some fun value vq => { vq with usedGpa := setHigh vq.usedGpa value }
  | _ => none

/-- The selected queue. -/
def Endpoint.selected (e : Endpoint π) : Option Virtqueue := e.dev.queues[e.sel.queueSel.toNat]?

/-- A `Status` write that sets up no queue the driver did not announce and leaves none behind, a `QueueReady` write
on a device that has not failed, and address writes that keep a ready queue complete. -/
def Orderly (w : Watched π) (a : Access) : Prop :=
  a.isWrite = true →
    (registerAt a.offset = .status → a.value ≠ 0 → a.value &&& virtioConfigSFailed = 0 →
      if a.value &&& virtioConfigSDriverOk != 0 then
        ∀ i vq, w.endpoint.dev.queues[i]? = some vq → vq.complete = true → w.view.Announced i
      else ∀ vq ∈ w.endpoint.dev.queues, vq.ready = false) ∧
    (registerAt a.offset = .queueReady → a.value ≠ 0 → ∀ vq, w.endpoint.selected = some vq → vq.complete = true →
      driverOk w.endpoint.dev.status = true → failed w.endpoint.dev.status = false) ∧
    ∀ f, ringWrite (registerAt a.offset) = some f → ∀ vq, w.endpoint.selected = some vq → vq.ready = true →
      (f a.value vq).complete = true

section Rings

variable {ops : VirtioOps π}

/-- The fields of a queue that readiness is about. -/
def Virtqueue.rings (vq : Virtqueue) : U64 × U64 × U64 × Bool := (vq.descGpa, vq.availGpa, vq.usedGpa, vq.ready)

/-- Two devices that do not differ in what readiness is about. -/
structure SameRings (dev next : VirtioDevice π) : Prop where
  status : next.status = dev.status
  queues : next.queues.map Virtqueue.rings = dev.queues.map Virtqueue.rings

theorem SameRings.rfl {dev : VirtioDevice π} : SameRings dev dev := ⟨Eq.refl _, Eq.refl _⟩

theorem SameRings.trans {a b c : VirtioDevice π} (h : SameRings a b) (h' : SameRings b c) : SameRings a c :=
  ⟨h'.status.trans h.status, h'.queues.trans h.queues⟩

theorem sameRings_of_confined {dev next : VirtioDevice π} (h : dev.Confined next) : SameRings dev next where
  status := h.status
  queues := by
    have hq := congrArg (List.map Virtqueue.rings) h.queues
    rwa [List.map_map, List.map_map] at hq

/-- A queue of one device has a counterpart in the other with the same rings. -/
theorem SameRings.queue {dev next : VirtioDevice π} (h : SameRings dev next) {i : Nat} {vq : Virtqueue}
    (hq : next.queues[i]? = some vq) : ∃ old, dev.queues[i]? = some old ∧ old.rings = vq.rings := by
  have hr := congrArg (·[i]?) h.queues
  simp only [List.getElem?_map, hq, Option.map_some] at hr
  obtain ⟨old, ho, heq⟩ := Option.map_eq_some_iff.mp hr.symm
  exact ⟨old, ho, heq⟩

theorem rings_ready {v w : Virtqueue} (h : v.rings = w.rings) : v.ready = w.ready := congrArg (·.2.2.2) h

theorem rings_complete {v w : Virtqueue} (h : v.rings = w.rings) : v.complete = w.complete := by
  have h1 : v.descGpa = w.descGpa := congrArg (·.1) h
  have h2 : v.availGpa = w.availGpa := congrArg (·.2.1) h
  have h3 : v.usedGpa = w.usedGpa := congrArg (·.2.2.1) h
  rw [Virtqueue.complete, Virtqueue.complete, h1, h2, h3]

/-- Changing a queue without touching its rings. -/
theorem sameRings_modify (dev : VirtioDevice π) (i : Nat) {f : Virtqueue → Virtqueue} (hf : ∀ vq, (f vq).rings = vq.rings) :
    SameRings dev { dev with queues := dev.queues.modify i f } := by
  refine ⟨rfl, List.ext_getElem? fun j => ?_⟩
  rw [List.getElem?_map, List.getElem?_map, List.getElem?_modify]
  cases dev.queues[j]? with
  | none => rfl
  | some vq =>
    refine congrArg some ?_
    dsimp only
    split
    · exact hf vq
    · rfl

theorem writeDriverFeatures_rings (h : ops.Confined) (e : Endpoint π) (value : U32) :
    SameRings e.dev (e.writeDriverFeatures ops value).dev := by
  have hc := sameRings_of_confined (h.driverFeaturesAck e.dev e.sel.driverFeaturesSel value)
  dsimp only [Endpoint.writeDriverFeatures]
  split
  · exact ⟨hc.status, hc.queues⟩
  · exact hc

theorem writeQueueNum_rings (h : ops.Confined) (e : Endpoint π) (value : U32) :
    SameRings e.dev (e.writeQueueNum ops value).dev := by
  have hc := sameRings_of_confined (h.queueNumMax e.dev e.sel.queueSel)
  dsimp only [Endpoint.writeQueueNum]
  split
  · exact hc
  · exact hc.trans (sameRings_modify _ _ fun vq => rfl)

theorem accessQueueNotify_rings (h : ops.Confined) (e : Endpoint π) (isWrite : Bool) (value : U32) :
    SameRings e.dev (e.accessQueueNotify ops isWrite value).2.dev := by
  have hc := sameRings_of_confined (h.queueNotify e.dev value)
  rw [Endpoint.accessQueueNotify]
  split
  · dsimp only
    split
    · exact ⟨hc.status, hc.queues⟩
    · exact hc
  · exact .rfl

/-- Accesses that leave readiness alone: reads, and writes of the other registers. -/
theorem exec_quiet (h : ops.Confined) (e : Endpoint π) (a : Access)
    (hq : a.isWrite = true → registerAt a.offset ≠ .status ∧ registerAt a.offset ≠ .queueReady ∧
      ringWrite (registerAt a.offset) = none) : SameRings e.dev (e.exec ops a).2.dev := by
  obtain ⟨offset, isWrite, value⟩ := a
  simp only [Endpoint.exec, Endpoint.access]
  cases isWrite with
  | false =>
    generalize registerAt offset = reg
    cases reg with
    | config off => exact sameRings_of_confined (h.configRead _ _ _)
    | deviceFeatures => exact sameRings_of_confined (h.deviceFeatures _ _)
    | queueNumMax => exact sameRings_of_confined (h.queueNumMax _ _)
    | queueReady =>
      dsimp only [Endpoint.accessQueueReady]
      split <;> exact .rfl
    | _ => exact .rfl
  | true =>
    obtain ⟨h1, h2, h3⟩ := hq rfl
    dsimp only at h1 h2 h3
    generalize registerAt offset = reg at h1 h2 h3 ⊢
    cases reg with
    | status => exact absurd rfl h1
    | queueReady => exact absurd rfl h2
    | queueDescLow => cases h3
    | queueDescHigh => cases h3
    | queueDriverLow => cases h3
    | queueDriverHigh => cases h3
    | queueDeviceLow => cases h3
    | queueDeviceHigh => cases h3
    | driverFeatures => exact writeDriverFeatures_rings h e value
    | queueNum => exact writeQueueNum_rings h e value
    | queueNotify => exact accessQueueNotify_rings h e true value
    | interruptAck => exact ⟨rfl, rfl⟩
    | _ => exact .rfl

theorem exec_status (h : ops.Confined) (e : Endpoint π) (a : Access) (hw : a.isWrite = true)
    (hr : registerAt a.offset = .status) :
    SameRings { e.dev with status := a.value.setWidth 8, queues := statusQueues a.value e.dev.queues }
      (e.exec ops a).2.dev := by
  simp only [Endpoint.exec, Endpoint.access, hr, hw, if_true]
  exact sameRings_of_confined (h.notifyStatus _ _)

theorem exec_queueReady (e : Endpoint π) (a : Access) (hw : a.isWrite = true) (hr : registerAt a.offset = .queueReady) :
    (e.exec ops a).2 = e.modifyQueue (Virtqueue.writeReady e.dev.status a.value) := by
  simp only [Endpoint.exec, Endpoint.access, hr, hw, Endpoint.accessQueueReady, if_true]
  split
  · rename_i hnone
    rw [Endpoint.answer, Endpoint.modifyQueue, List.modify_eq_self (List.getElem?_eq_none_iff.mp hnone)]
  · rfl

theorem exec_ringWrite (e : Endpoint π) (a : Access) (hw : a.isWrite = true) {f : U32 → Virtqueue → Virtqueue}
    (hr : ringWrite (registerAt a.offset) = some f) : (e.exec ops a).2 = e.modifyQueue (f a.value) := by
  simp only [Endpoint.exec, Endpoint.access, hw]
  generalize registerAt a.offset = reg at hr ⊢
  cases reg <;> first | cases hr; rfl | cases hr

/-- A queue after the selected one was changed: another queue, or the changed one. -/
theorem modifyQueue_queue {e : Endpoint π} {f : Virtqueue → Virtqueue} {i : Nat} {vq : Virtqueue}
    (h : (e.modifyQueue f).dev.queues[i]? = some vq) :
    (i ≠ e.sel.queueSel.toNat ∧ e.dev.queues[i]? = some vq) ∨
      (i = e.sel.queueSel.toNat ∧ ∃ old, e.selected = some old ∧ vq = f old) := by
  change (e.dev.queues.modify e.sel.queueSel.toNat f)[i]? = some vq at h
  by_cases hi : e.sel.queueSel.toNat = i
  · subst hi
    rw [List.getElem?_modify_eq] at h
    obtain ⟨old, ho, heq⟩ := Option.map_eq_some_iff.mp h
    exact .inr ⟨rfl, old, ho, heq.symm⟩
  · rw [List.getElem?_modify_ne _ _ hi] at h
    exact .inl ⟨fun hc => hi hc.symm, h⟩

end Rings

section Status

private theorem and_twoPow_bne {w : Nat} (x : BitVec w) (i : Nat) (hi : i < w) :
    (x &&& BitVec.twoPow w i != 0) = x.getLsbD i := by
  rw [BitVec.and_twoPow]
  cases x.getLsbD i with
  | false => simp
  | true =>
    rw [if_pos rfl, bne_iff_ne]
    intro hc
    have hbit := congrArg (·.getLsbD i) hc
    simp [hi] at hbit

/-- The status bits survive the narrowing of a written value to a byte. -/
theorem driverOk_setWidth (value : U32) : driverOk (value.setWidth 8) = (value &&& virtioConfigSDriverOk != 0) := by
  have h8 := and_twoPow_bne (value.setWidth 8) 2 (by decide)
  have h32 := and_twoPow_bne value 2 (by decide)
  rw [BitVec.getLsbD_setWidth] at h8
  exact h8.trans (Eq.trans (by simp) h32.symm)

theorem failed_setWidth (value : U32) : failed (value.setWidth 8) = (value &&& virtioConfigSFailed != 0) := by
  have h8 := and_twoPow_bne (value.setWidth 8) 7 (by decide)
  have h32 := and_twoPow_bne value 7 (by decide)
  rw [BitVec.getLsbD_setWidth] at h8
  exact h8.trans (Eq.trans (by simp) h32.symm)

end Status

section Invariant

variable {ops : VirtioOps π} {w : Watched π} {a : Access}

/-- Only `QueueReady` and `Status` writes change what the driver announced. -/
theorem note_lastReady (v : DriverView) (h : a.isWrite = true → registerAt a.offset ≠ .status ∧ registerAt a.offset ≠ .queueReady) :
    (v.note a).lastReady = v.lastReady := by
  rw [DriverView.note]
  dsimp only
  split
  · rename_i hw
    obtain ⟨h1, h2⟩ := h hw
    split
    · rename_i hr
      exact absurd hr h2
    · rename_i hr
      exact absurd hr h1
    · rfl
  · rfl

/-- Readiness speaks of the rings, the status and the announcements only. -/
theorem readyQueues_congr {w' : Watched π} (h : ReadyQueues w) (hr : SameRings w.endpoint.dev w'.endpoint.dev)
    (hl : w'.view.lastReady = w.view.lastReady) : ReadyQueues w' := by
  intro i vq hq hready
  obtain ⟨old, ho, heq⟩ := hr.queue hq
  obtain ⟨h1, h2, h3, value, h4, h5⟩ := h i old ho ((rings_ready heq).trans hready)
  rw [hr.status]
  exact ⟨(rings_complete heq).symm.trans h1, h2, h3, value, by rw [hl, h4], h5⟩

theorem readyQueues_status (hc : ops.Confined) (ho : Orderly w a) (hw : a.isWrite = true)
    (hr : registerAt a.offset = .status) : ReadyQueues (w.exec ops a).2 := by
  intro i vq hq hready
  have hs := exec_status hc w.endpoint a hw hr
  have hstatus : (w.exec ops a).2.endpoint.dev.status = a.value.setWidth 8 := hs.status
  obtain ⟨old, hold, heq⟩ := hs.queue hq
  have hready' : old.ready = true := (rings_ready heq).trans hready
  change (statusQueues a.value w.endpoint.dev.queues)[i]? = some old at hold
  have hcond := (ho hw).1 hr
  rw [statusQueues] at hold
  split at hold
  · rw [List.getElem?_map] at hold
    obtain ⟨q, -, rfl⟩ := Option.map_eq_some_iff.mp hold
    cases hready'
  · rename_i hlive
    simp only [Bool.or_eq_true, not_or, beq_iff_eq, bne_iff_ne, ne_eq, not_not] at hlive
    have hcond := hcond hlive.1 hlive.2
    split at hold
    · rename_i hdrv
      rw [if_pos hdrv] at hcond
      rw [List.getElem?_map] at hold
      obtain ⟨q, hq', rfl⟩ := Option.map_eq_some_iff.mp hold
      have hcomplete : q.complete = true := hready'
      obtain ⟨value, hv, hne⟩ := hcond i q hq' hcomplete
      refine ⟨(rings_complete heq).symm.trans hcomplete, ?_, ?_, value, ?_, hne⟩
      · rw [hstatus]
        exact (driverOk_setWidth a.value).trans hdrv
      · rw [hstatus]
        exact (failed_setWidth a.value).trans (bne_eq_false_iff_eq.mpr hlive.2)
      · change (w.view.note a).lastReady i = some value
        simp only [DriverView.note, hw, hr, if_true, if_neg hlive.1]
        exact hv
    · rename_i hdrv
      rw [if_neg hdrv] at hcond
      rw [hcond old (List.mem_of_getElem? hold)] at hready'
      cases hready'

theorem readyQueues_queueReady (ho : Orderly w a) (h : ReadyQueues w) (hsel : w.view.sel = w.endpoint.sel)
    (hw : a.isWrite = true) (hr : registerAt a.offset = .queueReady) : ReadyQueues (w.exec ops a).2 := by
  have hlast : (w.view.note a).lastReady =
      Function.update w.view.lastReady w.endpoint.sel.queueSel.toNat (some a.value) := by
    simp only [DriverView.note, hw, hr, if_true, hsel]
  intro i vq hq hready
  change (w.endpoint.exec ops a).2.dev.queues[i]? = some vq at hq
  change _ ∧ driverOk (w.endpoint.exec ops a).2.dev.status = true ∧
    failed (w.endpoint.exec ops a).2.dev.status = false ∧ (w.view.note a).Announced i
  rw [exec_queueReady w.endpoint a hw hr] at hq ⊢
  change _ ∧ driverOk w.endpoint.dev.status = true ∧ failed w.endpoint.dev.status = false ∧ _
  rw [DriverView.Announced, hlast]
  rcases modifyQueue_queue hq with ⟨hne, hq'⟩ | ⟨rfl, old, hold, rfl⟩
  · rw [Function.update_of_ne hne]
    exact h i vq hq' hready
  · rw [Function.update_self]
    rw [Virtqueue.writeReady] at hready ⊢
    split at hready
    · cases hready
    · rename_i hv
      rw [if_neg hv]
      have hv : a.value ≠ 0 := by simpa using hv
      split at hready
      · rename_i hinc
        -- a ready queue has its three addresses, so this branch is not taken
        obtain ⟨hcomp, -⟩ := h _ old hold hready
        simp only [Virtqueue.complete, Bool.and_eq_true, bne_iff_ne] at hcomp
        simp only [Bool.or_eq_true, beq_iff_eq] at hinc
        rcases hinc with (hd | ha) | hu
        · exact absurd hd hcomp.1.1
        · exact absurd ha hcomp.1.2
        · exact absurd hu hcomp.2
      · rename_i hinc
        rw [if_neg hinc]
        have hcomp : old.complete = true := by
          simp only [Bool.or_eq_true, beq_iff_eq, not_or] at hinc
          simp only [Virtqueue.complete, Bool.and_eq_true, bne_iff_ne]
          exact hinc
        exact ⟨hcomp, hready, (ho hw).2.1 hr hv old hold hcomp hready, a.value, rfl, hv⟩

private theorem ringWrite_ready {reg : Register} {f : U32 → Virtqueue → Virtqueue} (h : ringWrite reg = some f)
    (value : U32) (vq : Virtqueue) : (f value vq).ready = vq.ready := by
  cases reg <;> first | cases h; rfl | cases h

theorem readyQueues_ringWrite (ho : Orderly w a) (h : ReadyQueues w) (hw : a.isWrite = true)
    {f : U32 → Virtqueue → Virtqueue} (hr : ringWrite (registerAt a.offset) = some f) :
    ReadyQueues (w.exec ops a).2 := by
  have hlast : (w.view.note a).lastReady = w.view.lastReady := by
    refine note_lastReady _ fun _ => ⟨fun hc => ?_, fun hc => ?_⟩ <;>
    · rw [hc] at hr
      cases hr
  intro i vq hq hready
  change (w.endpoint.exec ops a).2.dev.queues[i]? = some vq at hq
  change _ ∧ driverOk (w.endpoint.exec ops a).2.dev.status = true ∧
    failed (w.endpoint.exec ops a).2.dev.status = false ∧ (w.view.note a).Announced i
  rw [exec_ringWrite w.endpoint a hw hr] at hq ⊢
  change _ ∧ driverOk w.endpoint.dev.status = true ∧ failed w.endpoint.dev.status = false ∧ _
  rw [DriverView.Announced, hlast]
  rcases modifyQueue_queue hq with ⟨-, hq'⟩ | ⟨rfl, old, hold, rfl⟩
  · exact h i vq hq' hready
  · have hready' : old.ready = true := (ringWrite_ready hr _ _).symm.trans hready
    obtain ⟨-, hrest⟩ := h _ old hold hready'
    exact ⟨(ho hw).2.2 f hr old hold hready', hrest⟩

/-- One orderly access keeps `ready` truthful. -/
theorem readyQueues_step (hc : ops.Confined) (ho : Orderly w a) (h : ReadyQueues w)
    (hsel : w.view.sel = w.endpoint.sel) : ReadyQueues (w.exec ops a).2 := by
  by_cases hw : a.isWrite = true
  · by_cases hs : registerAt a.offset = .status
    · exact readyQueues_status hc ho hw hs
    · by_cases hq : registerAt a.offset = .queueReady
      · exact readyQueues_queueReady ho h hsel hw hq
      · cases hr : ringWrite (registerAt a.offset) with
        | some f => exact readyQueues_ringWrite ho h hw hr
        | none => exact readyQueues_congr h (exec_quiet hc _ a fun _ => ⟨hs, hq, hr⟩) (note_lastReady _ fun _ => ⟨hs, hq⟩)
  · exact readyQueues_congr h (exec_quiet hc _ a fun hc => absurd hc hw) (note_lastReady _ fun hc => absurd hc hw)

/-- Every run of orderly accesses from a device with no ready queue: a ready queue has its rings, the device runs
and has not failed, and the driver's last word was that the queue is ready. -/
theorem ready_queues_set_up (hc : ops.Confined) (e : Endpoint π) (h0 : ∀ vq ∈ e.dev.queues, vq.ready = false)
    (accesses : List Access) (h : Admitted (Watched.exec ops) Orderly (Watched.start e) accesses) :
    ReadyQueues (run (Watched.exec ops) (Watched.start e) accesses).2 := by
  have hinv : ReadyQueues (run (Watched.exec ops) (Watched.start e) accesses).2 ∧
      (run (Watched.exec ops) (Watched.start e) accesses).2.view.sel =
        (run (Watched.exec ops) (Watched.start e) accesses).2.endpoint.sel := by
    refine run_invariant (P := fun _ (w : Watched π) => ReadyQueues w ∧ w.view.sel = w.endpoint.sel) ?_ ⟨?_, rfl⟩ h
    · rintro tr w a ⟨hw, hsel⟩ ho
      refine ⟨readyQueues_step hc ho hw hsel, ?_⟩
      change w.view.sel.note a = (w.endpoint.exec ops a).2.sel
      rw [Endpoint.exec_sel, hsel]
    · intro i vq hq hready
      rw [h0 vq (List.mem_of_getElem? hq)] at hready
      cases hready
  exact hinv.1

/-- A device with one queue and nothing behind it. -/
def idleOps : VirtioOps Unit where
  deviceFeatures dev _ := (0, dev)
  driverFeaturesAck dev _ _ := dev
  queueNumMax dev _ := (128#16, dev)
  configRead dev _ _ := (0, dev)
  queueNotify dev _ := (0, dev)
  statusChanged := none

theorem confined_refl (dev : VirtioDevice π) : dev.Confined dev := ⟨rfl, rfl, rfl, rfl, rfl, rfl, rfl, rfl, rfl⟩

theorem idleOps_confined : idleOps.Confined where
  deviceFeatures _ _ := confined_refl _
  driverFeaturesAck _ _ _ := confined_refl _
  queueNumMax _ _ := confined_refl _
  configRead _ _ _ := confined_refl _
  queueNotify _ _ := confined_refl _
  notifyStatus _ _ := confined_refl _

def oneQueue : Endpoint Unit where
  sel := .zero
  dev :=
    { deviceId := 2, mmioBaseGpa := 0xD0000000#64, irq := 5, vm := 0, status := 3, guestFeatures := 0, isr := 0
      queues := [⟨128, 0, 0, 0, 0, false⟩], name := "virtio-blk", priv := () }

private def write (offset value : U32) : Access := ⟨offset, true, value⟩

/-- The three ring addresses of the selected queue. -/
private def setRings : List Access := [write 0x080 0x1000, write 0x090 0x2000, write 0x0a0 0x3000]

private theorem orderly_idle {w : Watched Unit} {offset value : U32} (h : ∀ vq ∈ w.endpoint.dev.queues, vq.ready = false)
    (hs : registerAt offset ≠ .status) (hq : registerAt offset ≠ .queueReady) : Orderly w (write offset value) := by
  refine fun _ => ⟨fun hc => absurd hc hs, fun hc => absurd hc hq, fun f _ vq hv hready => ?_⟩
  rw [h vq (List.mem_of_getElem? hv)] at hready
  cases hready

theorem ready_queues_set_up_driver : ReadyQueues
    (run (Watched.exec idleOps) (Watched.start oneQueue) (setRings ++ [write 0x044 1, write 0x070 7])).2 := by
  refine ready_queues_set_up idleOps_confined oneQueue (by decide) _ ?_
  refine ⟨orderly_idle (by decide) (by decide) (by decide), orderly_idle (by decide) (by decide) (by decide),
    orderly_idle (by decide) (by decide) (by decide), ?_, ?_, trivial⟩
  · refine fun _ => ⟨fun hc => absurd hc (by decide), fun _ _ _ _ _ hd => absurd hd (by decide), fun f hf => ?_⟩
    cases hf
  · refine fun _ => ⟨fun _ _ _ => ?_, fun hc => absurd hc (by decide), fun f hf => ?_⟩
    · rw [if_pos (by decide)]
      intro i vq hq _
      have hi : i = 0 := by
        have hlt := (List.getElem?_eq_some_iff.mp hq).1
        exact Nat.lt_one_iff.mp hlt
      subst hi
      exact ⟨1, by decide, by decide⟩
    · cases hf

/-- The driver sets the rings and then `DRIVER_OK`, and never writes `QueueReady`: the queue is ready all the same. -/
theorem ready_without_queueReady : ¬ ReadyQueues
    (run (Watched.exec idleOps) (Watched.start oneQueue) (setRings ++ [write 0x070 7])).2 := by
  intro h
  obtain ⟨-, -, -, value, hv, -⟩ := h 0 ⟨128, 0x1000, 0x2000, 0x3000, 0, true⟩ (by decide) rfl
  have hnone : (run (Watched.exec idleOps) (Watched.start oneQueue) (setRings ++ [write 0x070 7])).2.view.lastReady 0 =
      none := by decide
  rw [hnone] at hv
  cases hv

end Invariant

end Relm.Virtio
