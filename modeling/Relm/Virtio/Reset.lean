import Relm.Virtio.Device

/-! What a device reset by the driver forgets, and what of the history stays behind. -/
namespace Relm.Virtio
open Relm.Lib.Run

variable {π : Type}

/-- The driver writes 0 to `Status`. -/
def resetWrite : Access := ⟨0x070#32, true, 0#32⟩

/-- The device after a history and a reset. -/
def afterReset (ops : VirtioOps π) (e : Endpoint π) (history : List Access) : Endpoint π :=
  (run (Endpoint.exec ops) e (history ++ [resetWrite])).2

/-- After a reset the two histories cannot be told apart: later accesses answer the same and configure the same
queues, and no selector, interrupt bit or feature is left over. -/
structure ResetForgets (ops : VirtioOps π) (e : Endpoint π) (h h' : List Access) : Prop where
  answers : ∀ later, (run (Endpoint.exec ops) (afterReset ops e h) later).1 =
    (run (Endpoint.exec ops) (afterReset ops e h') later).1
  queues : ∀ later, (run (Endpoint.exec ops) (afterReset ops e h) later).2.dev.queues =
    (run (Endpoint.exec ops) (afterReset ops e h') later).2.dev.queues
  selectors : (afterReset ops e h).sel = (afterReset ops e h').sel
  isr : (afterReset ops e h).dev.isr = (afterReset ops e h').dev.isr
  guestFeatures : (afterReset ops e h).dev.guestFeatures = (afterReset ops e h').dev.guestFeatures

/-- Two states that agree on what a reset does not clear. -/
structure SameLeftovers (e e' : Endpoint π) : Prop where
  selectors : e.sel = e'.sel
  isr : e.dev.isr = e'.dev.isr
  guestFeatures : e.dev.guestFeatures = e'.dev.guestFeatures
  queueSizes : e.dev.queues.map Virtqueue.queueSize = e'.dev.queues.map Virtqueue.queueSize

/-- The fields that no access changes. -/
structure SameIdentity (dev next : VirtioDevice π) : Prop where
  deviceId : next.deviceId = dev.deviceId
  mmioBaseGpa : next.mmioBaseGpa = dev.mmioBaseGpa
  irq : next.irq = dev.irq
  vm : next.vm = dev.vm
  name : next.name = dev.name

section

variable {ops : VirtioOps π}

theorem SameIdentity.rfl {dev : VirtioDevice π} : SameIdentity dev dev := ⟨Eq.refl _, Eq.refl _, Eq.refl _, Eq.refl _, Eq.refl _⟩

theorem SameIdentity.trans {a b c : VirtioDevice π} (h : SameIdentity a b) (h' : SameIdentity b c) : SameIdentity a c :=
  ⟨h'.deviceId.trans h.deviceId, h'.mmioBaseGpa.trans h.mmioBaseGpa, h'.irq.trans h.irq, h'.vm.trans h.vm,
    h'.name.trans h.name⟩

theorem VirtioDevice.Confined.identity {dev next : VirtioDevice π} (h : dev.Confined next) : SameIdentity dev next :=
  ⟨h.deviceId, h.mmioBaseGpa, h.irq, h.vm, h.name⟩

theorem writeDriverFeatures_identity (h : ops.Confined) (e : Endpoint π) (value : U32) :
    SameIdentity e.dev (e.writeDriverFeatures ops value).dev := by
  have hc := (h.driverFeaturesAck e.dev e.sel.driverFeaturesSel value).identity
  dsimp only [Endpoint.writeDriverFeatures]
  split
  · exact ⟨hc.deviceId, hc.mmioBaseGpa, hc.irq, hc.vm, hc.name⟩
  · exact hc

theorem writeQueueNum_identity (h : ops.Confined) (e : Endpoint π) (value : U32) :
    SameIdentity e.dev (e.writeQueueNum ops value).dev := by
  have hc := (h.queueNumMax e.dev e.sel.queueSel).identity
  dsimp only [Endpoint.writeQueueNum]
  split
  · exact hc
  · exact ⟨hc.deviceId, hc.mmioBaseGpa, hc.irq, hc.vm, hc.name⟩

theorem accessQueueNotify_identity (h : ops.Confined) (e : Endpoint π) (isWrite : Bool) (value : U32) :
    SameIdentity e.dev (e.accessQueueNotify ops isWrite value).2.dev := by
  have hc := (h.queueNotify e.dev value).identity
  rw [Endpoint.accessQueueNotify]
  split
  · dsimp only
    split
    · exact ⟨hc.deviceId, hc.mmioBaseGpa, hc.irq, hc.vm, hc.name⟩
    · exact hc
  · exact .rfl

theorem accessQueueReady_identity (e : Endpoint π) (isWrite : Bool) (value : U32) :
    SameIdentity e.dev (e.accessQueueReady isWrite value).2.dev := by
  rw [Endpoint.accessQueueReady]
  split
  · exact .rfl
  · split
    · exact ⟨rfl, rfl, rfl, rfl, rfl⟩
    · exact .rfl

theorem exec_identity (h : ops.Confined) (e : Endpoint π) (a : Access) : SameIdentity e.dev (e.exec ops a).2.dev := by
  obtain ⟨offset, isWrite, value⟩ := a
  simp only [Endpoint.exec, Endpoint.access]
  generalize registerAt offset = reg
  cases isWrite with
  | false =>
    cases reg with
    | config off => exact (h.configRead _ _ _).identity
    | deviceFeatures => exact (h.deviceFeatures _ _).identity
    | queueNumMax => exact (h.queueNumMax _ _).identity
    | queueReady => exact accessQueueReady_identity e false value
    | _ => exact .rfl
  | true =>
    cases reg with
    | status =>
      have hc := (h.notifyStatus { e.dev with status := value.setWidth 8, queues := statusQueues value e.dev.queues }
        (value.setWidth 8)).identity
      exact ⟨hc.deviceId, hc.mmioBaseGpa, hc.irq, hc.vm, hc.name⟩
    | queueReady => exact accessQueueReady_identity e true value
    | driverFeatures => exact writeDriverFeatures_identity h e value
    | queueNum => exact writeQueueNum_identity h e value
    | queueNotify => exact accessQueueNotify_identity h e true value
    | _ => exact ⟨rfl, rfl, rfl, rfl, rfl⟩

theorem run_identity (h : ops.Confined) (e : Endpoint π) (history : List Access) :
    SameIdentity e.dev (run (Endpoint.exec ops) e history).2.dev := by
  induction history generalizing e with
  | nil => exact .rfl
  | cons a history ih => exact (exec_identity h e a).trans (ih _)

/-- The device after a reset: rings gone, private state as new, the rest as it was. -/
theorem afterReset_eq {fresh : π} (hr : ∀ dev : VirtioDevice π, ops.notifyStatus dev 0 = { dev with priv := fresh })
    (e : Endpoint π) (history : List Access) :
    let before := (run (Endpoint.exec ops) e history).2
    afterReset ops e history =
      { before with dev := { before.dev with status := 0, queues := before.dev.queues.map Virtqueue.reset, priv := fresh } } := by
  dsimp only
  rw [afterReset, run_append]
  generalize (run (Endpoint.exec ops) e history).2 = before
  change before.writeStatus ops 0 = _
  rw [Endpoint.writeStatus]
  dsimp only
  rw [show BitVec.setWidth 8 (0 : U32) = 0 from rfl, hr]
  rfl

private theorem map_reset (queues : List Virtqueue) :
    queues.map Virtqueue.reset = (queues.map Virtqueue.queueSize).map fun size => ⟨size, 0, 0, 0, 0, false⟩ := by
  rw [List.map_map]
  rfl

private theorem reset_sizes (queues : List Virtqueue) :
    (queues.map Virtqueue.reset).map Virtqueue.queueSize = queues.map Virtqueue.queueSize := by
  rw [List.map_map]
  rfl

/-- A reset makes two histories indistinguishable exactly when they left the same selectors, interrupt bits,
features and queue sizes, none of which it clears. -/
theorem reset_forgets_iff (hc : ops.Confined) (fresh : π)
    (hr : ∀ dev : VirtioDevice π, ops.notifyStatus dev 0 = { dev with priv := fresh }) (e : Endpoint π) (h h' : List Access) :
    ResetForgets ops e h h' ↔
      SameLeftovers (run (Endpoint.exec ops) e h).2 (run (Endpoint.exec ops) e h').2 := by
  have he := afterReset_eq hr e h
  have he' := afterReset_eq hr e h'
  have hi := run_identity hc e h
  have hi' := run_identity hc e h'
  dsimp only at he he'
  constructor
  · intro hf
    refine ⟨?_, ?_, ?_, ?_⟩
    · have hs := hf.selectors
      rwa [he, he'] at hs
    · have hs := hf.isr
      rwa [he, he'] at hs
    · have hs := hf.guestFeatures
      rwa [he, he'] at hs
    · have hs := congrArg (List.map Virtqueue.queueSize) (hf.queues [])
      rw [he, he'] at hs
      dsimp only [run] at hs
      rwa [reset_sizes, reset_sizes] at hs
  · intro hl
    have heq : afterReset ops e h = afterReset ops e h' := by
      rw [he, he', hl.selectors, hl.isr, hl.guestFeatures, map_reset, map_reset, hl.queueSizes, hi.deviceId,
        hi.mmioBaseGpa, hi.irq, hi.vm, hi.name, hi'.deviceId, hi'.mmioBaseGpa, hi'.irq, hi'.vm, hi'.name]
    exact ⟨fun later => by rw [heq], fun later => by rw [heq], by rw [heq], by rw [heq], by rw [heq]⟩

/-- A device that completes one request at every notification. -/
private def servingOps : VirtioOps Unit where
  deviceFeatures dev _ := (0, dev)
  driverFeaturesAck dev _ _ := dev
  queueNumMax dev _ := (128#16, dev)
  configRead dev _ _ := (0, dev)
  queueNotify dev _ := (1, dev)
  statusChanged := none

private theorem confined_self (dev : VirtioDevice π) : dev.Confined dev := ⟨rfl, rfl, rfl, rfl, rfl, rfl, rfl, rfl, rfl⟩

private theorem servingOps_confined : servingOps.Confined where
  deviceFeatures _ _ := confined_self _
  driverFeaturesAck _ _ _ := confined_self _
  queueNumMax _ _ := confined_self _
  configRead _ _ _ := confined_self _
  queueNotify _ _ := confined_self _
  notifyStatus _ _ := confined_self _

private def running : Endpoint Unit where
  sel := .zero
  dev :=
    { deviceId := 2, mmioBaseGpa := 0xD0000000#64, irq := 5, vm := 0, status := 7, guestFeatures := 0, isr := 0
      queues := [⟨128, 0x1000, 0x2000, 0x3000, 0, true⟩], name := "virtio-blk", priv := () }

theorem reset_forgets_iff_rings : ResetForgets servingOps running [⟨0x080#32, true, 0x9000#32⟩] [] := by
  refine (reset_forgets_iff servingOps_confined () (fun _ => rfl) running _ _).mpr ⟨?_, ?_, ?_, ?_⟩ <;> decide

/-- A pending interrupt survives the reset: the next read of `InterruptStatus` tells the histories apart. -/
theorem interrupt_survives_reset :
    (run (Endpoint.exec servingOps) (afterReset servingOps running [⟨0x050#32, true, 0#32⟩])
        [⟨0x060#32, false, 0#32⟩]).1 = [(⟨0x060#32, false, 0#32⟩, (1#32, false))] ∧
    (run (Endpoint.exec servingOps) (afterReset servingOps running []) [⟨0x060#32, false, 0#32⟩]).1 =
      [(⟨0x060#32, false, 0#32⟩, (0#32, false))] ∧
    ¬ ResetForgets servingOps running [⟨0x050#32, true, 0#32⟩] [] := by
  refine ⟨by decide, by decide, fun h => ?_⟩
  have hisr := h.isr
  exact absurd hisr (by decide)

end

end Relm.Virtio
