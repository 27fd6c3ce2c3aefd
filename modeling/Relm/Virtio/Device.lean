import Relm.Host.Pages
import Relm.Lib.Run

/-! A virtio device behind its MMIO register block: the registers, the callbacks of the device, and one guest access. -/
namespace Relm.Virtio

/-- `struct relm_virtqueue`. -/
structure Virtqueue where
  queueSize : U64
  descGpa : U64
  availGpa : U64
  usedGpa : U64
  lastAvailIdx : BitVec 16
  ready : Bool
  deriving DecidableEq

/-- `struct relm_virtio_device` with the private state of the device around it. `queues` holds the first
`queue_count` entries of the array, the only ones an access reaches. -/
structure VirtioDevice (π : Type) where
  deviceId : U32
  mmioBaseGpa : U64
  irq : U32
  vm : Nat
  status : Byte
  guestFeatures : U32
  isr : Byte
  queues : List Virtqueue
  name : String
  priv : π

/-- `struct relm_virtio_device_ops`: a callback sees its own device only and may change it. -/
structure VirtioOps (π : Type) where
  deviceFeatures : VirtioDevice π → U32 → U32 × VirtioDevice π
  driverFeaturesAck : VirtioDevice π → U32 → U32 → VirtioDevice π
  queueNumMax : VirtioDevice π → U32 → BitVec 16 × VirtioDevice π
  configRead : VirtioDevice π → U32 → Nat → U32 × VirtioDevice π
  queueNotify : VirtioDevice π → U32 → Int × VirtioDevice π
  statusChanged : Option (VirtioDevice π → Byte → VirtioDevice π)

/-- `struct mmio_selector_state`. -/
structure Selectors where
  deviceFeaturesSel : U32
  driverFeaturesSel : U32
  queueSel : U32
  deriving DecidableEq

def Selectors.zero : Selectors := ⟨0, 0, 0⟩

/-- A guest access; `value` is what a write stores. -/
structure Access where
  offset : U32
  isWrite : Bool
  value : U32
  deriving DecidableEq

/-- What an access acts on: a device and the selectors found for it. -/
structure Endpoint (π : Type) where
  sel : Selectors
  dev : VirtioDevice π

inductive Register
  | magicValue | version | deviceId | vendorId | deviceFeatures | deviceFeaturesSel | driverFeatures
  | driverFeaturesSel | queueSel | queueNumMax | queueNum | queueReady | queueNotify | interruptStatus | interruptAck
  | status | queueDescLow | queueDescHigh | queueDriverLow | queueDriverHigh | queueDeviceLow | queueDeviceHigh
  | configGeneration | config (offset : U32) | unhandled
  deriving DecidableEq

def virtioMmioConfigOff : U32 := 0x100#32

def registerTable : List (U32 × Register) :=
  [(0x000#32, .magicValue), (0x004#32, .version), (0x008#32, .deviceId), (0x00c#32, .vendorId),
   (0x010#32, .deviceFeatures), (0x014#32, .deviceFeaturesSel), (0x020#32, .driverFeatures),
   (0x024#32, .driverFeaturesSel), (0x030#32, .queueSel), (0x034#32, .queueNumMax), (0x038#32, .queueNum),
   (0x044#32, .queueReady), (0x050#32, .queueNotify), (0x060#32, .interruptStatus), (0x064#32, .interruptAck),
   (0x070#32, .status), (0x080#32, .queueDescLow), (0x084#32, .queueDescHigh), (0x090#32, .queueDriverLow),
   (0x094#32, .queueDriverHigh), (0x0a0#32, .queueDeviceLow), (0x0a4#32, .queueDeviceHigh),
   (0x0fc#32, .configGeneration)]

/-- The case of the `switch` an offset selects. -/
def registerAt (offset : U32) : Register :=
  if virtioMmioConfigOff ≤ offset then .config (offset - virtioMmioConfigOff)
  else (registerTable.lookup offset).getD .unhandled

def virtioMmioValue : U32 := 0x74726976#32
def virtioMmioVersionModern : U32 := 2#32
def relmVirtioVendorId : U32 := 0x52454C4D#32
def virtioConfigSDriverOk : U32 := 4#32
def virtioConfigSFailed : U32 := 0x80#32

def setLow (gpa : U64) (value : U32) : U64 := (gpa &&& 0xFFFFFFFF00000000#64) ||| value.setWidth 64
def setHigh (gpa : U64) (value : U32) : U64 := (gpa &&& 0x00000000FFFFFFFF#64) ||| (value.setWidth 64 <<< 32)

namespace Virtqueue

/-- All three ring addresses are set. -/
def complete (vq : Virtqueue) : Bool := vq.descGpa != 0 && vq.availGpa != 0 && vq.usedGpa != 0

/-- What a write of `QueueReady` does to the selected queue. -/
def writeReady (status : Byte) (value : U32) (vq : Virtqueue) : Virtqueue :=
  if value == 0 then { vq with ready := false }
  else if vq.descGpa == 0 || vq.availGpa == 0 || vq.usedGpa == 0 then vq
  else { vq with ready := status &&& 4#8 != 0 }

/-- A reset or failed device loses its rings; the queue size stays. -/
def reset (vq : Virtqueue) : Virtqueue :=
  { vq with ready := false, descGpa := 0, availGpa := 0, usedGpa := 0, lastAvailIdx := 0 }

end Virtqueue

section Access

variable {π : Type}

/-- The queue loops of a `Status` write. -/
def statusQueues (value : U32) (queues : List Virtqueue) : List Virtqueue :=
  if value == 0 || value &&& virtioConfigSFailed != 0 then queues.map Virtqueue.reset
  else if value &&& virtioConfigSDriverOk != 0 then queues.map fun vq => { vq with ready := vq.complete }
  else queues

/-- The part of a queue that belongs to the transport; the device only moves its read position. -/
def Virtqueue.transport (vq : Virtqueue) : Virtqueue := { vq with lastAvailIdx := 0 }

/-- What a callback may do to its device: change the private state and the read positions. -/
structure VirtioDevice.Confined (dev next : VirtioDevice π) : Prop where
  deviceId : next.deviceId = dev.deviceId
  mmioBaseGpa : next.mmioBaseGpa = dev.mmioBaseGpa
  irq : next.irq = dev.irq
  vm : next.vm = dev.vm
  status : next.status = dev.status
  guestFeatures : next.guestFeatures = dev.guestFeatures
  isr : next.isr = dev.isr
  queues : next.queues.map Virtqueue.transport = dev.queues.map Virtqueue.transport
  name : next.name = dev.name

/-- The optional callback at the end of a `Status` write. -/
def VirtioOps.notifyStatus (ops : VirtioOps π) (dev : VirtioDevice π) (status : Byte) : VirtioDevice π :=
  match ops.statusChanged with
  | some changed => changed dev status
  | none => dev

/-- The callbacks leave the registers of the transport to the transport. -/
structure VirtioOps.Confined (ops : VirtioOps π) : Prop where
  deviceFeatures : ∀ (dev : VirtioDevice π) sel, dev.Confined (ops.deviceFeatures dev sel).2
  driverFeaturesAck : ∀ (dev : VirtioDevice π) sel value, dev.Confined (ops.driverFeaturesAck dev sel value)
  queueNumMax : ∀ (dev : VirtioDevice π) queue, dev.Confined (ops.queueNumMax dev queue).2
  configRead : ∀ (dev : VirtioDevice π) offset size, dev.Confined (ops.configRead dev offset size).2
  queueNotify : ∀ (dev : VirtioDevice π) queue, dev.Confined (ops.queueNotify dev queue).2
  notifyStatus : ∀ (dev : VirtioDevice π) status, dev.Confined (ops.notifyStatus dev status)

namespace Endpoint

/-- A register that only reads. -/
def answer (e : Endpoint π) (isWrite : Bool) (value v : U32) : (U32 × Bool) × Endpoint π :=
  ((if isWrite then value else v, false), e)

/-- A register that reads through a callback. -/
def query (e : Endpoint π) (isWrite : Bool) (value : U32) (r : U32 × VirtioDevice π) : (U32 × Bool) × Endpoint π :=
  if isWrite then ((value, false), e) else ((r.1, false), { e with dev := r.2 })

/-- A register that only writes. -/
def store (e : Endpoint π) (isWrite : Bool) (value : U32) (next : Endpoint π) : (U32 × Bool) × Endpoint π :=
  ((value, false), if isWrite then next else e)

/-- Change the selected queue; nothing happens when the selector is out of range. -/
def modifyQueue (e : Endpoint π) (f : Virtqueue → Virtqueue) : Endpoint π :=
  { e with dev.queues := e.dev.queues.modify e.sel.queueSel.toNat f }

def writeDriverFeatures (ops : VirtioOps π) (e : Endpoint π) (value : U32) : Endpoint π :=
  let dev := ops.driverFeaturesAck e.dev e.sel.driverFeaturesSel value
  { e with dev := if e.sel.driverFeaturesSel == 0 then { dev with guestFeatures := value } else dev }

def writeQueueNum (ops : VirtioOps π) (e : Endpoint π) (value : U32) : Endpoint π :=
  let r := ops.queueNumMax e.dev e.sel.queueSel
  let e := { e with dev := r.2 }
  if value != r.1.setWidth 32 then e
  else e.modifyQueue fun vq => { vq with queueSize := (value.setWidth 16).setWidth 64 }

def accessQueueReady (e : Endpoint π) (isWrite : Bool) (value : U32) : (U32 × Bool) × Endpoint π :=
  match e.dev.queues[e.sel.queueSel.toNat]? with
  | none => e.answer isWrite value 0
  | some vq =>
    if isWrite then ((value, false), e.modifyQueue (Virtqueue.writeReady e.dev.status value))
    else ((if vq.ready then 1 else 0, false), e)

def accessQueueNotify (ops : VirtioOps π) (e : Endpoint π) (isWrite : Bool) (value : U32) :
    (U32 × Bool) × Endpoint π :=
  if isWrite then
    let r := ops.queueNotify e.dev value
    if r.1 > 0 then ((value, true), { e with dev := { r.2 with isr := r.2.isr ||| 1#8 } })
    else ((value, false), { e with dev := r.2 })
  else ((0, false), e)

def writeStatus (ops : VirtioOps π) (e : Endpoint π) (value : U32) : Endpoint π :=
  let dev := { e.dev with status := value.setWidth 8, queues := statusQueues value e.dev.queues }
  { e with dev := ops.notifyStatus dev (value.setWidth 8) }

/-- `relm_virtio_mmio_register_access_locked` once the selectors are found; the answer is the value and whether an
interrupt is wanted. -/
def access (ops : VirtioOps π) (e : Endpoint π) (offset : U32) (isWrite : Bool) (value : U32) :
    (U32 × Bool) × Endpoint π :=
  match registerAt offset with
  | .config off => e.query isWrite value (ops.configRead e.dev off 4)
  | .magicValue => e.answer isWrite value virtioMmioValue
  | .version => e.answer isWrite value virtioMmioVersionModern
  | .deviceId => e.answer isWrite value e.dev.deviceId
  | .vendorId => e.answer isWrite value relmVirtioVendorId
  | .deviceFeatures => e.query isWrite value (ops.deviceFeatures e.dev e.sel.deviceFeaturesSel)
  | .deviceFeaturesSel => e.store isWrite value { e with sel.deviceFeaturesSel := value }
  | .driverFeatures => e.store isWrite value (e.writeDriverFeatures ops value)
  | .driverFeaturesSel => e.store isWrite value { e with sel.driverFeaturesSel := value }
  | .queueSel => e.store isWrite value { e with sel.queueSel := value }
  | .queueNumMax =>
    let r := ops.queueNumMax e.dev e.sel.queueSel
    e.query isWrite value (r.1.setWidth 32, r.2)
  | .queueNum => e.store isWrite value (e.writeQueueNum ops value)
  | .queueReady => e.accessQueueReady isWrite value
  | .queueNotify => e.accessQueueNotify ops isWrite value
  | .interruptStatus => e.answer isWrite value (e.dev.isr.setWidth 32)
  | .interruptAck => e.store isWrite value { e with dev.isr := e.dev.isr &&& ~~~(value.setWidth 8) }
  | .status =>
    if isWrite then ((value, false), e.writeStatus ops value) else ((e.dev.status.setWidth 32, false), e)
  | .queueDescLow => e.store isWrite value (e.modifyQueue fun vq => { vq with descGpa := setLow vq.descGpa value })
  | .queueDescHigh => e.store isWrite value (e.modifyQueue fun vq => { vq with descGpa := setHigh vq.descGpa value })
  | .queueDriverLow => e.store isWrite value (e.modifyQueue fun vq => { vq with availGpa := setLow vq.availGpa value })
  | .queueDriverHigh => e.store isWrite value (e.modifyQueue fun vq => { vq with availGpa := setHigh vq.availGpa value })
  | .queueDeviceLow => e.store isWrite value (e.modifyQueue fun vq => { vq with usedGpa := setLow vq.usedGpa value })
  | .queueDeviceHigh => e.store isWrite value (e.modifyQueue fun vq => { vq with usedGpa := setHigh vq.usedGpa value })
  | .configGeneration => e.answer isWrite value 0
  | .unhandled => e.answer isWrite value 0

/-- One access as a step. -/
def exec (ops : VirtioOps π) (e : Endpoint π) (a : Access) : (U32 × Bool) × Endpoint π :=
  e.access ops a.offset a.isWrite a.value

end Endpoint

/-- The selectors as the driver last wrote them. -/
def Selectors.note (sel : Selectors) (a : Access) : Selectors :=
  if a.isWrite then
    match registerAt a.offset with
    | .deviceFeaturesSel => { sel with deviceFeaturesSel := a.value }
    | .driverFeaturesSel => { sel with driverFeaturesSel := a.value }
    | .queueSel => { sel with queueSel := a.value }
    | _ => sel
  else sel

namespace Endpoint

variable (ops : VirtioOps π) (e : Endpoint π) (value : U32)

@[simp] theorem writeQueueNum_sel : (e.writeQueueNum ops value).sel = e.sel := by
  dsimp only [writeQueueNum]
  split <;> rfl

@[simp] theorem accessQueueReady_sel (isWrite : Bool) : (e.accessQueueReady isWrite value).2.sel = e.sel := by
  rw [accessQueueReady]
  split
  · rfl
  · split <;> rfl

@[simp] theorem accessQueueNotify_sel (isWrite : Bool) : (e.accessQueueNotify ops isWrite value).2.sel = e.sel := by
  rw [accessQueueNotify]
  split
  · dsimp only
    split <;> rfl
  · rfl

@[simp] theorem query_sel (isWrite : Bool) (r : U32 × VirtioDevice π) : (e.query isWrite value r).2.sel = e.sel := by
  rw [query]
  split <;> rfl

/-- An access changes the selectors of its device only by writing them. -/
theorem exec_sel (a : Access) : (e.exec ops a).2.sel = e.sel.note a := by
  obtain ⟨offset, isWrite, value⟩ := a
  simp only [exec, access, Selectors.note]
  generalize registerAt offset = reg
  cases reg <;> cases isWrite <;> simp [answer, store, modifyQueue, writeDriverFeatures, writeStatus]

end Endpoint

end Access

end Relm.Virtio
