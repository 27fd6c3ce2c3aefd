import Relm.Virtio.Device
import Relm.Vm.Windows

/-! The registry of virtio devices. Selectors are kept by registry position, so registrations of other devices can
change them; this module says when they do not. -/
namespace Relm.Virtio
open Relm.Vm Relm.Lib.Run

variable {π : Type}

def relmVirtioMmioMaxDevices : Nat := 4
def relmVirtioMmioRegionSize : U64 := 0x1000#64

/-- The globals of the transport, the devices by their address and the memory of each VM. `slots` is
`g_selector_state`, `dummy` what devices outside the registry share. -/
structure VirtioRegistry (π : Type) where
  registered : List Nat
  slots : Nat → Selectors
  dummy : Selectors
  devices : Nat → VirtioDevice π
  memories : Nat → VmMemory

inductive VirtioCall
  | register (dev : Nat) (baseGpa : U64) (irq : U32)
  | unregister (dev : Nat)
  | access (dev : Nat) (a : Access)

inductive VirtioAnswer
  | registered (ret : Except Errno Unit)
  | unregistered
  | accessed (value : U32) (needsIrq : Bool)
  deriving DecidableEq

namespace VirtioRegistry

/-- A device of the registry is there and has its operations, so the `-EINVAL` of a NULL one cannot arise. -/
def relmVirtioMmioRegisterDevice (s : VirtioRegistry π) (dev : Nat) (baseGpa : U64) (irq : U32) :
    Except Errno Unit × VirtioRegistry π :=
  if relmVirtioMmioMaxDevices ≤ s.registered.length then (.error .enospc, s)
  else
    let d := s.devices dev
    match relmVmReserveMmioRegion (s.memories d.vm) baseGpa relmVirtioMmioRegionSize (some d.name) with
    | (.error e, _) => (.error e, s)
    | (.ok _, m) =>
      (.ok (), { s with registered := s.registered ++ [dev]
                        devices := Function.update s.devices dev { d with mmioBaseGpa := baseGpa, irq }
                        memories := Function.update s.memories d.vm m })

/-- The entries behind the device move down; `g_selector_state` stays as it is. -/
def relmVirtioMmioUnregisterDevice (s : VirtioRegistry π) (dev : Nat) : VirtioRegistry π :=
  if s.registered.contains dev then
    let d := s.devices dev
    { s with registered := s.registered.erase dev
             memories := Function.update s.memories d.vm (relmVmReleaseMmioRegion (s.memories d.vm) d.mmioBaseGpa) }
  else s

def selectorStateFor (s : VirtioRegistry π) (dev : Nat) : Selectors :=
  if s.registered.contains dev then s.slots (s.registered.idxOf dev) else s.dummy

/-- Write back through the pointer `selector_state_for` returned. -/
def setSelectors (s : VirtioRegistry π) (dev : Nat) (sel : Selectors) : VirtioRegistry π :=
  if s.registered.contains dev then { s with slots := Function.update s.slots (s.registered.idxOf dev) sel }
  else { s with dummy := sel }

/-- A device with its selectors. -/
def endpoint (s : VirtioRegistry π) (dev : Nat) : Endpoint π := ⟨s.selectorStateFor dev, s.devices dev⟩

def relmVirtioMmioRegisterAccess (ops : Nat → VirtioOps π) (s : VirtioRegistry π) (dev : Nat) (a : Access) :
    (U32 × Bool) × VirtioRegistry π :=
  let r := (s.endpoint dev).exec (ops dev) a
  (r.1, { s.setSelectors dev r.2.sel with devices := Function.update s.devices dev r.2.dev })

def exec (ops : Nat → VirtioOps π) (s : VirtioRegistry π) : VirtioCall → VirtioAnswer × VirtioRegistry π
  | .register dev baseGpa irq =>
    let r := s.relmVirtioMmioRegisterDevice dev baseGpa irq
    (.registered r.1, r.2)
  | .unregister dev => (.unregistered, s.relmVirtioMmioUnregisterDevice dev)
  | .access dev a =>
    let r := s.relmVirtioMmioRegisterAccess ops dev a
    (.accessed r.1.1 r.1.2, r.2)

end VirtioRegistry

namespace VirtioCall

/-- The accesses to one device. -/
def accessTo (dev : Nat) : VirtioCall → Option Access
  | .access d a => if d = dev then some a else none
  | _ => none

/-- Calls that neither register nor unregister a device. -/
def Leaves (dev : Nat) : VirtioCall → Prop
  | .register d _ _ => d ≠ dev
  | .unregister d => d ≠ dev
  | .access _ _ => True

/-- An entry before the device goes only when the position the device moves to holds the same selectors, and a new
device is entered only where the selectors are zero. A registration that is refused may come at any time. -/
def Harmless (dev : Nat) (s : VirtioRegistry π) : VirtioCall → Prop
  | .register d baseGpa _ => d ∉ s.registered → s.registered.length < relmVirtioMmioMaxDevices →
      reservable (s.memories (s.devices d).vm) baseGpa relmVirtioMmioRegionSize = true →
      s.slots s.registered.length = .zero
  | .unregister d => d ∈ s.registered → s.registered.idxOf d < s.registered.idxOf dev →
      s.slots (s.registered.idxOf dev - 1) = s.slots (s.registered.idxOf dev)
  | .access _ _ => True

/-- A device that a call enters into the registry starts with selectors 0. -/
def StartsZero (ops : Nat → VirtioOps π) (s : VirtioRegistry π) (c : VirtioCall) : Prop :=
  ∀ dev baseGpa irq, c = .register dev baseGpa irq → dev ∉ s.registered →
    (s.exec ops c).1 = .registered (.ok ()) → (s.exec ops c).2.selectorStateFor dev = .zero

end VirtioCall

/-- The value and the interrupt request of an access. -/
def VirtioAnswer.response : VirtioAnswer → U32 × Bool
  | .accessed value needsIrq => (value, needsIrq)
  | _ => (0, false)

section Positions

variable {l : List Nat} {a b : Nat}

/-- Where an entry is found after another one was removed. -/
theorem idxOf_erase (hne : b ≠ a) (ha : a ∈ l) (hb : b ∈ l) :
    (l.erase b).idxOf a = if l.idxOf b < l.idxOf a then l.idxOf a - 1 else l.idxOf a := by
  induction l with
  | nil => cases ha
  | cons x l ih =>
    by_cases hxb : x = b
    · subst hxb
      rw [List.erase_cons_head, List.idxOf_cons_self, List.idxOf_cons_ne _ hne, if_pos (Nat.succ_pos _)]
      rfl
    · have hbl : b ∈ l := List.mem_of_ne_of_mem (Ne.symm hxb) hb
      rw [List.erase_cons_tail (by simpa using hxb), List.idxOf_cons_ne _ hxb]
      by_cases hxa : x = a
      · subst hxa
        rw [List.idxOf_cons_self, List.idxOf_cons_self, if_neg (Nat.not_lt_zero _)]
      · have hal : a ∈ l := List.mem_of_ne_of_mem (Ne.symm hxa) ha
        rw [List.idxOf_cons_ne _ hxa, List.idxOf_cons_ne _ hxa, ih hal hbl]
        split <;> split <;> omega

end Positions

namespace VirtioRegistry

variable {ops : Nat → VirtioOps π} {s : VirtioRegistry π} {dev : Nat}

theorem selectorStateFor_mem (h : dev ∈ s.registered) : s.selectorStateFor dev = s.slots (s.registered.idxOf dev) :=
  if_pos (List.contains_iff_mem.mpr h)

/-- A registration fails and changes nothing, or enters the device last. -/
theorem register_cases (s : VirtioRegistry π) (dev : Nat) (baseGpa : U64) (irq : U32) :
    (∃ e, s.relmVirtioMmioRegisterDevice dev baseGpa irq = (.error e, s)) ∨
      (s.registered.length < relmVirtioMmioMaxDevices ∧
        reservable (s.memories (s.devices dev).vm) baseGpa relmVirtioMmioRegionSize = true) ∧
      ∃ memories, s.relmVirtioMmioRegisterDevice dev baseGpa irq =
        (.ok (), { s with registered := s.registered ++ [dev]
                          devices := Function.update s.devices dev { s.devices dev with mmioBaseGpa := baseGpa, irq }
                          memories }) := by
  unfold relmVirtioMmioRegisterDevice
  split
  · exact .inl ⟨_, rfl⟩
  · rename_i hlt
    dsimp only
    split
    · exact .inl ⟨_, rfl⟩
    · rename_i hok
      exact .inr ⟨⟨not_le.mp hlt, (reserve_ok_iff.mp (congrArg Prod.fst hok)).2⟩, _, rfl⟩

/-- Another device's registration leaves a registered device alone. -/
theorem endpoint_register {other : Nat} (hm : dev ∈ s.registered) (hne : other ≠ dev) (baseGpa : U64) (irq : U32) :
    dev ∈ (s.relmVirtioMmioRegisterDevice other baseGpa irq).2.registered ∧
      (s.relmVirtioMmioRegisterDevice other baseGpa irq).2.endpoint dev = s.endpoint dev := by
  rcases register_cases s other baseGpa irq with ⟨e, he⟩ | ⟨-, memories, he⟩
  · rw [he]
    exact ⟨hm, rfl⟩
  · rw [he]
    have hm' : dev ∈ s.registered ++ [other] := List.mem_append_left _ hm
    refine ⟨hm', ?_⟩
    rw [endpoint, endpoint, selectorStateFor_mem hm', selectorStateFor_mem hm, List.idxOf_append_of_mem hm]
    congr 1
    exact Function.update_of_ne (Ne.symm hne) _ _

/-- Another device's removal moves a registered device to selectors that hold the same values. -/
theorem endpoint_unregister {other : Nat} (hm : dev ∈ s.registered) (hne : other ≠ dev)
    (hh : VirtioCall.Harmless dev s (.unregister other)) :
    dev ∈ (s.relmVirtioMmioUnregisterDevice other).registered ∧
      (s.relmVirtioMmioUnregisterDevice other).endpoint dev = s.endpoint dev := by
  unfold relmVirtioMmioUnregisterDevice
  split
  · rename_i hc
    have ho : other ∈ s.registered := List.contains_iff_mem.mp hc
    have hm' : dev ∈ s.registered.erase other := (List.mem_erase_of_ne (Ne.symm hne)).mpr hm
    refine ⟨hm', ?_⟩
    rw [endpoint, endpoint, selectorStateFor_mem hm', selectorStateFor_mem hm]
    dsimp only
    rw [idxOf_erase hne hm ho]
    split
    · rename_i hlt
      rw [hh ho hlt]
    · rfl
  · exact ⟨hm, rfl⟩

/-- An access to a device is a step of its endpoint. -/
theorem endpoint_access_self (hm : dev ∈ s.registered) (a : Access) :
    (s.endpoint dev).exec (ops dev) a =
      ((s.relmVirtioMmioRegisterAccess ops dev a).1, (s.relmVirtioMmioRegisterAccess ops dev a).2.endpoint dev) := by
  have hset : s.registered.contains dev = true := List.contains_iff_mem.mpr hm
  simp only [relmVirtioMmioRegisterAccess, endpoint, selectorStateFor, setSelectors, hset, if_true, Function.update_self]

theorem setSelectors_registered (sel : Selectors) : (s.setSelectors dev sel).registered = s.registered := by
  rw [setSelectors]
  split <;> rfl

theorem access_registered (a : Access) : (s.relmVirtioMmioRegisterAccess ops dev a).2.registered = s.registered :=
  setSelectors_registered _

/-- Selectors of different devices are apart: at different positions, or one of them in the shared spare. -/
theorem selectorStateFor_setSelectors {other : Nat} (hm : dev ∈ s.registered) (hne : other ≠ dev) (sel : Selectors) :
    (s.setSelectors other sel).selectorStateFor dev = s.selectorStateFor dev := by
  have hset : s.registered.contains dev = true := List.contains_iff_mem.mpr hm
  rw [selectorStateFor, setSelectors_registered, hset, if_pos rfl, selectorStateFor_mem hm, setSelectors]
  split
  · rename_i ho
    refine Function.update_of_ne (fun heq => ?_) _ _
    exact hne ((List.idxOf_inj (List.contains_iff_mem.mp ho)).mp heq.symm)
  · rfl

theorem endpoint_access_other {other : Nat} (hm : dev ∈ s.registered) (hne : other ≠ dev) (a : Access) :
    (s.relmVirtioMmioRegisterAccess ops other a).2.endpoint dev = s.endpoint dev := by
  rw [endpoint, endpoint]
  congr 1
  · exact selectorStateFor_setSelectors hm hne _
  · exact Function.update_of_ne (Ne.symm hne) _ _

/-- What the run of a registered device keeps: it stays registered, and only its own accesses change its endpoint. -/
theorem run_endpoint {calls : List VirtioCall} (hm : dev ∈ s.registered)
    (h : Admitted (exec ops) (fun s c => c.Leaves dev ∧ c.Harmless dev s) s calls) :
    run (Endpoint.exec (ops dev)) (s.endpoint dev) (calls.filterMap (VirtioCall.accessTo dev)) =
      (localTrace (VirtioCall.accessTo dev) VirtioAnswer.response (run (exec ops) s calls).1,
        (run (exec ops) s calls).2.endpoint dev) := by
  refine run_view (fun s => s.endpoint dev) (fun s => dev ∈ s.registered) ?_ ?_ ?_ hm h
  · intro s c hm hc
    cases c with
    | register other baseGpa irq => exact (endpoint_register hm hc.1 baseGpa irq).1
    | unregister other => exact (endpoint_unregister hm hc.1 hc.2).1
    | access other a =>
      change dev ∈ (s.relmVirtioMmioRegisterAccess ops other a).2.registered
      rw [access_registered]
      exact hm
  · intro s c a hm hc hp
    cases c with
    | register other baseGpa irq => cases hp
    | unregister other => cases hp
    | access other a' =>
      simp only [VirtioCall.accessTo] at hp
      split at hp
      · rename_i heq
        obtain rfl := heq
        obtain rfl := Option.some.inj hp
        exact endpoint_access_self hm a'
      · cases hp
  · intro s c hm hc hp
    cases c with
    | register other baseGpa irq => exact (endpoint_register hm hc.1 baseGpa irq).2
    | unregister other => exact (endpoint_unregister hm hc.1 hc.2).2
    | access other a =>
      refine endpoint_access_other hm (fun heq => ?_) a
      rw [VirtioCall.accessTo, if_pos heq] at hp
      cases hp

end VirtioRegistry

/-- The selectors of an endpoint are the driver's last writes. -/
theorem run_sel (ops : VirtioOps π) (e : Endpoint π) (accesses : List Access) :
    (run (Endpoint.exec ops) e accesses).2.sel = accesses.foldl Selectors.note e.sel := by
  induction accesses generalizing e with
  | nil => rfl
  | cons a accesses ih =>
    rw [List.foldl_cons, ← Endpoint.exec_sel ops e a]
    exact ih _

theorem startsZero_of_harmless {ops : Nat → VirtioOps π} {s : VirtioRegistry π} {dev : Nat} {c : VirtioCall}
    (h : c.Harmless dev s) : c.StartsZero ops s := by
  rintro d baseGpa irq rfl hd hok
  rcases s.register_cases d baseGpa irq with ⟨e, he⟩ | ⟨⟨hlt, hpass⟩, memories, he⟩
  · simp only [VirtioRegistry.exec, he] at hok
    cases hok
  · simp only [VirtioRegistry.exec, he]
    rw [VirtioRegistry.selectorStateFor_mem (List.mem_append_right _ List.mem_cons_self)]
    dsimp only
    rw [List.idxOf_append_of_notMem hd, List.idxOf_cons_self]
    exact h hd hlt hpass

/-- Two runs that treat a registered device alike, whatever they do with the others: the device answers the same,
ends in the same state and keeps the selectors its driver wrote, and devices are entered with selectors 0. -/
theorem devices_do_not_interfere (ops : Nat → VirtioOps π) (dev : Nat) (s t : VirtioRegistry π)
    (hs : dev ∈ s.registered) (ht : dev ∈ t.registered) (heq : s.endpoint dev = t.endpoint dev)
    (calls others : List VirtioCall) (hsame : calls.filterMap (VirtioCall.accessTo dev) = others.filterMap (VirtioCall.accessTo dev))
    (hc : ∀ c ∈ calls, c.Leaves dev) (ho : ∀ c ∈ others, c.Leaves dev)
    (hsafe : Admitted (VirtioRegistry.exec ops) (fun s c => c.Harmless dev s) s calls)
    (tsafe : Admitted (VirtioRegistry.exec ops) (fun s c => c.Harmless dev s) t others) :
    localTrace (VirtioCall.accessTo dev) VirtioAnswer.response (run (VirtioRegistry.exec ops) s calls).1 =
        localTrace (VirtioCall.accessTo dev) VirtioAnswer.response (run (VirtioRegistry.exec ops) t others).1 ∧
      (run (VirtioRegistry.exec ops) s calls).2.endpoint dev = (run (VirtioRegistry.exec ops) t others).2.endpoint dev ∧
      (run (VirtioRegistry.exec ops) s calls).2.selectorStateFor dev =
        (calls.filterMap (VirtioCall.accessTo dev)).foldl Selectors.note (s.selectorStateFor dev) ∧
      Admitted (VirtioRegistry.exec ops) (fun s c => c.StartsZero ops s) s calls ∧
      Admitted (VirtioRegistry.exec ops) (fun s c => c.StartsZero ops s) t others := by
  have h1 := VirtioRegistry.run_endpoint hs ((admitted_of_forall hc s).and hsafe)
  have h2 := VirtioRegistry.run_endpoint ht ((admitted_of_forall ho t).and tsafe)
  rw [heq, hsame, h2] at h1
  obtain ⟨htrace, hend⟩ := Prod.mk.inj h1
  refine ⟨htrace.symm, hend.symm, ?_, hsafe.imp fun _ _ => startsZero_of_harmless,
    tsafe.imp fun _ _ => startsZero_of_harmless⟩
  have hsel := run_sel (ops dev) (s.endpoint dev) (calls.filterMap (VirtioCall.accessTo dev))
  rw [heq, hsame, h2] at hsel
  calc (run (VirtioRegistry.exec ops) s calls).2.selectorStateFor dev
      = ((run (VirtioRegistry.exec ops) s calls).2.endpoint dev).sel := rfl
    _ = ((run (VirtioRegistry.exec ops) t others).2.endpoint dev).sel := by rw [hend]
    _ = (others.filterMap (VirtioCall.accessTo dev)).foldl Selectors.note (t.endpoint dev).sel := hsel
    _ = (calls.filterMap (VirtioCall.accessTo dev)).foldl Selectors.note (s.selectorStateFor dev) := by
      rw [hsame, ← heq]
      rfl

/-- A device whose two feature words differ. -/
private def plainOps (_ : Nat) : VirtioOps Unit where
  deviceFeatures dev sel := (if sel == 0 then 0x200#32 else 1#32, dev)
  driverFeaturesAck dev _ _ := dev
  queueNumMax dev _ := (128#16, dev)
  configRead dev _ _ := (0, dev)
  queueNotify dev _ := (0, dev)
  statusChanged := none

/-- Devices 0 and 1 of one VM, registered in this order. -/
private def twoDevices : VirtioRegistry Unit where
  registered := [0, 1]
  slots _ := .zero
  dummy := .zero
  devices i :=
    { deviceId := 2, mmioBaseGpa := if i = 0 then 0xD0000000#64 else 0xD0001000#64, irq := 5, vm := 0, status := 0
      guestFeatures := 0, isr := 0, queues := [⟨128, 0, 0, 0, 0, false⟩], name := "virtio-blk", priv := () }
  memories _ :=
    { memRegions := [], totalGuestRam := 0
      mmioRegions := [⟨0xD0000000#64, 0x1000#64, mmioName "virtio-blk"⟩, ⟨0xD0001000#64, 0x1000#64, mmioName "virtio-blk"⟩] }

/-- Select the high feature word, then read it. -/
private def selectHigh (dev : Nat) : VirtioCall := .access dev ⟨0x014#32, true, 1#32⟩
private def readFeatures (dev : Nat) : VirtioCall := .access dev ⟨0x010#32, false, 0#32⟩

/-- In the second run a third device asks for the window of the first and is refused. -/
theorem devices_do_not_interfere_after :
    localTrace (VirtioCall.accessTo 0) VirtioAnswer.response
        (run (VirtioRegistry.exec plainOps) twoDevices [selectHigh 0, .unregister 1, readFeatures 0]).1 =
      localTrace (VirtioCall.accessTo 0) VirtioAnswer.response
        (run (VirtioRegistry.exec plainOps) twoDevices
          [selectHigh 0, .register 2 0xD0000000#64 5#32, selectHigh 1, readFeatures 0]).1 := by
  have hunplug : Admitted (VirtioRegistry.exec plainOps) (fun s c => c.Harmless 0 s) twoDevices
      [selectHigh 0, .unregister 1, readFeatures 0] := ⟨trivial, fun _ h => absurd h (by decide), trivial, trivial⟩
  have hother : Admitted (VirtioRegistry.exec plainOps) (fun s c => c.Harmless 0 s) twoDevices
      [selectHigh 0, .register 2 0xD0000000#64 5#32, selectHigh 1, readFeatures 0] :=
    ⟨trivial, fun _ _ h => absurd h (by decide), trivial, trivial, trivial⟩
  refine (devices_do_not_interfere plainOps 0 twoDevices twoDevices (by decide) (by decide) rfl
    [selectHigh 0, .unregister 1, readFeatures 0]
    [selectHigh 0, .register 2 0xD0000000#64 5#32, selectHigh 1, readFeatures 0] rfl ?_ ?_ hunplug hother).1
  · simp [VirtioCall.Leaves, selectHigh, readFeatures]
  · simp [VirtioCall.Leaves, selectHigh, readFeatures]

/-- Unplugging device 0 between a select and a read of device 1 makes the read return the other feature word; and a
third device then takes over the selector that device 1 wrote. -/
theorem unplug_moves_selectors :
    localTrace (VirtioCall.accessTo 1) VirtioAnswer.response
        (run (VirtioRegistry.exec plainOps) twoDevices [selectHigh 1, .unregister 0, readFeatures 1]).1 =
      [(⟨0x014#32, true, 1#32⟩, (1#32, false)), (⟨0x010#32, false, 0#32⟩, (0x200#32, false))] ∧
    localTrace (VirtioCall.accessTo 1) VirtioAnswer.response
        (run (VirtioRegistry.exec plainOps) twoDevices [selectHigh 1, readFeatures 1]).1 =
      [(⟨0x014#32, true, 1#32⟩, (1#32, false)), (⟨0x010#32, false, 0#32⟩, (1#32, false))] ∧
    (run (VirtioRegistry.exec plainOps) twoDevices
        [selectHigh 1, .unregister 0, .register 2 0xD0002000#64 5#32]).2.selectorStateFor 2 = ⟨1, 0, 0⟩ := by
  refine ⟨by decide, by decide, by decide⟩

end Relm.Virtio
