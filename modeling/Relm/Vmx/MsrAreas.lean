import Relm.Vmx.Vmcs

/-! The three MSR areas of a VCPU, and what the processor does with them at VM entries and VM exits. -/
namespace Relm.Vmx

abbrev MsrIndex := BitVec 32

def msrIa32ApicBase : MsrIndex := 0x1B#32
def ia32SysenterCs : MsrIndex := 0x174#32
def msrIa32Efer : MsrIndex := 0xC0000080#32
def msrIa32Star : MsrIndex := 0xC0000081#32
def msrIa32Lstar : MsrIndex := 0xC0000082#32
def msrIa32Cstar : MsrIndex := 0xC0000083#32
def msrIa32Fmask : MsrIndex := 0xC0000084#32
def msrIa32FsBase : MsrIndex := 0xC0000100#32
def msrIa32GsBase : MsrIndex := 0xC0000101#32

/-- `struct msr_entry`. -/
structure MsrEntry where
  index : MsrIndex
  reserved : BitVec 32
  value : U64

/-- The areas with the pages they lie on. -/
structure MsrAreas where
  vmexitStorePa : U64
  vmexitStore : List MsrEntry
  vmexitLoadPa : U64
  vmexitLoad : List MsrEntry
  vmentryLoadPa : U64
  vmentryLoad : List MsrEntry

/-- `get_order` of a positive size: the least order whose block covers it. -/
def getOrder (size : Nat) : Nat := if (size - 1) / 4096 = 0 then 0 else Nat.log2 ((size - 1) / 4096) + 1

/-- Block order for a number of entries of 16 bytes, rounded up to whole pages first. -/
def msrAreaOrder (count : Nat) : Nat := getOrder ((16 * count + 4095) / 4096 * 4096)

def populateMsrLoadArea (indices : List MsrIndex) (values : List U64) : List MsrEntry :=
  List.zipWith (fun index value => ⟨index, 0, value⟩) indices values

def populateMsrStoreArea (indices : List MsrIndex) : List MsrEntry := indices.map fun index => ⟨index, 0, 0⟩

/-- Three allocations, undone in reverse when a later one fails; then the areas are filled. The only caller passes
the values, so the exit-load area is filled from the same list as the entry-load area. -/
def relmSetupMsrAreas (h : Host) (vmexitList vmentryList : List MsrIndex) (vmentryValues : List U64) :
    Except Errno MsrAreas × Host :=
  if vmexitList.length > 65535 ∨ vmentryList.length > 65535 then (.error .einval, h)
  else
    let storeOrder := msrAreaOrder vmexitList.length
    let loadOrder := msrAreaOrder vmentryList.length
    match h.getFreePages storeOrder with
    | (none, h) => (.error .enomem, h)
    | (some store, h) =>
      match h.getFreePages loadOrder with
      | (none, h) => (.error .enomem, h.freePages store storeOrder)
      | (some exitLoad, h) =>
        match h.getFreePages loadOrder with
        | (none, h) => (.error .enomem, (h.freePages exitLoad loadOrder).freePages store storeOrder)
        | (some entryLoad, h) =>
          (.ok { vmexitStorePa := store, vmexitStore := populateMsrStoreArea vmexitList,
                 vmexitLoadPa := exitLoad, vmexitLoad := populateMsrLoadArea vmentryList vmentryValues,
                 vmentryLoadPa := entryLoad, vmentryLoad := populateMsrLoadArea vmentryList vmentryValues }, h)

/-- `vcpu->arch.msr_indices`. -/
def managedMsrs : List MsrIndex :=
  [msrIa32Efer, msrIa32Star, msrIa32Lstar, msrIa32Cstar, msrIa32Fmask, msrIa32FsBase, msrIa32GsBase]

/-- The guest's initial values; FS and GS base come from `vcpu->arch.regs`. -/
def guestMsrValues (fsBase gsBase : U64) : List U64 := [eferLme ||| eferLma ||| eferSce, 0, 0, 0, 0, fsBase, gsBase]

def relmVcpuSetupMsrState (h : Host) (fsBase gsBase : U64) : Except Errno MsrAreas × Host :=
  relmSetupMsrAreas h managedMsrs managedMsrs (guestMsrValues fsBase gsBase)

/-- The MSRs of the processor. -/
abbrev Msrs := MsrIndex → U64

/-- Load every MSR of an area, in order. -/
def loadMsrs (area : List MsrEntry) (msrs : Msrs) : Msrs :=
  area.foldl (fun msrs e i => if i = e.index then e.value else msrs i) msrs

/-- Store every MSR of an area. -/
def storeMsrs (area : List MsrEntry) (msrs : Msrs) : List MsrEntry := area.map fun e => { e with value := msrs e.index }

/-- The processor, and the areas in memory. -/
structure SwitchState where
  msrs : Msrs
  areas : MsrAreas

def vmEntry (s : SwitchState) : SwitchState := { s with msrs := loadMsrs s.areas.vmentryLoad s.msrs }

/-- The exit stores first and loads afterwards. -/
def vmExit (s : SwitchState) : SwitchState :=
  let areas := { s.areas with vmexitStore := storeMsrs s.areas.vmexitStore s.msrs }
  { msrs := loadMsrs areas.vmexitLoad s.msrs, areas }

/-- WRMSR by the guest, one after the other. -/
def guestWrites (writes : List (MsrIndex × U64)) (s : SwitchState) : SwitchState :=
  { s with msrs := writes.foldl (fun msrs w i => if i = w.1 then w.2 else msrs i) s.msrs }

/-- Stay in the guest: entry, writes, exit. -/
def round (s : SwitchState) (writes : List (MsrIndex × U64)) : SwitchState := vmExit (guestWrites writes (vmEntry s))

/-- What the areas are for, over rounds from a state in the host: every entry gives the guest the values it last had,
every exit gives the host the values it had before. After the last exit the guest may have been `reentered`. -/
def Switched (guest : Msrs) (s : SwitchState) (reentered : Bool) : List (List (MsrIndex × U64)) → Prop
  | [] => reentered = true → ∀ m ∈ managedMsrs, (vmEntry s).msrs m = guest m
  | writes :: rounds =>
    (∀ m ∈ managedMsrs, (vmEntry s).msrs m = guest m) ∧ (∀ m ∈ managedMsrs, (round s writes).msrs m = s.msrs m) ∧
      Switched (guestWrites writes (vmEntry s)).msrs (round s writes) reentered rounds

/-- The guest's initial values by index. -/
def initialGuest (fsBase gsBase : U64) (m : MsrIndex) : U64 :=
  if m = msrIa32Efer then eferLme ||| eferLma ||| eferSce
  else if m = msrIa32FsBase then fsBase
  else if m = msrIa32GsBase then gsBase
  else 0

/-- The value a guest that started with the initial values leaves in an MSR. -/
def guestLeaves (fsBase gsBase : U64) (writes : List (MsrIndex × U64)) (m : MsrIndex) : U64 :=
  writes.foldl (fun x w => if m = w.1 then w.2 else x) (initialGuest fsBase gsBase m)

/-- The rounds after which the guest is entered again. -/
def followed (reentered : Bool) (rounds : List (List (MsrIndex × U64))) : List (List (MsrIndex × U64)) :=
  if reentered then rounds else rounds.dropLast

section

variable {fsBase gsBase : U64}

theorem setupMsrState_loads {h h' : Host} {areas : MsrAreas} (hs : relmVcpuSetupMsrState h fsBase gsBase = (.ok areas, h')) :
    areas.vmexitLoad = populateMsrLoadArea managedMsrs (guestMsrValues fsBase gsBase) ∧
      areas.vmentryLoad = populateMsrLoadArea managedMsrs (guestMsrValues fsBase gsBase) := by
  unfold relmVcpuSetupMsrState relmSetupMsrAreas at hs
  rw [if_neg (by decide)] at hs
  dsimp only at hs
  repeat' split at hs
  all_goals cases hs
  exact ⟨rfl, rfl⟩

private theorem loadMsrs_managed (msrs : Msrs) {m : MsrIndex} (hm : m ∈ managedMsrs) :
    loadMsrs (populateMsrLoadArea managedMsrs (guestMsrValues fsBase gsBase)) msrs m = initialGuest fsBase gsBase m := by
  simp only [managedMsrs, List.mem_cons, List.not_mem_nil, or_false] at hm
  rcases hm with rfl | rfl | rfl | rfl | rfl | rfl | rfl <;> rfl

private theorem guestWrites_msrs (writes : List (MsrIndex × U64)) (s : SwitchState) (m : MsrIndex) :
    (guestWrites writes s).msrs m = writes.foldl (fun x w => if m = w.1 then w.2 else x) (s.msrs m) := by
  unfold guestWrites
  induction writes generalizing s with
  | nil => rfl
  | cons w writes ih => exact ih { s with msrs := fun i => if i = w.1 then w.2 else s.msrs i }

variable {s : SwitchState} (hexit : s.areas.vmexitLoad = populateMsrLoadArea managedMsrs (guestMsrValues fsBase gsBase))
  (hentry : s.areas.vmentryLoad = populateMsrLoadArea managedMsrs (guestMsrValues fsBase gsBase))

include hentry in
private theorem vmEntry_managed {m : MsrIndex} (hm : m ∈ managedMsrs) :
    (vmEntry s).msrs m = initialGuest fsBase gsBase m := by
  rw [vmEntry, hentry]
  exact loadMsrs_managed _ hm

include hexit in
private theorem round_managed (writes : List (MsrIndex × U64)) {m : MsrIndex} (hm : m ∈ managedMsrs) :
    (round s writes).msrs m = initialGuest fsBase gsBase m := by
  have hload : (guestWrites writes (vmEntry s)).areas.vmexitLoad = s.areas.vmexitLoad := rfl
  simp only [round, vmExit, hload, hexit]
  exact loadMsrs_managed _ hm

include hentry in
private theorem guestWrites_managed (writes : List (MsrIndex × U64)) {m : MsrIndex} (hm : m ∈ managedMsrs) :
    (guestWrites writes (vmEntry s)).msrs m = guestLeaves fsBase gsBase writes m := by
  rw [guestWrites_msrs, vmEntry_managed hentry hm, guestLeaves]

include hexit hentry in
/-- Switching is right exactly when nobody can tell the worlds apart by the managed MSRs. -/
private theorem switched_iff (guest : Msrs) (reentered : Bool) (rounds : List (List (MsrIndex × U64))) :
    Switched guest s reentered rounds ↔
      ((rounds ≠ [] ∨ reentered = true) → ∀ m ∈ managedMsrs, initialGuest fsBase gsBase m = guest m) ∧
      (rounds ≠ [] → ∀ m ∈ managedMsrs, s.msrs m = initialGuest fsBase gsBase m) ∧
      ∀ writes ∈ followed reentered rounds, ∀ m ∈ managedMsrs,
        guestLeaves fsBase gsBase writes m = initialGuest fsBase gsBase m := by
  induction rounds generalizing guest s with
  | nil =>
    have hf : followed reentered [] = [] := by cases reentered <;> rfl
    rw [hf, Switched]
    constructor
    · intro h
      refine ⟨fun hr m hm => ?_, fun hn => absurd rfl hn, by simp⟩
      have hre : reentered = true := hr.resolve_left fun hn => hn rfl
      rw [← h hre m hm, vmEntry_managed hentry hm]
    · intro h hre m hm
      rw [vmEntry_managed hentry hm, h.1 (.inr hre) m hm]
  | cons writes rounds ih =>
    have hnext := ih (s := round s writes) hexit hentry (guestWrites writes (vmEntry s)).msrs
    have hfol : ∀ P : List (MsrIndex × U64) → Prop, (∀ w ∈ followed reentered (writes :: rounds), P w) ↔
        ((rounds ≠ [] ∨ reentered = true) → P writes) ∧ ∀ w ∈ followed reentered rounds, P w := by
      intro P
      cases reentered <;> cases rounds <;> simp [followed]
    rw [Switched, hnext, hfol]
    constructor
    · rintro ⟨h1, h2, h3, -, h5⟩
      refine ⟨fun _ m hm => ?_, fun _ m hm => ?_, fun hr m hm => ?_, h5⟩
      · rw [← h1 m hm, vmEntry_managed hentry hm]
      · rw [← h2 m hm, round_managed hexit writes hm]
      · rw [h3 hr m hm, guestWrites_managed hentry writes hm]
    · rintro ⟨h1, h2, h3, h5⟩
      refine ⟨fun m hm => ?_, fun m hm => ?_, fun hr m hm => ?_, fun _ m hm => round_managed hexit writes hm, h5⟩
      · rw [vmEntry_managed hentry hm, h1 (.inl (by simp)) m hm]
      · rw [round_managed hexit writes hm, h2 (by simp) m hm]
      · rw [guestWrites_managed hentry writes hm, h3 hr m hm]

end

/-- Over any rounds from any host values, host and guest keep their own MSRs exactly when the host's values are the
guest's initial ones and the guest leaves its initial values whenever it is entered again. -/
theorem msr_switch_isolated_iff {h h' : Host} {fsBase gsBase : U64} {areas : MsrAreas}
    (hs : relmVcpuSetupMsrState h fsBase gsBase = (.ok areas, h')) (host : Msrs) (reentered : Bool)
    (rounds : List (List (MsrIndex × U64))) :
    Switched (initialGuest fsBase gsBase) ⟨host, areas⟩ reentered rounds ↔
      (rounds ≠ [] → ∀ m ∈ managedMsrs, host m = initialGuest fsBase gsBase m) ∧
      ∀ writes ∈ followed reentered rounds, ∀ m ∈ managedMsrs,
        guestLeaves fsBase gsBase writes m = initialGuest fsBase gsBase m := by
  obtain ⟨hexit, hentry⟩ := setupMsrState_loads hs
  rw [switched_iff (s := ⟨host, areas⟩) hexit hentry]
  exact ⟨fun h => h.2, fun h => ⟨fun _ _ _ => rfl, h⟩⟩

private def msrHost : Host := Host.idle [some 0x1000#64, some 0x2000#64, some 0x3000#64] []

private def sampleAreas : MsrAreas where
  vmexitStorePa := 0x1000#64
  vmexitStore := populateMsrStoreArea managedMsrs
  vmexitLoadPa := 0x2000#64
  vmexitLoad := populateMsrLoadArea managedMsrs (guestMsrValues 0 0)
  vmentryLoadPa := 0x3000#64
  vmentryLoad := populateMsrLoadArea managedMsrs (guestMsrValues 0 0)

private theorem setupMsrState_ok {h h1 h2 h3 : Host} {store exitLoad entryLoad : U64}
    (e1 : h.getFreePages 0 = (some store, h1)) (e2 : h1.getFreePages 0 = (some exitLoad, h2))
    (e3 : h2.getFreePages 0 = (some entryLoad, h3)) : relmVcpuSetupMsrState h 0 0 =
      (.ok ⟨store, populateMsrStoreArea managedMsrs, exitLoad, populateMsrLoadArea managedMsrs (guestMsrValues 0 0),
        entryLoad, populateMsrLoadArea managedMsrs (guestMsrValues 0 0)⟩, h3) := by
  have horder : msrAreaOrder managedMsrs.length = 0 := rfl
  unfold relmVcpuSetupMsrState relmSetupMsrAreas
  rw [if_neg (by decide)]
  simp only [horder, e1, e2, e3]

private theorem sample_setup : ∃ h', relmVcpuSetupMsrState msrHost 0 0 = (.ok sampleAreas, h') := by
  have h1 := Host.getFreePages_zero (h := msrHost) 0x1000#64 rfl (by decide)
  have h2 := Host.getFreePages_zero (h := msrHost.takeAll [0x1000#64]) 0x2000#64 rfl (by decide)
  have h3 := Host.getFreePages_zero (h := (msrHost.takeAll [0x1000#64]).takeAll [0x2000#64]) 0x3000#64 rfl
    (by decide)
  exact ⟨_, setupMsrState_ok h1 h2 h3⟩

/-- A host that has the guest's initial values, and a guest that writes LSTAR and restores it. -/
theorem msr_switch_isolated_same : ∃ h', relmVcpuSetupMsrState msrHost 0 0 = (.ok sampleAreas, h') ∧
    Switched (initialGuest 0 0) ⟨initialGuest 0 0, sampleAreas⟩ true [[(msrIa32Lstar, 5), (msrIa32Lstar, 0)]] := by
  obtain ⟨h', hs⟩ := sample_setup
  refine ⟨h', hs, (msr_switch_isolated_iff hs _ _ _).mpr ⟨fun _ _ _ => rfl, fun writes hw m hm => ?_⟩⟩
  obtain rfl : writes = [(msrIa32Lstar, 5), (msrIa32Lstar, 0)] := List.mem_singleton.mp hw
  simp only [managedMsrs, List.mem_cons, List.not_mem_nil, or_false] at hm
  rcases hm with rfl | rfl | rfl | rfl | rfl | rfl | rfl <;> rfl

/-- One entry and one exit: the host's LSTAR becomes the guest's initial 0. -/
theorem host_lstar_lost : ∃ h', relmVcpuSetupMsrState msrHost 0 0 = (.ok sampleAreas, h') ∧
    ¬ Switched (initialGuest 0 0)
      ⟨fun m => if m = msrIa32Lstar then 0xFFFFFFFF81C00080#64 else initialGuest 0 0 m, sampleAreas⟩ false [[]] := by
  obtain ⟨h', hs⟩ := sample_setup
  refine ⟨h', hs, fun h => ?_⟩
  have hl := h.2.1 msrIa32Lstar (by decide)
  revert hl
  decide

end Relm.Vmx
