import Relm.Ept.Statistics
import Relm.Vm.Memory

/-! Building the memory of a VM: guest RAM, pass-through regions and the SeaBIOS ROM, with their error paths. -/
namespace Relm.Vm
open Relm.Ept

/-- A VM with its EPT context and its firmware record in place. `rom` is the ROM block `seabios_hva` names,
`none` when that field is 0. -/
structure VmState where
  host : Host
  ept : EptContext
  memory : VmMemory
  rom : Option U64

namespace VmState

/-- The part the EPT operations act on. -/
def eptState (s : VmState) : EptState := ⟨s.host, s.ept⟩

/-- Continue with the state an EPT operation left. -/
def withEpt (s : VmState) (e : EptState) : VmState := { s with host := e.host, ept := e.ctx }

end VmState

/-- Generic region flags as EPT bits. -/
def vmxEptFlags (flags : U64) : U64 :=
  (if flags &&& relmMemFRead != 0 then eptAccessRead else 0) |||
  (if flags &&& relmMemFWrite != 0 then eptAccessWrite else 0) |||
  (if flags &&& relmMemFExec != 0 then eptAccessExec else 0) |||
  (if flags &&& relmMemFMmio != 0 then eptMemtypeUc ||| eptIgnorePat else eptMemtypeWb)

def vmxMemMapPage (s : VmState) (gpa hpa flags : U64) : Except Errno Unit × VmState :=
  let r := relmEptMapPage s.eptState gpa hpa (vmxEptFlags flags)
  (r.ret, s.withEpt r.next)

/-- How a mapping loop ended: the value returned, the pages recorded, and the state. -/
structure LoopEnd where
  ret : Except Errno Unit
  pages : List U64
  next : VmState

def relmRamFlags : U64 := relmMemFRead ||| relmMemFWrite ||| relmMemFExec
def relmMmioFlags : U64 := relmMemFRead ||| relmMemFWrite ||| relmMemFMmio

/-- The page loop of `relm_vm_allocate_guest_ram`; a page is recorded once it is mapped, and freed when mapping fails. -/
def ramLoop (gpaStart : U64) : (left i : Nat) → (pages : List U64) → VmState → LoopEnd
  | 0, _, pages, s => ⟨.ok (), pages, s⟩
  | left + 1, i, pages, s =>
    match s.host.getFreePage with
    | (none, h) => ⟨.error .enomem, pages, { s with host := h }⟩
    | (some page, h) =>
      let gpa := gpaStart + BitVec.ofNat 64 i * pageSize
      match vmxMemMapPage { s with host := h } gpa page relmRamFlags with
      | (.error e, s) => ⟨.error e, pages, { s with host := s.host.freePage page }⟩
      | (.ok _, s) => ramLoop gpaStart left (i + 1) (pages ++ [page]) s

/-- The state in which the page loop starts: the region and its page array are allocated. -/
def ramStart (s : VmState) : Except (VmState) (Nat × Nat × VmState) :=
  match s.host.kzalloc with
  | (none, h) => .error { s with host := h }
  | (some region, h) =>
    match h.kzalloc with
    | (none, h) => .error { s with host := h.kfree region }
    | (some pages, h) => .ok (region, pages, { s with host := h })

theorem div_pageSize (size : U64) : (size / pageSize).toNat = size.toNat / 4096 := by
  rw [BitVec.toNat_udiv, show pageSize.toNat = 4096 by decide]

/-- Number of pages of a rounded size. -/
def numPages (size : U64) : Nat := (pageAlign size / pageSize).toNat

def relmVmAllocateGuestRam (s : VmState) (size gpaStart : U64) : Except Errno Unit × VmState :=
  match ramStart s with
  | .error s => (.error .enomem, s)
  | .ok (obj, pagesObj, s) =>
    match ramLoop gpaStart (numPages size) 0 [] s with
    | ⟨.ok _, pages, s⟩ =>
      let region : GuestMemRegion :=
        { obj, pagesObj, gpaStart, size := pageAlign size, pages := some pages,
          nrPages := pageAlign size / pageSize, flags := relmRamFlags }
      (.ok (), { s with memory.memRegions := region :: s.memory.memRegions,
                        memory.totalGuestRam := s.memory.totalGuestRam + pageAlign size })
    | ⟨.error e, pages, s⟩ =>
      -- `_cleanup`: the pages go back to the allocator, their mappings stay
      (.error e, { s with host := ((pages.reverse.foldl Host.freePage s.host).kfree pagesObj).kfree obj })

section AllocateGuestRam

open Lib.Word

variable {s : VmState}

theorem mapPage_aligned {e : EptState} {gpa hpa flags : U64} (h : (relmEptMapPage e gpa hpa flags).ret = .ok ()) :
    gpa.toNat % 4096 = 0 := by
  unfold relmEptMapPage at h
  split at h
  · cases h
  · rename_i hv
    simp only [Bool.or_eq_true, Bool.not_eq_true', not_or, Bool.not_eq_false] at hv
    exact (is4kbAligned_iff gpa).mp hv.1

/-- The page loop keeps the memory record, collects one page per pass and starts at an aligned address. -/
theorem ramLoop_pages (gpaStart : U64) (left i : Nat) (pages : List U64) (s : VmState) :
    (ramLoop gpaStart left i pages s).next.memory = s.memory ∧
      ((ramLoop gpaStart left i pages s).ret = .ok () →
        (ramLoop gpaStart left i pages s).pages.length = pages.length + left ∧
        (0 < left → (gpaStart + BitVec.ofNat 64 i * pageSize).toNat % 4096 = 0)) := by
  induction left generalizing i pages s with
  | zero => exact ⟨rfl, fun _ => ⟨rfl, by omega⟩⟩
  | succ left ih =>
    unfold ramLoop
    split
    · exact ⟨rfl, fun h => by cases h⟩
    · dsimp only
      split
      · rename_i h
        exact ⟨congrArg (fun x => x.2.memory) h.symm, fun h => by cases h⟩
      · rename_i h
        obtain ⟨hm, hr⟩ := ih (i + 1) (pages ++ [_]) _
        refine ⟨hm.trans (congrArg (fun x => x.2.memory) h.symm), fun hok => ⟨?_, fun _ => ?_⟩⟩
        · rw [(hr hok).1, List.length_append, List.length_singleton]
          omega
        · exact mapPage_aligned (congrArg (fun x => x.1) h)

theorem pageAlign_mod (size : U64) : (pageAlign size).toNat % 4096 = 0 := by
  rw [pageAlign, and_field_toNat _ _ 12 64 (by decide) (by decide)]
  omega

/-- The two slab allocations before the page loop leave the memory record alone, whether they succeed or not. -/
theorem ramStart_memory (s : VmState) : match ramStart s with
    | .error t => t.memory = s.memory
    | .ok (_, _, t) => t.memory = s.memory := by
  rcases h : s.host.kzalloc with ⟨_ | region, host⟩
  · simp only [ramStart, h]
  · rcases h' : host.kzalloc with ⟨_ | pages, host'⟩ <;> simp only [ramStart, h, h']

/-- The region that a successful `relm_vm_allocate_guest_ram` links. -/
structure RamRegion (bytes start : U64) (region : GuestMemRegion) (frames : List U64) : Prop where
  gpaStart : region.gpaStart = start
  size : region.size = pageAlign bytes
  pages : region.pages = some frames
  nrPages : region.nrPages = pageAlign bytes / pageSize
  length : frames.length = numPages bytes
  aligned : 0 < numPages bytes → start.toNat % 4096 = 0

/-- What `relm_vm_allocate_guest_ram` does to the memory record: nothing when it fails, one more region when it
succeeds. -/
theorem allocateGuestRam_memory (s : VmState) (size gpaStart : U64) :
    ((∃ e, (relmVmAllocateGuestRam s size gpaStart).1 = .error e) ∧
        (relmVmAllocateGuestRam s size gpaStart).2.memory = s.memory) ∨
      ((relmVmAllocateGuestRam s size gpaStart).1 = .ok () ∧ ∃ region pages,
        (relmVmAllocateGuestRam s size gpaStart).2.memory =
          { s.memory with memRegions := region :: s.memory.memRegions,
                          totalGuestRam := s.memory.totalGuestRam + pageAlign size } ∧
        RamRegion size gpaStart region pages) := by
  have hmem := ramStart_memory s
  unfold relmVmAllocateGuestRam
  split
  · rename_i t hs
    rw [hs] at hmem
    exact .inl ⟨⟨_, rfl⟩, hmem⟩
  · rename_i obj pagesObj t hs
    rw [hs] at hmem
    obtain ⟨hm, hr⟩ := ramLoop_pages gpaStart (numPages size) 0 [] t
    generalize ramLoop gpaStart (numPages size) 0 [] t = r at hm hr ⊢
    obtain ⟨ret, pages, u⟩ := r
    have hu : u.memory = s.memory := hm.trans hmem
    cases ret with
    | error e => exact .inl ⟨⟨e, rfl⟩, hu⟩
    | ok x =>
      obtain ⟨hlen, hal⟩ := hr rfl
      let region : GuestMemRegion :=
        ⟨obj, pagesObj, gpaStart, pageAlign size, some pages, pageAlign size / pageSize, relmRamFlags⟩
      refine .inr ⟨rfl, region, pages, ?_, ⟨rfl, rfl, rfl, rfl, ?_, fun hpos => ?_⟩⟩
      · dsimp only
        rw [hu]
      · rw [hlen]
        exact Nat.zero_add _
      · simpa using hal hpos

end AllocateGuestRam

/-- The mapping loop of `relm_vm_map_mmio_region`; on failure the second component is the index reached. -/
def mmioLoop (gpa hpa : U64) : (left i : Nat) → VmState → Except Errno Unit × Nat × VmState
  | 0, i, s => (.ok (), i, s)
  | left + 1, i, s =>
    match vmxMemMapPage s (gpa + BitVec.ofNat 64 i * pageSize) (hpa + BitVec.ofNat 64 i * pageSize) relmMmioFlags with
    | (.error e, s) => (.error e, i, s)
    | (.ok _, s) => mmioLoop gpa hpa left (i + 1) s

/-- Take the first `i` pages out of the EPT again, last first. -/
def mmioUnmap (gpa : U64) : (i : Nat) → VmState → VmState
  | 0, s => s
  | i + 1, s => mmioUnmap gpa i (s.withEpt (relmEptUnmapPage s.eptState (gpa + BitVec.ofNat 64 i * pageSize)).next)

def pageMask : U64 := ~~~4095#64

theorem pageMask_iff (a : U64) : a &&& ~~~pageMask = 0#64 ↔ a.toNat % 4096 = 0 := by
  rw [← BitVec.toNat_inj, Lib.Word.and_low_toNat _ _ 12 (by decide)]
  simp

def relmVmMapMmioRegion (s : VmState) (gpa hpa size : U64) : Except Errno Unit × VmState :=
  if size == 0 then (.error .einval, s)
  else if gpa &&& ~~~pageMask != 0 || hpa &&& ~~~pageMask != 0 || size &&& ~~~pageMask != 0 then (.error .einval, s)
  else
    match s.host.kzalloc with
    | (none, h) => (.error .enomem, { s with host := h })
    | (some obj, h) =>
      match mmioLoop gpa hpa (size / pageSize).toNat 0 { s with host := h } with
      | (.ok _, _, s) =>
        let region : GuestMemRegion :=
          { obj, pagesObj := 0, gpaStart := gpa, size, pages := none, nrPages := size / pageSize, flags := relmMmioFlags }
        (.ok (), { s with memory.memRegions := region :: s.memory.memRegions })
      | (.error e, i, s) =>
        let s := mmioUnmap gpa i s
        (.error e, { s with host := s.host.kfree obj })

def seabiosSize : Nat := 128 * 1024
/-- `get_order(SEABIOS_SIZE)`: 32 pages. -/
def seabiosOrder : Nat := 5
def seabiosRomTopGpa : U64 := 0x100000000#64 - 0x20000#64
/-- Read and execute. -/
def seabiosEptFlags : U64 := 5#64

/-- What `request_firmware` finds: the image, page by page. -/
structure Firmware where
  size : Nat
  data : Nat → Fin 512 → U64

/-- Copy the image into the ROM block. -/
def copyRom (h : Host) (pa : U64) (fw : Firmware) : Host :=
  { h with mem := fun f => if (Host.blockPages pa seabiosOrder).contains f then fw.data ((f - pa).toNat / 4096) else h.mem f }

/-- The mapping loop of `relm_seabios_load`. -/
def romLoop (pa : U64) : (left i : Nat) → EptState → Except Errno Unit × EptState
  | 0, _, e => (.ok (), e)
  | left + 1, i, e =>
    let offset := BitVec.ofNat 64 i * pageSize
    match relmEptMapPage e (seabiosRomTopGpa + offset) (pa + offset) seabiosEptFlags with
    | ⟨.error err, e, _⟩ => (.error err, e)
    | ⟨.ok _, e, _⟩ => romLoop pa left (i + 1) e

/-- A partial failure leaves the ROM pages to `relm_seabios_unload`. -/
def relmSeabiosLoad (s : VmState) (firmware : Except Errno Firmware) : Except Errno Unit × VmState :=
  match firmware with
  | .error e => (.error e, s)
  | .ok fw =>
    if fw.size ≠ seabiosSize then (.error .einval, s)
    else
      match s.host.getFreePages seabiosOrder with
      | (none, h) => (.error .enomem, { s with host := h })
      | (some pa, h) =>
        let s := { s with host := copyRom h pa fw, rom := some pa }
        let r := romLoop pa (2 ^ seabiosOrder) 0 s.eptState
        (r.1, s.withEpt r.2)

def relmSeabiosUnload (s : VmState) : VmState :=
  match s.rom with
  | none => s
  | some pa => { s with host := s.host.freePages pa seabiosOrder, rom := none }

/-- `fwCfg` is what `relm_fw_cfg_setup` returns; it touches neither pages nor the EPT. -/
def relmSeabiosSetup (s : VmState) (firmware : Except Errno Firmware) (fwCfg : Except Errno Unit) :
    Except Errno Unit × VmState :=
  match relmSeabiosLoad s firmware with
  | (.error e, s) => (.error e, s)
  | (.ok _, s) =>
    match fwCfg with
    | .error e => (.error e, relmSeabiosUnload s)
    | .ok _ => (.ok (), s)

end Relm.Vm
