import Relm.Vm.Regions
import Relm.Lib.Run
import Mathlib.Data.Set.Defs

/-! The registry of MMIO windows: reservation, release and lookup, and when the windows stay apart from each other
and from guest RAM. -/
namespace Relm.Vm
open Relm.Lib.Run Relm.Lib.Word

def pageAligned (a : U64) : Bool := a &&& 4095#64 == 0

/-- The overlap test of the registry; both ends are computed modulo `2^64`. -/
def overlaps (gpaStart size otherStart otherSize : U64) : Bool :=
  decide (gpaStart < otherStart + otherSize) && decide (otherStart < gpaStart + size)

/-- `strscpy` into `char name[32]`: the bytes before the terminator, at most 31. -/
def mmioName (name : String) : List Byte :=
  ((name.toUTF8.toList.map UInt8.toBitVec).takeWhile fun b => b != 0).take 31

def relmVmReserveMmioRegion (m : VmMemory) (gpaStart size : U64) (name : Option String) : Except Errno Unit × VmMemory :=
  match name with
  | none => (.error .einval, m)
  | some name =>
    if size == 0 then (.error .einval, m)
    else if !pageAligned gpaStart || !pageAligned size then (.error .einval, m)
    else if m.memRegions.any fun r => overlaps gpaStart size r.gpaStart r.size then (.error .ebusy, m)
    else if m.mmioRegions.any fun r => overlaps gpaStart size r.gpaStart r.size then (.error .ebusy, m)
    else if relmMaxMmioRegions ≤ m.mmioRegions.length then (.error .enospc, m)
    else (.ok (), { m with mmioRegions := m.mmioRegions ++ [⟨gpaStart, size, mmioName name⟩] })

/-- The checks a reservation under a name has to pass. -/
def reservable (m : VmMemory) (gpaStart size : U64) : Bool :=
  size != 0 && pageAligned gpaStart && pageAligned size &&
    m.memRegions.all (fun r => !overlaps gpaStart size r.gpaStart r.size) &&
    m.mmioRegions.all (fun r => !overlaps gpaStart size r.gpaStart r.size) &&
    decide (m.mmioRegions.length < relmMaxMmioRegions)

/-- The first entry that starts at the address goes; the later ones move down. -/
def relmVmReleaseMmioRegion (m : VmMemory) (gpaStart : U64) : VmMemory :=
  { m with mmioRegions := m.mmioRegions.eraseP fun r => r.gpaStart == gpaStart }

def relmVmGpaIsMmioRegion (m : VmMemory) (faultGpa : U64) : Bool :=
  m.mmioRegions.any fun r => decide (r.gpaStart ≤ faultGpa) && decide (faultGpa < r.gpaStart + r.size)

/-- The addresses from `start` on, `size` of them; those past the top of the address space continue at 0. -/
def addresses (start size : U64) : Set U64 := {a | (a - start).toNat < size.toNat}

/-- No address lies in both ranges. -/
def Apart (s t : Set U64) : Prop := ∀ a ∈ s, a ∉ t

def GuestMemRegion.addresses (r : GuestMemRegion) : Set U64 := Vm.addresses r.gpaStart r.size
def MmioRegion.addresses (r : MmioRegion) : Set U64 := Vm.addresses r.gpaStart r.size

inductive MmioCall
  | reserve (gpaStart size : U64) (name : Option String)
  | release (gpaStart : U64)
  | allocateGuestRam (size gpaStart : U64)

namespace MmioCall

def exec (s : VmState) : MmioCall → Except Errno Unit × VmState
  | reserve gpaStart size name =>
    let r := relmVmReserveMmioRegion s.memory gpaStart size name
    (r.1, { s with memory := r.2 })
  | release gpaStart => (.ok (), { s with memory := relmVmReleaseMmioRegion s.memory gpaStart })
  | allocateGuestRam size gpaStart => relmVmAllocateGuestRam s size gpaStart

/-- A window that the checks let pass ends below the top of the address space and meets no RAM region that does not;
RAM keeps off the windows. A refused reservation may be anything. -/
def Fits (s : VmState) : MmioCall → Prop
  | reserve gpaStart size name => name.isSome = true → reservable s.memory gpaStart size = true →
      gpaStart.toNat + size.toNat < 2 ^ 64 ∧
      ∀ r ∈ s.memory.memRegions, 2 ^ 64 ≤ r.gpaStart.toNat + r.size.toNat → Apart (addresses gpaStart size) r.addresses
  | release _ => True
  | allocateGuestRam size gpaStart =>
      ∀ w ∈ s.memory.mmioRegions, Apart w.addresses (addresses gpaStart (pageAlign size))

end MmioCall

/-- The windows that the calls of a run reserved and did not release, by their answers alone. -/
def reservedWindows (tr : List (MmioCall × Except Errno Unit)) : List (U64 × U64) :=
  tr.foldl (fun ws c => match c with
    | (.reserve gpaStart size _, .ok _) => ws ++ [(gpaStart, size)]
    | (.release gpaStart, _) => ws.filter fun w => w.1 != gpaStart
    | _ => ws) []

/-- The registry after a run: disjoint windows, off RAM, bounded in number, and exactly these trap; calls that fail
or name no window change nothing. -/
structure Registry (tr : List (MmioCall × Except Errno Unit)) (s : VmState) : Prop where
  apart : s.memory.mmioRegions.Pairwise fun v w => Apart v.addresses w.addresses
  offRam : ∀ w ∈ s.memory.mmioRegions, ∀ r ∈ s.memory.memRegions, Apart w.addresses r.addresses
  bounded : s.memory.mmioRegions.length ≤ relmMaxMmioRegions
  traps : ∀ gpa, relmVmGpaIsMmioRegion s.memory gpa = true ↔ ∃ w ∈ reservedWindows tr, gpa ∈ addresses w.1 w.2
  failedReserve : ∀ gpaStart size name e, (MmioCall.exec s (.reserve gpaStart size name)).1 = .error e →
    (MmioCall.exec s (.reserve gpaStart size name)).2 = s
  unknownRelease : ∀ gpaStart, (∀ w ∈ reservedWindows tr, w.1 ≠ gpaStart) →
    (MmioCall.exec s (.release gpaStart)).2 = s

section Addresses

variable {start size a : U64}

theorem mem_addresses (h : start.toNat + size.toNat < 2 ^ 64) :
    a ∈ addresses start size ↔ start.toNat ≤ a.toNat ∧ a.toNat < start.toNat + size.toNat := by
  have h1 := a.isLt
  change (a - start).toNat < size.toNat ↔ _
  rw [BitVec.toNat_sub]
  omega

theorem Apart.symm {s t : Set U64} (h : Apart s t) : Apart t s := fun a ht hs => h a hs ht

/-- The test is right where neither end wraps. -/
theorem apart_of_not_overlaps {otherStart otherSize : U64} (h : start.toNat + size.toNat < 2 ^ 64)
    (ho : otherStart.toNat + otherSize.toNat < 2 ^ 64) (ht : overlaps start size otherStart otherSize = false) :
    Apart (addresses start size) (addresses otherStart otherSize) := by
  intro a ha hb
  obtain ⟨h1, h2⟩ := (mem_addresses h).mp ha
  obtain ⟨h3, h4⟩ := (mem_addresses ho).mp hb
  simp only [overlaps, Bool.and_eq_false_iff, decide_eq_false_iff_not, BitVec.lt_def, toNat_add_eq rfl rfl h,
    toNat_add_eq rfl rfl ho] at ht
  omega

/-- The window lookup is right for a window that does not wrap. -/
theorem window_test (h : start.toNat + size.toNat < 2 ^ 64) :
    (decide (start ≤ a) && decide (a < start + size)) = true ↔ a ∈ addresses start size := by
  rw [mem_addresses h]
  simp only [Bool.and_eq_true, decide_eq_true_eq, BitVec.le_def, BitVec.lt_def, toNat_add_eq rfl rfl h]

theorem start_mem (h : size ≠ 0) : start ∈ addresses start size := by
  change (start - start).toNat < size.toNat
  have h0 : size.toNat ≠ 0 := fun hc => h (BitVec.eq_of_toNat_eq hc)
  rw [BitVec.sub_self]
  exact Nat.pos_of_ne_zero h0

end Addresses

section Steps

variable {tr : List (MmioCall × Except Errno Unit)} {s : VmState}

/-- A reservation fails and changes nothing, or it passed every check and is entered last. -/
theorem reserve_cases (m : VmMemory) (gpaStart size : U64) (name : Option String) :
    (∃ e, relmVmReserveMmioRegion m gpaStart size name = (.error e, m)) ∨
      ∃ n, relmVmReserveMmioRegion m gpaStart size name =
          (.ok (), { m with mmioRegions := m.mmioRegions ++ [⟨gpaStart, size, n⟩] }) ∧
        size ≠ 0 ∧ pageAligned gpaStart = true ∧ pageAligned size = true ∧
        (∀ r ∈ m.memRegions, overlaps gpaStart size r.gpaStart r.size = false) ∧
        (∀ w ∈ m.mmioRegions, overlaps gpaStart size w.gpaStart w.size = false) ∧
        m.mmioRegions.length < relmMaxMmioRegions ∧ name.isSome = true := by
  cases name with
  | none => exact .inl ⟨_, rfl⟩
  | some name =>
    simp only [relmVmReserveMmioRegion]
    split
    · exact .inl ⟨_, rfl⟩
    · rename_i h0
      split
      · exact .inl ⟨_, rfl⟩
      · rename_i ha
        split
        · exact .inl ⟨_, rfl⟩
        · rename_i hr
          split
          · exact .inl ⟨_, rfl⟩
          · rename_i hw
            split
            · exact .inl ⟨_, rfl⟩
            · rename_i hl
              simp only [Bool.or_eq_true, Bool.not_eq_true', not_or, Bool.not_eq_false] at ha
              refine .inr ⟨_, rfl, by simpa using h0, ha.1, ha.2, fun r hm => ?_, fun w hm => ?_, not_le.mp hl, rfl⟩
              · exact Bool.eq_false_iff.mpr fun ho => hr (List.any_eq_true.mpr ⟨r, hm, ho⟩)
              · exact Bool.eq_false_iff.mpr fun ho => hw (List.any_eq_true.mpr ⟨w, hm, ho⟩)

/-- A reservation is entered exactly when it has a name and passes the checks. -/
theorem reserve_ok_iff {m : VmMemory} {gpaStart size : U64} {name : Option String} :
    (relmVmReserveMmioRegion m gpaStart size name).1 = .ok () ↔
      name.isSome = true ∧ reservable m gpaStart size = true := by
  constructor
  · intro h
    rcases reserve_cases m gpaStart size name with ⟨e, he⟩ | ⟨n, -, h0, ha, hb, hram, hwin, hlen, hname⟩
    · rw [he] at h
      cases h
    · refine ⟨hname, ?_⟩
      simp only [reservable, Bool.and_eq_true, List.all_eq_true, Bool.not_eq_true', bne_iff_ne, decide_eq_true_eq]
      exact ⟨⟨⟨⟨⟨h0, ha⟩, hb⟩, hram⟩, hwin⟩, hlen⟩
  · rintro ⟨hname, h⟩
    obtain ⟨name, rfl⟩ := Option.isSome_iff_exists.mp hname
    simp only [reservable, Bool.and_eq_true, List.all_eq_true, Bool.not_eq_true', bne_iff_ne, decide_eq_true_eq] at h
    obtain ⟨⟨⟨⟨⟨h0, ha⟩, hb⟩, hram⟩, hwin⟩, hlen⟩ := h
    simp only [relmVmReserveMmioRegion]
    rw [if_neg (by simpa using h0), if_neg (by simp [ha, hb]), if_neg (by simpa using hram), if_neg (by simpa using hwin),
      if_neg (not_le.mpr hlen)]

/-- What every step keeps. Windows are named by the trace, hold an address and end below the top. -/
structure WindowInv (tr : List (MmioCall × Except Errno Unit)) (s : VmState) : Prop where
  named : s.memory.mmioRegions.map (fun w => (w.gpaStart, w.size)) = reservedWindows tr
  below : ∀ w ∈ s.memory.mmioRegions, w.size ≠ 0 ∧ w.gpaStart.toNat + w.size.toNat < 2 ^ 64
  apart : s.memory.mmioRegions.Pairwise fun v w => Apart v.addresses w.addresses
  offRam : ∀ w ∈ s.memory.mmioRegions, ∀ r ∈ s.memory.memRegions, Apart w.addresses r.addresses
  bounded : s.memory.mmioRegions.length ≤ relmMaxMmioRegions

private theorem reservedWindows_concat (tr : List (MmioCall × Except Errno Unit)) (c : MmioCall × Except Errno Unit) :
    reservedWindows (tr ++ [c]) = match c with
      | (.reserve gpaStart size _, .ok _) => reservedWindows tr ++ [(gpaStart, size)]
      | (.release gpaStart, _) => (reservedWindows tr).filter fun w => w.1 != gpaStart
      | _ => reservedWindows tr := by
  rw [reservedWindows, List.foldl_append]
  rfl

/-- Where keys are distinct, dropping the first match drops all of them. -/
theorem eraseP_eq_filter {ws : List MmioRegion} {a : U64} (h : ws.Pairwise fun v w => v.gpaStart ≠ w.gpaStart) :
    ws.eraseP (fun w => w.gpaStart == a) = ws.filter fun w => w.gpaStart != a := by
  induction ws with
  | nil => rfl
  | cons v ws ih =>
    obtain ⟨hv, hws⟩ := List.pairwise_cons.mp h
    by_cases hva : v.gpaStart = a
    · have hall : ∀ w ∈ ws, (w.gpaStart != a) = true := fun w hw => by simpa using fun hc => hv w hw (hva.trans hc.symm)
      rw [List.eraseP_cons_of_pos (by simpa using hva), List.filter_cons_of_neg (by simpa using hva),
        List.filter_eq_self.mpr hall]
    · rw [List.eraseP_cons_of_neg (by simpa using hva), List.filter_cons_of_pos (by simpa using hva), ih hws]

namespace WindowInv

/-- Disjoint windows start at different addresses. -/
theorem distinct (h : WindowInv tr s) : s.memory.mmioRegions.Pairwise fun v w => v.gpaStart ≠ w.gpaStart := by
  refine h.apart.imp_of_mem ?_
  intro v w hv hw hd heq
  have hmem : v.gpaStart ∈ v.addresses := start_mem (h.below v hv).1
  refine hd _ hmem ?_
  rw [heq]
  exact start_mem (h.below w hw).1

theorem reserve {gpaStart size : U64} {name : Option String} (h : WindowInv tr s)
    (hf : MmioCall.Fits s (.reserve gpaStart size name)) :
    WindowInv (tr ++ [(.reserve gpaStart size name, (MmioCall.exec s (.reserve gpaStart size name)).1)])
      (MmioCall.exec s (.reserve gpaStart size name)).2 := by
  rcases reserve_cases s.memory gpaStart size name with ⟨e, he⟩ | ⟨n, he, h0, -, -, hram, hwin, hlen, -⟩
  · simp only [MmioCall.exec, he]
    exact ⟨by rw [reservedWindows_concat]; exact h.named, h.below, h.apart, h.offRam, h.bounded⟩
  · obtain ⟨hname, hpass⟩ := reserve_ok_iff.mp (congrArg Prod.fst he)
    obtain ⟨hlt, hwrap⟩ := hf hname hpass
    simp only [MmioCall.exec, he]
    refine ⟨?_, ?_, ?_, ?_, ?_⟩
    · rw [reservedWindows_concat, List.map_append, h.named]
      rfl
    · intro w hw
      rcases List.mem_append.mp hw with hw | hw
      · exact h.below w hw
      · rw [List.mem_singleton.mp hw]
        exact ⟨h0, hlt⟩
    · refine List.pairwise_append.mpr ⟨h.apart, List.pairwise_singleton _ _, fun v hv w hw => ?_⟩
      rw [List.mem_singleton.mp hw]
      exact (apart_of_not_overlaps hlt (h.below v hv).2 (hwin v hv)).symm
    · intro w hw r hr
      rcases List.mem_append.mp hw with hw | hw
      · exact h.offRam w hw r hr
      · rw [List.mem_singleton.mp hw]
        by_cases htop : 2 ^ 64 ≤ r.gpaStart.toNat + r.size.toNat
        · exact hwrap r hr htop
        · exact apart_of_not_overlaps hlt (not_le.mp htop) (hram r hr)
    · rw [List.length_append, List.length_singleton]
      exact hlen

theorem release (gpaStart : U64) (h : WindowInv tr s) :
    WindowInv (tr ++ [(.release gpaStart, (MmioCall.exec s (.release gpaStart)).1)])
      (MmioCall.exec s (.release gpaStart)).2 := by
  have hsub : (s.memory.mmioRegions.eraseP fun w => w.gpaStart == gpaStart).Sublist s.memory.mmioRegions :=
    List.eraseP_sublist
  refine ⟨?_, fun w hw => h.below w (hsub.subset hw), h.apart.sublist hsub, fun w hw => h.offRam w (hsub.subset hw),
    hsub.length_le.trans h.bounded⟩
  rw [reservedWindows_concat]
  change List.map _ (s.memory.mmioRegions.eraseP _) = (reservedWindows tr).filter _
  rw [eraseP_eq_filter h.distinct, ← h.named, List.filter_map]
  rfl

theorem allocateGuestRam {size gpaStart : U64} (h : WindowInv tr s)
    (hf : MmioCall.Fits s (.allocateGuestRam size gpaStart)) :
    WindowInv (tr ++ [(.allocateGuestRam size gpaStart, (MmioCall.exec s (.allocateGuestRam size gpaStart)).1)])
      (MmioCall.exec s (.allocateGuestRam size gpaStart)).2 := by
  have hnamed : reservedWindows (tr ++ [(.allocateGuestRam size gpaStart, (MmioCall.exec s (.allocateGuestRam size gpaStart)).1)]) =
      reservedWindows tr := reservedWindows_concat _ _
  rcases allocateGuestRam_memory s size gpaStart with ⟨-, hm⟩ | ⟨-, region, pages, hm, hr⟩
  · change (MmioCall.exec s (.allocateGuestRam size gpaStart)).2.memory = _ at hm
    refine ⟨?_, ?_, ?_, ?_, ?_⟩ <;> rw [hm]
    · exact h.named.trans hnamed.symm
    · exact h.below
    · exact h.apart
    · exact h.offRam
    · exact h.bounded
  · change (MmioCall.exec s (.allocateGuestRam size gpaStart)).2.memory = _ at hm
    refine ⟨?_, ?_, ?_, ?_, ?_⟩ <;> rw [hm]
    · exact h.named.trans hnamed.symm
    · exact h.below
    · exact h.apart
    · intro w hw r hmem
      rcases List.mem_cons.mp hmem with rfl | hmem
      · rw [GuestMemRegion.addresses, hr.gpaStart, hr.size]
        exact hf w hw
      · exact h.offRam w hw r hmem
    · exact h.bounded

theorem step (c : MmioCall) (h : WindowInv tr s) (hf : c.Fits s) :
    WindowInv (tr ++ [(c, (c.exec s).1)]) (c.exec s).2 := by
  cases c with
  | reserve gpaStart size name => exact h.reserve hf
  | release gpaStart => exact h.release gpaStart
  | allocateGuestRam size gpaStart => exact h.allocateGuestRam hf

theorem registry (h : WindowInv tr s) : Registry tr s where
  apart := h.apart
  offRam := h.offRam
  bounded := h.bounded
  traps gpa := by
    rw [relmVmGpaIsMmioRegion, List.any_eq_true, ← h.named]
    constructor
    · rintro ⟨w, hw, ht⟩
      exact ⟨_, List.mem_map_of_mem hw, (window_test (h.below w hw).2).mp ht⟩
    · rintro ⟨x, hx, hmem⟩
      obtain ⟨w, hw, rfl⟩ := List.mem_map.mp hx
      exact ⟨w, hw, (window_test (h.below w hw).2).mpr hmem⟩
  failedReserve gpaStart size name e he := by
    rcases reserve_cases s.memory gpaStart size name with ⟨e', h'⟩ | ⟨n, h', -⟩
    · simp only [MmioCall.exec, h']
    · simp only [MmioCall.exec, h'] at he
      cases he
  unknownRelease gpaStart hu := by
    have hnone : ∀ w ∈ s.memory.mmioRegions, ¬ (w.gpaStart == gpaStart) = true := by
      intro w hw heq
      rw [← h.named] at hu
      exact hu _ (List.mem_map_of_mem hw) (by simpa using heq)
    simp only [MmioCall.exec, relmVmReleaseMmioRegion, List.eraseP_of_forall_not hnone]

end WindowInv

/-- The registry over every run whose accepted windows end below the top of the address space and whose RAM keeps off
the windows reserved before it. -/
theorem mmio_windows_registry (s : VmState) (hwin : s.memory.mmioRegions = []) (calls : List MmioCall)
    (h : Admitted MmioCall.exec MmioCall.Fits s calls) :
    Registry (run MmioCall.exec s calls).1 (run MmioCall.exec s calls).2 := by
  apply WindowInv.registry
  refine run_invariant (fun tr s c hs hf => hs.step c hf) ?_ h
  refine ⟨?_, ?_, ?_, ?_, ?_⟩ <;> rw [hwin]
  · rfl
  · intro w hw
    cases hw
  · exact .nil
  · intro w hw
    cases hw
  · exact Nat.zero_le _

/-- A VM with nothing mapped, on a host that can back one page of RAM. -/
private def windowVm : VmState where
  host := Host.idle [some 0x9000#64, some 0x2000#64, some 0x3000#64, some 0x4000#64] [true, true]
  ept :=
    { obj := 0, pml4 := 0x1000#64, pml4Pa := 0x1000#64, eptp := 0x101E#64, memtype := 6#64, adEnabled := false
      stats := {}, tables := [0x1000#64] }
  memory := { memRegions := [], totalGuestRam := 0, mmioRegions := [] }
  rom := none

private def windowCalls : List MmioCall :=
  [.reserve 0xD0000000#64 0x1000#64 (some "virtio-blk"), .reserve 0xFFFFFFFFFFFFF000#64 0x1000#64 none,
    .allocateGuestRam 0x1000#64 0#64, .release 0xD0000000#64]

/-- The unnamed window up to the top of the address space is refused and does no harm. -/
theorem mmio_windows_registry_block : Admitted MmioCall.exec MmioCall.Fits windowVm windowCalls ∧
    (run MmioCall.exec windowVm windowCalls).1.map Prod.snd = [.ok (), .error .einval, .ok (), .ok ()] ∧
    Registry (run MmioCall.exec windowVm windowCalls).1 (run MmioCall.exec windowVm windowCalls).2 := by
  have ha : Admitted MmioCall.exec MmioCall.Fits windowVm windowCalls := by
    refine ⟨fun _ _ => ⟨by decide, fun r hr => by cases hr⟩, fun hname => ?_, fun w hw => ?_, trivial, trivial⟩
    · cases hname
    · rw [List.mem_singleton.mp hw]
      exact apart_of_not_overlaps (by decide) (by decide) (by decide)
  exact ⟨ha, rfl, mmio_windows_registry windowVm rfl windowCalls ha⟩

/-- A window up to the top of the address space is accepted and never traps: its end is computed as 0. -/
theorem top_window_never_traps :
    (run MmioCall.exec windowVm [.reserve 0xFFFFFFFFFFFFF000#64 0x1000#64 (some "top")]).1 =
      [(.reserve 0xFFFFFFFFFFFFF000#64 0x1000#64 (some "top"), .ok ())] ∧
    ¬ Registry (run MmioCall.exec windowVm [.reserve 0xFFFFFFFFFFFFF000#64 0x1000#64 (some "top")]).1
      (run MmioCall.exec windowVm [.reserve 0xFFFFFFFFFFFFF000#64 0x1000#64 (some "top")]).2 := by
  refine ⟨rfl, fun h => ?_⟩
  have htest : relmVmGpaIsMmioRegion (run MmioCall.exec windowVm
      [.reserve 0xFFFFFFFFFFFFF000#64 0x1000#64 (some "top")]).2.memory 0xFFFFFFFFFFFFF000#64 = false := by decide
  have htrap := (h.traps 0xFFFFFFFFFFFFF000#64).mpr ⟨(0xFFFFFFFFFFFFF000#64, 0x1000#64), by decide, start_mem (by decide)⟩
  rw [htest] at htrap
  cases htrap

end Steps

end Relm.Vm
