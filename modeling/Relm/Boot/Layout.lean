import Relm.Boot.Loader
import Relm.Lib.Records
import Relm.Vm.Supply

/-! Where the loader puts its eight components, and when each of them is in guest memory as it was built. -/
namespace Relm.Boot
open Firmware Vm Lib.Patch Lib.Records Lib.Word

section Writers

variable {s : VmState} {region : GuestMemRegion} {frames : List U64}

/-- A small write inside guest RAM. -/
private theorem guestWrite_spec (h : FlatRam s region frames) (gpa : U64) (data : List Byte)
    (hfit : gpa.toNat + data.length ≤ region.size.toNat) (hpos : data.length ≠ 0) (hmax : data.length < 2 ^ 31) :
    ∃ host, guestWrite s gpa data = .ok (0, { s with host }) ∧
      guestByte host frames = patch (guestByte s.host frames) gpa.toNat data := by
  obtain ⟨host, hcopy, hmem⟩ := h.copyTo gpa data hfit hpos hmax
  refine ⟨host, ?_, hmem⟩
  simp only [guestWrite, hcopy, Except.map, if_true]

/-- A loop over vectors that writes pieces of 16 bytes one after the other. -/
private theorem forVectors_spec (write : VmState → Nat → Except HostFault (Int × VmState)) (base : U64)
    (piece : Nat → List Byte) (hw : ∀ s v, write s v = guestWrite s (base + BitVec.ofNat 64 (v * 16)) (piece v))
    (hp : ∀ v, (piece v).length = 16)
    (i n : Nat) (h : FlatRam s region frames) (hfit : base.toNat + (i + n) * 16 ≤ region.size.toNat) :
    ∃ host, forVectors write s (List.range' i n) = .ok (0, { s with host }) ∧ guestByte host frames =
      patch (guestByte s.host frames) (base.toNat + i * 16) ((List.range' i n).flatMap piece) := by
  have hlt := region.size.isLt
  induction n generalizing i s with
  | zero => exact ⟨s.host, rfl, by simp⟩
  | succ n ih =>
    have haddr : (base + BitVec.ofNat 64 (i * 16)).toNat = base.toNat + i * 16 := add_offset rfl (by omega)
    obtain ⟨host, hwrite, hmem⟩ := guestWrite_spec h (base + BitVec.ofNat 64 (i * 16)) (piece i) (by rw [haddr, hp]; omega)
      (by rw [hp]; decide) (by rw [hp]; decide)
    obtain ⟨host', hrest, hmem'⟩ := ih (i + 1) (h.withHost host) (by omega)
    refine ⟨host', ?_, ?_⟩
    · rw [List.range'_succ, forVectors, hw, hwrite]
      exact hrest
    · rw [hmem', hmem, haddr, List.range'_succ, List.flatMap_cons, ← patch_append, hp]
      congr 1
      omega

end Writers

/-- The protected-mode part of a bzImage. -/
def kernelBytes (file : List Byte) : List Byte := file.drop (setupSize (.ofFile file))

/-- The files that `relm_kernel_load` accepts for guest RAM of a size. -/
structure KernelAccepted (ram : Nat) (file : List Byte) : Prop where
  header : relmBzimageHdrOffset + 123 ≤ file.length
  valid : relmValidateSetupHeader (.ofFile file) = .ok ()
  payload : setupSize (.ofFile file) < file.length
  size : (kernelBytes file).length ≤ relmKernelMaxSize
  fits : (loadGpa (.ofFile file)).toNat + (kernelBytes file).length ≤ ram

/-- The initrd there is, if any. -/
def initrdBytes (initrd : Except Errno (List Byte)) : List Byte := initrd.toOption.getD []

/-- What is copied of the command line. -/
def cmdlineBytes (cmdline : Option (List Byte)) : List Byte := (cmdline.getD relmDefaultCmdline).take (relmCmdlineMaxLen - 1)

/-- A call that returns an error. -/
def Failed {α : Type} (r : Except HostFault (Except Int α × VmState)) : Prop := ∃ ret t, r = .ok (.error ret, t) ∧ ret ≠ 0

/-- A part of guest memory: where it starts, how long it is, and what it holds. -/
structure Component where
  start : Nat
  length : Nat
  image : Nat → Byte

def Component.Occupies (c : Component) (x : Nat) : Prop := c.start ≤ x ∧ x < c.start + c.length

/-- The three descriptors, the stubs and the gates. -/
def gdtBytes : List Byte := leBytes 8 0 ++ leBytes 8 0x00AF9B000000FFFF#64 ++ leBytes 8 0x00CF93000000FFFF#64
def stubBytes : List Byte := (List.range 256).flatMap fun vec => relmIdtStubTemplate.set 1 (BitVec.ofNat 8 vec)
def gateBytes : List Byte := (List.range 256).flatMap fun vec => idtGate (stubGpa vec)

/-- The zero page as `relm_boot_params_build` writes it. -/
def bootParamsImage (hdr : SetupHeader) (initrdSize : U32) (map : E820Map) : Nat → Byte :=
  patch (patch (patch (fun _ => 0) 0x1F1 (guestHeader hdr initrdSize).bytes) 0x1E8 [BitVec.ofNat 8 map.length]) 0x2D0
    (map.flatMap E820Entry.bytes)

section Loaders

variable {s : VmState} {region : GuestMemRegion} {frames : List U64}

private theorem zeroGuestMemory_memory {gpa : U64} {n : Nat} {ret : Int} {t : VmState}
    (h : relmVmZeroGuestMemory s gpa n = .ok (ret, t)) : t.memory = s.memory := by
  unfold relmVmZeroGuestMemory at h
  split at h
  · cases h
    rfl
  · generalize accessLoop _ _ _ _ _ _ _ _ = r at h
    cases r with
    | error fault => cases h
    | ok r =>
      cases h
      rfl

private theorem failed_errno {α : Type} (e : Errno) (s : VmState) :
    Failed (.ok (.error (-e.code), s) : Except HostFault (Except Int α × VmState)) := by
  have hpos := e.code_pos
  exact ⟨_, _, rfl, by omega⟩

/-- The kernel is refused, or accepted and in guest memory. -/
theorem kernelLoad_spec (h : FlatRam s region frames) (kernel : Except Errno (List Byte)) :
    (Failed (relmKernelLoad s kernel) ∧ ∀ file, kernel = .ok file → ¬ KernelAccepted region.size.toNat file) ∨
      ∃ file host, kernel = .ok file ∧ KernelAccepted region.size.toNat file ∧
      relmKernelLoad s kernel = .ok (.ok (.ofFile file, loadGpa (.ofFile file) + relmStartup64Offset), { s with host }) ∧
      guestByte host frames = patch (guestByte s.host frames) (loadGpa (.ofFile file)).toNat (kernelBytes file) := by
  unfold relmKernelLoad
  cases kernel with
  | error e => exact .inl ⟨failed_errno e s, fun _ hf => by cases hf⟩
  | ok file =>
    dsimp only
    have hrefused : ¬ KernelAccepted region.size.toNat file →
        ∀ file', Except.ok (ε := Errno) file = .ok file' → ¬ KernelAccepted region.size.toNat file' := by
      intro hnot file' hf
      cases hf
      exact hnot
    have hlen : (kernelBytes file).length = file.length - setupSize (.ofFile file) := List.length_drop ..
    split
    · rename_i hheader
      exact .inl ⟨failed_errno _ s, hrefused fun ha => absurd ha.header (by omega)⟩
    rename_i hheader
    cases hvalid : relmValidateSetupHeader (.ofFile file) with
    | error e =>
      refine .inl ⟨failed_errno e s, hrefused fun ha => ?_⟩
      rw [ha.valid] at hvalid
      cases hvalid
    | ok _ =>
      dsimp only
      split
      · rename_i hpayload
        exact .inl ⟨failed_errno _ s, hrefused fun ha => absurd ha.payload (by omega)⟩
      rename_i hpayload
      split
      · rename_i hsize
        exact .inl ⟨failed_errno _ s, hrefused fun ha => absurd ha.size (by omega)⟩
      rename_i hsize
      have hmax : relmKernelMaxSize = 0x4000000 := rfl
      have hlt := (loadGpa (.ofFile file)).isLt
      have hram := region.size.isLt
      split
      · rename_i hfits
        refine .inl ⟨failed_errno _ s, hrefused fun ha => ?_⟩
        have hin := ha.fits
        rw [← hlen, h.total, gt_iff_lt, BitVec.lt_def, add_offset rfl (by omega)] at hfits
        omega
      rename_i hfits
      rw [h.total, gt_iff_lt, BitVec.lt_def, not_lt] at hfits
      change (Failed ((relmVmCopyToGuest s (loadGpa (.ofFile file)) (kernelBytes file)).bind _) ∧ _) ∨ _
      by_cases hwrap : (loadGpa (.ofFile file)).toNat + (kernelBytes file).length < 2 ^ 64
      · have hsum : (loadGpa (.ofFile file) + BitVec.ofNat 64 (kernelBytes file).length).toNat =
            (loadGpa (.ofFile file)).toNat + (kernelBytes file).length := add_offset rfl hwrap
        rw [← hlen, hsum] at hfits
        obtain ⟨host, hcopy, hmem⟩ := h.copyTo _ _ hfits (by omega) (by omega)
        refine .inr ⟨file, host, rfl, ⟨by omega, hvalid, by omega, by omega, hfits⟩, ?_, hmem⟩
        change (relmVmCopyToGuest s (loadGpa (.ofFile file)) (kernelBytes file)).bind _ = _
        rw [hcopy]
        simp only [Except.bind, if_neg (show ¬ ((kernelBytes file).length : Int) < 0 by omega)]
        rfl
      · -- the sum wraps, so the first byte lies above guest RAM
        have hnot : region.contains (loadGpa (.ofFile file)) = false := by
          rw [← Bool.not_eq_true, GuestMemRegion.contains_iff, h.start, show (0 : U64).toNat = 0 from rfl]
          rintro ⟨-, hin, -⟩
          have hbound := h.size_le
          omega
        rw [h.copy_fault (by omega) hnot]
        exact .inl ⟨⟨-Errno.efault.code, s, rfl, by decide⟩, hrefused fun ha => absurd ha.fits (by omega)⟩

/-- There is no initrd, or it is refused, or it is in guest memory. -/
theorem initrdLoad_spec (h : FlatRam s region frames) (initrd : Except Errno (List Byte)) :
    Failed (relmInitrdLoad s initrd) ∨ ∃ host,
      relmInitrdLoad s initrd = .ok (.ok (BitVec.ofNat 32 (initrdBytes initrd).length), { s with host }) ∧
      ((initrdBytes initrd).length ≠ 0 → 0x4000000 + (initrdBytes initrd).length ≤ region.size.toNat) ∧
      guestByte host frames = patch (guestByte s.host frames) 0x4000000 (initrdBytes initrd) := by
  unfold relmInitrdLoad
  cases initrd with
  | error e => exact .inr ⟨s.host, rfl, fun hc => absurd rfl hc, (patch_nil _ _).symm⟩
  | ok file =>
    dsimp only
    split
    · exact .inl (failed_errno _ s)
    rename_i hsize
    have hmax : relmInitrdMaxSize = 62914560 := rfl
    split
    · exact .inl (failed_errno _ s)
    rename_i hfits
    rw [h.total, gt_iff_lt, BitVec.lt_def, not_lt,
      add_offset (show relmInitrdLoadGpa.toNat = 0x4000000 from rfl) (by omega)] at hfits
    by_cases hempty : file.length = 0
    · left
      change Failed ((relmVmCopyToGuest s relmInitrdLoadGpa file).bind _)
      rw [relmVmCopyToGuest, if_pos hempty]
      exact ⟨-Errno.einval.code, s, rfl, by decide⟩
    · obtain ⟨host, hcopy, hmem⟩ := h.copyTo relmInitrdLoadGpa file hfits hempty (by omega)
      refine .inr ⟨host, ?_, fun _ => hfits, hmem⟩
      change (relmVmCopyToGuest s relmInitrdLoadGpa file).bind _ = _
      rw [hcopy]
      simp only [Except.bind, if_neg (show ¬ (file.length : Int) < 0 by omega)]
      rfl

/-- The window of the command line is cleared, written and terminated; an empty line is an error. -/
theorem cmdlineLoad_spec (h : FlatRam s region frames) (hram : 0x200000 ≤ region.size.toNat) (cmdline : Option (List Byte)) :
    ((∃ ret t, relmCmdlineLoad s cmdline = .ok (ret, t) ∧ ret ≠ 0) ∧ cmdlineBytes cmdline = []) ∨ ∃ host,
      relmCmdlineLoad s cmdline = .ok (0, { s with host }) ∧ guestByte host frames =
        patch (patch (patch (guestByte s.host frames) 0x20000 (List.replicate 4096 0)) 0x20000 (cmdlineBytes cmdline))
          (0x20000 + (cmdlineBytes cmdline).length) [0] := by
  unfold relmCmdlineLoad
  have hlen : (cmdlineBytes cmdline).length ≤ 4095 := List.length_take_le ..
  have hgpa : relmCmdlineGpa.toNat = 0x20000 := rfl
  obtain ⟨h1, e1, m1⟩ := h.zero relmCmdlineGpa 4096 (by omega) (by decide) (by decide)
  simp only [relmCmdlineMaxLen, e1, bind, Except.bind, if_neg (show ¬ ((4096 : Nat) : Int) < 0 by decide)]
  change ((∃ ret t, (relmVmCopyToGuest { s with host := h1 } relmCmdlineGpa (cmdlineBytes cmdline)).bind _ = _ ∧ _) ∧ _) ∨ _
  by_cases hempty : (cmdlineBytes cmdline).length = 0
  · left
    rw [relmVmCopyToGuest, if_pos hempty]
    exact ⟨⟨-Errno.einval.code, _, rfl, by decide⟩, List.length_eq_zero_iff.mp hempty⟩
  right
  obtain ⟨h2, e2, m2⟩ := (h.withHost h1).copyTo relmCmdlineGpa (cmdlineBytes cmdline) (by omega) hempty (by omega)
  have haddr : (relmCmdlineGpa + BitVec.ofNat 64 (cmdlineBytes cmdline).length).toNat = 0x20000 + (cmdlineBytes cmdline).length :=
    add_offset hgpa (by omega)
  obtain ⟨h3, e3, m3⟩ := guestWrite_spec (h.withHost h2) (relmCmdlineGpa + BitVec.ofNat 64 (cmdlineBytes cmdline).length)
    [0] (by rw [haddr, List.length_singleton]; omega) (by decide) (by decide)
  refine ⟨h3, ?_, ?_⟩
  · change (relmVmCopyToGuest { s with host := h1 } relmCmdlineGpa (cmdlineBytes cmdline)).bind _ = _
    rw [e2]
    simp only [Except.bind, if_neg (show ¬ ((cmdlineBytes cmdline).length : Int) < 0 by omega)]
    exact e3
  · rw [m3, m2, m1, haddr]
    rfl

/-- The loop over the e820 map writes one record after the other. -/
private theorem writeE820_spec (i : Nat) (map : List E820Entry) (h : FlatRam s region frames)
    (hfit : 0x72D0 + (i + map.length) * 20 ≤ region.size.toNat) :
    ∃ host, writeE820 s i map = .ok (0, { s with host }) ∧
      guestByte host frames = patch (guestByte s.host frames) (0x72D0 + i * 20) (map.flatMap E820Entry.bytes) := by
  have hlt := region.size.isLt
  induction map generalizing i s with
  | nil => exact ⟨s.host, rfl, by simp⟩
  | cons e map ih =>
    rw [List.length_cons] at hfit
    have hl := entry_length e
    have hbase : (relmBootParamsGpa + relmBpOffsetE820Table).toNat = 0x72D0 := rfl
    have haddr : (relmBootParamsGpa + relmBpOffsetE820Table + BitVec.ofNat 64 (i * 20)).toNat = 0x72D0 + i * 20 :=
      add_offset hbase (by omega)
    obtain ⟨host, hcopy, hmem⟩ := h.copyTo (relmBootParamsGpa + relmBpOffsetE820Table + BitVec.ofNat 64 (i * 20)) e.bytes
      (by omega) (by omega) (by omega)
    obtain ⟨host', hrest, hmem'⟩ := ih (i + 1) (h.withHost host) (by omega)
    refine ⟨host', ?_, ?_⟩
    · rw [writeE820, hcopy]
      simp only [bind, Except.bind, if_neg (show ¬ (e.bytes.length : Int) < 0 by omega)]
      exact hrest
    · rw [hmem', hmem, haddr, List.flatMap_cons, ← patch_append, hl]
      congr 1
      omega

/-- The zero page is cleared, and the header, the number of e820 entries and the entries are written. -/
theorem bootParamsBuild_spec (h : FlatRam s region frames) {map : E820Map} (hmap : relmE820Build s.memory = .ok map)
    (hdr : SetupHeader) (initrdSize : U32) : ∃ host, relmBootParamsBuild s hdr initrdSize = .ok (0, { s with host }) ∧
      guestByte host frames = patch (patch (patch (patch (guestByte s.host frames) 0x7000 (List.replicate 0x1000 0)) 0x71F1
        (guestHeader hdr initrdSize).bytes) 0x71E8 [BitVec.ofNat 8 map.length]) 0x72D0 (map.flatMap E820Entry.bytes) := by
  have hbuilt := hmap
  rw [e820Build_eq, h.total] at hbuilt
  split at hbuilt
  · cases hbuilt
  rename_i hram
  rw [BitVec.lt_def, not_lt, show (0x200000#64).toNat = 0x200000 from rfl] at hram
  have hcount : map.length = 4 := by
    rw [← Except.ok.inj hbuilt]
    rfl
  have hlen : (guestHeader hdr initrdSize).bytes.length = 123 := List.length_ofFn
  have hgpa : relmBootParamsGpa.toNat = 0x7000 := rfl
  have hhdr : (relmBootParamsGpa + relmBpOffsetHdr).toNat = 0x71F1 := rfl
  have hnum : (relmBootParamsGpa + relmBpOffsetE820Entries).toNat = 0x71E8 := rfl
  obtain ⟨h1, e1, m1⟩ := h.zero relmBootParamsGpa 0x1000 (by omega) (by decide) (by decide)
  obtain ⟨h2, e2, m2⟩ := (h.withHost h1).copyTo (relmBootParamsGpa + relmBpOffsetHdr) (guestHeader hdr initrdSize).bytes
    (by omega) (by omega) (by omega)
  obtain ⟨h3, e3, m3⟩ := guestWrite_spec (h.withHost h2) (relmBootParamsGpa + relmBpOffsetE820Entries)
    [BitVec.ofNat 8 map.length] (by rw [hnum, List.length_singleton]; omega) (by simp) (by simp)
  obtain ⟨h4, e4, m4⟩ := writeE820_spec 0 map (h.withHost h3) (by omega)
  refine ⟨h4, ?_, ?_⟩
  · unfold relmBootParamsBuild
    simp only [relmBpSize, e1, bind, Except.bind, if_neg (show ¬ ((0x1000 : Nat) : Int) < 0 by decide), hmap,
      if_neg (show ¬ map.length > relmBpE820Max by rw [hcount]; decide), e2,
      if_neg (show ¬ ((guestHeader hdr initrdSize).bytes.length : Int) < 0 by omega), relmGuestWriteU8, e3, ne_eq,
      not_true_eq_false, if_false]
    exact e4
  · rw [m4, m3, m2, m1]
    rfl

/-- Less than 2 MiB of guest RAM is an error. -/
theorem bootParamsBuild_small (hram : s.memory.totalGuestRam < 0x200000#64) {hdr : SetupHeader} {initrdSize : U32} {ret : Int}
    {t : VmState} (heq : relmBootParamsBuild s hdr initrdSize = .ok (ret, t)) : ret ≠ 0 := by
  unfold relmBootParamsBuild at heq
  cases hz : relmVmZeroGuestMemory s relmBootParamsGpa relmBpSize with
  | error fault =>
    rw [hz] at heq
    cases heq
  | ok r =>
    obtain ⟨ret', u⟩ := r
    have hu : u.memory = s.memory := zeroGuestMemory_memory hz
    rw [hz] at heq
    simp only [bind, Except.bind, e820Build_eq, hu, if_pos hram] at heq
    split at heq
    · cases heq
      omega
    · cases heq
      decide

/-- The tables of descriptors and the stubs, each in a cleared page. -/
theorem installDiag_spec (h : FlatRam s region frames) (hram : 0x200000 ≤ region.size.toNat) :
    ∃ host, relmInstallDiagIdtGdt s = .ok (0, { s with host }) ∧ guestByte host frames =
      patch (patch (patch (patch (guestByte s.host frames) 0x4000 (List.replicate 0x3000 0)) 0x4000 gdtBytes) 0x6000
        stubBytes) 0x5000 gateBytes := by
  have hgdt : relmGuestGdtGpa.toNat = 0x4000 := rfl
  have hidt : relmGuestIdtGpa.toNat = 0x5000 := rfl
  have hstub : relmGuestIdtStubsGpa.toNat = 0x6000 := rfl
  have hentry : ∀ i < 3, (relmGuestGdtGpa + BitVec.ofNat 64 (i * 8)).toNat = 0x4000 + i * 8 :=
    fun i hi => add_offset hgdt (by omega)
  have hl := leBytes_length 8
  obtain ⟨h1, e1, m1⟩ := h.zero relmGuestGdtGpa 0x1000 (by omega) (by decide) (by decide)
  obtain ⟨h2, e2, m2⟩ := (h.withHost h1).zero relmGuestIdtGpa 0x1000 (by omega) (by decide) (by decide)
  obtain ⟨h3, e3, m3⟩ := (h.withHost h2).zero relmGuestIdtStubsGpa 0x1000 (by omega) (by decide) (by decide)
  obtain ⟨h4, e4, m4⟩ := guestWrite_spec (h.withHost h3) (relmGuestGdtGpa + BitVec.ofNat 64 (0 * 8)) (leBytes 8 0)
    (by rw [hentry 0 (by decide), hl]; omega) (by rw [hl]; decide) (by rw [hl]; decide)
  obtain ⟨h5, e5, m5⟩ := guestWrite_spec (h.withHost h4) (relmGuestGdtGpa + BitVec.ofNat 64 (1 * 8))
    (leBytes 8 0x00AF9B000000FFFF#64) (by rw [hentry 1 (by decide), hl]; omega) (by rw [hl]; decide) (by rw [hl]; decide)
  obtain ⟨h6, e6, m6⟩ := guestWrite_spec (h.withHost h5) (relmGuestGdtGpa + BitVec.ofNat 64 (2 * 8))
    (leBytes 8 0x00CF93000000FFFF#64) (by rw [hentry 2 (by decide), hl]; omega) (by rw [hl]; decide) (by rw [hl]; decide)
  obtain ⟨h7, e7, m7⟩ := forVectors_spec relmWriteIdtStub relmGuestIdtStubsGpa
    (fun vec => relmIdtStubTemplate.set 1 (BitVec.ofNat 8 vec)) (fun _ _ => rfl) (fun v => List.length_set ..) 0 256
    (h.withHost h6) (by omega)
  obtain ⟨h8, e8, m8⟩ := forVectors_spec (fun s vec => relmWriteIdtGate s vec (stubGpa vec)) relmGuestIdtGpa
    (fun vec => idtGate (stubGpa vec)) (fun _ _ => rfl) (fun v => rfl) 0 256 (h.withHost h7) (by omega)
  refine ⟨h8, ?_, ?_⟩
  · unfold relmInstallDiagIdtGdt
    simp only [relmGuestIdtSize, relmGuestIdtStubsSize, relmGuestIdtStubsStride, Nat.reduceMul, e1, e2, e3, bind, Except.bind,
      if_neg (show ¬ ((0x1000 : Nat) : Int) < 0 by decide), relmWriteGdtEntry, e4, e5, e6, ne_eq, not_true_eq_false, if_false,
      List.range_eq_range', e7]
    exact e8
  · have hz : (List.replicate 0x1000 (0 : Byte)).length = 0x1000 := List.length_replicate
    have hzeros : ∀ m : Nat → Byte, patch (patch (patch m 0x4000 (List.replicate 0x1000 0)) 0x5000 (List.replicate 0x1000 0))
        0x6000 (List.replicate 0x1000 0) = patch m 0x4000 (List.replicate 0x3000 0) := by
      intro m
      rw [show 0x3000 = 0x1000 + 0x1000 + 0x1000 from rfl, List.replicate_add, List.replicate_add, ← patch_append,
        ← patch_append, List.length_append, hz]
    have hdescs : ∀ m : Nat → Byte, patch (patch (patch m (0x4000 + 0 * 8) (leBytes 8 0)) (0x4000 + 1 * 8)
        (leBytes 8 0x00AF9B000000FFFF#64)) (0x4000 + 2 * 8) (leBytes 8 0x00CF93000000FFFF#64) = patch m 0x4000 gdtBytes := by
      intro m
      rw [gdtBytes, ← patch_append, ← patch_append, List.length_append, hl, hl]
    simp only at m2 m3 m4 m5 m6 m7 m8
    rw [m8, m7, m6, m5, m4, m3, m2, m1, hentry 0 (by decide), hentry 1 (by decide), hentry 2 (by decide), hgdt, hidt, hstub,
      hzeros, hdescs, stubBytes, gateBytes, List.range_eq_range']

end Loaders

section Memory

variable {m : Nat → Byte} {start n : Nat} {image : Nat → Byte}

/-- Guest memory after the command line, `boot_params` and the descriptor tables have been written. -/
def cmdlineMem (m : Nat → Byte) (cmdline : List Byte) : Nat → Byte :=
  patch (patch (patch m 0x20000 (List.replicate 4096 0)) 0x20000 cmdline) (0x20000 + cmdline.length) [0]

def bootParamsMem (m : Nat → Byte) (hdr : List Byte) (map : E820Map) : Nat → Byte :=
  patch (patch (patch (patch m 0x7000 (List.replicate 0x1000 0)) 0x71F1 hdr) 0x71E8 [BitVec.ofNat 8 map.length]) 0x72D0
    (map.flatMap E820Entry.bytes)

def descriptorMem (m : Nat → Byte) : Nat → Byte :=
  patch (patch (patch (patch m 0x4000 (List.replicate 0x3000 0)) 0x4000 gdtBytes) 0x6000 stubBytes) 0x5000 gateBytes

private theorem gdtBytes_length : gdtBytes.length = 24 := by simp [gdtBytes, leBytes_length]

private theorem stubBytes_length : stubBytes.length = 4096 := by
  rw [stubBytes, flatMap_length _ (fun _ => List.length_set ..), List.length_range]
  rfl

private theorem gateBytes_length : gateBytes.length = 4096 := by
  rw [gateBytes, flatMap_length (n := 16) _ (fun _ => rfl), List.length_range]

private theorem cmdlineMem_holds (m : Nat → Byte) (cmdline : List Byte) :
    HoldsAt (cmdlineMem m cmdline) 0x20000 4096 (patch (fun _ => 0) 0 cmdline) := by
  have hz := ((HoldsAt.of_replicate m 0x20000 4096 0).patch_within 0 cmdline).patch_within cmdline.length [0]
  intro k hk
  refine (hz k hk).trans ?_
  by_cases hlen : k = cmdline.length
  · rw [hlen, patch_of_mem le_rfl (by simp), patch_of_ge (by omega)]
    simp
  · exact patch_outside (by simp; omega)

private theorem cmdlineMem_keeps (h : HoldsAt m start n image) {cmdline : List Byte} (hlen : cmdline.length ≤ 4095)
    (hd : ∀ x, start ≤ x → x < start + n → ¬ (0x20000 ≤ x ∧ x < 0x21000)) : HoldsAt (cmdlineMem m cmdline) start n image := by
  refine ((h.patch_disjoint ?_).patch_disjoint ?_).patch_disjoint ?_ <;> intro x h1 h2 h3 h4
  · rw [List.length_replicate] at h4
    exact hd x h1 h2 (by omega)
  · exact hd x h1 h2 (by omega)
  · rw [List.length_singleton] at h4
    exact hd x h1 h2 (by omega)

private theorem bootParamsMem_holds (m : Nat → Byte) (hdr : SetupHeader) (initrdSize : U32) (map : E820Map) :
    HoldsAt (bootParamsMem m (guestHeader hdr initrdSize).bytes map) 0x7000 0x1000 (bootParamsImage hdr initrdSize map) :=
  (((HoldsAt.of_replicate m 0x7000 0x1000 0).patch_within 0x1F1 _).patch_within 0x1E8 _).patch_within 0x2D0 _

private theorem bootParamsMem_keeps (h : HoldsAt m start n image) {hdr : List Byte} {map : E820Map} (hhdr : hdr.length = 123)
    (hmap : map.length = 4) (hd : ∀ x, start ≤ x → x < start + n → ¬ (0x7000 ≤ x ∧ x < 0x8000)) :
    HoldsAt (bootParamsMem m hdr map) start n image := by
  refine (((h.patch_disjoint ?_).patch_disjoint ?_).patch_disjoint ?_).patch_disjoint ?_ <;> intro x h1 h2 h3 h4
  · rw [List.length_replicate] at h4
    exact hd x h1 h2 (by omega)
  · exact hd x h1 h2 (by omega)
  · rw [List.length_singleton] at h4
    exact hd x h1 h2 (by omega)
  · rw [flatMap_length _ entry_length, hmap] at h4
    exact hd x h1 h2 (by omega)

private theorem descriptorMem_holds (m : Nat → Byte) :
    HoldsAt (descriptorMem m) 0x4000 0x1000 (patch (fun _ => 0) 0 gdtBytes) ∧
      HoldsAt (descriptorMem m) 0x5000 0x1000 (patch (fun _ => 0) 0 gateBytes) ∧
      HoldsAt (descriptorMem m) 0x6000 0x1000 (patch (fun _ => 0) 0 stubBytes) := by
  have hzero := HoldsAt.of_replicate m 0x4000 0x3000 0
  have hgdt := gdtBytes_length
  have hstub := stubBytes_length
  have hgate := gateBytes_length
  refine ⟨?_, ?_, ?_⟩
  · have h := (hzero.sub 0 0x1000 (by decide)).patch_within 0 gdtBytes
    refine (h.patch_disjoint ?_).patch_disjoint ?_ <;> intro x h1 h2 h3 h4 <;> omega
  · have h := hzero.sub 0x1000 0x1000 (by decide)
    refine HoldsAt.patch_within ((h.patch_disjoint ?_).patch_disjoint ?_) 0 gateBytes <;> intro x h1 h2 h3 h4 <;> omega
  · have h := hzero.sub 0x2000 0x1000 (by decide)
    refine ((h.patch_disjoint ?_).patch_within 0 stubBytes).patch_disjoint ?_ <;> intro x h1 h2 h3 h4 <;> omega

private theorem descriptorMem_keeps (h : HoldsAt m start n image)
    (hd : ∀ x, start ≤ x → x < start + n → ¬ (0x4000 ≤ x ∧ x < 0x7000)) : HoldsAt (descriptorMem m) start n image := by
  have hgdt := gdtBytes_length
  have hstub := stubBytes_length
  have hgate := gateBytes_length
  refine (((h.patch_disjoint ?_).patch_disjoint ?_).patch_disjoint ?_).patch_disjoint ?_ <;> intro x h1 h2 h3 h4
  · rw [List.length_replicate] at h4
    exact hd x h1 h2 (by omega)
  all_goals exact hd x h1 h2 (by omega)

end Memory

section BootLoad

variable {b b' : BootVm} {region : GuestMemRegion} {frames : List U64} {input : BootInput}

private theorem copyToGuest_memory {s t : VmState} {gpa : U64} {data : List Byte} {ret : Int}
    (h : relmVmCopyToGuest s gpa data = .ok (ret, t)) : t.memory = s.memory := by
  unfold relmVmCopyToGuest at h
  split at h
  · cases h
    rfl
  · generalize accessLoop _ _ _ _ _ _ _ _ = r at h
    cases r with
    | error fault => cases h
    | ok r =>
      cases h
      rfl

private theorem cmdlineLoad_memory {s t : VmState} {cmdline : Option (List Byte)} {ret : Int}
    (h : relmCmdlineLoad s cmdline = .ok (ret, t)) : t.memory = s.memory := by
  unfold relmCmdlineLoad at h
  cases hz : relmVmZeroGuestMemory s relmCmdlineGpa relmCmdlineMaxLen with
  | error fault =>
    rw [hz] at h
    cases h
  | ok r =>
    have hr := zeroGuestMemory_memory hz
    simp only [hz, bind, Except.bind] at h
    split at h
    · cases h
      exact hr
    · generalize hcopy : relmVmCopyToGuest r.2 relmCmdlineGpa _ = c at h
      cases c with
      | error fault => cases h
      | ok c =>
        have hc := copyToGuest_memory hcopy
        simp only at h
        split at h
        · cases h
          exact hc.trans hr
        · unfold relmGuestWriteU8 guestWrite at h
          generalize hlast : relmVmCopyToGuest c.2 _ [0] = w at h
          cases w with
          | error fault => cases h
          | ok w =>
            cases h
            exact (copyToGuest_memory hlast).trans (hc.trans hr)

/-- What a successful `relm_boot_load` has accepted, and the guest memory it leaves. -/
structure Booted (ram : Nat) (m : Nat → Byte) (map : E820Map) (input : BootInput) (file : List Byte) (m' : Nat → Byte) : Prop where
  kernel : input.kernel = .ok file
  accepted : KernelAccepted ram file
  initrd : (initrdBytes input.initrd).length ≠ 0 → 0x4000000 + (initrdBytes input.initrd).length ≤ ram
  size : 0x200000 ≤ ram
  memory : m' = descriptorMem (bootParamsMem (cmdlineMem (patch (patch m (loadGpa (.ofFile file)).toNat (kernelBytes file))
    0x4000000 (initrdBytes input.initrd)) (cmdlineBytes input.cmdline))
    (guestHeader (.ofFile file) (BitVec.ofNat 32 (initrdBytes input.initrd).length)).bytes map)

private theorem small_ram_fails {s : VmState} (hram : s.memory.totalGuestRam < 0x200000#64) {hdr : SetupHeader} {initrdSize : U32}
    {entryGpa : U64} (hr : (do
      let (ret, s) ← relmCmdlineLoad s input.cmdline
      if ret ≠ 0 then return (ret, { b with vm := s })
      let (ret, s) ← relmBootParamsBuild s hdr initrdSize
      if ret ≠ 0 then return (ret, { b with vm := s })
      let b := { b with bootParamsGpa := relmBootParamsGpa }
      let (ret, s) ← relmInstallDiagIdtGdt s
      if ret ≠ 0 then return (ret, { b with vm := s })
      return (0, { b with vm := s, kernelEntryGpa := entryGpa }) : Except HostFault (Int × BootVm)) = .ok (0, b')) : False := by
  cases hcmd : relmCmdlineLoad s input.cmdline with
  | error fault =>
    rw [hcmd] at hr
    cases hr
  | ok r =>
    obtain ⟨ret, t⟩ := r
    have hmem := cmdlineLoad_memory hcmd
    simp only [hcmd, bind, Except.bind] at hr
    split at hr
    · rename_i hne
      cases hr
      exact hne rfl
    cases hbp : relmBootParamsBuild t hdr initrdSize with
    | error fault =>
      rw [hbp] at hr
      cases hr
    | ok r =>
      obtain ⟨ret', u⟩ := r
      have hne := bootParamsBuild_small (by rw [hmem]; exact hram) hbp
      simp only [hbp, if_pos hne] at hr
      cases hr
      exact hne rfl

/-- A boot that returns 0 has accepted its files and written all its components, in the order of the source. -/
theorem bootLoad_spec (h : FlatRam b.vm region frames) (hr : relmBootLoad b input = .ok (0, b')) :
    ∃ map file, relmE820Build b.vm.memory = .ok map ∧ map.length = 4 ∧
      Booted region.size.toNat (guestByte b.vm.host frames) map input file (guestByte b'.vm.host frames) ∧
      FlatRam b'.vm region frames ∧ b'.vm.memory = b.vm.memory ∧
      b'.kernelEntryGpa = loadGpa (.ofFile file) + relmStartup64Offset := by
  unfold relmBootLoad at hr
  rcases kernelLoad_spec h input.kernel with ⟨⟨ret, t, he, hne⟩, -⟩ | ⟨file, h1, hfile, hacc, he, m1⟩
  · simp only [he, bind, Except.bind] at hr
    cases hr
    exact absurd rfl hne
  simp only [he, bind, Except.bind] at hr
  rcases initrdLoad_spec (h.withHost h1) input.initrd with ⟨ret, t, he, hne⟩ | ⟨h2, he, hinitrd, m2⟩
  · simp only [he] at hr
    cases hr
    exact absurd rfl hne
  simp only [he] at hr
  by_cases hram : b.vm.memory.totalGuestRam < 0x200000#64
  · exact (small_ram_fails (s := { b.vm with host := h2 }) hram hr).elim
  have hsize : 0x200000 ≤ region.size.toNat := by
    rw [h.total, BitVec.lt_def, not_lt] at hram
    exact hram
  have hmap := e820Build_eq b.vm.memory
  rw [if_neg hram] at hmap
  rcases cmdlineLoad_spec (h.withHost h2) hsize input.cmdline with ⟨⟨ret, t, he, hne⟩, -⟩ | ⟨h3, he, m3⟩
  · simp only [he, if_pos hne] at hr
    cases hr
    exact absurd rfl hne
  simp only [he, ne_eq, not_true_eq_false, if_false] at hr
  obtain ⟨h4, he, m4⟩ := bootParamsBuild_spec (h.withHost h3) hmap (.ofFile file) (BitVec.ofNat 32 (initrdBytes input.initrd).length)
  simp only [he, not_true_eq_false, if_false] at hr
  obtain ⟨h5, he, m5⟩ := installDiag_spec (h.withHost h4) hsize
  simp only [he, not_true_eq_false, if_false] at hr
  cases hr
  refine ⟨_, file, hmap, rfl, ⟨hfile, hacc, hinitrd, hsize, ?_⟩, h.withHost h5, rfl, rfl⟩
  simp only at m1 m2 m3 m4 m5
  rw [m5, m4, m3, m2, m1]
  rfl

/-- Files that are accepted are booted, with a command line and without an initrd. -/
private theorem bootLoad_accepted (h : FlatRam b.vm region frames) (hsize : 0x200000 ≤ region.size.toNat) {file : List Byte}
    (hfile : KernelAccepted region.size.toNat file) {cmdline : List Byte} (hcmd : cmdline ≠ []) (e : Errno) :
    ∃ b', relmBootLoad b ⟨.ok file, .error e, some cmdline⟩ = .ok (0, b') := by
  unfold relmBootLoad
  rcases kernelLoad_spec h (.ok file) with ⟨-, hnot⟩ | ⟨file', h1, hf, -, he, -⟩
  · exact absurd hfile (hnot file rfl)
  cases hf
  simp only [he, bind, Except.bind]
  rcases initrdLoad_spec (h.withHost h1) (.error e) with ⟨ret, t, he, hne⟩ | ⟨h2, he, -, -⟩
  · cases he
  simp only [he]
  have hram : ¬ b.vm.memory.totalGuestRam < 0x200000#64 := by
    rw [h.total, BitVec.lt_def, not_lt]
    exact hsize
  have hmap := e820Build_eq b.vm.memory
  rw [if_neg hram] at hmap
  rcases cmdlineLoad_spec (h.withHost h2) hsize (some cmdline) with ⟨-, hempty⟩ | ⟨h3, he, -⟩
  · exact absurd hempty (by simpa [cmdlineBytes, relmCmdlineMaxLen] using hcmd)
  simp only [he, ne_eq, not_true_eq_false, if_false]
  obtain ⟨h4, he, -⟩ := bootParamsBuild_spec (h.withHost h3) hmap (.ofFile file) (BitVec.ofNat 32 0)
  simp only [initrdBytes, Except.toOption, Option.getD_none, List.length_nil, he, not_true_eq_false, if_false]
  obtain ⟨h5, he, -⟩ := installDiag_spec (h.withHost h4) hsize
  simp only [he, not_true_eq_false, if_false]
  exact ⟨_, rfl⟩

end BootLoad

/-- The file that is booted. -/
def BootInput.kernelFile (input : BootInput) : List Byte := input.kernel.toOption.getD []

def BootInput.loadGpa (input : BootInput) : U64 := Boot.loadGpa (.ofFile input.kernelFile)

/-- What `relm_boot_load` and `relm_ept_create_guest_page_tables` place in guest memory, each where it is placed and as
it is built: the kernel, the initrd, the command line, `boot_params`, the GDT, the IDT, its stubs and the page tables. -/
def bootComponents (memory : VmMemory) (input : BootInput) : List Component :=
  [{ start := input.loadGpa.toNat, length := (kernelBytes input.kernelFile).length,
     image := fun k => (kernelBytes input.kernelFile).getD k 0 },
   { start := relmInitrdLoadGpa.toNat, length := (initrdBytes input.initrd).length,
     image := fun k => (initrdBytes input.initrd).getD k 0 },
   { start := relmCmdlineGpa.toNat, length := relmCmdlineMaxLen, image := patch (fun _ => 0) 0 (cmdlineBytes input.cmdline) },
   { start := relmBootParamsGpa.toNat, length := relmBpSize,
     image := bootParamsImage (.ofFile input.kernelFile) (BitVec.ofNat 32 (initrdBytes input.initrd).length)
       ((relmE820Build memory).toOption.getD []) },
   { start := relmGuestGdtGpa.toNat, length := 0x1000, image := patch (fun _ => 0) 0 gdtBytes },
   { start := relmGuestIdtGpa.toNat, length := relmGuestIdtSize, image := patch (fun _ => 0) 0 gateBytes },
   { start := relmGuestIdtStubsGpa.toNat, length := relmGuestIdtStubsSize, image := patch (fun _ => 0) 0 stubBytes },
   { start := memory.totalGuestRam.toNat - 0x3000, length := 0x3000,
     image := tablesImage (memory.totalGuestRam - 3#64 * pageSize) }]

/-- The components lie apart from each other in guest RAM, guest memory holds each, and the entry point is right. -/
structure LayoutIntact (b : BootVm) (input : BootInput) : Prop where
  inside : ∀ c ∈ bootComponents b.vm.memory input, ∀ x, c.Occupies x → x < b.vm.memory.totalGuestRam.toNat
  disjoint : (bootComponents b.vm.memory input).Pairwise fun c d => ∀ x, c.Occupies x → ¬ d.Occupies x
  intact : ∀ c ∈ bootComponents b.vm.memory input,
    HoldsAt (fun a => b.vm.ramByte (BitVec.ofNat 64 a)) c.start c.length c.image
  entry : b.kernelEntryGpa = input.loadGpa + relmStartup64Offset

/-- The kernel, of `n` bytes from `load` on, keeps out of the low components, of the initrd, of `m` bytes, and of the
page tables, and the initrd keeps out of these. -/
def LayoutFits (load n m ram : Nat) : Prop :=
  (load + n ≤ 0x4000 ∨ (0x8000 ≤ load ∧ load + n ≤ 0x20000) ∨ 0x21000 ≤ load) ∧
    (m = 0 ∨ load + n ≤ 0x4000000 ∨ 0x4000000 + m ≤ load) ∧ load + n ≤ ram - 0x3000 ∧ (m = 0 ∨ 0x4000000 + m ≤ ram - 0x3000)

section Layout

/-- Two ranges that are not empty share no address only if one ends before the other starts. -/
private theorem ordered_of_disjoint {c d : Component} (h : ∀ x, c.Occupies x → ¬ d.Occupies x) (hc : 0 < c.length)
    (hd : 0 < d.length) : c.start + c.length ≤ d.start ∨ d.start + d.length ≤ c.start := by
  by_contra hno
  rw [not_or, not_le, not_le] at hno
  have hx := h (max c.start d.start)
  simp only [Component.Occupies] at hx
  exact hx (by omega) (by omega)

/-- Where the components lie apart from each other. -/
private theorem disjoint_iff {memory : VmMemory} {input : BootInput} (hpos : 0 < (kernelBytes input.kernelFile).length)
    (hram : 0x200000 ≤ memory.totalGuestRam.toNat) :
    ((bootComponents memory input).Pairwise fun c d => ∀ x, c.Occupies x → ¬ d.Occupies x) ↔
      (input.loadGpa.toNat + (kernelBytes input.kernelFile).length ≤ 0x4000 ∨ (0x8000 ≤ input.loadGpa.toNat ∧
        input.loadGpa.toNat + (kernelBytes input.kernelFile).length ≤ 0x20000) ∨ 0x21000 ≤ input.loadGpa.toNat) ∧
      ((initrdBytes input.initrd).length = 0 ∨ input.loadGpa.toNat + (kernelBytes input.kernelFile).length ≤ 0x4000000 ∨
        0x4000000 + (initrdBytes input.initrd).length ≤ input.loadGpa.toNat) ∧
      (input.loadGpa.toNat + (kernelBytes input.kernelFile).length ≤ memory.totalGuestRam.toNat - 0x3000 ∨
        memory.totalGuestRam.toNat ≤ input.loadGpa.toNat) ∧
      ((initrdBytes input.initrd).length = 0 ∨ 0x4000000 + (initrdBytes input.initrd).length ≤ memory.totalGuestRam.toNat - 0x3000 ∨
        memory.totalGuestRam.toNat ≤ 0x4000000) := by
  have hpage : 0 < 0x1000 := by decide
  have hthree : 0 < 0x3000 := by decide
  simp only [bootComponents, List.pairwise_cons, List.forall_mem_cons]
  constructor
  · rintro ⟨⟨k1, k2, k3, k4, k5, k6, k7, -⟩, ⟨i1, i2, i3, i4, i5, i6, -⟩, -⟩
    have hc2 := ordered_of_disjoint k2 hpos hpage
    have hc3 := ordered_of_disjoint k3 hpos hpage
    have hc4 := ordered_of_disjoint k4 hpos hpage
    have hc5 := ordered_of_disjoint k5 hpos hpage
    have hc6 := ordered_of_disjoint k6 hpos hpage
    have hc7 := ordered_of_disjoint k7 hpos hthree
    have hi : (initrdBytes input.initrd).length = 0 ∨ 0 < (initrdBytes input.initrd).length := Nat.eq_zero_or_pos _
    have hc1 := hi.imp id fun hm => ordered_of_disjoint k1 hpos hm
    have hi6 := hi.imp id fun hm => ordered_of_disjoint i6 hm hthree
    simp only [relmInitrdLoadGpa, relmCmdlineGpa, relmCmdlineMaxLen, relmBootParamsGpa, relmBpSize, relmGuestGdtGpa,
      relmGuestIdtGpa, relmGuestIdtSize, relmGuestIdtStubsGpa, relmGuestIdtStubsSize, relmGuestIdtStubsStride,
      BitVec.toNat_ofNat, Nat.reducePow, Nat.reduceMod, Nat.reduceMul] at hc1 hc2 hc3 hc4 hc5 hc6 hc7 hi6
    omega
  · rintro ⟨hlow, hinitrd, htables, hitables⟩
    simp only [Component.Occupies, relmInitrdLoadGpa, relmCmdlineGpa, relmCmdlineMaxLen, relmBootParamsGpa, relmBpSize,
      relmGuestGdtGpa, relmGuestIdtGpa, relmGuestIdtSize, relmGuestIdtStubsGpa, relmGuestIdtStubsSize, relmGuestIdtStubsStride,
      BitVec.toNat_ofNat, Nat.reducePow, Nat.reduceMod, Nat.reduceMul]
    refine ⟨⟨?_, ?_, ?_, ?_, ?_, ?_, ?_, by simp⟩, ⟨?_, ?_, ?_, ?_, ?_, ?_, by simp⟩, ⟨?_, ?_, ?_, ?_, ?_, by simp⟩,
      ⟨?_, ?_, ?_, ?_, by simp⟩, ⟨?_, ?_, ?_, by simp⟩, ⟨?_, ?_, by simp⟩, ⟨?_, by simp⟩, by simp⟩ <;> intro x hx hx' <;> omega

/-- What lies outside the command line, `boot_params` and the descriptor tables stays when these are written. -/
private theorem low_keeps {m : Nat → Byte} {start n : Nat} {image : Nat → Byte} {cmdline hdr : List Byte} {map : E820Map}
    (h : HoldsAt m start n image) (hcmd : cmdline.length ≤ 4095) (hhdr : hdr.length = 123) (hmap : map.length = 4)
    (hout : start + n ≤ 0x4000 ∨ (0x8000 ≤ start ∧ start + n ≤ 0x20000) ∨ 0x21000 ≤ start) :
    HoldsAt (descriptorMem (bootParamsMem (cmdlineMem m cmdline) hdr map)) start n image := by
  apply descriptorMem_keeps
  · apply bootParamsMem_keeps _ hhdr hmap
    · intro x h1 h2 h3
      omega
    · apply cmdlineMem_keeps h hcmd
      intro x h1 h2 h3
      omega
  · intro x h1 h2 h3
    omega

/-- In a layout that fits, each component stays as it was written. -/
theorem booted_holds {ram : Nat} {m m' : Nat → Byte} {memory : VmMemory} {map : E820Map} {input : BootInput}
    {file : List Byte} (hb : Booted ram m map input file m') (htotal : memory.totalGuestRam.toNat = ram)
    (hmap : relmE820Build memory = .ok map) (hcount : map.length = 4)
    (htables : HoldsAt m (ram - 0x3000) 0x3000 (tablesImage (memory.totalGuestRam - 3#64 * pageSize)))
    (hfits : LayoutFits input.loadGpa.toNat (kernelBytes input.kernelFile).length (initrdBytes input.initrd).length ram) :
    ∀ c ∈ bootComponents memory input, HoldsAt m' c.start c.length c.image := by
  obtain ⟨hlow, hinitrd, htop, hitop⟩ := hfits
  have hfile : input.kernelFile = file := by
    rw [BootInput.kernelFile, hb.kernel]
    rfl
  have hsize := hb.size
  have hcmd : (cmdlineBytes input.cmdline).length ≤ 4095 := List.length_take_le ..
  have hhdr : (guestHeader (.ofFile file) (BitVec.ofNat 32 (initrdBytes input.initrd).length)).bytes.length = 123 :=
    List.length_ofFn
  have hgetD : ∀ (l : List Byte) k (hk : k < l.length), l[k] = l.getD k 0 := fun l k hk => (List.getD_eq_getElem l 0 hk).symm
  have hmem := hb.memory
  rw [← hfile] at hmem hhdr
  change m' = descriptorMem (bootParamsMem (cmdlineMem (patch (patch m input.loadGpa.toNat _) _ _) _) _ _) at hmem
  obtain ⟨hgdt, hidt, hstubs⟩ := descriptorMem_holds (bootParamsMem (cmdlineMem (patch (patch m input.loadGpa.toNat
    (kernelBytes input.kernelFile)) 0x4000000 (initrdBytes input.initrd)) (cmdlineBytes input.cmdline))
    (guestHeader (.ofFile input.kernelFile) (BitVec.ofNat 32 (initrdBytes input.initrd).length)).bytes map)
  rw [← hmem] at hgdt hidt hstubs
  simp only [bootComponents, List.forall_mem_cons, htotal, hmap]
  refine ⟨?_, ?_, ?_, ?_, hgdt, hidt, hstubs, ?_, by simp⟩
  · rw [hmem]
    refine low_keeps (HoldsAt.patch_disjoint (HoldsAt.of_patch _ _ _ _ (hgetD _)) ?_) hcmd hhdr hcount hlow
    intro x h1 h2 h3 h4
    omega
  · rw [hmem]
    exact low_keeps (HoldsAt.of_patch _ _ _ _ (hgetD _)) hcmd hhdr hcount (.inr (.inr (by decide)))
  · rw [hmem]
    refine descriptorMem_keeps (bootParamsMem_keeps (cmdlineMem_holds _ _) hhdr hcount ?_) ?_ <;> intro x h1 h2 h3
    · change 0x20000 ≤ x at h1
      omega
    · change 0x20000 ≤ x at h1
      omega
  · rw [hmem]
    refine descriptorMem_keeps (bootParamsMem_holds _ _ _ _) ?_
    intro x h1 h2 h3
    change 0x7000 ≤ x at h1
    omega
  · rw [hmem]
    refine low_keeps (HoldsAt.patch_disjoint (htables.patch_disjoint ?_) ?_) hcmd hhdr hcount (.inr (.inr ?_))
    · intro x h1 h2 h3 h4
      omega
    · intro x h1 h2 h3 h4
      omega
    · omega

/-- What guest memory holds, the accessors find. -/
private theorem ramByte_holds {s : VmState} {region : GuestMemRegion} {frames : List U64} (h : FlatRam s region frames)
    {start n : Nat} {image : Nat → Byte} (hh : HoldsAt (guestByte s.host frames) start n image)
    (hin : start + n ≤ region.size.toNat) : HoldsAt (fun a => s.ramByte (BitVec.ofNat 64 a)) start n image := by
  intro k hk
  rw [← hh k hk]
  exact h.ramByte_eq (by omega)

/-- A host that hands out its first frames in order. -/
def stockedHost (pages : Nat) : Host :=
  Host.idle ((List.range pages).map fun i => some (BitVec.ofNat 64 (i * 4096))) (List.replicate 6 true)

theorem stockedHost_supplied {pages : Nat} (hp : pages ≤ 2 ^ 20) : (stockedHost pages).Supplied pages 6 := by
  refine ⟨⟨(List.range pages).map fun i => BitVec.ofNat 64 (i * 4096), by simp, ?_, ?_, ?_⟩, List.prefix_rfl⟩
  · rw [List.map_map]
    exact List.prefix_rfl
  · refine List.Nodup.map_on (fun i hi j hj heq => ?_) List.nodup_range
    rw [List.mem_range] at hi hj
    have hnat := congrArg BitVec.toNat heq
    rw [BitVec.toNat_ofNat, BitVec.toNat_ofNat] at hnat
    omega
  · intro f hf
    obtain ⟨i, hi, rfl⟩ := List.mem_map.mp hf
    rw [List.mem_range] at hi
    refine ⟨⟨?_, ?_⟩, rfl, List.not_mem_nil⟩ <;> rw [BitVec.toNat_ofNat] <;> omega

/-- A header that passes, with the given preferred address. -/
def sampleHeader (pref : U64) : SetupHeader :=
  (((((SetupHeader.set (fun _ => 0) .bootFlag relmBootFlagMagic).set .header relmBootHdrsMagic).set .version
    relmBootProtocolMin).set .xloadflags relmXlfKernel64).set .loadflags relmLoadflagsLoadedHigh).set .prefAddress pref

/-- A kernel of one byte behind the smallest setup part. -/
def sampleImage (pref : U64) : List Byte :=
  List.replicate relmBzimageHdrOffset 0 ++ ((sampleHeader pref).bytes ++ List.replicate 1941 0)

def sampleInput (pref : U64) : BootInput := ⟨.ok (sampleImage pref), .error .enoent, some (ascii "panic=1")⟩

private theorem sampleImage_length (pref : U64) : (sampleImage pref).length = 2561 := by
  rw [sampleImage, List.length_append, List.length_append, SetupHeader.bytes, List.length_replicate, List.length_ofFn,
    List.length_replicate]
  rfl

theorem ofFile_sampleImage (pref : U64) : SetupHeader.ofFile (sampleImage pref) = sampleHeader pref := by
  funext i
  have hbytes : (sampleHeader pref).bytes.length = 123 := List.length_ofFn
  rw [SetupHeader.ofFile, sampleImage, List.getD_append_right _ _ _ _ (by rw [List.length_replicate]; omega),
    List.length_replicate, Nat.add_sub_cancel_left, List.getD_append _ _ _ _ (by omega),
    List.getD_eq_getElem _ _ (by omega)]
  exact List.getElem_ofFn ..

/-- The same kernel with more bytes behind its first. -/
def longInput (pref : U64) (tail : List Byte) : BootInput :=
  ⟨.ok (sampleImage pref ++ tail), .error .enoent, some (ascii "panic=1")⟩

theorem ofFile_longImage (pref : U64) (tail : List Byte) : SetupHeader.ofFile (sampleImage pref ++ tail) = sampleHeader pref := by
  rw [← ofFile_sampleImage pref]
  funext i
  refine List.getD_append _ _ _ _ ?_
  rw [sampleImage_length, relmBzimageHdrOffset]
  omega

theorem sampleInput_loadGpa (pref : U64) : (sampleInput pref).loadGpa = loadGpa (sampleHeader pref) :=
  congrArg loadGpa (ofFile_sampleImage pref)

theorem longInput_kernel {pref : U64} (tail : List Byte) (hsetup : setupSize (sampleHeader pref) = 2560) :
    kernelBytes (longInput pref tail).kernelFile = 0 :: tail := by
  change kernelBytes (sampleImage pref ++ tail) = 0 :: tail
  have hlen := sampleImage_length pref
  rw [kernelBytes, ofFile_longImage, hsetup, List.drop_append_of_le_length (by omega), sampleImage, ← List.append_assoc,
    show List.replicate 1941 (0 : Byte) = List.replicate 1940 0 ++ [0] from List.replicate_succ', ← List.append_assoc, List.drop_left']
  · rfl
  · rw [List.length_append, List.length_append, SetupHeader.bytes, List.length_replicate, List.length_ofFn, List.length_replicate]
    rfl

theorem sampleInput_kernel {pref : U64} (hsetup : setupSize (sampleHeader pref) = 2560) :
    (kernelBytes (sampleInput pref).kernelFile).length = 1 := by
  change (kernelBytes (sampleImage pref)).length = 1
  rw [kernelBytes, List.length_drop, sampleImage_length, ofFile_sampleImage, hsetup]

/-- The sample boots on 2 MiB where its header is right and the kernel lies in RAM. -/
theorem long_boots_stocked {pref : U64} {tail : List Byte} {pages : Nat} (hpages : 2049 ≤ pages) (hp : pages ≤ 2 ^ 20)
    (hvalid : relmValidateSetupHeader (sampleHeader pref) = .ok ()) (hsetup : setupSize (sampleHeader pref) = 2560)
    (hload : (loadGpa (sampleHeader pref)).toNat + tail.length < 0x200000) :
    ∃ vm b, relmCreateVm true 0x200000#64 (stockedHost pages) = .ok (.vm vm) ∧ vm.vm.memory.totalGuestRam.toNat = 0x200000 ∧
      relmBootLoad ⟨vm.vm, 0, 0⟩ (longInput pref tail) = .ok (0, b) := by
  have hneed : 4 * numPages 0x200000#64 + 1 = 2049 := by decide
  obtain ⟨vm, hvm, -⟩ := create_vm_supplied ((stockedHost_supplied hp).mono (hneed.trans_le hpages)) (by decide)
  obtain ⟨region, frames, hflat, hsize, -⟩ := created_flat hvm (by decide)
  have hram : region.size.toNat = 0x200000 := by
    rw [hsize]
    decide
  have hlen : (kernelBytes (sampleImage pref ++ tail)).length = tail.length + 1 :=
    congrArg List.length (longInput_kernel tail hsetup)
  have hfile : (sampleImage pref ++ tail).length = 2561 + tail.length := by
    rw [List.length_append, sampleImage_length]
  have haccepted : KernelAccepted region.size.toNat (sampleImage pref ++ tail) := by
    refine ⟨?_, ?_, ?_, ?_, ?_⟩
    · rw [hfile, relmBzimageHdrOffset]
      omega
    · rw [ofFile_longImage]
      exact hvalid
    · rw [ofFile_longImage, hsetup, hfile]
      omega
    · rw [hlen, relmKernelMaxSize]
      omega
    · rw [ofFile_longImage, hlen]
      omega
  obtain ⟨b, hb⟩ := bootLoad_accepted (b := ⟨vm.vm, 0, 0⟩) hflat (by omega) haccepted (show ascii "panic=1" ≠ [] by decide) .enoent
  exact ⟨vm, b, hvm, by rw [hflat.total, hram], hb⟩

private theorem sample_boots {pref : U64} (hvalid : relmValidateSetupHeader (sampleHeader pref) = .ok ())
    (hsetup : setupSize (sampleHeader pref) = 2560) (hload : (loadGpa (sampleHeader pref)).toNat < 0x200000) :
    ∃ vm b, relmCreateVm true 0x200000#64 (stockedHost 2049) = .ok (.vm vm) ∧ vm.vm.memory.totalGuestRam.toNat = 0x200000 ∧
      relmBootLoad ⟨vm.vm, 0, 0⟩ (sampleInput pref) = .ok (0, b) := by
  have hinput : sampleInput pref = longInput pref [] := by rw [sampleInput, longInput, List.append_nil]
  rw [hinput]
  exact long_boots_stocked (by decide) (by decide) hvalid hsetup hload

/-- A VM that has been created with RAM and booted has its components apart from each other and as they were built
exactly if the kernel and the initrd keep out of the rest. -/
theorem boot_layout_intact_iff {supported : Bool} {ramSize : U64} {h : Host} {vm : RelmVm} {input : BootInput} {b : BootVm}
    (hc : relmCreateVm supported ramSize h = .ok (.vm vm)) (hram : 0 < ramSize)
    (hr : relmBootLoad ⟨vm.vm, 0, 0⟩ input = .ok (0, b)) :
    LayoutIntact b input ↔ LayoutFits input.loadGpa.toNat (kernelBytes input.kernelFile).length
      (initrdBytes input.initrd).length vm.vm.memory.totalGuestRam.toNat := by
  obtain ⟨region, frames, hflat, -, hthree, htables⟩ := created_flat hc hram
  obtain ⟨map, file, hmap, hcount, hb, hflat', hmem, hentry⟩ := bootLoad_spec hflat hr
  have hfile : input.kernelFile = file := by
    rw [BootInput.kernelFile, hb.kernel]
    rfl
  have hsize := hb.size
  have hkernel : input.loadGpa.toNat + (kernelBytes input.kernelFile).length ≤ region.size.toNat := by
    rw [BootInput.loadGpa, hfile]
    exact hb.accepted.fits
  have hpos : 0 < (kernelBytes input.kernelFile).length := by
    have hpayload := hb.accepted.payload
    rw [hfile, kernelBytes, List.length_drop]
    omega
  have hinitrd := hb.initrd
  have htotal : vm.vm.memory.totalGuestRam.toNat = region.size.toNat := congrArg BitVec.toNat hflat.total
  have hmem' : b.vm.memory = vm.vm.memory := hmem
  constructor
  · intro hl
    have hd := hl.disjoint
    rw [hmem', disjoint_iff hpos (by omega), htotal] at hd
    rw [htotal]
    unfold LayoutFits
    omega
  · intro hfits
    have hapart := hfits
    unfold LayoutFits at hapart
    have hholds := booted_holds hb htotal hmap hcount (by rw [hflat.total]; exact htables) (by rw [← htotal]; exact hfits)
    have hend : ∀ c ∈ bootComponents vm.vm.memory input, 0 < c.length → c.start + c.length ≤ region.size.toNat := by
      simp only [bootComponents, List.forall_mem_cons, relmInitrdLoadGpa, relmCmdlineGpa, relmCmdlineMaxLen, relmBootParamsGpa,
        relmBpSize, relmGuestGdtGpa, relmGuestIdtGpa, relmGuestIdtSize, relmGuestIdtStubsGpa, relmGuestIdtStubsSize,
        relmGuestIdtStubsStride, BitVec.toNat_ofNat, Nat.reducePow, Nat.reduceMod, Nat.reduceMul]
      refine ⟨fun _ => hkernel, fun hlen => hinitrd (by omega), fun _ => ?_, fun _ => ?_, fun _ => ?_, fun _ => ?_, fun _ => ?_,
        fun _ => ?_, by simp⟩ <;> omega
    refine ⟨?_, ?_, ?_, ?_⟩
    · intro c hc x hx
      rw [hmem'] at hc ⊢
      have hle := hend c hc (by have h1 := hx.1; have h2 := hx.2; omega)
      have hlt := hx.2
      omega
    · rw [hmem', disjoint_iff hpos (by omega)]
      omega
    · intro c hc
      rw [hmem'] at hc
      by_cases hlen : 0 < c.length
      · exact ramByte_holds hflat' (hholds c hc) (hend c hc hlen)
      · intro k hk
        omega
    · rw [hentry, BootInput.loadGpa, hfile]

/-- A kernel at 1 MiB leaves the layout intact. -/
theorem boot_layout_intact_at_one_mib : ∃ vm b, relmCreateVm true 0x200000#64 (stockedHost 2049) = .ok (.vm vm) ∧
    relmBootLoad ⟨vm.vm, 0, 0⟩ (sampleInput 0x100000#64) = .ok (0, b) ∧ LayoutIntact b (sampleInput 0x100000#64) := by
  have hsetup : setupSize (sampleHeader 0x100000#64) = 2560 := by decide
  have hload : (loadGpa (sampleHeader 0x100000#64)).toNat = 0x100000 := by decide
  obtain ⟨vm, b, hvm, hram, hb⟩ := sample_boots (by decide) hsetup (by omega)
  refine ⟨vm, b, hvm, hb, (boot_layout_intact_iff hvm (by decide) hb).mpr ?_⟩
  rw [sampleInput_loadGpa, sampleInput_kernel hsetup, hload, hram]
  exact ⟨by decide, .inl rfl, by decide, .inl rfl⟩

/-- A kernel that asks for the address of `boot_params` is overwritten by these. -/
theorem boot_layout_overlaps : ∃ vm b, relmCreateVm true 0x200000#64 (stockedHost 2049) = .ok (.vm vm) ∧
    relmBootLoad ⟨vm.vm, 0, 0⟩ (sampleInput 0x7000#64) = .ok (0, b) ∧ ¬ LayoutIntact b (sampleInput 0x7000#64) := by
  have hsetup : setupSize (sampleHeader 0x7000#64) = 2560 := by decide
  have hload : (loadGpa (sampleHeader 0x7000#64)).toNat = 0x7000 := by decide
  obtain ⟨vm, b, hvm, -, hb⟩ := sample_boots (by decide) hsetup (by omega)
  refine ⟨vm, b, hvm, hb, fun hl => ?_⟩
  have hd := hl.disjoint
  simp only [bootComponents, List.pairwise_cons, List.forall_mem_cons] at hd
  obtain ⟨⟨-, -, hparams, -⟩, -⟩ := hd
  have hboth := hparams 0x7000
  simp only [Component.Occupies, sampleInput_loadGpa, sampleInput_kernel hsetup, hload] at hboth
  exact hboth (by decide) (by decide)

end Layout

end Relm.Boot
