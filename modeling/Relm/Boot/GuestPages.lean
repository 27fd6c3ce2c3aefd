import Relm.Boot.Layout
import Relm.Vm.Layouts

/-! The command line and `boot_params` as the guest finds them, for any layout of its memory. -/
namespace Relm.Boot
open Lib.Word Lib.Patch Lib.Records Firmware Vm

section Writers

variable {s : VmState}

/-- The small writers, on a range of RAM. -/
private theorem guestWrite_ram (k : VmLayout s.memory.memRegions) (gpa : U64) (data : List Byte)
    (hpos : data.length ≠ 0) (hmax : data.length < 2 ^ 31)
    (hc : RamCovers s.memory.memRegions gpa.toNat data.length) :
    ∃ host, guestWrite s gpa data = .ok (0, { s with host }) ∧
      VmState.guestMemory { s with host } = patch s.guestMemory gpa.toNat (data.map some) := by
  obtain ⟨host, hcopy, hmem⟩ := k.copyTo gpa data hpos hmax hc
  refine ⟨host, ?_, hmem⟩
  rw [guestWrite, hcopy]
  exact congrArg Except.ok (Prod.ext (if_pos rfl) rfl)

private theorem not_neg (n : Nat) : ¬ (n : Int) < 0 := by omega

end Writers

section Samples

/-- 2 MiB of RAM from address 0 on, and a pass-through page linked after it. -/
private def twoMibRegion : GuestMemRegion where
  obj := 0
  pagesObj := 1
  gpaStart := 0
  size := 0x200000#64
  pages := some ((List.range 512).map fun i => BitVec.ofNat 64 (0x1000000 + i * 4096))
  nrPages := 512
  flags := relmRamFlags

private def apicRegion : GuestMemRegion := ⟨2, 0, 0xFEC00000#64, 0x1000#64, none, 1, relmMmioFlags⟩

private def twoMibVm : VmState where
  host := Host.idle [] []
  ept := ⟨0, 0x1000#64, 0x1000#64, 0x101E#64, 6#64, false, {}, [0x1000#64]⟩
  memory := ⟨[apicRegion, twoMibRegion], 0x200000#64, []⟩
  rom := none

private theorem twoMib_layout : VmLayout twoMibVm.memory.memRegions where
  linked := by
    intro r hr
    simp only [twoMibVm, List.mem_cons, List.not_mem_nil, or_false] at hr
    rcases hr with rfl | rfl
    · exact ⟨by decide, fun _ => by decide, by decide, fun ps hp => by cases hp⟩
    · refine ⟨by decide, fun _ => by decide, by decide, fun ps hp => ?_⟩
      obtain rfl := Option.some.inj hp
      rw [List.length_map, List.length_range]
      decide
  bounded := by decide
  disjoint := by
    refine List.pairwise_pair.mpr (Or.inr ?_)
    decide
  frames := by
    simp only [twoMibVm, apicRegion, twoMibRegion, List.flatMap_cons, List.flatMap_nil, Option.getD_none,
      Option.getD_some, List.nil_append, List.append_nil]
    refine List.Nodup.map_on (fun i hi j hj hij => ?_) List.nodup_range
    rw [List.mem_range] at hi hj
    have h := congrArg BitVec.toNat hij
    rw [BitVec.toNat_ofNat, BitVec.toNat_ofNat, Nat.mod_eq_of_lt (by omega), Nat.mod_eq_of_lt (by omega)] at h
    omega

private theorem twoMib_covered : RamCovers twoMibVm.memory.memRegions 0 0x200000 := by
  intro i hi
  refine ⟨twoMibRegion, by simp [ramRegions, twoMibVm, twoMibRegion, apicRegion], Nat.zero_le _, ?_⟩
  have hsize : twoMibRegion.gpaStart.toNat + twoMibRegion.size.toNat = 0x200000 := rfl
  omega

private theorem twoMib_window : RamCovers twoMibVm.memory.memRegions relmCmdlineGpa.toNat relmCmdlineMaxLen :=
  twoMib_covered.sub 0x20000 relmCmdlineMaxLen (by decide)

end Samples

section Cmdline

variable {s : VmState}

/-- What a loaded command line is: the window holds it, cut to the room there is, then zeros; the rest of guest memory
is as it was. -/
structure CmdlineHeld (s t : VmState) (cmdline : List Byte) : Prop where
  window : ∀ k < relmCmdlineMaxLen, t.guestMemory (relmCmdlineGpa.toNat + k) =
    some ((cmdline.take (relmCmdlineMaxLen - 1)).getD k 0)
  outside : ∀ a, (a < relmCmdlineGpa.toNat ∨ relmCmdlineGpa.toNat + relmCmdlineMaxLen ≤ a) →
    t.guestMemory a = s.guestMemory a

/-- Loading a command line succeeds and delivers it. -/
def CmdlineDelivered (s : VmState) (cmdline : List Byte) : Prop :=
  ∃ t, relmCmdlineLoad s (some cmdline) = .ok (0, t) ∧ CmdlineHeld s t cmdline

/-- The copy of no bytes fails, after the window has been cleared. -/
private theorem cmdlineLoad_empty (k : VmLayout s.memory.memRegions)
    (hc : RamCovers s.memory.memRegions relmCmdlineGpa.toNat relmCmdlineMaxLen) :
    ∃ t, relmCmdlineLoad s (some []) = .ok (-Errno.einval.code, t) := by
  obtain ⟨host, hzero, -⟩ := k.zero relmCmdlineGpa (show relmCmdlineMaxLen ≠ 0 by decide) (by decide) hc
  refine ⟨{ s with host }, ?_⟩
  unfold relmCmdlineLoad
  simp only [hzero, bind, Except.bind, if_neg (not_neg _)]
  rfl

/-- The three writes, one over the other. -/
private theorem cmdlineLoad_writes (k : VmLayout s.memory.memRegions)
    (hc : RamCovers s.memory.memRegions relmCmdlineGpa.toNat relmCmdlineMaxLen) (line : List Byte) (hpos : line ≠ [])
    (hlen : line.length < relmCmdlineMaxLen) :
    ∃ t, relmCmdlineLoad s (some line) = .ok (0, t) ∧ t.guestMemory =
      patch (patch (patch s.guestMemory 0x20000 (List.replicate 4096 (some 0))) 0x20000 (line.map some))
        (0x20000 + line.length) [some 0] := by
  have hgpa : relmCmdlineGpa.toNat = 0x20000 := rfl
  have hroom : line.length < 4096 := hlen
  have hne : line.length ≠ 0 := by simpa using hpos
  have hcut : line.take (relmCmdlineMaxLen - 1) = line := List.take_of_length_le (Nat.le_pred_of_lt hlen)
  obtain ⟨h1, e1, m1⟩ := k.zero relmCmdlineGpa (show relmCmdlineMaxLen ≠ 0 by decide) (by decide) hc
  have hline : RamCovers s.memory.memRegions relmCmdlineGpa.toNat line.length := fun i hi => hc i (by omega)
  obtain ⟨h2, e2, m2⟩ := VmLayout.copyTo (s := { s with host := h1 }) k relmCmdlineGpa line hne (by omega) hline
  have hend : (relmCmdlineGpa + BitVec.ofNat 64 line.length).toNat = 0x20000 + line.length :=
    add_offset hgpa (by omega)
  have hlast : RamCovers s.memory.memRegions (relmCmdlineGpa + BitVec.ofNat 64 line.length).toNat 1 := by
    rw [hend]
    exact hc.sub line.length 1 (by rw [relmCmdlineMaxLen]; omega)
  obtain ⟨h3, e3, m3⟩ := guestWrite_ram (s := { s with host := h2 }) k (relmCmdlineGpa + BitVec.ofNat 64 line.length) [0]
    (by decide) (by decide) hlast
  refine ⟨{ s with host := h3 }, ?_, ?_⟩
  · unfold relmCmdlineLoad
    simp only [Option.getD_some, hcut, e1, e2, bind, Except.bind, if_neg (not_neg _)]
    exact e3
  · rw [m3, m2, m1, hend, hgpa]
    rfl

/-- Cutting the line first changes nothing. -/
private theorem cmdlineLoad_take (cmdline : List Byte) :
    relmCmdlineLoad s (some cmdline) = relmCmdlineLoad s (some (cmdline.take (relmCmdlineMaxLen - 1))) := by
  unfold relmCmdlineLoad
  rw [Option.getD_some, Option.getD_some, List.take_take, Nat.min_self]

private theorem cmdline_image (m : Nat → Option Byte) (line : List Byte) (hlen : line.length < 4096) (a : Nat) :
    patch (patch (patch m 0x20000 (List.replicate 4096 (some 0))) 0x20000 (line.map some)) (0x20000 + line.length)
      [some 0] a = if 0x20000 ≤ a ∧ a < 0x21000 then some (line.getD (a - 0x20000) 0) else m a := by
  have hmap : (line.map some).length = line.length := List.length_map ..
  by_cases hin : 0x20000 ≤ a ∧ a < 0x21000
  · rw [if_pos hin]
    have hzero : patch m 0x20000 (List.replicate 4096 (some (0 : Byte))) a = some 0 := by
      rw [patch_of_mem hin.1 (by rw [List.length_replicate]; omega), List.getElem_replicate]
    rcases Nat.lt_trichotomy (a - 0x20000) line.length with hlt | heq | hgt
    · rw [patch_of_lt (by omega), patch_of_mem hin.1 (by omega), List.getElem_map, List.getD_eq_getElem _ _ hlt]
    · rw [patch_of_mem (by omega) (by rw [List.length_singleton]; omega), List.getElem_singleton,
        List.getD_eq_default _ _ (by omega)]
    · rw [patch_of_ge (by rw [List.length_singleton]; omega), patch_of_ge (by omega), hzero,
        List.getD_eq_default _ _ (by omega)]
  · rw [if_neg hin, patch_outside (by rw [List.length_singleton]; omega), patch_outside (by omega),
      patch_outside (by rw [List.length_replicate]; omega)]

/-- A command line is delivered exactly if it is not empty. -/
theorem cmdline_delivered_iff (k : VmLayout s.memory.memRegions)
    (hc : RamCovers s.memory.memRegions relmCmdlineGpa.toNat relmCmdlineMaxLen) (cmdline : List Byte) :
    CmdlineDelivered s cmdline ↔ cmdline ≠ [] := by
  constructor
  · rintro ⟨t, hload, -⟩ rfl
    obtain ⟨t', hfail⟩ := cmdlineLoad_empty k hc
    rw [hfail] at hload
    cases hload
  · intro hne
    have hcut : cmdline.take (relmCmdlineMaxLen - 1) ≠ [] := by
      rw [ne_eq, List.take_eq_nil_iff, not_or]
      exact ⟨by decide, hne⟩
    have hlen : (cmdline.take (relmCmdlineMaxLen - 1)).length < 4096 :=
      Nat.lt_succ_of_le (List.length_take_le ..)
    obtain ⟨t, hload, hmem⟩ := cmdlineLoad_writes k hc _ hcut hlen
    have hgpa : relmCmdlineGpa.toNat = 0x20000 := rfl
    have hmax : relmCmdlineMaxLen = 4096 := rfl
    refine ⟨t, (cmdlineLoad_take cmdline).trans hload, ?_, ?_⟩
    · intro i hi
      rw [hmem, cmdline_image _ _ hlen, if_pos (by omega), hgpa, Nat.add_sub_cancel_left]
    · intro a ha
      rw [hmem, cmdline_image _ _ hlen, if_neg (by omega)]

/-- The guest finds the text of a command line and the zero behind it. -/
theorem cmdline_delivered_console : ∃ t, relmCmdlineLoad twoMibVm (some (ascii "console=ttyS0 root=/dev/vda")) = .ok (0, t) ∧
    CmdlineHeld twoMibVm t (ascii "console=ttyS0 root=/dev/vda") ∧
    (List.range 27).map (fun k => t.guestMemory (0x20000 + k)) = (ascii "console=ttyS0 root=/dev/vda").map some ∧
    t.guestMemory 0x2001B = some 0 := by
  obtain ⟨t, hload, hheld⟩ := (cmdline_delivered_iff twoMib_layout twoMib_window (ascii "console=ttyS0 root=/dev/vda")).mpr
    (by decide)
  refine ⟨t, hload, hheld, ?_, hheld.window 27 (by decide)⟩
  have hread : ∀ k ∈ List.range 27, t.guestMemory (0x20000 + k) = some ((ascii "console=ttyS0 root=/dev/vda").getD k 0) :=
    fun k hk => by
      rw [List.mem_range] at hk
      exact hheld.window k (lt_trans hk (by decide))
  rw [List.map_congr_left hread]
  decide +kernel

/-- The empty command line is refused. -/
theorem empty_cmdline_refused : (∃ t, relmCmdlineLoad twoMibVm (some []) = .ok (-Errno.einval.code, t)) ∧
    ¬ CmdlineDelivered twoMibVm [] := by
  obtain ⟨t, hfail⟩ := cmdlineLoad_empty twoMib_layout twoMib_window
  refine ⟨⟨t, hfail⟩, ?_⟩
  rintro ⟨t', hload, -⟩
  rw [hfail] at hload
  cases hload

end Cmdline

namespace HdrField

def rootFlags : HdrField := ⟨0x01, 2⟩
def syssize : HdrField := ⟨0x03, 4⟩
def ramSize : HdrField := ⟨0x07, 2⟩
def rootDev : HdrField := ⟨0x0B, 2⟩
def jump : HdrField := ⟨0x0F, 2⟩
def realmodeSwtch : HdrField := ⟨0x17, 4⟩
def startSysSeg : HdrField := ⟨0x1B, 2⟩
def kernelVersion : HdrField := ⟨0x1D, 2⟩
def setupMoveSize : HdrField := ⟨0x21, 2⟩
def code32Start : HdrField := ⟨0x23, 4⟩
def bootsectKludge : HdrField := ⟨0x2F, 4⟩
def heapEndPtr : HdrField := ⟨0x33, 2⟩
def extLoaderVer : HdrField := ⟨0x35, 1⟩
def extLoaderType : HdrField := ⟨0x36, 1⟩
def initrdAddrMax : HdrField := ⟨0x3B, 4⟩
def kernelAlignment : HdrField := ⟨0x3F, 4⟩
def relocatableKernel : HdrField := ⟨0x43, 1⟩
def minAlignment : HdrField := ⟨0x44, 1⟩
def hardwareSubarch : HdrField := ⟨0x4B, 4⟩
def hardwareSubarchData : HdrField := ⟨0x4F, 8⟩
def payloadOffset : HdrField := ⟨0x57, 4⟩
def payloadLength : HdrField := ⟨0x5B, 4⟩
def setupData : HdrField := ⟨0x5F, 8⟩
def initSize : HdrField := ⟨0x6F, 4⟩
def handoverOffset : HdrField := ⟨0x73, 4⟩
def kernelInfoOffset : HdrField := ⟨0x77, 4⟩

/-- The fields of `struct relm_setup_header` that the loader sets, and the others, in the order of the struct. -/
def loaderFields : List HdrField := [vidMode, typeOfLoader, ramdiskImage, ramdiskSize, cmdLinePtr, cmdlineSize]
def kernelFields : List HdrField :=
  [setupSects, rootFlags, syssize, ramSize, rootDev, bootFlag, jump, header, version, realmodeSwtch, startSysSeg,
    kernelVersion, loadflags, setupMoveSize, code32Start, bootsectKludge, heapEndPtr, extLoaderVer, extLoaderType,
    initrdAddrMax, kernelAlignment, relocatableKernel, minAlignment, xloadflags, hardwareSubarch, hardwareSubarchData,
    payloadOffset, payloadLength, setupData, prefAddress, initSize, handoverOffset, kernelInfoOffset]

/-- A byte of the header belongs to a field. -/
def Holds (f : HdrField) (i : Nat) : Prop := f.offset ≤ i ∧ i < f.offset + f.width

instance (f : HdrField) (i : Nat) : Decidable (f.Holds i) := inferInstanceAs (Decidable (_ ∧ _))

/-- The struct is packed: each of its bytes belongs to one field. -/
theorem fields_packed : ∀ i < 123, ((loaderFields ++ kernelFields).filter fun f => decide (f.Holds i)).length = 1 := by
  decide

/-- Two fields share no byte. -/
def Apart (f g : HdrField) : Prop := f.offset + f.width ≤ g.offset ∨ g.offset + g.width ≤ f.offset

instance (f g : HdrField) : Decidable (f.Apart g) := inferInstanceAs (Decidable (_ ∨ _))

end HdrField

namespace SetupHeader

variable {hdr : SetupHeader} {f g : HdrField} {value : U64}

private theorem slice_length (hdr : SetupHeader) (hf : f.offset + f.width ≤ 123) :
    ((hdr.bytes.drop f.offset).take f.width).length = f.width := by
  rw [List.length_take, List.length_drop, bytes, List.length_ofFn]
  omega

private theorem slice_getElem (hdr : SetupHeader) {k : Nat} (hk : k < f.width) (hf : f.offset + f.width ≤ 123)
    (h : k < ((hdr.bytes.drop f.offset).take f.width).length) :
    ((hdr.bytes.drop f.offset).take f.width)[k] = hdr ⟨f.offset + k, by omega⟩ := by
  rw [List.getElem_take, List.getElem_drop]
  unfold bytes
  rw [List.getElem_ofFn]

/-- A field that has been set. -/
theorem get_set_self (hf : f.offset + f.width ≤ 123) (hv : value.toNat < 2 ^ (8 * f.width)) :
    (hdr.set f value).get f = value := by
  rw [get, ← ofBytes_range_getByte hv]
  congr 1
  refine List.ext_getElem ?_ fun k h1 h2 => ?_
  · rw [slice_length _ hf, List.length_map, List.length_range]
  · have hk : k < f.width := by rwa [slice_length _ hf] at h1
    rw [slice_getElem _ hk hf, List.getElem_map, List.getElem_range, ofBytes_range_getByte hv, set, if_pos (by dsimp only; omega)]
    dsimp only
    rw [Nat.add_sub_cancel_left]

/-- A field that shares no byte with the one that has been set. -/
theorem get_set_apart (hg : g.offset + g.width ≤ 123) (hd : g.Apart f) : (hdr.set f value).get g = hdr.get g := by
  unfold get
  congr 1
  refine List.ext_getElem ?_ fun k h1 h2 => ?_
  · rw [slice_length _ hg, slice_length _ hg]
  · have hk : k < g.width := by rwa [slice_length _ hg] at h1
    rw [slice_getElem _ hk hg, slice_getElem _ hk hg, set, if_neg]
    unfold HdrField.Apart at hd
    dsimp only
    omega

end SetupHeader

section Decoder

/-- The packed `struct relm_bp_e820_entry`. -/
def decodeEntry (record : List Byte) : E820Entry where
  addr := ofBytes (record.take 8)
  size := ofBytes ((record.drop 8).take 8)
  type := (ofBytes ((record.drop 16).take 4)).setWidth 32

/-- The header, the number of e820 entries and the entries in a page, where the kernel looks for them. -/
def decodeHeader (page : Nat → Byte) : SetupHeader := fun i => page (relmBpOffsetHdr.toNat + i)
def decodeCount (page : Nat → Byte) : Nat := (page relmBpOffsetE820Entries.toNat).toNat
def decodeE820 (page : Nat → Byte) : List E820Entry :=
  (records 20 (decodeCount page)
    ((List.range (relmBpSize - relmBpOffsetE820Table.toNat)).map fun k => page (relmBpOffsetE820Table.toNat + k))).map
      decodeEntry

/-- The bytes that belong to none of the three. -/
def Blank (count k : Nat) : Prop :=
  k ≠ relmBpOffsetE820Entries.toNat ∧ ¬ (relmBpOffsetHdr.toNat ≤ k ∧ k < relmBpOffsetHdr.toNat + 123) ∧
    ¬ (relmBpOffsetE820Table.toNat ≤ k ∧ k < relmBpOffsetE820Table.toNat + count * 20)

theorem decodeEntry_bytes (e : E820Entry) : decodeEntry e.bytes = e := by
  have haddr := leBytes_length 8 e.addr
  have hsize := leBytes_length 8 e.size
  have htype := leBytes_length 4 (e.type.setWidth 64)
  have hlt : (e.type.setWidth 64).toNat < 2 ^ (8 * 4) := by
    rw [BitVec.toNat_setWidth_of_le (by decide)]
    exact e.type.isLt
  have h1 : ofBytes (leBytes 8 e.addr) = e.addr := ofBytes_getByte _
  have h2 : ofBytes (leBytes 8 e.size) = e.size := ofBytes_getByte _
  have h3 : ofBytes (leBytes 4 (e.type.setWidth 64)) = e.type.setWidth 64 := ofBytes_range_getByte hlt
  unfold decodeEntry E820Entry.bytes
  rw [List.append_assoc, List.take_left' haddr, List.drop_left' haddr, List.take_left' hsize,
    show (16 : Nat) = 8 + 8 from rfl, ← List.drop_drop, List.drop_left' haddr, List.drop_left' hsize,
    List.take_of_length_le (by omega), h1, h2, h3, BitVec.setWidth_setWidth_of_le _ (by decide), BitVec.setWidth_eq]

variable {hdr : SetupHeader} {initrdSize : U32} {map : E820Map}

private theorem image_count : bootParamsImage hdr initrdSize map 0x1E8 = BitVec.ofNat 8 map.length := by
  unfold bootParamsImage
  rw [patch_of_lt (by decide), patch_of_mem le_rfl (by simp)]
  rfl

private theorem image_header (i : Fin 123) : bootParamsImage hdr initrdSize map (0x1F1 + i) = guestHeader hdr initrdSize i := by
  have hi := i.isLt
  have hlen : (guestHeader hdr initrdSize).bytes.length = 123 := List.length_ofFn
  unfold bootParamsImage
  rw [patch_of_lt (by omega), patch_of_ge (by rw [List.length_singleton]; omega),
    patch_of_mem (by omega) (by omega)]
  simp only [Nat.add_sub_cancel_left, SetupHeader.bytes, List.getElem_ofFn]

private theorem image_blank {k : Nat} (h : Blank map.length k) : bootParamsImage hdr initrdSize map k = 0 := by
  obtain ⟨h1, h2, h3⟩ := h
  have e1 : relmBpOffsetE820Entries.toNat = 0x1E8 := rfl
  have e2 : relmBpOffsetHdr.toNat = 0x1F1 := rfl
  have e3 : relmBpOffsetE820Table.toNat = 0x2D0 := rfl
  have hlen : (guestHeader hdr initrdSize).bytes.length = 123 := List.length_ofFn
  unfold bootParamsImage
  rw [patch_outside (by rw [flatMap_length _ entry_length]; omega), patch_outside (by rw [List.length_singleton]; omega),
    patch_outside (by omega)]

private theorem image_table (hdr : SetupHeader) (initrdSize : U32) (hmap : map.length ≤ 128) :
    ((List.range 0xD30).map fun k => bootParamsImage hdr initrdSize map (0x2D0 + k)) =
      map.flatMap E820Entry.bytes ++ List.replicate (0xD30 - map.length * 20) 0 := by
  have hlen := flatMap_length map entry_length
  refine List.ext_getElem (by simp [hlen]; omega) fun k h1 h2 => ?_
  rw [List.length_map, List.length_range] at h1
  rw [List.getElem_map, List.getElem_range]
  by_cases hk : k < map.length * 20
  · rw [List.getElem_append_left (by omega)]
    unfold bootParamsImage
    rw [patch_of_mem (by omega) (by omega)]
    simp only [Nat.add_sub_cancel_left]
  · rw [List.getElem_append_right (by omega), List.getElem_replicate]
    have e1 : relmBpOffsetE820Entries.toNat = 0x1E8 := rfl
    have e2 : relmBpOffsetHdr.toNat = 0x1F1 := rfl
    have e3 : relmBpOffsetE820Table.toNat = 0x2D0 := rfl
    exact image_blank ⟨by omega, by omega, by omega⟩

end Decoder

section BootParams

variable {s t : VmState}

/-- What decoding the zero page gives back. -/
structure BootParamsEncoded (s t : VmState) (hdr : SetupHeader) (initrdSize : U32) (page : Nat → Byte) (map : E820Map) :
    Prop where
  held : ∀ k < relmBpSize, t.guestMemory (relmBootParamsGpa.toNat + k) = some (page k)
  kernelFields : ∀ f ∈ HdrField.kernelFields, (decodeHeader page).get f = hdr.get f
  typeOfLoader : (decodeHeader page).get .typeOfLoader = relmBpLoaderType
  cmdLinePtr : (decodeHeader page).get .cmdLinePtr = relmCmdlineGpa
  cmdlineSize : (decodeHeader page).get .cmdlineSize = BitVec.ofNat 64 (relmCmdlineMaxLen - 1)
  ramdiskImage : (decodeHeader page).get .ramdiskImage = if initrdSize = 0 then 0 else relmInitrdLoadGpa
  ramdiskImage_zero : (decodeHeader page).get .ramdiskImage = 0 ↔ initrdSize = 0
  ramdiskSize : (decodeHeader page).get .ramdiskSize = initrdSize.setWidth 64
  vidMode : (decodeHeader page).get .vidMode = 0xFFFF#64
  e820 : relmE820Build s.memory = .ok map
  count : decodeCount page = map.length
  entries : decodeE820 page = map
  blank : ∀ k < relmBpSize, Blank map.length k → page k = 0
  outside : ∀ a, (a < relmBootParamsGpa.toNat ∨ relmBootParamsGpa.toNat + relmBpSize ≤ a) →
    t.guestMemory a = s.guestMemory a

private theorem RamCovers.window {regions : List GuestMemRegion} (h : RamCovers regions 0 0x200000) (start n : Nat)
    (hle : start + n ≤ 0x200000) : RamCovers regions start n := by
  have hs := h.sub start n hle
  rwa [Nat.zero_add] at hs

/-- The loop over the e820 map writes one record after the other. -/
private theorem writeE820_ram (i : Nat) (map : List E820Entry) (k : VmLayout s.memory.memRegions)
    (hram : RamCovers s.memory.memRegions 0 0x200000) (hfit : 0x72D0 + (i + map.length) * 20 ≤ 0x200000) :
    ∃ host, writeE820 s i map = .ok (0, { s with host }) ∧ VmState.guestMemory { s with host } =
      patch s.guestMemory (0x72D0 + i * 20) ((map.flatMap E820Entry.bytes).map some) := by
  induction map generalizing i s with
  | nil => exact ⟨s.host, rfl, by simp⟩
  | cons e map ih =>
    rw [List.length_cons] at hfit
    have hl := entry_length e
    have hbase : (relmBootParamsGpa + relmBpOffsetE820Table).toNat = 0x72D0 := rfl
    have haddr : (relmBootParamsGpa + relmBpOffsetE820Table + BitVec.ofNat 64 (i * 20)).toNat = 0x72D0 + i * 20 :=
      add_offset hbase (by omega)
    obtain ⟨host, hcopy, hmem⟩ := k.copyTo (relmBootParamsGpa + relmBpOffsetE820Table + BitVec.ofNat 64 (i * 20))
      e.bytes (by omega) (by omega) (by rw [haddr, hl]; exact RamCovers.window hram _ _ (by omega))
    obtain ⟨host', hrest, hmem'⟩ := ih (s := { s with host }) (i + 1) k hram (by omega)
    refine ⟨host', ?_, ?_⟩
    · rw [writeE820, hcopy]
      simp only [bind, Except.bind, if_neg (not_neg _)]
      exact hrest
    · have hnext : 0x72D0 + (i + 1) * 20 = 0x72D0 + i * 20 + (e.bytes.map some).length := by
        rw [List.length_map, hl]
        omega
      rw [hmem', hmem, haddr, List.flatMap_cons, List.map_append, hnext, patch_append]

/-- The four writes of the builder, one over the other. -/
private theorem bootParams_writes (k : VmLayout s.memory.memRegions) (hram : RamCovers s.memory.memRegions 0 0x200000)
    {map : E820Map} (hmap : relmE820Build s.memory = .ok map) (hcount : map.length ≤ relmBpE820Max) (hdr : SetupHeader)
    (initrdSize : U32) : ∃ host, relmBootParamsBuild s hdr initrdSize = .ok (0, { s with host }) ∧
      VmState.guestMemory { s with host } =
        patch (patch (patch (patch s.guestMemory 0x7000 (List.replicate 0x1000 (some 0))) 0x71F1
          ((guestHeader hdr initrdSize).bytes.map some)) 0x71E8 [some (BitVec.ofNat 8 map.length)]) 0x72D0
          ((map.flatMap E820Entry.bytes).map some) := by
  have hmax : map.length ≤ 128 := hcount
  have hlen : (guestHeader hdr initrdSize).bytes.length = 123 := List.length_ofFn
  have hgpa : relmBootParamsGpa.toNat = 0x7000 := rfl
  have hhdr : (relmBootParamsGpa + relmBpOffsetHdr).toNat = 0x71F1 := rfl
  have hnum : (relmBootParamsGpa + relmBpOffsetE820Entries).toNat = 0x71E8 := rfl
  obtain ⟨h1, e1, m1⟩ := k.zero relmBootParamsGpa (show relmBpSize ≠ 0 by decide) (by decide)
    (RamCovers.window hram _ _ (by decide))
  obtain ⟨h2, e2, m2⟩ := VmLayout.copyTo (s := { s with host := h1 }) k (relmBootParamsGpa + relmBpOffsetHdr)
    (guestHeader hdr initrdSize).bytes (by omega) (by omega) (RamCovers.window hram _ _ (by omega))
  obtain ⟨h3, e3, m3⟩ := guestWrite_ram (s := { s with host := h2 }) k (relmBootParamsGpa + relmBpOffsetE820Entries)
    [BitVec.ofNat 8 map.length] (by simp) (by simp) (RamCovers.window hram _ _ (by rw [hnum, List.length_singleton]; omega))
  obtain ⟨h4, e4, m4⟩ := writeE820_ram (s := { s with host := h3 }) 0 map k hram (by omega)
  refine ⟨h4, ?_, ?_⟩
  · unfold relmBootParamsBuild
    simp only [e1, bind, Except.bind, if_neg (not_neg _), hmap, if_neg (Nat.not_lt.mpr hcount), e2, relmGuestWriteU8, e3,
      ne_eq, not_true_eq_false, if_false]
    exact e4
  · rw [m4, m3, m2, m1, hhdr, hnum, hgpa]
    rfl

/-- The page is the image of the builder, and the memory around it is as it was. -/
private theorem bootParams_memory (m : Nat → Option Byte) (hdr : SetupHeader) (initrdSize : U32) {map : E820Map}
    (hcount : map.length ≤ 128) (a : Nat) :
    patch (patch (patch (patch m 0x7000 (List.replicate 0x1000 (some 0))) 0x71F1
      ((guestHeader hdr initrdSize).bytes.map some)) 0x71E8 [some (BitVec.ofNat 8 map.length)]) 0x72D0
      ((map.flatMap E820Entry.bytes).map some) a =
      if 0x7000 ≤ a ∧ a < 0x8000 then some (bootParamsImage hdr initrdSize map (a - 0x7000)) else m a := by
  have hlen : ((guestHeader hdr initrdSize).bytes.map some).length = 123 := by
    rw [List.length_map]
    exact List.length_ofFn
  have htable : ((map.flatMap E820Entry.bytes).map some).length = map.length * 20 := by
    rw [List.length_map, flatMap_length _ entry_length]
  by_cases hin : 0x7000 ≤ a ∧ a < 0x8000
  · have hpage := (((HoldsAt.of_replicate m 0x7000 0x1000 (some (0 : Byte))).patch_within 0x1F1
      ((guestHeader hdr initrdSize).bytes.map some)).patch_within 0x1E8 ([BitVec.ofNat 8 map.length].map some)).patch_within
      0x2D0 ((map.flatMap E820Entry.bytes).map some)
    rw [patch_map some (fun _ => 0), patch_map some, patch_map some] at hpage
    have hk := hpage (a - 0x7000) (by omega)
    rw [show 0x7000 + (a - 0x7000) = a by omega] at hk
    rw [if_pos hin]
    exact hk
  · rw [if_neg hin, patch_outside (by omega), patch_outside (by rw [List.length_singleton]; omega),
      patch_outside (by omega), patch_outside (by rw [List.length_replicate]; omega)]

/-- Only memory for which an e820 map is built gives a page, and the map is never too long for it. -/
private theorem bootParams_ok (k : VmLayout s.memory.memRegions) (hram : RamCovers s.memory.memRegions 0 0x200000)
    {hdr : SetupHeader} {initrdSize : U32} (h : relmBootParamsBuild s hdr initrdSize = .ok (0, t)) :
    ∃ map, relmE820Build s.memory = .ok map ∧ map.length = 4 := by
  obtain ⟨host, hzero, -⟩ := k.zero relmBootParamsGpa (show relmBpSize ≠ 0 by decide) (by decide)
    (RamCovers.window hram _ _ (by decide))
  have hmap := e820Build_eq s.memory
  split at hmap
  · unfold relmBootParamsBuild at h
    simp only [hzero, bind, Except.bind, if_neg (not_neg _), hmap] at h
    have hret : (-Errno.einval.code : Int) = 0 := congrArg Prod.fst (Except.ok.inj h)
    exact absurd hret (by decide)
  · exact ⟨_, hmap, rfl⟩

private theorem guestHeader_kernel (hdr : SetupHeader) (initrdSize : U32) :
    ∀ f ∈ HdrField.kernelFields, (guestHeader hdr initrdSize).get f = hdr.get f := by
  intro f hf
  have hall : ∀ f ∈ HdrField.kernelFields, f.offset + f.width ≤ 123 ∧ ∀ g ∈ HdrField.loaderFields, f.Apart g := by decide
  obtain ⟨hle, hd⟩ := hall f hf
  simp only [HdrField.loaderFields, List.mem_cons, List.not_mem_nil, or_false, forall_eq_or_imp, forall_eq] at hd
  obtain ⟨h1, h2, h3, h4, h5, h6⟩ := hd
  unfold guestHeader
  rw [SetupHeader.get_set_apart hle h1, SetupHeader.get_set_apart hle h4, SetupHeader.get_set_apart hle h3,
    SetupHeader.get_set_apart hle h6, SetupHeader.get_set_apart hle h5, SetupHeader.get_set_apart hle h2]

/-- The zero page encodes the header, what the loader sets in it and the e820 map, and nothing else. -/
theorem boot_params_encode (k : VmLayout s.memory.memRegions) (hram : RamCovers s.memory.memRegions 0 0x200000)
    (hdr : SetupHeader) (initrdSize : U32) (h : relmBootParamsBuild s hdr initrdSize = .ok (0, t)) :
    ∃ page map, BootParamsEncoded s t hdr initrdSize page map := by
  obtain ⟨map, hmap, hcount⟩ := bootParams_ok k hram h
  have hmax : map.length ≤ 128 := by omega
  obtain ⟨host, hbuild, hmem⟩ := bootParams_writes k hram hmap hmax hdr initrdSize
  rw [hbuild] at h
  obtain rfl : { s with host } = t := congrArg Prod.snd (Except.ok.inj h)
  have hgpa : relmBootParamsGpa.toNat = 0x7000 := rfl
  have hsize : relmBpSize = 0x1000 := rfl
  have hheader : decodeHeader (bootParamsImage hdr initrdSize map) = guestHeader hdr initrdSize := funext image_header
  have hnum : decodeCount (bootParamsImage hdr initrdSize map) = map.length := by
    rw [decodeCount, show relmBpOffsetE820Entries.toNat = 0x1E8 from rfl, image_count, BitVec.toNat_ofNat]
    exact Nat.mod_eq_of_lt (by omega)
  have hramdisk : (decodeHeader (bootParamsImage hdr initrdSize map)).get .ramdiskImage =
      if initrdSize = 0 then 0 else relmInitrdLoadGpa := by
    rw [hheader, guestHeader, SetupHeader.get_set_apart (by decide) (by decide),
      SetupHeader.get_set_apart (by decide) (by decide), SetupHeader.get_set_self (by decide)]
    split <;> decide
  refine ⟨bootParamsImage hdr initrdSize map, map, ?_⟩
  constructor
  case held =>
    intro i hi
    rw [hmem, bootParams_memory _ _ _ hmax, if_pos (by omega), hgpa, Nat.add_sub_cancel_left]
  case kernelFields =>
    rw [hheader]
    exact guestHeader_kernel hdr initrdSize
  case typeOfLoader =>
    rw [hheader, guestHeader]
    simp (disch := decide) only [SetupHeader.get_set_apart, SetupHeader.get_set_self]
  case cmdLinePtr =>
    rw [hheader, guestHeader]
    simp (disch := decide) only [SetupHeader.get_set_apart, SetupHeader.get_set_self]
  case cmdlineSize =>
    rw [hheader, guestHeader]
    simp (disch := decide) only [SetupHeader.get_set_apart, SetupHeader.get_set_self]
  case ramdiskImage => exact hramdisk
  case ramdiskImage_zero =>
    rw [hramdisk]
    split
    · rename_i hzero
      exact ⟨fun _ => hzero, fun _ => rfl⟩
    · rename_i hne
      exact ⟨fun hz => absurd hz (by decide), fun hz => absurd hz hne⟩
  case ramdiskSize =>
    have hlt : (initrdSize.setWidth 64).toNat < 2 ^ (8 * HdrField.ramdiskSize.width) := by
      rw [BitVec.toNat_setWidth_of_le (by decide)]
      exact initrdSize.isLt
    rw [hheader, guestHeader, SetupHeader.get_set_apart (by decide) (by decide), SetupHeader.get_set_self (by decide) hlt]
  case vidMode => rw [hheader, guestHeader, SetupHeader.get_set_self (by decide) (by decide)]
  case e820 => exact hmap
  case count => exact hnum
  case entries =>
    have htable := image_table hdr initrdSize hmax
    unfold decodeE820
    rw [hnum]
    change (records 20 map.length ((List.range 0xD30).map fun i => bootParamsImage hdr initrdSize map (0x2D0 + i))).map
      decodeEntry = map
    rw [htable, records_flatMap entry_length, List.map_map]
    exact (List.map_congr_left fun e _ => decodeEntry_bytes e).trans (List.map_id _)
  case blank => exact fun i _ hi => image_blank hi
  case outside =>
    intro a ha
    rw [hmem, bootParams_memory _ _ _ hmax, if_neg (by omega)]

/-- A header whose bytes all differ, and an initrd. -/
theorem boot_params_encode_distinct_bytes : ∃ t,
    relmBootParamsBuild twoMibVm (fun i => BitVec.ofNat 8 (i.val + 1)) 0x1000#32 = .ok (0, t) ∧
    ∃ page map, BootParamsEncoded twoMibVm t (fun i => BitVec.ofNat 8 (i.val + 1)) 0x1000#32 page map := by
  have hmap := e820Build_eq twoMibVm.memory
  rw [if_neg (by decide)] at hmap
  obtain ⟨host, hbuild, -⟩ := bootParams_writes twoMib_layout twoMib_covered hmap (by decide)
    (fun i => BitVec.ofNat 8 (i.val + 1)) 0x1000#32
  exact ⟨_, hbuild, boot_params_encode twoMib_layout twoMib_covered _ _ hbuild⟩

end BootParams

end Relm.Boot
