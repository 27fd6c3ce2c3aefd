import Relm.Firmware.FwCfgRegistry

/-! What the guest reads from the fw_cfg device: each item as a stream of bytes, started over by every selector write. -/
namespace Relm.Firmware
open Lib.Run

/-- The bytes of an item; there are none without a buffer. -/
def FwCfgItem.bytes (item : FwCfgItem) : List Byte := (item.data.getD []).take item.size.toNat

namespace FwCfgDevice

/-- The bytes of the item with a key, none if there is no such item. -/
def content (fw : FwCfgDevice) (key : BitVec 16) : List Byte :=
  (((fw.items.take fw.itemCount).find? fun item => item.inUse && item.key == key).map FwCfgItem.bytes).getD []

/-- Byte `i` of those that the coming reads return. -/
def upcoming (fw : FwCfgDevice) (i : Nat) : Byte :=
  match fw.selected with
  | none => 0
  | some slot => (fw.item slot).bytes.getD ((fw.item slot).cursor.toNat + i) 0

/-- What has been registered, without what the guest has selected and read of it. -/
def registered (fw : FwCfgDevice) : FwCfgDevice :=
  { fw with items := fw.items.map fun item => { item with cursor := 0 }, selected := none }

end FwCfgDevice

inductive FwCfgPort
  | sel
  | data
  deriving DecidableEq

def FwCfgPort.number : FwCfgPort → BitVec 16
  | sel => fwCfgPortSel
  | data => fwCfgPortData

/-- The size of a port access. -/
inductive IoSize
  | one
  | two
  | four
  deriving DecidableEq

def IoSize.count : IoSize → Nat
  | one => 1
  | two => 2
  | four => 4

/-- A guest access to one of the two ports; `value` is what `*value` holds before it. -/
structure FwCfgAccess where
  port : FwCfgPort
  isWrite : Bool
  size : IoSize
  value : U32

namespace FwCfgAccess

/-- The value that `*value` holds afterwards, and the device. -/
def exec (fw : FwCfgDevice) (a : FwCfgAccess) : U32 × FwCfgDevice :=
  (relmFwCfgHandleIo fw a.port.number a.isWrite (BitVec.ofNat 32 a.size.count) a.value).2

/-- A selector write. -/
def selects (a : FwCfgAccess) : Bool := a.port = .sel && a.isWrite

/-- A read of the data port. -/
def reads (a : FwCfgAccess) : Bool := a.port = .data && !a.isWrite

end FwCfgAccess

/-- Byte `k` of a value, least significant first. -/
def ioByte (v : U32) (k : Nat) : Byte := (v >>> (8 * k)).setWidth 8

/-- The bytes that the reads of the data port in a trace have returned. -/
def dataBytes (tr : List (FwCfgAccess × U32)) : List Byte :=
  tr.flatMap fun x => if x.1.reads then (List.range x.1.size.count).map (ioByte x.2) else []

section Reads

variable (fw : FwCfgDevice)

private theorem item_modify (slot : Nat) (f : FwCfgItem → FwCfgItem) (hlt : slot < fw.items.length) :
    (fw.items.modify slot f).getD slot .zero = f (fw.item slot) := by
  rw [FwCfgDevice.item, List.getD_eq_getElem _ _ (by rwa [List.length_modify]), List.getD_eq_getElem _ _ hlt,
    List.getElem_modify_eq]

/-- A slot past the table holds nothing to read. -/
private theorem slot_lt {fw : FwCfgDevice} {slot : Nat} {bytes : List Byte} (h : (fw.item slot).data = some bytes) :
    slot < fw.items.length := by
  by_contra hge
  rw [FwCfgDevice.item, List.getD_eq_default _ _ (Nat.not_lt.mp hge)] at h
  cases h

private theorem bytes_getD_of_ge (item : FwCfgItem) {i : Nat} (h : item.size.toNat ≤ i) : item.bytes.getD i 0 = 0 := by
  refine List.getD_eq_default _ _ ?_
  rw [FwCfgItem.bytes, List.length_take]
  omega

/-- One byte is read, and the stream moves on by one. -/
private theorem read_upcoming :
    (relmFwCfgRead fw).1 = fw.upcoming 0 ∧ ∀ i, (relmFwCfgRead fw).2.upcoming i = fw.upcoming (i + 1) := by
  unfold relmFwCfgRead
  cases hsel : fw.selected with
  | none =>
    simp [FwCfgDevice.upcoming, hsel]
  | some slot =>
    dsimp only
    cases hdata : (fw.item slot).data with
    | none =>
      have hempty : (fw.item slot).bytes = [] := by rw [FwCfgItem.bytes, hdata, Option.getD_none, List.take_nil]
      simp [FwCfgDevice.upcoming, hsel, hempty]
    | some bytes =>
      dsimp only
      by_cases hlt : (fw.item slot).cursor < (fw.item slot).size
      · have hnat : (fw.item slot).cursor.toNat < (fw.item slot).size.toNat := hlt
        have hbound := (fw.item slot).size.isLt
        have hnext : ((fw.item slot).cursor + 1).toNat = (fw.item slot).cursor.toNat + 1 := by
          rw [BitVec.toNat_add]
          exact Nat.mod_eq_of_lt (by
            have : (1 : U32).toNat = 1 := rfl
            omega)
        rw [if_pos hlt]
        constructor
        · rw [FwCfgDevice.upcoming, hsel]
          dsimp only
          rw [Nat.add_zero, FwCfgItem.bytes, hdata, Option.getD_some, List.getD_eq_getElem?_getD,
            List.getD_eq_getElem?_getD, List.getElem?_take_of_lt hnat]
        · intro i
          simp only [FwCfgDevice.upcoming, hsel, FwCfgDevice.item]
          rw [item_modify fw slot _ (slot_lt hdata)]
          simp only [FwCfgItem.bytes, FwCfgDevice.item] at hnext ⊢
          rw [hnext, Nat.add_assoc, Nat.add_comm 1 i]
      · have hge : (fw.item slot).size.toNat ≤ (fw.item slot).cursor.toNat := Nat.not_lt.mp hlt
        rw [if_neg hlt]
        simp only [FwCfgDevice.upcoming, hsel]
        refine ⟨?_, fun i => ?_⟩
        · rw [bytes_getD_of_ge _ (by omega)]
        · rw [bytes_getD_of_ge _ (by omega), bytes_getD_of_ge _ (by omega)]

private theorem modify_cursor (items : List FwCfgItem) (slot : Nat) (c : U32) :
    (items.modify slot fun item => { item with cursor := c }).map (fun item => { item with cursor := 0 }) =
      items.map fun item => { item with cursor := 0 } := by
  induction items generalizing slot with
  | nil => rw [List.modify_nil]
  | cons item items ih =>
    cases slot with
    | zero => rfl
    | succ slot => rw [List.modify_succ_cons, List.map_cons, List.map_cons, ih]

private theorem read_registered : (relmFwCfgRead fw).2.registered = fw.registered := by
  unfold relmFwCfgRead
  split
  · rfl
  split
  · rfl
  dsimp only
  split
  · simp only [FwCfgDevice.registered, modify_cursor]
  · rfl

private theorem ioByte_or (x y : U32) (k : Nat) : ioByte (x ||| y) k = ioByte x k ||| ioByte y k := by
  rw [ioByte, BitVec.ushiftRight_or_distrib, BitVec.setWidth_or]
  rfl

/-- A byte placed at position `b` of a value. -/
private theorem ioByte_place (x : Byte) {b k : Nat} (hb : b < 4) :
    ioByte (x.setWidth 32 <<< (b * 8)) k = if k = b then x else 0 := by
  apply BitVec.eq_of_getLsbD_eq
  intro i hi
  simp only [ioByte, BitVec.getLsbD_setWidth, BitVec.getLsbD_ushiftRight, BitVec.getLsbD_shiftLeft, hi, decide_true,
    Bool.true_and]
  by_cases hk : k = b
  · subst hk
    have h1 : ¬ 8 * k + i < k * 8 := by omega
    have h2 : 8 * k + i - k * 8 = i := by omega
    simp [h1, h2, show 8 * k + i < 32 by omega, show i < 32 by omega]
  · rw [if_neg hk, show (0 : Byte).getLsbD i = false from BitVec.getLsbD_zero]
    by_cases hlt : 8 * k + i < b * 8
    · simp [hlt]
    · have hge : x.getLsbD (8 * k + i - b * 8) = false := BitVec.getLsbD_of_ge _ _ (by omega)
      simp [hge]

/-- Collecting `left` bytes from position `b` on puts the coming bytes of the stream there. -/
private theorem readData_spec (left b : Nat) (hb : b + left ≤ 4) (result : U32) (fw : FwCfgDevice)
    (hclear : ∀ k, b ≤ k → ioByte result k = 0) :
    (∀ k < b, ioByte (readData left b result fw).1 k = ioByte result k) ∧
    (∀ k < left, ioByte (readData left b result fw).1 (b + k) = fw.upcoming k) ∧
    (∀ i, (readData left b result fw).2.upcoming i = fw.upcoming (left + i)) ∧
    (readData left b result fw).2.registered = fw.registered := by
  induction left generalizing b result fw with
  | zero => exact ⟨fun _ _ => rfl, fun _ hk => absurd hk (Nat.not_lt_zero _), fun i => by rw [Nat.zero_add]; rfl, rfl⟩
  | succ left ih =>
    obtain ⟨hbyte, hshift⟩ := read_upcoming fw
    have hplace := fun k => ioByte_place (relmFwCfgRead fw).1 (k := k) (show b < 4 by omega)
    obtain ⟨h1, h2, h3, h4⟩ := ih (b + 1) (by omega) (result ||| ((relmFwCfgRead fw).1.setWidth 32 <<< (b * 8)))
      (relmFwCfgRead fw).2 (by
        intro k hk
        rw [ioByte_or, hclear k (by omega), hplace, if_neg (by omega)]
        rfl)
    rw [readData]
    refine ⟨fun k hk => ?_, fun k hk => ?_, fun i => ?_, h4.trans (read_registered fw)⟩
    · rw [h1 k (by omega), ioByte_or, hplace, if_neg (by omega)]
      exact BitVec.or_zero
    · cases k with
      | zero =>
        refine (h1 b (by omega)).trans ?_
        rw [ioByte_or, hclear b le_rfl, hplace, if_pos rfl, hbyte]
        exact BitVec.zero_or
      | succ k =>
        rw [show b + (k + 1) = b + 1 + k by omega, h2 k (by omega), hshift]
    · rw [h3, hshift]
      congr 1
      omega

/-- The bytes collected stay below the position that comes next. -/
theorem readData_lt (left b : Nat) (result : U32) (fw : FwCfgDevice) (hresult : result.toNat < 2 ^ (8 * b)) :
    (readData left b result fw).1.toNat < 2 ^ (8 * (b + left)) := by
  induction left generalizing b result fw with
  | zero => exact hresult
  | succ left ih =>
    rw [readData, show b + (left + 1) = b + 1 + left by omega]
    apply ih
    have hmono : 2 ^ (8 * b) ≤ 2 ^ (8 * (b + 1)) := Nat.pow_le_pow_right (by omega) (by omega)
    have hbyte : (relmFwCfgRead fw).1.toNat <<< (b * 8) < 2 ^ (8 * (b + 1)) := by
      rw [Nat.shiftLeft_eq, show 8 * (b + 1) = 8 + b * 8 by omega, Nat.pow_add]
      exact Nat.mul_lt_mul_of_pos_right (relmFwCfgRead fw).1.isLt (Nat.two_pow_pos _)
    rw [BitVec.toNat_or, BitVec.toNat_shiftLeft, BitVec.toNat_setWidth_of_le (by omega)]
    exact Nat.or_lt_two_pow (lt_of_lt_of_le hresult hmono) (lt_of_le_of_lt (Nat.mod_le _ _) hbyte)

end Reads

section Accesses

variable (fw : FwCfgDevice)

/-- A selector write starts the item with the key over. -/
private theorem select_upcoming (key : BitVec 16) (i : Nat) :
    (relmFwCfgSelect fw key).upcoming i = (fw.content key).getD i 0 := by
  unfold relmFwCfgSelect FwCfgDevice.content
  cases hfind : (fw.items.take fw.itemCount).findIdx? fun item => item.inUse && item.key == key with
  | none =>
    have hnone : (fw.items.take fw.itemCount).find? (fun item => item.inUse && item.key == key) = none := by
      rw [List.find?_eq_none]
      exact fun item hmem => by simpa using List.findIdx?_eq_none_iff.mp hfind item hmem
    rw [hnone]
    rfl
  | some slot =>
    obtain ⟨hlt, htest, hfirst⟩ := List.findIdx?_eq_some_iff_getElem.mp hfind
    have hsome : (fw.items.take fw.itemCount).find? (fun item => item.inUse && item.key == key) =
        some (fw.items.take fw.itemCount)[slot] :=
      List.find?_eq_some_iff_getElem.mpr ⟨htest, slot, hlt, rfl, fun j hj => by
        simpa only [Bool.not_eq_true', Bool.not_eq_true] using hfirst j hj⟩
    have hslot : slot < fw.items.length := by
      rw [List.length_take] at hlt
      omega
    have hitem : fw.item slot = (fw.items.take fw.itemCount)[slot] := by
      rw [FwCfgDevice.item, List.getD_eq_getElem _ _ hslot, List.getElem_take]
    rw [hsome]
    simp only [FwCfgDevice.upcoming, FwCfgDevice.item, Option.map_some, Option.getD_some]
    rw [item_modify fw slot _ hslot, ← hitem]
    simp [FwCfgItem.bytes]

private theorem select_registered (key : BitVec 16) : (relmFwCfgSelect fw key).registered = fw.registered := by
  unfold relmFwCfgSelect
  split
  · rfl
  · simp only [FwCfgDevice.registered, modify_cursor]

/-- The content of an item is not the guest's to change. -/
private theorem content_registered (key : BitVec 16) : fw.registered.content key = fw.content key := by
  unfold FwCfgDevice.content FwCfgDevice.registered
  dsimp only
  rw [← List.map_take, List.find?_map]
  cases hfind : (fw.items.take fw.itemCount).find? fun item => item.inUse && item.key == key with
  | none =>
    simp only [Function.comp_def, hfind]
    rfl
  | some item =>
    simp only [Function.comp_def, hfind]
    rfl

private theorem exec_select {a : FwCfgAccess} (h : a.selects = true) :
    (a.exec fw).2 = relmFwCfgSelect fw (a.value.setWidth 16) := by
  obtain ⟨hport, hwrite⟩ : a.port = .sel ∧ a.isWrite = true := by simpa [FwCfgAccess.selects] using h
  rw [FwCfgAccess.exec, hport, hwrite]
  rfl

private theorem exec_read {a : FwCfgAccess} (h : a.reads = true) : a.exec fw = readData a.size.count 0 0 fw := by
  obtain ⟨hport, hwrite⟩ : a.port = .data ∧ a.isWrite = false := by simpa [FwCfgAccess.reads] using h
  rw [FwCfgAccess.exec, hport, hwrite]
  cases a.size <;> rfl

/-- Reads of the selector and writes of the data port leave the device alone. -/
private theorem exec_idle {a : FwCfgAccess} (hs : a.selects = false) (hr : a.reads = false) : (a.exec fw).2 = fw := by
  rw [FwCfgAccess.selects] at hs
  rw [FwCfgAccess.reads] at hr
  rw [FwCfgAccess.exec]
  cases hport : a.port with
  | sel =>
    have hwrite : a.isWrite = false := by simpa [hport] using hs
    rw [hwrite]
    rfl
  | data =>
    have hwrite : a.isWrite = true := by simpa [hport] using hr
    rw [hwrite]
    rfl

/-- No access changes what has been registered. -/
private theorem exec_registered (a : FwCfgAccess) : (a.exec fw).2.registered = fw.registered := by
  cases hs : a.selects with
  | true =>
    rw [exec_select fw hs]
    exact select_registered ..
  | false =>
    cases hr : a.reads with
    | true =>
      have hcount : a.size.count ≤ 4 := by cases a.size <;> decide
      rw [exec_read fw hr]
      exact (readData_spec a.size.count 0 (by omega) 0 fw fun k _ => by simp [ioByte]).2.2.2
    | false => rw [exec_idle fw hs hr]

private theorem run_registered (accesses : List FwCfgAccess) :
    (run FwCfgAccess.exec fw accesses).2.registered = fw.registered := by
  induction accesses generalizing fw with
  | nil => rfl
  | cons a rest ih => exact (ih _).trans (exec_registered fw a)

/-- Without a selector write the reads return the stream, one piece after the other. -/
theorem run_dataBytes (accesses : List FwCfgAccess) (hs : ∀ a ∈ accesses, a.selects = false) :
    dataBytes (run FwCfgAccess.exec fw accesses).1 =
      (List.range (dataBytes (run FwCfgAccess.exec fw accesses).1).length).map fw.upcoming := by
  induction accesses generalizing fw with
  | nil => rfl
  | cons a rest ih =>
    have hrest := ih (a.exec fw).2 fun b hb => hs b (List.mem_cons_of_mem _ hb)
    rw [run]
    dsimp only
    cases hr : a.reads with
    | false =>
      rw [exec_idle fw (hs a List.mem_cons_self) hr] at hrest ⊢
      rw [dataBytes, List.flatMap_cons, if_neg (by simp [hr]), List.nil_append]
      exact hrest
    | true =>
      have hcount : a.size.count ≤ 4 := by cases a.size <;> decide
      obtain ⟨-, hvalue, hshift, -⟩ := readData_spec a.size.count 0 (by omega) 0 fw fun k _ => by simp [ioByte]
      rw [← exec_read fw hr] at hvalue hshift
      have hfirst : (List.range a.size.count).map (ioByte (a.exec fw).1) = (List.range a.size.count).map fw.upcoming := by
        refine List.map_congr_left fun k hk => ?_
        rw [← hvalue k (List.mem_range.mp hk), Nat.zero_add]
      rw [dataBytes, List.flatMap_cons, if_pos hr, hfirst]
      change _ ++ dataBytes (run FwCfgAccess.exec (a.exec fw).2 rest).1 = (List.range (_ ++ dataBytes _).length).map _
      rw [List.length_append, List.length_map, List.length_range, List.range_add, List.map_append, List.map_map]
      congr 1
      refine hrest.trans (List.map_congr_left fun i _ => ?_)
      exact hshift i

end Accesses

/-- The bytes that a registration was given for its item. -/
def RegistryCall.payload : RegistryCall → List Byte
  | register _ _ data size => (data.getD []).take size.toNat
  | registerFile _ data size => (data.getD []).take size.toNat

/-- What a guest finds on a device with the registrations `tr`, over a run of accesses. -/
structure FwCfgStreams (tr : List (RegistryCall × RegistryAnswer)) (fw : FwCfgDevice) (accesses : List FwCfgAccess) :
    Prop where
  known : ∀ call answer key, (call, answer) ∈ tr → answer.ret = .ok key → fw.content key = call.payload
  unknown : ∀ key, (∀ x ∈ tr, x.2.ret ≠ .ok key) → fw.content key = []
  stream : ∀ before a after rest, accesses = before ++ a :: (after ++ rest) → a.selects = true →
    (∀ b ∈ after, b.selects = false) →
    dataBytes (run FwCfgAccess.exec (run FwCfgAccess.exec fw (before ++ [a])).2 after).1 =
      (List.range (dataBytes (run FwCfgAccess.exec (run FwCfgAccess.exec fw (before ++ [a])).2 after).1).length).map
        fun i => (fw.content (a.value.setWidth 16)).getD i 0
  idle : ∀ before a rest, accesses = before ++ a :: rest → a.selects = false → a.reads = false →
    (a.exec (run FwCfgAccess.exec fw before).2).2 = (run FwCfgAccess.exec fw before).2
  intact : ∀ before rest, accesses = before ++ rest → (run FwCfgAccess.exec fw before).2.registered = fw.registered

theorem bytes_newItem (key : BitVec 16) (name : List Byte) (data : Option (List Byte)) (size : U32) :
    (newItem key name data size).bytes = (data.getD []).take size.toNat := by
  unfold newItem FwCfgItem.fill FwCfgItem.bytes
  dsimp only
  by_cases hsize : size > 0
  · rw [if_pos hsize]
    cases data with
    | none => rfl
    | some bytes => rw [Option.map_some, Option.getD_some, Option.getD_some, List.take_take, Nat.min_self]
  · have hzero : size.toNat = 0 := by
      have hle : ¬ (0 : U32).toNat < size.toNat := hsize
      exact Nat.eq_zero_of_not_pos hle
    rw [if_neg hsize, hzero, List.take_zero, List.take_zero]

section Content

variable {fw : FwCfgDevice} {used : List FwCfgItem} {key : BitVec 16}

theorem content_of_mem (k : fw.Table used) {item : FwCfgItem} (hmem : item ∈ used) :
    fw.content item.key = item.bytes := by
  rw [FwCfgDevice.content, k.take_eq]
  cases hfind : used.find? fun it => it.inUse && it.key == item.key with
  | none =>
    have hno := List.find?_eq_none.mp hfind item hmem
    rw [k.inUse item hmem, beq_self_eq_true] at hno
    exact absurd rfl hno
  | some it =>
    have htest := List.find?_some hfind
    rw [Bool.and_eq_true, beq_iff_eq] at htest
    obtain rfl := List.inj_on_of_nodup_map k.keys (List.mem_of_find?_eq_some hfind) hmem htest.2
    rfl

private theorem content_of_absent (k : fw.Table used) (hno : ∀ item ∈ used, item.key ≠ key) : fw.content key = [] := by
  have hfind : used.find? (fun it => it.inUse && it.key == key) = none := by
    refine List.find?_eq_none.mpr fun item hmem htest => ?_
    rw [Bool.and_eq_true, beq_iff_eq] at htest
    exact hno item hmem htest.2
  rw [FwCfgDevice.content, k.take_eq, hfind]
  rfl

end Content

private theorem item_payload (call : RegistryCall) (key : BitVec 16) :
    (call.item key).key = key ∧ (call.item key).bytes = call.payload := by
  cases call with
  | register _ name data size => exact ⟨rfl, bytes_newItem key name data size⟩
  | registerFile name data size => exact ⟨rfl, bytes_newItem key name data size⟩

/-- The guest reads each item as it was registered, from the start after every selector write and with zeros after its
end, and changes none of it. -/
theorem fw_cfg_streams (h : Host) (calls : List RegistryCall) (accesses : List FwCfgAccess) :
    FwCfgStreams (run RegistryCall.exec (h, relmFwCfgInit) calls).1
      (run RegistryCall.exec (h, relmFwCfgInit) calls).2.2 accesses := by
  have k := (run_registry h calls).table
  generalize (run RegistryCall.exec (h, relmFwCfgInit) calls).1 = tr at k ⊢
  generalize (run RegistryCall.exec (h, relmFwCfgInit) calls).2.2 = fw at k ⊢
  constructor
  case known =>
    intro call answer key hmem hret
    have hcontent := content_of_mem k (item_mem_registeredItems hmem hret)
    rw [(item_payload call key).1, (item_payload call key).2] at hcontent
    exact hcontent
  case unknown =>
    intro key hno
    refine content_of_absent k fun item hmem hkey => ?_
    obtain ⟨x, hx, hitem⟩ := List.mem_filterMap.mp hmem
    cases hret : x.2.ret with
    | error e =>
      rw [hret] at hitem
      cases hitem
    | ok key' =>
      rw [hret] at hitem
      obtain rfl := Option.some.inj hitem
      rw [(item_payload x.1 key').1] at hkey
      exact hno x hx (hkey ▸ hret)
  case stream =>
    intro before a after rest _ hsel hafter
    have hrun : (run FwCfgAccess.exec fw (before ++ [a])).2 =
        relmFwCfgSelect (run FwCfgAccess.exec fw before).2 (a.value.setWidth 16) := by
      rw [run_append]
      exact exec_select _ hsel
    have hcontent : (run FwCfgAccess.exec fw before).2.content (a.value.setWidth 16) = fw.content (a.value.setWidth 16) := by
      rw [← content_registered, run_registered, content_registered]
    rw [run_dataBytes _ after hafter, List.length_map, List.length_range]
    refine List.map_congr_left fun i _ => ?_
    rw [hrun, select_upcoming, hcontent]
  case idle =>
    intro before a rest _ hs hr
    exact exec_idle _ hs hr
  case intact =>
    intro before rest _
    exact run_registered fw before

end Relm.Firmware
