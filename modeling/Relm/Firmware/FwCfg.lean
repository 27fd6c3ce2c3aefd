import Relm.Firmware.E820

/-! The fw_cfg device: a table of keyed items that the guest selects through one port and reads bytewise through the
other. -/
namespace Relm.Firmware
open Lib.Word

def fwCfgSignature : BitVec 16 := 0x0000
def fwCfgId : BitVec 16 := 0x0001
def fwCfgUuid : BitVec 16 := 0x0002
def fwCfgRamSize : BitVec 16 := 0x0003
def fwCfgNographic : BitVec 16 := 0x0004
def fwCfgNbCpus : BitVec 16 := 0x0005
def fwCfgMachineId : BitVec 16 := 0x0006
def fwCfgKernelAddr : BitVec 16 := 0x0007
def fwCfgKernelSize : BitVec 16 := 0x0008
def fwCfgKernelCmdline : BitVec 16 := 0x0009
def fwCfgInitrdAddr : BitVec 16 := 0x000A
def fwCfgInitrdSize : BitVec 16 := 0x000B
def fwCfgBootDevice : BitVec 16 := 0x000C
def fwCfgNuma : BitVec 16 := 0x000D
def fwCfgBootMenu : BitVec 16 := 0x000E
def fwCfgMaxCpus : BitVec 16 := 0x000F
def fwCfgFileDir : BitVec 16 := 0x0019
def fwCfgFileFirst : BitVec 16 := 0x8000

def fwCfgMaxItems : Nat := 32
def fwCfgMaxNameLen : Nat := 55
def fwCfgMaxItemSize : U32 := 4096#32

def fwCfgPortSel : BitVec 16 := 0x510
def fwCfgPortData : BitVec 16 := 0x511

/-- `struct fw_cfg_item`. `name` is the whole array; `data` is `none` for a `NULL` pointer. -/
structure FwCfgItem where
  key : BitVec 16
  name : List Byte
  data : Option (List Byte)
  size : U32
  cursor : U32
  inUse : Bool
  deriving DecidableEq

/-- A cleared item. -/
def FwCfgItem.zero : FwCfgItem := ⟨0, List.replicate fwCfgMaxNameLen 0, none, 0, 0, false⟩

/-- `struct fw_cfg_device`. `selected` is the slot the pointer names. -/
structure FwCfgDevice where
  items : List FwCfgItem
  itemCount : Nat
  selected : Option Nat
  nextFileKey : BitVec 16
  e820Map : E820Map
  initialized : Bool
  deriving DecidableEq

def FwCfgDevice.item (fw : FwCfgDevice) (slot : Nat) : FwCfgItem := fw.items.getD slot .zero

def relmFwCfgInit : FwCfgDevice where
  items := List.replicate fwCfgMaxItems .zero
  itemCount := 0
  selected := none
  nextFileKey := fwCfgFileFirst
  e820Map := []
  initialized := true

/-- The bytes of a C string, without what follows a zero. -/
def cString (l : List Byte) : List Byte := l.takeWhile (· != 0)

/-- `strncpy` into an array of `n` bytes: zeros after a shorter string, no terminator after a longer one. -/
def strncpy (n : Nat) (s : List Byte) : List Byte := (cString s).take n ++ List.replicate (n - (cString s).length) 0

/-- `strscpy` into a cleared array of `n` bytes, which ends with a zero in any case. -/
def strscpy (n : Nat) (s : List Byte) : List Byte := strncpy (n - 1) s ++ [0]

/-- The bytes of an integer of `n` bytes, in either order. -/
def leBytes (n : Nat) (w : U64) : List Byte := (List.range n).map (getByte w)
def beBytes (n : Nat) (w : U64) : List Byte := (leBytes n w).reverse

theorem leBytes_length (n : Nat) (w : U64) : (leBytes n w).length = n := by simp [leBytes]

theorem beBytes_length (n : Nat) (w : U64) : (beBytes n w).length = n := by
  rw [beBytes, List.length_reverse, leBytes_length]

/-- The item that `relm_fw_cfg_register` writes into a slot. -/
def FwCfgItem.fill (item : FwCfgItem) (key : BitVec 16) (name : List Byte) (data : Option (List Byte)) (size : U32) :
    FwCfgItem :=
  { key, size, cursor := 0, inUse := true,
    name := if cString name ≠ [] then strncpy fwCfgMaxNameLen name else item.name.set 0 0,
    data := if size > 0 then data.map fun bytes => bytes.take size.toNat else none }

/-- The duplicate scan. -/
def FwCfgDevice.hasKey (fw : FwCfgDevice) (key : BitVec 16) : Bool :=
  (fw.items.take fw.itemCount).any fun item => item.inUse && item.key == key

/-- `name` is empty for `NULL` as well. The buffer of an item with data comes from the slab; without one the slot keeps
the `NULL` that `kmalloc` returned. -/
def relmFwCfgRegister (h : Host) (fw : FwCfgDevice) (key : BitVec 16) (name : List Byte) (data : Option (List Byte))
    (size : U32) : Except Errno Unit × Host × FwCfgDevice :=
  if !fw.initialized then (.error .einval, h, fw)
  else if size > fwCfgMaxItemSize then (.error .einval, h, fw)
  else if fw.itemCount ≥ fwCfgMaxItems then (.error .enospc, h, fw)
  else if fw.hasKey key then (.error .eexist, h, fw)
  else
    let filled := { fw with items := fw.items.modify fw.itemCount fun item => item.fill key name data size,
                            itemCount := fw.itemCount + 1 }
    if size > 0 ∧ data.isSome then
      match h.kzalloc with
      | (none, h) =>
        (.error .enomem, h, { fw with items := fw.items.modify fw.itemCount fun item => { item with data := none } })
      | (some _, h) => (.ok (), h, filled)
    else (.ok (), h, filled)

/-- On success the key. The counter moves on whether the item is registered or not. -/
def relmFwCfgRegisterFile (h : Host) (fw : FwCfgDevice) (name : List Byte) (data : Option (List Byte)) (size : U32) :
    Except Errno (BitVec 16) × Host × FwCfgDevice :=
  if cString name = [] then (.error .einval, h, fw)
  else if (cString name).length > fwCfgMaxNameLen then (.error .einval, h, fw)
  else
    let key := fw.nextFileKey
    let r := relmFwCfgRegister h { fw with nextFileKey := key + 1 } key name data size
    (r.1.map fun _ => key, r.2)

/-- The items that the directory lists. -/
def FwCfgDevice.files (fw : FwCfgDevice) : List FwCfgItem :=
  (fw.items.take fw.itemCount).filter fun item => item.inUse && decide (item.key ≥ fwCfgFileFirst)

/-- `struct fw_cfg_file`. The array of an item has no room for a terminator after a name of full length: the byte
that `strscpy` then reads behind it is padding, which `relm_fw_cfg_init` has cleared. -/
def fileRecord (item : FwCfgItem) : List Byte :=
  beBytes 4 (item.size.setWidth 64) ++ beBytes 2 (item.key.setWidth 64) ++ beBytes 2 0 ++ strscpy 56 item.name

/-- A directory that exists already is no error. -/
def relmFwCfgBuildFileDir (h : Host) (fw : FwCfgDevice) : Except Errno Unit × Host × FwCfgDevice :=
  let dirSize := BitVec.ofNat 32 (4 + fw.files.length * 64)
  match h.kzalloc with
  | (none, h) => (.error .enomem, h, fw)
  | (some dir, h) =>
    let bytes := beBytes 4 (BitVec.ofNat 64 fw.files.length) ++ fw.files.flatMap fileRecord
    match relmFwCfgRegister h fw fwCfgFileDir [] (some bytes) dirSize with
    | (.error e, h, fw) => if e ≠ .eexist then (.error e, h.kfree dir, fw) else (.ok (), h.kfree dir, fw)
    | (.ok _, h, fw) => (.ok (), h.kfree dir, fw)

/-- Well-known items in order, up to the first failure. -/
def registerAll (h : Host) (fw : FwCfgDevice) :
    List (BitVec 16 × Option (List Byte) × U32) → Except Errno Unit × Host × FwCfgDevice
  | [] => (.ok (), h, fw)
  | (key, data, size) :: rest =>
    match relmFwCfgRegister h fw key [] data size with
    | (.error e, h, fw) => (.error e, h, fw)
    | (.ok _, h, fw) => registerAll h fw rest

/-- The number of CPUs the guest is told: at least one. -/
def nbCpus (onlineVcpus : Int) : BitVec 16 := if BitVec.ofInt 16 onlineVcpus = 0 then 1 else BitVec.ofInt 16 onlineVcpus

/-- The items that `relm_fw_cfg_setup` registers by key. -/
def wellKnownItems (memory : Vm.VmMemory) (onlineVcpus : Int) : List (BitVec 16 × Option (List Byte) × U32) :=
  let item (key : BitVec 16) (n : Nat) (value : U64) := (key, some (leBytes n value), BitVec.ofNat 32 n)
  [(fwCfgSignature, some [0x51, 0x45, 0x4D, 0x55], 4),
   item fwCfgId 4 0x1,
   (fwCfgUuid, some (List.replicate 16 0), 16),
   item fwCfgRamSize 4 memory.totalGuestRam,
   item fwCfgNographic 2 1,
   item fwCfgNbCpus 2 ((nbCpus onlineVcpus).setWidth 64),
   item fwCfgMachineId 2 1,
   item fwCfgKernelAddr 4 0,
   item fwCfgKernelSize 4 0,
   item fwCfgKernelCmdline 4 0,
   item fwCfgInitrdAddr 4 0,
   item fwCfgInitrdSize 4 0,
   item fwCfgBootDevice 1 0x63,
   (fwCfgNuma, none, 0),
   item fwCfgBootMenu 2 0,
   item fwCfgMaxCpus 2 ((nbCpus onlineVcpus).setWidth 64)]

/-- An entry as it lies in memory. -/
def E820Entry.bytes (e : E820Entry) : List Byte := leBytes 8 e.addr ++ leBytes 8 e.size ++ leBytes 4 (e.type.setWidth 64)

theorem entry_length (e : E820Entry) : e.bytes.length = 20 := by simp [E820Entry.bytes, leBytes_length]

/-- The bytes of a C string constant. -/
def ascii (s : String) : List Byte := s.toList.map fun c => BitVec.ofNat 8 c.toNat

/-- The named files, and the directory that lists them. -/
def setupFiles (h : Host) (fw : FwCfgDevice) : Except Errno Unit × Host × FwCfgDevice :=
  match relmFwCfgRegisterFile h fw (ascii "etc/e820") (some (fw.e820Map.flatMap E820Entry.bytes))
      (BitVec.ofNat 32 (fw.e820Map.length * 20)) with
  | (.error e, h, fw) => (.error e, h, fw)
  | (.ok _, h, fw) =>
    match relmFwCfgRegisterFile h fw (ascii "etc/boot-fail-wait") (some (leBytes 4 0)) 4 with
    | (.error e, h, fw) => (.error e, h, fw)
    | (.ok _, h, fw) => relmFwCfgBuildFileDir h fw

/-- `relm_fw_cfg_setup`, with what it reads of the VM. -/
def relmFwCfgSetup (h : Host) (fw : FwCfgDevice) (memory : Vm.VmMemory) (onlineVcpus : Int) :
    Except Errno Unit × Host × FwCfgDevice :=
  if !fw.initialized then (.error .einval, h, fw)
  else
    match registerAll h fw (wellKnownItems memory onlineVcpus) with
    | (.error e, h, fw) => (.error e, h, fw)
    | (.ok _, h, fw) =>
      match relmE820Build memory with
      | .error e => (.error e, h, fw)
      | .ok map => setupFiles h { fw with e820Map := map }

/-- A selector write; the first item with the key starts over, and without one the reads give zeros. -/
def relmFwCfgSelect (fw : FwCfgDevice) (key : BitVec 16) : FwCfgDevice :=
  match (fw.items.take fw.itemCount).findIdx? fun item => item.inUse && item.key == key with
  | none => { fw with selected := none }
  | some slot => { fw with selected := some slot, items := fw.items.modify slot fun item => { item with cursor := 0 } }

def relmFwCfgRead (fw : FwCfgDevice) : Byte × FwCfgDevice :=
  match fw.selected with
  | none => (0, fw)
  | some slot =>
    match (fw.item slot).data with
    | none => (0, fw)
    | some bytes =>
      let cursor := (fw.item slot).cursor
      if cursor < (fw.item slot).size then
        (bytes.getD cursor.toNat 0, { fw with items := fw.items.modify slot fun item => { item with cursor := cursor + 1 } })
      else (0, fw)

/-- The bytes of a read of the data port from position `b` on, collected into `result`. -/
def readData : (left b : Nat) → U32 → FwCfgDevice → U32 × FwCfgDevice
  | 0, _, result, fw => (result, fw)
  | left + 1, b, result, fw =>
    let r := relmFwCfgRead fw
    readData left (b + 1) (result ||| (r.1.setWidth 32 <<< (b * 8))) r.2

/-- The value returned, the value left in `*value`, and the device. -/
def relmFwCfgHandleIo (fw : FwCfgDevice) (port : BitVec 16) (isWrite : Bool) (size value : U32) : Int × U32 × FwCfgDevice :=
  if port = fwCfgPortSel then
    if isWrite then (1, value, relmFwCfgSelect fw (value.setWidth 16)) else (1, 0, fw)
  else if port = fwCfgPortData then
    if !isWrite then (1, readData size.toNat 0 0 fw) else (1, value, fw)
  else (1, value, fw)

/-- The device claims every access. -/
theorem handleIo_ret (fw : FwCfgDevice) (port : BitVec 16) (isWrite : Bool) (size value : U32) :
    (relmFwCfgHandleIo fw port isWrite size value).1 = 1 := by
  unfold relmFwCfgHandleIo
  split
  · split <;> rfl
  · split
    · split <;> rfl
    · rfl

section Initialized

variable (h : Host) (fw : FwCfgDevice)

/-- Registering, whether it succeeds or not, leaves the device initialised or not as it was. -/
theorem register_initialized (key : BitVec 16) (name : List Byte) (data : Option (List Byte)) (size : U32) :
    (relmFwCfgRegister h fw key name data size).2.2.initialized = fw.initialized := by
  unfold relmFwCfgRegister
  repeat' split
  all_goals rfl

private theorem registerFile_initialized (name : List Byte) (data : Option (List Byte)) (size : U32) :
    (relmFwCfgRegisterFile h fw name data size).2.2.initialized = fw.initialized := by
  unfold relmFwCfgRegisterFile
  split
  · rfl
  · split
    · rfl
    · exact register_initialized ..

private theorem buildFileDir_initialized : (relmFwCfgBuildFileDir h fw).2.2.initialized = fw.initialized := by
  unfold relmFwCfgBuildFileDir
  dsimp only
  split
  · rfl
  · rename_i h' _
    generalize hr : relmFwCfgRegister h' fw fwCfgFileDir [] _ _ = r
    have hi : r.2.2.initialized = fw.initialized := by rw [← hr, register_initialized]
    rcases r with ⟨_ | _, _, _⟩
    · dsimp only at hi ⊢
      split <;> exact hi
    · exact hi

private theorem registerAll_initialized (items : List (BitVec 16 × Option (List Byte) × U32)) :
    (registerAll h fw items).2.2.initialized = fw.initialized := by
  induction items generalizing h fw with
  | nil => rfl
  | cons item rest ih =>
    obtain ⟨key, data, size⟩ := item
    have hi := register_initialized h fw key [] data size
    rw [registerAll]
    generalize relmFwCfgRegister h fw key [] data size = r at hi ⊢
    rcases r with ⟨_ | _, h', fw'⟩
    · exact hi
    · exact (ih h' fw').trans hi

private theorem setupFiles_initialized : (setupFiles h fw).2.2.initialized = fw.initialized := by
  unfold setupFiles
  generalize ascii "etc/e820" = name
  have hi := registerFile_initialized h fw name (some (fw.e820Map.flatMap E820Entry.bytes))
    (BitVec.ofNat 32 (fw.e820Map.length * 20))
  generalize relmFwCfgRegisterFile h fw name _ _ = r at hi ⊢
  rcases r with ⟨_ | _, h', fw'⟩
  · exact hi
  · dsimp only at hi ⊢
    have hi' := registerFile_initialized h' fw' (ascii "etc/boot-fail-wait") (some (leBytes 4 0)) 4
    generalize relmFwCfgRegisterFile h' fw' (ascii "etc/boot-fail-wait") (some (leBytes 4 0)) 4 = r' at hi' ⊢
    rcases r' with ⟨_ | _, h'', fw''⟩
    · exact hi'.trans hi
    · exact (buildFileDir_initialized h'' fw'').trans (hi'.trans hi)

/-- Setting the device up does not initialise it. -/
theorem setup_initialized (memory : Vm.VmMemory) (onlineVcpus : Int) :
    (relmFwCfgSetup h fw memory onlineVcpus).2.2.initialized = fw.initialized := by
  unfold relmFwCfgSetup
  split
  · rfl
  · have hi := registerAll_initialized h fw (wellKnownItems memory onlineVcpus)
    generalize registerAll h fw (wellKnownItems memory onlineVcpus) = r at hi ⊢
    rcases r with ⟨_ | _, h', fw'⟩
    · exact hi
    · dsimp only at hi ⊢
      split
      · exact hi
      · exact (setupFiles_initialized ..).trans hi

private theorem read_initialized : (relmFwCfgRead fw).2.initialized = fw.initialized := by
  unfold relmFwCfgRead
  split
  · rfl
  · split
    · rfl
    · dsimp only
      split <;> rfl

private theorem readData_initialized (left b : Nat) (result : U32) :
    (readData left b result fw).2.initialized = fw.initialized := by
  induction left generalizing b result fw with
  | zero => rfl
  | succ left ih =>
    rw [readData]
    exact (ih ..).trans (read_initialized fw)

/-- No access of the guest changes whether the device is initialised. -/
theorem handleIo_initialized (port : BitVec 16) (isWrite : Bool) (size value : U32) :
    (relmFwCfgHandleIo fw port isWrite size value).2.2.initialized = fw.initialized := by
  unfold relmFwCfgHandleIo
  split
  · split
    · dsimp only [relmFwCfgSelect]
      split <;> rfl
    · rfl
  · split
    · split
      · exact readData_initialized ..
      · rfl
    · rfl

end Initialized

end Relm.Firmware
