import Relm.Firmware.FwCfg
import Relm.Lib.Run

/-! The item table of the fw_cfg device over whole runs of registrations: which items it holds, and which keys the
named files get. -/
namespace Relm.Firmware
open Lib.Run

section Table

/-- The item that a registration leaves in a cleared slot. -/
def newItem (key : BitVec 16) (name : List Byte) (data : Option (List Byte)) (size : U32) : FwCfgItem :=
  FwCfgItem.zero.fill key name data size

/-- The device with one more item. -/
def FwCfgDevice.add (fw : FwCfgDevice) (key : BitVec 16) (name : List Byte) (data : Option (List Byte)) (size : U32) :
    FwCfgDevice :=
  { fw with items := fw.items.modify fw.itemCount fun item => item.fill key name data size,
            itemCount := fw.itemCount + 1 }

/-- The table holds the items `used`, in the order in which they came, and cleared slots after them. -/
structure FwCfgDevice.Table (fw : FwCfgDevice) (used : List FwCfgItem) : Prop where
  items : fw.items = used ++ List.replicate (fwCfgMaxItems - used.length) .zero
  count : fw.itemCount = used.length
  room : used.length ≤ fwCfgMaxItems
  inUse : ∀ item ∈ used, item.inUse = true
  keys : (used.map FwCfgItem.key).Nodup
  initialized : fw.initialized = true

/-- Everything that a registration checks, and the buffer it needs. -/
structure Accepts (h : Host) (fw : FwCfgDevice) (key : BitVec 16) (data : Option (List Byte)) (size : U32) : Prop where
  initialized : fw.initialized = true
  small : size ≤ fwCfgMaxItemSize
  room : fw.itemCount < fwCfgMaxItems
  fresh : fw.hasKey key = false
  buffer : size > 0 ∧ data.isSome = true → h.kzalloc.1.isSome = true

variable {h : Host} {fw : FwCfgDevice} {used : List FwCfgItem} {key : BitVec 16} {name : List Byte}
  {data : Option (List Byte)} {size : U32}

/-- The place after a list is the start of what follows it. -/
private theorem modify_at_length {α : Type} (l r : List α) (f : α → α) :
    (l ++ r).modify l.length f = l ++ r.modify 0 f := by
  induction l with
  | nil => rfl
  | cons a l ih => rw [List.cons_append, List.length_cons, List.modify_succ_cons, ih, List.cons_append]

namespace FwCfgDevice.Table

theorem take_eq (k : fw.Table used) : fw.items.take fw.itemCount = used := by
  rw [k.items, k.count, List.take_left]

theorem init : relmFwCfgInit.Table [] where
  items := rfl
  count := rfl
  room := Nat.zero_le _
  inUse := by simp
  keys := List.nodup_nil
  initialized := rfl

/-- The items in use are exactly the ones that were registered. -/
theorem filter_inUse (k : fw.Table used) : fw.items.filter (·.inUse) = used := by
  have hzero : ∀ n, (List.replicate n FwCfgItem.zero).filter (·.inUse) = [] := by
    intro n
    simp [FwCfgItem.zero]
  rw [k.items, List.filter_append, hzero, List.append_nil]
  exact List.filter_eq_self.mpr k.inUse

theorem hasKey_iff (k : fw.Table used) : fw.hasKey key = true ↔ ∃ item ∈ used, item.key = key := by
  rw [FwCfgDevice.hasKey, k.take_eq, List.any_eq_true]
  constructor
  · rintro ⟨item, hmem, htest⟩
    rw [Bool.and_eq_true, beq_iff_eq] at htest
    exact ⟨item, hmem, htest.2⟩
  · rintro ⟨item, hmem, rfl⟩
    exact ⟨item, hmem, by rw [k.inUse item hmem, beq_self_eq_true, Bool.and_self]⟩

/-- The slot after the last item is cleared, so that clearing its buffer pointer changes nothing. -/
private theorem clear_slot (k : fw.Table used) :
    fw.items.modify fw.itemCount (fun item => { item with data := none }) = fw.items := by
  rw [k.items, k.count, modify_at_length]
  cases fwCfgMaxItems - used.length with
  | zero => rfl
  | succ n => rfl

private theorem fill_slot (k : fw.Table used) (hroom : fw.itemCount < fwCfgMaxItems) :
    fw.items.modify fw.itemCount (fun item => item.fill key name data size) =
      (used ++ [newItem key name data size]) ++
        List.replicate (fwCfgMaxItems - (used ++ [newItem key name data size]).length) .zero := by
  have hlt : used.length < fwCfgMaxItems := by rwa [k.count] at hroom
  obtain ⟨n, hn⟩ : ∃ n, fwCfgMaxItems - used.length = n + 1 := ⟨fwCfgMaxItems - used.length - 1, by omega⟩
  rw [k.items, k.count, modify_at_length, hn, List.length_append, List.length_singleton,
    show fwCfgMaxItems - (used.length + 1) = n by omega, List.append_assoc]
  rfl

/-- A device with one more item of a new key. -/
theorem add (k : fw.Table used) (hroom : fw.itemCount < fwCfgMaxItems) (hfresh : fw.hasKey key = false) :
    (fw.add key name data size).Table (used ++ [newItem key name data size]) where
  items := k.fill_slot hroom
  count := by
    rw [List.length_append, List.length_singleton]
    exact congrArg (· + 1) k.count
  room := by
    rw [k.count] at hroom
    rw [List.length_append, List.length_singleton]
    exact hroom
  inUse := by
    intro item hmem
    rw [List.mem_append, List.mem_singleton] at hmem
    rcases hmem with hmem | rfl
    · exact k.inUse item hmem
    · rfl
  keys := by
    rw [List.map_append, List.map_singleton]
    refine List.Nodup.append k.keys (List.nodup_singleton _) ?_
    intro other hother hlast
    rw [List.mem_singleton] at hlast
    obtain ⟨item, hmem, hkey⟩ := List.mem_map.mp hother
    have hhas : fw.hasKey key = true := k.hasKey_iff.mpr ⟨item, hmem, hkey.trans hlast⟩
    rw [hfresh] at hhas
    cases hhas
  initialized := k.initialized

theorem withNextFileKey (k : fw.Table used) (next : BitVec 16) : { fw with nextFileKey := next }.Table used :=
  ⟨k.items, k.count, k.room, k.inUse, k.keys, k.initialized⟩

end FwCfgDevice.Table

/-- What a registration does: it is refused and changes nothing, or it adds the item. -/
theorem register_outcome (k : fw.Table used) (key : BitVec 16) (name : List Byte) (data : Option (List Byte)) (size : U32) :
    (¬ Accepts h fw key data size ∧ ∃ e h', relmFwCfgRegister h fw key name data size = (.error e, h', fw) ∧
      (e = .eexist → fw.hasKey key = true)) ∨
    (Accepts h fw key data size ∧
      ∃ h', relmFwCfgRegister h fw key name data size = (.ok (), h', fw.add key name data size)) := by
  unfold relmFwCfgRegister
  have hinit : (!fw.initialized) = false := by rw [k.initialized]; rfl
  rw [hinit]
  simp only [Bool.false_eq_true, if_false]
  by_cases hsize : size > fwCfgMaxItemSize
  · left
    rw [if_pos hsize]
    exact ⟨fun ha => absurd ha.small (BitVec.not_le.mpr hsize), _, _, rfl, fun he => by cases he⟩
  rw [if_neg hsize]
  by_cases hroom : fw.itemCount ≥ fwCfgMaxItems
  · left
    rw [if_pos hroom]
    exact ⟨fun ha => absurd ha.room (Nat.not_lt.mpr hroom), _, _, rfl, fun he => by cases he⟩
  rw [if_neg hroom]
  cases hfresh : fw.hasKey key with
  | true =>
    left
    exact ⟨fun ha => Bool.false_ne_true (ha.fresh.symm.trans hfresh), _, _, rfl, fun _ => rfl⟩
  | false =>
    simp only [Bool.false_eq_true, if_false]
    by_cases hdata : size > 0 ∧ data.isSome = true
    · rw [if_pos hdata]
      cases hbuf : h.kzalloc with
      | mk o h' =>
        cases o with
        | none =>
          left
          refine ⟨fun ha => ?_, .enomem, h', ?_, fun he => by cases he⟩
          · have hsome := ha.buffer hdata
            rw [hbuf] at hsome
            cases hsome
          · dsimp only
            rw [k.clear_slot]
        | some obj =>
          right
          exact ⟨⟨k.initialized, BitVec.not_lt.mp hsize, Nat.not_le.mp hroom, hfresh, fun _ => by rw [hbuf]; rfl⟩, h', rfl⟩
    · right
      rw [if_neg hdata]
      exact ⟨⟨k.initialized, BitVec.not_lt.mp hsize, Nat.not_le.mp hroom, hfresh, fun hd => absurd hd hdata⟩, h, rfl⟩

end Table

/-- A registration, by key or by name. -/
inductive RegistryCall
  | register (key : BitVec 16) (name : List Byte) (data : Option (List Byte)) (size : U32)
  | registerFile (name : List Byte) (data : Option (List Byte)) (size : U32)

/-- On success the key of the item; and the item table before and after the call. -/
structure RegistryAnswer where
  ret : Except Errno (BitVec 16)
  before : List FwCfgItem
  after : List FwCfgItem

namespace RegistryCall

def exec (s : Host × FwCfgDevice) : RegistryCall → RegistryAnswer × Host × FwCfgDevice
  | register key name data size =>
    let r := relmFwCfgRegister s.1 s.2 key name data size
    (⟨r.1.map fun _ => key, s.2.items, r.2.2.items⟩, r.2)
  | registerFile name data size =>
    let r := relmFwCfgRegisterFile s.1 s.2 name data size
    (⟨r.1, s.2.items, r.2.2.items⟩, r.2)

/-- The item of a call that has been given a key. -/
def item (key : BitVec 16) : RegistryCall → FwCfgItem
  | register _ name data size => newItem key name data size
  | registerFile name data size => newItem key name data size

/-- The call takes a key from the counter, whether an item gets it or not. -/
def takesKey : RegistryCall → Bool
  | register .. => false
  | registerFile name _ _ => cString name ≠ [] ∧ (cString name).length ≤ fwCfgMaxNameLen

/-- The call passes every check of `relm_fw_cfg_register_file` and gets its buffer. -/
def RegistersFile (s : Host × FwCfgDevice) : RegistryCall → Prop
  | register .. => False
  | registerFile name data size =>
    takesKey (registerFile name data size) = true ∧ Accepts s.1 s.2 s.2.nextFileKey data size

end RegistryCall

/-- The items that the successful calls of a trace have registered, in order. -/
def registeredItems (tr : List (RegistryCall × RegistryAnswer)) : List FwCfgItem :=
  tr.filterMap fun x => x.2.ret.toOption.map fun key => x.1.item key

/-- What the table of items is to be, after a run of registrations. -/
structure RegistrySound (tr : List (RegistryCall × RegistryAnswer)) (s : Host × FwCfgDevice) : Prop where
  distinct : ((s.2.items.filter (·.inUse)).map FwCfgItem.key).Nodup
  count : s.2.itemCount = (s.2.items.filter (·.inUse)).length
  bounded : s.2.itemCount ≤ fwCfgMaxItems
  unchanged : ∀ x ∈ tr, (∃ e, x.2.ret = .error e) → x.2.after = x.2.before
  files : ∀ name data size answer key, (RegistryCall.registerFile name data size, answer) ∈ tr → answer.ret = .ok key →
    fwCfgFileFirst ≤ key ∧ ∃ item ∈ s.2.files, item.key = key ∧ item.name = strncpy fwCfgMaxNameLen name

/-- How many calls have taken a key from the counter. -/
def keysTaken (calls : List RegistryCall) : Nat := calls.countP RegistryCall.takesKey

/-- No file is registered while the 16-bit counter is in the lower half of its range. -/
def Unwrapped (h : Host) (calls : List RegistryCall) : Prop :=
  ∀ before call after, calls = before ++ call :: after →
    call.RegistersFile (run RegistryCall.exec (h, relmFwCfgInit) before).2 → keysTaken before % 2 ^ 16 < 2 ^ 15

section Runs

variable {h : Host} {fw : FwCfgDevice} {used : List FwCfgItem}

private theorem register_nextFileKey (key : BitVec 16) (name : List Byte) (data : Option (List Byte)) (size : U32) :
    (relmFwCfgRegister h fw key name data size).2.2.nextFileKey = fw.nextFileKey := by
  unfold relmFwCfgRegister
  repeat' split
  all_goals rfl

/-- The counter moves with every admitted name. -/
private theorem exec_nextFileKey (s : Host × FwCfgDevice) (call : RegistryCall) :
    (call.exec s).2.2.nextFileKey = s.2.nextFileKey + BitVec.ofNat 16 call.takesKey.toNat := by
  cases call with
  | register key name data size =>
    rw [RegistryCall.exec, RegistryCall.takesKey]
    dsimp only
    rw [register_nextFileKey]
    exact (BitVec.add_zero _).symm
  | registerFile name data size =>
    rw [RegistryCall.exec, RegistryCall.takesKey]
    unfold relmFwCfgRegisterFile
    by_cases hempty : cString name = []
    · rw [if_pos hempty, decide_eq_false fun hk => hk.1 hempty]
      exact (BitVec.add_zero _).symm
    by_cases hlong : (cString name).length > fwCfgMaxNameLen
    · rw [if_neg hempty, if_pos hlong, decide_eq_false fun hk => absurd hk.2 (Nat.not_le.mpr hlong)]
      exact (BitVec.add_zero _).symm
    · rw [if_neg hempty, if_neg hlong, decide_eq_true ⟨hempty, Nat.not_lt.mp hlong⟩]
      exact register_nextFileKey ..

private theorem run_nextFileKey (s : Host × FwCfgDevice) (calls : List RegistryCall) :
    (run RegistryCall.exec s calls).2.2.nextFileKey = s.2.nextFileKey + BitVec.ofNat 16 (keysTaken calls) := by
  induction calls generalizing s with
  | nil => exact (BitVec.add_zero _).symm
  | cons call calls ih =>
    have hcount : keysTaken (call :: calls) = call.takesKey.toNat + keysTaken calls := by
      rw [keysTaken, List.countP_cons, Nat.add_comm]
      cases call.takesKey <;> rfl
    rw [run, ih, exec_nextFileKey, hcount, BitVec.ofNat_add, BitVec.add_assoc]

/-- The counter is in the upper half of its range for every other 32768 keys. -/
private theorem fileFirst_le_iff (n : Nat) : fwCfgFileFirst ≤ fwCfgFileFirst + BitVec.ofNat 16 n ↔ n % 2 ^ 16 < 2 ^ 15 := by
  rw [BitVec.le_def, BitVec.toNat_add, BitVec.toNat_ofNat, show fwCfgFileFirst.toNat = 2 ^ 15 from rfl]
  omega

/-- What registering a file does: it is refused and leaves the items alone, or it adds one with the counter's key. -/
theorem registerFile_outcome (k : fw.Table used) (name : List Byte) (data : Option (List Byte)) (size : U32) :
    (¬ (RegistryCall.registerFile name data size).RegistersFile (h, fw) ∧
      ∃ e h' next, relmFwCfgRegisterFile h fw name data size = (.error e, h', { fw with nextFileKey := next })) ∨
    ((RegistryCall.registerFile name data size).RegistersFile (h, fw) ∧
      ∃ h', relmFwCfgRegisterFile h fw name data size = (.ok fw.nextFileKey, h',
        { fw with nextFileKey := fw.nextFileKey + 1 }.add fw.nextFileKey name data size)) := by
  unfold relmFwCfgRegisterFile
  by_cases hempty : cString name = []
  · left
    rw [if_pos hempty]
    exact ⟨fun hr => (of_decide_eq_true hr.1).1 hempty, .einval, h, fw.nextFileKey, rfl⟩
  rw [if_neg hempty]
  by_cases hlong : (cString name).length > fwCfgMaxNameLen
  · left
    rw [if_pos hlong]
    exact ⟨fun hr => absurd (of_decide_eq_true hr.1).2 (Nat.not_le.mpr hlong), .einval, h, fw.nextFileKey, rfl⟩
  rw [if_neg hlong]
  have hname : (RegistryCall.registerFile name data size).takesKey = true := decide_eq_true ⟨hempty, Nat.not_lt.mp hlong⟩
  rcases register_outcome (h := h) (k.withNextFileKey (fw.nextFileKey + 1)) fw.nextFileKey name data size with
    ⟨hno, e, h', heq, -⟩ | ⟨hyes, h', heq⟩
  · left
    refine ⟨fun hr => hno ⟨hr.2.initialized, hr.2.small, hr.2.room, hr.2.fresh, hr.2.buffer⟩, e, h',
      fw.nextFileKey + 1, ?_⟩
    dsimp only
    rw [heq]
    rfl
  · right
    refine ⟨⟨hname, hyes.initialized, hyes.small, hyes.room, hyes.fresh, hyes.buffer⟩, h', ?_⟩
    dsimp only
    rw [heq]
    rfl

theorem FwCfgDevice.Table.mem_files (k : fw.Table used) {item : FwCfgItem} :
    item ∈ fw.files ↔ item ∈ used ∧ fwCfgFileFirst ≤ item.key := by
  rw [FwCfgDevice.files, k.take_eq, List.mem_filter]
  refine and_congr_right fun hmem => ?_
  rw [k.inUse item hmem, Bool.true_and, decide_eq_true_eq]

section Trace

variable {tr : List (RegistryCall × RegistryAnswer)} {call : RegistryCall} {answer : RegistryAnswer} {key : BitVec 16}

private theorem registeredItems_ok (hret : answer.ret = .ok key) :
    registeredItems (tr ++ [(call, answer)]) = registeredItems tr ++ [call.item key] := by
  rw [registeredItems, List.filterMap_append]
  simp only [List.filterMap_cons, List.filterMap_nil, hret, Except.toOption, Option.map_some]
  rfl

private theorem registeredItems_error {e : Errno} (hret : answer.ret = .error e) :
    registeredItems (tr ++ [(call, answer)]) = registeredItems tr := by
  rw [registeredItems, List.filterMap_append]
  simp only [List.filterMap_cons, List.filterMap_nil, hret, Except.toOption, Option.map_none, List.append_nil]
  rfl

theorem item_mem_registeredItems (hmem : (call, answer) ∈ tr) (hret : answer.ret = .ok key) :
    call.item key ∈ registeredItems tr := by
  refine List.mem_filterMap.mpr ⟨(call, answer), hmem, ?_⟩
  rw [hret]
  rfl

end Trace

/-- A call either fails and leaves the table alone, or succeeds and its item is the last. -/
theorem RegistryCall.exec_outcome (k : fw.Table used) (call : RegistryCall) :
    (¬ call.RegistersFile (h, fw) ∧ (call.exec (h, fw)).2.2.Table used ∧
      (call.exec (h, fw)).1.after = (call.exec (h, fw)).1.before ∧ ∃ e, (call.exec (h, fw)).1.ret = .error e) ∨
    ∃ key, (call.exec (h, fw)).1.ret = .ok key ∧ (call.exec (h, fw)).2.2.Table (used ++ [call.item key]) ∧
      ∀ name data size, call = .registerFile name data size → call.RegistersFile (h, fw) ∧ key = fw.nextFileKey := by
  cases call with
  | register key name data size =>
    rcases register_outcome (h := h) k key name data size with ⟨-, e, h', heq, -⟩ | ⟨hyes, h', heq⟩
    · left
      simp only [RegistryCall.exec, heq]
      exact ⟨id, k, trivial, e, rfl⟩
    · right
      simp only [RegistryCall.exec, heq]
      refine ⟨key, rfl, k.add hyes.room hyes.fresh, ?_⟩
      intro name' data' size' hcall
      cases hcall
  | registerFile name data size =>
    rcases registerFile_outcome (h := h) k name data size with ⟨hno, e, h', next, heq⟩ | ⟨hyes, h', heq⟩
    · left
      refine ⟨hno, ?_⟩
      simp only [RegistryCall.exec, heq]
      exact ⟨k.withNextFileKey next, trivial, e, rfl⟩
    · right
      refine ⟨fw.nextFileKey, ?_, ?_, ?_⟩
      · simp only [RegistryCall.exec, heq]
      · simp only [RegistryCall.exec, heq]
        exact (k.withNextFileKey _).add hyes.2.room hyes.2.fresh
      · intro name' data' size' hcall
        cases hcall
        exact ⟨hyes, rfl⟩

/-- What every step keeps: the items are those of the trace, and calls that fail change none. -/
structure RegistryInv (tr : List (RegistryCall × RegistryAnswer)) (s : Host × FwCfgDevice) : Prop where
  table : s.2.Table (registeredItems tr)
  unchanged : ∀ x ∈ tr, (∃ e, x.2.ret = .error e) → x.2.after = x.2.before
  names : ∀ name data size answer key, (RegistryCall.registerFile name data size, answer) ∈ tr → answer.ret = .ok key →
    cString name ≠ [] ∧ (cString name).length ≤ fwCfgMaxNameLen

/-- Every registered file has a key of the upper half. -/
def FilesHigh (tr : List (RegistryCall × RegistryAnswer)) : Prop :=
  ∀ name data size answer key, (RegistryCall.registerFile name data size, answer) ∈ tr → answer.ret = .ok key →
    fwCfgFileFirst ≤ key

section Steps

variable {tr : List (RegistryCall × RegistryAnswer)} {s : Host × FwCfgDevice}

theorem RegistryInv.init (h : Host) : RegistryInv [] (h, relmFwCfgInit) where
  table := .init
  unchanged := by simp
  names := by simp

theorem RegistryInv.step (i : RegistryInv tr s) (call : RegistryCall) :
    RegistryInv (tr ++ [(call, (call.exec s).1)]) (call.exec s).2 := by
  obtain ⟨h, fw⟩ := s
  rcases RegistryCall.exec_outcome (h := h) i.table call with ⟨-, htable, hsame, e, hret⟩ | ⟨key, hret, htable, hfile⟩
  · refine ⟨by rwa [registeredItems_error hret], ?_, ?_⟩
    · intro x hx herr
      rcases List.mem_append.mp hx with hx | hx
      · exact i.unchanged x hx herr
      · obtain rfl := List.mem_singleton.mp hx
        exact hsame
    · intro name data size answer key hmem hkey
      rcases List.mem_append.mp hmem with hmem | hmem
      · exact i.names name data size answer key hmem hkey
      · obtain rfl := congrArg Prod.snd (List.mem_singleton.mp hmem)
        rw [hret] at hkey
        cases hkey
  · refine ⟨by rwa [registeredItems_ok hret], ?_, ?_⟩
    · intro x hx herr
      rcases List.mem_append.mp hx with hx | hx
      · exact i.unchanged x hx herr
      · obtain rfl := List.mem_singleton.mp hx
        obtain ⟨e, he⟩ := herr
        rw [hret] at he
        cases he
    · intro name data size answer key' hmem hkey
      rcases List.mem_append.mp hmem with hmem | hmem
      · exact i.names name data size answer key' hmem hkey
      · obtain rfl := congrArg Prod.fst (List.mem_singleton.mp hmem)
        exact of_decide_eq_true (hfile name data size rfl).1.1

/-- The key of the last call of a trace is high if the counter is. -/
private theorem FilesHigh.step (hf : FilesHigh tr) (i : RegistryInv tr s) (call : RegistryCall)
    (hok : call.RegistersFile s → fwCfgFileFirst ≤ s.2.nextFileKey) : FilesHigh (tr ++ [(call, (call.exec s).1)]) := by
  intro name data size answer key hmem hkey
  rcases List.mem_append.mp hmem with hmem | hmem
  · exact hf name data size answer key hmem hkey
  obtain ⟨h, fw⟩ := s
  have hlast := List.mem_singleton.mp hmem
  obtain rfl : RegistryCall.registerFile name data size = call := congrArg Prod.fst hlast
  obtain rfl := congrArg Prod.snd hlast
  rcases RegistryCall.exec_outcome (h := h) i.table (.registerFile name data size) with
    ⟨-, -, -, e, hret⟩ | ⟨key', hret, -, hfile⟩
  · rw [hret] at hkey
    cases hkey
  · rw [hret] at hkey
    cases hkey
    obtain ⟨hreg, rfl⟩ := hfile name data size rfl
    exact hok hreg

/-- A file that is registered gets the key the counter stands at. -/
private theorem RegistryInv.registers_ret (i : RegistryInv tr s) {call : RegistryCall} (hreg : call.RegistersFile s) :
    (call.exec s).1.ret = .ok s.2.nextFileKey := by
  obtain ⟨h, fw⟩ := s
  cases call with
  | register key name data size => exact hreg.elim
  | registerFile name data size =>
    rcases RegistryCall.exec_outcome (h := h) i.table (.registerFile name data size) with ⟨hnot, -⟩ | ⟨key, hret, -, hfile⟩
    · exact absurd hreg hnot
    · rw [hret, (hfile name data size rfl).2]

theorem RegistryInv.sound (i : RegistryInv tr s) (hf : FilesHigh tr) : RegistrySound tr s := by
  refine ⟨?_, ?_, ?_, i.unchanged, ?_⟩
  · rw [i.table.filter_inUse]
    exact i.table.keys
  · rw [i.table.filter_inUse]
    exact i.table.count
  · rw [i.table.count]
    exact i.table.room
  · intro name data size answer key hmem hret
    have hkey := hf name data size answer key hmem hret
    have hitem : newItem key name data size ∈ registeredItems tr := item_mem_registeredItems hmem hret
    exact ⟨hkey, _, i.table.mem_files.mpr ⟨hitem, hkey⟩, rfl, if_pos (i.names name data size answer key hmem hret).1⟩

/-- A file that gets a key of the lower half is no file. -/
private theorem RegistryInv.fails (i : RegistryInv tr s) (call : RegistryCall)
    (hno : ¬ (call.RegistersFile s → fwCfgFileFirst ≤ s.2.nextFileKey)) :
    ¬ RegistrySound (tr ++ [(call, (call.exec s).1)]) (call.exec s).2 := by
  rw [Classical.not_imp] at hno
  intro hsound
  cases call with
  | register key name data size => exact hno.1
  | registerFile name data size =>
    exact hno.2 (hsound.files _ _ _ _ _ (List.mem_append_right _ (List.mem_singleton_self _)) (i.registers_ret hno.1)).1

end Steps

/-- The table after a run holds what the run has registered. -/
theorem run_registry (h : Host) (calls : List RegistryCall) :
    RegistryInv (run RegistryCall.exec (h, relmFwCfgInit) calls).1 (run RegistryCall.exec (h, relmFwCfgInit) calls).2 := by
  have hall : Admitted RegistryCall.exec (fun _ _ => True) (h, relmFwCfgInit) calls :=
    admitted_of_forall (fun _ _ => trivial) _
  exact run_invariant (fun _ _ call i _ => i.step call) (.init h) hall

private theorem admitted_iff_unwrapped (h : Host) (calls : List RegistryCall) :
    Admitted RegistryCall.exec (fun s call => call.RegistersFile s → fwCfgFileFirst ≤ s.2.nextFileKey) (h, relmFwCfgInit)
      calls ↔ Unwrapped h calls := by
  rw [admitted_iff_split]
  refine forall_congr' fun before => forall_congr' fun call => forall_congr' fun after => imp_congr_right fun _ => ?_
  refine imp_congr_right fun _ => ?_
  rw [run_nextFileKey]
  exact fileFirst_le_iff _

/-- The keys of the files of a run are high exactly if none is registered after the counter has wrapped. -/
theorem filesHigh_iff_unwrapped (h : Host) (calls : List RegistryCall) :
    FilesHigh (run RegistryCall.exec (h, relmFwCfgInit) calls).1 ↔ Unwrapped h calls := by
  constructor
  · rintro hf before call after rfl hreg
    have hret := (run_registry h before).registers_ret hreg
    rw [run_nextFileKey] at hret
    cases call with
    | register key name data size => exact hreg.elim
    | registerFile name data size =>
      refine (fileFirst_le_iff _).mp (hf name data size _ _ ?_ hret)
      rw [run_append]
      exact List.mem_append_right _ List.mem_cons_self
  · intro hu
    have hstep := run_invariant (P := fun tr s => RegistryInv tr s ∧ FilesHigh tr)
      (fun _ _ call i hok => ⟨i.1.step call, i.2.step i.1 call hok⟩) ⟨.init h, by intro _ _ _ _ _ hmem; cases hmem⟩
      ((admitted_iff_unwrapped h calls).mpr hu)
    exact hstep.2

private theorem throughout_iff (h : Host) (calls : List RegistryCall) :
    Throughout RegistryCall.exec RegistrySound [] (h, relmFwCfgInit) calls ↔
      Admitted RegistryCall.exec (fun s call => call.RegistersFile s → fwCfgFileFirst ≤ s.2.nextFileKey)
        (h, relmFwCfgInit) calls := by
  refine throughout_iff_admitted (fun tr s (i : RegistryInv tr s ∧ FilesHigh tr) => i.1.sound i.2)
    (fun _ _ call i hok => ⟨i.1.step call, i.2.step i.1 call hok⟩) (fun _ _ call i hno => i.1.fails call hno)
    ⟨.init h, ?_⟩ calls
  intro name data size answer key hmem
  cases hmem

/-- Over every run of registrations the keys are distinct, the count is right and failures change nothing; and the files
have keys of their own exactly if none is registered after the counter has wrapped. -/
theorem fw_cfg_keys_sound_iff (h : Host) (calls : List RegistryCall) :
    Throughout RegistryCall.exec RegistrySound [] (h, relmFwCfgInit) calls ↔ Unwrapped h calls := by
  rw [throughout_iff, admitted_iff_unwrapped]

/-- A file that is too large: it is refused, and uses up a key. -/
private def largeFile : RegistryCall := .registerFile [0x61#8] none 4097#32

/-- An empty file. -/
private def emptyFile : RegistryCall := .registerFile [0x61#8] none 0#32

private theorem run_largeFiles (h : Host) (next : BitVec 16) (n : Nat) :
    (run RegistryCall.exec (h, { relmFwCfgInit with nextFileKey := next }) (List.replicate n largeFile)).2 =
      (h, { relmFwCfgInit with nextFileKey := next + BitVec.ofNat 16 n }) := by
  induction n generalizing next with
  | zero => exact congrArg (fun k => (h, { relmFwCfgInit with nextFileKey := k })) (BitVec.add_zero next).symm
  | succ n ih =>
    rw [List.replicate_succ, run]
    refine (ih (next + 1)).trans ?_
    rw [BitVec.add_assoc, Nat.add_comm n 1, BitVec.ofNat_add]
    rfl

/-- After 32768 refused files the next one is registered under the key of the signature. -/
theorem fw_cfg_file_key_wraps :
    (emptyFile.exec (run RegistryCall.exec (Host.idle [] [], relmFwCfgInit) (List.replicate 32768 largeFile)).2).1.ret =
      .ok fwCfgSignature ∧
    ¬ Throughout RegistryCall.exec RegistrySound [] (Host.idle [] [], relmFwCfgInit)
      (List.replicate 32768 largeFile ++ [emptyFile]) := by
  have hstate := run_largeFiles (Host.idle [] []) fwCfgFileFirst 32768
  change (run RegistryCall.exec (Host.idle [] [], relmFwCfgInit) (List.replicate 32768 largeFile)).2 = _ at hstate
  rw [hstate]
  refine ⟨rfl, ?_⟩
  rw [throughout_iff, admitted_iff_unwrapped]
  intro hu
  have hlt := hu (List.replicate 32768 largeFile) emptyFile [] rfl (by
    rw [hstate]
    exact ⟨rfl, rfl, by decide, by decide, rfl, fun hd => absurd hd.1 (by decide)⟩)
  have htaken : keysTaken (List.replicate 32768 largeFile) = 32768 := by
    rw [keysTaken, List.countP_replicate]
    rfl
  rw [htaken] at hlt
  exact absurd hlt (by decide)

end Runs

end Relm.Firmware
