import Relm.Firmware.FwCfgStream
import Relm.Lib.Records

/-! The directory of named files: what firmware decodes from it, and what building it reads. -/
namespace Relm.Firmware
open Lib.Run Lib.Records Lib.Word

/-- What firmware learns of a file. -/
structure DirEntry where
  size : U32
  key : BitVec 16
  name : List Byte
  deriving DecidableEq

/-- The big-endian value of bytes. -/
def ofBeBytes (l : List Byte) : U64 := ofBytes l.reverse

/-- A `struct fw_cfg_file`; its name is to end within the field. -/
def decodeFile (record : List Byte) : Option DirEntry :=
  if (cString (record.drop 8)).length < 56 then
    some ⟨(ofBeBytes (record.take 4)).setWidth 32, (ofBeBytes ((record.drop 4).take 2)).setWidth 16, cString (record.drop 8)⟩
  else none

/-- A `struct fw_cfg_file_dir`. -/
def decodeFileDir (bytes : List Byte) : List (Option DirEntry) :=
  (records 64 (ofBeBytes (bytes.take 4)).toNat (bytes.drop 4)).map decodeFile

/-- How many bytes of its source `strscpy` with a limit looks at: up to the zero, or as many as the limit allows. -/
def strscpyReads (limit : Nat) (s : List Byte) : Nat := min limit ((cString s).length + 1)

/-- The files that the successful calls of a trace have registered, in order. -/
def registeredFiles (tr : List (RegistryCall × RegistryAnswer)) : List DirEntry :=
  tr.filterMap fun x =>
    match x.1 with
    | .register .. => none
    | .registerFile name _ size => x.2.ret.toOption.map fun key => ⟨size, key, cString name⟩

/-- The directory lists the files, and no name is read past its array to build it. -/
structure FileDirRoundTrips (tr : List (RegistryCall × RegistryAnswer)) (before after : FwCfgDevice) : Prop where
  entries : decodeFileDir (after.content fwCfgFileDir) = (registeredFiles tr).map some
  inside : ∀ item ∈ before.files, strscpyReads 56 item.name ≤ fwCfgMaxNameLen

/-- The names leave room for their terminator, no file has come after the counter has wrapped, and nothing else has a
key of a file. -/
structure PlainFiles (h : Host) (calls : List RegistryCall) : Prop where
  names : ∀ file ∈ registeredFiles (run RegistryCall.exec (h, relmFwCfgInit) calls).1, file.name.length < fwCfgMaxNameLen
  unwrapped : Unwrapped h calls
  wellKnown : ∀ key name data size answer,
    (RegistryCall.register key name data size, answer) ∈ (run RegistryCall.exec (h, relmFwCfgInit) calls).1 →
      answer.ret = .ok key → key < fwCfgFileFirst

section Strings

variable {s : List Byte} {n : Nat}

private theorem cString_eq (l : List Byte) (h : ∀ b ∈ l, b ≠ 0) (k : Nat) : cString (l ++ List.replicate k 0) = l := by
  unfold cString
  rw [List.takeWhile_append_of_pos (by simpa using h)]
  cases k with
  | zero => simp
  | succ k => simp [List.replicate_succ]

private theorem mem_cString (b : Byte) (h : b ∈ cString s) : b ≠ 0 := by
  have ht := List.all_eq_true.mp List.all_takeWhile b h
  simpa using ht

private theorem cString_length_le : (cString s).length ≤ s.length := (List.takeWhile_sublist _).length_le

/-- The array that `strncpy` fills. -/
private theorem strncpy_length : (strncpy n s).length = n := by
  rw [strncpy, List.length_append, List.length_take, List.length_replicate]
  omega

private theorem cString_strncpy (h : (cString s).length ≤ n) : cString (strncpy n s) = cString s := by
  rw [strncpy, List.take_of_length_le h]
  exact cString_eq _ mem_cString _

/-- `strscpy` loses nothing of a name array: the field is longer by the terminator. -/
private theorem cString_strscpy (h : s.length ≤ 55) : cString (strscpy 56 s) = cString s := by
  have hlen : (cString s).length ≤ 55 := le_trans cString_length_le h
  rw [strscpy, show 56 - 1 = 55 from rfl, strncpy, List.take_of_length_le hlen, List.append_assoc,
    ← List.replicate_succ', cString_eq _ mem_cString]

end Strings

section Records

private theorem ofBeBytes_beBytes {w : U64} {k : Nat} (hw : w.toNat < 2 ^ (8 * k)) : ofBeBytes (beBytes k w) = w := by
  rw [ofBeBytes, beBytes, List.reverse_reverse]
  exact ofBytes_range_getByte hw

private theorem record_length (item : FwCfgItem) : (fileRecord item).length = 64 := by
  rw [fileRecord, strscpy]
  simp only [List.length_append, beBytes_length, strncpy_length, List.length_singleton]

/-- A record decodes to what the item holds. -/
private theorem decodeFile_record {item : FwCfgItem} (h : item.name.length ≤ 55) :
    decodeFile (fileRecord item) = some ⟨item.size, item.key, cString item.name⟩ := by
  have hsize : (item.size.setWidth 64).toNat < 2 ^ (8 * 4) := by
    rw [BitVec.toNat_setWidth_of_le (by decide)]
    exact item.size.isLt
  have hkey : (item.key.setWidth 64).toNat < 2 ^ (8 * 2) := by
    rw [BitVec.toNat_setWidth_of_le (by decide)]
    exact item.key.isLt
  have hname : (fileRecord item).drop 8 = strscpy 56 item.name := by
    rw [fileRecord]
    exact List.drop_left' (by simp only [List.length_append, beBytes_length])
  have hfirst : (fileRecord item).take 4 = beBytes 4 (item.size.setWidth 64) := by
    rw [fileRecord, List.append_assoc, List.append_assoc]
    exact List.take_left' (beBytes_length 4 _)
  have hsecond : ((fileRecord item).drop 4).take 2 = beBytes 2 (item.key.setWidth 64) := by
    rw [fileRecord, List.append_assoc, List.append_assoc, List.drop_left' (beBytes_length 4 _)]
    exact List.take_left' (beBytes_length 2 _)
  have hlen : (cString item.name).length < 56 := Nat.lt_succ_of_le (le_trans cString_length_le h)
  rw [decodeFile, hname, cString_strscpy h, if_pos hlen, hfirst, hsecond, ofBeBytes_beBytes hsize, ofBeBytes_beBytes hkey,
    BitVec.setWidth_setWidth_of_le _ (by decide), BitVec.setWidth_setWidth_of_le _ (by decide), BitVec.setWidth_eq,
    BitVec.setWidth_eq]

/-- The directory of a list of items decodes to what they hold. -/
private theorem decodeFileDir_bytes {files : List FwCfgItem} (hn : files.length < 2 ^ 32)
    (hnames : ∀ item ∈ files, item.name.length ≤ 55) :
    decodeFileDir (beBytes 4 (BitVec.ofNat 64 files.length) ++ files.flatMap fileRecord) =
      files.map fun item => some ⟨item.size, item.key, cString item.name⟩ := by
  have hnat : (BitVec.ofNat 64 files.length).toNat = files.length := by
    rw [BitVec.toNat_ofNat]
    exact Nat.mod_eq_of_lt (by omega)
  have hcount : (BitVec.ofNat 64 files.length).toNat < 2 ^ (8 * 4) := by
    rw [hnat]
    exact hn
  have hrecords := records_flatMap record_length files []
  rw [List.append_nil] at hrecords
  rw [decodeFileDir, List.take_left' (beBytes_length 4 _), List.drop_left' (beBytes_length 4 _), ofBeBytes_beBytes hcount,
    hnat, hrecords, List.map_map]
  exact List.map_congr_left fun item hmem => decodeFile_record (hnames item hmem)

end Records

section Directory

variable {h h' : Host} {fw fw' : FwCfgDevice} {used : List FwCfgItem} {tr : List (RegistryCall × RegistryAnswer)}

private theorem newItem_name_length (key : BitVec 16) (name : List Byte) (data : Option (List Byte)) (size : U32) :
    (newItem key name data size).name.length = fwCfgMaxNameLen := by
  unfold newItem FwCfgItem.fill
  dsimp only
  split
  · exact strncpy_length
  · rw [List.length_set]
    exact List.length_replicate

private theorem item_name_length (call : RegistryCall) (key : BitVec 16) :
    (call.item key).name.length = fwCfgMaxNameLen := by
  cases call with
  | register _ name data size => exact newItem_name_length ..
  | registerFile name data size => exact newItem_name_length ..

private theorem registeredItems_name_length {item : FwCfgItem} (hmem : item ∈ registeredItems tr) :
    item.name.length = fwCfgMaxNameLen := by
  obtain ⟨x, -, hitem⟩ := List.mem_filterMap.mp hmem
  cases hret : x.2.ret with
  | error e =>
    rw [hret] at hitem
    cases hitem
  | ok key =>
    rw [hret] at hitem
    obtain rfl := Option.some.inj hitem
    exact item_name_length x.1 key

private theorem files_eq (k : fw.Table used) : fw.files = used.filter fun item => decide (fwCfgFileFirst ≤ item.key) := by
  rw [FwCfgDevice.files, k.take_eq]
  refine List.filter_congr fun item hmem => ?_
  rw [k.inUse item hmem, Bool.true_and]

/-- A directory that is registered holds the items with the key of a file. -/
private theorem buildFileDir_content (k : fw.Table used) (hnames : ∀ item ∈ used, item.name.length ≤ 55)
    (hnew : fw.hasKey fwCfgFileDir = false) (hbuild : relmFwCfgBuildFileDir h fw = (.ok (), h', fw')) :
    decodeFileDir (fw'.content fwCfgFileDir) = fw.files.map fun item => some ⟨item.size, item.key, cString item.name⟩ := by
  have hroom : fw.files.length ≤ 32 := by
    rw [files_eq k]
    exact le_trans (List.length_filter_le ..) k.room
  have hfiles : ∀ item ∈ fw.files, item.name.length ≤ 55 := fun item hmem => hnames item (k.mem_files.mp hmem).1
  have hsize : (BitVec.ofNat 32 (4 + fw.files.length * 64)).toNat = 4 + fw.files.length * 64 := by
    rw [BitVec.toNat_ofNat]
    exact Nat.mod_eq_of_lt (by omega)
  have hlen : (beBytes 4 (BitVec.ofNat 64 fw.files.length) ++ fw.files.flatMap fileRecord).length =
      4 + fw.files.length * 64 := by
    rw [List.length_append, beBytes_length, flatMap_length _ record_length]
  have hdecode := decodeFileDir_bytes (by omega) hfiles
  unfold relmFwCfgBuildFileDir at hbuild
  dsimp only at hbuild
  generalize beBytes 4 (BitVec.ofNat 64 fw.files.length) ++ fw.files.flatMap fileRecord = bytes at hbuild hlen hdecode
  generalize BitVec.ofNat 32 (4 + fw.files.length * 64) = size at hbuild hsize
  cases hdir : h.kzalloc with
  | mk o h1 =>
    rw [hdir] at hbuild
    cases o with
    | none => cases hbuild
    | some dir =>
      dsimp only at hbuild
      rcases register_outcome (h := h1) k fwCfgFileDir [] (some bytes) size with ⟨-, e, h2, heq, hexist⟩ | ⟨hyes, h2, heq⟩
      · -- a refusal for another reason than the key is passed on
        rw [heq] at hbuild
        by_cases he : e = .eexist
        · rw [hexist he] at hnew
          cases hnew
        · dsimp only at hbuild
          rw [if_pos he] at hbuild
          cases hbuild
      · rw [heq] at hbuild
        obtain rfl : fw.add fwCfgFileDir [] (some bytes) size = fw' := congrArg (fun r => r.2.2) hbuild
        have htable : (fw.add fwCfgFileDir [] (some bytes) size).Table (used ++ [newItem fwCfgFileDir [] (some bytes) size]) :=
          k.add hyes.room hyes.fresh
        have hcontent := content_of_mem htable (List.mem_append_right used (List.mem_singleton_self _))
        rw [bytes_newItem, Option.getD_some, List.take_of_length_le (by omega)] at hcontent
        rw [← hdecode]
        exact congrArg decodeFileDir hcontent

/-- The files of a trace among its items: they have the keys of files, and no item registered by key has one. -/
private theorem files_of_trace (hhigh : FilesHigh tr) (hnames : ∀ name data size answer key,
      (RegistryCall.registerFile name data size, answer) ∈ tr → answer.ret = .ok key →
        cString name ≠ [] ∧ (cString name).length ≤ fwCfgMaxNameLen)
    (hdirect : ∀ key name data size answer, (RegistryCall.register key name data size, answer) ∈ tr → ∀ key',
      answer.ret = .ok key' → key' < fwCfgFileFirst) :
    (((registeredItems tr).filter fun item => decide (fwCfgFileFirst ≤ item.key)).map fun item =>
      (⟨item.size, item.key, cString item.name⟩ : DirEntry)) = registeredFiles tr := by
  induction tr with
  | nil => rfl
  | cons x tr ih =>
    have hrest := ih (fun name data size answer key hmem => hhigh name data size answer key (List.mem_cons_of_mem _ hmem))
      (fun name data size answer key hmem => hnames name data size answer key (List.mem_cons_of_mem _ hmem))
      (fun key name data size answer hmem => hdirect key name data size answer (List.mem_cons_of_mem _ hmem))
    obtain ⟨call, answer⟩ := x
    unfold registeredItems registeredFiles at hrest ⊢
    cases hret : answer.ret with
    | error e =>
      have hopt : answer.ret.toOption = none := by rw [hret]; rfl
      cases call <;> simp only [List.filterMap_cons, hopt, Option.map_none, hrest]
    | ok key =>
      have hopt : answer.ret.toOption = some key := by rw [hret]; rfl
      cases call with
      | register key' name data size =>
        have hlow := hdirect key' name data size answer List.mem_cons_self key hret
        have hkey : decide (fwCfgFileFirst ≤ ((RegistryCall.register key' name data size).item key).key) = false :=
          decide_eq_false (BitVec.not_le.mpr hlow)
        simp only [List.filterMap_cons, hopt, Option.map_some, List.filter_cons, hkey, Bool.false_eq_true, if_false, hrest]
      | registerFile name data size =>
        have hkey : decide (fwCfgFileFirst ≤ ((RegistryCall.registerFile name data size).item key).key) = true :=
          decide_eq_true (hhigh name data size answer key List.mem_cons_self hret)
        obtain ⟨hne, hle⟩ := hnames name data size answer key List.mem_cons_self hret
        have hname : cString ((RegistryCall.registerFile name data size).item key).name = cString name := by
          change cString (if cString name ≠ [] then strncpy fwCfgMaxNameLen name else _) = _
          rw [if_pos hne, cString_strncpy hle]
        simp only [List.filterMap_cons, hopt, Option.map_some, List.filter_cons, hkey, if_true, List.map_cons, hrest, hname]
        rfl

private theorem mem_registeredFiles {file : DirEntry} : file ∈ registeredFiles tr ↔ ∃ name data size answer key,
    (RegistryCall.registerFile name data size, answer) ∈ tr ∧ answer.ret = .ok key ∧ file = ⟨size, key, cString name⟩ := by
  rw [registeredFiles, List.mem_filterMap]
  constructor
  · rintro ⟨⟨call, answer⟩, hmem, hfile⟩
    cases call with
    | register key name data size => cases hfile
    | registerFile name data size =>
      cases hret : answer.ret with
      | error e =>
        simp only [hret] at hfile
        cases hfile
      | ok key =>
        simp only [hret] at hfile
        exact ⟨name, data, size, answer, key, hmem, hret, (Option.some.inj hfile).symm⟩
  · rintro ⟨name, data, size, answer, key, hmem, hret, rfl⟩
    refine ⟨_, hmem, ?_⟩
    simp only [hret]
    rfl

/-- An item registered by key that has the key of a file. -/
private def directFile : RegistryCall × RegistryAnswer → Bool
  | (.register _ _ _ _, answer) => answer.ret.toOption.any fun key => decide (fwCfgFileFirst ≤ key)
  | (.registerFile _ _ _, _) => false

/-- The items registered by key come on top of the files. -/
private theorem files_length (hhigh : FilesHigh tr) :
    ((registeredItems tr).filter fun item => decide (fwCfgFileFirst ≤ item.key)).length =
      (registeredFiles tr).length + tr.countP directFile := by
  induction tr with
  | nil => rfl
  | cons x tr ih =>
    have hrest := ih fun name data size answer key hmem => hhigh name data size answer key (List.mem_cons_of_mem _ hmem)
    obtain ⟨call, answer⟩ := x
    unfold registeredItems registeredFiles at hrest ⊢
    cases hret : answer.ret with
    | error e =>
      have hopt : answer.ret.toOption = none := by rw [hret]; rfl
      cases call <;>
        simp only [List.filterMap_cons, List.countP_cons, directFile, hopt, Option.map_none, Option.any_none,
          Bool.false_eq_true, if_false, hrest, Nat.add_zero]
    | ok key =>
      have hopt : answer.ret.toOption = some key := by rw [hret]; rfl
      cases call with
      | register key₀ name data size =>
        have hitem : ((RegistryCall.register key₀ name data size).item key).key = key := rfl
        simp only [List.filterMap_cons, List.countP_cons, directFile, hopt, Option.map_some, Option.any_some, List.filter_cons,
          hitem]
        cases decide (fwCfgFileFirst ≤ key)
        · exact hrest
        · rw [if_pos rfl, if_pos rfl, List.length_cons, hrest, Nat.add_assoc]
      | registerFile name data size =>
        have hitem : decide (fwCfgFileFirst ≤ ((RegistryCall.registerFile name data size).item key).key) = true :=
          decide_eq_true (hhigh name data size answer key List.mem_cons_self hret)
        simp only [List.filterMap_cons, List.countP_cons, directFile, hopt, Option.map_some, List.filter_cons, hitem, if_true,
          List.length_cons, hrest, Bool.false_eq_true, if_false]
        omega

private theorem register_ret {s : Host × FwCfgDevice} {calls : List RegistryCall} {key key' : BitVec 16}
    {name : List Byte} {data : Option (List Byte)} {size : U32} {answer : RegistryAnswer}
    (hmem : (RegistryCall.register key name data size, answer) ∈ (run RegistryCall.exec s calls).1)
    (hret : answer.ret = .ok key') : key' = key := by
  induction calls generalizing s with
  | nil => cases hmem
  | cons call calls ih =>
    rcases List.mem_cons.mp hmem with heq | hmem
    · obtain rfl : RegistryCall.register key name data size = call := congrArg Prod.fst heq
      obtain rfl := congrArg Prod.snd heq
      simp only [RegistryCall.exec] at hret
      cases hr : (relmFwCfgRegister s.1 s.2 key name data size).1 with
      | error e =>
        rw [hr] at hret
        cases hret
      | ok _ =>
        rw [hr] at hret
        cases hret
        rfl
    · exact ih hmem

/-- How much of a name array is read: one byte more than the name has, and past the array if it is full. -/
private theorem reads_newItem {key : BitVec 16} {name : List Byte} {data : Option (List Byte)} {size : U32}
    (hne : cString name ≠ []) (hle : (cString name).length ≤ fwCfgMaxNameLen) :
    strscpyReads 56 (newItem key name data size).name ≤ fwCfgMaxNameLen ↔ (cString name).length < fwCfgMaxNameLen := by
  have hname : (newItem key name data size).name = strncpy fwCfgMaxNameLen name := if_pos hne
  rw [hname, strscpyReads, cString_strncpy hle, show fwCfgMaxNameLen = 55 from rfl]
  omega

/-- Short names of files are read within their arrays. -/
private theorem name_inside (hnames : ∀ name data size answer key,
      (RegistryCall.registerFile name data size, answer) ∈ tr → answer.ret = .ok key →
        cString name ≠ [] ∧ (cString name).length ≤ fwCfgMaxNameLen)
    (hdirect : ∀ key name data size answer, (RegistryCall.register key name data size, answer) ∈ tr → ∀ key',
      answer.ret = .ok key' → key' < fwCfgFileFirst)
    (hshort : ∀ file ∈ registeredFiles tr, file.name.length < fwCfgMaxNameLen) {item : FwCfgItem}
    (hmem : item ∈ registeredItems tr) (hkey : fwCfgFileFirst ≤ item.key) : strscpyReads 56 item.name ≤ fwCfgMaxNameLen := by
  obtain ⟨⟨call, answer⟩, hx, heq⟩ := List.mem_filterMap.mp hmem
  cases hret : answer.ret with
  | error e =>
    simp only [hret] at heq
    cases heq
  | ok key =>
    simp only [hret] at heq
    obtain rfl := Option.some.inj heq
    cases call with
    | register key₀ name data size => exact absurd (hdirect key₀ name data size answer hx key hret) (BitVec.not_lt.mpr hkey)
    | registerFile name data size =>
      obtain ⟨hne, hle⟩ := hnames name data size answer key hx hret
      exact (reads_newItem hne hle).mpr
        (hshort _ (mem_registeredFiles.mpr ⟨name, data, size, answer, key, hx, hret, rfl⟩))

end Directory

section Claim

variable {h h' : Host} {fw' : FwCfgDevice}

/-- A directory that is registered lists exactly the registered files, and building it stays within their name arrays,
exactly if the files are plain ones. -/
theorem file_dir_round_trips_iff (calls : List RegistryCall)
    (hnew : (run RegistryCall.exec (h, relmFwCfgInit) calls).2.2.hasKey fwCfgFileDir = false)
    (hbuild : relmFwCfgBuildFileDir (run RegistryCall.exec (h, relmFwCfgInit) calls).2.1
      (run RegistryCall.exec (h, relmFwCfgInit) calls).2.2 = (.ok (), h', fw')) :
    FileDirRoundTrips (run RegistryCall.exec (h, relmFwCfgInit) calls).1
      (run RegistryCall.exec (h, relmFwCfgInit) calls).2.2 fw' ↔ PlainFiles h calls := by
  have i := run_registry h calls
  have hlen : ∀ item ∈ registeredItems (run RegistryCall.exec (h, relmFwCfgInit) calls).1, item.name.length ≤ 55 :=
    fun item hmem => le_of_eq (registeredItems_name_length hmem)
  have hdecode := buildFileDir_content i.table hlen hnew hbuild
  have hfiles := files_eq i.table
  have hregister := @register_ret (h, relmFwCfgInit) calls
  constructor
  · rintro ⟨hentries, hinside⟩
    have hlist : ((run RegistryCall.exec (h, relmFwCfgInit) calls).2.2.files.map fun item =>
        (⟨item.size, item.key, cString item.name⟩ : DirEntry)) =
          registeredFiles (run RegistryCall.exec (h, relmFwCfgInit) calls).1 := by
      apply List.map_injective_iff.mpr (Option.some_injective _)
      rw [← hentries, hdecode, List.map_map]
      rfl
    have hhigh : FilesHigh (run RegistryCall.exec (h, relmFwCfgInit) calls).1 := by
      intro name data size answer key hmem hret
      have hfile := mem_registeredFiles.mpr ⟨name, data, size, answer, key, hmem, hret, rfl⟩
      rw [← hlist] at hfile
      obtain ⟨item, hitem, heq⟩ := List.mem_map.mp hfile
      have hkey : item.key = key := congrArg DirEntry.key heq
      rw [← hkey]
      exact (i.table.mem_files.mp hitem).2
    refine ⟨?_, (filesHigh_iff_unwrapped h calls).mp hhigh, ?_⟩
    · intro file hfile
      obtain ⟨name, data, size, answer, key, hmem, hret, rfl⟩ := mem_registeredFiles.mp hfile
      obtain ⟨hne, hle⟩ := i.names name data size answer key hmem hret
      have hitem : newItem key name data size ∈ (run RegistryCall.exec (h, relmFwCfgInit) calls).2.2.files :=
        i.table.mem_files.mpr ⟨item_mem_registeredItems hmem hret, hhigh name data size answer key hmem hret⟩
      exact (reads_newItem hne hle).mp (hinside _ hitem)
    · intro key name data size answer hmem hret
      by_contra hkey
      have hdirect : directFile (RegistryCall.register key name data size, answer) = true := by
        rw [directFile, hret]
        exact decide_eq_true (BitVec.not_lt.mp hkey)
      have hpos := List.countP_pos_iff.mpr ⟨_, hmem, hdirect⟩
      have hlength := files_length hhigh
      rw [← hlist, List.length_map, hfiles] at hlength
      omega
  · rintro ⟨hnames, hunwrapped, hwell⟩
    have hhigh := (filesHigh_iff_unwrapped h calls).mpr hunwrapped
    have hdirect : ∀ key name data size answer,
        (RegistryCall.register key name data size, answer) ∈ (run RegistryCall.exec (h, relmFwCfgInit) calls).1 →
          ∀ key', answer.ret = .ok key' → key' < fwCfgFileFirst := by
      intro key name data size answer hmem key' hret
      obtain rfl := hregister hmem hret
      exact hwell key' name data size answer hmem hret
    refine ⟨?_, ?_⟩
    · rw [hdecode, ← files_of_trace hhigh i.names hdirect, ← hfiles, List.map_map]
      rfl
    · intro item hitem
      obtain ⟨hmem, hkey⟩ := i.table.mem_files.mp hitem
      exact name_inside i.names hdirect hnames hmem hkey

/-- A host that has room for the directory. -/
private def dirHost : Host := Host.idle [] [true, true]

/-- One empty file with a name of `n` letters. -/
private def oneFile (n : Nat) : List RegistryCall := [.registerFile (List.replicate n 0x61#8) none 0#32]

/-- A well-known item, a refused file and two files with contents. -/
private def twoFiles : List RegistryCall :=
  [.register fwCfgSignature [] (some [0x51, 0x45, 0x4D, 0x55]) 4,
    .registerFile (ascii "etc/e820") (some (leBytes 8 0x9FC00)) 8,
    .registerFile (ascii "etc/acpi/tables") (some []) 0x1001,
    .registerFile (ascii "etc/boot-fail-wait") (some (leBytes 4 0)) 4]

/-- A host that has room for their contents and for the directory. -/
private def filesHost : Host := Host.idle [] [true, true, true, true, true]

/-- The directory lists the two files, with the keys that were free when they came. -/
theorem file_dir_round_trips_two_files : ∃ h' fw',
    relmFwCfgBuildFileDir (run RegistryCall.exec (filesHost, relmFwCfgInit) twoFiles).2.1
      (run RegistryCall.exec (filesHost, relmFwCfgInit) twoFiles).2.2 = (.ok (), h', fw') ∧
    FileDirRoundTrips (run RegistryCall.exec (filesHost, relmFwCfgInit) twoFiles).1
      (run RegistryCall.exec (filesHost, relmFwCfgInit) twoFiles).2.2 fw' ∧
    decodeFileDir (fw'.content fwCfgFileDir) =
      [some ⟨8, 0x8000, ascii "etc/e820"⟩, some ⟨4, 0x8002, ascii "etc/boot-fail-wait"⟩] := by
  have hfiles : registeredFiles (run RegistryCall.exec (filesHost, relmFwCfgInit) twoFiles).1 =
      [⟨8, 0x8000, ascii "etc/e820"⟩, ⟨4, 0x8002, ascii "etc/boot-fail-wait"⟩] := by decide +kernel
  suffices hround : FileDirRoundTrips _ _ _ from ⟨_, _, rfl, hround, hround.entries.trans (by rw [hfiles]; rfl)⟩
  refine (file_dir_round_trips_iff twoFiles rfl rfl).mpr ⟨?_, ?_, ?_⟩
  · rw [hfiles]
    decide
  · intro before call after heq _
    have hlen : before.length ≤ 4 := by
      have h := congrArg List.length heq
      rw [List.length_append] at h
      have h1 : twoFiles.length = 4 := rfl
      omega
    have hle : keysTaken before ≤ before.length := List.countP_le_length
    omega
  · intro key name data size answer hmem _
    have hcall := List.mem_map_of_mem (f := Prod.fst) hmem
    rw [run_map_fst] at hcall
    simp only [twoFiles, List.mem_cons, RegistryCall.register.injEq, reduceCtorEq, List.not_mem_nil, or_false] at hcall
    rw [hcall.1]
    decide

/-- The name of a file may fill its array: then it has no terminator there, and the byte behind the array is read. -/
theorem full_name_read_past_array : ∃ h' fw',
    relmFwCfgBuildFileDir (run RegistryCall.exec (dirHost, relmFwCfgInit) (oneFile 55)).2.1
      (run RegistryCall.exec (dirHost, relmFwCfgInit) (oneFile 55)).2.2 = (.ok (), h', fw') ∧
    (∃ item ∈ (run RegistryCall.exec (dirHost, relmFwCfgInit) (oneFile 55)).2.2.files,
      item.name.length = 55 ∧ strscpyReads 56 item.name = 56) ∧
    ¬ FileDirRoundTrips (run RegistryCall.exec (dirHost, relmFwCfgInit) (oneFile 55)).1
      (run RegistryCall.exec (dirHost, relmFwCfgInit) (oneFile 55)).2.2 fw' := by
  have hitem : ∃ item ∈ (run RegistryCall.exec (dirHost, relmFwCfgInit) (oneFile 55)).2.2.files,
      item.name.length = 55 ∧ strscpyReads 56 item.name = 56 :=
    ⟨newItem fwCfgFileFirst (List.replicate 55 0x61#8) none 0#32, List.mem_singleton_self _, by decide, by decide⟩
  refine ⟨_, _, rfl, hitem, fun hround => ?_⟩
  obtain ⟨item, hmem, -, hreads⟩ := hitem
  have hle := hround.inside item hmem
  rw [hreads] at hle
  exact absurd hle (by decide)

end Claim

end Relm.Firmware
