import Relm.Vm.AccessSafety
import Relm.Vmx.GuestTables

/-! Reads through the guest's page tables, chunk by chunk, against the translation of every single byte. -/
namespace Relm.Vmx
open Relm.Vm Relm.Lib.Word

/-- A translation that keeps the offset in the page and looks at nothing else of it. -/
structure PageWise (translate : U64 → Walk U64) : Prop where
  offset : ∀ gva, translate gva = (· ||| (gva &&& 0xFFF#64)) <$> translate (gva &&& ~~~0xFFF#64)
  aligned : ∀ gva a, (translate (gva &&& ~~~0xFFF#64)).run = .ok (.ok a) → a &&& 0xFFF#64 = 0

section Bits

variable (gva x : U64)

/-- The bits under a mask, with those under a smaller one apart. -/
private theorem and_split {low mask : U64} (h : low &&& mask = low) :
    gva &&& mask = (gva &&& ~~~low &&& mask) ||| (gva &&& low) := by
  apply BitVec.eq_of_getLsbD_eq
  intro i hi
  have hbit := congrArg (·.getLsbD i) h
  simp only [BitVec.getLsbD_and] at hbit
  simp only [BitVec.getLsbD_and, BitVec.getLsbD_or, BitVec.getLsbD_not, hi, decide_true, Bool.true_and]
  cases hl : low.getLsbD i <;> cases hm : mask.getLsbD i <;> simp_all

private theorem getLsbD_low {i : Nat} (hi : 12 ≤ i) : (0xFFF#64).getLsbD i = false := by
  rw [← BitVec.testBit_toNat]
  apply Nat.testBit_lt_two_pow
  exact Nat.lt_of_lt_of_le (show (0xFFF#64).toNat < 2 ^ 12 by decide) (Nat.pow_le_pow_right (by decide) hi)

/-- The offset in the page does not show in the bits above it. -/
private theorem page_ushiftRight {k : Nat} (hk : 12 ≤ k) : (gva &&& ~~~0xFFF#64) >>> k = gva >>> k := by
  apply BitVec.eq_of_getLsbD_eq
  intro i hi
  simp only [BitVec.getLsbD_ushiftRight, BitVec.getLsbD_and, BitVec.getLsbD_not]
  by_cases hlt : k + i < 64
  · rw [getLsbD_low (show 12 ≤ k + i by omega), decide_eq_true hlt, Bool.not_false, Bool.and_true, Bool.and_true]
  · rw [BitVec.getLsbD_of_ge _ _ (by omega), Bool.false_and]

/-- A page or a larger leaf with an offset in it, against the start of the 4 KiB page. -/
private theorem leaf_offset (base : U64) {mask : U64} (h : 0xFFF#64 &&& mask = 0xFFF#64) :
    base ||| (gva &&& mask) = (base ||| ((gva &&& ~~~0xFFF#64) &&& mask)) ||| (gva &&& 0xFFF#64) := by
  rw [BitVec.or_assoc, ← and_split gva h]

private theorem leaf_aligned {base : U64} (mask : U64) (h : base &&& 0xFFF#64 = 0) :
    (base ||| ((gva &&& ~~~0xFFF#64) &&& mask)) &&& 0xFFF#64 = 0 := by
  have hlow : (gva &&& ~~~0xFFF#64) &&& mask &&& 0xFFF#64 = 0#64 := by
    rw [BitVec.and_assoc, BitVec.and_comm mask, ← BitVec.and_assoc, BitVec.and_assoc gva,
      show ~~~0xFFF#64 &&& 0xFFF#64 = 0#64 by decide, BitVec.and_zero, BitVec.zero_and]
  rw [BitVec.and_or_distrib_right, h, hlow]
  rfl

private theorem and_aligned {mask : U64} (h : mask &&& 0xFFF#64 = 0) : x &&& mask &&& 0xFFF#64 = 0 := by
  rw [BitVec.and_assoc, h]
  exact BitVec.and_zero

/-- A leaf at one of the lower three levels is at least a page. -/
private theorem page_mask {below : Nat} (h : below ≤ 2) :
    0xFFF#64 &&& ((1#64 <<< (12 + 9 * below)) - 1) = 0xFFF#64 := by
  match below, h with
  | 0, _ => decide
  | 1, _ => decide
  | 2, _ => decide

end Bits

section Modes

variable (v : Vmcs) (s : VmState)

private theorem run_bind_ok {α β : Type} {w : Walk α} {f : α → Walk β} {b : β} (h : (w >>= f).run = .ok (.ok b)) :
    ∃ a, (f a).run = .ok (.ok b) := by
  rw [ExceptT.run_bind] at h
  cases hw : w.run with
  | error fault =>
    rw [hw] at h
    cases h
  | ok r =>
    rw [hw] at h
    cases r with
    | error e => cases h
    | ok a => exact ⟨a, h⟩

private theorem walkLevels_offset (gva : U64) (level : Nat) (hlevel : level ≤ 4) (table : U64) :
    mmuWalkLevels s gva level table =
      (· ||| (gva &&& 0xFFF#64)) <$> mmuWalkLevels s (gva &&& ~~~0xFFF#64) level table := by
  induction level generalizing table with
  | zero => rfl
  | succ below ih =>
    rw [mmuWalkLevels, mmuWalkLevels, map_bind]
    dsimp only
    rw [page_ushiftRight gva (show 12 ≤ 12 + 9 * below by omega)]
    refine bind_congr fun entry => ?_
    split
    · rfl
    split
    · split
      · rfl
      · rename_i hbelow
        have hmask : 0xFFF#64 &&& ((1#64 <<< (12 + 9 * below)) - 1) = 0xFFF#64 := by
          have hlt : below ≤ 2 := by
            have hne : below ≠ 3 := by simpa using hbelow
            omega
          exact page_mask hlt
        rw [map_pure, leaf_offset gva _ hmask]
    split
    · rw [map_pure, leaf_offset gva _ (show 0xFFF#64 &&& 0xFFF#64 = 0xFFF#64 by decide)]
    · exact ih (by omega) _

private theorem walkLevels_aligned (gva : U64) (level : Nat) (table : U64) {a : U64}
    (h : (mmuWalkLevels s (gva &&& ~~~0xFFF#64) level table).run = .ok (.ok a)) : a &&& 0xFFF#64 = 0 := by
  induction level generalizing table with
  | zero => cases h
  | succ below ih =>
    rw [mmuWalkLevels] at h
    obtain ⟨entry, h⟩ := run_bind_ok h
    have hentry : entry &&& pteAddrMask &&& 0xFFF#64 = 0 := and_aligned entry (by decide)
    split at h
    · cases h
    split at h
    · dsimp only at h
      split at h
      · cases h
      · cases h
        apply leaf_aligned
        rw [BitVec.and_assoc, BitVec.and_comm (~~~_), ← BitVec.and_assoc, hentry]
        exact BitVec.zero_and
    split at h
    · cases h
      exact leaf_aligned gva _ hentry
    · exact ih _ h

theorem mmuWalkLong_pageWise : PageWise (mmuWalkLong v s) where
  offset gva := walkLevels_offset s gva 4 le_rfl _
  aligned gva _ h := walkLevels_aligned s gva 4 _ h

theorem mmuWalkPae_pageWise : PageWise (mmuWalkPae v s) where
  offset gva := by
    unfold mmuWalkPae
    rw [page_ushiftRight gva (by decide), page_ushiftRight gva (by decide), page_ushiftRight gva (by decide), map_bind]
    refine bind_congr fun pdpte => ?_
    split
    · rfl
    rw [map_bind]
    refine bind_congr fun pde => ?_
    split
    · rfl
    split
    · rw [map_pure, leaf_offset gva _ (by decide)]
    rw [map_bind]
    refine bind_congr fun pte => ?_
    split
    · rfl
    · rw [map_pure, leaf_offset gva _ (by decide)]
  aligned gva a h := by
    unfold mmuWalkPae at h
    obtain ⟨pdpte, h⟩ := run_bind_ok h
    split at h
    · cases h
    obtain ⟨pde, h⟩ := run_bind_ok h
    split at h
    · cases h
    split at h
    · cases h
      apply leaf_aligned
      rw [BitVec.and_assoc, BitVec.and_comm (~~~_), ← BitVec.and_assoc, and_aligned pde (by decide)]
      exact BitVec.zero_and
    obtain ⟨pte, h⟩ := run_bind_ok h
    split at h
    · cases h
    · cases h
      exact leaf_aligned gva _ (and_aligned pte (by decide))

theorem mmuWalkLegacy_pageWise : PageWise (mmuWalkLegacy v s) where
  offset gva := by
    unfold mmuWalkLegacy
    rw [page_ushiftRight gva (by decide), page_ushiftRight gva (by decide), map_bind]
    refine bind_congr fun pde => ?_
    split
    · rfl
    split
    · rw [map_pure, leaf_offset gva _ (by decide)]
    rw [map_bind]
    refine bind_congr fun pte => ?_
    split
    · rfl
    · rw [map_pure, leaf_offset gva _ (by decide)]
  aligned gva a h := by
    unfold mmuWalkLegacy at h
    obtain ⟨pde, h⟩ := run_bind_ok h
    split at h
    · cases h
    split at h
    · cases h
      exact leaf_aligned gva _ (and_aligned pde (by decide))
    obtain ⟨pte, h⟩ := run_bind_ok h
    split at h
    · cases h
    · cases h
      exact leaf_aligned gva _ (and_aligned pte (by decide))

theorem relmMmuGvaToGpa_pageWise : PageWise (relmMmuGvaToGpa v s) where
  offset gva := by
    have htrunc : (gva &&& ~~~0xFFF#64) &&& 0xFFFFFFFF#64 = (gva &&& 0xFFFFFFFF#64) &&& ~~~0xFFF#64 := by
      rw [BitVec.and_assoc, BitVec.and_comm (~~~_), ← BitVec.and_assoc]
    have hlow : (gva &&& 0xFFFFFFFF#64) &&& 0xFFF#64 = gva &&& 0xFFF#64 := by
      rw [BitVec.and_assoc, show 0xFFFFFFFF#64 &&& 0xFFF#64 = 0xFFF#64 by decide]
    unfold relmMmuGvaToGpa
    split
    · have hsplit := and_split gva (show 0xFFF#64 &&& BitVec.allOnes 64 = 0xFFF#64 by decide)
      rw [BitVec.and_allOnes, BitVec.and_allOnes] at hsplit
      rw [map_pure, ← hsplit]
    split
    · split
      · rfl
      · exact (mmuWalkLong_pageWise v s).offset gva
    dsimp only
    rw [htrunc, ← hlow]
    split
    · exact (mmuWalkPae_pageWise v s).offset _
    · exact (mmuWalkLegacy_pageWise v s).offset _
  aligned gva a h := by
    have htrunc : (gva &&& ~~~0xFFF#64) &&& 0xFFFFFFFF#64 = (gva &&& 0xFFFFFFFF#64) &&& ~~~0xFFF#64 := by
      rw [BitVec.and_assoc, BitVec.and_comm (~~~_), ← BitVec.and_assoc]
    unfold relmMmuGvaToGpa at h
    split at h
    · cases h
      exact and_aligned gva (by decide)
    split at h
    · split at h
      · cases h
      · exact (mmuWalkLong_pageWise v s).aligned gva a h
    dsimp only at h
    rw [htrunc] at h
    split at h
    · exact (mmuWalkPae_pageWise v s).aligned _ a h
    · exact (mmuWalkLegacy_pageWise v s).aligned _ a h

end Modes

namespace PageWise

variable {translate : U64 → Walk U64} {gva gpa : U64} {i : Nat}

private theorem add_toNat (hi : gva.toNat % 4096 + i < 4096) : (gva + BitVec.ofNat 64 i).toNat = gva.toNat + i := by
  have hlt := gva.isLt
  refine toNat_add_eq rfl ?_ (by omega)
  rw [BitVec.toNat_ofNat]
  exact Nat.mod_eq_of_lt (by omega)

/-- Addresses of one page have the start of the page in common. -/
private theorem page_add (hi : gva.toNat % 4096 + i < 4096) :
    (gva + BitVec.ofNat 64 i) &&& ~~~0xFFF#64 = gva &&& ~~~0xFFF#64 := by
  apply BitVec.eq_of_toNat_eq
  rw [and_field_toNat _ _ 12 64 (by decide) (by decide), and_field_toNat _ _ 12 64 (by decide) (by decide), add_toNat hi]
  have hlt := gva.isLt
  omega

private theorem or_offset {a : U64} (ha : a &&& 0xFFF#64 = 0) (x : U64) :
    (a ||| (x &&& 0xFFF#64)).toNat = a.toNat + x.toNat % 4096 ∧ a.toNat % 4096 = 0 := by
  have hmod : a.toNat % 2 ^ 12 = 0 := by
    rw [← and_low_toNat a 0xFFF#64 12 (by decide), ha]
    rfl
  have hx := and_low_toNat x 0xFFF#64 12 (by decide)
  rw [or_low_toNat a _ 12 hmod (by rw [hx]; exact Nat.mod_lt _ (by decide)), hx]
  exact ⟨rfl, hmod⟩

/-- Where an address of a page goes, the others of the page go beside it. -/
theorem run_ok (h : PageWise translate) (hi : gva.toNat % 4096 + i < 4096)
    (hok : (translate gva).run = .ok (.ok gpa)) :
    gpa.toNat % 4096 = gva.toNat % 4096 ∧ (translate (gva + BitVec.ofNat 64 i)).run = .ok (.ok (gpa + BitVec.ofNat 64 i)) := by
  rw [h.offset gva, ExceptT.run_map] at hok
  rw [h.offset (gva + BitVec.ofNat 64 i), page_add hi, ExceptT.run_map]
  cases hp : (translate (gva &&& ~~~0xFFF#64)).run with
  | error fault =>
    rw [hp] at hok
    cases hok
  | ok r =>
    rw [hp] at hok
    cases r with
    | error e => cases hok
    | ok a =>
      cases hok
      obtain ⟨hoff, hmod⟩ := or_offset (h.aligned gva a hp) gva
      obtain ⟨hoff', -⟩ := or_offset (h.aligned gva a hp) (gva + BitVec.ofNat 64 i)
      refine ⟨by rw [hoff]; omega, ?_⟩
      have heq : a ||| ((gva + BitVec.ofNat 64 i) &&& 0xFFF#64) = (a ||| (gva &&& 0xFFF#64)) + BitVec.ofNat 64 i := by
        apply BitVec.eq_of_toNat_eq
        rw [hoff', add_toNat hi, add_toNat (by rw [hoff]; omega), hoff]
        omega
      rw [← heq]
      rfl

end PageWise

/-- The byte at a virtual address, translated on its own. -/
def virtByte (v : Vmcs) (s : VmState) (gva : U64) : Walk Byte := do
  let gpa ← relmMmuGvaToGpa v s gva
  match s.guestMemory gpa.toNat with
  | some b => return b
  | none => throw .efault

/-- Bytes from a virtual address on, one translation each; the first that fails ends it. -/
def virtBytes (v : Vmcs) (s : VmState) : (n : Nat) → (gva : U64) → Walk (List Byte)
  | 0, _ => return []
  | n + 1, gva => do
    let b ← virtByte v s gva
    let rest ← virtBytes v s n (gva + 1#64)
    return b :: rest

section Bytewise

variable {v : Vmcs} {s : VmState} {gva gpa : U64} {n : Nat}

private theorem ofNat_succ (gva : U64) (m : Nat) : gva + 1#64 + BitVec.ofNat 64 m = gva + BitVec.ofNat 64 (m + 1) := by
  rw [BitVec.add_assoc, Nat.add_comm m 1, BitVec.ofNat_add]

/-- A range in two parts. -/
private theorem virtBytes_add (m n : Nat) (gva : U64) : virtBytes v s (m + n) gva = do
    let l ← virtBytes v s m gva
    let r ← virtBytes v s n (gva + BitVec.ofNat 64 m)
    return l ++ r := by
  induction m generalizing gva with
  | zero => simp [virtBytes]
  | succ m ih =>
    rw [show m + 1 + n = (m + n) + 1 by omega, virtBytes, virtBytes]
    simp only [ih, ofNat_succ, bind_assoc, pure_bind, List.cons_append]

/-- A range in which every byte can be read. -/
private theorem virtBytes_ok (data : List Byte) (gva : U64)
    (h : ∀ i (hi : i < data.length), (virtByte v s (gva + BitVec.ofNat 64 i)).run = .ok (.ok data[i])) :
    (virtBytes v s data.length gva).run = .ok (.ok data) := by
  induction data generalizing gva with
  | nil => rfl
  | cons b rest ih =>
    have hfirst := h 0 (Nat.zero_lt_succ _)
    rw [BitVec.add_zero] at hfirst
    have hrest := ih (gva + 1#64) fun i hi => by
      rw [ofNat_succ]
      exact h (i + 1) (Nat.succ_lt_succ hi)
    rw [List.length_cons, virtBytes, ExceptT.run_bind, hfirst]
    change (virtBytes v s rest.length (gva + 1#64) >>= fun rest => pure (b :: rest)).run = _
    rw [ExceptT.run_bind, hrest]
    rfl

/-- A range whose first byte cannot be read. -/
private theorem virtBytes_error {e : Errno} (hn : 0 < n) (h : (virtByte v s gva).run = .ok (.error e)) :
    (virtBytes v s n gva).run = .ok (.error e) := by
  obtain ⟨m, rfl⟩ : ∃ m, n = m + 1 := ⟨n - 1, by omega⟩
  rw [virtBytes, ExceptT.run_bind, h]
  rfl

private theorem virtByte_translated (h : (relmMmuGvaToGpa v s gva).run = .ok (.ok gpa)) :
    (virtByte v s gva).run = match s.guestMemory gpa.toNat with
      | some b => .ok (.ok b)
      | none => .ok (.error .efault) := by
  rw [virtByte, ExceptT.run_bind, h]
  change ExceptT.run (match s.guestMemory gpa.toNat with
    | some b => pure b
    | none => (throw .efault : Walk Byte)) = _
  split <;> rfl

private theorem virtByte_refused {e : Errno} (h : (relmMmuGvaToGpa v s gva).run = .ok (.error e)) :
    (virtByte v s gva).run = .ok (.error e) := by
  rw [virtByte, ExceptT.run_bind, h]
  rfl

/-- Within a page RAM is all there or not at all. -/
private theorem longestPrefix_page {regions : List GuestMemRegion} (k : RamLayout regions) {start n m : Nat}
    (hpage : start % 4096 + n ≤ 4096) (h : LongestPrefix regions start n m) : m = 0 ∨ m = n := by
  by_contra hc
  rw [not_or] at hc
  have hle := h.le
  obtain ⟨r, hr, h1, h2⟩ := h.covered 0 (by omega)
  refine h.maximal (by omega) r hr ⟨by omega, ?_⟩
  have hsize := (k.linked r hr).size
  have hstart := (k.linked r hr).start (by
    intro h0
    rw [h0, show (0 : U64).toNat = 0 from rfl] at h2
    omega)
  omega

/-- One chunk: what the copy returns is what its bytes give, or the error of the first of them. -/
private theorem chunk_spec (k : RamLayout s.memory.memRegions) (hn : 0 < n) (hpage : gva.toNat % 4096 + n ≤ 4096)
    (htr : (relmMmuGvaToGpa v s gva).run = .ok (.ok gpa)) :
    (∃ bytes, relmVmCopyFromGuest s gpa n = .ok ((n : Int), bytes) ∧ bytes.length = n ∧
      (virtBytes v s n gva).run = .ok (.ok bytes)) ∨
    ∃ bytes, relmVmCopyFromGuest s gpa n = .ok (-Errno.efault.code, bytes) ∧
      (virtBytes v s n gva).run = .ok (.error .efault) := by
  have hwise := relmMmuGvaToGpa_pageWise v s
  obtain ⟨hoff, -⟩ := hwise.run_ok (i := 0) (by omega) htr
  obtain ⟨m, bytes, hcopy, hlong, hbytes⟩ := k.copyFrom gpa (show n ≠ 0 by omega) (by omega)
  rcases longestPrefix_page k (by omega) hlong with rfl | rfl
  · refine Or.inr ⟨bytes, hcopy, virtBytes_error hn ?_⟩
    rw [virtByte_translated htr]
    have hnone : s.guestMemory gpa.toNat = none := memory_of_not_covered (fun r hr => hlong.maximal hn r hr) _
    rw [hnone]
  · have hlen : bytes.length = m := by
      have h := congrArg List.length hbytes
      rwa [List.length_map, List.length_map, List.length_range] at h
    refine Or.inl ⟨bytes, ?_, hlen, ?_⟩
    · rw [hcopy, countRet, if_neg (by omega)]
    · rw [← hlen]
      refine virtBytes_ok bytes gva fun i hi => ?_
      obtain ⟨-, htri⟩ := hwise.run_ok (i := i) (by omega) htr
      have hmem : s.guestMemory (gpa + BitVec.ofNat 64 i).toNat = some bytes[i] := by
        have haddr : (gpa + BitVec.ofNat 64 i).toNat = gpa.toNat + i := PageWise.add_toNat (by omega)
        have hget := congrArg (·[i]?) hbytes
        simp only [List.getElem?_map, List.getElem?_eq_getElem hi, List.getElem?_range (show i < m by omega),
          Option.map_some] at hget
        rw [haddr]
        exact (Option.some.inj hget).symm
      rw [virtByte_translated htri, hmem]

private theorem noDevice {regions : List GuestMemRegion} (k : RamLayout regions) : NoDeviceBelow regions :=
  fun _ _ r hr => k.backed r (findRegion_mem hr)

/-- How a copy ends, against its bytes one by one. -/
def Agrees (bytewise : Walk (List Byte)) (size : Nat) (before : List Byte)
    (copy : Except HostFault (Int × List Byte)) : Prop :=
  (∃ bytes, bytewise.run = .ok (.ok bytes) ∧ copy = .ok ((size : Int), before ++ bytes)) ∨
    ∃ e dst, bytewise.run = .ok (.error e) ∧ copy = .ok (-e.code, dst)

private theorem efault_neg : -Errno.efault.code < 0 := by decide

/-- A first part whose bytes can be read, followed by the rest of the copy. -/
private theorem Agrees.after {first next size : Nat} {before bytes : List Byte} {cur : U64}
    {copy : Except HostFault (Int × List Byte)} (hfirst : (virtBytes v s first cur).run = .ok (.ok bytes))
    (h : Agrees (virtBytes v s next (cur + BitVec.ofNat 64 first)) size (before ++ bytes) copy) :
    Agrees (virtBytes v s (first + next) cur) size before copy := by
  rw [virtBytes_add]
  rcases h with ⟨rest, hrest, heq⟩ | ⟨e, dst, hrest, heq⟩
  · refine Or.inl ⟨bytes ++ rest, ?_, ?_⟩
    · rw [ExceptT.run_bind, hfirst]
      change (virtBytes v s _ _ >>= fun r => pure (bytes ++ r)).run = _
      rw [ExceptT.run_bind, hrest]
      rfl
    · rw [heq, List.append_assoc]
  · refine Or.inr ⟨e, dst, ?_, heq⟩
    rw [ExceptT.run_bind, hfirst]
    change (virtBytes v s _ _ >>= fun r => pure (bytes ++ r)).run = _
    rw [ExceptT.run_bind, hrest]
    rfl

/-- A first part that cannot be read ends the copy. -/
private theorem Agrees.fails {first next size : Nat} {before dst : List Byte} {cur : U64} {e : Errno}
    (hfirst : (virtBytes v s first cur).run = .ok (.error e)) :
    Agrees (virtBytes v s (first + next) cur) size before (.ok (-e.code, dst)) := by
  rw [virtBytes_add]
  refine Or.inr ⟨e, dst, ?_, rfl⟩
  rw [ExceptT.run_bind, hfirst]
  rfl

private theorem copyVirtLoop_agrees (k : RamLayout s.memory.memRegions) (gva : U64) (size copied : Nat) (dst : List Byte)
    (hdst : dst.length = size) (hle : copied ≤ size) (hmax : size < 2 ^ 31) :
    Agrees (virtBytes v s (size - copied) (gva + BitVec.ofNat 64 copied)) size (dst.take copied)
      (copyVirtLoop v s gva size copied dst) := by
  induction hk : size - copied using Nat.strong_induction_on generalizing copied dst with
  | _ left ih =>
    rw [copyVirtLoop]
    by_cases hlt : copied < size
    swap
    · obtain rfl : copied = size := by omega
      obtain rfl : left = 0 := by omega
      refine Or.inl ⟨[], rfl, ?_⟩
      rw [if_neg hlt, toCInt_eq hmax, List.append_nil, List.take_of_length_le (by omega)]
    rw [if_pos hlt]
    dsimp only
    generalize hcur : gva + BitVec.ofNat 64 copied = cur
    generalize hchunk : min (size - copied) (4096 - cur.toNat % 4096) = chunk
    have hmod : cur.toNat % 4096 < 4096 := Nat.mod_lt _ (by decide)
    have hpos : 0 < chunk := by omega
    have hpage : cur.toNat % 4096 + chunk ≤ 4096 := by omega
    have hleft : left = chunk + (size - (copied + chunk)) := by omega
    rw [hleft]
    obtain ⟨r, hr⟩ := gvaToGpa_noFault k.linked (noDevice k) v cur
    rw [hr]
    cases r with
    | error e => exact Agrees.fails (virtBytes_error hpos (virtByte_refused hr))
    | ok gpa =>
      dsimp only
      rcases chunk_spec k hpos hpage hr with ⟨bytes, hcopy, hlen, hbytes⟩ | ⟨bytes, hcopy, hbytes⟩
      · rw [hcopy]
        dsimp only
        rw [if_neg (by omega)]
        have hnext : gva + BitVec.ofNat 64 (copied + chunk) = cur + BitVec.ofNat 64 chunk := by
          rw [← hcur, BitVec.ofNat_add, BitVec.add_assoc]
        have htake : (overwrite dst copied bytes).take (copied + chunk) = dst.take copied ++ bytes := by
          have hfirst : (dst.take copied ++ bytes).length = copied + chunk := by
            rw [List.length_append, List.length_take, hlen]
            omega
          rw [overwrite, List.take_left' hfirst]
        have hlength : (overwrite dst copied bytes).length = size := by
          simp only [overwrite, List.length_append, List.length_take, List.length_drop]
          omega
        have hrec := ih (size - (copied + chunk)) (by omega) (copied + chunk) (overwrite dst copied bytes) hlength (by omega) rfl
        rw [hnext, htake] at hrec
        exact Agrees.after hbytes hrec
      · rw [hcopy]
        dsimp only
        rw [if_pos efault_neg]
        exact Agrees.fails hbytes

end Bytewise

/-- The whole copy against its bytes. -/
theorem copyVirt_agrees {s : VmState} (k : RamLayout s.memory.memRegions) (v : Vmcs) (gva : U64) (data : List Byte)
    (hpos : 0 < data.length) (hmax : data.length < 2 ^ 31) :
    Agrees (virtBytes v s data.length gva) data.length [] (relmMmuCopyFromGuestVirt v s gva data) := by
  have hloop := copyVirtLoop_agrees (v := v) k gva data.length 0 data rfl (Nat.zero_le _) hmax
  rw [BitVec.add_zero, List.take_zero, Nat.sub_zero] at hloop
  rw [relmMmuCopyFromGuestVirt, if_neg (by omega)]
  exact hloop

/-- A copy from virtual memory hands out exactly the bytes that translating each address on its own finds, all of them or
the error of the first that has none. -/
theorem virt_copy_bytewise {s : VmState} (k : RamLayout s.memory.memRegions) (v : Vmcs) (gva : U64) (data : List Byte)
    (hpos : 0 < data.length) (hmax : data.length < 2 ^ 31) :
    (∃ bytes, (virtBytes v s data.length gva).run = .ok (.ok bytes) ∧
      relmMmuCopyFromGuestVirt v s gva data = .ok ((data.length : Int), bytes)) ∨
    ∃ e dst, (virtBytes v s data.length gva).run = .ok (.error e) ∧
      relmMmuCopyFromGuestVirt v s gva data = .ok (-e.code, dst) := by
  exact copyVirt_agrees k v gva data hpos hmax

private theorem mapped_byte {gva : U64} (b : Byte) (h : gva.toNat / 0x2000 = 0x200)
    (hb : mappedVm.guestMemory (0x4000#64 ||| (gva &&& 0xFFF#64)).toNat = some b) :
    virtByte mappedVmcs mappedVm gva = pure b := by
  rw [virtByte, mapped_walk h, pure_bind, hb]

/-- Four bytes across two virtual pages in 64-bit mode, both mapped to one page of the guest: its last two and its first
two. -/
theorem virt_copy_bytewise_mapped : RamLayout mappedVm.memory.memRegions ∧ LongMode mappedVmcs 0 ∧
    (virtBytes mappedVmcs mappedVm 4 0x400FFE#64).run = .ok (.ok [3, 4, 1, 2]) ∧
    relmMmuCopyFromGuestVirt mappedVmcs mappedVm 0x400FFE#64 [0, 0, 0, 0] = .ok (4, [3, 4, 1, 2]) := by
  have hbytes : (virtBytes mappedVmcs mappedVm 4 0x400FFE#64).run = .ok (.ok [3, 4, 1, 2]) := by
    rw [virtBytes, virtBytes, virtBytes, virtBytes, virtBytes, mapped_byte 3 (by decide) (by decide),
      mapped_byte 4 (by decide) (by decide), mapped_byte 1 (by decide) (by decide),
      mapped_byte 2 (by decide) (by decide)]
    rfl
  refine ⟨mapped_layout, mapped_longMode, hbytes, ?_⟩
  rcases virt_copy_bytewise mapped_layout mappedVmcs 0x400FFE#64 [0, 0, 0, 0] (by decide) (by decide) with
    ⟨bytes, hall, hcopy⟩ | ⟨e, dst, hall, -⟩
  · cases hbytes.symm.trans hall
    exact hcopy
  · cases hbytes.symm.trans hall

section NoFault

variable {s : VmState}

/-- Every region has the page array that its size asks for. -/
def AllBacked (regions : List GuestMemRegion) : Prop := ∀ r ∈ regions, r.Linked ∧ r.pages.isSome

private theorem copyFromGuest_noFault (h : AllBacked s.memory.memRegions) (gpa : U64) (size : Nat) :
    ∃ r, relmVmCopyFromGuest s gpa size = .ok r := by
  unfold relmVmCopyFromGuest
  split
  · exact ⟨_, rfl⟩
  rcases @accessLoop_spec (List Byte) s.memory.memRegions gpa (fun r hr => (h r hr).1) true
    (fun page off _ n acc => acc ++ s.host.readBytes page off n) size (fun _ _ => True)
    (fun _ _ _ _ _ _ _ _ => trivial) 0 none [] (fun _ hc => by cases hc)
    (by rw [BitVec.add_zero]; rfl) (Nat.zero_le _) trivial with
    ⟨n, r, -, -, -, hr, hp, -⟩ | ⟨n, data, hloop, -⟩
  · have hback := (h r (regionAt_mem hr)).2
    rw [hp] at hback
    cases hback
  · rw [hloop]
    exact ⟨_, rfl⟩

private theorem copyVirtLoop_noFault (h : AllBacked s.memory.memRegions) (v : Vmcs) (gva : U64) (size copied : Nat)
    (dst : List Byte) : ∃ r, copyVirtLoop v s gva size copied dst = .ok r := by
  induction hk : size - copied using Nat.strong_induction_on generalizing copied dst with
  | _ left ih =>
    rw [copyVirtLoop]
    by_cases hlt : copied < size
    swap
    · rw [if_neg hlt]
      exact ⟨_, rfl⟩
    rw [if_pos hlt]
    dsimp only
    have hmod : (gva + BitVec.ofNat 64 copied).toNat % 4096 < 4096 := Nat.mod_lt _ (by decide)
    obtain ⟨r, hr⟩ := gvaToGpa_noFault (fun r hr => (h r hr).1) (fun _ _ r hr => (h r (findRegion_mem hr)).2) v
      (gva + BitVec.ofNat 64 copied)
    rw [hr]
    cases r with
    | error e => exact ⟨_, rfl⟩
    | ok gpa =>
      dsimp only
      obtain ⟨⟨ret, bytes⟩, hcopy⟩ := copyFromGuest_noFault h gpa
        (min (size - copied) (4096 - (gva + BitVec.ofNat 64 copied).toNat % 4096))
      rw [hcopy]
      dsimp only
      split
      · exact ⟨_, rfl⟩
      · exact ih _ (by omega) _ _ rfl

/-- Where every region is page-backed, a copy from virtual memory comes back. -/
theorem copyVirt_noFault (h : AllBacked s.memory.memRegions) (v : Vmcs) (gva : U64) (data : List Byte) :
    ∃ r, relmMmuCopyFromGuestVirt v s gva data = .ok r := by
  unfold relmMmuCopyFromGuestVirt
  split
  · exact ⟨_, rfl⟩
  · exact copyVirtLoop_noFault h v gva _ _ _

end NoFault

end Relm.Vmx
