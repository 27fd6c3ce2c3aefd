import Relm.Lib.Patch
import Relm.Vm.GuestBytes

/-! The accessors of guest memory as operations on a memory of bytes, for any list of RAM regions. -/
namespace Relm.Vm
open Relm.Lib.Patch Relm.Lib.Word

/-- Two regions share no address. -/
def GuestMemRegion.Apart (r r' : GuestMemRegion) : Prop :=
  r.gpaStart.toNat + r.size.toNat ≤ r'.gpaStart.toNat ∨ r'.gpaStart.toNat + r'.size.toNat ≤ r.gpaStart.toNat

/-- Page-backed RAM regions that do not overlap, in any order; no page backs two places. -/
structure RamLayout (regions : List GuestMemRegion) : Prop where
  linked : ∀ r ∈ regions, r.Linked
  backed : ∀ r ∈ regions, r.pages.isSome
  bounded : ∀ r ∈ regions, r.gpaStart.toNat + r.size.toNat < 2 ^ 64
  disjoint : regions.Pairwise GuestMemRegion.Apart
  frames : (regions.flatMap fun r => r.pages.getD []).Nodup

/-- An address is in a region. -/
def GuestMemRegion.Covers (r : GuestMemRegion) (a : Nat) : Prop :=
  r.gpaStart.toNat ≤ a ∧ a < r.gpaStart.toNat + r.size.toNat

/-- The bytes of a range from its start that lie in regions are `n`, and no more. -/
structure LongestPrefix (regions : List GuestMemRegion) (start size n : Nat) : Prop where
  le : n ≤ size
  covered : ∀ i < n, ∃ r ∈ regions, r.Covers (start + i)
  maximal : n < size → ∀ r ∈ regions, ¬ r.Covers (start + n)

/-- The byte of a region at a guest physical address. -/
def GuestMemRegion.byteAt (r : GuestMemRegion) (h : Host) (a : Nat) : Option Byte :=
  if r.gpaStart.toNat ≤ a ∧ a < r.gpaStart.toNat + r.size.toNat then
    (r.pages.bind (·[(a - r.gpaStart.toNat) / 4096]?)).map fun page => h.byte page ((a - r.gpaStart.toNat) % 4096)
  else none

/-- Guest memory: the byte at each guest physical address that is RAM. -/
def guestMemory (regions : List GuestMemRegion) (h : Host) (a : Nat) : Option Byte :=
  regions.findSome? (·.byteAt h a)

/-- The value an accessor returns for a count. -/
def countRet (n : Nat) : Int := if n = 0 then -Errno.efault.code else n

section Layout

variable {regions : List GuestMemRegion} {r r' : GuestMemRegion} {a : Nat} {h : Host}

theorem GuestMemRegion.contains_iff_covers (hb : r.gpaStart.toNat + r.size.toNat < 2 ^ 64) {gpa : U64} :
    r.contains gpa = true ↔ r.Covers gpa.toNat := by
  rw [GuestMemRegion.contains_iff]
  exact ⟨fun hc => ⟨hc.1, hc.2.1⟩, fun hc => ⟨hc.1, hc.2, hb⟩⟩

/-- At most one region covers an address. -/
theorem RamLayout.unique (k : RamLayout regions) (hr : r ∈ regions) (hr' : r' ∈ regions) (hc : r.Covers a)
    (hc' : r'.Covers a) : r = r' := by
  by_contra hne
  have hsymm : Std.Symm GuestMemRegion.Apart := ⟨fun _ _ hd => Or.symm hd⟩
  have hd := k.disjoint.forall hr hr' hne
  unfold GuestMemRegion.Apart at hd
  obtain ⟨h1, h2⟩ := hc
  obtain ⟨h3, h4⟩ := hc'
  omega

/-- A page stands at one place of one region. -/
theorem RamLayout.frame_inj (k : RamLayout regions) (hr : r ∈ regions) (hr' : r' ∈ regions) {ps ps' : List U64}
    (hp : r.pages = some ps) (hp' : r'.pages = some ps') {i j : Nat} {page : U64} (hi : ps[i]? = some page)
    (hj : ps'[j]? = some page) : r = r' ∧ i = j := by
  obtain ⟨hself, hother⟩ := List.nodup_flatMap.mp k.frames
  have hrr : r = r' := by
    by_contra hne
    have hsymm : Std.Symm (Function.onFun List.Disjoint fun r : GuestMemRegion => r.pages.getD []) :=
      ⟨fun _ _ hd => List.Disjoint.symm hd⟩
    have hd := hother.forall hr hr' hne
    simp only [Function.onFun, hp, hp', Option.getD_some] at hd
    exact hd (List.mem_of_getElem? hi) (List.mem_of_getElem? hj)
  subst hrr
  obtain rfl := Option.some.inj (hp.symm.trans hp')
  have hnodup := hself r hr
  rw [hp, Option.getD_some] at hnodup
  obtain ⟨h1, e1⟩ := List.getElem?_eq_some_iff.mp hi
  obtain ⟨h2, e2⟩ := List.getElem?_eq_some_iff.mp hj
  exact ⟨rfl, (hnodup.getElem_inj_iff).mp (e1.trans e2.symm)⟩

theorem byteAt_eq_none (hc : ¬ r.Covers a) : r.byteAt h a = none := if_neg hc

/-- The memory at an address is that of the region which covers it. -/
theorem RamLayout.memory_of_covers (k : RamLayout regions) (hr : r ∈ regions) (hc : r.Covers a) (h : Host) :
    guestMemory regions h a = r.byteAt h a := by
  unfold guestMemory
  cases hf : regions.findSome? (·.byteAt h a) with
  | none => exact (List.findSome?_eq_none_iff.mp hf r hr).symm
  | some b =>
    obtain ⟨r', hr', hb⟩ := List.exists_of_findSome?_eq_some hf
    have hc' : r'.Covers a := by
      by_contra hn
      rw [byteAt_eq_none hn] at hb
      cases hb
    rw [k.unique hr hr' hc hc', hb]

theorem memory_of_not_covered (hn : ∀ r ∈ regions, ¬ r.Covers a) (h : Host) : guestMemory regions h a = none :=
  List.findSome?_eq_none_iff.mpr fun r hr => byteAt_eq_none (hn r hr)

/-- The byte of a page of a region. -/
theorem byteAt_page {ps : List U64} {page : U64} (hp : r.pages = some ps) (hc : r.Covers a)
    (hi : ps[(a - r.gpaStart.toNat) / 4096]? = some page) :
    r.byteAt h a = some (h.byte page ((a - r.gpaStart.toNat) % 4096)) := by
  unfold GuestMemRegion.byteAt
  rw [if_pos ⟨hc.1, hc.2⟩, hp, Option.bind_some, hi, Option.map_some]

/-- A region has a page for every address it covers. -/
theorem RamLayout.page_of_covers (k : RamLayout regions) (hr : r ∈ regions) (hc : r.Covers a) :
    ∃ ps page, r.pages = some ps ∧ ps[(a - r.gpaStart.toNat) / 4096]? = some page := by
  obtain ⟨ps, hp⟩ := Option.isSome_iff_exists.mp (k.backed r hr)
  obtain ⟨h1, h2⟩ := hc
  have hsize := (k.linked r hr).size
  have hlen : (a - r.gpaStart.toNat) / 4096 < ps.length := by
    rw [(k.linked r hr).pages ps hp, (k.linked r hr).nrPages]
    omega
  exact ⟨ps, ps[(a - r.gpaStart.toNat) / 4096], hp, List.getElem?_eq_getElem hlen⟩

end Layout

/-- No region of the list contains an address that the accessors find no region for. -/
private theorem regionAt_none {regions : List GuestMemRegion} {gpa : U64} {n : Nat} (h : regionAt regions gpa n = none)
    (r : GuestMemRegion) (hr : r ∈ regions) : ¬ r.contains (gpa + BitVec.ofNat 64 n) = true := by
  have hfind : findRegion regions (gpa + BitVec.ofNat 64 n) = none := by
    cases n with
    | zero =>
      rw [BitVec.add_zero]
      exact h
    | succ n =>
      unfold regionAt regionFor at h
      split at h
      · split at h
        · cases h
        · exact h
      · exact h
  exact List.find?_eq_none.mp hfind r hr

section Bytes

variable {regions : List GuestMemRegion} {h : Host} {r : GuestMemRegion} {gpa page : U64} {size copied off n : Nat} {ps : List U64}

/-- A write to one page of RAM is a write to guest memory. -/
theorem RamLayout.memory_writeBytes (k : RamLayout regions) (hr : r ∈ regions)
    (hp : r.pages = some ps) {a : Nat} {data : List Byte} (hc : r.Covers a)
    (hi : ps[(a - r.gpaStart.toNat) / 4096]? = some page)
    (ho : (a - r.gpaStart.toNat) % 4096 + data.length ≤ 4096) :
    guestMemory regions (h.writeBytes page ((a - r.gpaStart.toNat) % 4096) data) =
      patch (guestMemory regions h) a (data.map some) := by
  have hsize := (k.linked r hr).size
  have hblock : ∀ b, a ≤ b → b < a + data.length → r.Covers b ∧
      (b - r.gpaStart.toNat) / 4096 = (a - r.gpaStart.toNat) / 4096 := by
    intro b h1 h2
    obtain ⟨h3, h4⟩ := hc
    refine ⟨⟨by omega, ?_⟩, by omega⟩
    omega
  funext b
  by_cases hcov : ∃ r' ∈ regions, r'.Covers b
  · obtain ⟨r', hr', hc'⟩ := hcov
    obtain ⟨ps', page', hp', hi'⟩ := k.page_of_covers hr' hc'
    rw [k.memory_of_covers hr' hc', byteAt_page hp' hc' hi',
      Host.byte_writeBytes _ _ _ _ ho (Nat.mod_lt _ (by decide))]
    by_cases hin : a ≤ b ∧ b < a + data.length
    · -- the address is in the block, so its page is the page written
      obtain ⟨hcb, hsame⟩ := hblock b hin.1 hin.2
      obtain rfl := k.unique hr hr' hcb hc'
      obtain rfl := Option.some.inj (hp.symm.trans hp')
      rw [hsame, hi] at hi'
      obtain rfl := Option.some.inj hi'
      have hoff : (b - r.gpaStart.toNat) % 4096 = (a - r.gpaStart.toNat) % 4096 + (b - a) := by
        have h1 := hc.1
        omega
      rw [if_pos ⟨rfl, by omega, by omega⟩, patch_of_mem hin.1 (by rw [List.length_map]; omega), List.getElem_map, hoff,
        Nat.add_sub_cancel_left, List.getD_eq_getElem _ _ (by omega)]
    · rw [if_neg, patch_outside (by rw [List.length_map]; omega), k.memory_of_covers hr' hc', byteAt_page hp' hc' hi']
      rintro ⟨rfl, h1, h2⟩
      obtain ⟨rfl, hsame⟩ := k.frame_inj hr hr' hp hp' hi hi'
      have h3 := hc.1
      have h4 := hc'.1
      omega
  · have hnone : ∀ r' ∈ regions, ¬ r'.Covers b := fun r' hr' hc' => hcov ⟨r', hr', hc'⟩
    rw [patch_outside, memory_of_not_covered hnone, memory_of_not_covered hnone]
    by_contra hin
    rw [not_or, Nat.not_lt, Nat.not_le, List.length_map] at hin
    exact hnone r hr (hblock b hin.1 hin.2).1

/-- The address of a byte of a pass, which does not wrap. -/
theorem RamLayout.pass_address (k : RamLayout regions)
    (hpass : Pass regions gpa size copied r page off n) (hlt : gpa.toNat + copied < 2 ^ 64) :
    gpa.toNat + (copied + n) < 2 ^ 64 ∧ ∀ i < n, (gpa + BitVec.ofNat 64 (copied + i)).toNat = gpa.toNat + copied + i ∧
      r.Covers (gpa.toNat + copied + i) := by
  have hb := k.bounded r hpass.mem
  have haddr : ∀ j, gpa.toNat + j < 2 ^ 64 → (gpa + BitVec.ofNat 64 j).toNat = gpa.toNat + j :=
    fun j hj => add_offset rfl hj
  have hfirst := regionAt_contains (hpass.inUse 0 hpass.pos)
  rw [GuestMemRegion.contains_iff_covers hb, Nat.add_zero, haddr copied hlt] at hfirst
  -- the region ends on a page boundary below 2^64
  have hend : gpa.toNat + (copied + n) < 2 ^ 64 := by
    have hn := hpass.inPage
    have hsize := (k.linked r hpass.mem).size
    have hstart := (k.linked r hpass.mem).start (by
      intro h0
      have h2 := hfirst.2
      rw [h0, show (0 : U64).toNat = 0 from rfl] at h2
      have h1 := hfirst.1
      omega)
    have h2 := hfirst.2
    omega
  refine ⟨hend, fun i hi => ?_⟩
  have hin := regionAt_contains (hpass.inUse i hi)
  rw [GuestMemRegion.contains_iff_covers hb, haddr (copied + i) (by omega)] at hin
  rw [haddr (copied + i) (by omega), Nat.add_assoc]
  exact ⟨rfl, hin⟩

/-- A byte of a pass is a byte of guest memory. -/
theorem RamLayout.pass_byte (k : RamLayout regions)
    (hpass : Pass regions gpa size copied r page off n) (hlt : gpa.toNat + copied < 2 ^ 64) {i : Nat}
    (hi : i < n) : guestMemory regions h (gpa.toNat + copied + i) = some (h.byte page (off + i)) := by
  obtain ⟨ps, hp, hpage⟩ := hpass.pages
  obtain ⟨haddr, hc⟩ := (k.pass_address hpass hlt).2 i hi
  obtain ⟨hidx, hoff⟩ := hpage i hi
  rw [haddr] at hidx hoff
  rw [k.memory_of_covers hpass.mem hc, byteAt_page hp hc hidx, hoff]

/-- A pass that stores a block. -/
theorem RamLayout.pass_store (k : RamLayout regions)
    (hpass : Pass regions gpa size copied r page off n) (hlt : gpa.toNat + copied < 2 ^ 64) {data : List Byte}
    (hlen : data.length = n) :
    guestMemory regions (h.writeBytes page off data) =
      patch (guestMemory regions h) (gpa.toNat + copied) (data.map some) := by
  obtain ⟨ps, hp, hpage⟩ := hpass.pages
  obtain ⟨haddr, hc⟩ := (k.pass_address hpass hlt).2 0 hpass.pos
  obtain ⟨hidx, hoff⟩ := hpage 0 hpass.pos
  rw [haddr, Nat.add_zero] at hidx hoff
  rw [Nat.add_zero] at hc hoff
  have hin := hpass.inPage
  rw [← hoff] at hin ⊢
  exact k.memory_writeBytes hpass.mem hp hc hidx (by omega)

end Bytes

section Loop

variable {σ : Type} {regions : List GuestMemRegion}

/-- The loop of the accessors over RAM: it handles the longest prefix of the range, and keeps what every pass keeps. -/
theorem RamLayout.loop (k : RamLayout regions) (clamp : Bool) (act : U64 → Nat → Nat → Nat → σ → σ) (gpa : U64)
    (size : Nat) (P : Nat → σ → Prop) (step : ∀ copied r page off n st,
      Pass regions gpa size copied r page off n → gpa.toNat + copied < 2 ^ 64 → P copied st →
        P (copied + n) (act page off copied n st)) (st : σ) (hP : P 0 st) :
    ∃ n st', accessLoop regions clamp act gpa size none 0 st = .ok (n, st') ∧
      LongestPrefix regions gpa.toNat size n ∧ P n st' := by
  have haddr : ∀ j, gpa.toNat + j < 2 ^ 64 → (gpa + BitVec.ofNat 64 j).toNat = gpa.toNat + j :=
    fun j hj => add_offset rfl hj
  rcases accessLoop_spec k.linked clamp act size (fun n st => gpa.toNat + n < 2 ^ 64 ∧ P n st)
    (fun copied r page off n st hpass hk => ⟨(k.pass_address hpass hk.1).1, step copied r page off n st hpass hk.1 hk.2⟩)
    0 none st (fun _ hc => by cases hc) (by rw [BitVec.add_zero]; rfl) (Nat.zero_le _) ⟨gpa.isLt, hP⟩ with
    ⟨n, r, -, hn, -, hr, hp, -⟩ | ⟨n, st', hloop, -, hle, hback, hnone, hlt, hk⟩
  · have hback := k.backed r (regionAt_mem hr)
    rw [hp] at hback
    cases hback
  · refine ⟨n, st', hloop, ⟨hle, fun i hi => ?_, fun hn r hr hc => ?_⟩, hk⟩
    · obtain ⟨r, hr, hat, -⟩ := hback i (Nat.zero_le _) hi
      have hin := regionAt_contains hat
      rw [GuestMemRegion.contains_iff_covers (k.bounded r hr), haddr i (by omega)] at hin
      exact ⟨r, hr, hin⟩
    · have hin : r.contains (gpa + BitVec.ofNat 64 n) = true := by
        rw [GuestMemRegion.contains_iff_covers (k.bounded r hr), haddr n hlt]
        exact hc
      exact regionAt_none (hnone hn) r hr hin

end Loop

section Accessors

variable {s : VmState}

/-- The memory of a VM. -/
def VmState.guestMemory (s : VmState) : Nat → Option Byte := Vm.guestMemory s.memory.memRegions s.host

private theorem accessRet_eq_countRet {n size : Nat} (hle : n ≤ size) (hmax : size < 2 ^ 31) : accessRet n = countRet n := by
  by_cases h0 : n = 0
  · rw [countRet, if_pos h0, h0]
    rfl
  · rw [countRet, if_neg h0, accessRet_eq h0 (by omega)]

/-- What both accessors that write do: the pieces they store, one after the other, are the block `data`. -/
private theorem RamLayout.store (k : RamLayout s.memory.memRegions) (clamp : Bool) (gpa : U64) (data : List Byte)
    (chunk : Nat → Nat → List Byte)
    (hchunk : ∀ copied n, copied + n ≤ data.length → chunk copied n = (data.drop copied).take n) :
    ∃ n host, accessLoop s.memory.memRegions clamp
        (fun page off copied n (host : Host) => host.writeBytes page off (chunk copied n)) gpa data.length none 0 s.host =
          .ok (n, host) ∧ LongestPrefix s.memory.memRegions gpa.toNat data.length n ∧
      VmState.guestMemory { s with host } = patch s.guestMemory gpa.toNat ((data.take n).map some) := by
  refine k.loop clamp _ gpa data.length
    (fun n host => VmState.guestMemory { s with host } = patch s.guestMemory gpa.toNat ((data.take n).map some)) ?_ s.host ?_
  · intro copied r page off n host hpass hlt hk
    have hsize := hpass.inSize
    have hlen : (chunk copied n).length = n := by
      rw [hchunk copied n hsize, List.length_take, List.length_drop]
      omega
    have hstart : gpa.toNat + copied = gpa.toNat + ((data.take copied).map some).length := by
      rw [List.length_map, List.length_take]
      omega
    dsimp only [VmState.guestMemory] at hk ⊢
    rw [k.pass_store hpass hlt hlen, hk, hstart, patch_append, ← List.map_append, hchunk copied n hsize, ← List.take_add]
  · rw [List.take_zero, List.map_nil, patch_nil]

theorem RamLayout.copyTo (k : RamLayout s.memory.memRegions) (gpa : U64) (data : List Byte) (hpos : data.length ≠ 0)
    (hmax : data.length < 2 ^ 31) : ∃ n host, relmVmCopyToGuest s gpa data = .ok (countRet n, { s with host }) ∧
      LongestPrefix s.memory.memRegions gpa.toNat data.length n ∧
      VmState.guestMemory { s with host } = patch s.guestMemory gpa.toNat ((data.take n).map some) := by
  obtain ⟨n, host, hloop, hlong, hmem⟩ := k.store true gpa data (fun copied n => (data.drop copied).take n) fun _ _ _ => rfl
  refine ⟨n, host, ?_, hlong, hmem⟩
  rw [relmVmCopyToGuest, if_neg hpos, hloop]
  simp only [Except.map, accessRet_eq_countRet hlong.le hmax]

theorem RamLayout.zero (k : RamLayout s.memory.memRegions) (gpa : U64) {size : Nat} (hpos : size ≠ 0)
    (hmax : size < 2 ^ 31) : ∃ n host, relmVmZeroGuestMemory s gpa size = .ok (countRet n, { s with host }) ∧
      LongestPrefix s.memory.memRegions gpa.toNat size n ∧
      VmState.guestMemory { s with host } = patch s.guestMemory gpa.toNat (List.replicate n (some 0)) := by
  have hlen : (List.replicate size (0 : Byte)).length = size := List.length_replicate
  obtain ⟨n, host, hloop, hlong, hmem⟩ := k.store false gpa (List.replicate size 0) (fun _ n => List.replicate n 0)
    fun copied n hle => by
      rw [hlen] at hle
      rw [List.drop_replicate, List.take_replicate]
      congr 1
      omega
  rw [hlen] at hloop hlong
  have hle := hlong.le
  rw [List.take_replicate, List.map_replicate, Nat.min_eq_left hle] at hmem
  refine ⟨n, host, ?_, hlong, hmem⟩
  rw [relmVmZeroGuestMemory, if_neg hpos, hloop]
  simp only [Except.map, accessRet_eq_countRet hle hmax]

theorem RamLayout.copyFrom (k : RamLayout s.memory.memRegions) (gpa : U64) {size : Nat} (hpos : size ≠ 0)
    (hmax : size < 2 ^ 31) : ∃ n data, relmVmCopyFromGuest s gpa size = .ok (countRet n, data) ∧
      LongestPrefix s.memory.memRegions gpa.toNat size n ∧
      data.map some = (List.range n).map fun i => s.guestMemory (gpa.toNat + i) := by
  obtain ⟨n, data, hloop, hlong, hdata⟩ := k.loop true (fun page off _ n acc => acc ++ s.host.readBytes page off n) gpa size
    (fun n data => data.map some = (List.range n).map fun i => s.guestMemory (gpa.toNat + i)) (by
      intro copied r page off n data hpass hlt hk
      rw [List.map_append, hk, List.range_add, List.map_append, Host.readBytes, List.map_map, List.map_map]
      congr 1
      refine List.map_congr_left fun i hi => ?_
      have hbyte := k.pass_byte (h := s.host) hpass hlt (List.mem_range.mp hi)
      rw [Nat.add_assoc] at hbyte
      exact hbyte.symm) [] rfl
  refine ⟨n, data, ?_, hlong, hdata⟩
  rw [relmVmCopyFromGuest, if_neg hpos, hloop]
  simp only [Except.map, accessRet_eq_countRet hlong.le hmax]

end Accessors

theorem LongestPrefix.unique {regions : List GuestMemRegion} {start size n m : Nat}
    (hn : LongestPrefix regions start size n) (hm : LongestPrefix regions start size m) : n = m := by
  rcases Nat.lt_trichotomy n m with hlt | heq | hlt
  · obtain ⟨r, hr, hc⟩ := hm.covered n hlt
    exact absurd hc (hn.maximal (lt_of_lt_of_le hlt hm.le) r hr)
  · exact heq
  · obtain ⟨r, hr, hc⟩ := hn.covered m hlt
    exact absurd hc (hm.maximal (lt_of_lt_of_le hlt hn.le) r hr)

/-- What the three accessors do with a range of which the first `n` bytes are RAM. -/
structure ExactCopies (s : VmState) (gpa : U64) (data : List Byte) (n : Nat) : Prop where
  copyTo : ∃ host, relmVmCopyToGuest s gpa data = .ok (countRet n, { s with host }) ∧
    VmState.guestMemory { s with host } = patch s.guestMemory gpa.toNat ((data.take n).map some) ∧
    relmVmCopyFromGuest { s with host } gpa data.length = .ok (countRet n, data.take n)
  copyFrom : ∃ buf, relmVmCopyFromGuest s gpa data.length = .ok (countRet n, buf) ∧
    buf.map some = (List.range n).map fun i => s.guestMemory (gpa.toNat + i)
  zero : ∃ host, relmVmZeroGuestMemory s gpa data.length = .ok (countRet n, { s with host }) ∧
    VmState.guestMemory { s with host } = patch s.guestMemory gpa.toNat (List.replicate n (some 0))

/-- Copies to and from guest memory, and zeroing it, handle exactly the longest prefix of the range that is RAM. -/
theorem guest_copies_exact {s : VmState} (k : RamLayout s.memory.memRegions) (gpa : U64) (data : List Byte)
    (hpos : 0 < data.length) (hmax : data.length < 2 ^ 31) :
    ∃ n, LongestPrefix s.memory.memRegions gpa.toNat data.length n ∧ ExactCopies s gpa data n := by
  have hne : data.length ≠ 0 := by omega
  obtain ⟨n, host, hto, hlong, hmem⟩ := k.copyTo gpa data hne hmax
  refine ⟨n, hlong, ⟨host, hto, hmem, ?_⟩, ?_, ?_⟩
  · -- what is read back is what the patched memory holds
    obtain ⟨m, buf, hfrom, hlong', hbuf⟩ := RamLayout.copyFrom (s := { s with host }) k gpa hne hmax
    obtain rfl := hlong'.unique hlong
    rw [hfrom]
    have hle := hlong.le
    have heq : buf.map some = (data.take m).map some := by
      rw [hbuf, hmem]
      refine List.ext_getElem (by simp [hle]) fun i h1 h2 => ?_
      rw [List.length_map] at h1 h2
      rw [List.getElem_map, List.getElem_range, patch_of_mem (by omega) (by rw [List.length_map]; omega)]
      simp only [Nat.add_sub_cancel_left]
    rw [List.map_injective_iff.mpr (Option.some_injective _) heq]
  · obtain ⟨m, buf, hfrom, hlong', hbuf⟩ := k.copyFrom gpa hne hmax
    obtain rfl := hlong'.unique hlong
    exact ⟨buf, hfrom, hbuf⟩
  · obtain ⟨m, host', hzero, hlong', hmem'⟩ := k.zero gpa hne hmax
    obtain rfl := hlong'.unique hlong
    exact ⟨host', hzero, hmem'⟩

/-- Two pages of RAM in two regions, the upper one linked last. -/
def adjacentRegions : List GuestMemRegion :=
  [⟨2, 3, 0x1000#64, 0x1000#64, some [0x5000#64], 1, relmMemFRead⟩,
    ⟨0, 1, 0#64, 0x1000#64, some [0x9000#64], 1, relmMemFRead⟩]

theorem adjacent_layout : RamLayout adjacentRegions where
  linked := by
    intro r hr
    simp only [adjacentRegions, List.mem_cons, List.not_mem_nil, or_false] at hr
    rcases hr with rfl | rfl
    · exact ⟨by decide, fun _ => by decide, by decide, fun ps hp => by cases hp; decide⟩
    · exact ⟨by decide, fun _ => by decide, by decide, fun ps hp => by cases hp; decide⟩
  backed := by decide
  bounded := by decide
  disjoint := by
    refine List.pairwise_pair.mpr (Or.inr ?_)
    decide
  frames := by decide

def adjacentVm : VmState where
  host := Host.idle [] []
  ept := ⟨0, 0x1000#64, 0x1000#64, 0x101E#64, 6#64, false, {}, [0x1000#64]⟩
  memory := ⟨adjacentRegions, 0x2000#64, []⟩
  rom := none

/-- Four bytes across the border of the two regions. -/
theorem guest_copies_exact_adjacent : RamLayout adjacentVm.memory.memRegions ∧
    ∃ n, LongestPrefix adjacentVm.memory.memRegions 0xFFE 4 n ∧ ExactCopies adjacentVm 0xFFE#64 [1, 2, 3, 4] n :=
  ⟨adjacent_layout, guest_copies_exact adjacent_layout 0xFFE#64 [1, 2, 3, 4] (by decide) (by decide)⟩

end Relm.Vm
