import Mathlib.Data.List.Dedup
import Relm.Lib.TableTree
import Relm.Lib.Word

/-! The host kernel services the hypervisor calls: physical pages, the page allocator and the slab.
Every allocation takes its outcome from a list of answers, so a run covers every pattern of failure. -/
namespace Relm
open Relm.Lib.TableTree Relm.Lib.Word

abbrev U64 := BitVec 64
abbrev U32 := BitVec 32
abbrev Byte := BitVec 8

/-- Kernel error numbers used by the modelled functions. -/
inductive Errno
  | enoent | eio | e2big | enomem | efault | ebusy | eexist | einval | enospc | erange | enosys | eopnotsupp | enotsupp
  deriving DecidableEq, Repr

namespace Errno

/-- The value behind the symbolic name. -/
def code : Errno → Int
  | enoent => 2 | eio => 5 | e2big => 7 | enomem => 12 | efault => 14 | ebusy => 16 | eexist => 17 | einval => 22
  | enospc => 28 | erange => 34 | enosys => 38 | eopnotsupp => 95 | enotsupp => 524

theorem code_pos (e : Errno) : 0 < e.code := by
  cases e <;> decide

end Errno

/-- `PAGE_SIZE`. -/
def pageSize : U64 := 4096#64

/-- `PAGE_ALIGN`: round up to a page boundary, wrapping as the macro does. -/
def pageAlign (x : U64) : U64 := (x + 4095#64) &&& ~~~4095#64

/-- Physical page addresses: 4 KiB aligned and below the architectural 52-bit limit. -/
def isFrame (pa : U64) : Prop := pa.toNat % 4096 = 0 ∧ pa.toNat < 2 ^ 52

instance (pa : U64) : Decidable (isFrame pa) := inferInstanceAs (Decidable (_ ∧ _))

/-- Host memory and allocators. A page is named by its physical address: the direct map makes
`phys_to_virt` and `virt_to_phys` inverse renamings. `freed` and `badFree` record history only. -/
structure Host where
  /-- Physical memory, a page as its 512 words. -/
  mem : U64 → Fin 512 → U64
  /-- Frames the page allocator manages; device memory is not among them. -/
  managed : U64 → Bool
  /-- Frames handed out. -/
  live : List U64
  /-- Frames given back and not handed out again since. -/
  freed : List U64
  /-- Outcomes of the coming page allocations. -/
  answers : List (Option U64)
  /-- Some page allocation has failed. -/
  oom : Bool
  /-- Slab objects handed out. -/
  slab : List Nat
  /-- Name of the next slab object. -/
  slabNext : Nat
  /-- Outcomes of the coming slab allocations. -/
  slabAnswers : List Bool
  /-- Something not handed out has been freed. -/
  badFree : Bool

namespace Host

/-- Nothing handed out yet, every frame managed, and the given outcomes to come. -/
def idle (answers : List (Option U64)) (slabAnswers : List Bool) : Host where
  mem _ _ := 0#64
  managed _ := true
  live := []
  freed := []
  answers
  oom := false
  slab := []
  slabNext := 0
  slabAnswers
  badFree := false

/-- A frame the page allocator may hand out now. -/
def available (h : Host) (pa : U64) : Prop := isFrame pa ∧ h.managed pa ∧ pa ∉ h.live

instance (h : Host) (pa : U64) : Decidable (h.available pa) := inferInstanceAs (Decidable (_ ∧ _ ∧ _))

/-- Allocation failure. -/
def refuse (h : Host) : Host := { h with answers := h.answers.tail, oom := true }

/-- Hand out a zeroed page. -/
def take (h : Host) (pa : U64) : Host :=
  { h with mem := fill h.mem pa 0#64, live := pa :: h.live, freed := h.freed.filter (· ≠ pa), answers := h.answers.tail }

/-- `__get_free_page(__GFP_ZERO)` and `alloc_page(__GFP_ZERO)`. -/
def getFreePage (h : Host) : Option U64 × Host :=
  match h.answers.head?.join with
  | some pa => if h.available pa then (some pa, h.take pa) else (none, h.refuse)
  | none => (none, h.refuse)

/-- `free_page` and `__free_page`. -/
def freePage (h : Host) (pa : U64) : Host :=
  if pa ∈ h.live then { h with live := h.live.erase pa, freed := pa :: h.freed } else { h with badFree := true }

/-- The pages of a block of the given order. -/
def blockPages (pa : U64) (order : Nat) : List U64 := (List.range (2 ^ order)).map fun i => pa + BitVec.ofNat 64 i * pageSize

/-- Hand out several pages at once, zeroed. -/
def takeAll (h : Host) (l : List U64) : Host :=
  { h with mem := fun f => if f ∈ l then fun _ => 0#64 else h.mem f, live := l ++ h.live,
           freed := h.freed.filter (· ∉ l), answers := h.answers.tail }

/-- `__get_free_pages(__GFP_ZERO, order)`: a naturally aligned block. -/
def getFreePages (h : Host) (order : Nat) : Option U64 × Host :=
  match h.answers.head?.join with
  | some pa =>
    if pa.toNat % (4096 * 2 ^ order) = 0 ∧ (blockPages pa order).Nodup ∧ ∀ f ∈ blockPages pa order, h.available f then
      (some pa, h.takeAll (blockPages pa order))
    else (none, h.refuse)
  | none => (none, h.refuse)

/-- `free_pages`. -/
def freePages (h : Host) (pa : U64) (order : Nat) : Host :=
  if ∀ f ∈ blockPages pa order, f ∈ h.live then
    { h with live := h.live.filter (· ∉ blockPages pa order), freed := blockPages pa order ++ h.freed }
  else { h with badFree := true }

/-- Hand out a slab object. -/
def slabTake (h : Host) : Host :=
  { h with slab := h.slabNext :: h.slab, slabNext := h.slabNext + 1, slabAnswers := h.slabAnswers.tail }

/-- `kzalloc`, `kcalloc` and `kmalloc`: the object, or `NULL`. -/
def kzalloc (h : Host) : Option Nat × Host :=
  match h.slabAnswers.head? with
  | some true => (some h.slabNext, h.slabTake)
  | _ => (none, { h with slabAnswers := h.slabAnswers.tail })

/-- `kfree`. -/
def kfree (h : Host) (obj : Nat) : Host :=
  if obj ∈ h.slab then { h with slab := h.slab.erase obj } else { h with badFree := true }

/-- Store one word of a page. -/
def writeWord (h : Host) (pa : U64) (i : Fin 512) (w : U64) : Host := { h with mem := setSlot h.mem pa i w }

/-- The word of a page that holds an offset. -/
def wordIndex (off : Nat) : Fin 512 := ⟨off / 8 % 512, Nat.mod_lt _ (by decide)⟩

/-- A byte of a page. -/
def byte (h : Host) (pa : U64) (off : Nat) : Byte := getByte (h.mem pa (wordIndex off)) (off % 8)

/-- Store one byte of a page. -/
def setByte (h : Host) (pa : U64) (off : Nat) (b : Byte) : Host :=
  h.writeWord pa (wordIndex off) (putByte (h.mem pa (wordIndex off)) (off % 8) b)

/-- `memcpy` into a page. -/
def writeBytes (h : Host) (pa : U64) (off : Nat) : List Byte → Host
  | [] => h
  | b :: l => (h.setByte pa off b).writeBytes pa (off + 1) l

/-- `memcpy` from a page. -/
def readBytes (h : Host) (pa : U64) (off n : Nat) : List Byte := (List.range n).map fun i => h.byte pa (off + i)

@[simp] theorem refuse_mem (h : Host) : h.refuse.mem = h.mem := rfl
@[simp] theorem refuse_live (h : Host) : h.refuse.live = h.live := rfl
@[simp] theorem refuse_freed (h : Host) : h.refuse.freed = h.freed := rfl
@[simp] theorem refuse_managed (h : Host) : h.refuse.managed = h.managed := rfl
@[simp] theorem refuse_oom (h : Host) : h.refuse.oom = true := rfl
@[simp] theorem take_mem (h : Host) (pa : U64) : (h.take pa).mem = fill h.mem pa 0#64 := rfl
@[simp] theorem take_live (h : Host) (pa : U64) : (h.take pa).live = pa :: h.live := rfl
@[simp] theorem take_freed (h : Host) (pa : U64) : (h.take pa).freed = h.freed.filter (· ≠ pa) := rfl
@[simp] theorem take_managed (h : Host) (pa : U64) : (h.take pa).managed = h.managed := rfl
@[simp] theorem take_oom (h : Host) (pa : U64) : (h.take pa).oom = h.oom := rfl
@[simp] theorem writeWord_mem (h : Host) (pa : U64) (i : Fin 512) (w : U64) :
    (h.writeWord pa i w).mem = setSlot h.mem pa i w := rfl
@[simp] theorem writeWord_live (h : Host) (pa : U64) (i : Fin 512) (w : U64) : (h.writeWord pa i w).live = h.live := rfl
@[simp] theorem writeWord_freed (h : Host) (pa : U64) (i : Fin 512) (w : U64) : (h.writeWord pa i w).freed = h.freed := rfl
@[simp] theorem writeWord_managed (h : Host) (pa : U64) (i : Fin 512) (w : U64) :
    (h.writeWord pa i w).managed = h.managed := rfl
@[simp] theorem writeWord_oom (h : Host) (pa : U64) (i : Fin 512) (w : U64) : (h.writeWord pa i w).oom = h.oom := rfl

theorem byte_setByte (h : Host) (pa pa' : U64) {off off' : Nat} (ho : off < 4096) (ho' : off' < 4096) (b : Byte) :
    (h.setByte pa off b).byte pa' off' = if pa' = pa ∧ off' = off then b else h.byte pa' off' := by
  have hidx : wordIndex off' = wordIndex off ↔ off' / 8 = off / 8 := by
    simp only [wordIndex, Fin.mk.injEq]
    omega
  by_cases hw : pa' = pa ∧ wordIndex off' = wordIndex off
  · have h8 := hidx.mp hw.2
    rw [byte, setByte, writeWord_mem, hw.1, hw.2, setSlot_same,
      getByte_putByte _ (Nat.mod_lt _ (by decide)) (Nat.mod_lt _ (by decide))]
    by_cases hm : off' % 8 = off % 8
    · rw [if_pos hm, if_pos ⟨rfl, by omega⟩]
    · rw [if_neg hm, if_neg (fun hc => hm (by rw [hc.2])), byte, hw.2]
  · rw [byte, setByte, writeWord_mem, setSlot_other _ _ (not_and_or.mp hw), if_neg (fun hc => hw ⟨hc.1, by rw [hc.2]⟩), byte]

/-- What a copy into a page leaves at every byte of memory. -/
theorem byte_writeBytes (h : Host) (pa pa' : U64) (l : List Byte) {off off' : Nat} (ho : off + l.length ≤ 4096)
    (ho' : off' < 4096) : (h.writeBytes pa off l).byte pa' off' =
      if pa' = pa ∧ off ≤ off' ∧ off' < off + l.length then l.getD (off' - off) 0 else h.byte pa' off' := by
  induction l generalizing h off with
  | nil => simp [writeBytes]
  | cons b l ih =>
    simp only [List.length_cons] at ho
    rw [writeBytes, ih _ (by omega), byte_setByte h pa pa' (by omega) ho']
    by_cases hp : pa' = pa
    · rcases lt_trichotomy off' off with hlt | rfl | hgt
      · simp [hp, show ¬ off + 1 ≤ off' by omega, show ¬ off ≤ off' by omega, show ¬ off' = off by omega]
      · simp [hp]
      · have hsub : off' - off = (off' - (off + 1)) + 1 := by omega
        have hlen : off' < off + 1 + l.length ↔ off' < off + (l.length + 1) := by omega
        simp [hp, show off + 1 ≤ off' by omega, show off ≤ off' by omega, show ¬ off' = off by omega, hsub, hlen]
    · simp [hp]

/-- An allocation fails and changes nothing, or hands out an available frame. -/
theorem getFreePage_cases (h : Host) : h.getFreePage = (none, h.refuse) ∨
    ∃ pa, h.available pa ∧ h.getFreePage = (some pa, h.take pa) := by
  unfold getFreePage
  split
  · split
    · exact .inr ⟨_, ‹_›, rfl⟩
    · exact .inl rfl
  · exact .inl rfl

theorem kzalloc_cases (h : Host) : h.kzalloc = (none, { h with slabAnswers := h.slabAnswers.tail }) ∨
    h.kzalloc = (some h.slabNext, h.slabTake) := by
  unfold kzalloc
  split
  · exact .inr rfl
  · exact .inl rfl

/-- The pages `new` were handed out, most recent first, and nothing else happened to the allocators. -/
structure Allocated (h h' : Host) (new : List U64) : Prop where
  live : h'.live = new ++ h.live
  freed : h'.freed = h.freed.filter (· ∉ new)
  fresh : ∀ f ∈ new, isFrame f ∧ h.managed f = true ∧ f ∉ h.live
  nodup : new.Nodup
  managed : h'.managed = h.managed
  slab : h'.slab = h.slab
  badFree : h'.badFree = h.badFree
  oom : h.oom = true → h'.oom = true

namespace Allocated

variable {h h' h'' : Host} {new more : List U64}

theorem refl (h : Host) : Allocated h h [] := by constructor <;> simp

theorem trans (a : Allocated h h' new) (b : Allocated h' h'' more) : Allocated h h'' (more ++ new) where
  live := by rw [b.live, a.live, List.append_assoc]
  freed := by
    rw [b.freed, a.freed, List.filter_filter]
    congr 1
    funext f
    simp
  fresh f hf := by
    rcases List.mem_append.mp hf with hf | hf
    · obtain ⟨hp, hm, hl⟩ := b.fresh f hf
      rw [a.live] at hl
      exact ⟨hp, a.managed ▸ hm, fun hc => hl (List.mem_append_right _ hc)⟩
    · exact a.fresh f hf
  nodup := by
    refine List.nodup_append.mpr ⟨b.nodup, a.nodup, ?_⟩
    intro f hf g hg hfg
    have hl := (b.fresh f hf).2.2
    rw [a.live] at hl
    exact hl (List.mem_append_left _ (hfg ▸ hg))
  managed := b.managed.trans a.managed
  slab := b.slab.trans a.slab
  badFree := b.badFree.trans a.badFree
  oom ho := b.oom (a.oom ho)

theorem refused (h : Host) : Allocated h h.refuse [] := by constructor <;> simp [refuse]

theorem took {pa : U64} (hav : h.available pa) : Allocated h (h.take pa) [pa] where
  live := rfl
  freed := by simp
  fresh f hf := by
    obtain rfl := List.mem_singleton.mp hf
    exact ⟨hav.1, hav.2.1, hav.2.2⟩
  nodup := List.nodup_singleton pa
  managed := rfl
  slab := rfl
  badFree := rfl
  oom := id

theorem tookAll {l : List U64} (hnd : l.Nodup) (hav : ∀ f ∈ l, h.available f) : Allocated h (h.takeAll l) l where
  live := rfl
  freed := rfl
  fresh f hf := ⟨(hav f hf).1, (hav f hf).2.1, (hav f hf).2.2⟩
  nodup := hnd
  managed := rfl
  slab := rfl
  badFree := rfl
  oom := id

end Allocated

theorem getFreePages_cases (h : Host) (order : Nat) : h.getFreePages order = (none, h.refuse) ∨
    ∃ pa, (blockPages pa order).Nodup ∧ (∀ f ∈ blockPages pa order, h.available f) ∧
      h.getFreePages order = (some pa, h.takeAll (blockPages pa order)) := by
  unfold getFreePages
  split
  · split
    · rename_i hc
      exact .inr ⟨_, hc.2.1, hc.2.2, rfl⟩
    · exact .inl rfl
  · exact .inl rfl

theorem blockPages_zero (pa : U64) : blockPages pa 0 = [pa] := by simp [blockPages]

/-- A single page, when the allocator has one. -/
theorem getFreePages_zero {h : Host} (pa : U64) (ha : h.answers.head?.join = some pa) (hav : h.available pa) :
    h.getFreePages 0 = (some pa, h.takeAll [pa]) := by
  unfold getFreePages
  rw [ha]
  simp only [blockPages_zero]
  rw [if_pos ⟨by simpa using hav.1.1, List.nodup_singleton pa, by simpa using hav⟩]

/-- The allocator's books are consistent: frames are handed out once, and only managed frames. -/
structure WellFormed (h : Host) : Prop where
  nodup : h.live.Nodup
  managed : ∀ f ∈ h.live, h.managed f = true
  freedManaged : ∀ f ∈ h.freed, h.managed f = true
  disjoint : ∀ f ∈ h.live, f ∉ h.freed

namespace WellFormed

variable {h h' : Host}

theorem of_untouched (hl : h.live = []) (hf : h.freed = []) : WellFormed h := by
  constructor <;> simp [hl, hf]

theorem congr (w : WellFormed h) (hl : h'.live = h.live) (hf : h'.freed = h.freed) (hm : h'.managed = h.managed) :
    WellFormed h' := by
  obtain ⟨h1, h2, h3, h4⟩ := w
  constructor <;> simpa only [hl, hf, hm]

theorem allocated {new : List U64} (w : WellFormed h) (a : Allocated h h' new) : WellFormed h' where
  nodup := by
    rw [a.live]
    refine List.nodup_append.mpr ⟨a.nodup, w.nodup, ?_⟩
    intro f hf g hg hfg
    exact (a.fresh f hf).2.2 (hfg ▸ hg)
  managed f hf := by
    rw [a.live] at hf
    rw [a.managed]
    rcases List.mem_append.mp hf with hf | hf
    · exact (a.fresh f hf).2.1
    · exact w.managed f hf
  freedManaged f hf := by
    rw [a.freed] at hf
    rw [a.managed]
    exact w.freedManaged f (List.mem_filter.mp hf).1
  disjoint f hf hc := by
    rw [a.live] at hf
    rw [a.freed] at hc
    obtain ⟨hc, hn⟩ := List.mem_filter.mp hc
    rcases List.mem_append.mp hf with hf | hf
    · simp [hf] at hn
    · exact w.disjoint f hf hc

theorem freePage (w : WellFormed h) (pa : U64) : WellFormed (h.freePage pa) := by
  unfold Host.freePage
  split
  · rename_i hpa
    refine ⟨w.nodup.erase pa, fun f hf => w.managed f (List.mem_of_mem_erase hf), ?_, ?_⟩
    · intro f hf
      rcases List.mem_cons.mp hf with rfl | hf
      · exact w.managed f hpa
      · exact w.freedManaged f hf
    · intro f hf hc
      obtain ⟨hne, hf⟩ := w.nodup.mem_erase_iff.mp hf
      rcases List.mem_cons.mp hc with rfl | hc
      · exact hne rfl
      · exact w.disjoint f hf hc
  · exact w.congr rfl rfl rfl

theorem freePages (w : WellFormed h) (pa : U64) (order : Nat) : WellFormed (h.freePages pa order) := by
  unfold Host.freePages
  split
  · rename_i hpa
    refine ⟨w.nodup.filter _, fun f hf => w.managed f (List.mem_filter.mp hf).1, ?_, ?_⟩
    · intro f hf
      rcases List.mem_append.mp hf with hf | hf
      · exact w.managed f (hpa f hf)
      · exact w.freedManaged f hf
    · intro f hf hc
      obtain ⟨hf, hn⟩ := List.mem_filter.mp hf
      rcases List.mem_append.mp hc with hc | hc
      · simp [hc] at hn
      · exact w.disjoint f hf hc
  · exact w.congr rfl rfl rfl

end WellFormed

@[simp] theorem freePage_mem (h : Host) (pa : U64) : (h.freePage pa).mem = h.mem := by
  unfold freePage; split <;> rfl

@[simp] theorem kzalloc_mem (h : Host) : h.kzalloc.2.mem = h.mem := by unfold kzalloc; split <;> rfl
@[simp] theorem kzalloc_live (h : Host) : h.kzalloc.2.live = h.live := by unfold kzalloc; split <;> rfl
@[simp] theorem kzalloc_freed (h : Host) : h.kzalloc.2.freed = h.freed := by unfold kzalloc; split <;> rfl
@[simp] theorem kzalloc_managed (h : Host) : h.kzalloc.2.managed = h.managed := by unfold kzalloc; split <;> rfl
@[simp] theorem kzalloc_oom (h : Host) : h.kzalloc.2.oom = h.oom := by unfold kzalloc; split <;> rfl
@[simp] theorem kfree_mem (h : Host) (o : Nat) : (h.kfree o).mem = h.mem := by unfold kfree; split <;> rfl
@[simp] theorem kfree_live (h : Host) (o : Nat) : (h.kfree o).live = h.live := by unfold kfree; split <;> rfl
@[simp] theorem kfree_freed (h : Host) (o : Nat) : (h.kfree o).freed = h.freed := by unfold kfree; split <;> rfl
@[simp] theorem kfree_managed (h : Host) (o : Nat) : (h.kfree o).managed = h.managed := by unfold kfree; split <;> rfl

end Host

end Relm
