import Relm.Boot.Layout
import Relm.Host.Owned
import Relm.Lib.Outcome
import Relm.Lib.PageWalk
import Relm.Vm.HostView
import Relm.Vmx.GuestTables
import Relm.Vmx.VcpuInit

/-! From the files to the first instruction: a VM that has been created, booted and given a VCPU, and what the processor
finds through the guest page tables and the EPT when it enters the guest. -/
namespace Relm.Vm
open Relm.Ept Relm.Ept.EptState Relm.Lib.Outcome Relm.Lib.Segments

/-- The frames of guest RAM. -/
def VmState.ramFrames (s : VmState) : List U64 := s.memory.memRegions.flatMap fun region => region.pages.getD []

/-- Nothing but the contents of guest RAM has changed. -/
structure RamOnly (s t : VmState) : Prop where
  ept : t.ept = s.ept
  memory : t.memory = s.memory
  live : t.host.live = s.host.live
  freed : t.host.freed = s.host.freed
  managed : t.host.managed = s.host.managed
  answers : t.host.answers = s.host.answers
  mem : ∀ f ∉ s.ramFrames, t.host.mem f = s.host.mem f

namespace RamOnly

variable {s t u : VmState}

theorem refl (s : VmState) : RamOnly s s := ⟨rfl, rfl, rfl, rfl, rfl, rfl, fun _ _ => rfl⟩

theorem trans (h : RamOnly s t) (h' : RamOnly t u) : RamOnly s u where
  ept := h'.ept.trans h.ept
  memory := h'.memory.trans h.memory
  live := h'.live.trans h.live
  freed := h'.freed.trans h.freed
  managed := h'.managed.trans h.managed
  answers := h'.answers.trans h.answers
  mem f hf := by
    have hframes : t.ramFrames = s.ramFrames := by rw [VmState.ramFrames, h.memory, VmState.ramFrames]
    rw [h'.mem f (hframes ▸ hf), h.mem f hf]

theorem linked (h : RamOnly s t) (hl : ∀ r ∈ s.memory.memRegions, r.Linked) : ∀ r ∈ t.memory.memRegions, r.Linked := by
  rw [h.memory]
  exact hl

private theorem writeBytes (host : Host) (pa : U64) (off : Nat) (data : List Byte) :
    (host.writeBytes pa off data).live = host.live ∧ (host.writeBytes pa off data).freed = host.freed ∧
      (host.writeBytes pa off data).managed = host.managed ∧ (host.writeBytes pa off data).answers = host.answers ∧
      ∀ f, f ≠ pa → (host.writeBytes pa off data).mem f = host.mem f := by
  induction data generalizing host off with
  | nil => exact ⟨rfl, rfl, rfl, rfl, fun _ _ => rfl⟩
  | cons b data ih =>
    obtain ⟨h1, h2, h3, h4, h5⟩ := ih (host.setByte pa off b) (off + 1)
    refine ⟨h1, h2, h3, h4, fun f hf => (h5 f hf).trans ?_⟩
    funext i
    exact Lib.TableTree.setSlot_other _ _ (.inl hf)

/-- A page of guest RAM is written. -/
private theorem write (h : RamOnly s t) {page : U64} (hp : page ∈ s.ramFrames) (off : Nat) (data : List Byte) :
    RamOnly s { t with host := t.host.writeBytes page off data } := by
  obtain ⟨h1, h2, h3, h4, h5⟩ := writeBytes t.host page off data
  refine ⟨h.ept, h.memory, h1.trans h.live, h2.trans h.freed, h3.trans h.managed, h4.trans h.answers, fun f hf => ?_⟩
  have hne : f ≠ page := fun hc => hf (hc ▸ hp)
  exact (h5 f hne).trans (h.mem f hf)

/-- What both accessors that write do. -/
private theorem access (hl : ∀ r ∈ s.memory.memRegions, r.Linked) (clamp : Bool) (chunk : Nat → Nat → List Byte)
    (gpa : U64) (size : Nat) : Ends (fun r => RamOnly s r.2) ((accessLoop s.memory.memRegions clamp
      (fun page off copied n (host : Host) => host.writeBytes page off (chunk copied n)) gpa size none 0 s.host).map
        fun r => (accessRet r.1, { s with host := r.2 })) := by
  have hstep : ∀ copied region page off n (host : Host), Pass s.memory.memRegions gpa size copied region page off n →
      RamOnly s { s with host } → RamOnly s { s with host := host.writeBytes page off (chunk copied n) } := by
    intro copied region page off n host hpass h
    obtain ⟨pages, hpages, hpage⟩ := hpass.pages
    have hmem : page ∈ s.ramFrames := by
      refine List.mem_flatMap.mpr ⟨region, hpass.mem, ?_⟩
      rw [hpages]
      exact List.mem_of_getElem? (hpage 0 hpass.pos).1
    exact h.write hmem off (chunk copied n)
  rcases @accessLoop_spec Host s.memory.memRegions gpa hl clamp
    (fun page off copied n (host : Host) => host.writeBytes page off (chunk copied n)) size
    (fun _ host => RamOnly s { s with host }) hstep 0 none s.host (fun _ hc => by cases hc) (by rw [BitVec.add_zero]; rfl)
    (Nat.zero_le _) (refl s) with ⟨n, r, -, -, -, -, -, hloop⟩ | ⟨n, host, hloop, -, -, -, -, h⟩
  · rw [hloop]
    intro a ha
    cases ha
  · rw [hloop]
    exact .ok h

theorem copyToGuest (hl : ∀ r ∈ s.memory.memRegions, r.Linked) (gpa : U64) (data : List Byte) :
    Ends (fun r => RamOnly s r.2) (relmVmCopyToGuest s gpa data) := by
  unfold relmVmCopyToGuest
  split
  · exact .ok (refl s)
  · exact access hl true (fun copied n => (data.drop copied).take n) gpa data.length

/-- A later write on top of an earlier one. -/
theorem after {α : Type} {g : α → VmState} {x : Except HostFault α} (h : RamOnly s t) (hx : Ends (fun a => RamOnly t (g a)) x) :
    Ends (fun a => RamOnly s (g a)) x := hx.mono fun _ ha => h.trans ha

/-- Go on after a write with what it returned. -/
theorem andThen {α : Type} {Q : α → Prop} {x : Except HostFault (Int × VmState)} {f : Int × VmState → Except HostFault α}
    (hx : Ends (fun r => RamOnly s r.2) x) (hf : ∀ ret t, RamOnly s t → Ends Q (f (ret, t))) : Ends Q (x >>= f) :=
  hx.bind fun r h => hf r.1 r.2 h

/-- A change of the slab. -/
theorem slab {host : Host} (h : RamOnly s t) (hl : host.live = t.host.live) (hf : host.freed = t.host.freed)
    (hm : host.managed = t.host.managed) (ha : host.answers = t.host.answers) (hmem : host.mem = t.host.mem) :
    RamOnly s { t with host } :=
  ⟨h.ept, h.memory, hl.trans h.live, hf.trans h.freed, hm.trans h.managed, ha.trans h.answers, fun f hn => by
    rw [show ({ t with host } : VmState).host.mem f = t.host.mem f from congrFun hmem f]
    exact h.mem f hn⟩

theorem kfree (h : RamOnly s t) (obj : Nat) : RamOnly s { t with host := t.host.kfree obj } := by
  rw [Host.kfree]
  split
  · exact h.slab rfl rfl rfl rfl rfl
  · exact h.slab rfl rfl rfl rfl rfl

/-- Creating the guest page tables writes guest RAM, and answers with where they lie. -/
theorem createGuestPageTables (hl : ∀ r ∈ s.memory.memRegions, r.Linked) :
    Ends (fun r => RamOnly s r.2 ∧ ∀ gpa, r.1 = .ok gpa → gpa = guestTableBase s) (relmEptCreateGuestPageTables s) := by
  unfold relmEptCreateGuestPageTables
  rcases s.host.kzalloc_cases with hk | hk
  · rw [hk]
    exact .ok ⟨(refl s).slab rfl rfl rfl rfl rfl, fun gpa hgpa => by cases hgpa⟩
  rw [hk]
  dsimp only
  have h0 : RamOnly s { s with host := s.host.slabTake } := (refl s).slab rfl rfl rfl rfl rfl
  refine andThen (h0.after (copyToGuest (h0.linked hl) _ _)) fun ret t h => ?_
  dsimp only
  split
  · exact .ok ⟨h.kfree _, fun gpa hgpa => by cases hgpa⟩
  refine andThen (h.after (copyToGuest (h.linked hl) _ _)) fun ret t h => ?_
  dsimp only
  split
  · exact .ok ⟨h.kfree _, fun gpa hgpa => by cases hgpa⟩
  refine andThen (h.after (copyToGuest (h.linked hl) _ _)) fun ret t h => ?_
  dsimp only
  split
  · exact .ok ⟨h.kfree _, fun gpa hgpa => by cases hgpa⟩
  · exact .ok ⟨h.kfree _, fun gpa hgpa => (Except.ok.inj hgpa).symm⟩

/-- The EPT still maps the layout, whose frames are no tables. -/
theorem backs {l : Layout U64} (h : RamOnly s t) (hb : Backs l s) (ha : ∀ f ∈ s.ramFrames, f ∉ s.ept.tables) : Backs l t := by
  have hfr : Framed s.eptState t.eptState :=
    ⟨h.ept, fun f hf => h.mem f fun hc => ha f hc hf, fun f hf => by
      rw [show t.eptState.host.live = s.host.live from h.live]
      exact hb.shape.live f hf⟩
  refine ⟨hfr.shape hb.shape, fun a => (hfr.pde hb.shape a).trans (hb.noBlocks a), hb.books.congr h.live h.freed h.managed,
    fun a => (congrArg _ (hfr.pte hb.shape a)).trans (hb.leaf a), fun n f hf => ?_, hb.inj⟩
  rw [h.live]
  exact hb.frames n f hf

end RamOnly

end Relm.Vm

namespace Relm.Boot
open Relm.Ept Relm.Ept.EptState Relm.Lib.Outcome Relm.Lib.Patch Relm.Lib.Segments Relm.Vm

section Loading

variable {s t : VmState}

end Loading

section Memory
open Relm.Host Relm.Lib.PageWalk Relm.Lib.Word Relm.Vmx Relm.Vmx.VcpuInit

/-- The byte that an access of the guest finds at a guest physical address, through the EPT. -/
def eptRead (e : EptState) (gpa : U64) : Option Byte := (translate e gpa).toOption.map (hostByte e.host)

variable {l : Layout U64} {s : VmState} {host : Host} {pages : List U64} {objs : List Nat} {access a f : U64}

/-- Guest RAM as the guest reads it through an EPT: bytes below `ram`, except on the APIC page. -/
structure ReadsRam (e : EptState) (ram : Nat) (m : Nat → Byte) : Prop where
  bounded : ram ≤ 2 ^ 47
  read : ∀ a : U64, a.toNat < ram → a.toNat / 4096 ≠ 0xFEE00 → eptRead e a = some (m a.toNat)

variable {e : EptState} {ram : Nat} {m : Nat → Byte} {base : U64} {fields : Nat → U64}

/-- Guest page tables at the top of RAM and not on the APIC page. -/
structure TablesOnTop (e : EptState) (ram : Nat) (m : Nat → Byte) (base : U64) : Prop extends ReadsRam e ram m where
  top : base.toNat + 0x3000 = ram
  aligned : base.toNat % 4096 = 0
  apart : ram ≤ 0xFEE00000 ∨ 0xFEE04000 ≤ ram
  tables : HoldsAt m base.toNat 0x3000 (tablesImage base)

/-- An entry of the tables. -/
private theorem TablesOnTop.entry (h : TablesOnTop e ram m base) {p w : U64} {n : Nat} (hp : p.toNat = base.toNat + n)
    (hn : n + 8 ≤ 0x3000) (hw : ∀ j < 8, tablesImage base (n + j) = getByte w j) : readEntry (eptRead e) p = some w := by
  have htop := h.top
  have hbounded := h.bounded
  have haligned := h.aligned
  refine readEntry_eq fun j hj => ?_
  have hnat : (p + BitVec.ofNat 64 j).toNat = base.toNat + (n + j) := by
    rw [toNat_add_eq hp (show (BitVec.ofNat 64 j).toNat = j by rw [BitVec.toNat_ofNat]; omega) (by omega), Nat.add_assoc]
  have hapart := h.apart
  rw [h.read _ (by rw [hnat]; omega) (by rw [hnat]; omega), hnat, h.tables (n + j) (by omega), hw j hj]

private theorem TablesOnTop.table_toNat (h : TablesOnTop e ram m base) : (base + pageSize).toNat = base.toNat + 0x1000 ∧
    (base + 2#64 * pageSize).toNat = base.toNat + 0x2000 := by
  have htop := h.top
  have hbounded := h.bounded
  exact ⟨toNat_add_eq rfl rfl (by omega), toNat_add_eq rfl rfl (by omega)⟩

private theorem TablesOnTop.pml4 (h : TablesOnTop e ram m base) {i : U64} (hi : i.toNat < 512) :
    readEntry (eptRead e) (base + i * 8#64) = some (linkBuf (base + pageSize) i.toNat) := by
  have htop := h.top
  have hbounded := h.bounded
  refine h.entry (entry_toNat rfl (by omega) hi) (by omega) fun j hj => tablesImage_pml4 base hi hj

private theorem TablesOnTop.pdpt (h : TablesOnTop e ram m base) {i : U64} (hi : i.toNat < 512) :
    readEntry (eptRead e) (base + pageSize + i * 8#64) = some (linkBuf (base + 2#64 * pageSize) i.toNat) := by
  have htop := h.top
  have hbounded := h.bounded
  have hp := entry_toNat h.table_toNat.1 (by omega) hi
  rw [Nat.add_assoc] at hp
  exact h.entry hp (by omega) fun j hj => by rw [Nat.add_assoc]; exact tablesImage_pdpt base hi hj

private theorem TablesOnTop.pd (h : TablesOnTop e ram m base) {i : U64} (hi : i.toNat < 512) :
    readEntry (eptRead e) (base + 2#64 * pageSize + i * 8#64) = some (pdBuf i.toNat) := by
  have htop := h.top
  have hbounded := h.bounded
  have hp := entry_toNat h.table_toNat.2 (by omega) hi
  rw [Nat.add_assoc] at hp
  exact h.entry hp (by omega) fun j hj => by rw [Nat.add_assoc]; exact tablesImage_pd base hi hj

/-- What `link_entry` says, as the processor's walk asks for it. -/
private theorem link_walk (table : U64) (ha : table.toNat % 4096 = 0) (hlt : table.toNat < 2 ^ 52) :
    (table ||| 0x7#64) &&& presentBit ≠ 0 ∧ (table ||| 0x7#64) &&& pageSizeBit = 0 ∧ (table ||| 0x7#64) &&& addrMask = table := by
  obtain ⟨hp, hs, haddr⟩ := link_entry table ha hlt
  exact ⟨beq_eq_false_iff_ne.mp hp, bne_eq_false_iff_eq.mp hs, haddr⟩

private theorem TablesOnTop.walkPd (h : TablesOnTop e ram m base) (ha : a.toNat < 2 ^ 30) :
    walk (eptRead e) a 2 (base + 2#64 * pageSize) = some a := by
  have hidx : (Lib.PageWalk.index a 1).toNat = a.toNat / 2 ^ 21 := by
    rw [Lib.PageWalk.index, index_toNat, shift]
    omega
  obtain ⟨hp, hs, hleaf⟩ := leaf_entry hidx.symm (by omega)
  have hentry := h.pd (i := Lib.PageWalk.index a 1) (by omega)
  rw [walk_leaf hentry (beq_eq_false_iff_ne.mp hp) (bne_iff_ne.mp hs) (by decide)]
  exact congrArg some hleaf

private theorem TablesOnTop.walkPdpt (h : TablesOnTop e ram m base) (ha : a.toNat < 2 ^ 39) :
    walk (eptRead e) a 3 (base + pageSize) = if a.toNat < 2 ^ 30 then some a else none := by
  have htop := h.top
  have hbounded := h.bounded
  have haligned := h.aligned
  have hidx : (Lib.PageWalk.index a 2).toNat = a.toNat / 2 ^ 30 := by
    rw [Lib.PageWalk.index, index_toNat, shift]
    omega
  have hentry := h.pdpt (i := Lib.PageWalk.index a 2) (by omega)
  have ht := h.table_toNat.2
  obtain ⟨hp, hs, haddr⟩ := link_walk (base + 2#64 * pageSize) (by omega) (by omega)
  by_cases hlow : a.toNat < 2 ^ 30
  · rw [hidx, show a.toNat / 2 ^ 30 = 0 by omega, linkBuf, if_pos rfl] at hentry
    rw [if_pos hlow, walk_link hentry hp hs, haddr, h.walkPd hlow]
  · rw [if_neg hlow]
    exact walk_absent hentry (beq_iff_eq.mp (linkBuf_absent _ (by omega)))

end Memory

section Handoff
open Relm.Host Relm.Lib.PageWalk Relm.Lib.Word Relm.Vmx Relm.Vmx.VcpuInit

variable {m : Machine} {vcpu : VcpuInit.Vcpu} {f : Nat → U64} {vm : VcpuInit.Vm} {eptp : U64}

end Handoff

end Relm.Boot
