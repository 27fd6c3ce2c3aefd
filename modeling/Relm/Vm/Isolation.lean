import Relm.Ept.GuestRam
import Relm.Vm.Demand

/-! Guest and host isolation: over runs of the functions that build a VM's memory, every EPT leaf points to a
frame the VM owns or to device memory it was given, as long as no cleanup path frees frames that are mapped. -/
namespace Relm.Vm
open Relm.Ept Relm.Ept.EptState Relm.Lib.Run Relm.Lib.Word

/-- The calls of a run, with the outcomes of the services they ask. -/
inductive VmCall
  | allocateGuestRam (size gpaStart : U64)
  | mapMmioRegion (gpa hpa size : U64)
  | seabiosSetup (firmware : Except Errno Firmware) (fwCfg : Except Errno Unit)
  | seabiosUnload

namespace VmCall

def exec (s : VmState) : VmCall → Except Errno Unit × VmState
  | allocateGuestRam size gpaStart => relmVmAllocateGuestRam s size gpaStart
  | mapMmioRegion gpa hpa size => relmVmMapMmioRegion s gpa hpa size
  | seabiosSetup firmware fwCfg => relmSeabiosSetup s firmware fwCfg
  | seabiosUnload => (.ok (), relmSeabiosUnload s)

/-- The host frames a call hands to the guest as device memory. -/
def Passes (f : U64) : VmCall → Prop
  | mapMmioRegion _ hpa size => ∃ i < size.toNat / 4096, f = hpa + BitVec.ofNat 64 i * pageSize
  | _ => False

/-- No frame is given back while it is mapped: a host that supplies the first page of guest RAM, with the two slab
objects before it and the tables above it, supplies them all; fw_cfg does not fail once the ROM is mapped; the ROM is
unloaded only when no leaf points to it. Device memory that gets mapped lies within the physical address width and
outside what the page allocator manages. -/
def Safe (s : VmState) : VmCall → Prop
  | allocateGuestRam size gpaStart => s.host.Supplied 0 2 → eptIs4kbAligned gpaStart = true →
      s.host.Supplied (s.eptState.demand 1 [] (pagesFrom gpaStart 0 1)) 0 →
      s.host.Supplied (s.eptState.demand 1 [] (pagesFrom gpaStart 0 (numPages size))) 0
  | mapMmioRegion gpa hpa size => size ≠ 0 →
      (eptIs4kbAligned gpa && eptIs4kbAligned hpa && eptIs4kbAligned size) = true →
      s.host.Supplied (s.eptState.demand 0 [] (pagesFrom gpa 0 (size.toNat / 4096))) 1 →
      hpa.toNat + size.toNat ≤ 2 ^ 52 ∧
      ∀ i < size.toNat / 4096, s.host.managed (hpa + BitVec.ofNat 64 i * pageSize) = false
  | seabiosSetup firmware fwCfg => (relmSeabiosLoad s firmware).1 = .ok () → fwCfg = .ok ()
  | seabiosUnload => ∀ pa, s.rom = some pa → ∀ a e, s.eptState.pte a = some e →
      entryAddr e ∉ Host.blockPages pa seabiosOrder

end VmCall

/-- A VM just created: an empty EPT context, no region and no ROM. -/
def VmState.created (host : Host) (ept : EptContext) : VmState :=
  { host, ept, memory := { memRegions := [], totalGuestRam := 0, mmioRegions := [] }, rom := none }

/-- Frames of the VM: recorded in a linked region, or pages of the loaded ROM. -/
def OwnedFrame (s : VmState) (f : U64) : Prop :=
  (∃ region ∈ s.memory.memRegions, ∃ pages, region.pages = some pages ∧ f ∈ pages) ∨
    ∃ pa, s.rom = some pa ∧ f ∈ Host.blockPages pa seabiosOrder

/-- Frames some call of a run passed as device memory. -/
def PassedFrame (tr : List (VmCall × Except Errno Unit)) (f : U64) : Prop := ∃ x ∈ tr, x.1.Passes f

/-- Every present leaf points to a frame of the VM or to passed device memory, and to nothing that was given back. -/
structure Isolated (tr : List (VmCall × Except Errno Unit)) (s : VmState) : Prop where
  pages : ∀ a e, s.eptState.pte a = some e → OwnedFrame s (entryAddr e) ∨ PassedFrame tr (entryAddr e)
  noBlocks : ∀ a, s.eptState.pde a = none
  notFreed : ∀ a e, s.eptState.pte a = some e → entryAddr e ∉ s.host.freed

/-- The guest pages the ROM is mapped at. -/
def RomGpa (a : U64) : Prop := 0xFFFE0 ≤ pageOf a ∧ pageOf a < 0x100000

/-- The invariant, with frames `extra` that a function in progress has mapped and not yet recorded. -/
structure Inv (passed : U64 → Prop) (extra : List U64) (s : VmState) : Prop where
  shape : s.eptState.Shape
  noBlocks : ∀ a, s.eptState.pde a = none
  books : s.host.WellFormed
  romLive : ∀ pa, s.rom = some pa → ∀ f ∈ Host.blockPages pa seabiosOrder, f ∈ s.host.live
  romTables : ∀ pa, s.rom = some pa → ∀ f ∈ Host.blockPages pa seabiosOrder, f ∉ s.ept.tables
  leaf : ∀ a e, s.eptState.pte a = some e →
    (entryAddr e ∈ s.host.live ∧ (OwnedFrame s (entryAddr e) ∨ entryAddr e ∈ extra)) ∨
      (passed (entryAddr e) ∧ s.host.managed (entryAddr e) = false)
  romLeaf : ∀ pa, s.rom = some pa → ∀ a e, s.eptState.pte a = some e →
    entryAddr e ∈ Host.blockPages pa seabiosOrder → RomGpa a

namespace Inv

variable {passed : U64 → Prop} {extra : List U64} {s : VmState}

theorem isolated {tr : List (VmCall × Except Errno Unit)} (h : Inv (PassedFrame tr) [] s) : Isolated tr s where
  pages a e hp := by
    rcases h.leaf a e hp with ⟨_, ho | hx⟩ | ⟨hp, _⟩
    · exact .inl ho
    · cases hx
    · exact .inr hp
  noBlocks := h.noBlocks
  notFreed a e hp hf := by
    rcases h.leaf a e hp with ⟨hl, _⟩ | ⟨_, hm⟩
    · exact h.books.disjoint _ hl hf
    · have := h.books.freedManaged _ hf
      rw [hm] at this
      cases this

theorem mono {passed' : U64 → Prop} (h : Inv passed extra s) (hp : ∀ f, passed f → passed' f) : Inv passed' extra s :=
  { h with leaf := fun a e he => (h.leaf a e he).imp_right fun hc => ⟨hp _ hc.1, hc.2⟩ }

/-- An EPT operation that replaced at most one leaf. -/
theorem leaves {t : EptState} {gpa : U64} {o : Option U64} {st : EptStats} {more : List U64} (h : Inv passed extra s)
    (hl : Leaves s.eptState t (s.eptState.withPte gpa o) s.eptState.pde st) (hx : ∀ f ∈ extra, f ∈ more)
    (ho : ∀ e, o = some e → ((entryAddr e ∈ s.host.live ∧ (OwnedFrame s (entryAddr e) ∨ entryAddr e ∈ more)) ∨
      (passed (entryAddr e) ∧ s.host.managed (entryAddr e) = false)) ∧
      ∀ pa, s.rom = some pa → entryAddr e ∈ Host.blockPages pa seabiosOrder → RomGpa gpa) :
    Inv passed more (s.withEpt t) := by
  obtain ⟨new, htab, halloc⟩ := hl.alloc
  have hlive : ∀ f ∈ s.host.live, f ∈ t.host.live := fun f hf => by
    rw [halloc.live]
    exact List.mem_append_right _ hf
  have hman : t.host.managed = s.host.managed := halloc.managed
  refine ⟨hl.shape, fun a => (hl.pde a).trans (h.noBlocks a), h.books.allocated halloc,
    fun pa hp f hf => hlive f (h.romLive pa hp f hf), fun pa hp f hf hc => ?_, fun a e he => ?_, fun pa hp a e he hf => ?_⟩
  · have hc' : f ∈ new ++ s.ept.tables := htab ▸ hc
    rcases List.mem_append.mp hc' with hc' | hc'
    · exact (halloc.fresh f hc').2.2 (h.romLive pa hp f hf)
    · exact h.romTables pa hp f hf hc'
  · have he' := (hl.pte a).symm.trans he
    rw [withPte] at he'
    have hcase : (entryAddr e ∈ s.host.live ∧ (OwnedFrame s (entryAddr e) ∨ entryAddr e ∈ more)) ∨
        (passed (entryAddr e) ∧ s.host.managed (entryAddr e) = false) := by
      split at he'
      · exact (ho e he').1
      · exact (h.leaf a e he').imp_left fun hc => ⟨hc.1, hc.2.imp_right (hx _)⟩
    exact hcase.imp (fun hc => ⟨hlive _ hc.1, hc.2⟩) (fun hc => ⟨hc.1, hman.symm ▸ hc.2⟩)
  · have he' := (hl.pte a).symm.trans he
    rw [withPte] at he'
    split at he'
    · rename_i hpage
      have hr := (ho e he').2 pa hp hf
      rw [RomGpa, hpage]
      exact hr
    · exact h.romLeaf pa hp a e he' hf

theorem same {t : EptState} (h : Inv passed extra s) (hs : Same s.eptState t) : Inv passed extra (s.withEpt t) := by
  have hl : Leaves s.eptState t (s.eptState.withPte 0 (s.eptState.pte 0)) s.eptState.pde s.eptState.ctx.stats :=
    ⟨hs.toExtends, fun a => (hs.pte a).trans (by rw [withPte]; split <;> [exact pte_congr ‹_›; rfl]), hs.pde, hs.stats⟩
  refine h.leaves hl (fun _ hf => hf) fun e he => ⟨h.leaf 0 e he, fun pa hp hf => h.romLeaf pa hp 0 e he hf⟩

/-- Tables that have been added and leaves that have been taken away. -/
theorem fewer {t : EptState} {gpa : U64} (h : Inv passed extra s) (ht : Overlaid gpa 0 s.eptState t) :
    Inv passed extra (s.withEpt t) := by
  obtain ⟨new, htab, halloc⟩ := ht.alloc
  have hlive : ∀ f ∈ s.host.live, f ∈ t.host.live := fun f hf => by
    rw [halloc.live]
    exact List.mem_append_right _ hf
  have hman : t.host.managed = s.host.managed := halloc.managed
  have hpte : ∀ a e, t.pte a = some e → s.eptState.pte a = some e := fun a e he =>
    (ht.pte a e he).resolve_right fun ⟨j, hj, _⟩ => absurd hj (Nat.not_lt_zero j)
  refine ⟨ht.shape, ht.noBlocks, h.books.allocated halloc, fun pa hp f hf => hlive f (h.romLive pa hp f hf),
    fun pa hp f hf hc => ?_, fun a e he => ?_, fun pa hp a e he => h.romLeaf pa hp a e (hpte a e he)⟩
  · have hc' : f ∈ new ++ s.ept.tables := htab ▸ hc
    rcases List.mem_append.mp hc' with hc' | hc'
    · exact (halloc.fresh f hc').2.2 (h.romLive pa hp f hf)
    · exact h.romTables pa hp f hf hc'
  · exact (h.leaf a e (hpte a e he)).imp (fun hc => ⟨hlive _ hc.1, hc.2⟩) fun hc => ⟨hc.1, hman.symm ▸ hc.2⟩

/-- A change of the host that keeps every table and drops only frames nothing refers to. -/
theorem host {h' : Host} (h : Inv passed extra s) (dropped : List U64) (books : h'.WellFormed)
    (hmem : ∀ f ∈ s.ept.tables, h'.mem f = s.host.mem f) (hman : h'.managed = s.host.managed)
    (hlive : ∀ f ∈ s.host.live, f ∉ dropped → f ∈ h'.live)
    (htab : ∀ f ∈ dropped, f ∉ s.ept.tables)
    (hrom : ∀ f ∈ dropped, ∀ pa, s.rom = some pa → f ∉ Host.blockPages pa seabiosOrder)
    (hleaf : ∀ f ∈ dropped, ∀ a e, s.eptState.pte a = some e → entryAddr e ≠ f) :
    Inv passed extra { s with host := h' } := by
  have hfr : Framed s.eptState ⟨h', s.ept⟩ :=
    ⟨rfl, hmem, fun f hf => hlive f (h.shape.live f hf) fun hd => htab f hd hf⟩
  have hpte := hfr.pte h.shape
  refine ⟨hfr.shape h.shape, fun a => (hfr.pde h.shape a).trans (h.noBlocks a), books, ?_, h.romTables, ?_, ?_⟩
  · intro pa hp f hf
    exact hlive f (h.romLive pa hp f hf) fun hd => hrom f hd pa hp hf
  · intro a e he
    have he' : s.eptState.pte a = some e := (hpte a).symm.trans he
    refine (h.leaf a e he').imp (fun hc => ⟨hlive _ hc.1 fun hd => hleaf _ hd a e he' rfl, hc.2⟩) fun hc => ⟨hc.1, ?_⟩
    exact hman.symm ▸ hc.2
  · intro pa hp a e he hf
    exact h.romLeaf pa hp a e ((hpte a).symm.trans he) hf

/-- A change of the host that keeps its pages. -/
theorem hostSame {h' : Host} (h : Inv passed extra s) (hmem : h'.mem = s.host.mem) (hlive : h'.live = s.host.live)
    (hfreed : h'.freed = s.host.freed) (hman : h'.managed = s.host.managed) : Inv passed extra { s with host := h' } :=
  h.host [] (h.books.congr hlive hfreed hman) (fun f _ => by rw [hmem]) hman
    (fun f hf _ => hlive.symm ▸ hf) (by simp) (by simp) (by simp)

/-- Taking a fresh page. -/
theorem take {pa : U64} (h : Inv passed extra s) (hav : s.host.available pa) :
    Inv passed extra { s with host := s.host.take pa } := by
  refine h.host [] (h.books.allocated (.took hav)) (fun f hf => ?_) rfl
    (fun f hf _ => List.mem_cons_of_mem _ hf) (by simp) (by simp) (by simp)
  have hne : f ≠ pa := fun hc => hav.2.2 (hc ▸ h.shape.live f hf)
  funext i
  exact Lib.TableTree.fill_other _ _ _ hne

/-- No leaf points to a frame that could still be handed out. -/
theorem leaf_ne {pa : U64} (h : Inv passed extra s) (hav : s.host.available pa) {a e : U64}
    (he : s.eptState.pte a = some e) : entryAddr e ≠ pa := by
  rintro rfl
  rcases h.leaf a e he with ⟨hl, _⟩ | ⟨_, hm⟩
  · exact hav.2.2 hl
  · rw [hav.2.1] at hm
    cases hm

/-- The page just taken goes back after its mapping failed. -/
theorem giveBack {pa : U64} {t : EptState} (h : Inv passed extra s) (hav : s.host.available pa)
    (ht : Same (EptState.mk (s.host.take pa) s.ept) t) :
    Inv passed extra { s with host := t.host.freePage pa, ept := t.ctx } := by
  have h1 := h.take hav
  have h2 := h1.same ht
  obtain ⟨new, htab, halloc⟩ := ht.alloc
  have hpte : ∀ a, t.pte a = s.eptState.pte a := fun a => by
    have hfr : Framed s.eptState ⟨s.host.take pa, s.ept⟩ := ⟨rfl, fun f hf => by
      have hne : f ≠ pa := fun hc => hav.2.2 (hc ▸ h.shape.live f hf)
      funext i
      exact Lib.TableTree.fill_other _ _ _ hne, fun f hf => List.mem_cons_of_mem _ (h.shape.live f hf)⟩
    exact (ht.pte a).trans (hfr.pte h.shape a)
  refine h2.host [pa] (h2.books.freePage pa) (fun f _ => by rw [Host.freePage_mem]; rfl) ?_ ?_ ?_ ?_ ?_
  · unfold Host.freePage
    split <;> rfl
  · intro f hf hd
    have hne : f ≠ pa := fun hc => hd (List.mem_singleton.mpr hc)
    unfold Host.freePage
    split
    · exact (List.mem_erase_of_ne hne).mpr hf
    · exact hf
  · intro f hf hc
    obtain rfl := List.mem_singleton.mp hf
    have hc' : f ∈ new ++ s.ept.tables := htab ▸ hc
    rcases List.mem_append.mp hc' with hc' | hc'
    · exact (halloc.fresh f hc').2.2 List.mem_cons_self
    · exact hav.2.2 (h.shape.live f hc')
  · intro f hf p hp hb
    obtain rfl := List.mem_singleton.mp hf
    exact hav.2.2 (h.romLive p hp f hb)
  · intro f hf a e he
    obtain rfl := List.mem_singleton.mp hf
    exact h.leaf_ne hav ((hpte a).symm.trans he)

private theorem ramFlags_noAddress : vmxEptFlags relmRamFlags &&& eptAddrMask = 0#64 := by decide

/-- The page loop keeps the invariant, with the pages it has mapped counted as its own. -/
theorem ramLoop (gpaStart : U64) (left i : Nat) (pages : List U64) (s : VmState) (h : Inv passed pages s) :
    Inv passed (Vm.ramLoop gpaStart left i pages s).pages (Vm.ramLoop gpaStart left i pages s).next ∧
      (Vm.ramLoop gpaStart left i pages s).next.memory = s.memory ∧
      (Vm.ramLoop gpaStart left i pages s).next.rom = s.rom := by
  induction left generalizing i pages s with
  | zero => exact ⟨h, rfl, rfl⟩
  | succ left ih =>
    unfold Vm.ramLoop
    rcases s.host.getFreePage_cases with hr | ⟨pa, hav, hr⟩
    · simp only [hr]
      exact ⟨h.hostSame rfl rfl rfl rfl, trivial, trivial⟩
    · simp only [hr, vmxMemMapPage]
      have h1 := h.take hav
      have ho := mapPage_spec (gpaStart + BitVec.ofNat 64 i * pageSize) pa (vmxEptFlags relmRamFlags) h1.shape (h1.noBlocks _)
      generalize relmEptMapPage _ (gpaStart + BitVec.ofNat 64 i * pageSize) pa (vmxEptFlags relmRamFlags) = r at ho ⊢
      rcases ho with ⟨_, rfl⟩ | ⟨_, hret, _, hs, _⟩ | ⟨_, hret, ⟨hl, _⟩, _⟩
      · exact ⟨h.giveBack hav (.refl h1.shape), rfl, rfl⟩
      · simp only [hret]
        exact ⟨h.giveBack hav hs, rfl, rfl⟩
      · simp only [hret]
        have hne : ∀ p, s.rom = some p → pa ∉ Host.blockPages p seabiosOrder := fun p hp hb =>
          hav.2.2 (h.romLive p hp pa hb)
        have h2 : Inv passed (pages ++ [pa]) _ := h1.leaves hl (fun f hf => List.mem_append_left _ hf) fun e he => by
          obtain rfl := Option.some.inj he
          rw [entryAddr_leafEntry pa _ hav.1 ramFlags_noAddress]
          exact ⟨.inl ⟨List.mem_cons_self, .inr (by simp)⟩, fun p hp hb => absurd hb (hne p hp)⟩
        exact ih (i + 1) (pages ++ [pa]) _ h2

/-- Linking a region makes the pages recorded in it the VM's. -/
theorem link {region : GuestMemRegion} {pages : List U64} {memory : VmMemory} (h : Inv passed pages s)
    (hp : ∀ f ∈ pages, ∃ ps, region.pages = some ps ∧ f ∈ ps)
    (hm : memory.memRegions = region :: s.memory.memRegions) : Inv passed [] { s with memory := memory } := by
  have hold : ∀ f, OwnedFrame s f → OwnedFrame { s with memory := memory } f := by
    rintro f (⟨r, hr, hf⟩ | hf)
    · exact .inl ⟨r, hm.symm ▸ List.mem_cons_of_mem _ hr, hf⟩
    · exact .inr hf
  refine { h with leaf := fun a e he => (h.leaf a e he).imp_left fun hc => ⟨hc.1, .inl ?_⟩ }
  rcases hc.2 with ho | hx
  · exact hold _ ho
  · exact .inl ⟨region, hm.symm ▸ List.mem_cons_self, hp _ hx⟩

private theorem ramStart_cases (s : VmState) :
    (∃ h', ramStart s = .error { s with host := h' } ∧ h'.mem = s.host.mem ∧ h'.live = s.host.live ∧
      h'.freed = s.host.freed ∧ h'.managed = s.host.managed) ∨
    ∃ obj pagesObj h', ramStart s = .ok (obj, pagesObj, { s with host := h' }) ∧ h'.mem = s.host.mem ∧
      h'.live = s.host.live ∧ h'.freed = s.host.freed ∧ h'.managed = s.host.managed ∧ s.host.Supplied 0 2 ∧
      h'.answers = s.host.answers := by
  unfold ramStart
  rcases s.host.kzalloc_cases with hk | hk
  · simp only [hk]
    exact .inl ⟨_, rfl, rfl, rfl, rfl, rfl⟩
  · simp only [hk]
    rcases s.host.slabTake.kzalloc_cases with hk' | hk'
    · simp only [hk']
      exact .inl ⟨_, rfl, by simp; rfl, by simp; rfl, by simp; rfl, by simp; rfl⟩
    · simp only [hk']
      have hslab := (Host.Supplied.slabTake_iff hk).mp ((Host.Supplied.slabTake_iff hk').mp (.zero _))
      exact .inr ⟨_, _, _, rfl, rfl, rfl, rfl, rfl, hslab, rfl⟩

theorem allocateGuestRam {size gpaStart : U64} (h : Inv passed [] s)
    (hsafe : (VmCall.allocateGuestRam size gpaStart).Safe s) :
    Inv passed [] (relmVmAllocateGuestRam s size gpaStart).2 := by
  unfold relmVmAllocateGuestRam
  rcases ramStart_cases s with ⟨h', hs, hm, hl, hf, hg⟩ | ⟨obj, pagesObj, h', hs, hm, hl, hf, hg, hslab, ha⟩
  · rw [hs]
    exact h.hostSame hm hl hf hg
  · have h1 : Inv passed [] { s with host := h' } := h.hostSame hm hl hf hg
    have hloop := h1.ramLoop gpaStart (numPages size) 0
    -- a loop that has mapped a page is a loop that finishes
    have hclean : ∀ e, (Vm.ramLoop gpaStart (numPages size) 0 [] { s with host := h' }).ret = .error e →
        (Vm.ramLoop gpaStart (numPages size) 0 [] { s with host := h' }).pages = [] := by
      intro e he
      by_contra hne
      obtain ⟨hal, hfirst⟩ := ramLoop_first hne
      have hok := fun n => ramLoop_ok_iff hal n 0 [] { s with host := h' } h1.shape h1.noBlocks
        (Reached.start (s := s.eptState) hm rfl)
      have hsupply := hsafe hslab ((is4kbAligned_iff gpaStart).mpr hal)
        (((hok 1).mp hfirst).congr_frames ha.symm hg.symm hl.symm)
      have hdone := (hok _).mpr (hsupply.congr_frames ha hg hl)
      rw [hdone] at he
      cases he
    rw [hs]
    simp only
    generalize Vm.ramLoop gpaStart (numPages size) 0 [] { s with host := h' } = r at hloop hclean ⊢
    obtain ⟨ret, pages, t⟩ := r
    cases ret with
    | ok u => exact hloop.1.link (fun f hf => ⟨pages, rfl, hf⟩) rfl
    | error e =>
      obtain rfl : pages = [] := hclean e rfl
      exact hloop.1.hostSame (by simp) (by simp) (by simp) (by simp)

private theorem mmioFlags_noAddress : vmxEptFlags relmMmioFlags &&& eptAddrMask = 0#64 := by decide

theorem mmioLoop (gpa hpa : U64) (n : Nat) (hn : hpa.toNat % 4096 = 0 ∧ hpa.toNat + n * 4096 ≤ 2 ^ 52)
    (hp : ∀ i < n, passed (hpa + BitVec.ofNat 64 i * pageSize)) (left i : Nat) (hi : i + left = n) (s : VmState)
    (hman : ∀ i < n, s.host.managed (hpa + BitVec.ofNat 64 i * pageSize) = false) (h : Inv passed [] s) :
    Inv passed [] (Vm.mmioLoop gpa hpa left i s).2.2 := by
  induction left generalizing i s with
  | zero => exact h
  | succ left ih =>
    unfold Vm.mmioLoop
    simp only [vmxMemMapPage]
    have hfr : isFrame (hpa + BitVec.ofNat 64 i * pageSize) := by
      have hmul : (BitVec.ofNat 64 i * pageSize).toNat = 4096 * i := scaled_toNat (by decide) (by decide) (by omega)
      have hadd := toNat_add_eq (a := hpa) rfl hmul (by omega)
      exact ⟨by omega, by omega⟩
    have ho := mapPage_spec (gpa + BitVec.ofNat 64 i * pageSize) (hpa + BitVec.ofNat 64 i * pageSize)
      (vmxEptFlags relmMmioFlags) h.shape (h.noBlocks _)
    generalize relmEptMapPage s.eptState _ _ _ = r at ho ⊢
    rcases ho with ⟨_, rfl⟩ | ⟨_, hret, _, hs, _⟩ | ⟨_, hret, ⟨hl, _⟩, _⟩
    · exact h
    · simp only [hret]
      exact h.same hs
    · simp only [hret]
      have hmi := hman i (by omega)
      have h2 : Inv passed [] (s.withEpt r.next) := h.leaves hl (fun _ hf => hf) fun e he => by
        obtain rfl := Option.some.inj he
        rw [entryAddr_leafEntry _ _ hfr mmioFlags_noAddress]
        refine ⟨.inr ⟨hp i (by omega), hmi⟩, fun pa hpa hb => ?_⟩
        have := h.books.managed _ (h.romLive pa hpa _ hb)
        rw [hmi] at this
        cases this
      obtain ⟨new, _, halloc⟩ := hl.alloc
      refine ih (i + 1) (by omega) _ (fun j hj => ?_) h2
      have hmeq : r.next.host.managed = s.host.managed := halloc.managed
      exact hmeq ▸ hman j hj

theorem mapMmioRegion {gpa hpa size : U64} (h : Inv passed [] s)
    (hp : ∀ f, (VmCall.mapMmioRegion gpa hpa size).Passes f → passed f)
    (hsafe : (VmCall.mapMmioRegion gpa hpa size).Safe s) : Inv passed [] (relmVmMapMmioRegion s gpa hpa size).2 := by
  unfold relmVmMapMmioRegion
  split
  · exact h
  rename_i hne
  split
  · exact h
  rename_i hal
  simp only [bne_iff_ne, ne_eq, Bool.or_eq_true, not_or, not_not] at hal
  have hpages := div_pageSize size
  have hgpa : gpa.toNat % 4096 = 0 := (pageMask_iff gpa).mp hal.1.1
  have hhpa : hpa.toNat % 4096 = 0 := (pageMask_iff hpa).mp hal.1.2
  have hsize : size.toNat % 4096 = 0 := (pageMask_iff size).mp hal.2
  rcases s.host.kzalloc_cases with hk | hk
  · rw [hk]
    exact h.hostSame rfl rfl rfl rfl
  · have h1 : Inv passed [] { s with host := s.host.slabTake } := h.hostSame rfl rfl rfl rfl
    obtain ⟨ret, j, u, heq, hu, hiff⟩ := Overlaid.mmioLoop hgpa hhpa { s with host := s.host.slabTake } (size.toNat / 4096) 0 _
      (.refl h1.shape h1.noBlocks) (Reached.start (s := s.eptState) rfl rfl)
    change Vm.mmioLoop gpa hpa (size.toNat / 4096) 0 { s with host := s.host.slabTake } = _ at heq
    simp only [hk, hpages, heq]
    cases ret with
    | ok _ =>
      have hsupply := (Host.Supplied.slabTake_iff hk).mp (hiff.mp rfl)
      obtain ⟨hfit, hman⟩ := hsafe (by simpa using hne) (by
        rw [(is4kbAligned_iff gpa).mpr hgpa, (is4kbAligned_iff hpa).mpr hhpa, (is4kbAligned_iff size).mpr hsize]
        rfl) hsupply
      have hloop := mmioLoop gpa hpa (size.toNat / 4096) ⟨hhpa, by omega⟩ (fun i hi => hp _ ⟨i, hi, rfl⟩)
        (size.toNat / 4096) 0 (by omega) { s with host := s.host.slabTake } hman h1
      rw [heq] at hloop
      exact hloop.link (by simp) rfl
    | error e =>
      obtain ⟨v, hv, hfewer⟩ := Overlaid.mmioUnmap { s with host := s.host.slabTake } j u hu
      simp only [hv]
      exact (h1.fewer hfewer).hostSame (by simp) (by simp) (by simp) (by simp)

/-- Frames no leaf points to need not be accounted for. -/
theorem drop (h : Inv passed extra s) (hn : ∀ a e, s.eptState.pte a = some e → entryAddr e ∉ extra) : Inv passed [] s :=
  { h with leaf := fun a e he => (h.leaf a e he).imp_left fun hc => ⟨hc.1, .inl (hc.2.resolve_right (hn a e he))⟩ }

/-- The pages of the ROM that is loaded. -/
private def romPages (s : VmState) : List U64 := s.rom.elim [] (Host.blockPages · seabiosOrder)

private theorem mem_romPages {f : U64} : f ∈ romPages s ↔ ∃ pa, s.rom = some pa ∧ f ∈ Host.blockPages pa seabiosOrder := by
  unfold romPages
  cases s.rom <;> simp

/-- A new ROM block takes the place of the old one, whose pages stay mapped for now. -/
private theorem newRom {pa : U64} (fw : Firmware) (h : Inv passed [] s)
    (hnd : (Host.blockPages pa seabiosOrder).Nodup) (hav : ∀ f ∈ Host.blockPages pa seabiosOrder, s.host.available f) :
    Inv passed (romPages s)
        { s with host := copyRom (s.host.takeAll (Host.blockPages pa seabiosOrder)) pa fw, rom := some pa } ∧
      ∀ a, EptState.pte ⟨copyRom (s.host.takeAll (Host.blockPages pa seabiosOrder)) pa fw, s.ept⟩ a = s.eptState.pte a := by
  have hall := Host.Allocated.tookAll hnd hav
  have hfr : Framed s.eptState ⟨copyRom (s.host.takeAll (Host.blockPages pa seabiosOrder)) pa fw, s.ept⟩ := by
    refine ⟨rfl, fun f hf => ?_, fun f hf => List.mem_append_right _ (h.shape.live f hf)⟩
    have hn : f ∉ Host.blockPages pa seabiosOrder := fun hc => (hav f hc).2.2 (h.shape.live f hf)
    have hc : (Host.blockPages pa seabiosOrder).contains f = false := by simpa using hn
    simp only [copyRom, Host.takeAll, hc, if_neg hn]
    rfl
  have hpte := hfr.pte h.shape
  refine ⟨⟨hfr.shape h.shape, fun a => (hfr.pde h.shape a).trans (h.noBlocks a),
    (h.books.allocated hall).congr rfl rfl rfl, ?_, ?_, ?_, ?_⟩, hpte⟩
  · rintro p ⟨⟩ f hf
    exact List.mem_append_left _ hf
  · rintro p ⟨⟩ f hf hc
    exact (hav f hf).2.2 (h.shape.live f hc)
  · intro a e he
    refine (h.leaf a e ((hpte a).symm.trans he)).imp (fun hc => ⟨List.mem_append_right _ hc.1, ?_⟩) fun hc => hc
    rcases hc.2 with (ho | ho) | hx
    · exact .inl (.inl ho)
    · exact .inr (mem_romPages.mpr ho)
    · cases hx
  · rintro p ⟨⟩ a e he hf
    exact absurd rfl (h.leaf_ne (hav _ hf) ((hpte a).symm.trans he))

private theorem romGpa_eq (i : Nat) : seabiosRomTopGpa + BitVec.ofNat 64 i * pageSize = pageAddr (0xFFFE0 + i) := by
  rw [← pageAddr_add]
  rfl

private theorem romFlags_noAddress : seabiosEptFlags &&& eptAddrMask = 0#64 := by decide

private theorem pageOf_rom {i : Nat} (hi : i < 32) : pageOf (pageAddr (0xFFFE0 + i)) = 0xFFFE0 + i :=
  pageOf_pageAddr (show 0xFFFE0 + i < 2 ^ 36 by omega)

/-- All ROM pages lie under one page table. -/
private theorem romPath {a : U64} (ha : RomGpa a) : gpaPath a = gpaPath seabiosRomTopGpa := by
  apply gpaPath_of_blockOf
  have h0 : blockOf seabiosRomTopGpa = 2047 := by decide
  rw [h0, blockOf_eq]
  obtain ⟨h1, h2⟩ := ha
  omega

private theorem romGpa_rom {i : Nat} (hi : i < 32) : RomGpa (pageAddr (0xFFFE0 + i)) := by
  rw [RomGpa, pageOf_rom hi]
  omega

/-- Mapping the ROM. Pages of the ROM before it are mapped, if at all, where the loop has not been yet; once the
page table exists nothing can fail, so the loop ends before it starts or replaces every one of them. -/
private theorem romLoop {pa : U64} {old : List U64} (hrom : s.rom = some pa)
    (hfr : ∀ f ∈ Host.blockPages pa seabiosOrder, isFrame f ∧ f ∉ old) (left i : Nat) (hi : i + left = 32) (e : EptState)
    (h : Inv passed old (s.withEpt e))
    (hold : ∀ a x, e.pte a = some x → entryAddr x ∈ old → RomGpa a ∧ 0xFFFE0 + i ≤ pageOf a)
    (hw : i = 0 ∨ e.walk (gpaPath seabiosRomTopGpa) ≠ none) :
    Inv passed [] (s.withEpt (Vm.romLoop pa left i e).2) := by
  induction left generalizing i e with
  | zero =>
    refine h.drop fun a x hx ho => ?_
    obtain ⟨⟨_, hlt⟩, hge⟩ := hold a x hx ho
    omega
  | succ left ih =>
    have hi32 : i < 32 := by omega
    have hmem : pa + BitVec.ofNat 64 i * pageSize ∈ Host.blockPages pa seabiosOrder :=
      List.mem_map.mpr ⟨i, List.mem_range.mpr hi32, rfl⟩
    obtain ⟨hframe, hnew⟩ := hfr _ hmem
    have hv : (eptIs4kbAligned (pageAddr (0xFFFE0 + i)) && eptIs4kbAligned (pa + BitVec.ofNat 64 i * pageSize) &&
        present seabiosEptFlags) = true := by
      rw [pageAddr_aligned (by omega), (is4kbAligned_iff _).mpr hframe.1]
      decide
    have hpath : gpaPath (pageAddr (0xFFFE0 + i)) = gpaPath seabiosRomTopGpa := romPath (romGpa_rom hi32)
    have ho := mapPage_spec (pageAddr (0xFFFE0 + i)) (pa + BitVec.ofNat 64 i * pageSize) seabiosEptFlags h.shape (h.noBlocks _)
    have hex := fun pt (hpt : e.walk (gpaPath (pageAddr (0xFFFE0 + i))) = some pt) => mapPage_existing hpt hv
    unfold Vm.romLoop
    simp only [romGpa_eq]
    change Outcome e (relmEptMapPage e (pageAddr (0xFFFE0 + i)) (pa + BitVec.ofNat 64 i * pageSize) seabiosEptFlags) _ _ at ho
    generalize relmEptMapPage e (pageAddr (0xFFFE0 + i)) (pa + BitVec.ofNat 64 i * pageSize) seabiosEptFlags = r at ho hex ⊢
    obtain ⟨ret, t, touched⟩ := r
    rcases ho with ⟨hv', _⟩ | ⟨_, hret, _, hs, _⟩ | ⟨_, hret, ⟨hl, hwalk⟩, _⟩
    · rw [hv] at hv'
      cases hv'
    · -- a refusal means the page table was missing, so no page of the old ROM is mapped
      obtain rfl : ret = .error .enomem := hret
      have hnone : e.walk (gpaPath seabiosRomTopGpa) = none := by
        by_contra hne
        obtain ⟨pt, hpt⟩ := Option.ne_none_iff_exists'.mp hne
        obtain ⟨_, hc⟩ := hex pt (hpath.symm ▸ hpt)
        cases hc
      refine (h.same hs).drop fun a x hx ho => ?_
      have hx' : e.pte a = some x := (hs.pte a).symm.trans hx
      have hra := (hold a x hx' ho).1
      rw [pte_none ((romPath hra).symm ▸ hnone)] at hx'
      cases hx'
    · obtain rfl : ret = .ok () := hret
      have h2 : Inv passed old (s.withEpt t) := h.leaves hl (fun _ hf => hf) fun x hx => by
        obtain rfl := Option.some.inj hx
        rw [entryAddr_leafEntry _ _ hframe romFlags_noAddress]
        exact ⟨.inl ⟨h.romLive pa hrom _ hmem, .inl (.inr ⟨pa, hrom, hmem⟩)⟩, fun _ _ _ => romGpa_rom hi32⟩
      refine ih (i + 1) (by omega) t h2 (fun a x hx ho => ?_) (.inr ?_)
      · have hx' := (hl.pte a).symm.trans hx
        rw [withPte] at hx'
        split at hx'
        · obtain rfl := Option.some.inj hx'
          rw [entryAddr_leafEntry _ _ hframe romFlags_noAddress] at ho
          exact absurd ho hnew
        · rename_i hne
          obtain ⟨hra, hge⟩ := hold a x hx' ho
          rw [pageOf_rom hi32] at hne
          exact ⟨hra, by omega⟩
      · have hsome : t.pte (pageAddr (0xFFFE0 + i)) ≠ none := by
          rw [hl.pte, withPte, if_pos rfl]
          simp
        intro hn
        exact hsome (pte_none (hpath.symm ▸ hn))

theorem seabiosLoad (firmware : Except Errno Firmware) (h : Inv passed [] s) :
    Inv passed [] (relmSeabiosLoad s firmware).2 := by
  unfold relmSeabiosLoad
  cases firmware with
  | error e => exact h
  | ok fw =>
    simp only
    split
    · exact h
    rcases s.host.getFreePages_cases seabiosOrder with hr | ⟨pa, hnd, hav, hr⟩
    · rw [hr]
      exact h.hostSame rfl rfl rfl rfl
    · rw [hr]
      obtain ⟨h1, hpte⟩ := h.newRom fw hnd hav
      refine romLoop rfl (fun f hf => ⟨(hav f hf).1, fun hc => ?_⟩) 32 0 rfl _ h1 (fun a x hx ho => ?_) (.inl rfl)
      · obtain ⟨p, hp, hb⟩ := mem_romPages.mp hc
        exact (hav f hf).2.2 (h.romLive p hp f hb)
      · obtain ⟨p, hp, hb⟩ := mem_romPages.mp ho
        have hra : RomGpa a := h.romLeaf p hp a x ((hpte a).symm.trans hx) hb
        exact ⟨hra, hra.1⟩

theorem seabiosUnload (h : Inv passed [] s) (hsafe : VmCall.seabiosUnload.Safe s) :
    Inv passed [] (relmSeabiosUnload s) := by
  unfold relmSeabiosUnload
  cases hrom : s.rom with
  | none => exact h
  | some pa =>
    have hleaf := hsafe pa hrom
    have h1 : Inv passed [] { s with rom := none } := by
      refine { h with romLive := by simp, romTables := by simp, leaf := fun a e he => ?_, romLeaf := by simp }
      refine (h.leaf a e he).imp_left fun hc => ⟨hc.1, ?_⟩
      rcases hc.2 with (ho | ⟨p, hp, hb⟩) | hx
      · exact .inl (.inl ho)
      · obtain rfl := Option.some.inj (hrom.symm.trans hp)
        exact absurd hb (hleaf a e he)
      · cases hx
    have hlive := h.romLive pa hrom
    refine h1.host (Host.blockPages pa seabiosOrder) (h.books.freePages pa seabiosOrder) ?_ ?_ ?_
      (h.romTables pa hrom) (by simp) (fun f hf a e he hc => hleaf a e he (hc ▸ hf))
    · intro f _
      rw [Host.freePages, if_pos hlive]
    · rw [Host.freePages, if_pos hlive]
    · intro f hf hd
      rw [Host.freePages, if_pos hlive]
      exact List.mem_filter.mpr ⟨hf, by simpa using hd⟩

theorem seabiosSetup {firmware : Except Errno Firmware} {fwCfg : Except Errno Unit} (h : Inv passed [] s)
    (hsafe : (VmCall.seabiosSetup firmware fwCfg).Safe s) : Inv passed [] (relmSeabiosSetup s firmware fwCfg).2 := by
  have hload := h.seabiosLoad firmware
  have hcfg : (relmSeabiosLoad s firmware).1 = .ok () → fwCfg = .ok () := hsafe
  unfold relmSeabiosSetup
  generalize relmSeabiosLoad s firmware = r at hload hcfg ⊢
  obtain ⟨ret, t⟩ := r
  cases ret with
  | error e => exact hload
  | ok u =>
    rw [hcfg rfl]
    exact hload

/-- Every call that frees nothing mapped keeps the invariant. -/
theorem step (c : VmCall) (h : Inv passed [] s) (hp : ∀ f, c.Passes f → passed f) (hsafe : c.Safe s) :
    Inv passed [] (c.exec s).2 := by
  cases c with
  | allocateGuestRam size gpaStart => exact h.allocateGuestRam hsafe
  | mapMmioRegion gpa hpa size => exact h.mapMmioRegion hp hsafe
  | seabiosSetup firmware fwCfg => exact h.seabiosSetup hsafe
  | seabiosUnload => exact h.seabiosUnload hsafe

theorem of_created {h h' : Host} {ctx : EptContext} (hw : h.WellFormed) (hc : relmEptContextCreate h = (.ok ctx, h')) :
    Inv passed [] (VmState.created h' ctx) := by
  obtain ⟨he, ha, -⟩ := contextCreate_spec hc
  have hbooks : h'.WellFormed := (hw.allocated ha).congr rfl rfl rfl
  have hrom : ∀ pa, (VmState.created h' ctx).rom ≠ some pa := fun _ h => by cases h
  refine ⟨he.shape, he.pde, hbooks, fun pa hp => absurd hp (hrom pa), fun pa hp => absurd hp (hrom pa), fun a e hp => ?_,
    fun pa hp => absurd hp (hrom pa)⟩
  cases (he.pte a).symm.trans hp

end Inv

/-- Over every run that gives back no frame while it is mapped, the guest reaches only memory of its VM and the
device memory it was passed. -/
theorem guest_host_isolation {h h' : Host} {ctx : EptContext} (hw : h.WellFormed)
    (hc : relmEptContextCreate h = (.ok ctx, h')) {calls : List VmCall}
    (ha : Admitted VmCall.exec VmCall.Safe (VmState.created h' ctx) calls) :
    Isolated (run VmCall.exec (VmState.created h' ctx) calls).1 (run VmCall.exec (VmState.created h' ctx) calls).2 := by
  have hinv := run_invariant (P := fun tr s => Inv (PassedFrame tr) [] s) ?_ (Inv.of_created hw hc) ha
  · exact hinv.isolated
  · intro tr s c hi hsafe
    have hi' : Inv (PassedFrame (tr ++ [(c, (c.exec s).1)])) [] s :=
      hi.mono fun f ⟨x, hx, hf⟩ => ⟨x, List.mem_append_left _ hx, hf⟩
    exact hi'.step c (fun f hf => ⟨_, List.mem_append_right _ List.mem_cons_self, hf⟩) hsafe

private def deviceHost : Host :=
  { Host.idle [some 0x1000#64, some 0x9000#64, some 0x2000#64, some 0x3000#64, some 0x4000#64, some 0xA000#64,
      some 0x5000#64, some 0x6000#64] [true, true, true, true] with managed := fun f => f.toNat < 0x80000000 }

/-- Two pages of RAM, a pass-through of host RAM that is refused for its size, one page of device memory above what the
allocator manages, and a firmware that is missing. -/
private def deviceCalls : List VmCall :=
  [.allocateGuestRam 0x2000#64 0#64, .mapMmioRegion 0xFEC00000#64 0x9000#64 0x800#64,
    .mapMmioRegion 0xFEC00000#64 0xFEC00000#64 0x1000#64, .seabiosSetup (.error .enoent) (.ok ()), .seabiosUnload]

theorem guest_host_isolation_device : ∃ ctx h', relmEptContextCreate deviceHost = (.ok ctx, h') ∧
    deviceHost.WellFormed ∧ Admitted VmCall.exec VmCall.Safe (VmState.created h' ctx) deviceCalls ∧
    Isolated (run VmCall.exec (VmState.created h' ctx) deviceCalls).1
      (run VmCall.exec (VmState.created h' ctx) deviceCalls).2 := by
  have hw : deviceHost.WellFormed := .of_untouched rfl rfl
  refine ⟨_, _, rfl, hw, ?ha, guest_host_isolation hw rfl ?ha⟩
  refine ⟨?_, ?_, ?_, ?_, ?_, trivial⟩
  · intro _ _ _
    refine ⟨⟨[0x9000#64, 0x2000#64, 0x3000#64, 0x4000#64, 0xA000#64], by decide, by decide, by decide, fun f hf => ?_⟩,
      List.nil_prefix⟩
    simp only [List.mem_cons, List.not_mem_nil, or_false] at hf
    rcases hf with rfl | rfl | rfl | rfl | rfl <;> exact ⟨by decide, rfl, by decide⟩
  · intro _ hal
    exact absurd hal (by decide)
  · intro _ _ _
    exact ⟨by decide, by decide⟩
  · intro h
    cases h
  · rintro pa ⟨⟩

private def shortHost : Host :=
  Host.idle [some 0x1000#64, some 0x9000#64, some 0x2000#64, some 0x3000#64, some 0x4000#64, none] [true, true, true]

private def shortContext : EptContext where
  obj := 0
  pml4 := 0x1000#64
  pml4Pa := 0x1000#64
  eptp := 0x101E#64
  memtype := 6#64
  adEnabled := false
  stats := {}
  tables := [0x1000#64]

private def shortVm : VmState := VmState.created (relmEptContextCreate shortHost).2 shortContext

/-- Guest RAM of two pages when the second cannot be allocated: the first page is freed and stays mapped. -/
theorem freed_page_stays_mapped : relmEptContextCreate shortHost = (.ok shortContext, shortVm.host) ∧
    shortHost.WellFormed ∧ ¬ Isolated (run VmCall.exec shortVm [.allocateGuestRam 0x2000#64 0#64]).1
      (run VmCall.exec shortVm [.allocateGuestRam 0x2000#64 0#64]).2 := by
  refine ⟨rfl, .of_untouched rfl rfl, fun hi => ?_⟩
  have hpte : (run VmCall.exec shortVm [.allocateGuestRam 0x2000#64 0#64]).2.eptState.pte 0 = some 0x9037#64 := by decide
  have hfreed : entryAddr 0x9037#64 ∈
      (run VmCall.exec shortVm [.allocateGuestRam 0x2000#64 0#64]).2.host.freed := by decide
  exact hi.notFreed 0 _ hpte hfreed

end Relm.Vm
