import Relm.Ept.Translation

/-! Nested page tables: the context, 4 KiB and 2 MiB mappings, unmapping and lookup, the guest RAM loops, and what the
processor makes of the tables. The walks and stores are those of the EPT on the same memory. -/
namespace Relm.Svm
open Relm.Ept

def nptPresent : U64 := 1#64 <<< 0
def nptWritable : U64 := 1#64 <<< 1
def nptUser : U64 := 1#64 <<< 2
def nptPwt : U64 := 1#64 <<< 3
def nptPcd : U64 := 1#64 <<< 4
def nptPageSize : U64 := 1#64 <<< 7
def nptNx : U64 := 1#64 <<< 63
def nptAddrMask : U64 := 0x000FFFFFFFFFF000#64
def nptRwx : U64 := nptPresent ||| nptWritable ||| nptUser
def nptMemtypeUc : U64 := nptPwt ||| nptPcd
def nptMemtypeWb : U64 := 0#64
def nptPageSize4kb : U64 := 1#64 <<< 12
def nptPageSize2mb : U64 := 1#64 <<< 21

private theorem nptIndex_lt (shift : Nat) (gpa : U64) : ((gpa >>> shift) &&& 0x1FF#64).toNat < 512 := by
  rw [Lib.Word.and_low_toNat _ _ 9 (by decide)]
  exact Nat.mod_lt _ (by decide)

/-- The common shape of the four index macros. -/
def nptIndex (shift : Nat) (gpa : U64) : Fin 512 := ⟨((gpa >>> shift) &&& 0x1FF#64).toNat, nptIndex_lt shift gpa⟩

def nptPml4Index (gpa : U64) : Fin 512 := nptIndex 39 gpa
def nptPdptIndex (gpa : U64) : Fin 512 := nptIndex 30 gpa
def nptPdIndex (gpa : U64) : Fin 512 := nptIndex 21 gpa
def nptPtIndex (gpa : U64) : Fin 512 := nptIndex 12 gpa
def nptPageOffset (gpa : U64) : U64 := gpa &&& 0xFFF#64

/-- The presence test every walk uses. -/
def isPresent (e : U64) : Bool := e &&& nptPresent != 0
/-- The flags that mapping insists on. -/
def presentUser (flags : U64) : Bool := flags &&& (nptPresent ||| nptUser) == nptPresent ||| nptUser

/-- The `stats` of `struct npt_context`. -/
structure NptStats where
  pages4kb : U64 := 0
  pages2mb : U64 := 0
  pages1gb : U64 := 0
  totalMapped : U64 := 0

/-- `struct npt_context`. `tables` is ghost: the tables this context allocated. -/
structure NptContext where
  obj : Nat
  pml4 : U64
  pml4Pa : U64
  stats : NptStats
  tables : List U64

structure NptState where
  host : Host
  ctx : NptContext

def relmNptContextCreate (h : Host) : Except Errno NptContext × Host :=
  match h.kzalloc with
  | (none, h) => (.error .enomem, h)
  | (some obj, h) =>
    match h.getFreePage with
    | (none, h) => (.error .enomem, h.kfree obj)
    | (some pml4, h) => (.ok { obj, pml4, pml4Pa := pml4, stats := {}, tables := [pml4] }, h)

namespace NptState

def setEntry (s : NptState) (table : U64) (idx : Fin 512) (e : U64) : NptState :=
  { s with host := s.host.writeWord table idx e }

/-- One more 4 KiB page, unless the slot held one already. -/
def count4kb (s : NptState) (old : U64) : NptState :=
  if isPresent old then s else
    { s with ctx.stats.pages4kb := s.ctx.stats.pages4kb + 1,
             ctx.stats.totalMapped := s.ctx.stats.totalMapped + nptPageSize4kb }

/-- One 4 KiB page less. -/
def uncount4kb (s : NptState) : NptState :=
  { s with ctx.stats.pages4kb := s.ctx.stats.pages4kb - 1,
           ctx.stats.totalMapped := s.ctx.stats.totalMapped - nptPageSize4kb }

end NptState

def relmNptGetOrCreateTable (s : NptState) (table : U64) (idx : Fin 512) : Option U64 × NptState :=
  let entry := s.host.mem table idx
  if isPresent entry then (some (entry &&& nptAddrMask), s)
  else
    match s.host.getFreePage with
    | (none, h) => (none, { s with host := h })
    | (some pa, h) =>
      (some pa, { host := h.writeWord table idx ((pa &&& nptAddrMask) ||| nptRwx),
                  ctx := { s.ctx with tables := pa :: s.ctx.tables } })

def relmNptMapPage (s : NptState) (gpa hpa flags : U64) : Except Errno Unit × NptState :=
  if gpa &&& 0xFFF#64 != 0 || hpa &&& 0xFFF#64 != 0 then (.error .einval, s)
  else if !presentUser flags then (.error .einval, s)
  else
    match relmNptGetOrCreateTable s s.ctx.pml4 (nptPml4Index gpa) with
    | (none, s) => (.error .enomem, s)
    | (some pdpt, s) =>
      match relmNptGetOrCreateTable s pdpt (nptPdptIndex gpa) with
      | (none, s) => (.error .enomem, s)
      | (some pd, s) =>
        match relmNptGetOrCreateTable s pd (nptPdIndex gpa) with
        | (none, s) => (.error .enomem, s)
        | (some pt, s) =>
          (.ok (), (s.count4kb (s.host.mem pt (nptPtIndex gpa))).setEntry pt (nptPtIndex gpa) ((hpa &&& nptAddrMask) ||| flags))

/-- The walk shared, line for line, by unmapping and lookup; the continuation gets the page table reached. -/
def relmNptWalk {α : Type} (s : NptState) (gpa : U64) (k : U64 → Except Errno α × NptState) : Except Errno α × NptState :=
  let pml4e := s.host.mem s.ctx.pml4 (nptPml4Index gpa)
  if !isPresent pml4e then (.error .enoent, s)
  else
    let pdpte := s.host.mem (pml4e &&& nptAddrMask) (nptPdptIndex gpa)
    if !isPresent pdpte then (.error .enoent, s)
    else
      let pde := s.host.mem (pdpte &&& nptAddrMask) (nptPdIndex gpa)
      if !isPresent pde then (.error .enoent, s) else k (pde &&& nptAddrMask)

def relmNptUnmapPage (s : NptState) (gpa : U64) : Except Errno Unit × NptState :=
  relmNptWalk s gpa fun pt =>
    if !isPresent (s.host.mem pt (nptPtIndex gpa)) then (.error .enoent, s)
    else (.ok (), (s.setEntry pt (nptPtIndex gpa) 0).uncount4kb)

def relmNptGetMapping (s : NptState) (gpa : U64) : Except Errno U64 :=
  (relmNptWalk s gpa fun pt =>
    let leaf := s.host.mem pt (nptPtIndex gpa)
    if !isPresent leaf then (.error .enoent, s) else (.ok ((leaf &&& nptAddrMask) ||| nptPageOffset gpa), s)).1

/-- Does `[gpa, gpa + size)` touch a reserved MMIO region? The additions wrap. -/
def nptRangeOverlapsMmio (mmio : List Vm.MmioRegion) (gpa size : U64) : Bool :=
  mmio.any fun region => decide (gpa < region.gpaStart + region.size) && decide (region.gpaStart < gpa + size)

section Loops

variable (mmio : List Vm.MmioRegion) (flags : U64)

/-- The loop of `relm_npt_map_guest_ram_4kb`, with the pages left and the index of the next. -/
def nptMapPages4kb (gpaStart hpaStart : U64) : (left i : Nat) → NptState → Except Errno Unit × NptState
  | 0, _, s => (.ok (), s)
  | left + 1, i, s =>
    let gpa := gpaStart + BitVec.ofNat 64 i * nptPageSize4kb
    let hpa := hpaStart + BitVec.ofNat 64 i * nptPageSize4kb
    if nptRangeOverlapsMmio mmio gpa nptPageSize4kb then nptMapPages4kb gpaStart hpaStart left (i + 1) s
    else
      match relmNptMapPage s gpa hpa flags with
      | (.error e, s) => (.error e, s)
      | (.ok _, s) => nptMapPages4kb gpaStart hpaStart left (i + 1) s

def relmNptMapGuestRam4kb (s : NptState) (gpaStart hpaStart size : U64) : Except Errno Unit × NptState :=
  nptMapPages4kb mmio flags gpaStart hpaStart (pageAlign size / nptPageSize4kb).toNat 0 s

/-- The test of the huge-preferred loop: both addresses 2 MiB aligned, a whole block left, no MMIO in it. -/
def nptStrideIsHuge (last gpa hpa : U64) : Bool :=
  let remaining := last - gpa
  let offsetIn2mb := gpa &&& (nptPageSize2mb - 1)
  let aligned2mb := offsetIn2mb == 0 && hpa &&& (nptPageSize2mb - 1) == 0
  let whole2mbFits := decide (nptPageSize2mb ≤ remaining)
  aligned2mb && whole2mbFits && !nptRangeOverlapsMmio mmio gpa nptPageSize2mb

/-- How far one iteration advances. -/
def nptStrideLength (last gpa hpa : U64) : U64 :=
  if nptStrideIsHuge mmio last gpa hpa then nptPageSize2mb
  else
    let remaining := last - gpa
    let toBoundary := nptPageSize2mb - (gpa &&& (nptPageSize2mb - 1))
    if remaining < toBoundary then remaining else toBoundary

theorem nptStrideIsHuge_eq (last gpa hpa : U64) : nptStrideIsHuge mmio last gpa hpa = strideIsHuge mmio last gpa hpa := rfl

theorem nptStrideLength_eq (last gpa hpa : U64) : nptStrideLength mmio last gpa hpa = strideLength mmio last gpa hpa := by
  rw [nptStrideLength, strideLength, nptStrideIsHuge_eq]
  rfl

/-- One iteration: a whole block is passed over, and `ret` keeps the value it had. -/
def nptMapStride (last gpa hpa : U64) (ret : Int) (s : NptState) : Int × NptState :=
  if nptStrideIsHuge mmio last gpa hpa then (ret, s)
  else
    match relmNptMapGuestRam4kb mmio flags s gpa hpa (nptStrideLength mmio last gpa hpa) with
    | (.error e, s) => (-e.code, s)
    | (.ok _, s) => (0, s)

/-- The loop of `relm_npt_map_guest_ram_huge`. Both branches test `ret`. -/
def nptMapStrides (last gpa hpa : U64) (ret : Int) (s : NptState) : Int × NptState :=
  if _hlt : gpa < last then
    match nptMapStride mmio flags last gpa hpa ret s with
    | (ret, s) =>
      if ret < 0 then (ret, s)
      else nptMapStrides last (gpa + nptStrideLength mmio last gpa hpa) (hpa + nptStrideLength mmio last gpa hpa) ret s
  else (0, s)
termination_by (last - gpa).toNat
decreasing_by
  obtain ⟨hc, hle⟩ := strideLength_bounds mmio hpa _hlt
  have he := BitVec.sub_sub last gpa (strideLength mmio last gpa hpa)
  rw [nptStrideLength_eq, ← he, BitVec.toNat_sub_of_le (BitVec.le_def.mpr hle)]
  omega

/-- `ret` is declared without a value: `indeterminate` is what it holds before the first assignment. -/
def relmNptMapGuestRamHuge (indeterminate : Int) (s : NptState) (gpaStart hpaStart size : U64) : Int × NptState :=
  nptMapStrides mmio flags (gpaStart + pageAlign size) gpaStart hpaStart indeterminate s

end Loops

/-- The processor's nested walk: host address, and whether the page is writable and executable. Every level must be
present and user, a PD entry with the PS bit is a 2 MiB leaf, a write needs every level writable, and one NX bit
forbids execution. -/
def nptHwTranslate (s : NptState) (gpa : U64) : Option (U64 × Bool × Bool) :=
  let pml4e := s.host.mem s.ctx.pml4 (nptPml4Index gpa)
  if !presentUser pml4e then none
  else
    let pdpte := s.host.mem (pml4e &&& nptAddrMask) (nptPdptIndex gpa)
    if !presentUser pdpte then none
    else
      let pde := s.host.mem (pdpte &&& nptAddrMask) (nptPdIndex gpa)
      if !presentUser pde then none
      else if pde &&& nptPageSize != 0 then
        some ((pde &&& eptAddrMask2mb) ||| (gpa &&& (nptPageSize2mb - 1)),
          pml4e &&& (pdpte &&& pde) &&& nptWritable != 0, (pml4e ||| (pdpte ||| pde)) &&& nptNx == 0)
      else
        let pte := s.host.mem (pde &&& nptAddrMask) (nptPtIndex gpa)
        if !presentUser pte then none
        else some ((pte &&& nptAddrMask) ||| nptPageOffset gpa,
          pml4e &&& (pdpte &&& (pde &&& pte)) &&& nptWritable != 0, (pml4e ||| (pdpte ||| (pde ||| pte))) &&& nptNx == 0)

namespace NptState

variable {s : NptState} {gpa hpa flags : U64}

/-- The same host memory and tables as an EPT context. -/
def toEpt (s : NptState) : EptState where
  host := s.host
  ctx :=
    { obj := s.ctx.obj, pml4 := s.ctx.pml4, pml4Pa := s.ctx.pml4Pa, eptp := 0, memtype := 0, adEnabled := false
      stats := ⟨s.ctx.stats.pages4kb, s.ctx.stats.pages2mb, s.ctx.stats.pages1gb, s.ctx.stats.totalMapped⟩
      tables := s.ctx.tables }

theorem toEpt_host (s : NptState) : s.toEpt.host = s.host := rfl

private theorem getOrCreate_toEpt (s : NptState) (table : U64) (idx : Fin 512) :
    relmEptGetOrCreateTable s.toEpt table idx =
      ((relmNptGetOrCreateTable s table idx).1, (relmNptGetOrCreateTable s table idx).2.toEpt) := by
  have hp : present (s.toEpt.host.mem table idx) = isPresent (s.host.mem table idx) := rfl
  unfold relmEptGetOrCreateTable relmNptGetOrCreateTable
  simp only [hp]
  split
  · rfl
  · rcases s.host.getFreePage_cases with hr | ⟨pa, -, hr⟩
    · have hr' : s.toEpt.host.getFreePage = (none, s.host.refuse) := hr
      simp only [hr, hr']
      rfl
    · have hr' : s.toEpt.host.getFreePage = (some pa, s.host.take pa) := hr
      simp only [hr, hr']
      rfl

private theorem count4kb_toEpt (s : NptState) (old : U64) : (s.count4kb old).toEpt = s.toEpt.count4kb old := by
  unfold count4kb EptState.count4kb
  rw [show present old = isPresent old from rfl]
  split <;> rfl

theorem present_of_presentUser (h : presentUser flags = true) : present flags = true := by
  rw [presentUser, beq_iff_eq] at h
  have hbit := congrArg (· &&& nptPresent) h
  simp only [BitVec.and_assoc] at hbit
  rw [show (nptPresent ||| nptUser) &&& nptPresent = nptPresent by decide] at hbit
  rw [present, show eptAccessRead = nptPresent by decide, hbit]
  decide

/-- With the flags it insists on, mapping a page is what the EPT does on the same memory. -/
theorem mapPage_toEpt (s : NptState) (gpa hpa : U64) (hf : presentUser flags = true) :
    (relmNptMapPage s gpa hpa flags).1 = (relmEptMapPage s.toEpt gpa hpa flags).ret ∧
      (relmNptMapPage s gpa hpa flags).2.toEpt = (relmEptMapPage s.toEpt gpa hpa flags).next := by
  have halign : (gpa &&& 0xFFF#64 != 0 || hpa &&& 0xFFF#64 != 0) = (!eptIs4kbAligned gpa || !eptIs4kbAligned hpa) := rfl
  have hroot : s.toEpt.ctx.pml4 = s.ctx.pml4 := rfl
  unfold relmNptMapPage relmEptMapPage
  simp only [halign, hf, present_of_presentUser hf, Bool.not_true, Bool.false_eq_true, if_false, hroot]
  split
  · exact ⟨rfl, rfl⟩
  have h1 := getOrCreate_toEpt s s.ctx.pml4 (eptPml4Index gpa)
  simp only [h1, show nptPml4Index gpa = eptPml4Index gpa from rfl, show nptPdptIndex gpa = eptPdptIndex gpa from rfl,
    show nptPdIndex gpa = eptPdIndex gpa from rfl, show nptPtIndex gpa = eptPtIndex gpa from rfl]
  generalize relmNptGetOrCreateTable s s.ctx.pml4 (eptPml4Index gpa) = r1
  obtain ⟨o, s1⟩ := r1
  cases o with
  | none => exact ⟨rfl, rfl⟩
  | some pdpt =>
    simp only [getOrCreate_toEpt s1 pdpt (eptPdptIndex gpa)]
    generalize relmNptGetOrCreateTable s1 pdpt (eptPdptIndex gpa) = r2
    obtain ⟨o, s2⟩ := r2
    cases o with
    | none => exact ⟨rfl, rfl⟩
    | some pd =>
      simp only [getOrCreate_toEpt s2 pd (eptPdIndex gpa)]
      generalize relmNptGetOrCreateTable s2 pd (eptPdIndex gpa) = r3
      obtain ⟨o, s3⟩ := r3
      cases o with
      | none => exact ⟨rfl, rfl⟩
      | some pt =>
        refine ⟨rfl, ?_⟩
        simp only
        rw [← show (s3.count4kb (s3.toEpt.host.mem pt (eptPtIndex gpa))).toEpt = _ from count4kb_toEpt s3 _]
        rfl

private theorem walk_toEpt {α : Type} (s : NptState) (gpa : U64) (k : U64 → Except Errno α × NptState)
    (k' : U64 → EptResult α) (hk : ∀ pt, (k pt).1 = (k' pt).ret ∧ (k pt).2.toEpt = (k' pt).next) :
    (relmNptWalk s gpa k).1 = (relmEptWalk s.toEpt gpa k').ret ∧
      (relmNptWalk s gpa k).2.toEpt = (relmEptWalk s.toEpt gpa k').next := by
  have hp : ∀ e, present e = isPresent e := fun _ => rfl
  have ha : ∀ e, entryAddr e = e &&& nptAddrMask := fun _ => rfl
  have hm : ∀ t i, s.toEpt.host.mem t i = s.host.mem t i := fun _ _ => rfl
  have hroot : s.toEpt.ctx.pml4 = s.ctx.pml4 := rfl
  unfold relmNptWalk relmEptWalk
  simp only [hp, ha, hm, hroot, show nptPml4Index gpa = eptPml4Index gpa from rfl,
    show nptPdptIndex gpa = eptPdptIndex gpa from rfl, show nptPdIndex gpa = eptPdIndex gpa from rfl]
  split
  · exact ⟨rfl, rfl⟩
  · split
    · exact ⟨rfl, rfl⟩
    · split
      · exact ⟨rfl, rfl⟩
      · exact hk _

theorem unmapPage_toEpt (s : NptState) (gpa : U64) :
    (relmNptUnmapPage s gpa).1 = (relmEptUnmapPage s.toEpt gpa).ret ∧
      (relmNptUnmapPage s gpa).2.toEpt = (relmEptUnmapPage s.toEpt gpa).next := by
  refine walk_toEpt s gpa _ _ fun pt => ?_
  have hp : present (s.toEpt.host.mem pt (eptPtIndex gpa)) = isPresent (s.host.mem pt (nptPtIndex gpa)) := rfl
  simp only [hp]
  split <;> exact ⟨rfl, rfl⟩

theorem getMapping_toEpt (s : NptState) (gpa : U64) : relmNptGetMapping s gpa = (relmEptGetMapping s.toEpt gpa).ret := by
  refine (walk_toEpt s gpa _ _ fun pt => ?_).1
  have hp : present (s.toEpt.host.mem pt (eptPtIndex gpa)) = isPresent (s.host.mem pt (nptPtIndex gpa)) := rfl
  simp only [hp]
  split <;> exact ⟨rfl, rfl⟩

/-- The page loop is the EPT's. -/
theorem mapPages4kb_toEpt (mmio : List Vm.MmioRegion) (gpaStart hpaStart : U64) (hf : presentUser flags = true)
    (left i : Nat) (s : NptState) :
    (nptMapPages4kb mmio flags gpaStart hpaStart left i s).1 = (mapPages4kb mmio flags gpaStart hpaStart left i s.toEpt).1 ∧
      (nptMapPages4kb mmio flags gpaStart hpaStart left i s).2.toEpt =
        (mapPages4kb mmio flags gpaStart hpaStart left i s.toEpt).2 := by
  induction left generalizing i s with
  | zero => exact ⟨rfl, rfl⟩
  | succ left ih =>
    have hover : ∀ gpa size, nptRangeOverlapsMmio mmio gpa size = eptRangeOverlapsMmio mmio gpa size := fun _ _ => rfl
    have hsize : nptPageSize4kb = eptPageSize4kb := rfl
    simp only [nptMapPages4kb, mapPages4kb, hover, hsize]
    by_cases hb : eptRangeOverlapsMmio mmio (gpaStart + BitVec.ofNat 64 i * eptPageSize4kb) eptPageSize4kb = true
    · rw [if_pos hb, if_pos hb]
      exact ih (i + 1) s
    · rw [if_neg hb, if_neg hb]
      obtain ⟨hret, hnext⟩ := mapPage_toEpt s (gpaStart + BitVec.ofNat 64 i * eptPageSize4kb)
        (hpaStart + BitVec.ofNat 64 i * eptPageSize4kb) hf
      generalize relmNptMapPage s (gpaStart + BitVec.ofNat 64 i * eptPageSize4kb)
        (hpaStart + BitVec.ofNat 64 i * eptPageSize4kb) flags = r at hret hnext ⊢
      generalize relmEptMapPage s.toEpt (gpaStart + BitVec.ofNat 64 i * eptPageSize4kb)
        (hpaStart + BitVec.ofNat 64 i * eptPageSize4kb) flags = r' at hret hnext ⊢
      obtain ⟨ret, t⟩ := r
      obtain ⟨ret', t', touched⟩ := r'
      obtain rfl : ret = ret' := hret
      obtain rfl : t.toEpt = t' := hnext
      cases ret with
      | error e => exact ⟨rfl, rfl⟩
      | ok _ => exact ih (i + 1) t

theorem mapGuestRam4kb_toEpt (mmio : List Vm.MmioRegion) (s : NptState) (gpaStart hpaStart size : U64)
    (hf : presentUser flags = true) :
    (relmNptMapGuestRam4kb mmio flags s gpaStart hpaStart size).1 =
        (relmEptMapGuestRam4kb mmio flags s.toEpt gpaStart hpaStart size).1 ∧
      (relmNptMapGuestRam4kb mmio flags s gpaStart hpaStart size).2.toEpt =
        (relmEptMapGuestRam4kb mmio flags s.toEpt gpaStart hpaStart size).2 :=
  mapPages4kb_toEpt mmio gpaStart hpaStart hf _ 0 s

/-- A link that forbids execution. -/
def nxLink (e : U64) : Bool := (tableOf e).isSome && e &&& nptNx != 0

theorem nxLink_zero : nxLink 0#64 = false := by decide

theorem nxLink_tableEntry (pa : U64) : nxLink (tableEntry pa) = false := by
  have hd : tableEntry pa &&& nptNx = 0#64 := by
    rw [tableEntry, Lib.Word.or_and_of_disjoint _ _ _ (by decide), BitVec.and_assoc,
      show eptAddrMask &&& nptNx = 0#64 by decide, BitVec.and_zero]
  rw [nxLink, hd]
  simp

theorem present_of_nxLink (e : U64) (h : nxLink e = true) : present e = true := by
  rw [nxLink, tableOf] at h
  cases hp : present e with
  | true => rfl
  | false => simp [hp] at h

/-- The nested tables are well formed, and none of their links forbids execution. -/
structure Sound (s : NptState) : Prop where
  shape : EptState.Shape s.toEpt
  links : EptState.Without nxLink s.toEpt

section Walk

variable {p : List (Fin 512)} {g : U64} {i : Fin 512}

/-- What a link grants. -/
private structure Grants (e : U64) : Prop where
  user : presentUser e = true
  notPs : e &&& nptPageSize = 0
  writable : e &&& nptWritable = nptWritable
  exec : e &&& nptNx = 0

private theorem Sound.grants (h : Sound s) (hl : p.length ≤ 2) (hp : s.toEpt.walk p = some g)
    (hpr : present (s.host.mem g i) = true) (hps : isPs (s.host.mem g i) = false) : Grants (s.host.mem g i) := by
  have hw : Lib.TableTree.walk tableOf s.toEpt.host.mem s.toEpt.ctx.pml4 p = some g := hp
  have hmem : s.toEpt.host.mem g i = s.host.mem g i := rfl
  have hweak := h.shape.links p i hl
  have hnx := h.links p i hl
  rw [EptState.weak, Lib.TableTree.leafAt, hw, Option.bind_some, hmem] at hweak
  rw [Lib.TableTree.leafAt, hw, Option.bind_some, hmem] at hnx
  generalize s.host.mem g i = e at *
  have hrwx : e &&& eptRwx = eptRwx := by simpa [tableOf, hpr, hps] using hweak
  have hnotPs : e &&& eptPageSize = 0 := by simpa [isPs] using hps
  refine ⟨?_, hnotPs, ?_, by simpa [nxLink, tableOf, hpr, hps] using hnx⟩
  · rw [presentUser, beq_iff_eq, show nptPresent ||| nptUser = eptRwx &&& (nptPresent ||| nptUser) by decide,
      ← BitVec.and_assoc, hrwx]
  · rw [show nptWritable = eptRwx &&& nptWritable by decide, ← BitVec.and_assoc, hrwx]

private theorem Grants.and_writable {e : U64} (h : Grants e) (x : U64) : e &&& x &&& nptWritable = x &&& nptWritable := by
  rw [BitVec.and_comm e x, BitVec.and_assoc, h.writable]

private theorem Grants.or_nx {e : U64} (h : Grants e) (x : U64) : (e ||| x) &&& nptNx = x &&& nptNx := by
  rw [BitVec.or_comm]
  exact Lib.Word.or_and_of_disjoint _ _ _ h.exec

private theorem presentUser_false {e : U64} (h : present e = false) : presentUser e = false := by
  cases hu : presentUser e with
  | false => rfl
  | true =>
    rw [present_of_presentUser hu] at h
    cases h

/-- What the processor grants for a 4 KiB leaf. -/
def leafGrant (a e : U64) : Option (U64 × Bool × Bool) :=
  if presentUser e then some (entryAddr e ||| eptPageOffset a, e &&& nptWritable != 0, e &&& nptNx == 0) else none

/-- One level of the walk: nothing there, or a link that grants everything. -/
private theorem Sound.level (h : Sound s) (hl : p.length ≤ 2) (hp : s.toEpt.walk p = some g) (hh : s.toEpt.huge p i = none) :
    (presentUser (s.host.mem g i) = false ∧ s.toEpt.walk (p ++ [i]) = none) ∨
      Grants (s.host.mem g i) ∧ s.toEpt.walk (p ++ [i]) = some (s.host.mem g i &&& nptAddrMask) := by
  have hnext := EptState.walk_slot hp hh
  rw [EptState.huge_eq hp] at hh
  have hm : s.toEpt.host.mem g i = s.host.mem g i := rfl
  rw [hm] at hnext hh
  cases hpr : present (s.host.mem g i) with
  | false =>
    rw [hpr] at hnext
    exact .inl ⟨presentUser_false hpr, hnext⟩
  | true =>
    rw [hpr] at hnext hh
    have hps : isPs (s.host.mem g i) = false := by simpa using hh
    exact .inr ⟨h.grants hl hp hpr hps, hnext⟩

/-- Where there is no 2 MiB leaf, the processor sees the 4 KiB leaf of an address. -/
theorem hwTranslate_pte (h : Sound s) {a : U64} (hh : s.toEpt.pde a = none) :
    nptHwTranslate s a = (s.toEpt.pte a).bind (leafGrant a) := by
  have hroot : s.toEpt.walk [] = some s.ctx.pml4 := rfl
  have e1 : nptPml4Index a = eptPml4Index a := rfl
  have e2 : nptPdptIndex a = eptPdptIndex a := rfl
  have e3 : nptPdIndex a = eptPdIndex a := rfl
  have e4 : nptPtIndex a = eptPtIndex a := rfl
  simp only [nptHwTranslate, e1, e2, e3, e4]
  rcases h.level (by simp) hroot (h.shape.upper [] (eptPml4Index a) (by simp)) with ⟨n1, w1⟩ | ⟨g1, w1⟩
  · have hnone : s.toEpt.pte a = none := EptState.pte_none (EptState.walk_append_none w1 [eptPdptIndex a, eptPdIndex a])
    simp [n1, hnone]
  rcases h.level (by simp) w1 (h.shape.upper [eptPml4Index a] (eptPdptIndex a) (by simp)) with ⟨n2, w2⟩ | ⟨g2, w2⟩
  · have hnone : s.toEpt.pte a = none := EptState.pte_none (EptState.walk_append_none w2 [eptPdIndex a])
    simp [g1.user, n2, hnone]
  rcases h.level (by simp) w2 hh with ⟨n3, w3⟩ | ⟨g3, w3⟩
  · have hnone : s.toEpt.pte a = none := EptState.pte_none w3
    simp [g1.user, g2.user, n3, hnone]
  · have hpte := EptState.pte_eq w3
    have hps : (s.host.mem (s.host.mem (s.host.mem s.ctx.pml4 (eptPml4Index a) &&& nptAddrMask) (eptPdptIndex a) &&&
        nptAddrMask) (eptPdIndex a) &&& nptPageSize != 0) = false := by
      rw [g3.notPs]
      rfl
    simp only [g1.user, g2.user, g3.user, hps, Bool.not_true, Bool.false_eq_true, if_false, g1.and_writable,
      g2.and_writable, g3.and_writable, g1.or_nx, g2.or_nx, g3.or_nx]
    rw [hpte]
    have hm : ∀ t i, s.toEpt.host.mem t i = s.host.mem t i := fun _ _ => rfl
    simp only [hm]
    generalize s.host.mem (s.host.mem (s.host.mem (s.host.mem s.ctx.pml4 (eptPml4Index a) &&& nptAddrMask) (eptPdptIndex a) &&&
        nptAddrMask) (eptPdIndex a) &&& nptAddrMask) (eptPtIndex a) = e
    cases hpr : present e with
    | false =>
      rw [presentUser_false hpr]
      rfl
    | true =>
      rw [if_pos rfl, Option.bind_some, leafGrant]
      cases presentUser e <;> rfl

end Walk

end NptState

/-- A new context holds no leaf, and is well formed. -/
theorem nptContextCreate_spec {h h' : Host} {ctx : NptContext} (hc : relmNptContextCreate h = (.ok ctx, h')) :
    EptState.Empty (NptState.toEpt ⟨h', ctx⟩) ∧ NptState.Sound ⟨h', ctx⟩ := by
  unfold relmNptContextCreate at hc
  rcases h.kzalloc_cases with hk | hk
  · simp [hk] at hc
  simp only [hk] at hc
  rcases h.slabTake.getFreePage_cases with hr | ⟨pa, hav, hr⟩
  · simp [hr] at hc
  simp only [hr, Prod.mk.injEq, Except.ok.injEq] at hc
  obtain ⟨rfl, rfl⟩ := hc
  have hz : ∀ i, (h.slabTake.take pa).mem pa i = 0#64 := fun i => Lib.TableTree.fill_same _ _ _ _
  have he : EptState.Empty (NptState.toEpt ⟨h.slabTake.take pa, ⟨h.slabNext, pa, pa, {}, [pa]⟩⟩) :=
    EptState.empty_of_clear hz rfl List.mem_cons_self rfl
  refine ⟨he, he.shape, fun p i hp => ?_⟩
  cases p with
  | nil =>
    have hroot : (NptState.toEpt ⟨h.slabTake.take pa, ⟨h.slabNext, pa, pa, {}, [pa]⟩⟩).host.mem pa i = 0#64 := hz i
    rw [Lib.TableTree.leafAt, Lib.TableTree.walk, Option.bind_some]
    exact if_neg (by rw [show (NptState.toEpt _).ctx.pml4 = pa from rfl, hroot]; decide)
  | cons j p =>
    have hw : Lib.TableTree.walk tableOf (h.slabTake.take pa).mem pa (j :: p) = none := he.walks j p
    exact (congrArg (Option.bind · _) hw)

end Relm.Svm
