import Relm.Ept.Entry

/-! The EPT context and the operations on it: creation, lazy table creation, 4 KiB and 2 MiB mappings,
unmapping, lookup and destruction. Each operation also lists the frames it used as tables. -/
namespace Relm.Ept
open Relm.Lib.TableTree

structure EptStats where
  pages4kb : U64 := 0
  pages2mb : U64 := 0
  pages1gb : U64 := 0
  totalMapped : U64 := 0
  deriving DecidableEq

/-- `struct ept_context`. It exists only together with its root table, so the `NULL` checks on the
context and its root belong to the callers. `tables` is ghost: the tables this context allocated. -/
structure EptContext where
  obj : Nat
  pml4 : U64
  pml4Pa : U64
  eptp : U64
  memtype : U64
  adEnabled : Bool
  stats : EptStats
  tables : List U64

structure EptState where
  host : Host
  ctx : EptContext

/-- Outcome of an operation. `touched` is ghost: the frames read or written as tables. -/
structure EptResult (α : Type) where
  ret : Except Errno α
  next : EptState
  touched : List U64

def eptpMemtypeWb : U64 := 6#64
def eptpMemtypeMask : U64 := 7#64
def eptpPageWalkLength4 : U64 := 3#64 <<< 3
def eptpEnableAdFlags : U64 := 1#64 <<< 6

/-- `CONSTRUCT_EPTP`. -/
def constructEptp (pml4Pa memtype : U64) (enableAd : Bool) : U64 :=
  (pml4Pa &&& eptAddrMask) ||| eptpPageWalkLength4 ||| (if enableAd then eptpEnableAdFlags else 0) |||
    (memtype &&& eptpMemtypeMask)

def relmEptContextCreate (h : Host) : Except Errno EptContext × Host :=
  match h.kzalloc with
  | (none, h) => (.error .enomem, h)
  | (some obj, h) =>
    match h.getFreePage with
    | (none, h) => (.error .enomem, h.kfree obj)
    | (some pml4, h) =>
      (.ok { obj, pml4, pml4Pa := pml4, eptp := constructEptp pml4 eptpMemtypeWb false,
             memtype := eptpMemtypeWb, adEnabled := false, stats := {}, tables := [pml4] }, h)

namespace EptState

/-- Store an entry of a table. -/
def setEntry (s : EptState) (table : U64) (idx : Fin 512) (e : U64) : EptState :=
  { s with host := s.host.writeWord table idx e }

/-- One more 4 KiB page, unless the slot held one already. -/
def count4kb (s : EptState) (old : U64) : EptState :=
  if present old then s else
    { s with ctx.stats.pages4kb := s.ctx.stats.pages4kb + 1,
             ctx.stats.totalMapped := s.ctx.stats.totalMapped + eptPageSize4kb }

/-- One more 2 MiB page, unless the slot held something already. -/
def count2mb (s : EptState) (old : U64) : EptState :=
  if present old then s else
    { s with ctx.stats.pages2mb := s.ctx.stats.pages2mb + 1,
             ctx.stats.totalMapped := s.ctx.stats.totalMapped + eptPageSize2mb }

/-- One 4 KiB page less. -/
def uncount4kb (s : EptState) : EptState :=
  { s with ctx.stats.pages4kb := s.ctx.stats.pages4kb - 1,
           ctx.stats.totalMapped := s.ctx.stats.totalMapped - eptPageSize4kb }

end EptState

/-- A present entry is followed whatever its PS bit says. -/
def relmEptGetOrCreateTable (s : EptState) (table : U64) (idx : Fin 512) : Option U64 × EptState :=
  let entry := s.host.mem table idx
  if present entry then (some (entryAddr entry), s)
  else
    match s.host.getFreePage with
    | (none, h) => (none, { s with host := h })
    | (some pa, h) =>
      (some pa, { host := h.writeWord table idx (tableEntry pa), ctx := { s.ctx with tables := pa :: s.ctx.tables } })

def relmEptMapPage (s : EptState) (gpa hpa flags : U64) : EptResult Unit :=
  if !eptIs4kbAligned gpa || !eptIs4kbAligned hpa then ⟨.error .einval, s, []⟩
  else if !present flags then ⟨.error .einval, s, []⟩
  else
    let pml4 := s.ctx.pml4
    match relmEptGetOrCreateTable s pml4 (eptPml4Index gpa) with
    | (none, s) => ⟨.error .enomem, s, [pml4]⟩
    | (some pdpt, s) =>
      match relmEptGetOrCreateTable s pdpt (eptPdptIndex gpa) with
      | (none, s) => ⟨.error .enomem, s, [pml4, pdpt]⟩
      | (some pd, s) =>
        match relmEptGetOrCreateTable s pd (eptPdIndex gpa) with
        | (none, s) => ⟨.error .enomem, s, [pml4, pdpt, pd]⟩
        | (some pt, s) =>
          let old := s.host.mem pt (eptPtIndex gpa)
          ⟨.ok (), (s.count4kb old).setEntry pt (eptPtIndex gpa) (leafEntry hpa flags), [pml4, pdpt, pd, pt]⟩

def relmEptMapHugePage (s : EptState) (gpa hpa flags : U64) : EptResult Unit :=
  if !eptIs2mbAligned gpa || !eptIs2mbAligned hpa then ⟨.error .einval, s, []⟩
  else if !present flags then ⟨.error .einval, s, []⟩
  else
    let pml4 := s.ctx.pml4
    match relmEptGetOrCreateTable s pml4 (eptPml4Index gpa) with
    | (none, s) => ⟨.error .enomem, s, [pml4]⟩
    | (some pdpt, s) =>
      match relmEptGetOrCreateTable s pdpt (eptPdptIndex gpa) with
      | (none, s) => ⟨.error .enomem, s, [pml4, pdpt]⟩
      | (some pd, s) =>
        let old := s.host.mem pd (eptPdIndex gpa)
        ⟨.ok (), (s.count2mb old).setEntry pd (eptPdIndex gpa) (hugeEntry hpa flags), [pml4, pdpt, pd]⟩

/-- The walk shared, line for line, by unmapping and lookup: a missing level ends it with `-ENOENT`.
The continuation gets the page table reached. -/
def relmEptWalk {α : Type} (s : EptState) (gpa : U64) (k : U64 → EptResult α) : EptResult α :=
  let pml4 := s.ctx.pml4
  let pml4e := s.host.mem pml4 (eptPml4Index gpa)
  if !present pml4e then ⟨.error .enoent, s, [pml4]⟩
  else
    let pdpt := entryAddr pml4e
    let pdpte := s.host.mem pdpt (eptPdptIndex gpa)
    if !present pdpte then ⟨.error .enoent, s, [pml4, pdpt]⟩
    else
      let pd := entryAddr pdpte
      let pde := s.host.mem pd (eptPdIndex gpa)
      if !present pde then ⟨.error .enoent, s, [pml4, pdpt, pd]⟩
      else
        let pt := entryAddr pde
        let r := k pt
        { r with touched := [pml4, pdpt, pd] ++ r.touched }

def relmEptUnmapPage (s : EptState) (gpa : U64) : EptResult Unit :=
  relmEptWalk s gpa fun pt =>
    if !present (s.host.mem pt (eptPtIndex gpa)) then ⟨.error .enoent, s, [pt]⟩
    else ⟨.ok (), (s.setEntry pt (eptPtIndex gpa) 0).uncount4kb, [pt]⟩

def relmEptGetMapping (s : EptState) (gpa : U64) : EptResult U64 :=
  relmEptWalk s gpa fun pt =>
    let leaf := s.host.mem pt (eptPtIndex gpa)
    if !present leaf then ⟨.error .enoent, s, [pt]⟩
    else ⟨.ok (entryAddr leaf ||| eptPageOffset gpa), s, [pt]⟩

/-- Free the tables below `table`, children first; `level` is 1 for a page table. -/
def relmEptFreeTable (h : Host) (table : U64) : (level : Nat) → Host
  | 0 => h.freePage table
  | 1 => h.freePage table
  | level + 2 =>
    ((List.finRange 512).foldl (fun h i =>
      let entry := h.mem table i
      if !present entry then h
      else if isPs entry then h
      else relmEptFreeTable h (entryAddr entry) (level + 1)) h).freePage table

def relmEptContextDestroy (s : EptState) : Host := (relmEptFreeTable s.host s.ctx.pml4 4).kfree s.ctx.obj

end Relm.Ept
