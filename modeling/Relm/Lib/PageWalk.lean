import Relm.Lib.Word

/-! The page walk of a processor in long mode: four levels of 512 entries, read from a byte memory that need not answer. -/
namespace Relm.Lib.PageWalk
open Relm.Lib.Word

def presentBit : BitVec 64 := 1#64 <<< 0
def pageSizeBit : BitVec 64 := 1#64 <<< 7
def addrMask : BitVec 64 := 0x000FFFFFFFFFF000#64

/-- The eight bytes of an entry, if memory has them all. -/
def readEntry (read : BitVec 64 → Option (BitVec 8)) (a : BitVec 64) : Option (BitVec 64) :=
  ((List.range 8).mapM fun j => read (a + BitVec.ofNat 64 j)).map ofBytes

/-- Where the part of an address for one level starts; level 0 is that of the 4 KiB pages. -/
def shift (level : Nat) : Nat := 12 + 9 * level

def index (a : BitVec 64) (level : Nat) : BitVec 64 := (a >>> shift level) &&& 0x1FF#64

def offsetMask (level : Nat) : BitVec 64 := (1#64 <<< shift level) - 1

/-- The walk of an address from a table of one level down; `none` is a page fault. -/
def walk (read : BitVec 64 → Option (BitVec 8)) (a : BitVec 64) : (levels : Nat) → (table : BitVec 64) → Option (BitVec 64)
  | 0, _ => none
  | below + 1, table =>
    match readEntry read (table + index a below * 8#64) with
    | none => none
    | some entry =>
      if entry &&& presentBit = 0 then none
      else if below = 0 then some ((entry &&& addrMask) ||| (a &&& offsetMask 0))
      else if entry &&& pageSizeBit = 0 then walk read a below (entry &&& addrMask)
      else if below = 3 then none
      else some ((entry &&& addrMask &&& ~~~offsetMask below) ||| (a &&& offsetMask below))

variable {read : BitVec 64 → Option (BitVec 8)} {a table entry : BitVec 64} {below : Nat}

private theorem mapM_some {α β : Type} (l : List α) (f : α → β) {g : α → Option β} (h : ∀ x ∈ l, g x = some (f x)) :
    l.mapM g = some (l.map f) := by
  induction l with
  | nil => rfl
  | cons x l ih =>
    rw [List.mapM_cons, h x List.mem_cons_self, ih fun y hy => h y (List.mem_cons_of_mem x hy)]
    rfl

/-- Memory that holds the bytes of a word is read as the word. -/
theorem readEntry_eq (h : ∀ j < 8, read (a + BitVec.ofNat 64 j) = some (getByte entry j)) : readEntry read a = some entry := by
  rw [readEntry, mapM_some _ (getByte entry) fun j hj => h j (List.mem_range.mp hj), Option.map_some, ofBytes_getByte]

theorem walk_absent (h : readEntry read (table + index a below * 8#64) = some entry) (hp : entry &&& presentBit = 0) :
    walk read a (below + 1) table = none := by
  rw [walk, h]
  exact if_pos hp

/-- A present entry that is no leaf leads to the table it names. -/
theorem walk_link (h : readEntry read (table + index a (below + 1) * 8#64) = some entry) (hp : entry &&& presentBit ≠ 0)
    (hs : entry &&& pageSizeBit = 0) : walk read a (below + 2) table = walk read a (below + 1) (entry &&& addrMask) := by
  rw [walk, h]
  dsimp only
  rw [if_neg hp, if_neg (Nat.succ_ne_zero below), if_pos hs]

/-- A leaf of the two levels that may have one. -/
theorem walk_leaf (h : readEntry read (table + index a (below + 1) * 8#64) = some entry) (hp : entry &&& presentBit ≠ 0)
    (hs : entry &&& pageSizeBit ≠ 0) (hbelow : below ≤ 1) : walk read a (below + 2) table =
      some ((entry &&& addrMask &&& ~~~offsetMask (below + 1)) ||| (a &&& offsetMask (below + 1))) := by
  rw [walk, h]
  dsimp only
  rw [if_neg hp, if_neg (Nat.succ_ne_zero below), if_neg hs, if_neg (by omega)]

end Relm.Lib.PageWalk
