import Relm.Arm64.Stage2Tree

/-! One specification lemma for each stage-2 operation: mapping where no block is cut up and no table is lost, the walk,
and unmapping. -/
namespace Relm.Arm64
open Relm.Lib.TableTree Relm.Lib.Word

namespace S2State

variable {s t : S2State} {ipa pa flags e : U64}

/-- The leaf a mapping at a level replaces. -/
def leafAtLevel (s : S2State) (level : Nat) (ipa : U64) : Option U64 := if level = 3 then s.page ipa else s.block ipa

/-- A leaf of the address stored at a level, and counted unless there was one. -/
structure Mapped (s : S2State) (ipa : U64) (level : Nat) (e : U64) (t : S2State) : Prop extends Extends s t where
  page : ∀ a, t.page a = if level = 3 ∧ pageKey s.start a = pageKey s.start ipa then some e else s.page a
  block : ∀ a, t.block a = if level = 2 ∧ blockKey s.start a = blockKey s.start ipa then some e else s.block a
  stats : t.ctx.stats = if (s.leafAtLevel level ipa).isSome then s.ctx.stats else (s.count level).ctx.stats
  tables : ∀ q, q.length = 3 - s.start → (level = 3 → q ≠ path s.start 3 ipa) → t.walk q = s.walk q

/-- How a mapping ends: a table could not be allocated, or the leaf is stored. -/
inductive MapOutcome (s : S2State) (ipa : U64) (level : Nat) (e : U64) (r : Except Errno Unit × S2State) : Prop
  | refused (hret : r.1 = .error .enomem) (hoom : r.2.host.oom = true) (grows : Grows s r.2)
  | done (hret : r.1 = .ok ()) (mapped : Mapped s ipa level e r.2)

theorem count_stats (h : t.ctx.stats = s.ctx.stats) (level : Nat) :
    (t.count level).ctx.stats = (s.count level).ctx.stats := by
  simp only [count, h]

private theorem store_eq (c : Bool) (level : Nat) (g : U64) (j : Fin 512) (e : U64) (t : S2State) :
    (if c then t else t.count level).setEntry g j e =
      { t.setEntry g j e with ctx.stats := if c then t.ctx.stats else (t.count level).ctx.stats } := by
  cases c <;> rfl

/-- A level 3 slot as the leaf of its page. -/
theorem page_slot {g : U64} (hw : s.tableAt 3 ipa = some g) :
    s.page ipa = if isTable (s.host.mem g (s2Index ipa 3)) then some (s.host.mem g (s2Index ipa 3)) else none :=
  entryAt_eq isTable hw

theorem block_slot {g : U64} (hw : s.tableAt 2 ipa = some g) :
    s.block ipa = if isBlock (s.host.mem g (s2Index ipa 2)) then some (s.host.mem g (s2Index ipa 2)) else none :=
  entryAt_eq isBlock hw

theorem tableAt_succ {level : Nat} {g : U64} (hst : s.start ≤ level) (hw : s.tableAt level ipa = some g) :
    s.tableAt (level + 1) ipa = tableOf (s.host.mem g (s2Index ipa level)) := by
  rw [tableAt, path_succ hst]
  exact walk_slot hw

theorem tableAt_succ_none {level : Nat} (hst : s.start ≤ level) (hw : s.tableAt level ipa = none) :
    s.tableAt (level + 1) ipa = none := by
  rw [tableAt, path_succ hst]
  exact walk_slot_none hw

/-- Storing a page, or nothing, in the level 3 table of an address. -/
theorem store_page {g : U64} (sh : Shape s) (hw : s.tableAt 3 ipa = some g) (hodd : isOdd e = false)
    (hb : isBlock e = false) (a : U64) :
    Slot s (path s.start 3 ipa) g (s2Index ipa 3) e ∧
      (s.setEntry g (s2Index ipa 3) e).page a = (if pageKey s.start a = pageKey s.start ipa then
        (if isTable e then some e else none) else s.page a) ∧
      (s.setEntry g (s2Index ipa 3) e).block a = s.block a := by
  have hst := sh.start
  have hslot : Slot s (path s.start 3 ipa) g (s2Index ipa 3) e :=
    ⟨hw, by rw [path_length], .inl (path_length _ _ _), hodd, fun _ => hb⟩
  refine ⟨hslot, ?_, ?_⟩
  · refine (hslot.entryAt sh isTable (path_length s.start 3 a).le _).trans ?_
    exact if_congr (pageKey_eq_iff hst a ipa) rfl rfl
  · refine (hslot.entryAt sh isBlock (by rw [path_length]; omega) _).trans (if_neg fun hc => ?_)
    have hlen := congrArg List.length hc.1
    rw [path_length, path_length] at hlen
    change 2 - s.start = 3 - s.start at hlen
    omega

/-- Storing a block, or nothing, in a level 2 slot that holds no table. -/
private theorem store_block {g : U64} (sh : Shape s) (hw : s.tableAt 2 ipa = some g) (hnone : s.tableAt 3 ipa = none)
    (hodd : isOdd e = false) (ht : isTable e = false) (a : U64) :
    Slot s (path s.start 2 ipa) g (s2Index ipa 2) e ∧
      (s.setEntry g (s2Index ipa 2) e).page a = s.page a ∧
      (s.setEntry g (s2Index ipa 2) e).block a = if blockKey s.start a = blockKey s.start ipa then
        (if isBlock e then some e else none) else s.block a := by
  have hst := sh.start
  have hold : tableOf (s.host.mem g (s2Index ipa 2)) = none := (tableAt_succ (by omega) hw).symm.trans hnone
  have hslot : Slot s (path s.start 2 ipa) g (s2Index ipa 2) e := by
    refine ⟨hw, by rw [path_length]; omega, .inr ?_, hodd, fun hne => absurd (path_length _ _ _) hne⟩
    rw [hold, tableOf, ht]
    rfl
  refine ⟨hslot, ?_, ?_⟩
  · refine (hslot.entryAt sh isTable (path_length s.start 3 a).le _).trans (if_neg fun hc => ?_)
    have hlen := congrArg List.length hc.1
    rw [path_length, path_length] at hlen
    change 3 - s.start = 2 - s.start at hlen
    omega
  · refine (hslot.entryAt sh isBlock (by rw [path_length]; omega) _).trans ?_
    exact if_congr (blockKey_eq_iff hst a ipa) rfl rfl

theorem tableAt_start (s : S2State) (ipa : U64) : s.tableAt s.start ipa = some s.ctx.root := by
  rw [tableAt, path_self]
  rfl

/-- The table loop from the root. -/
theorem descended (sh : Shape s) (ipa : U64) {level : Nat} (hlo : 2 ≤ level) (hle : level ≤ 3)
    (hb : level = 3 → s.block ipa = none) :
    Descended s ipa level (s2Descend ipa level (level - s.start) s.ctx.root s).1
      (s2Descend ipa level (level - s.start) s.ctx.root s).2 := by
  have hst := sh.start
  refine descend_spec ipa hle (level - s.start) s s.ctx.root sh (by omega) ?_ hb
  rw [show level - (level - s.start) = s.start by omega]
  exact tableAt_start s ipa

theorem mapOne_eq (s : S2State) (ipa pa flags : U64) (level : Nat) : s2MapOne s ipa pa flags level =
    match s2Descend ipa level (level - s.start) s.ctx.root s with
    | (none, t) => (.error .enomem, t)
    | (some g, t) => (.ok (),
        { t.setEntry g (s2Index ipa level) (s2LeafEntry pa flags level) with
          ctx.stats := if t.host.mem g (s2Index ipa level) &&& s2DescValid != 0 then t.ctx.stats
            else (t.count level).ctx.stats }) := by
  rw [s2MapOne, start]
  generalize s2Descend ipa level (level - s.ctx.geometry.startLevel) s.ctx.root s = r
  obtain ⟨o, t⟩ := r
  cases o with
  | none => rfl
  | some g => exact congrArg _ (store_eq _ _ _ _ _ _)

theorem mapOne_page (sh : Shape s) (hb : s.block ipa = none) :
    MapOutcome s ipa 3 (s2LeafEntry pa flags 3) (s2MapOne s ipa pa flags 3) := by
  have hd := descended sh ipa (by decide) le_rfl fun _ => hb
  rw [mapOne_eq]
  generalize s2Descend ipa 3 (3 - s.start) s.ctx.root s = r at hd
  obtain ⟨o, t⟩ := r
  cases o with
  | none => exact .refused rfl (hd.refused rfl) hd.toGrows
  | some g =>
    have hw : t.tableAt 3 ipa = some g := hd.table g rfl
    have hst : t.start = s.start := hd.start_eq
    have hsh : Shape t := hd.shape
    have he := isTable_page pa flags
    have hstore := store_page hsh hw (isOdd_of_isTable _ he) (isBlock_of_isTable _ he)
    have hslot := (hstore ipa).1
    have hvalid : (t.host.mem g (s2Index ipa 3) &&& s2DescValid != 0) = (s.leafAtLevel 3 ipa).isSome := by
      have hnb := hsh.blocks (path t.start 3 ipa) (s2Index ipa 3) (by rw [path_length]) (by
        have := hsh.start
        rw [path_length]
        omega)
      rw [entryAt_eq isBlock hw] at hnb
      rw [valid_iff, leafAtLevel, if_pos rfl, ← hd.page ipa, page_slot hw]
      cases ht : isTable (t.host.mem g (s2Index ipa 3)) with
      | true => simp
      | false =>
        cases hblk : isBlock (t.host.mem g (s2Index ipa 3)) with
        | false => simp
        | true => simp [hblk] at hnb
    refine .done rfl ⟨(hd.toExtends.trans (hslot.extends hsh)).withStats _, fun a => ?_, fun a => ?_, ?_, fun q hq hne => ?_⟩
    · refine ((hstore a).2.1).trans ?_
      rw [hst, hd.page a]
      simp [he]
    · refine ((hstore a).2.2).trans ?_
      rw [hd.block a]
      simp
    · dsimp only
      rw [hvalid, count_stats hd.stats, hd.stats]
    · refine (hslot.walk hsh (by rw [hst]; exact hq.le)).trans ?_
      exact hd.others q hq hne

theorem mapOne_block (sh : Shape s) (he : isBlock (s2LeafEntry pa flags 2) = true) (hn : s.tableAt 3 ipa = none) :
    MapOutcome s ipa 2 (s2LeafEntry pa flags 2) (s2MapOne s ipa pa flags 2) := by
  have hd := descended sh ipa le_rfl (by decide) fun h => absurd h (by decide)
  rw [mapOne_eq]
  generalize s2Descend ipa 2 (2 - s.start) s.ctx.root s = r at hd
  obtain ⟨o, t⟩ := r
  cases o with
  | none => exact .refused rfl (hd.refused rfl) hd.toGrows
  | some g =>
    have hw : t.tableAt 2 ipa = some g := hd.table g rfl
    have hst : t.start = s.start := hd.start_eq
    have hsh : Shape t := hd.shape
    have hs1 := hsh.start
    have hnone : t.tableAt 3 ipa = none := by
      rw [tableAt, hst, hd.others _ (path_length _ _ _) (by simp)]
      exact hn
    have hstore := store_block hsh hw hnone (isOdd_of_isBlock _ he) (isBlock_not_isTable he)
    have hslot := (hstore ipa).1
    have hvalid : (t.host.mem g (s2Index ipa 2) &&& s2DescValid != 0) = (s.leafAtLevel 2 ipa).isSome := by
      have hnt := (tableAt_succ (by omega) hw).symm.trans hnone
      rw [valid_iff, leafAtLevel, if_neg (by decide), ← hd.block ipa, block_slot hw]
      cases ht : isTable (t.host.mem g (s2Index ipa 2)) with
      | true => simp [tableOf, ht] at hnt
      | false => cases isBlock (t.host.mem g (s2Index ipa 2)) <;> simp
    refine .done rfl ⟨(hd.toExtends.trans (hslot.extends hsh)).withStats _, fun a => ?_, fun a => ?_, ?_, fun q hq hne => ?_⟩
    · refine ((hstore a).2.1).trans ?_
      rw [hd.page a]
      simp
    · refine ((hstore a).2.2).trans ?_
      rw [hst, hd.block a]
      simp [he]
    · dsimp only
      rw [hvalid, count_stats hd.stats, hd.stats]
    · refine (hslot.walk hsh (by rw [hst]; exact hq.le)).trans ?_
      exact hd.others q hq hne

/-- What `s2_walk` reports of a leaf descriptor at a level. -/
def leafInfo (e ipa : U64) (level : Nat) : S2Leaf where
  pa := e &&& s2PageAddrMask &&& ~~~(s2LevelSize level - 1)
  base := ipa &&& ~~~(s2LevelSize level - 1)
  size := s2LevelSize level

/-- The leaf of an address: a block, or a page. -/
def leaf (s : S2State) (ipa : U64) : Option S2Leaf :=
  match s.block ipa with
  | some e => some (leafInfo e ipa 2)
  | none => (s.page ipa).map fun e => leafInfo e ipa 3

private theorem ne_zero_of_isTable (h : isTable e = true) : e ≠ 0 := by
  rintro rfl
  rw [isTable_zero] at h
  cases h

private theorem ne_zero_of_isBlock (h : isBlock e = true) : e ≠ 0 := by
  rintro rfl
  rw [isBlock_zero] at h
  cases h

/-- A table descriptor above level 3 is followed. -/
private theorem walkFrom_table {left : Nat} {g : U64} (hleft : 2 ≤ left) (hl : left ≤ 4)
    (ht : isTable (s.host.mem g (s2Index ipa (4 - left))) = true) :
    s2WalkFrom s ipa left g =
      s2WalkFrom s ipa (left - 1) (s.host.mem g (s2Index ipa (4 - left)) &&& s2TableAddrMask) := by
  obtain ⟨k, rfl⟩ : ∃ k, left = k + 1 := ⟨left - 1, by omega⟩
  have hne : (s.host.mem g (s2Index ipa (4 - (k + 1))) == 0) = false := beq_eq_false_iff_ne.mpr (ne_zero_of_isTable ht)
  have hlt : decide (4 - (k + 1) < 3) = true := by
    rw [decide_eq_true_eq]
    omega
  have htype : (s.host.mem g (s2Index ipa (4 - (k + 1))) &&& s2DescTypeMask == s2DescTable) = true := ht
  rw [s2WalkFrom]
  simp only [hne, hlt, htype, Bool.and_self, if_true, Bool.false_eq_true, if_false]
  rfl

private theorem walkFrom_empty {left : Nat} {g : U64} (hleft : 0 < left) (h0 : s.host.mem g (s2Index ipa (4 - left)) = 0) :
    s2WalkFrom s ipa left g = .error .enoent := by
  obtain ⟨k, rfl⟩ : ∃ k, left = k + 1 := ⟨left - 1, by omega⟩
  rw [s2WalkFrom]
  simp only [h0, beq_self_eq_true, if_true]

private theorem walkFrom_page {g : U64} (ht : isTable (s.host.mem g (s2Index ipa 3)) = true) :
    s2WalkFrom s ipa 1 g = .ok (leafInfo (s.host.mem g (s2Index ipa 3)) ipa 3) := by
  have hne : ¬ s.host.mem g (s2Index ipa 3) = 0#64 := ne_zero_of_isTable ht
  have htype : (s.host.mem g (s2Index ipa 3) &&& s2DescTypeMask == s2DescTable) = true := ht
  have hpage : (s.host.mem g (s2Index ipa 3) &&& s2DescTypeMask != s2DescPage) = false := by
    rw [bne, show s2DescPage = s2DescTable from rfl, htype]
    rfl
  simp [s2WalkFrom, hne, hpage, leafInfo]

private theorem walkFrom_block {g : U64} (hb : isBlock (s.host.mem g (s2Index ipa 2)) = true) :
    s2WalkFrom s ipa 2 g = .ok (leafInfo (s.host.mem g (s2Index ipa 2)) ipa 2) := by
  have hne : ¬ s.host.mem g (s2Index ipa 2) = 0#64 := ne_zero_of_isBlock hb
  have htype : (s.host.mem g (s2Index ipa 2) &&& s2DescTypeMask == s2DescTable) = false := isBlock_not_isTable hb
  have hblk : (s.host.mem g (s2Index ipa 2) &&& s2DescTypeMask == s2DescBlock) = true := hb
  simp [s2WalkFrom, hne, htype, hblk, bne, leafInfo]

private theorem page_none (hw : s.tableAt 3 ipa = none) : s.page ipa = none := entryAt_none isTable hw

theorem block_none (hw : s.tableAt 2 ipa = none) : s.block ipa = none := entryAt_none isBlock hw

/-- Blocks and level 3 tables exclude each other. -/
theorem tableAt_of_block (sh : Shape s) (h : s.block ipa ≠ none) : s.tableAt 3 ipa = none := by
  have hst := sh.start
  cases hw : s.tableAt 2 ipa with
  | none => exact absurd (block_none hw) h
  | some g =>
    rw [block_slot hw] at h
    rw [tableAt_succ (by omega) hw, tableOf]
    cases hb : isBlock (s.host.mem g (s2Index ipa 2)) with
    | false => simp [hb] at h
    | true => simp [isBlock_not_isTable hb]

theorem page_of_block (sh : Shape s) (h : s.block ipa ≠ none) : s.page ipa = none := page_none (tableAt_of_block sh h)

/-- Below a missing table everything is missing. -/
private theorem tableAt_none_of_le {level level' : Nat} (hst : s.start ≤ level) (hle : level ≤ level')
    (hw : s.tableAt level ipa = none) : s.tableAt level' ipa = none := by
  induction level', hle using Nat.le_induction with
  | base => exact hw
  | succ level' hle ih => exact tableAt_succ_none (by omega) ih

/-- The result of a walk from the table of a level on. -/
private theorem walkFrom_spec (sh : Shape s) (left : Nat) (hlo : 1 ≤ left) (hhi : left ≤ 4 - s.start) (g : U64)
    (hw : s.tableAt (4 - left) ipa = some g) (hb : left = 1 → s.block ipa = none) :
    s2WalkFrom s ipa left g = match s.leaf ipa with
      | none => .error .enoent
      | some l => .ok l := by
  have hst := sh.start
  induction left using Nat.strong_induction_on generalizing g with
  | _ left ih =>
    have hslot := sh.slot hw (by rw [path_length]; omega) (s2Index ipa (4 - left))
    by_cases h1 : left = 1
    · -- level 3
      subst h1
      have hblock := hb rfl
      rw [leaf, hblock, page_slot hw]
      rcases hslot with h0 | ht | hblk
      · rw [walkFrom_empty (by decide) h0, show s.host.mem g (s2Index ipa 3) = 0 from h0, isTable_zero]
        rfl
      · rw [walkFrom_page ht, show isTable (s.host.mem g (s2Index ipa 3)) = true from ht]
        rfl
      · have hnone := sh.blocks (path s.start 3 ipa) (s2Index ipa 3) (by rw [path_length]) (by rw [path_length]; omega)
        rw [entryAt_eq isBlock hw, show isBlock (s.host.mem g (s2Index ipa 3)) = true from hblk] at hnone
        cases hnone
    · have hnext := tableAt_succ (show s.start ≤ 4 - left by omega) hw
      rw [show 4 - left + 1 = 4 - (left - 1) by omega] at hnext
      rcases hslot with h0 | ht | hblk
      · -- nothing below an empty slot
        rw [walkFrom_empty (by omega) h0]
        have hgone : s.tableAt (4 - (left - 1)) ipa = none := by
          rw [hnext, h0]
          decide
        have hpage : s.page ipa = none := page_none (tableAt_none_of_le (by omega) (by omega) hgone)
        have hblock : s.block ipa = none := by
          by_cases h2 : left = 2
          · subst h2
            rw [block_slot hw, show s.host.mem g (s2Index ipa 2) = 0 from h0, isBlock_zero]
            rfl
          · exact block_none (tableAt_none_of_le (by omega) (by omega) hgone)
        rw [leaf, hblock, hpage]
        rfl
      · rw [walkFrom_table (by omega) (by omega) ht]
        have hfound : s.tableAt (4 - (left - 1)) ipa = some (s.host.mem g (s2Index ipa (4 - left)) &&& s2TableAddrMask) := by
          rw [hnext, tableOf, if_pos ht]
        refine ih (left - 1) (by omega) (by omega) (by omega) _ hfound fun h2 => ?_
        obtain rfl : left = 2 := by omega
        rw [block_slot hw, isBlock_of_isTable _ ht]
        rfl
      · by_cases h2 : left = 2
        · subst h2
          rw [walkFrom_block hblk, leaf, block_slot hw, show isBlock (s.host.mem g (s2Index ipa 2)) = true from hblk]
          rfl
        · have hnone := sh.blocks (path s.start (4 - left) ipa) (s2Index ipa (4 - left)) (by rw [path_length]; omega)
            (by rw [path_length]; omega)
          rw [entryAt_eq isBlock hw, if_pos hblk] at hnone
          cases hnone

theorem walk_spec (sh : Shape s) (ipa : U64) : s2Walk s ipa = match s.leaf ipa with
    | none => .error .enoent
    | some l => .ok l := by
  have hst := sh.start
  refine walkFrom_spec sh (4 - s.start) (by omega) le_rfl s.ctx.root ?_ fun h => absurd h (by omega)
  rw [show 4 - (4 - s.start) = s.start by omega]
  exact tableAt_start s ipa

/-- A level size tells the level. -/
private theorem levelSize_ne {level level' : Nat} (hlt : level < level') (hle : level' ≤ 3) :
    s2LevelSize level ≠ s2LevelSize level' := by
  have hall : ∀ level' ≤ 3, ∀ level < level', s2LevelSize level ≠ s2LevelSize level' := by decide
  exact hall level' hle level hlt

/-- A table on the way to a table of the address leads on to it. -/
private theorem next_table {level level' : Nat} {g g' : U64} (hst : s.start ≤ level) (hlt : level < level')
    (hw : s.tableAt level ipa = some g) (hw' : s.tableAt level' ipa = some g') :
    isTable (s.host.mem g (s2Index ipa level)) = true ∧
      s.tableAt (level + 1) ipa = some (s.host.mem g (s2Index ipa level) &&& s2TableAddrMask) := by
  have hnext := tableAt_succ hst hw
  cases ht : isTable (s.host.mem g (s2Index ipa level)) with
  | true => exact ⟨rfl, by rw [hnext, tableOf, if_pos ht]⟩
  | false =>
    rw [tableOf, ht] at hnext
    have hgone := tableAt_none_of_le (show s.start ≤ level + 1 by omega) hlt hnext
    rw [hgone] at hw'
    cases hw'

/-- The loop of the unmapping call stops at the table that holds a leaf of the size. -/
theorem tableOfSize_spec {level : Nat} {g : U64} (hle : level ≤ 3) (hw : s.tableAt level ipa = some g)
    (left : Nat) (hleft : left ≤ 3 - s.start) (hs : s.start ≤ 3) (hlevel : 3 - left ≤ level) (table : U64)
    (ht : s.tableAt (3 - left) ipa = some table) :
    s2TableOfSize s ipa (s2LevelSize level) left table = (level, g) := by
  induction left generalizing table with
  | zero =>
    obtain rfl : level = 3 := by omega
    obtain rfl : table = g := Option.some.inj (ht.symm.trans hw)
    rfl
  | succ left ih =>
    rw [s2TableOfSize]
    by_cases heq : 3 - (left + 1) = level
    · rw [heq] at ht ⊢
      obtain rfl : table = g := Option.some.inj (ht.symm.trans hw)
      simp
    · have hne := levelSize_ne (show 3 - (left + 1) < level by omega) hle
      obtain ⟨-, hnext⟩ := next_table (show s.start ≤ 3 - (left + 1) by omega) (by omega) ht hw
      rw [show 3 - (left + 1) + 1 = 3 - left by omega] at hnext
      simp only [bne_iff_ne, ne_eq, hne, not_false_eq_true, if_true]
      exact ih (by omega) (by omega) _ hnext

/-- A leaf of the address taken out, and counted out. -/
structure Unmapped (s : S2State) (ipa : U64) (level : Nat) (t : S2State) : Prop extends Extends s t where
  page : ∀ a, t.page a = if level = 3 ∧ pageKey s.start a = pageKey s.start ipa then none else s.page a
  block : ∀ a, t.block a = if level = 2 ∧ blockKey s.start a = blockKey s.start ipa then none else s.block a
  stats : t.ctx.stats = (s.uncount level (s2LevelSize level)).ctx.stats

private theorem unmapped_page (sh : Shape s) (hp : s.page ipa ≠ none) :
    ∃ g, s.tableAt 3 ipa = some g ∧
      Unmapped s ipa 3 ((s.setEntry g (s2Index ipa 3) s2DescInvalid).uncount 3 (s2LevelSize 3)) := by
  cases hw : s.tableAt 3 ipa with
  | none => exact absurd (page_none hw) hp
  | some g =>
    have hstore := store_page sh hw (e := s2DescInvalid) (by decide) (by decide)
    refine ⟨g, rfl, ((hstore ipa).1.extends sh).withStats _, fun a => ?_, fun a => ?_, rfl⟩
    · refine (hstore a).2.1.trans ?_
      simp [show isTable s2DescInvalid = false by decide]
    · refine (hstore a).2.2.trans ?_
      simp

private theorem unmapped_block (sh : Shape s) (hb : s.block ipa ≠ none) :
    ∃ g, s.tableAt 2 ipa = some g ∧
      Unmapped s ipa 2 ((s.setEntry g (s2Index ipa 2) s2DescInvalid).uncount 2 (s2LevelSize 2)) := by
  cases hw : s.tableAt 2 ipa with
  | none => exact absurd (block_none hw) hb
  | some g =>
    have hstore := store_block sh hw (tableAt_of_block sh hb) (e := s2DescInvalid) (by decide) (by decide)
    refine ⟨g, rfl, ((hstore ipa).1.extends sh).withStats _, fun a => ?_, fun a => ?_, rfl⟩
    · refine (hstore a).2.1.trans ?_
      simp
    · refine (hstore a).2.2.trans ?_
      simp [show isBlock s2DescInvalid = false by decide]

/-- How unmapping ends: there is no leaf, the address is not where the leaf starts, or the leaf is gone. -/
inductive UnmapOutcome (s : S2State) (ipa : U64) (r : Except Errno Unit × S2State) : Prop
  | absent (hleaf : s.leaf ipa = none) (hr : r = (.ok (), s))
  | inside (l : S2Leaf) (hleaf : s.leaf ipa = some l) (hbase : l.base ≠ ipa) (hr : r = (.error .einval, s))
  | block (hblock : s.block ipa ≠ none) (hbase : ipa &&& ~~~(s2LevelSize 2 - 1) = ipa) (hret : r.1 = .ok ())
    (unmapped : Unmapped s ipa 2 r.2)
  | page (hblock : s.block ipa = none) (hpage : s.page ipa ≠ none) (hbase : ipa &&& ~~~(s2LevelSize 3 - 1) = ipa)
    (hret : r.1 = .ok ()) (unmapped : Unmapped s ipa 3 r.2)

theorem unmapPage_spec (sh : Shape s) (ipa : U64) : UnmapOutcome s ipa (relmStage2UnmapPage s ipa) := by
  have hst := sh.start
  have hwalk := walk_spec sh ipa
  cases hl : s.leaf ipa with
  | none =>
    rw [hl] at hwalk
    exact .absent hl (by rw [relmStage2UnmapPage, hwalk])
  | some l =>
    rw [hl] at hwalk
    by_cases hbase : l.base = ipa
    · have hroot : s.tableAt (3 - (3 - s.start)) ipa = some s.ctx.root := by
        rw [show 3 - (3 - s.start) = s.start by omega]
        exact tableAt_start s ipa
      have heq : relmStage2UnmapPage s ipa =
          let r := s2TableOfSize s ipa l.size (3 - s.start) s.ctx.root
          (.ok (), (s.setEntry r.2 (s2Index ipa r.1) s2DescInvalid).uncount r.1 l.size) := by
        rw [relmStage2UnmapPage, hwalk]
        simp only [hbase, bne_self_eq_false, Bool.false_eq_true, if_false]
        rfl
      rw [heq]
      rw [leaf] at hl
      cases hb : s.block ipa with
      | some e =>
        rw [hb] at hl
        obtain rfl := Option.some.inj hl
        obtain ⟨g, hw, hu⟩ := unmapped_block sh (show s.block ipa ≠ none by rw [hb]; simp)
        have htab := tableOfSize_spec (by decide) hw (3 - s.start) le_rfl (by omega) (by omega) s.ctx.root hroot
        refine .block (by rw [hb]; simp) hbase rfl ?_
        simp only [leafInfo, htab]
        exact hu
      | none =>
        rw [hb] at hl
        cases hp : s.page ipa with
        | none =>
          rw [hp] at hl
          cases hl
        | some e =>
          rw [hp] at hl
          obtain rfl := Option.some.inj hl
          obtain ⟨g, hw, hu⟩ := unmapped_page sh (show s.page ipa ≠ none by rw [hp]; simp)
          have htab := tableOfSize_spec le_rfl hw (3 - s.start) le_rfl (by omega) (by omega) s.ctx.root hroot
          refine .page hb (by rw [hp]; simp) hbase rfl ?_
          simp only [leafInfo, htab]
          exact hu
    · refine .inside l hl hbase ?_
      rw [relmStage2UnmapPage, hwalk]
      simp [hbase]

/-- The table loop goes through the tables there are. -/
theorem descend_found {g : U64} (hw : s.tableAt 2 ipa = some g) (left : Nat) (hleft : s.start + (left + 1) ≤ 3)
    (table : U64) (ht : s.tableAt (3 - (left + 1)) ipa = some table) :
    s2Descend ipa 3 (left + 1) table s = s2Descend ipa 3 1 g s := by
  induction left generalizing table with
  | zero =>
    obtain rfl : table = g := Option.some.inj (ht.symm.trans hw)
    rfl
  | succ left ih =>
    obtain ⟨htab, hnext⟩ := next_table (show s.start ≤ 3 - (left + 1 + 1) by omega) (by omega) ht hw
    rw [show 3 - (left + 1 + 1) + 1 = 3 - (left + 1) by omega] at hnext
    have hfound : s2GetOrCreate s table (s2Index ipa (3 - (left + 1 + 1))) =
        (some (s.host.mem table (s2Index ipa (3 - (left + 1 + 1))) &&& s2TableAddrMask), s) := by
      rw [s2GetOrCreate]
      exact if_pos htab
    rw [s2Descend, hfound]
    exact ih (by omega) _ hnext

/-- A page inside a block needs a table in the block's place first. -/
theorem mapOne_page_refused (sh : Shape s) (hb : s.block ipa ≠ none) (hoom : s.host.getFreePage.1 = none) :
    MapOutcome s ipa 3 e (s2MapOne s ipa pa flags 3) := by
  have hst := sh.start
  cases hw : s.tableAt 2 ipa with
  | none => exact absurd (block_none hw) hb
  | some g =>
    rcases s.host.getFreePage_cases with hr | ⟨f, -, hr⟩
    · have hnot : isTable (s.host.mem g (s2Index ipa 2)) = false := by
        have hnone := tableAt_of_block sh hb
        rw [tableAt_succ (by omega) hw, tableOf] at hnone
        cases ht : isTable (s.host.mem g (s2Index ipa 2)) with
        | false => rfl
        | true => simp [ht] at hnone
      have hcreate : s2GetOrCreate s g (s2Index ipa 2) = (none, { s with host := s.host.refuse }) := by
        have hcond : (s.host.mem g (s2Index ipa 2) &&& s2DescTypeMask == s2DescTable) = false := hnot
        simp only [s2GetOrCreate, hcond, hr]
        rfl
      have hdesc : s2Descend ipa 3 (3 - s.start) s.ctx.root s = (none, { s with host := s.host.refuse }) := by
        have hfound := descend_found hw (2 - s.start) (by omega) s.ctx.root (by
          rw [show 3 - (2 - s.start + 1) = s.start by omega]
          exact tableAt_start s ipa)
        rw [show 2 - s.start + 1 = 3 - s.start by omega] at hfound
        rw [hfound, s2Descend, hcreate]
      rw [mapOne_eq, hdesc]
      exact .refused rfl rfl (.refuse sh)
    · rw [hr] at hoom
      cases hoom

theorem getMapping_spec (sh : Shape s) (ipa : U64) : relmStage2GetMapping s ipa = match s.leaf ipa with
    | none => .error .enoent
    | some l => .ok (l.pa + (ipa - l.base)) := by
  rw [relmStage2GetMapping, walk_spec sh ipa]
  cases s.leaf ipa <;> rfl

end S2State

section Checks

variable {g : Geometry} {ipa pa flags : U64} {level : Nat}

private theorem paEncoding_le {bits : Nat} (h : (s2PaEncoding bits).isSome = true) : bits ≤ 48 := by
  unfold s2PaEncoding at h
  split at h <;> first | omega | cases h

/-- The bounds that a valid geometry keeps; the walk looks at every address bit of it. -/
theorem geometry_bounds (h : s2GeometryValid g = true) :
    32 ≤ g.ipaBits ∧ g.ipaBits ≤ 48 ∧ g.paBits ≤ 48 ∧ g.startLevel ≤ 1 ∧ g.ipaBits ≤ walkBits g.startLevel := by
  simp only [s2GeometryValid, Bool.and_eq_true, decide_eq_true_eq, beq_iff_eq] at h
  obtain ⟨⟨⟨⟨hlo, hhi⟩, hpa⟩, hstart⟩, -⟩ := h
  have hpa48 := paEncoding_le hpa
  rw [s2MinIpaBits] at hlo
  rw [s2MaxIpaBits] at hhi
  rw [walkBits]
  split at hstart <;> omega

theorem rangeFits_iff {address size : U64} {bits : Nat} (hb : bits ≤ 48) : s2RangeFits address size bits = true ↔
    size ≠ 0 ∧ address.toNat + size.toNat ≤ 2 ^ bits ∧ address.toNat < 2 ^ bits := by
  have hpow : 2 ^ bits ≤ 2 ^ 48 := Nat.pow_le_pow_right (by decide) hb
  have hlimit : (1#64 <<< bits).toNat = 2 ^ bits := by
    rw [BitVec.toNat_shiftLeft, show (1#64).toNat = 1 from rfl, Nat.shiftLeft_eq, Nat.one_mul]
    exact Nat.mod_eq_of_lt (by omega)
  simp only [s2RangeFits, Bool.and_eq_true, bne_iff_ne, decide_eq_true_eq, BitVec.lt_def, BitVec.le_def, hlimit]
  constructor
  · rintro ⟨⟨hne, hlt⟩, hle⟩
    rw [BitVec.toNat_sub_of_le (BitVec.le_def.mpr (by omega)), hlimit] at hle
    exact ⟨hne, by omega, hlt⟩
  · rintro ⟨hne, hle, hlt⟩
    refine ⟨⟨hne, hlt⟩, ?_⟩
    rw [BitVec.toNat_sub_of_le (BitVec.le_def.mpr (by omega)), hlimit]
    omega

theorem pageAligned_iff (x : U64) : s2PageAligned x = true ↔ x.toNat % 4096 = 0 := by
  rw [s2PageAligned, beq_iff_eq, ← BitVec.toNat_inj, and_low_toNat _ _ 12 (by decide)]
  rfl

/-- The checks of `s2_map`. -/
structure Accepted (g : Geometry) (ipa pa flags : U64) (level : Nat) : Prop where
  ipaAligned : s2PageAligned ipa = true
  paAligned : s2PageAligned pa = true
  readable : flags &&& s2AccessRead ≠ 0
  ipaFits : s2RangeFits ipa (s2LevelSize level) g.ipaBits = true
  paFits : s2RangeFits pa (s2LevelSize level) g.paBits = true

instance : Decidable (Accepted g ipa pa flags level) :=
  decidable_of_iff (s2PageAligned ipa = true ∧ s2PageAligned pa = true ∧ flags &&& s2AccessRead ≠ 0 ∧
      s2RangeFits ipa (s2LevelSize level) g.ipaBits = true ∧ s2RangeFits pa (s2LevelSize level) g.paBits = true)
    ⟨fun h => ⟨h.1, h.2.1, h.2.2.1, h.2.2.2.1, h.2.2.2.2⟩,
      fun h => ⟨h.ipaAligned, h.paAligned, h.readable, h.ipaFits, h.paFits⟩⟩

theorem map_accepted {s : S2State} (h : Accepted s.ctx.geometry ipa pa flags level) :
    s2Map s ipa pa flags level = s2MapOne s ipa pa flags level := by
  have hread : (flags &&& s2AccessRead == 0) = false := beq_eq_false_iff_ne.mpr h.readable
  simp only [s2Map, h.ipaAligned, h.paAligned, hread, h.ipaFits, h.paFits]
  rfl

/-- A call that fails a check leaves the state alone. -/
theorem map_rejected {s : S2State} (h : ¬ Accepted s.ctx.geometry ipa pa flags level) :
    ∃ e, s2Map s ipa pa flags level = (.error e, s) := by
  unfold s2Map
  split
  · exact ⟨_, rfl⟩
  · rename_i h1
    split
    · exact ⟨_, rfl⟩
    · rename_i h2
      split
      · exact ⟨_, rfl⟩
      · rename_i h3
        simp only [Bool.or_eq_true, Bool.not_eq_true', not_or, Bool.not_eq_false] at h1 h3
        exact absurd ⟨h1.1, h1.2, by simpa using h2, h3.1, h3.2⟩ h

/-- Inside the geometry the walk uses the whole address. -/
theorem walked_of_lt (hg : s2GeometryValid g = true) {a : U64} (ha : a.toNat < 2 ^ g.ipaBits) :
    walked g.startLevel a = a.toNat := by
  obtain ⟨-, -, -, -, hle⟩ := geometry_bounds hg
  exact Nat.mod_eq_of_lt (lt_of_lt_of_le ha (Nat.pow_le_pow_right (by decide) hle))

theorem levelSize_toNat (h : level = 2 ∨ level = 3) : (s2LevelSize level).toNat = 2 ^ s2Shift level := by
  rcases h with rfl | rfl <;> decide

theorem base_toNat (h : level = 2 ∨ level = 3) (x : U64) :
    (x &&& ~~~(s2LevelSize level - 1)).toNat = x.toNat / 2 ^ s2Shift level * 2 ^ s2Shift level := by
  rw [and_field_toNat x _ (s2Shift level) 64 (by rcases h with rfl | rfl <;> decide)
    (by rcases h with rfl | rfl <;> decide), Nat.mod_eq_of_lt x.isLt]

theorem offset_eq (h : level = 2 ∨ level = 3) (x : U64) :
    x - (x &&& ~~~(s2LevelSize level - 1)) = BitVec.ofNat 64 (x.toNat % 2 ^ s2Shift level) := by
  have hbase := base_toNat h x
  have hle : x.toNat / 2 ^ s2Shift level * 2 ^ s2Shift level ≤ x.toNat := Nat.div_mul_le_self _ _
  have hdiv := Nat.div_add_mod' x.toNat (2 ^ s2Shift level)
  rw [← BitVec.toNat_inj, toNat_sub_eq rfl hbase hle, BitVec.toNat_ofNat,
    Nat.mod_eq_of_lt (lt_of_le_of_lt (Nat.mod_le _ _) x.isLt)]
  omega

end Checks

namespace S2State

variable {s : S2State}

/-- A context without leaves and with the root as its only table. -/
structure Empty (s : S2State) : Prop where
  shape : Shape s
  page : ∀ a, s.page a = none
  block : ∀ a, s.block a = none
  walks : ∀ i p, s.walk (i :: p) = none
  stats : s.ctx.stats = {}

private theorem clear_walk (hz : ∀ i, s.host.mem s.ctx.root i = 0#64) (i : Fin 512) (p : List (Fin 512)) :
    s.walk (i :: p) = none := by
  rw [walk, Lib.TableTree.walk, hz, show tableOf 0#64 = none by decide]
  rfl

private theorem clear_entryAt (hz : ∀ i, s.host.mem s.ctx.root i = 0#64) {kind : U64 → Bool} (hk : kind 0#64 = false)
    (p : List (Fin 512)) (j : Fin 512) : s.entryAt kind p j = none := by
  cases p with
  | nil =>
    rw [entryAt_eq kind (show s.walk [] = some s.ctx.root from rfl), hz]
    exact if_neg (by rw [hk]; simp)
  | cons i p => exact entryAt_none kind (clear_walk hz i p)

theorem empty_of_clear (hg : s2GeometryValid s.ctx.geometry = true) (hz : ∀ i, s.host.mem s.ctx.root i = 0#64)
    (hl : s.ctx.root ∈ s.host.live) (hm : ∀ f, s.host.managed f = true → f.toNat < 2 ^ 48) (hs : s.ctx.stats = {}) :
    Empty s := by
  obtain ⟨-, -, -, hstart, -⟩ := geometry_bounds hg
  have hnil : ∀ p f, s.walk p = some f → p = [] ∧ f = s.ctx.root := by
    intro p f hp
    cases p with
    | nil => exact ⟨rfl, (Option.some.inj hp).symm⟩
    | cons i p =>
      rw [clear_walk hz] at hp
      cases hp
  refine ⟨⟨hstart, ?_, ?_, fun p i _ => clear_entryAt hz (by decide) p i, fun p i _ _ => clear_entryAt hz (by decide) p i, hm⟩,
    fun a => clear_entryAt hz (by decide) _ _, fun a => clear_entryAt hz (by decide) _ _, clear_walk hz, hs⟩
  · intro p q f _ _ hp hq
    rw [(hnil p f hp).1, (hnil q f hq).1]
  · intro p f _ hp
    rw [(hnil p f hp).2]
    exact hl

end S2State

private theorem encodeVtcr_valid {g : Geometry} {vtcr : U64} (h : relmStage2EncodeVtcr g = .ok vtcr) :
    s2GeometryValid g = true := by
  unfold relmStage2EncodeVtcr at h
  cases hg : s2GeometryValid g with
  | true => rfl
  | false => simp [hg] at h

/-- A new context is empty, of the geometry asked for, and that geometry is valid. -/
theorem contextCreate_spec {limits : Option Geometry} {h h' : Host} {geometry : Geometry} {vmid : BitVec 16} {ctx : Stage2}
    (hm : ∀ f, h.managed f = true → f.toNat < 2 ^ 48)
    (hc : relmStage2ContextCreate limits h geometry vmid = (.ok ctx, h')) :
    S2State.Empty ⟨h', ctx⟩ ∧ ctx.geometry = geometry ∧ s2GeometryValid geometry = true ∧ h'.oom = h.oom := by
  unfold relmStage2ContextCreate at hc
  split at hc
  · cases hc
  rename_i vtcr hv
  have hg := encodeVtcr_valid hv
  split at hc
  · cases hc
  split at hc
  · cases hc
  split at hc
  · cases hc
  rcases h.kzalloc_cases with hk | hk
  · simp [hk] at hc
  simp only [hk] at hc
  rcases h.slabTake.getFreePage_cases with hr | ⟨pa, hav, hr⟩
  · simp [hr] at hc
  simp only [hr, Prod.mk.injEq, Except.ok.injEq] at hc
  obtain ⟨rfl, rfl⟩ := hc
  exact ⟨S2State.empty_of_clear hg (fun i => fill_same _ _ _ _) List.mem_cons_self hm rfl, rfl, hg, rfl⟩

end Relm.Arm64
