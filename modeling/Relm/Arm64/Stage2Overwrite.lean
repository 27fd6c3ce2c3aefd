import Relm.Arm64.Stage2Map

/-! Every mapping call on every tree: a page put inside a block takes the block out, and a block put over a table cuts
the table off. What holds of all contexts that calls lead to. -/
namespace Relm.Arm64
open Relm.Lib.Run
open S2State

namespace S2State

variable {s t : S2State} {ipa pa flags e : U64}

theorem page_congr (sh : Shape s) {a b : U64} (h : pageKey s.start a = pageKey s.start b) : s.page a = s.page b := by
  obtain ⟨hp, hi⟩ := (pageKey_eq_iff sh.start a b).mpr h
  rw [page, page, hp, hi]

theorem block_congr (sh : Shape s) {a b : U64} (h : blockKey s.start a = blockKey s.start b) : s.block a = s.block b := by
  obtain ⟨hp, hi⟩ := (blockKey_eq_iff sh.start a b).mpr h
  rw [block, block, hp, hi]

/-- A lookup sees the leaves of the address only. -/
theorem getMapping_congr {a : U64} (sh : Shape s) (sh' : Shape t) (hp : t.page a = s.page a) (hb : t.block a = s.block a) :
    relmStage2GetMapping t a = relmStage2GetMapping s a := by
  rw [getMapping_spec sh a, getMapping_spec sh' a, leaf, leaf, hp, hb]

/-- A page stored, whatever was there: the block around it is gone, and the page is counted unless there was one. -/
structure PagePut (s : S2State) (ipa e : U64) (t : S2State) : Prop extends Extends s t where
  page : ∀ a, t.page a = if pageKey s.start a = pageKey s.start ipa then some e else s.page a
  block : ∀ a, t.block a = if blockKey s.start a = blockKey s.start ipa then none else s.block a
  stats : t.ctx.stats = if (s.page ipa).isSome then s.ctx.stats else (s.count 3).ctx.stats

/-- How putting a page ends. -/
inductive PutOutcome (s : S2State) (ipa e : U64) (r : Except Errno Unit × S2State) : Prop
  | refused (hret : r.1 = .error .enomem) (grows : Grows s r.2)
  | done (hret : r.1 = .ok ()) (put : PagePut s ipa e r.2)

private theorem mapOne_beside (sh : Shape s) (hb : s.block ipa = none) :
    PutOutcome s ipa (s2LeafEntry pa flags 3) (s2MapOne s ipa pa flags 3) := by
  have hout : MapOutcome s ipa 3 (s2LeafEntry pa flags 3) (s2MapOne s ipa pa flags 3) := mapOne_page sh hb
  cases hout with
  | refused hret _ hg => exact .refused hret hg
  | done hret hm =>
    refine .done hret ⟨hm.toExtends, fun a => ?_, fun a => ?_, ?_⟩
    · rw [hm.page a]
      simp
    · rw [hm.block a, if_neg fun h => absurd h.1 (by decide)]
      split
      · rename_i hkey
        rw [block_congr sh hkey, hb]
      · rfl
    · rw [hm.stats, leafAtLevel, if_pos rfl]

/-- The state with a table in the place of the block around an address. -/
private theorem descend_block (sh : Shape s) (hb : s.block ipa ≠ none) :
    s2Descend ipa 3 (3 - s.start) s.ctx.root s = (none, { s with host := s.host.refuse }) ∨
      ∃ f t, s2Descend ipa 3 (3 - s.start) s.ctx.root s = (some f, t) ∧
        Replaced s (path s.start 2 ipa) (s2Index ipa 2) t ∧ t.tableAt 3 ipa = some f := by
  have hst := sh.start
  cases hw : s.tableAt 2 ipa with
  | none => exact absurd (block_none hw) hb
  | some g =>
    have hblk : isBlock (s.host.mem g (s2Index ipa 2)) = true := by
      rw [block_slot hw] at hb
      cases h : isBlock (s.host.mem g (s2Index ipa 2)) with
      | true => rfl
      | false => simp [h] at hb
    have hfound := descend_found hw (2 - s.start) (by omega) s.ctx.root (by
      rw [show 3 - (2 - s.start + 1) = s.start by omega]
      exact tableAt_start s ipa)
    rw [show 2 - s.start + 1 = 3 - s.start by omega] at hfound
    rw [hfound, s2Descend]
    rcases getOrCreate_block sh hw (path_length _ _ _) hblk with hr | ⟨f, t, hr, hrep, hwalk⟩
    · left
      rw [hr]
    · right
      have hlast : path t.start 3 ipa = path s.start 2 ipa ++ [s2Index ipa 2] := by
        rw [hrep.start_eq]
        exact path_succ (by omega) ipa
      refine ⟨f, t, ?_, hrep, ?_⟩
      · rw [hr]
        rfl
      · rw [tableAt, hlast]
        exact hwalk

private theorem mapOne_inside (sh : Shape s) (hb : s.block ipa ≠ none) :
    PutOutcome s ipa (s2LeafEntry pa flags 3) (s2MapOne s ipa pa flags 3) := by
  rw [mapOne_eq]
  rcases descend_block sh hb with hr | ⟨f, t, hr, hrep, hw⟩
  · rw [hr]
    exact .refused rfl (.refuse sh)
  · rw [hr]
    have hst : t.start = s.start := hrep.start_eq
    have he := isTable_page pa flags
    have hstore := store_page hrep.shape hw (isOdd_of_isTable _ he) (isBlock_of_isTable _ he)
    have hpages : ∀ a, t.page a = s.page a := by
      intro a
      rw [page, page, hst]
      exact hrep.pages _ _ (path_length _ _ _)
    have hempty : (t.host.mem f (s2Index ipa 3) &&& s2DescValid != 0) = false := by
      have hnone := (hpages ipa).trans (page_of_block sh hb)
      have hs := hrep.shape.start
      have hnb := hrep.shape.blocks (path t.start 3 ipa) (s2Index ipa 3) (path_length _ _ _).le (by rw [path_length]; omega)
      rw [entryAt_eq isBlock hw] at hnb
      rw [page_slot hw] at hnone
      rw [valid_iff]
      cases ht : isTable (t.host.mem f (s2Index ipa 3)) with
      | true => simp [ht] at hnone
      | false =>
        cases hblk : isBlock (t.host.mem f (s2Index ipa 3)) with
        | true => simp [hblk] at hnb
        | false => rfl
    refine .done rfl ⟨(hrep.toExtends.trans ((hstore ipa).1.extends hrep.shape)).withStats _, fun a => ?_, fun a => ?_, ?_⟩
    · refine (hstore a).2.1.trans ?_
      rw [hst, hpages a, if_pos he]
    · refine (hstore a).2.2.trans ?_
      rw [block, block, hst, hrep.blocks _ _ (path_length _ _ _)]
      exact if_congr (blockKey_eq_iff sh.start a ipa) rfl rfl
    · have hnone := page_of_block sh hb
      dsimp only
      rw [hempty, hnone, count_stats hrep.stats]
      rfl

/-- What `s2_map_one` does to a page, whatever the flags and wherever the page lies. -/
theorem mapOne_put (sh : Shape s) : PutOutcome s ipa (s2LeafEntry pa flags 3) (s2MapOne s ipa pa flags 3) := by
  by_cases hb : s.block ipa = none
  · exact mapOne_beside sh hb
  · exact mapOne_inside sh hb

/-- Storing a block keeps the tables in shape, also over a table. -/
theorem mapOne_block_extends (sh : Shape s) (he : isBlock (s2LeafEntry pa flags 2) = true) :
    Extends s (s2MapOne s ipa pa flags 2).2 := by
  have hd := descended sh ipa le_rfl (by decide) fun h => absurd h (by decide)
  rw [mapOne_eq]
  generalize s2Descend ipa 2 (2 - s.start) s.ctx.root s = r at hd
  obtain ⟨o, t⟩ := r
  cases o with
  | none => exact hd.toExtends
  | some g =>
    have hw : t.tableAt 2 ipa = some g := hd.table g rfl
    have hcut := shape_cut (j := s2Index ipa 2) hd.shape hw (path_length _ _ _) he
    exact (hd.toExtends.trans ⟨hcut, rfl, rfl, id⟩).withStats _

end S2State

/-- A call that stores no table in the place of a block: the type bit that tells them apart stays out of the flags. -/
def S2Call.BlockFlags : S2Call → Prop
  | mapPage _ _ _ => True
  | mapHugePage _ _ flags => flags &&& 2#64 = 0
  | unmapPage _ => True

instance : DecidablePred S2Call.BlockFlags
  | .mapPage _ _ _ => inferInstanceAs (Decidable True)
  | .mapHugePage _ _ flags => inferInstanceAs (Decidable (flags &&& 2#64 = 0))
  | .unmapPage _ => inferInstanceAs (Decidable True)

section Reached

variable {s : S2State}

private theorem extends_refl (sh : Shape s) : Extends s s := (Grows.refl sh).toExtends

/-- Every call keeps the tables in shape, whether it succeeds or not. -/
theorem exec_extends (sh : Shape s) (c : S2Call) (hc : c.BlockFlags) : Extends s (c.exec s).2 := by
  cases c with
  | mapPage ipa pa flags =>
    rw [S2Call.exec, relmStage2MapPage]
    by_cases ha : Accepted s.ctx.geometry ipa pa flags 3
    · have hput : PutOutcome s ipa (s2LeafEntry pa flags 3) (s2MapOne s ipa pa flags 3) := mapOne_put sh
      rw [map_accepted ha]
      cases hput with
      | refused _ hg => exact hg.toExtends
      | done _ hp => exact hp.toExtends
    · obtain ⟨e, he⟩ := map_rejected ha
      rw [he]
      exact extends_refl sh
  | mapHugePage ipa pa flags =>
    rw [S2Call.exec, relmStage2MapHugePage]
    split
    · exact extends_refl sh
    · by_cases ha : Accepted s.ctx.geometry ipa pa flags 2
      · rw [map_accepted ha]
        exact mapOne_block_extends sh (isBlock_leafEntry hc pa)
      · obtain ⟨e, he⟩ := map_rejected ha
        rw [he]
        exact extends_refl sh
  | unmapPage ipa =>
    rw [S2Call.exec]
    cases unmapPage_spec sh ipa with
    | absent _ hr =>
      rw [hr]
      exact extends_refl sh
    | inside _ _ _ hr =>
      rw [hr]
      exact extends_refl sh
    | block _ _ _ hu => exact hu.toExtends
    | page _ _ _ _ hu => exact hu.toExtends

/-- A context in shape and of a valid geometry. -/
structure Sound (s : S2State) : Prop where
  shape : Shape s
  valid : s2GeometryValid s.ctx.geometry = true

theorem Sound.extends {t : S2State} (h : Sound s) (hx : Extends s t) : Sound t := ⟨hx.shape, hx.geometry ▸ h.valid⟩

/-- What calls make of a new context is sound. -/
theorem sound_of_run {limits : Option Geometry} {h h' : Host} {geometry : Geometry} {vmid : BitVec 16} {ctx : Stage2}
    (hm : ∀ f, h.managed f = true → f.toNat < 2 ^ 48)
    (hc : relmStage2ContextCreate limits h geometry vmid = (.ok ctx, h')) {calls : List S2Call}
    (hf : ∀ c ∈ calls, c.BlockFlags) : Sound (run S2Call.exec ⟨h', ctx⟩ calls).2 := by
  obtain ⟨he, hgeo, hv, -⟩ := contextCreate_spec hm hc
  have hadm : Admitted S2Call.exec (fun _ c => c.BlockFlags) ⟨h', ctx⟩ calls := admitted_of_forall hf _
  exact run_invariant (P := fun _ s => Sound s) (fun _ _ c hs hc => hs.extends (exec_extends hs.shape c hc))
    ⟨he.shape, hgeo ▸ hv⟩ hadm

end Reached

end Relm.Arm64
