import Relm.Arm64.Stage2Overwrite
import Relm.Arm64.WorldSwitch
import Relm.Host.Owned

/-! The life of a stage-2 context: which tables it holds after any calls, which it has lost track of, and what destroying
it gives back. -/
namespace Relm.Arm64
open Relm.Host Relm.Lib.Run Relm.Lib.TableTree
open S2State

/-- A table and all below it, `left` levels above level 3. -/
def s2FreeTableTree : (left : Nat) → Host → U64 → Host
  | 0, h, table => h.freePage table
  | left + 1, h, table =>
    ((List.finRange 512).foldl (fun h i =>
      let entry := h.mem table i
      if entry &&& s2DescTypeMask == s2DescTable then s2FreeTableTree left h (entry &&& s2TableAddrMask) else h) h).freePage table

/-- The TLB maintenance of the registered runtime. -/
abbrev Invalidate := U64 → U64 → Except Errno Unit

def s2Invalidate (invalidate : Invalidate) (ctx : Stage2) : Except Errno Unit :=
  match relmStage2EncodeVttbr ctx.geometry ctx.root ctx.vmid with
  | .error e => .error e
  | .ok vttbr => invalidate ctx.vtcrEl2 vttbr

/-- `obj` is the slab object of the context. -/
def relmStage2ContextDestroy (invalidate : Invalidate) (obj : Nat) (s : S2State) : Except Errno Unit × Host :=
  match s2Invalidate invalidate s.ctx with
  | .error e => (.error e, s.host)
  | .ok _ => (.ok (), (s2FreeTableTree (3 - s.ctx.geometry.startLevel) s.host s.ctx.root).kfree obj)

section Free

/-- Steps that each free what belongs to one item free what belongs to all of them. -/
private theorem foldl_flatMap {S I F : Type*} {free : S → F → S} {P : S → Prop} (keep : ∀ s f, P s → P (free s f))
    {step : S → I → S} {part : I → List F} (hstep : ∀ s i, P s → step s i = (part i).foldl free s) (is : List I) {s : S}
    (hs : P s) : is.foldl step s = (is.flatMap part).foldl free s := by
  induction is generalizing s with
  | nil => rfl
  | cons i is ih =>
    have hpart : ∀ (l : List F) (s : S), P s → P (l.foldl free s) := by
      intro l
      induction l with
      | nil => exact fun _ hs => hs
      | cons f l ihl => exact fun s hs => ihl _ (keep s f hs)
    rw [List.foldl_cons, List.flatMap_cons, List.foldl_append, ← hstep s i hs]
    apply ih
    rw [hstep s i hs]
    exact hpart _ s hs

/-- Freeing a tree frees the pages that a walk over it collects, children first. -/
private theorem freeTableTree_eq (left : Nat) (h : Host) (table : U64) : s2FreeTableTree left h table =
    (collect tableOf (List.finRange 512) h.mem left table).foldl Host.freePage h := by
  induction left generalizing h table with
  | zero => rfl
  | succ left ih =>
    have hentry : ∀ h' : Host, h'.mem = h.mem → ∀ i,
        (let entry := h'.mem table i
        if entry &&& s2DescTypeMask == s2DescTable then s2FreeTableTree left h' (entry &&& s2TableAddrMask) else h') =
        (((tableOf (h.mem table i)).map (collect tableOf (List.finRange 512) h.mem left)).getD []).foldl Host.freePage h' := by
      intro h' hm i
      have hcond : (h.mem table i &&& s2DescTypeMask == s2DescTable) = isTable (h.mem table i) := rfl
      simp only [hm, hcond, ih, tableOf]
      cases isTable (h.mem table i) with
      | true => rfl
      | false => rfl
    have hloop := foldl_flatMap (P := fun h' => h'.mem = h.mem) (fun h' f hm => (Host.freePage_mem h' f).trans hm)
      (fun h' i hm => hentry h' hm i) (List.finRange 512) rfl
    rw [s2FreeTableTree, hloop, collect, List.foldl_append, List.foldl_cons, List.foldl_nil]

end Free

/-- What a context is on the books for besides those of `h0`: the tables a walk reaches, tables it has lost, and itself. -/
structure Account (h0 : Host) (obj : Nat) (s : S2State) (tables lost : List U64) : Prop where
  shape : Shape s
  owns : Owns h0 s.host (tables ++ lost) [obj]
  reach : ∀ f, f ∈ tables ↔ ∃ p, p.length ≤ 3 - s.start ∧ s.walk p = some f

namespace Account

variable {h0 : Host} {obj : Nat} {s t : S2State} {tables lost : List U64} {p : List (Fin 512)} {g e : U64} {j : Fin 512}

/-- A store that moves no walk. -/
private theorem store (k : Account h0 obj s tables lost) (h : Slot s p g j e) :
    Account h0 obj (s.setEntry g j e) tables lost where
  shape := (h.extends k.shape).shape
  owns := k.owns.writeWord (List.mem_append_left _ ((k.reach g).mpr ⟨p, h.depth, h.table⟩)) j e
  reach f := by
    rw [k.reach]
    refine exists_congr fun q => and_congr_right fun hq => ?_
    rw [h.walk k.shape hq]

private theorem withStats (k : Account h0 obj s tables lost) (stats : S2Stats) :
    Account h0 obj { s with ctx.stats := stats } tables lost where
  shape := ((Grows.refl k.shape).toExtends.withStats stats).shape
  owns := k.owns
  reach := k.reach

private theorem refuse (k : Account h0 obj s tables lost) : Account h0 obj { s with host := s.host.refuse } tables lost where
  shape := (Grows.refuse k.shape).shape
  owns := k.owns.refuse
  reach := k.reach

/-- A slot above the leaf levels holds no block. -/
private theorem createShape (sh : Shape s) (hp : s.walk p = some g) (hl : p.length < 3 - s.start) :
    Shape (s2GetOrCreate s g j).2 := by
  have hst := sh.start
  cases hb : isBlock (s.host.mem g j) with
  | true =>
    have hlen : p.length = 2 - s.start := by
      by_contra hne
      have hnone := sh.blocks p j hl.le hne
      rw [entryAt_eq isBlock hp, hb] at hnone
      cases hnone
    rcases getOrCreate_block sh hp hlen hb with hr | ⟨f, t, hr, hrep, -⟩
    · rw [hr]
      exact (Grows.refuse sh).shape
    · rw [hr]
      exact hrep.shape
  | false =>
    have hnone : s.entryAt isBlock p j = none := by
      rw [entryAt_eq isBlock hp, hb]
      rfl
    obtain ⟨o, t, hr, hg, -⟩ := getOrCreate_spec sh hp hl hnone
    rw [hr]
    exact hg.shape

/-- The table under a slot, found or created: a new one is on the books, and a walk reaches it. -/
private theorem getOrCreate (k : Account h0 obj s tables lost) (hp : s.walk p = some g) (hl : p.length < 3 - s.start) :
    ∃ o t tables', s2GetOrCreate s g j = (o, t) ∧ Account h0 obj t tables' lost ∧ t.ctx = s.ctx ∧
      ∀ f, o = some f → t.walk (p ++ [j]) = some f := by
  have hshape := createShape (j := j) k.shape hp hl
  unfold s2GetOrCreate at hshape ⊢
  cases ht : isTable (s.host.mem g j) with
  | true =>
    have hcond : (s.host.mem g j &&& s2DescTypeMask == s2DescTable) = true := ht
    refine ⟨some (s.host.mem g j &&& s2TableAddrMask), s, tables, by simp only [hcond, if_true], k, rfl, ?_⟩
    rintro _ ⟨⟩
    rw [walk_slot hp, tableOf, if_pos ht]
  | false =>
    have hcond : (s.host.mem g j &&& s2DescTypeMask == s2DescTable) = false := ht
    rcases s.host.getFreePage_cases with hr | ⟨pa, hav, hr⟩
    · exact ⟨none, _, tables, by simp only [hcond, hr]; rfl, k.refuse, rfl, by simp⟩
    · have hempty : tableOf (s.host.mem g j) = none := by
        rw [tableOf, ht]
        rfl
      have at' : Attachable tableOf s.host.mem s.ctx.root (3 - s.start) p g j (pa ||| s2DescTable) pa 0#64 :=
        { owned := k.shape.owned
          parent := hp
          room := hl
          empty := hempty
          fresh := fun q hq hw => hav.2.2 (k.shape.live q pa hq hw)
          link := tableOf_link ⟨hav.1.1, k.shape.memory pa hav.2.1⟩
          clear := by decide }
      simp only [hcond, hr] at hshape ⊢
      refine ⟨some pa, _, pa :: tables, rfl, ⟨hshape, ?_, fun f => ?_⟩, rfl, ?_⟩
      · exact (k.owns.take hav).writeWord
          (List.mem_cons_of_mem _ (List.mem_append_left _ ((k.reach g).mpr ⟨p, hl.le, hp⟩))) j _
      · rw [List.mem_cons, k.reach]
        exact at'.reach_iff.symm
      · rintro _ ⟨⟩
        exact at'.walk_new

/-- The tables on the way to a leaf level. -/
private theorem descend (ipa : U64) {leafLevel : Nat} (hle : leafLevel ≤ 3) (left : Nat)
    (k : Account h0 obj s tables lost) (hleft : s.start + left ≤ leafLevel) {table : U64}
    (hw : s.tableAt (leafLevel - left) ipa = some table) :
    ∃ o t tables', s2Descend ipa leafLevel left table s = (o, t) ∧ Account h0 obj t tables' lost ∧ t.ctx = s.ctx ∧
      ∀ f, o = some f → t.tableAt leafLevel ipa = some f := by
  induction left generalizing s tables table with
  | zero =>
    refine ⟨some table, s, tables, rfl, k, rfl, ?_⟩
    rintro _ ⟨⟩
    exact hw
  | succ left ih =>
    have hpath : path s.start (leafLevel - left) ipa =
        path s.start (leafLevel - (left + 1)) ipa ++ [s2Index ipa (leafLevel - (left + 1))] := by
      rw [show leafLevel - left = leafLevel - (left + 1) + 1 by omega]
      exact path_succ (by omega) ipa
    obtain ⟨o, t, tables', hr, kt, hctx, hnext⟩ := k.getOrCreate (j := s2Index ipa (leafLevel - (left + 1))) hw
      (by rw [path_length]; omega)
    rw [s2Descend, hr]
    have hst : t.start = s.start := by rw [S2State.start, S2State.start, hctx]
    cases o with
    | none => exact ⟨none, t, tables', rfl, kt, hctx, by simp⟩
    | some f =>
      have hwt : t.tableAt (leafLevel - left) ipa = some f := by
        rw [tableAt, hst, hpath]
        exact hnext f rfl
      obtain ⟨o', t', tables'', hr', kt', hctx', hend⟩ := ih kt (by rw [hst]; omega) hwt
      exact ⟨o', t', tables'', hr', kt', hctx'.trans hctx, hend⟩

/-- A block stored over a table: the table is off the tree and still on the books. -/
private theorem cut (k : Account h0 obj s tables lost) (hp : s.walk p = some g) (hl : p.length = 2 - s.start)
    (he : isBlock e = true) {c : U64} (hc : tableOf (s.host.mem g j) = some c) :
    Account h0 obj (s.setEntry g j e) (tables.erase c) (c :: lost) := by
  have hst := k.shape.start
  have hle : p.length ≤ 3 - s.start := by omega
  have hslot : s.walk (p ++ [j]) = some c := (walk_slot hp).trans hc
  have hslotLen : (p ++ [j]).length ≤ 3 - s.start := by
    rw [List.length_append, List.length_singleton]
    omega
  have hnone : tableOf e = none := by
    rw [tableOf, isBlock_not_isTable he]
    rfl
  have hmem : c ∈ tables := (k.reach c).mpr ⟨p ++ [j], hslotLen, hslot⟩
  have hperm : (tables ++ lost).Perm (tables.erase c ++ c :: lost) :=
    ((List.perm_cons_erase hmem).append_right lost).trans List.perm_middle.symm
  refine ⟨shape_cut k.shape hp hl he, ?_, fun f => ?_⟩
  · exact (k.owns.writeWord (List.mem_append_left _ ((k.reach g).mpr ⟨p, hle, hp⟩)) j e).perm hperm
  · rw [(List.nodup_append.mp k.owns.nodup).1.mem_erase_iff, k.reach]
    constructor
    · rintro ⟨hne, q, hq, hw⟩
      refine ⟨q, hq, (walk_setSlot k.shape.owned hp hle hq fun hpre => hne ?_).trans hw⟩
      have heq : p ++ [j] = q := hpre.eq_of_length_le (by rw [List.length_append, List.length_singleton]; omega)
      rw [← heq, hslot] at hw
      exact (Option.some.inj hw).symm
    · rintro ⟨q, hq, hw⟩
      have hold : s.walk q = some f := walk_of_cut k.shape.owned hp hle hnone hq hw
      refine ⟨?_, q, hq, hold⟩
      rintro rfl
      obtain rfl := k.shape.owned _ _ _ hq hslotLen hold hslot
      have hgone : (s.setEntry g j e).walk (p ++ [j]) = none :=
        walk_cut k.shape.owned hp hle hnone (List.prefix_refl _)
      rw [hgone] at hw
      cases hw

variable {ipa pa flags : U64}

private theorem mapOne_page (ipa pa flags : U64) (k : Account h0 obj s tables lost) :
    ∃ tables', Account h0 obj (s2MapOne s ipa pa flags 3).2 tables' lost := by
  have hst := k.shape.start
  have hroot : s.tableAt (3 - (3 - s.start)) ipa = some s.ctx.root := by
    rw [show 3 - (3 - s.start) = s.start by omega]
    exact tableAt_start s ipa
  obtain ⟨o, t, tables', hr, kt, hctx, hend⟩ := k.descend ipa le_rfl (3 - s.start) (by omega) hroot
  rw [mapOne_eq, hr]
  cases o with
  | none => exact ⟨tables', kt⟩
  | some g =>
    have ht := isTable_page pa flags
    have hlen : (path t.start 3 ipa).length = 3 - t.start := path_length _ _ _
    exact ⟨tables', (kt.store ⟨hend g rfl, hlen.le, .inl hlen, isOdd_of_isTable _ ht,
      fun _ => isBlock_of_isTable _ ht⟩).withStats _⟩

/-- A block mapped: exactly the table that was in its place is lost. -/
private theorem mapOne_block (k : Account h0 obj s tables lost) (he : isBlock (s2LeafEntry pa flags 2) = true) :
    ∃ tables' lost', Account h0 obj (s2MapOne s ipa pa flags 2).2 tables' lost' ∧ lost'.length =
      lost.length + if (s2MapOne s ipa pa flags 2).1 = .ok () ∧ (s.tableAt 3 ipa).isSome then 1 else 0 := by
  have hst := k.shape.start
  have hroot : s.tableAt (2 - (2 - s.start)) ipa = some s.ctx.root := by
    rw [show 2 - (2 - s.start) = s.start by omega]
    exact tableAt_start s ipa
  obtain ⟨o, t, tables', hr, kt, hctx, hend⟩ := k.descend ipa (show 2 ≤ 3 by decide) (2 - s.start) (by omega) hroot
  have hd := descended k.shape ipa le_rfl (by decide) fun h => absurd h (by decide)
  rw [hr] at hd
  have hstart : t.start = s.start := by rw [S2State.start, S2State.start, hctx]
  have hbelow : t.tableAt 3 ipa = s.tableAt 3 ipa := by
    rw [tableAt, tableAt, hstart]
    exact hd.others _ (path_length _ _ _) fun h => absurd h (by decide)
  rw [mapOne_eq, hr]
  cases o with
  | none => exact ⟨tables', lost, kt, by simp⟩
  | some g =>
    have hw : t.tableAt 2 ipa = some g := hend g rfl
    have hlen : (path t.start 2 ipa).length = 2 - t.start := path_length _ _ _
    have hslot := tableAt_succ (show t.start ≤ 2 by omega) hw
    rw [hbelow] at hslot
    rw [hslot]
    cases hc : tableOf (t.host.mem g (s2Index ipa 2)) with
    | some c => exact ⟨_, _, (kt.cut hw hlen he hc).withStats _, by simp⟩
    | none =>
      have hleaf : tableOf (s2LeafEntry pa flags 2) = tableOf (t.host.mem g (s2Index ipa 2)) := by
        rw [hc, tableOf, isBlock_not_isTable he]
        rfl
      exact ⟨_, _, (kt.store ⟨hw, by omega, .inr hleaf, isOdd_of_isBlock _ he, fun hne => absurd hlen hne⟩).withStats _,
        by simp⟩

private theorem unmapLeaf (k : Account h0 obj s tables lost) {l : S2Leaf} {level : Nat} (hwalk : s2Walk s ipa = .ok l)
    (hsize : s2TableOfSize s ipa l.size (3 - s.ctx.geometry.startLevel) s.ctx.root = (level, g))
    (hslot : Slot s p g (s2Index ipa level) s2DescInvalid) : Account h0 obj (relmStage2UnmapPage s ipa).2 tables lost := by
  by_cases hbase : l.base = ipa
  · simp only [relmStage2UnmapPage, hwalk, hsize, hbase, bne_self_eq_false, Bool.false_eq_true, if_false]
    exact (k.store hslot).withStats _
  · simp only [relmStage2UnmapPage, hwalk, bne_iff_ne, ne_eq, hbase, not_false_eq_true, if_true]
    exact k

private theorem unmap (k : Account h0 obj s tables lost) : Account h0 obj (relmStage2UnmapPage s ipa).2 tables lost := by
  have hst := k.shape.start
  have hroot : s.tableAt (3 - (3 - s.start)) ipa = some s.ctx.root := by
    rw [show 3 - (3 - s.start) = s.start by omega]
    exact tableAt_start s ipa
  have hodd : isOdd s2DescInvalid = false := by decide
  have hnone : tableOf s2DescInvalid = none := by decide
  have hwalk := walk_spec k.shape ipa
  rw [leaf] at hwalk
  cases hb : s.block ipa with
  | some e =>
    rw [hb] at hwalk
    cases hw : s.tableAt 2 ipa with
    | none =>
      rw [block_none hw] at hb
      cases hb
    | some g =>
      have hgone := tableAt_of_block k.shape (show s.block ipa ≠ none by rw [hb]; simp)
      have hold := (tableAt_succ (by omega) hw).symm.trans hgone
      have hlen : (path s.start 2 ipa).length = 2 - s.start := path_length _ _ _
      have hsize := tableOfSize_spec (by decide) hw (3 - s.start) le_rfl (by omega) (by omega) s.ctx.root hroot
      exact k.unmapLeaf hwalk hsize ⟨hw, by omega, .inr (hnone.trans hold.symm), hodd, fun _ => by decide⟩
  | none =>
    rw [hb] at hwalk
    cases hp : s.page ipa with
    | none =>
      rw [hp] at hwalk
      rw [relmStage2UnmapPage, hwalk]
      exact k
    | some e =>
      rw [hp] at hwalk
      cases hw : s.tableAt 3 ipa with
      | none =>
        rw [S2State.page, entryAt_none isTable hw] at hp
        cases hp
      | some g =>
        have hlen : (path s.start 3 ipa).length = 3 - s.start := path_length _ _ _
        have hsize := tableOfSize_spec le_rfl hw (3 - s.start) le_rfl (by omega) (by omega) s.ctx.root hroot
        exact k.unmapLeaf hwalk hsize ⟨hw, hlen.le, .inl hlen, hodd, fun _ => by decide⟩

end Account

/-- A huge mapping that succeeds where there is a table of pages. -/
def S2Call.CutsOff (s : S2State) : S2Call → Prop
  | mapHugePage ipa pa flags => (relmStage2MapHugePage s ipa pa flags).1 = .ok () ∧ (s.tableAt 3 ipa).isSome
  | _ => False

instance (s : S2State) : DecidablePred (S2Call.CutsOff s)
  | .mapPage _ _ _ => inferInstanceAs (Decidable False)
  | .mapHugePage _ _ _ => inferInstanceAs (Decidable (_ ∧ _))
  | .unmapPage _ => inferInstanceAs (Decidable False)

/-- How many tables a run cuts off. -/
def cutTables : S2State → List S2Call → Nat
  | _, [] => 0
  | s, c :: cs => (if c.CutsOff s then 1 else 0) + cutTables (c.exec s).2 cs

namespace Account

variable {h0 : Host} {obj : Nat} {s : S2State} {tables lost : List U64}

private theorem exec (k : Account h0 obj s tables lost) (c : S2Call) (hc : c.BlockFlags) :
    ∃ tables' lost', Account h0 obj (c.exec s).2 tables' lost' ∧
      lost'.length = lost.length + if c.CutsOff s then 1 else 0 := by
  cases c with
  | mapPage ipa pa flags =>
    rw [S2Call.exec, relmStage2MapPage]
    by_cases ha : Accepted s.ctx.geometry ipa pa flags 3
    · obtain ⟨tables', k'⟩ := k.mapOne_page ipa pa flags
      rw [map_accepted ha]
      exact ⟨tables', lost, k', rfl⟩
    · obtain ⟨e, he⟩ := map_rejected ha
      rw [he]
      exact ⟨tables, lost, k, rfl⟩
  | mapHugePage ipa pa flags =>
    simp only [S2Call.exec, S2Call.CutsOff, relmStage2MapHugePage]
    split
    · exact ⟨tables, lost, k, by simp⟩
    · by_cases ha : Accepted s.ctx.geometry ipa pa flags 2
      · rw [map_accepted ha]
        exact k.mapOne_block (isBlock_leafEntry hc pa)
      · obtain ⟨e, he⟩ := map_rejected ha
        rw [he]
        exact ⟨tables, lost, k, by simp⟩
  | unmapPage ipa => exact ⟨tables, lost, k.unmap, rfl⟩

private theorem run_exec (k : Account h0 obj s tables lost) (calls : List S2Call) (hf : ∀ c ∈ calls, c.BlockFlags) :
    ∃ tables' lost', Account h0 obj (run S2Call.exec s calls).2 tables' lost' ∧
      lost'.length = lost.length + cutTables s calls := by
  induction calls generalizing s tables lost with
  | nil => exact ⟨tables, lost, k, rfl⟩
  | cons c cs ih =>
    obtain ⟨tables', lost', k', hlen⟩ := k.exec c (hf c List.mem_cons_self)
    obtain ⟨tables'', lost'', k'', hlen'⟩ := ih k' fun c hc => hf c (List.mem_cons_of_mem _ hc)
    refine ⟨tables'', lost'', k'', ?_⟩
    rw [hlen', hlen, cutTables]
    omega

/-- Freeing the tree and the object leaves what was lost. -/
private theorem free (k : Account h0 obj s tables lost) :
    Owns h0 ((s2FreeTableTree (3 - s.start) s.host s.ctx.root).kfree obj) lost [] := by
  have hmem := fun f => (mem_collect (k := 3 - s.start) List.mem_finRange s.ctx.root f).trans (k.reach f).symm
  have hnd := collect_nodup List.mem_finRange (List.nodup_finRange 512) s.ctx.root k.shape.owned
  have hperm := (List.perm_ext_iff_of_nodup hnd (List.nodup_append.mp k.owns.nodup).1).mpr hmem
  rw [freeTableTree_eq]
  exact ((k.owns.perm (hperm.symm.append_right lost)).freeAll).kfree

end Account

/-- How the life of a context ends. -/
inductive ContextLife (h : Host) (invalidate : Invalidate) (create : Except Errno Stage2 × Host) (calls : List S2Call) : Prop
  | refused (e : Errno) (h' : Host) (hcreate : create = (.error e, h')) (owns : Owns h h' [] [])
  | kept (e : Errno) (ctx : Stage2) (h' : Host) (hcreate : create = (.ok ctx, h'))
    (hinvalidate : s2Invalidate invalidate (run S2Call.exec ⟨h', ctx⟩ calls).2.ctx = .error e)
    (hdestroy : relmStage2ContextDestroy invalidate h.slabNext (run S2Call.exec ⟨h', ctx⟩ calls).2 =
      (.error e, (run S2Call.exec ⟨h', ctx⟩ calls).2.host))
  | destroyed (ctx : Stage2) (h' h'' : Host) (left : List U64) (hcreate : create = (.ok ctx, h'))
    (hdestroy : relmStage2ContextDestroy invalidate h.slabNext (run S2Call.exec ⟨h', ctx⟩ calls).2 = (.ok (), h''))
    (owns : Owns h h'' left []) (hleft : left.length = cutTables ⟨h', ctx⟩ calls)

section Create

variable {limits : Option Geometry} {h h' : Host} {geometry : Geometry} {vmid : BitVec 16}

private theorem create_refused {e : Errno} (hc : relmStage2ContextCreate limits h geometry vmid = (.error e, h')) :
    Owns h h' [] [] := by
  unfold relmStage2ContextCreate at hc
  split at hc
  · obtain ⟨-, rfl⟩ := Prod.mk.inj hc
    exact .start h
  split at hc
  · obtain ⟨-, rfl⟩ := Prod.mk.inj hc
    exact .start h
  split at hc
  · obtain ⟨-, rfl⟩ := Prod.mk.inj hc
    exact .start h
  split at hc
  · obtain ⟨-, rfl⟩ := Prod.mk.inj hc
    exact .start h
  rcases h.kzalloc_cases with hk | hk
  · simp only [hk] at hc
    obtain ⟨-, rfl⟩ := Prod.mk.inj hc
    exact (Owns.start h).congr rfl rfl rfl fun _ _ => rfl
  simp only [hk] at hc
  rcases h.slabTake.getFreePage_cases with hr | ⟨pa, hav, hr⟩
  · simp only [hr] at hc
    obtain ⟨-, rfl⟩ := Prod.mk.inj hc
    exact (Owns.start h).slabTake.refuse.kfree
  · simp only [hr] at hc
    cases (Prod.mk.inj hc).1

private theorem create_account {ctx : Stage2} (hm : ∀ f, h.managed f = true → f.toNat < 2 ^ 48)
    (hc : relmStage2ContextCreate limits h geometry vmid = (.ok ctx, h')) :
    Account h h.slabNext ⟨h', ctx⟩ [ctx.root] [] := by
  have he := (contextCreate_spec hm hc).1
  refine ⟨he.shape, ?_, fun f => ?_⟩
  · unfold relmStage2ContextCreate at hc
    split at hc
    · cases hc
    split at hc
    · cases hc
    split at hc
    · cases hc
    split at hc
    · cases hc
    rcases h.kzalloc_cases with hk | hk
    · simp [hk] at hc
    simp only [hk] at hc
    rcases h.slabTake.getFreePage_cases with hr | ⟨pa, hav, hr⟩
    · simp [hr] at hc
    simp only [hr, Prod.mk.injEq, Except.ok.injEq] at hc
    obtain ⟨rfl, rfl⟩ := hc
    exact (Owns.start h).slabTake.take hav
  · rw [List.mem_singleton]
    constructor
    · rintro rfl
      exact ⟨[], Nat.zero_le _, rfl⟩
    · rintro ⟨p, -, hw⟩
      cases p with
      | nil => exact (Option.some.inj hw).symm
      | cons i p =>
        rw [he.walks] at hw
        cases hw

end Create

/-- Whatever is mapped and unmapped in between, destroying a context gives back the context and every table in its tree,
each once, and nothing else. One page is left for each huge mapping that took the place of a table of pages. -/
theorem stage2_context_life {limits : Option Geometry} {h : Host} {geometry : Geometry} {vmid : BitVec 16}
    (hm : ∀ f, h.managed f = true → f.toNat < 2 ^ 48) {calls : List S2Call} (hf : ∀ c ∈ calls, c.BlockFlags)
    (invalidate : Invalidate) : ContextLife h invalidate (relmStage2ContextCreate limits h geometry vmid) calls := by
  cases hc : relmStage2ContextCreate limits h geometry vmid with
  | mk created h' =>
    cases created with
    | error e => exact .refused e h' rfl (create_refused hc)
    | ok ctx =>
      obtain ⟨tables, lost, k, hlen⟩ := (create_account hm hc).run_exec calls hf
      cases hi : s2Invalidate invalidate (run S2Call.exec ⟨h', ctx⟩ calls).2.ctx with
      | error e => exact .kept e ctx h' rfl hi (by rw [relmStage2ContextDestroy, hi])
      | ok =>
        have hd : relmStage2ContextDestroy invalidate h.slabNext (run S2Call.exec ⟨h', ctx⟩ calls).2 =
            (.ok (), (s2FreeTableTree (3 - (run S2Call.exec ⟨h', ctx⟩ calls).2.start)
              (run S2Call.exec ⟨h', ctx⟩ calls).2.host (run S2Call.exec ⟨h', ctx⟩ calls).2.ctx.root).kfree h.slabNext) := by
          rw [relmStage2ContextDestroy, hi]
          rfl
        refine .destroyed ctx h' _ lost rfl hd k.free ?_
        rw [hlen, List.length_nil, Nat.zero_add]

private def lifeGeometry : Geometry := ⟨39, 40, 1, 8⟩

private def lifeHost : Host :=
  { Host.idle [some 0x1000#64, some 0x2000#64, some 0x3000#64] [true] with managed := fun f => decide (f.toNat < 2 ^ 48) }

private def lifeFlags : U64 := s2AccessMask ||| 0xf#64 <<< 2 ||| 0x3#64 <<< 8

/-- A page, and a block in its place. -/
private def lifeCalls : List S2Call :=
  [.mapPage 0x201000#64 0x9000#64 lifeFlags, .mapHugePage 0x200000#64 0x400000#64 lifeFlags]

/-- The context is destroyed, and the table that the block has cut off is left. -/
theorem stage2_context_life_one_table : ∃ ctx h' h'' left,
    relmStage2ContextCreate (some lifeGeometry) lifeHost lifeGeometry 1#16 = (.ok ctx, h') ∧
    relmStage2ContextDestroy (fun _ _ => .ok ()) lifeHost.slabNext (run S2Call.exec ⟨h', ctx⟩ lifeCalls).2 = (.ok (), h'') ∧
    Owns lifeHost h'' left [] ∧ left.length = 1 := by
  have hlife : ContextLife lifeHost (fun _ _ => .ok ())
      (relmStage2ContextCreate (some lifeGeometry) lifeHost lifeGeometry 1#16) lifeCalls :=
    stage2_context_life (fun _ hf => of_decide_eq_true hf) (by decide) _
  cases hlife with
  | refused e h' hcreate => cases hcreate
  | kept e ctx h' hcreate hinvalidate =>
    cases hcreate
    cases hinvalidate
  | destroyed ctx h' h'' left hcreate hdestroy owns hleft =>
    refine ⟨ctx, h', h'', left, hcreate, hdestroy, owns, ?_⟩
    cases hcreate
    exact hleft.trans rfl

end Relm.Arm64
