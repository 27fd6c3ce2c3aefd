import Relm.Arm64.Stage2

/-! The invariant of the stage-2 tables, with either start level, and what creating a table and storing a descriptor
do to the leaves. -/
namespace Relm.Arm64
open Relm.Lib.TableTree Relm.Lib.Word

/-- The descriptor type field. -/
def descType (e : U64) : U64 := e &&& s2DescTypeMask
/-- A page at level 3, a table above. -/
def isTable (e : U64) : Bool := descType e == s2DescTable
def isBlock (e : U64) : Bool := descType e == s2DescBlock
/-- The table a descriptor above level 3 names. -/
def tableOf (e : U64) : Option U64 := if isTable e then some (e &&& s2TableAddrMask) else none

/-- The slots used from the start level down to a level, that one excluded. -/
def path (start level : Nat) (ipa : U64) : List (Fin 512) := (List.range' start (level - start)).map (s2Index ipa)

theorem path_succ {start level : Nat} (h : start ≤ level) (ipa : U64) :
    path start (level + 1) ipa = path start level ipa ++ [s2Index ipa level] := by
  rw [path, path, show level + 1 - start = level - start + 1 by omega, List.range'_concat, List.map_append,
    show start + 1 * (level - start) = level by omega]
  rfl

@[simp] theorem path_length (start level : Nat) (ipa : U64) : (path start level ipa).length = level - start := by simp [path]

@[simp] theorem path_self (start : Nat) (ipa : U64) : path start start ipa = [] := by simp [path]

theorem isTable_zero : isTable 0 = false := by decide
theorem isBlock_zero : isBlock 0 = false := by decide

theorem isBlock_not_isTable {e : U64} (h : isBlock e = true) : isTable e = false := by
  simp only [isBlock, isTable, beq_iff_eq] at h ⊢
  rw [h]
  decide

theorem isBlock_of_isTable (e : U64) (h : isTable e = true) : isBlock e = false := by
  cases hb : isBlock e with
  | false => rfl
  | true =>
    rw [isBlock_not_isTable hb] at h
    cases h

section Entries

variable {pa flags : U64}

/-- An address a descriptor can name: page aligned and below `2^48`. -/
def Nameable (pa : U64) : Prop := pa.toNat % 4096 = 0 ∧ pa.toNat < 2 ^ 48

theorem nameable_iff_mask (pa : U64) : Nameable pa ↔ pa &&& s2TableAddrMask = pa := by
  rw [← BitVec.toNat_inj, and_field_toNat _ _ 12 48 (by decide) (by decide), Nameable]
  omega

private theorem nameable_type (h : Nameable pa) : pa &&& s2DescTypeMask = 0#64 := by
  rw [← BitVec.toNat_inj, and_low_toNat _ _ 2 (by decide)]
  have hmod := h.1
  have hzero : (0#64).toNat = 0 := rfl
  omega

theorem isTable_link (h : Nameable pa) : isTable (pa ||| s2DescTable) = true := by
  rw [isTable, descType, BitVec.and_or_distrib_right, nameable_type h]
  decide

theorem tableOf_link (h : Nameable pa) : tableOf (pa ||| s2DescTable) = some pa := by
  rw [tableOf, if_pos (isTable_link h), or_and_of_disjoint _ _ _ (by decide), (nameable_iff_mask pa).mp h]

/-- Flags of a leaf stay out of the address, type and access-flag fields. -/
def LeafFlags (flags : U64) : Prop := flags &&& ~~~s2LeafFlagsMask = 0#64

instance (flags : U64) : Decidable (LeafFlags flags) := inferInstanceAs (Decidable (_ = _))

theorem LeafFlags.disjoint (h : LeafFlags flags) {m : U64} (hm : m &&& s2LeafFlagsMask = 0#64) : flags &&& m = 0#64 := by
  apply BitVec.eq_of_getLsbD_eq
  intro i hi
  have hf := congrArg (fun x => x.getLsbD i) h
  have hg := congrArg (fun x => x.getLsbD i) hm
  simp only [BitVec.getLsbD_and, BitVec.getLsbD_not, hi, decide_true, Bool.true_and, BitVec.getLsbD_zero] at hf hg ⊢
  revert hf hg
  cases flags.getLsbD i <;> cases m.getLsbD i <;> cases s2LeafFlagsMask.getLsbD i <;> simp

private theorem leafEntry_and {m : U64} (pa flags : U64) (level : Nat) (hf : flags &&& m = 0#64) (ha : s2Af &&& m = 0#64) :
    s2LeafEntry pa flags level &&& m =
      (pa &&& s2PageAddrMask &&& m) ||| ((if level == 3 then s2DescPage else s2DescBlock) &&& m) := by
  rw [s2LeafEntry, BitVec.and_or_distrib_right, or_and_of_disjoint _ _ _ ha, or_and_of_disjoint _ _ _ hf]

theorem descType_leafEntry (hf : LeafFlags flags) (pa : U64) (level : Nat) :
    descType (s2LeafEntry pa flags level) = if level == 3 then s2DescPage else s2DescBlock := by
  rw [descType, leafEntry_and pa flags level (hf.disjoint (by decide)) (by decide), BitVec.and_assoc,
    show s2PageAddrMask &&& s2DescTypeMask = 0#64 by decide, BitVec.and_zero, BitVec.zero_or]
  split <;> decide

theorem addr_leafEntry (hf : LeafFlags flags) (hp : Nameable pa) (level : Nat) :
    s2LeafEntry pa flags level &&& s2PageAddrMask = pa := by
  rw [leafEntry_and pa flags level (hf.disjoint (by decide)) (by decide), BitVec.and_assoc, BitVec.and_self]
  have hmask : pa &&& s2PageAddrMask = pa := (nameable_iff_mask pa).mp hp
  rw [hmask]
  split <;> simp [s2DescPage, s2DescBlock, s2PageAddrMask, s2TableAddrMask]

private theorem or_and_self (x m : U64) : (x ||| m) &&& m = m := by
  apply BitVec.eq_of_getLsbD_eq
  intro i _
  rw [BitVec.getLsbD_and, BitVec.getLsbD_or]
  cases x.getLsbD i <;> cases m.getLsbD i <;> rfl

/-- The type of a page is right whatever the flags are. -/
theorem isTable_page (pa flags : U64) : isTable (s2LeafEntry pa flags 3) = true := by
  rw [isTable, descType, s2LeafEntry, if_pos (beq_self_eq_true 3), beq_iff_eq]
  exact or_and_self _ s2DescTypeMask

/-- The type of a block is right unless the flags turn it into that of a table. -/
theorem isBlock_leafEntry (hf : flags &&& 2#64 = 0) (pa : U64) : isBlock (s2LeafEntry pa flags 2) = true := by
  have hlow : s2LeafEntry pa flags 2 &&& 1#64 = 1#64 := or_and_self _ _
  have hhigh : s2LeafEntry pa flags 2 &&& 2#64 = 0#64 := by
    have haddr : s2PageAddrMask &&& 2#64 = 0#64 := by decide
    rw [s2LeafEntry, or_and_of_disjoint _ _ _ (by decide), or_and_of_disjoint _ _ _ (by decide),
      or_and_of_disjoint _ _ _ hf, BitVec.and_assoc, haddr, BitVec.and_zero]
  rw [isBlock, descType, show s2DescTypeMask = 2#64 ||| 1#64 by decide, BitVec.and_or_distrib_left, hlow, hhigh]
  rfl

theorem isBlock_block (hf : LeafFlags flags) (pa : U64) : isBlock (s2LeafEntry pa flags 2) = true := by
  rw [isBlock, descType_leafEntry hf]
  decide

end Entries

/-- The valid bit, which `s2_map_one` tests, in terms of the type. -/
theorem valid_iff (e : U64) : (e &&& s2DescValid != 0) = (isTable e || isBlock e) := by
  have hval : (e &&& s2DescValid).toNat = e.toNat % 2 := and_low_toNat _ _ 1 (by decide)
  have htype : (descType e).toNat = e.toNat % 4 := and_low_toNat _ _ 2 (by decide)
  rw [Bool.eq_iff_iff, bne_iff_ne, ne_eq, ← BitVec.toNat_inj, hval, Bool.or_eq_true, isTable, isBlock, beq_iff_eq,
    beq_iff_eq, ← BitVec.toNat_inj, ← BitVec.toNat_inj, htype, show s2DescTable.toNat = 3 from rfl,
    show s2DescBlock.toNat = 1 from rfl, show (0 : U64).toNat = 0 from rfl]
  omega

namespace S2State

def start (s : S2State) : Nat := s.ctx.geometry.startLevel
/-- The table at the end of a path from the root. -/
def walk (s : S2State) (p : List (Fin 512)) : Option U64 := Lib.TableTree.walk tableOf s.host.mem s.ctx.root p
/-- A descriptor of a kind in a slot at the end of a path. -/
def entryAt (s : S2State) (kind : U64 → Bool) (p : List (Fin 512)) (i : Fin 512) : Option U64 :=
  leafAt tableOf kind s.host.mem s.ctx.root p i
/-- The table of an address at a level. -/
def tableAt (s : S2State) (level : Nat) (ipa : U64) : Option U64 := s.walk (path s.start level ipa)
/-- The 4 KiB leaf of an address. -/
def page (s : S2State) (ipa : U64) : Option U64 := s.entryAt isTable (path s.start 3 ipa) (s2Index ipa 3)
/-- The 2 MiB leaf of an address. -/
def block (s : S2State) (ipa : U64) : Option U64 := s.entryAt isBlock (path s.start 2 ipa) (s2Index ipa 2)

/-- Neither empty nor a table, page or block. -/
def isOdd (e : U64) : Bool := e != 0 && !isTable e && !isBlock e

theorem isOdd_of_isTable (e : U64) (h : isTable e = true) : isOdd e = false := by simp [isOdd, h]

theorem isOdd_of_isBlock (e : U64) (h : isBlock e = true) : isOdd e = false := by simp [isOdd, h]

/-- The tables form a tree that owns its frames, and slots are empty or hold a table, a page or, at level 2 only, a
block. The host's memory lies below `2^48`. -/
structure Shape (s : S2State) : Prop where
  start : s.start ≤ 1
  owned : Owned tableOf s.host.mem s.ctx.root (3 - s.start)
  live : ∀ p f, p.length ≤ 3 - s.start → s.walk p = some f → f ∈ s.host.live
  plain : ∀ p i, p.length ≤ 3 - s.start → s.entryAt isOdd p i = none
  blocks : ∀ p i, p.length ≤ 3 - s.start → p.length ≠ 2 - s.start → s.entryAt isBlock p i = none
  memory : ∀ f, s.host.managed f = true → f.toNat < 2 ^ 48

/-- What every operation keeps. -/
structure Extends (s t : S2State) : Prop where
  shape : Shape t
  root : t.ctx.root = s.ctx.root
  geometry : t.ctx.geometry = s.ctx.geometry
  oom : s.host.oom = true → t.host.oom = true

/-- Creating tables changes no leaf and no count. -/
structure Grows (s t : S2State) : Prop extends Extends s t where
  stats : t.ctx.stats = s.ctx.stats
  walks : ∀ p f, p.length ≤ 3 - s.start → s.walk p = some f → t.walk p = some f
  pages : ∀ p i, p.length = 3 - s.start → t.entryAt isTable p i = s.entryAt isTable p i
  blocks : ∀ p i, p.length = 2 - s.start → t.entryAt isBlock p i = s.entryAt isBlock p i

variable {s t u : S2State} {p : List (Fin 512)} {g : U64} {j : Fin 512}

theorem Extends.start_eq (h : Extends s t) : t.start = s.start := congrArg Geometry.startLevel h.geometry

theorem Extends.trans (h : Extends s t) (k : Extends t u) : Extends s u :=
  ⟨k.shape, k.root.trans h.root, k.geometry.trans h.geometry, fun ho => k.oom (h.oom ho)⟩

theorem Grows.refl (sh : Shape s) : Grows s s :=
  ⟨⟨sh, rfl, rfl, id⟩, rfl, fun _ _ _ hw => hw, fun _ _ _ => rfl, fun _ _ _ => rfl⟩

/-- A failed allocation changes no table. -/
theorem Grows.refuse (sh : Shape s) : Grows s { s with host := s.host.refuse } :=
  ⟨⟨⟨sh.start, sh.owned, sh.live, sh.plain, sh.blocks, sh.memory⟩, rfl, rfl, fun _ => rfl⟩, rfl, fun _ _ _ hw => hw,
    fun _ _ _ => rfl, fun _ _ _ => rfl⟩

theorem Grows.trans (h : Grows s t) (k : Grows t u) : Grows s u := by
  have hs := h.start_eq
  refine ⟨h.toExtends.trans k.toExtends, k.stats.trans h.stats, fun p f hp hw => ?_, fun p i hp => ?_, fun p i hp => ?_⟩
  · exact k.walks p f (by rw [hs]; exact hp) (h.walks p f hp hw)
  · exact (k.pages p i (by rw [hs]; exact hp)).trans (h.pages p i hp)
  · exact (k.blocks p i (by rw [hs]; exact hp)).trans (h.blocks p i hp)

theorem Grows.page (h : Grows s t) (a : U64) : t.page a = s.page a := by
  rw [S2State.page, S2State.page, h.start_eq]
  exact h.pages _ _ (path_length _ _ _)

theorem Grows.block (h : Grows s t) (a : U64) : t.block a = s.block a := by
  rw [S2State.block, S2State.block, h.start_eq]
  exact h.blocks _ _ (path_length _ _ _)

theorem entryAt_eq (kind : U64 → Bool) (hp : s.walk p = some g) :
    s.entryAt kind p j = if kind (s.host.mem g j) then some (s.host.mem g j) else none := by
  have hw : Lib.TableTree.walk tableOf s.host.mem s.ctx.root p = some g := hp
  rw [entryAt, leafAt, hw, Option.bind_some]

theorem entryAt_none (kind : U64 → Bool) (hp : s.walk p = none) : s.entryAt kind p j = none := by
  have hw : Lib.TableTree.walk tableOf s.host.mem s.ctx.root p = none := hp
  rw [entryAt, leafAt, hw, Option.bind_none]

theorem walk_slot (hp : s.walk p = some g) : s.walk (p ++ [j]) = tableOf (s.host.mem g j) := by
  have hw : Lib.TableTree.walk tableOf s.host.mem s.ctx.root p = some g := hp
  rw [walk, walk_concat, hw, Option.bind_some]

theorem walk_slot_none (hp : s.walk p = none) : s.walk (p ++ [j]) = none := by
  have hw : Lib.TableTree.walk tableOf s.host.mem s.ctx.root p = none := hp
  rw [walk, walk_concat, hw, Option.bind_none]

/-- What a slot of a table holds. -/
theorem Shape.slot (sh : Shape s) (hp : s.walk p = some g) (hl : p.length ≤ 3 - s.start) (j : Fin 512) :
    s.host.mem g j = 0 ∨ isTable (s.host.mem g j) = true ∨ isBlock (s.host.mem g j) = true := by
  have hplain := sh.plain p j hl
  rw [entryAt_eq isOdd hp] at hplain
  by_contra hc
  push Not at hc
  have hodd : isOdd (s.host.mem g j) = true := by simpa [isOdd, hc.2.1, hc.2.2] using hc.1
  rw [if_pos hodd] at hplain
  cases hplain

/-- A slot that is no block holds a table or nothing. -/
theorem Shape.slot_empty (sh : Shape s) (hp : s.walk p = some g) (hl : p.length ≤ 3 - s.start)
    (hb : s.entryAt isBlock p j = none) (ht : isTable (s.host.mem g j) = false) : s.host.mem g j = 0 := by
  rw [entryAt_eq isBlock hp] at hb
  rcases sh.slot hp hl j with h0 | htab | hblk
  · exact h0
  · rw [ht] at htab
    cases htab
  · rw [if_pos hblk] at hb
    cases hb

section Create

variable {pa : U64}

/-- The state after a new table has been hung under an empty slot. -/
private abbrev created (s : S2State) (g pa : U64) (j : Fin 512) : S2State :=
  { s with host := s.host.take pa }.setEntry g j (pa ||| s2DescTable)

private theorem nameable (sh : Shape s) (hav : s.host.available pa) : Nameable pa := ⟨hav.1.1, sh.memory pa hav.2.1⟩

private theorem attachable (sh : Shape s) (hp : s.walk p = some g) (hl : p.length < 3 - s.start)
    (ht : tableOf (s.host.mem g j) = none) (hav : s.host.available pa) :
    Attachable tableOf s.host.mem s.ctx.root (3 - s.start) p g j (pa ||| s2DescTable) pa 0#64 where
  owned := sh.owned
  parent := hp
  room := hl
  empty := ht
  fresh q hq hw := hav.2.2 (sh.live q pa hq hw)
  link := tableOf_link (nameable sh hav)
  clear := by decide

private theorem created_entryAt (kind : U64 → Bool) (sh : Shape s)
    (at' : Attachable tableOf s.host.mem s.ctx.root (3 - s.start) p g j (pa ||| s2DescTable) pa 0#64)
    (hav : s.host.available pa) (hzero : kind 0 = false) (hlink : ∀ e, isTable e = true → kind e = false)
    (h0 : s.host.mem g j = 0) {q : List (Fin 512)} (hq : q.length ≤ 3 - s.start) (i : Fin 512) :
    (created s g pa j).entryAt kind q i = s.entryAt kind q i := by
  refine at'.leafAt_attach hq hzero fun _ _ => ⟨hlink _ (isTable_link (nameable sh hav)), ?_⟩
  rw [h0]
  exact hzero

private theorem grows_created (sh : Shape s) (hp : s.walk p = some g) (hl : p.length < 3 - s.start)
    (h0 : s.host.mem g j = 0) (hav : s.host.available pa) : Grows s (created s g pa j) := by
  have at' := attachable sh hp hl (by rw [h0]; decide) hav
  refine ⟨⟨⟨sh.start, at'.owned_after, fun q f hq hw => ?_, fun q i hq => ?_, fun q i hq hne => ?_, sh.memory⟩, rfl, rfl, id⟩,
    rfl, fun q f hq hw => ?_, fun q i hq => ?_, fun q i hq => ?_⟩
  · rcases at'.walk_eq_some hq hw with ⟨-, rfl⟩ | ⟨-, hw'⟩
    · exact List.mem_cons_self
    · exact List.mem_cons_of_mem _ (sh.live q f hq hw')
  · rw [created_entryAt isOdd sh at' hav (by decide) isOdd_of_isTable h0 hq]
    exact sh.plain q i hq
  · rw [created_entryAt isBlock sh at' hav (by decide) isBlock_of_isTable h0 hq]
    exact sh.blocks q i hq hne
  · refine (at'.walk_other hq fun hn => ?_).trans hw
    have hnone : s.walk q = none := at'.walk_before hn
    rw [hnone] at hw
    cases hw
  · exact at'.leafAt_attach hq.le (by decide) fun hqp => absurd at'.room (by rw [← hqp]; omega)
  · exact created_entryAt isBlock sh at' hav (by decide) isBlock_of_isTable h0 (by omega) i

/-- The table found or created under a slot that holds no block. -/
theorem getOrCreate_spec (sh : Shape s) (hp : s.walk p = some g) (hl : p.length < 3 - s.start)
    (hb : s.entryAt isBlock p j = none) :
    ∃ o t, s2GetOrCreate s g j = (o, t) ∧ Grows s t ∧ (o = none → t.host.oom = true) ∧
      (∀ f, o = some f → t.walk (p ++ [j]) = some f) ∧
      ∀ q, q.length ≤ 3 - s.start → q ≠ p ++ [j] → t.walk q = s.walk q := by
  unfold s2GetOrCreate
  cases ht : isTable (s.host.mem g j) with
  | true =>
    have hcond : (s.host.mem g j &&& s2DescTypeMask == s2DescTable) = true := ht
    refine ⟨some (s.host.mem g j &&& s2TableAddrMask), s, by simp only [hcond, if_true], .refl sh, by simp, ?_,
      fun _ _ _ => rfl⟩
    rintro _ ⟨⟩
    rw [walk_slot hp, tableOf, if_pos ht]
  | false =>
    have h0 := sh.slot_empty hp hl.le hb ht
    have hcond : (s.host.mem g j &&& s2DescTypeMask == s2DescTable) = false := ht
    rcases s.host.getFreePage_cases with hr | ⟨pa, hav, hr⟩
    · exact ⟨none, _, by simp only [hcond, hr]; rfl, Grows.refuse sh, fun _ => rfl, by simp, fun _ _ _ => rfl⟩
    · have at' := attachable sh hp hl (by rw [h0]; decide) hav
      refine ⟨some pa, created s g pa j, by simp only [hcond, hr]; rfl, grows_created sh hp hl h0 hav, by simp, ?_, ?_⟩
      · rintro _ ⟨⟩
        exact at'.walk_new
      · intro q hq hne
        exact at'.walk_ne hq hne

/-- A new table in the place of a block: the block is gone, and nothing else changes. -/
structure Replaced (s : S2State) (p : List (Fin 512)) (j : Fin 512) (t : S2State) : Prop extends Extends s t where
  stats : t.ctx.stats = s.ctx.stats
  pages : ∀ q i, q.length = 3 - s.start → t.entryAt isTable q i = s.entryAt isTable q i
  blocks : ∀ q i, q.length = 2 - s.start →
    t.entryAt isBlock q i = if q = p ∧ i = j then none else s.entryAt isBlock q i

private theorem replaced_entryAt (kind : U64 → Bool) (sh : Shape s)
    (at' : Attachable tableOf s.host.mem s.ctx.root (3 - s.start) p g j (pa ||| s2DescTable) pa 0#64)
    (hav : s.host.available pa) (hzero : kind 0 = false) (hlink : ∀ e, isTable e = true → kind e = false)
    {q : List (Fin 512)} (hq : q.length ≤ 3 - s.start) (i : Fin 512) :
    (created s g pa j).entryAt kind q i = if q = p ∧ i = j then none else s.entryAt kind q i := by
  by_cases hslot : q = p ∧ i = j
  · obtain ⟨rfl, rfl⟩ := hslot
    have hw : (created s g pa i).walk q = some g := at'.walk_parent
    rw [if_pos ⟨rfl, rfl⟩, entryAt_eq kind hw]
    have hentry : (created s g pa i).host.mem g i = pa ||| s2DescTable := setSlot_same _ _ _ _
    rw [hentry, hlink _ (isTable_link (nameable sh hav))]
    rfl
  · rw [if_neg hslot]
    exact at'.leafAt_attach hq hzero fun hqp hij => absurd ⟨hqp, hij⟩ hslot

/-- The table created under a slot that holds a block. -/
theorem getOrCreate_block (sh : Shape s) (hp : s.walk p = some g) (hl : p.length = 2 - s.start)
    (hb : isBlock (s.host.mem g j) = true) :
    (s2GetOrCreate s g j = (none, { s with host := s.host.refuse })) ∨
      ∃ f t, s2GetOrCreate s g j = (some f, t) ∧ Replaced s p j t ∧ t.walk (p ++ [j]) = some f := by
  have hst := sh.start
  have hnot := isBlock_not_isTable hb
  have hcond : (s.host.mem g j &&& s2DescTypeMask == s2DescTable) = false := hnot
  have htab : tableOf (s.host.mem g j) = none := by
    rw [tableOf, hnot]
    rfl
  unfold s2GetOrCreate
  rcases s.host.getFreePage_cases with hr | ⟨pa, hav, hr⟩
  · exact .inl (by simp only [hcond, hr]; rfl)
  · have at' := attachable sh hp (by omega) htab hav
    refine .inr ⟨pa, created s g pa j, by simp only [hcond, hr]; rfl, ⟨⟨⟨sh.start, at'.owned_after, fun q f hq hw => ?_,
      fun q i hq => ?_, fun q i hq hne => ?_, sh.memory⟩, rfl, rfl, id⟩, rfl, fun q i hq => ?_, fun q i hq => ?_⟩,
      at'.walk_new⟩
    · rcases at'.walk_eq_some hq hw with ⟨-, rfl⟩ | ⟨-, hw'⟩
      · exact List.mem_cons_self
      · exact List.mem_cons_of_mem _ (sh.live q f hq hw')
    · rw [replaced_entryAt isOdd sh at' hav (by decide) isOdd_of_isTable hq]
      split
      · rfl
      · exact sh.plain q i hq
    · rw [replaced_entryAt isBlock sh at' hav (by decide) isBlock_of_isTable hq]
      split
      · rfl
      · exact sh.blocks q i hq hne
    · exact at'.leafAt_attach hq.le (by decide) fun hqp => by rw [hqp] at hq; omega
    · exact replaced_entryAt isBlock sh at' hav (by decide) isBlock_of_isTable (by omega) i

end Create

/-- How far the table loop gets: a table of the address at the leaf level, or a failed allocation. Level 3 tables other
than the one asked for are as before. -/
structure Descended (s : S2State) (ipa : U64) (leafLevel : Nat) (o : Option U64) (t : S2State) : Prop extends Grows s t where
  refused : o = none → t.host.oom = true
  table : ∀ f, o = some f → t.tableAt leafLevel ipa = some f
  others : ∀ q, q.length = 3 - s.start → (leafLevel = 3 → q ≠ path s.start 3 ipa) → t.walk q = s.walk q

/-- The block test of a slot on the way to the leaf level. -/
private theorem slot_not_block (sh : Shape s) (ipa : U64) {leafLevel level : Nat} (hle : leafLevel ≤ 3)
    (hlt : level < leafLevel) (hst : s.start ≤ level) (hb : leafLevel = 3 → s.block ipa = none) :
    s.entryAt isBlock (path s.start level ipa) (s2Index ipa level) = none := by
  by_cases hl : level = 2
  · subst hl
    exact hb (by omega)
  · have hs := sh.start
    refine sh.blocks _ _ (by rw [path_length]; omega) ?_
    rw [path_length]
    omega

theorem descend_spec (ipa : U64) {leafLevel : Nat} (hle : leafLevel ≤ 3) (left : Nat) (s : S2State) (table : U64)
    (sh : Shape s) (hleft : s.start + left ≤ leafLevel) (hw : s.tableAt (leafLevel - left) ipa = some table)
    (hb : leafLevel = 3 → s.block ipa = none) :
    Descended s ipa leafLevel (s2Descend ipa leafLevel left table s).1 (s2Descend ipa leafLevel left table s).2 := by
  induction left generalizing s table with
  | zero =>
    refine ⟨.refl sh, by simp [s2Descend], fun f hf => ?_, fun _ _ _ => rfl⟩
    obtain rfl := Option.some.inj hf
    exact hw
  | succ left ih =>
    have hlevel : leafLevel - (left + 1) + 1 = leafLevel - left := by omega
    have hpath : path s.start (leafLevel - left) ipa =
        path s.start (leafLevel - (left + 1)) ipa ++ [s2Index ipa (leafLevel - (left + 1))] := by
      rw [← hlevel]
      exact path_succ (by omega) ipa
    have hroom : (path s.start (leafLevel - (left + 1)) ipa).length < 3 - s.start := by
      rw [path_length]
      omega
    obtain ⟨o, t, heq, hg, hrefused, htable, hothers⟩ := getOrCreate_spec sh hw hroom
      (slot_not_block sh ipa hle (by omega) (by omega) hb)
    -- the new table is at level 3 only in the last pass of a descent to level 3
    have hfar : ∀ q, q.length = 3 - s.start → (leafLevel = 3 → q ≠ path s.start 3 ipa) → t.walk q = s.walk q := by
      intro q hq hne
      refine hothers q hq.le ?_
      rintro rfl
      rw [← hpath, path_length] at hq
      have hzero : left = 0 := by omega
      subst hzero
      exact hne (by omega) (by rw [← hpath]; congr 1; omega)
    rw [s2Descend, heq]
    cases o with
    | none => exact ⟨hg, fun _ => hrefused rfl, by simp, hfar⟩
    | some f =>
      have hst := hg.start_eq
      have hwt : t.tableAt (leafLevel - left) ipa = some f := by
        rw [tableAt, hst, hpath]
        exact htable f rfl
      have hrest := ih t f hg.shape (by rw [hst]; omega) hwt fun h3 => (hg.block ipa).trans (hb h3)
      refine ⟨hg.trans hrest.toGrows, hrest.refused, hrest.table, fun q hq hne => ?_⟩
      rw [hrest.others q (by rw [hst]; exact hq) (by rw [hst]; exact hne)]
      exact hfar q hq hne

/-- Where a descriptor may be stored without a table being lost: at level 3, or at level 2 over a slot that is no
table. -/
structure Slot (s : S2State) (p : List (Fin 512)) (g : U64) (j : Fin 512) (e : U64) : Prop where
  table : s.walk p = some g
  depth : p.length ≤ 3 - s.start
  leaf : p.length = 3 - s.start ∨ tableOf e = tableOf (s.host.mem g j)
  plain : isOdd e = false
  block : p.length ≠ 2 - s.start → isBlock e = false

variable {e : U64}

theorem Slot.entryAt (h : Slot s p g j e) (sh : Shape s) (kind : U64 → Bool) {q : List (Fin 512)} (hq : q.length ≤ 3 - s.start)
    (i : Fin 512) : (s.setEntry g j e).entryAt kind q i =
      if q = p ∧ i = j then (if kind e then some e else none) else s.entryAt kind q i :=
  leafAt_setSlot sh.owned h.table h.depth hq h.leaf

theorem Slot.walk (h : Slot s p g j e) (sh : Shape s) {q : List (Fin 512)} (hq : q.length ≤ 3 - s.start) :
    (s.setEntry g j e).walk q = s.walk q := walk_setSlot_leaf sh.owned h.table h.depth hq h.leaf

theorem Slot.extends (h : Slot s p g j e) (sh : Shape s) : Extends s (s.setEntry g j e) := by
  refine ⟨⟨sh.start, owned_setSlot_leaf sh.owned h.table h.depth h.leaf, fun q f hq hw => ?_, fun q i hq => ?_,
    fun q i hq hne => ?_, sh.memory⟩, rfl, rfl, id⟩
  · exact sh.live q f hq ((h.walk sh hq).symm.trans hw)
  · rw [h.entryAt sh isOdd hq, h.plain]
    split
    · rfl
    · exact sh.plain q i hq
  · rw [h.entryAt sh isBlock hq]
    split
    · rename_i hqp
      rw [h.block (by rw [← hqp.1]; exact hne)]
      rfl
    · exact sh.blocks q i hq hne

/-- A block stored over a table: what was below the slot is out of reach. -/
theorem shape_cut (sh : Shape s) (hp : s.walk p = some g) (hl : p.length = 2 - s.start) (he : isBlock e = true) :
    Shape (s.setEntry g j e) := by
  have hst := sh.start
  have hle : p.length ≤ 3 - s.start := by omega
  have hc : tableOf e = none := by
    rw [tableOf, isBlock_not_isTable he]
    rfl
  have hkind : ∀ (kind : U64 → Bool) q i, q.length ≤ 3 - s.start → (q = p → kind e = false) →
      s.entryAt kind q i = none → (s.setEntry g j e).entryAt kind q i = none := by
    intro kind q i hq hne hold
    by_contra hsome
    obtain ⟨x, hx⟩ := Option.ne_none_iff_exists'.mp hsome
    rcases leafAt_of_cut sh.owned hp hle hc hq hx with ⟨hqp, rfl⟩ | hbefore
    · obtain ⟨f, -, hf⟩ := Option.bind_eq_some_iff.mp hx
      split at hf
      · rename_i hk
        rw [Option.some.inj hf, hne hqp] at hk
        cases hk
      · cases hf
    · rw [S2State.entryAt, hbefore] at hold
      cases hold
  refine ⟨sh.start, owned_cut sh.owned hp hle hc, fun q f hq hw => ?_, fun q i hq => ?_, fun q i hq hne => ?_, sh.memory⟩
  · exact sh.live q f hq (walk_of_cut sh.owned hp hle hc hq hw)
  · exact hkind isOdd q i hq (fun _ => isOdd_of_isBlock e he) (sh.plain q i hq)
  · exact hkind isBlock q i hq (fun hqp => absurd (hqp ▸ hl) hne) (sh.blocks q i hq hne)

/-- Counters are no part of the tables. -/
theorem Extends.withStats (h : Extends s t) (stats : S2Stats) : Extends s { t with ctx.stats := stats } :=
  ⟨⟨h.shape.start, h.shape.owned, h.shape.live, h.shape.plain, h.shape.blocks, h.shape.memory⟩, h.root, h.geometry, h.oom⟩

end S2State

section Keys

/-- How many address bits the walk from a start level looks at. -/
def walkBits (start : Nat) : Nat := 12 + 9 * (4 - start)

/-- The address a walk really uses. -/
def walked (start : Nat) (ipa : U64) : Nat := ipa.toNat % 2 ^ walkBits start

def pageKey (start : Nat) (ipa : U64) : Nat := walked start ipa / 4096
def blockKey (start : Nat) (ipa : U64) : Nat := walked start ipa / 2 ^ 21

private theorem s2Index_val (ipa : U64) (level : Nat) : (s2Index ipa level).val = ipa.toNat / 2 ^ s2Shift level % 512 := by
  simp only [s2Index]
  rw [field_toNat _ _ (s2Shift level) 9 (by decide), show (2 : Nat) ^ 9 = 512 from rfl]

variable {start level : Nat}

/-- The part of the walked address that the levels down to one select by. -/
private def levelKey (start level : Nat) (ipa : U64) : Nat := walked start ipa / 2 ^ s2Shift level

/-- The index at a level is the last digit of its key. -/
private theorem levelKey_mod (hs : start ≤ level) (hl : level ≤ 3) (ipa : U64) :
    levelKey start level ipa % 512 = (s2Index ipa level).val := by
  have hsplit : (2 : Nat) ^ walkBits start = 2 ^ s2Shift level * 2 ^ (9 * (level - start) + 9) := by
    rw [← Nat.pow_add, walkBits, s2Shift]
    congr 1
    omega
  have hdvd : 512 ∣ 2 ^ (9 * (level - start) + 9) := ⟨2 ^ (9 * (level - start)), by rw [Nat.pow_add, Nat.mul_comm]⟩
  rw [levelKey, walked, hsplit, Nat.mod_mul_right_div_self, Nat.mod_mod_of_dvd _ hdvd, s2Index_val]

/-- The digits before it make up the key of the level above. -/
private theorem levelKey_div (hl : level < 3) (ipa : U64) : levelKey start (level + 1) ipa / 512 = levelKey start level ipa := by
  have hshift : (2 : Nat) ^ s2Shift level = 2 ^ s2Shift (level + 1) * 512 := by
    rw [show (512 : Nat) = 2 ^ 9 from rfl, ← Nat.pow_add, s2Shift, s2Shift]
    congr 1
    omega
  rw [levelKey, levelKey, hshift, Nat.div_div_eq_div_mul]

private theorem levelKey_start (hs : start ≤ 1) (ipa : U64) : levelKey start start ipa = (s2Index ipa start).val := by
  have hlt : levelKey start start ipa < 512 := by
    have hbits : (2 : Nat) ^ walkBits start = 2 ^ s2Shift start * 512 := by
      rw [show (512 : Nat) = 2 ^ 9 from rfl, ← Nat.pow_add, walkBits, s2Shift]
      congr 1
      omega
    exact Nat.div_lt_of_lt_mul (hbits ▸ Nat.mod_lt _ (Nat.two_pow_pos _))
  rw [← levelKey_mod le_rfl (hs.trans (by decide)), Nat.mod_eq_of_lt hlt]

/-- One level more of slots is shared when the slots above it and the index at it are. -/
theorem path_succ_eq_iff (hle : start ≤ level) (a b : U64) :
    path start (level + 1) a = path start (level + 1) b ↔
      path start level a = path start level b ∧ s2Index a level = s2Index b level := by
  rw [path_succ hle, path_succ hle]
  constructor
  · intro h
    obtain ⟨hp, hi⟩ := List.append_inj h (by simp)
    exact ⟨hp, List.cons.inj hi |>.1⟩
  · rintro ⟨hp, hi⟩
    rw [hp, hi]

/-- Two addresses take the same slots down to a level when their keys of that level agree. -/
private theorem levelKey_eq_iff (hs : start ≤ 1) (hle : start ≤ level) (hl : level ≤ 3) (a b : U64) :
    path start level a = path start level b ∧ s2Index a level = s2Index b level ↔
      levelKey start level a = levelKey start level b := by
  induction level, hle using Nat.le_induction with
  | base =>
    rw [path_self, path_self, levelKey_start hs, levelKey_start hs, Fin.val_inj]
    exact and_iff_right rfl
  | succ level hle ih =>
    have hdigits : ∀ u v : Nat, u / 512 = v / 512 ∧ u % 512 = v % 512 ↔ u = v := by omega
    rw [path_succ_eq_iff hle, ih (by omega), ← levelKey_div (show level < 3 by omega), ← levelKey_div (show level < 3 by omega),
      ← Fin.val_inj, ← levelKey_mod (show start ≤ level + 1 by omega) hl,
      ← levelKey_mod (show start ≤ level + 1 by omega) hl, hdigits]

theorem pageKey_eq_iff (hs : start ≤ 1) (a b : U64) :
    path start 3 a = path start 3 b ∧ s2Index a 3 = s2Index b 3 ↔ pageKey start a = pageKey start b :=
  levelKey_eq_iff hs (hs.trans (by decide)) le_rfl a b

theorem blockKey_eq_iff (hs : start ≤ 1) (a b : U64) :
    path start 2 a = path start 2 b ∧ s2Index a 2 = s2Index b 2 ↔ blockKey start a = blockKey start b :=
  levelKey_eq_iff hs (hs.trans (by decide)) (by decide) a b

/-- Addresses share their level 3 table exactly when they lie in one block. -/
theorem path_eq_iff (hs : start ≤ 1) (a b : U64) : path start 3 a = path start 3 b ↔ blockKey start a = blockKey start b := by
  rw [path_succ_eq_iff (show start ≤ 2 by omega), blockKey_eq_iff hs]

end Keys

end Relm.Arm64
