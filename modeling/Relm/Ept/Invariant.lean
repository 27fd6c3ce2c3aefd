import Relm.Ept.Context

/-! The ownership invariant of an EPT context, and that creating a table or storing a leaf keeps it. -/
namespace Relm.Ept
open Relm.Lib.TableTree

/-- The slots an address selects above the last level. -/
def gpaPath (gpa : U64) : List (Fin 512) := [eptPml4Index gpa, eptPdptIndex gpa, eptPdIndex gpa]
/-- The slots an address selects above the PD level. -/
def gpaPath2 (gpa : U64) : List (Fin 512) := [eptPml4Index gpa, eptPdptIndex gpa]

theorem gpaPath_eq_iff (a b : U64) :
    (gpaPath a = gpaPath b ∧ eptPtIndex a = eptPtIndex b) ↔ pageOf a = pageOf b := by
  simp only [← index_eq_iff_page, gpaPath, List.cons.injEq, and_true, and_assoc]

theorem gpaPath2_eq_iff (a b : U64) :
    (gpaPath2 a = gpaPath2 b ∧ eptPdIndex a = eptPdIndex b) ↔ blockOf a = blockOf b := by
  simp only [← index_eq_iff_block, gpaPath2, List.cons.injEq, and_true, and_assoc]

namespace EptState

/-- The table at the end of a path from the root. -/
def walk (s : EptState) (p : List (Fin 512)) : Option U64 := Lib.TableTree.walk tableOf s.host.mem s.ctx.pml4 p
/-- A present entry of the table at the end of a path. -/
def leaf (s : EptState) (p : List (Fin 512)) (i : Fin 512) : Option U64 :=
  leafAt tableOf present s.host.mem s.ctx.pml4 p i
/-- A present PS entry of the table at the end of a path. -/
def huge (s : EptState) (p : List (Fin 512)) (i : Fin 512) : Option U64 :=
  leafAt tableOf (fun e => present e && isPs e) s.host.mem s.ctx.pml4 p i
/-- A link that grants less than every access. -/
def weak (s : EptState) (p : List (Fin 512)) (i : Fin 512) : Option U64 :=
  leafAt tableOf (fun e => (tableOf e).isSome && e &&& eptRwx != eptRwx) s.host.mem s.ctx.pml4 p i
/-- The 4 KiB leaf of an address. -/
def pte (s : EptState) (gpa : U64) : Option U64 := s.leaf (gpaPath gpa) (eptPtIndex gpa)
/-- The 2 MiB leaf of an address. -/
def pde (s : EptState) (gpa : U64) : Option U64 := s.huge (gpaPath2 gpa) (eptPdIndex gpa)

/-- The tables form a tree that owns its frames, `tables` lists exactly its nodes, only PD entries carry
the PS bit, and links grant every access. -/
structure Shape (s : EptState) : Prop where
  owned : Owned tableOf s.host.mem s.ctx.pml4 3
  tables : ∀ f, f ∈ s.ctx.tables ↔ ∃ p, p.length ≤ 3 ∧ s.walk p = some f
  nodup : s.ctx.tables.Nodup
  live : ∀ f ∈ s.ctx.tables, f ∈ s.host.live
  upper : ∀ p i, p.length < 2 → s.huge p i = none
  links : ∀ p i, p.length ≤ 2 → s.weak p i = none

/-- What every operation keeps: the invariant, the tables and walks there were, and every page that is
not a table. -/
structure Extends (s s' : EptState) : Prop where
  shape : Shape s'
  root : s'.ctx.pml4 = s.ctx.pml4
  obj : s'.ctx.obj = s.ctx.obj
  walks : ∀ q f, q.length ≤ 3 → s.walk q = some f → s'.walk q = some f
  alloc : ∃ new, s'.ctx.tables = new ++ s.ctx.tables ∧ s.host.Allocated s'.host new
  frame : ∀ f, f ∉ s'.ctx.tables → s'.host.mem f = s.host.mem f

/-- Creating tables moreover changes no leaf and no count. -/
structure Grows (s s' : EptState) : Prop extends Extends s s' where
  stats : s'.ctx.stats = s.ctx.stats
  leaf : ∀ q i, q.length = 3 → s'.leaf q i = s.leaf q i
  huge : ∀ q i, q.length ≤ 2 → s'.huge q i = s.huge q i

variable {s t u : EptState} {gpa hpa flags : U64}

theorem Shape.root_mem (sh : Shape s) : s.ctx.pml4 ∈ s.ctx.tables := (sh.tables _).mpr ⟨[], by simp, rfl⟩

theorem Shape.walk_mem (sh : Shape s) {p : List (Fin 512)} {f : U64} (hp : p.length ≤ 3) (hw : s.walk p = some f) :
    f ∈ s.ctx.tables := (sh.tables f).mpr ⟨p, hp, hw⟩

/-- The same tables under another host state: every table is still handed out and unchanged. -/
structure Framed (s t : EptState) : Prop where
  ctx : t.ctx = s.ctx
  mem : ∀ f ∈ s.ctx.tables, t.host.mem f = s.host.mem f
  live : ∀ f ∈ s.ctx.tables, f ∈ t.host.live

namespace Framed

variable (h : Framed s t) (sh : Shape s)

include h sh

theorem walk {p : List (Fin 512)} (hp : p.length ≤ 3) : t.walk p = s.walk p := by
  rw [EptState.walk, EptState.walk, h.ctx]
  apply walk_congr
  intro r i hr f hf
  have hlen := hr.length_le
  simp only [List.length_append, List.length_singleton] at hlen
  rw [h.mem f (sh.walk_mem (by omega) hf)]

private theorem leafAt_eq (isLeaf : U64 → Bool) {p : List (Fin 512)} (hp : p.length ≤ 3) (i : Fin 512) :
    leafAt tableOf isLeaf t.host.mem t.ctx.pml4 p i = leafAt tableOf isLeaf s.host.mem s.ctx.pml4 p i := by
  have hw : Lib.TableTree.walk tableOf t.host.mem t.ctx.pml4 p = Lib.TableTree.walk tableOf s.host.mem s.ctx.pml4 p :=
    h.walk sh hp
  rw [leafAt, leafAt, hw]
  cases hf : Lib.TableTree.walk tableOf s.host.mem s.ctx.pml4 p with
  | none => rfl
  | some f =>
    have hm : f ∈ s.ctx.tables := sh.walk_mem hp hf
    simp only [Option.bind_some, h.mem f hm]

theorem pte (a : U64) : t.pte a = s.pte a := h.leafAt_eq sh _ (by simp [gpaPath]) _

theorem pde (a : U64) : t.pde a = s.pde a :=
  h.leafAt_eq sh (fun e => present e && isPs e) (p := gpaPath2 a) (by simp [gpaPath2]) _

theorem shape : Shape t where
  owned p q f hp hq hwp hwq := by
    have hp' : s.walk p = some f := (h.walk sh hp).symm.trans hwp
    have hq' : s.walk q = some f := (h.walk sh hq).symm.trans hwq
    exact sh.owned p q f hp hq hp' hq'
  tables f := by
    rw [h.ctx, sh.tables f]
    exact exists_congr fun p => and_congr_right fun hp => by rw [h.walk sh hp]
  nodup := h.ctx ▸ sh.nodup
  live f hf := h.live f (h.ctx ▸ hf)
  upper p i hp := (h.leafAt_eq sh _ (by omega) i).trans (sh.upper p i hp)
  links p i hp := (h.leafAt_eq sh _ (by omega) i).trans (sh.links p i hp)

end Framed

namespace Extends

theorem refl (h : Shape s) : Extends s s where
  shape := h
  root := rfl
  obj := rfl
  walks _ _ _ hw := hw
  alloc := ⟨[], rfl, .refl _⟩
  frame _ _ := rfl

theorem mem_tables (h : Extends s t) {f : U64} (hf : f ∈ s.ctx.tables) : f ∈ t.ctx.tables := by
  obtain ⟨new, ht, _⟩ := h.alloc
  exact ht ▸ List.mem_append_right _ hf

theorem oom (h : Extends s t) (ho : s.host.oom = true) : t.host.oom = true := by
  obtain ⟨new, _, ha⟩ := h.alloc
  exact ha.oom ho

theorem trans (h : Extends s t) (k : Extends t u) : Extends s u where
  shape := k.shape
  root := k.root.trans h.root
  obj := k.obj.trans h.obj
  walks q f hq hw := k.walks q f hq (h.walks q f hq hw)
  alloc := by
    obtain ⟨new, ht, ha⟩ := h.alloc
    obtain ⟨more, hu, hb⟩ := k.alloc
    exact ⟨more ++ new, by rw [hu, ht, List.append_assoc], ha.trans hb⟩
  frame f hf := by rw [k.frame f hf, h.frame f fun hc => hf (k.mem_tables hc)]

theorem withStats (h : Extends s t) (st : EptStats) : Extends s { t with ctx.stats := st } :=
  ⟨⟨h.shape.owned, h.shape.tables, h.shape.nodup, h.shape.live, h.shape.upper, h.shape.links⟩, h.root, h.obj, h.walks, h.alloc, h.frame⟩

end Extends

namespace Grows

theorem refl (h : Shape s) : Grows s s := { Extends.refl h with stats := rfl, leaf := fun _ _ _ => rfl, huge := fun _ _ _ => rfl }

theorem trans (h : Grows s t) (k : Grows t u) : Grows s u where
  toExtends := h.toExtends.trans k.toExtends
  stats := k.stats.trans h.stats
  leaf q i hq := (k.leaf q i hq).trans (h.leaf q i hq)
  huge q i hq := (k.huge q i hq).trans (h.huge q i hq)

theorem pte (h : Grows s t) (a : U64) : t.pte a = s.pte a := h.leaf _ _ rfl
theorem pde (h : Grows s t) (a : U64) : t.pde a = s.pde a := h.huge _ _ le_rfl

end Grows

private theorem grows_refuse (sh : Shape s) : Grows s { s with host := s.host.refuse } where
  shape := ⟨sh.owned, sh.tables, sh.nodup, sh.live, sh.upper, sh.links⟩
  root := rfl
  obj := rfl
  walks _ _ _ hw := hw
  alloc := ⟨[], rfl, .refused _⟩
  frame _ _ := rfl
  stats := rfl
  leaf _ _ _ := rfl
  huge _ _ _ := rfl

section Create

variable {p : List (Fin 512)} {g pa e : U64} {j : Fin 512}

/-- The state after a new table has been hung under an empty slot. -/
private abbrev created (s : EptState) (g pa : U64) (j : Fin 512) : EptState :=
  { host := (s.host.take pa).writeWord g j (tableEntry pa), ctx := { s.ctx with tables := pa :: s.ctx.tables } }

private theorem attachable (sh : Shape s) (hp : s.walk p = some g) (hl : p.length < 3)
    (ha : present (s.host.mem g j) = false) (hav : s.host.available pa) :
    Attachable tableOf s.host.mem s.ctx.pml4 3 p g j (tableEntry pa) pa 0#64 where
  owned := sh.owned
  parent := hp
  room := hl
  empty := by simp [tableOf, ha]
  fresh q hq hw := hav.2.2 (sh.live pa (sh.walk_mem hq hw))
  link := tableOf_tableEntry pa hav.1
  clear := tableOf_zero

private theorem created_huge (at' : Attachable tableOf s.host.mem s.ctx.pml4 3 p g j (tableEntry pa) pa 0#64)
    (ha : present (s.host.mem g j) = false) (q : List (Fin 512)) (i : Fin 512) (hq : q.length ≤ 2) :
    (created s g pa j).huge q i = s.huge q i :=
  at'.leafAt_attach (by omega) (by decide) fun _ _ => by simp [ha]

private theorem created_leaf (at' : Attachable tableOf s.host.mem s.ctx.pml4 3 p g j (tableEntry pa) pa 0#64)
    (q : List (Fin 512)) (i : Fin 512) (hq : q.length = 3) :
    (created s g pa j).leaf q i = s.leaf q i :=
  at'.leafAt_attach (by omega) (by decide) fun hqp => absurd at'.room (by rw [← hqp]; omega)

private theorem shape_created (sh : Shape s) (hp : s.walk p = some g) (hl : p.length < 3)
    (ha : present (s.host.mem g j) = false) (hav : s.host.available pa) : Shape (created s g pa j) := by
  have at' := attachable sh hp hl ha hav
  have hpt : pa ∉ s.ctx.tables := fun hc => hav.2.2 (sh.live pa hc)
  refine ⟨at'.owned_after, ?_, List.nodup_cons.mpr ⟨hpt, sh.nodup⟩, ?_, ?_, ?_⟩
  · intro f
    rw [List.mem_cons, sh.tables f]
    exact at'.reach_iff.symm
  · intro f hf
    rcases List.mem_cons.mp hf with rfl | hf
    · exact List.mem_cons_self
    · exact List.mem_cons_of_mem _ (sh.live f hf)
  · intro q i hq
    rw [created_huge at' ha q i (by omega)]
    exact sh.upper q i hq
  · intro q i hq
    refine (at'.leafAt_attach (by omega) (by decide) fun _ _ => ⟨?_, ?_⟩).trans (sh.links q i hq)
    · simp [rwx_tableEntry]
    · simp [tableOf, ha]

private theorem grows_created (sh : Shape s) (hp : s.walk p = some g) (hl : p.length < 3)
    (ha : present (s.host.mem g j) = false) (hav : s.host.available pa) : Grows s (created s g pa j) := by
  have at' := attachable sh hp hl ha hav
  have htt : g ∈ s.ctx.tables := sh.walk_mem hl.le hp
  refine {
    shape := shape_created sh hp hl ha hav
    root := rfl
    obj := rfl
    walks := ?_
    alloc := ⟨[pa], rfl, ?_⟩
    frame := ?_
    stats := rfl
    leaf := created_leaf at'
    huge := fun q i hq => created_huge at' ha q i hq }
  · intro q f hq hw
    refine (at'.walk_other hq fun hn => ?_).trans hw
    have hnone : s.walk q = none := at'.walk_before hn
    rw [hnone] at hw
    cases hw
  · obtain ⟨hl, hf, hfr, hn, hm, hs, hb, ho⟩ := Host.Allocated.took hav
    exact ⟨hl, hf, hfr, hn, hm, hs, hb, ho⟩
  · intro f hf
    have hfg : f ≠ g := fun hc => hf (List.mem_cons_of_mem _ (hc.symm ▸ htt))
    have hfp : f ≠ pa := fun hc => hf (hc ▸ List.mem_cons_self)
    funext i
    exact (setSlot_other _ _ (.inl hfg)).trans (fill_other _ _ _ hfp)

theorem huge_eq (hp : s.walk p = some g) : s.huge p j =
    if present (s.host.mem g j) && isPs (s.host.mem g j) then some (s.host.mem g j) else none := by
  have hw : Lib.TableTree.walk tableOf s.host.mem s.ctx.pml4 p = some g := hp
  rw [huge, leafAt, hw, Option.bind_some]

theorem huge_none (hp : s.walk p = none) : s.huge p j = none := by
  have hw : Lib.TableTree.walk tableOf s.host.mem s.ctx.pml4 p = none := hp
  rw [huge, leafAt, hw, Option.bind_none]

theorem leaf_eq (hp : s.walk p = some g) : s.leaf p j =
    if present (s.host.mem g j) then some (s.host.mem g j) else none := by
  have hw : Lib.TableTree.walk tableOf s.host.mem s.ctx.pml4 p = some g := hp
  rw [leaf, leafAt, hw, Option.bind_some]

theorem leaf_none (hp : s.walk p = none) : s.leaf p j = none := by
  have hw : Lib.TableTree.walk tableOf s.host.mem s.ctx.pml4 p = none := hp
  rw [leaf, leafAt, hw, Option.bind_none]

theorem walk_append_none (h : s.walk p = none) (q : List (Fin 512)) : s.walk (p ++ q) = none := by
  have hw : Lib.TableTree.walk tableOf s.host.mem s.ctx.pml4 p = none := h
  rw [walk, walk_append, hw, Option.bind_none]

/-- A slot that is no 2 MiB leaf leads to a table exactly when it is present. -/
theorem walk_slot (hp : s.walk p = some g) (hh : s.huge p j = none) :
    s.walk (p ++ [j]) = if present (s.host.mem g j) then some (entryAddr (s.host.mem g j)) else none := by
  have hw : Lib.TableTree.walk tableOf s.host.mem s.ctx.pml4 p = some g := hp
  simp only [huge, leafAt, hw, Option.bind_some, Bool.and_eq_true, ite_eq_right_iff, reduceCtorEq, imp_false,
    not_and, Bool.not_eq_true] at hh
  rw [walk, walk_concat, hw, Option.bind_some, tableOf]
  by_cases ha : present (s.host.mem g j) = true
  · simp [ha, hh ha]
  · simp [ha]

/-- The table found or created under a slot, unless the slot holds a 2 MiB leaf. -/
theorem getOrCreate_spec (sh : Shape s) (hp : s.walk p = some g) (hl : p.length < 3) (hh : s.huge p j = none) :
    ∃ o s', relmEptGetOrCreateTable s g j = (o, s') ∧ Grows s s' ∧ (o = none → s'.host.oom = true) ∧
      (∀ t', o = some t' → s'.walk (p ++ [j]) = some t') ∧
      ∀ q, q.length ≤ 3 → q ≠ p ++ [j] → s'.walk q = s.walk q := by
  unfold relmEptGetOrCreateTable
  by_cases ha : present (s.host.mem g j) = true
  · refine ⟨some (entryAddr (s.host.mem g j)), s, by simp [ha], Grows.refl sh, by simp, ?_, fun _ _ _ => rfl⟩
    rintro _ ⟨⟩
    rw [walk_slot hp hh, if_pos ha]
  · have ha' : present (s.host.mem g j) = false := by simpa using ha
    rcases s.host.getFreePage_cases with hr | ⟨pa, hav, hr⟩
    · exact ⟨none, _, by simp only [ha', hr]; rfl, grows_refuse sh, fun _ => rfl, by simp, fun _ _ _ => rfl⟩
    · have at' := attachable sh hp hl ha' hav
      refine ⟨some pa, created s g pa j, by simp only [ha', hr]; rfl, grows_created sh hp hl ha' hav, by simp, ?_, ?_⟩
      · rintro _ ⟨⟩
        exact at'.walk_new
      · intro q hq hne
        exact at'.walk_ne hq hne

/-- No entry above the last level is of a kind. -/
def Without (kind : U64 → Bool) (s : EptState) : Prop :=
  ∀ p i, p.length ≤ 2 → leafAt tableOf kind s.host.mem s.ctx.pml4 p i = none

/-- Creating tables adds no entry of a kind that their links are not of. -/
theorem getOrCreate_without {kind : U64 → Bool} (h0 : kind 0#64 = false) (ht : ∀ pa, kind (tableEntry pa) = false)
    (hk : ∀ e, kind e = true → present e = true) (sh : Shape s) (hp : s.walk p = some g) (hl : p.length < 3)
    (hw : Without kind s) : Without kind (relmEptGetOrCreateTable s g j).2 := by
  unfold relmEptGetOrCreateTable
  by_cases ha : present (s.host.mem g j) = true
  · simpa [ha] using hw
  · have ha' : present (s.host.mem g j) = false := by simpa using ha
    have hold : kind (s.host.mem g j) = false := by
      by_contra hc
      exact ha (hk _ (by simpa using hc))
    rcases s.host.getFreePage_cases with hr | ⟨pa, hav, hr⟩
    · simp only [ha', hr]
      exact hw
    · simp only [ha', hr]
      have at' := attachable sh hp hl ha' hav
      intro q i hq
      exact (at'.leafAt_attach (by omega) h0 fun _ _ => ⟨ht pa, hold⟩).trans (hw q i hq)

/-- Where a leaf may be stored: in a page table, or over a PD slot that is no table. -/
def LeafSlot (s : EptState) (p : List (Fin 512)) (g : U64) (j : Fin 512) (e : U64) : Prop :=
  p.length = 3 ∨ p.length = 2 ∧ tableOf e = none ∧ tableOf (s.host.mem g j) = none

private theorem LeafSlot.side (h : LeafSlot s p g j e) : p.length = 3 ∨ tableOf e = tableOf (s.host.mem g j) :=
  h.imp_right fun ⟨_, he, ho⟩ => by rw [he, ho]

private theorem LeafSlot.length (h : LeafSlot s p g j e) : 2 ≤ p.length ∧ p.length ≤ 3 := by
  rcases h with h | ⟨h, _⟩ <;> omega

theorem setEntry_leaf (sh : Shape s) (hp : s.walk p = some g) (hs : LeafSlot s p g j e) (q : List (Fin 512))
    (i : Fin 512) (hq : q.length = 3) : (s.setEntry g j e).leaf q i =
      if q = p ∧ i = j then (if present e then some e else none) else s.leaf q i :=
  leafAt_setSlot sh.owned hp hs.length.2 hq.le hs.side

theorem setEntry_huge (sh : Shape s) (hp : s.walk p = some g) (hs : LeafSlot s p g j e) (q : List (Fin 512))
    (i : Fin 512) (hq : q.length ≤ 2) : (s.setEntry g j e).huge q i =
      if q = p ∧ i = j then (if present e && isPs e then some e else none) else s.huge q i :=
  leafAt_setSlot sh.owned hp hs.length.2 (by omega) hs.side

theorem setEntry_walk (sh : Shape s) (hp : s.walk p = some g) (hs : LeafSlot s p g j e) (q : List (Fin 512))
    (hq : q.length ≤ 3) : (s.setEntry g j e).walk q = s.walk q :=
  walk_setSlot_leaf sh.owned hp hs.length.2 hq hs.side

/-- Entries of page tables are not above the last level. -/
theorem setEntry_without {kind : U64 → Bool} (sh : Shape s) (hp : s.walk p = some g) (hl : p.length = 3)
    (hw : Without kind s) : Without kind (s.setEntry g j e) := by
  intro q i hq
  refine (leafAt_setSlot sh.owned hp hl.le (by omega) (.inl hl)).trans ?_
  rw [if_neg (fun hc => by rw [hc.1] at hq; omega)]
  exact hw q i hq

/-- Storing a leaf keeps the tables and every page that is not one. -/
theorem setEntry_extends (sh : Shape s) (hp : s.walk p = some g) (hs : LeafSlot s p g j e) :
    Extends s (s.setEntry g j e) := by
  have hwalk := setEntry_walk sh hp hs
  refine ⟨⟨owned_setSlot_leaf sh.owned hp hs.length.2 hs.side, ?_, sh.nodup, sh.live, ?_, ?_⟩, rfl, rfl, ?_, ?_, ?_⟩
  · intro f
    refine (sh.tables f).trans (exists_congr fun q => and_congr_right fun hq => ?_)
    rw [hwalk q hq]
  · intro q i hq
    have hne : ¬ (q = p ∧ i = j) := fun hc => by
      have := hs.length.1
      rw [← hc.1] at this
      omega
    rw [setEntry_huge sh hp hs q i (by omega), if_neg hne]
    exact sh.upper q i hq
  · intro q i hq
    refine (leafAt_setSlot sh.owned hp hs.length.2 (by omega) hs.side).trans ?_
    by_cases hqp : q = p ∧ i = j
    · have hte : tableOf e = none := by
        rcases hs with h3 | ⟨_, hte, _⟩
        · rw [hqp.1] at hq
          omega
        · exact hte
      simp [hqp, hte]
    · rw [if_neg hqp]
      exact sh.links q i hq
  · intro q f hq hw
    rw [hwalk q hq, hw]
  · refine ⟨[], rfl, ?_⟩
    obtain ⟨hl, hf, hfr, hn, hm, hsl, hb, ho⟩ := Host.Allocated.refl s.host
    exact ⟨hl, hf, hfr, hn, hm, hsl, hb, ho⟩
  · intro f hf
    have hfg : f ≠ g := fun hc => hf (hc.symm ▸ sh.walk_mem hs.length.2 hp)
    funext i
    exact setSlot_other _ _ (.inl hfg)

end Create

end EptState

end Relm.Ept
