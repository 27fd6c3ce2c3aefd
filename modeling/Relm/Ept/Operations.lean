import Relm.Ept.Invariant

/-! One specification lemma for each EPT operation, for calls that do not meet a 2 MiB leaf where they
expect a page table. -/
namespace Relm.Ept

namespace EptStats

/-- One 4 KiB page more. -/
def add4kb (st : EptStats) : EptStats :=
  { st with pages4kb := st.pages4kb + 1, totalMapped := st.totalMapped + eptPageSize4kb }

/-- One 4 KiB page less. -/
def sub4kb (st : EptStats) : EptStats :=
  { st with pages4kb := st.pages4kb - 1, totalMapped := st.totalMapped - eptPageSize4kb }

/-- One 2 MiB page more. -/
def add2mb (st : EptStats) : EptStats :=
  { st with pages2mb := st.pages2mb + 1, totalMapped := st.totalMapped + eptPageSize2mb }

end EptStats

namespace EptState

variable {s t u : EptState} {gpa hpa flags : U64}

/-- The effect of an operation: the leaves there are afterwards, and the counters. -/
structure Leaves (s s' : EptState) (pte pde : U64 → Option U64) (stats : EptStats) : Prop extends Extends s s' where
  pte : ∀ a, s'.pte a = pte a
  pde : ∀ a, s'.pde a = pde a
  stats : s'.ctx.stats = stats

/-- No leaf and no counter changed. -/
abbrev Same (s s' : EptState) : Prop := Leaves s s' s.pte s.pde s.ctx.stats

theorem Same.refl (sh : Shape s) : Same s s := ⟨.refl sh, fun _ => rfl, fun _ => rfl, rfl⟩

theorem Grows.same (h : Grows s t) : Same s t := ⟨h.toExtends, h.pte, h.pde, h.stats⟩

/-- The 4 KiB leaves once a page's own has been replaced. -/
def withPte (s : EptState) (gpa : U64) (e : Option U64) (a : U64) : Option U64 :=
  if pageOf a = pageOf gpa then e else s.pte a

/-- The 2 MiB leaves once a block's own has been replaced. -/
def withPde (s : EptState) (gpa : U64) (e : Option U64) (a : U64) : Option U64 :=
  if blockOf a = blockOf gpa then e else s.pde a

private theorem count4kb_eq (t : EptState) (old : U64) :
    t.count4kb old = { t with ctx.stats := bif present old then t.ctx.stats else t.ctx.stats.add4kb } := by
  unfold count4kb
  cases present old <;> rfl

private theorem count2mb_eq (t : EptState) (old : U64) :
    t.count2mb old = { t with ctx.stats := bif present old then t.ctx.stats else t.ctx.stats.add2mb } := by
  unfold count2mb
  cases present old <;> rfl

private theorem leaf_isSome {p : List (Fin 512)} {g : U64} (hp : t.walk p = some g) (j : Fin 512) :
    (t.leaf p j).isSome = present (t.host.mem g j) := by
  have hw : Lib.TableTree.walk tableOf t.host.mem t.ctx.pml4 p = some g := hp
  rw [leaf, Lib.TableTree.leafAt, hw, Option.bind_some]
  cases present (t.host.mem g j) <;> rfl

/-- Storing an entry in the page table of an address, after tables have been created. -/
private theorem store_pte {pt e : U64} (gr : Grows s t) (hp : t.walk (gpaPath gpa) = some pt) (st : EptStats) :
    Leaves s { t.setEntry pt (eptPtIndex gpa) e with ctx.stats := st }
      (s.withPte gpa (if present e then some e else none)) s.pde st ∧
    ∀ q, q.length ≤ 3 → (t.setEntry pt (eptPtIndex gpa) e).walk q = t.walk q := by
  have hs : LeafSlot t (gpaPath gpa) pt (eptPtIndex gpa) e := .inl rfl
  refine ⟨⟨(gr.toExtends.trans (setEntry_extends gr.shape hp hs)).withStats st, ?_, ?_, rfl⟩, setEntry_walk gr.shape hp hs⟩
  · intro a
    refine (setEntry_leaf gr.shape hp hs (gpaPath a) (eptPtIndex a) rfl).trans ?_
    simp only [gpaPath_eq_iff, withPte]
    rw [gr.leaf _ _ rfl]
    rfl
  · intro a
    refine (setEntry_huge gr.shape hp hs (gpaPath2 a) (eptPdIndex a) le_rfl).trans ?_
    rw [if_neg fun hc => by simpa [gpaPath2, gpaPath] using congrArg List.length hc.1]
    exact gr.pde a

/-- Storing a 2 MiB leaf in the PD slot of an address, after tables have been created. -/
private theorem store_pde {pd e : U64} (gr : Grows s t) (hp : t.walk (gpaPath2 gpa) = some pd)
    (hn : tableOf (t.host.mem pd (eptPdIndex gpa)) = none) (he : (present e && isPs e) = true) (st : EptStats) :
    Leaves s { t.setEntry pd (eptPdIndex gpa) e with ctx.stats := st } s.pte (s.withPde gpa (some e)) st ∧
    ∀ q, q.length ≤ 3 → (t.setEntry pd (eptPdIndex gpa) e).walk q = t.walk q := by
  have hte : tableOf e = none := by
    rw [Bool.and_eq_true] at he
    simp [tableOf, he.2]
  have hs : LeafSlot t (gpaPath2 gpa) pd (eptPdIndex gpa) e := .inr ⟨rfl, hte, hn⟩
  refine ⟨⟨(gr.toExtends.trans (setEntry_extends gr.shape hp hs)).withStats st, ?_, ?_, rfl⟩, setEntry_walk gr.shape hp hs⟩
  · intro a
    refine (setEntry_leaf gr.shape hp hs (gpaPath a) (eptPtIndex a) rfl).trans ?_
    rw [if_neg fun hc => by simpa [gpaPath2, gpaPath] using congrArg List.length hc.1]
    exact gr.pte a
  · intro a
    refine (setEntry_huge gr.shape hp hs (gpaPath2 a) (eptPdIndex a) le_rfl).trans ?_
    simp only [gpaPath2_eq_iff, withPde, he, if_true]
    rw [gr.huge _ _ le_rfl]
    rfl

/-- How a mapping call ends: rejected arguments, a failed table allocation, or the leaf stored. -/
inductive Outcome (s : EptState) (r : EptResult Unit) (valid : Bool) (done : EptState → Prop) : Prop
  | invalid (hv : valid = false) (hr : r = ⟨.error .einval, s, []⟩)
  | refused (hv : valid = true) (hret : r.ret = .error .enomem) (hoom : r.next.host.oom = true) (same : Same s r.next)
      (htab : ∀ f ∈ r.touched, f ∈ r.next.ctx.tables)
  | done (hv : valid = true) (hret : r.ret = .ok ()) (hd : done r.next) (htab : ∀ f ∈ r.touched, f ∈ r.next.ctx.tables)

/-- What both mapping functions do first: check the arguments and get the tables down to the PD. -/
private def viaPd (s : EptState) (gpa : U64) (valid : Bool) (k : U64 → U64 → EptState → EptResult Unit) :
    EptResult Unit :=
  if !valid then ⟨.error .einval, s, []⟩
  else
    match relmEptGetOrCreateTable s s.ctx.pml4 (eptPml4Index gpa) with
    | (none, t) => ⟨.error .enomem, t, [s.ctx.pml4]⟩
    | (some pdpt, t) =>
      match relmEptGetOrCreateTable t pdpt (eptPdptIndex gpa) with
      | (none, t) => ⟨.error .enomem, t, [s.ctx.pml4, pdpt]⟩
      | (some pd, t) => k pdpt pd t

private theorem viaPd_spec (sh : Shape s) (gpa : U64) (valid : Bool) (done : EptState → Prop)
    {k : U64 → U64 → EptState → EptResult Unit}
    (hk : valid = true → ∀ pdpt pd t, Grows s t → t.walk (gpaPath2 gpa) = some pd → pdpt ∈ t.ctx.tables →
      (∀ q, q.length = 3 → t.walk q = s.walk q) → Outcome s (k pdpt pd t) true done) : Outcome s (viaPd s gpa valid k) valid done := by
  cases valid with
  | false => exact .invalid rfl rfl
  | true =>
    obtain ⟨o, s1, h1, g1, n1, w1, f1⟩ :=
      getOrCreate_spec sh (p := []) rfl (by simp) (sh.upper [] (eptPml4Index gpa) (by simp))
    cases o with
    | none =>
      have hv : viaPd s gpa true k = ⟨.error .enomem, s1, [s.ctx.pml4]⟩ := by simp [viaPd, h1]
      rw [hv]
      refine .refused rfl rfl (n1 rfl) g1.same ?_
      simpa using g1.mem_tables sh.root_mem
    | some pdpt =>
      have hp := w1 pdpt rfl
      have hm : pdpt ∈ s1.ctx.tables := g1.shape.walk_mem (by simp) hp
      obtain ⟨o', t, h2, g2, n2, w2, f2⟩ :=
        getOrCreate_spec g1.shape hp (by simp) (g1.shape.upper _ (eptPdptIndex gpa) (by simp))
      cases o' with
      | none =>
        have hv : viaPd s gpa true k = ⟨.error .enomem, t, [s.ctx.pml4, pdpt]⟩ := by simp [viaPd, h1, h2]
        rw [hv]
        refine .refused rfl rfl (n2 rfl) (g1.trans g2).same ?_
        simpa using ⟨(g1.trans g2).mem_tables sh.root_mem, g2.mem_tables hm⟩
      | some pd =>
        have hv : viaPd s gpa true k = k pdpt pd t := by simp [viaPd, h1, h2]
        rw [hv]
        refine hk rfl pdpt pd t (g1.trans g2) (w2 pd rfl) (g2.mem_tables hm) fun q hq => ?_
        rw [f2 q hq.le (fun hc => by simp [hc] at hq), f1 q hq.le (fun hc => by simp [hc] at hq)]

/-- Mapping a page stores its leaf and creates no table but on its own path. -/
theorem mapPage_spec (gpa hpa flags : U64) (sh : Shape s) (hh : s.pde gpa = none) :
    Outcome s (relmEptMapPage s gpa hpa flags) (eptIs4kbAligned gpa && eptIs4kbAligned hpa && present flags) fun s' =>
      Leaves s s' (s.withPte gpa (some (leafEntry hpa flags))) s.pde
        (bif (s.pte gpa).isSome then s.ctx.stats else s.ctx.stats.add4kb) ∧
      ∀ q, q.length = 3 → q ≠ gpaPath gpa → s'.walk q = s.walk q := by
  have hvia : relmEptMapPage s gpa hpa flags =
      viaPd s gpa (eptIs4kbAligned gpa && eptIs4kbAligned hpa && present flags) fun pdpt pd t =>
        match relmEptGetOrCreateTable t pd (eptPdIndex gpa) with
        | (none, t) => ⟨.error .enomem, t, [s.ctx.pml4, pdpt, pd]⟩
        | (some pt, t) =>
          ⟨.ok (), (t.count4kb (t.host.mem pt (eptPtIndex gpa))).setEntry pt (eptPtIndex gpa) (leafEntry hpa flags),
            [s.ctx.pml4, pdpt, pd, pt]⟩ := by
    unfold relmEptMapPage viaPd
    cases eptIs4kbAligned gpa <;> cases eptIs4kbAligned hpa <;> cases present flags <;> rfl
  rw [hvia]
  refine viaPd_spec sh gpa _ _ ?_
  intro hv pdpt pd t gr hpd hm hw
  have hf : present flags = true := by
    rw [Bool.and_eq_true] at hv
    exact hv.2
  have hpdm : pd ∈ t.ctx.tables := gr.shape.walk_mem (by simp [gpaPath2]) hpd
  have hnone : t.huge (gpaPath2 gpa) (eptPdIndex gpa) = none := (gr.pde gpa).trans hh
  obtain ⟨o, t', h3, g3, n3, w3, f3⟩ := getOrCreate_spec gr.shape hpd (by simp [gpaPath2]) hnone
  have g := gr.trans g3
  rw [h3]
  cases o with
  | none =>
    refine .refused rfl rfl (n3 rfl) g.same ?_
    simpa using ⟨g.mem_tables sh.root_mem, g3.mem_tables hm, g3.mem_tables hpdm⟩
  | some pt =>
    have hpt : t'.walk (gpaPath gpa) = some pt := w3 pt rfl
    have hsome : (s.pte gpa).isSome = present (t'.host.mem pt (eptPtIndex gpa)) := by
      rw [← g.pte gpa]
      exact leaf_isSome hpt _
    obtain ⟨hst, hsw⟩ := store_pte (e := leafEntry hpa flags) g hpt
      (bif (s.pte gpa).isSome then s.ctx.stats else s.ctx.stats.add4kb)
    rw [present_leafEntry, if_pos hf] at hst
    simp only [count4kb_eq, ← hsome, g.stats]
    refine .done rfl rfl ⟨hst, fun q hq hne => ?_⟩ ?_
    · refine (hsw q hq.le).trans ?_
      rw [f3 q hq.le hne, hw q hq]
    simpa using ⟨g.mem_tables sh.root_mem, g3.mem_tables hm, g3.mem_tables hpdm, g.shape.walk_mem (by simp [gpaPath]) hpt⟩

/-- The third table that mapping a page uses is the page directory of its address. -/
theorem mapPage_pd (gpa hpa flags : U64) (sh : Shape s) (hh : s.pde gpa = none) {pd : U64}
    (hpd : (relmEptMapPage s gpa hpa flags).touched[2]? = some pd) :
    (relmEptMapPage s gpa hpa flags).next.walk (gpaPath2 gpa) = some pd := by
  unfold relmEptMapPage at hpd ⊢
  by_cases h4 : (!eptIs4kbAligned gpa || !eptIs4kbAligned hpa) = true
  · rw [if_pos h4] at hpd
    cases hpd
  by_cases hf : (!present flags) = true
  · rw [if_neg h4, if_pos hf] at hpd
    cases hpd
  rw [if_neg h4, if_neg hf] at hpd ⊢
  obtain ⟨o1, s1, h1, g1, -, w1, -⟩ :=
    getOrCreate_spec sh (p := []) rfl (by simp) (sh.upper [] (eptPml4Index gpa) (by simp))
  simp only [h1] at hpd ⊢
  cases o1 with
  | none => cases hpd
  | some pdpt =>
    obtain ⟨o2, s2, h2, g2, -, w2, -⟩ :=
      getOrCreate_spec g1.shape (w1 pdpt rfl) (by simp) (g1.shape.upper _ (eptPdptIndex gpa) (by simp))
    simp only [h2] at hpd ⊢
    cases o2 with
    | none => cases hpd
    | some pd' =>
      have hw : s2.walk (gpaPath2 gpa) = some pd' := w2 pd' rfl
      obtain ⟨o3, s3, h3, g3, -, w3, f3⟩ := getOrCreate_spec g2.shape hw (by simp [gpaPath2]) (((g1.trans g2).pde gpa).trans hh)
      have hw3 : s3.walk (gpaPath2 gpa) = some pd' := g3.walks _ _ (by simp [gpaPath2]) hw
      simp only [h3] at hpd ⊢
      cases o3 with
      | none =>
        cases hpd
        exact hw3
      | some pt =>
        cases hpd
        have hpt : s3.walk (gpaPath gpa) = some pt := w3 pt rfl
        obtain ⟨-, hsw⟩ := store_pte (e := leafEntry hpa flags) ((g1.trans g2).trans g3) hpt s.ctx.stats
        simp only [count4kb_eq]
        exact (hsw _ (by simp [gpaPath2])).trans hw3

/-- Mapping a page adds no entry of a kind that the links of new tables are not of. -/
theorem mapPage_without {kind : U64 → Bool} (h0 : kind 0#64 = false) (ht : ∀ pa, kind (tableEntry pa) = false)
    (hk : ∀ e, kind e = true → present e = true) (gpa hpa flags : U64) (sh : Shape s) (hh : s.pde gpa = none)
    (hw : Without kind s) : Without kind (relmEptMapPage s gpa hpa flags).next := by
  unfold relmEptMapPage
  split
  · exact hw
  split
  · exact hw
  have w1 := getOrCreate_without (j := eptPml4Index gpa) h0 ht hk sh (p := []) rfl (by simp) hw
  obtain ⟨o, s1, h1, g1, -, t1, -⟩ := getOrCreate_spec sh (p := []) rfl (by simp) (sh.upper [] (eptPml4Index gpa) (by simp))
  rw [h1] at w1
  simp only [h1]
  cases o with
  | none => exact w1
  | some pdpt =>
    have hpdpt := t1 pdpt rfl
    have w2 := getOrCreate_without (j := eptPdptIndex gpa) h0 ht hk g1.shape hpdpt (by simp) w1
    obtain ⟨o, s2, h2, g2, -, t2, -⟩ :=
      getOrCreate_spec g1.shape hpdpt (by simp) (g1.shape.upper _ (eptPdptIndex gpa) (by simp))
    rw [h2] at w2
    simp only [h2]
    cases o with
    | none => exact w2
    | some pd =>
      have hpd := t2 pd rfl
      have hnone : s2.huge (gpaPath2 gpa) (eptPdIndex gpa) = none := ((g1.trans g2).pde gpa).trans hh
      have w3 := getOrCreate_without (j := eptPdIndex gpa) h0 ht hk g2.shape hpd (by simp) w2
      obtain ⟨o, s3, h3, g3, -, t3, -⟩ := getOrCreate_spec g2.shape hpd (by simp) hnone
      rw [h3] at w3
      simp only [h3]
      cases o with
      | none => exact w3
      | some pt =>
        have hwc : Without kind (s3.count4kb (s3.host.mem pt (eptPtIndex gpa))) := by
          rw [count4kb_eq]
          exact w3
        have hshape : Shape (s3.count4kb (s3.host.mem pt (eptPtIndex gpa))) := by
          rw [count4kb_eq]
          exact (g3.toExtends.withStats _).shape
        refine setEntry_without hshape ?_ (show (gpaPath gpa).length = 3 from rfl) hwc
        rw [count4kb_eq]
        exact t3 pt rfl

/-- Mapping a block stores its leaf and creates no page table. -/
theorem mapHugePage_spec (gpa hpa flags : U64) (sh : Shape s) (hh : s.walk (gpaPath gpa) = none) :
    Outcome s (relmEptMapHugePage s gpa hpa flags) (eptIs2mbAligned gpa && eptIs2mbAligned hpa && present flags) fun s' =>
      Leaves s s' s.pte (s.withPde gpa (some (hugeEntry hpa flags)))
        (bif (s.pde gpa).isSome then s.ctx.stats else s.ctx.stats.add2mb) ∧
      ∀ q, q.length = 3 → s'.walk q = s.walk q := by
  have hvia : relmEptMapHugePage s gpa hpa flags =
      viaPd s gpa (eptIs2mbAligned gpa && eptIs2mbAligned hpa && present flags) fun pdpt pd t =>
        ⟨.ok (), (t.count2mb (t.host.mem pd (eptPdIndex gpa))).setEntry pd (eptPdIndex gpa) (hugeEntry hpa flags),
          [s.ctx.pml4, pdpt, pd]⟩ := by
    unfold relmEptMapHugePage viaPd
    cases eptIs2mbAligned gpa <;> cases eptIs2mbAligned hpa <;> cases present flags <;> rfl
  rw [hvia]
  refine viaPd_spec sh gpa _ _ ?_
  intro hv pdpt pd t gr hpd hm hw
  have hf : present flags = true := by
    rw [Bool.and_eq_true] at hv
    exact hv.2
  have hpdm : pd ∈ t.ctx.tables := gr.shape.walk_mem (by simp [gpaPath2]) hpd
  have hwpd : Lib.TableTree.walk tableOf t.host.mem t.ctx.pml4 (gpaPath2 gpa) = some pd := hpd
  have hn : tableOf (t.host.mem pd (eptPdIndex gpa)) = none := by
    have hc : t.walk (gpaPath2 gpa ++ [eptPdIndex gpa]) = none := (hw (gpaPath gpa) rfl).trans hh
    rw [walk, Lib.TableTree.walk_concat, hwpd] at hc
    exact hc
  have hsome : (s.pde gpa).isSome = present (t.host.mem pd (eptPdIndex gpa)) := by
    rw [← gr.pde gpa, pde, huge, Lib.TableTree.leafAt, hwpd, Option.bind_some]
    simp only [tableOf] at hn
    cases hp : present (t.host.mem pd (eptPdIndex gpa)) <;> simp_all
  have he : (present (hugeEntry hpa flags) && isPs (hugeEntry hpa flags)) = true := by
    rw [present_hugeEntry hpa flags hf, isPs_hugeEntry]
    rfl
  obtain ⟨hst, hsw⟩ := store_pde gr hpd hn he (bif (s.pde gpa).isSome then s.ctx.stats else s.ctx.stats.add2mb)
  simp only [count2mb_eq, ← hsome, gr.stats]
  refine .done rfl rfl ⟨hst, fun q hq => (hsw q hq.le).trans (hw q hq)⟩ ?_
  simpa using ⟨gr.mem_tables sh.root_mem, hm, hpdm⟩

private theorem getOrCreate_existing {p : List (Fin 512)} {g u : U64} {j : Fin 512} (hp : s.walk p = some g)
    (hw : s.walk (p ++ [j]) = some u) : relmEptGetOrCreateTable s g j = (some u, s) := by
  have hp' : Lib.TableTree.walk tableOf s.host.mem s.ctx.pml4 p = some g := hp
  rw [walk, Lib.TableTree.walk_concat, hp', Option.bind_some, tableOf] at hw
  unfold relmEptGetOrCreateTable
  cases ha : present (s.host.mem g j) <;> cases hs : isPs (s.host.mem g j) <;> simp_all

private theorem walk_prefixes {i j k : Fin 512} {f : U64} (h : s.walk [i, j, k] = some f) :
    ∃ pdpt pd, s.walk [i] = some pdpt ∧ s.walk [i, j] = some pd := by
  have h1 : s.walk [i] ≠ none := fun hn => Option.some_ne_none f (h.symm.trans (walk_append_none hn [j, k]))
  have h2 : s.walk [i, j] ≠ none := fun hn => Option.some_ne_none f (h.symm.trans (walk_append_none hn [k]))
  obtain ⟨pdpt, hpdpt⟩ := Option.ne_none_iff_exists'.mp h1
  obtain ⟨pd, hpd⟩ := Option.ne_none_iff_exists'.mp h2
  exact ⟨pdpt, pd, hpdpt, hpd⟩

/-- Where the page table exists already, mapping a page allocates nothing. -/
theorem mapPage_existing {pt : U64} (hw : s.walk (gpaPath gpa) = some pt)
    (hv : (eptIs4kbAligned gpa && eptIs4kbAligned hpa && present flags) = true) :
    ∃ touched, relmEptMapPage s gpa hpa flags = ⟨.ok (),
      (s.count4kb (s.host.mem pt (eptPtIndex gpa))).setEntry pt (eptPtIndex gpa) (leafEntry hpa flags), touched⟩ := by
  obtain ⟨pdpt, pd, h1, h2⟩ := walk_prefixes hw
  have e1 := getOrCreate_existing (p := []) rfl h1
  have e2 := getOrCreate_existing h1 h2
  have e3 := getOrCreate_existing h2 hw
  simp only [Bool.and_eq_true] at hv
  exact ⟨_, by simp only [relmEptMapPage, hv.1.1, hv.1.2, hv.2, e1, e2, e3]; rfl⟩

/-- The walk reaches the page table of the address, or reports that there is none. -/
private theorem eptWalk_spec {α : Type} (sh : Shape s) (hh : s.pde gpa = none) (k : U64 → EptResult α) :
    ∃ l : List U64, (∀ f ∈ l, f ∈ s.ctx.tables) ∧
      relmEptWalk s gpa k = match s.walk (gpaPath gpa) with
        | none => ⟨.error .enoent, s, l⟩
        | some pt => { k pt with touched := l ++ (k pt).touched } := by
  have hr := sh.root_mem
  have h1 := walk_slot (p := []) (j := eptPml4Index gpa) (s := s) rfl (sh.upper _ _ (by simp))
  by_cases a1 : present (s.host.mem s.ctx.pml4 (eptPml4Index gpa)) = true
  swap
  · rw [if_neg a1] at h1
    have hn : s.walk (gpaPath gpa) = none := walk_append_none h1 [_, _]
    exact ⟨[s.ctx.pml4], by simpa using hr, by simp [relmEptWalk, a1, hn]⟩
  rw [if_pos a1] at h1
  have m1 := sh.walk_mem (by simp) h1
  have h2 := walk_slot (j := eptPdptIndex gpa) h1 (sh.upper _ _ (by simp))
  generalize hpdpt : entryAddr (s.host.mem s.ctx.pml4 (eptPml4Index gpa)) = pdpt at h1 h2 m1
  by_cases a2 : present (s.host.mem pdpt (eptPdptIndex gpa)) = true
  swap
  · rw [if_neg a2] at h2
    have hn : s.walk (gpaPath gpa) = none := walk_append_none h2 [_]
    exact ⟨[s.ctx.pml4, pdpt], by simpa using ⟨hr, m1⟩, by simp [relmEptWalk, a1, hpdpt, a2, hn]⟩
  rw [if_pos a2] at h2
  have m2 := sh.walk_mem (by simp) h2
  have h3 := walk_slot h2 hh
  generalize hpd : entryAddr (s.host.mem pdpt (eptPdptIndex gpa)) = pd at h2 h3 m2
  have ht : ∀ f ∈ [s.ctx.pml4, pdpt, pd], f ∈ s.ctx.tables := by simpa using ⟨hr, m1, m2⟩
  have h3' : s.walk (gpaPath gpa) = if present (s.host.mem pd (eptPdIndex gpa)) then
      some (entryAddr (s.host.mem pd (eptPdIndex gpa))) else none := h3
  refine ⟨[s.ctx.pml4, pdpt, pd], ht, ?_⟩
  by_cases a3 : present (s.host.mem pd (eptPdIndex gpa)) = true
  · rw [h3', if_pos a3]
    simp [relmEptWalk, a1, hpdpt, a2, hpd, a3]
  · rw [h3', if_neg a3]
    simp [relmEptWalk, a1, hpdpt, a2, hpd, a3]

theorem pte_eq {pt : U64} (hp : s.walk (gpaPath gpa) = some pt) :
    s.pte gpa = if present (s.host.mem pt (eptPtIndex gpa)) then some (s.host.mem pt (eptPtIndex gpa)) else none := by
  have hw : Lib.TableTree.walk tableOf s.host.mem s.ctx.pml4 (gpaPath gpa) = some pt := hp
  rw [pte, leaf, Lib.TableTree.leafAt, hw, Option.bind_some]

theorem pte_none (hp : s.walk (gpaPath gpa) = none) : s.pte gpa = none := by
  have hw : Lib.TableTree.walk tableOf s.host.mem s.ctx.pml4 (gpaPath gpa) = none := hp
  rw [pte, leaf, Lib.TableTree.leafAt, hw, Option.bind_none]

theorem getMapping_spec (sh : Shape s) (hh : s.pde gpa = none) :
    (relmEptGetMapping s gpa).next = s ∧ (∀ f ∈ (relmEptGetMapping s gpa).touched, f ∈ s.ctx.tables) ∧
      (relmEptGetMapping s gpa).ret = match s.pte gpa with
        | none => .error .enoent
        | some e => .ok (entryAddr e ||| eptPageOffset gpa) := by
  unfold relmEptGetMapping
  obtain ⟨l, hl, hw⟩ := eptWalk_spec sh hh fun pt =>
    let leaf := s.host.mem pt (eptPtIndex gpa)
    if !present leaf then ⟨.error .enoent, s, [pt]⟩ else ⟨.ok (entryAddr leaf ||| eptPageOffset gpa), s, [pt]⟩
  rw [hw]
  cases hp : s.walk (gpaPath gpa) with
  | none => exact ⟨rfl, hl, by rw [pte_none hp]⟩
  | some pt =>
    have hm : ∀ f ∈ l ++ [pt], f ∈ s.ctx.tables := by
      simpa [or_imp, forall_and] using ⟨hl, sh.walk_mem (by simp [gpaPath]) hp⟩
    rw [pte_eq hp]
    by_cases ha : present (s.host.mem pt (eptPtIndex gpa)) = true
    · simpa [ha] using hm
    · simpa [ha] using hm

theorem unmapPage_spec (sh : Shape s) (hh : s.pde gpa = none) :
    (∀ f ∈ (relmEptUnmapPage s gpa).touched, f ∈ s.ctx.tables) ∧
      match s.pte gpa with
      | none => (relmEptUnmapPage s gpa).ret = .error .enoent ∧ (relmEptUnmapPage s gpa).next = s
      | some _ => (relmEptUnmapPage s gpa).ret = .ok () ∧
          Leaves s (relmEptUnmapPage s gpa).next (s.withPte gpa none) s.pde s.ctx.stats.sub4kb := by
  unfold relmEptUnmapPage
  obtain ⟨l, hl, hw⟩ := eptWalk_spec sh hh fun pt =>
    if !present (s.host.mem pt (eptPtIndex gpa)) then (⟨.error .enoent, s, [pt]⟩ : EptResult Unit)
    else ⟨.ok (), (s.setEntry pt (eptPtIndex gpa) 0).uncount4kb, [pt]⟩
  rw [hw]
  cases hp : s.walk (gpaPath gpa) with
  | none =>
    rw [pte_none hp]
    exact ⟨hl, rfl, rfl⟩
  | some pt =>
    have hm : ∀ f ∈ l ++ [pt], f ∈ s.ctx.tables := by
      simpa [or_imp, forall_and] using ⟨hl, sh.walk_mem (by simp [gpaPath]) hp⟩
    rw [pte_eq hp]
    by_cases ha : present (s.host.mem pt (eptPtIndex gpa)) = true
    · simp only [ha, if_true, Bool.not_true, Bool.false_eq_true, if_false]
      exact ⟨hm, trivial, (store_pte (e := 0#64) (Grows.refl sh) hp s.ctx.stats.sub4kb).1⟩
    · simpa [ha] using hm

/-- The third table that a walk uses is the page directory of the address. -/
theorem eptWalk_pd {α : Type} {k : U64 → EptResult α} {pd : U64} (sh : Shape s)
    (hpd : (relmEptWalk s gpa k).touched[2]? = some pd) : s.walk (gpaPath2 gpa) = some pd := by
  have h1 := walk_slot (p := []) (j := eptPml4Index gpa) (s := s) rfl (sh.upper _ _ (by simp))
  unfold relmEptWalk at hpd
  by_cases a1 : present (s.host.mem s.ctx.pml4 (eptPml4Index gpa)) = true
  swap
  · simp [a1] at hpd
  rw [if_pos a1] at h1
  have h2 := walk_slot (j := eptPdptIndex gpa) h1 (sh.upper _ _ (by simp))
  by_cases a2 : present (s.host.mem (entryAddr (s.host.mem s.ctx.pml4 (eptPml4Index gpa))) (eptPdptIndex gpa)) = true
  swap
  · simp [a1, a2] at hpd
  rw [if_pos a2] at h2
  refine h2.trans ?_
  by_cases a3 : present (s.host.mem (entryAddr (s.host.mem (entryAddr (s.host.mem s.ctx.pml4 (eptPml4Index gpa)))
      (eptPdptIndex gpa))) (eptPdIndex gpa)) = true
  · simpa [a1, a2, a3] using hpd
  · simpa [a1, a2, a3] using hpd

/-- Unmapping touches no entry above the last level. -/
theorem unmapPage_without {kind : U64 → Bool} (gpa : U64) (sh : Shape s) (hh : s.pde gpa = none) (hw : Without kind s) :
    Without kind (relmEptUnmapPage s gpa).next := by
  unfold relmEptUnmapPage
  obtain ⟨l, -, hwalk⟩ := eptWalk_spec sh hh fun pt =>
    if !present (s.host.mem pt (eptPtIndex gpa)) then (⟨.error .enoent, s, [pt]⟩ : EptResult Unit)
    else ⟨.ok (), (s.setEntry pt (eptPtIndex gpa) 0).uncount4kb, [pt]⟩
  rw [hwalk]
  cases hp : s.walk (gpaPath gpa) with
  | none => exact hw
  | some pt =>
    by_cases ha : present (s.host.mem pt (eptPtIndex gpa)) = true
    · simp only [ha, Bool.not_true, Bool.false_eq_true, if_false]
      exact setEntry_without (e := 0#64) sh hp rfl hw
    · simpa [ha] using hw

/-- The context just created: an empty tree. -/
structure Empty (s : EptState) : Prop where
  shape : Shape s
  pte : ∀ a, s.pte a = none
  pde : ∀ a, s.pde a = none
  walks : ∀ i p, s.walk (i :: p) = none
  stats : s.ctx.stats = {}

private theorem walk_clear (hz : ∀ i, s.host.mem s.ctx.pml4 i = 0#64) (i : Fin 512) (p : List (Fin 512)) :
    s.walk (i :: p) = none := by simp [walk, Lib.TableTree.walk, hz]

theorem empty_of_clear (hz : ∀ i, s.host.mem s.ctx.pml4 i = 0#64) (ht : s.ctx.tables = [s.ctx.pml4])
    (hl : s.ctx.pml4 ∈ s.host.live) (hs : s.ctx.stats = {}) : Empty s := by
  have hnone : ∀ i p, s.walk (i :: p) = none := walk_clear hz
  have hleaf : ∀ isLeaf i p j, Lib.TableTree.leafAt tableOf isLeaf s.host.mem s.ctx.pml4 (i :: p) j = none := by
    intro isLeaf i p j
    have hw : Lib.TableTree.walk tableOf s.host.mem s.ctx.pml4 (i :: p) = none := hnone i p
    rw [Lib.TableTree.leafAt, hw, Option.bind_none]
  have hnil : ∀ p f, s.walk p = some f → p = [] := by
    intro p f hp
    cases p with
    | nil => rfl
    | cons i p => rw [hnone] at hp; cases hp
  refine ⟨⟨?_, ?_, by simp [ht], by simpa [ht] using hl, ?_, ?_⟩, fun a => hleaf present _ _ _,
    fun a => hleaf (fun e => present e && isPs e) _ _ _, hnone, hs⟩
  · intro p q f _ _ hp hq
    rw [hnil p f hp, hnil q f hq]
  · intro f
    rw [ht, List.mem_singleton]
    constructor
    · rintro rfl
      exact ⟨[], by simp, rfl⟩
    · rintro ⟨p, _, hp⟩
      obtain rfl := hnil p f hp
      exact (Option.some.inj hp).symm
  · intro p i _
    cases p with
    | nil => simp [huge, Lib.TableTree.leafAt, hz]
    | cons j p => exact hleaf _ _ _ _
  · intro p i _
    cases p with
    | nil => simp [weak, Lib.TableTree.leafAt, hz]
    | cons j p => exact hleaf (fun e => (tableOf e).isSome && e &&& eptRwx != eptRwx) _ _ _

theorem contextCreate_spec {h h' : Host} {ctx : EptContext} (hc : relmEptContextCreate h = (.ok ctx, h')) :
    Empty ⟨h', ctx⟩ ∧ h.Allocated { h' with slab := h.slab } [ctx.pml4] ∧ h'.slab = ctx.obj :: h.slab := by
  unfold relmEptContextCreate at hc
  rcases h.kzalloc_cases with hk | hk
  · simp [hk] at hc
  simp only [hk] at hc
  rcases h.slabTake.getFreePage_cases with hr | ⟨pa, hav, hr⟩
  · simp [hr] at hc
  simp only [hr, Prod.mk.injEq, Except.ok.injEq] at hc
  obtain ⟨rfl, rfl⟩ := hc
  obtain ⟨hl, hf, hfr, hn, hm, -, hb, ho⟩ := Host.Allocated.took hav
  exact ⟨empty_of_clear (fun i => Lib.TableTree.fill_same _ _ _ _) rfl List.mem_cons_self rfl,
    ⟨hl, hf, hfr, hn, hm, rfl, hb, ho⟩, rfl⟩

end EptState
end Relm.Ept
