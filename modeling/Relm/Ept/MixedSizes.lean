import Relm.Ept.Statistics

/-! Table ownership when 4 KiB and 2 MiB mappings meet: runs that keep the two sizes apart follow only
their own tables, count their leaves, and give every table back exactly once. -/
namespace Relm.Ept
open Relm.Lib.TableTree Relm.Lib.Run
open EptState

section Destroy

variable {h : Host}

/-- Give pages back in order. -/
def freePages (h : Host) (l : List U64) : Host := l.foldl Host.freePage h

private theorem freePages_mem (l : List U64) (h : Host) : (freePages h l).mem = h.mem := by
  induction l generalizing h with
  | nil => rfl
  | cons f l ih => exact (ih _).trans (Host.freePage_mem h f)

/-- Freeing a table and all below it frees what the walk collects, children first. -/
theorem freeTable_eq (k : Nat) (h : Host) (table : U64) :
    relmEptFreeTable h table (k + 1) = freePages h (collect tableOf (List.finRange 512) h.mem k table) := by
  induction k generalizing h table with
  | zero => rfl
  | succ k ih =>
    have hloop : ∀ (is : List (Fin 512)) (h' : Host), h'.mem = h.mem →
        is.foldl (fun h i =>
          let entry := h.mem table i
          if !present entry then h else if isPs entry then h else relmEptFreeTable h (entryAddr entry) (k + 1)) h' =
        freePages h' (is.flatMap fun i =>
          ((tableOf (h.mem table i)).map (collect tableOf (List.finRange 512) h.mem k)).getD []) := by
      intro is
      induction is with
      | nil => intro h' _; rfl
      | cons i is ihi =>
        intro h' hm
        rw [List.foldl_cons, List.flatMap_cons, freePages, List.foldl_append]
        cases ht : tableOf (h.mem table i) with
        | none =>
          have hskip : (!present (h.mem table i)) = true ∨ isPs (h.mem table i) = true := by
            unfold tableOf at ht
            cases hp : present (h.mem table i) <;> cases hs : isPs (h.mem table i) <;> simp_all
          have hbody : (if !present (h'.mem table i) then h' else if isPs (h'.mem table i) then h'
              else relmEptFreeTable h' (entryAddr (h'.mem table i)) (k + 1)) = h' := by
            rw [hm]
            rcases hskip with hp | hs
            · rw [if_pos hp]
            · rw [if_pos hs, ite_self]
          simp only [hbody]
          exact ihi h' hm
        | some c =>
          obtain ⟨hp, hs, hc⟩ : present (h.mem table i) = true ∧ isPs (h.mem table i) = false ∧
              entryAddr (h.mem table i) = c := by
            unfold tableOf at ht
            cases hp : present (h.mem table i) <;> cases hs : isPs (h.mem table i) <;> simp_all
          have hbody : (if !present (h'.mem table i) then h' else if isPs (h'.mem table i) then h'
              else relmEptFreeTable h' (entryAddr (h'.mem table i)) (k + 1)) =
              freePages h' (collect tableOf (List.finRange 512) h.mem k c) := by
            rw [hm, hp, hs, hc, ih, hm]
            rfl
          simp only [hbody]
          exact ihi _ ((freePages_mem _ _).trans hm)
    rw [relmEptFreeTable, hloop _ _ rfl, collect, freePages, freePages, List.foldl_append, List.foldl_cons, List.foldl_nil]

/-- Freeing distinct pages that are handed out is recorded page by page and goes wrong nowhere. -/
theorem freePages_spec (l : List U64) (h : Host) (hl : ∀ f ∈ l, f ∈ h.live) (hnd : l.Nodup) :
    (freePages h l).freed = l.reverse ++ h.freed ∧ (freePages h l).badFree = h.badFree ∧
      (freePages h l).slab = h.slab := by
  induction l generalizing h with
  | nil => exact ⟨rfl, rfl, rfl⟩
  | cons f l ih =>
    obtain ⟨hf, hnd⟩ := List.nodup_cons.mp hnd
    have hlive : f ∈ h.live := hl f List.mem_cons_self
    have hfree : h.freePage f = { h with live := h.live.erase f, freed := f :: h.freed } := by
      rw [Host.freePage, if_pos hlive]
    have hrest : ∀ g ∈ l, g ∈ (h.freePage f).live := by
      intro g hg
      rw [hfree]
      have hne : g ≠ f := fun hc => hf (hc ▸ hg)
      exact (List.mem_erase_of_ne hne).mpr (hl g (List.mem_cons_of_mem _ hg))
    obtain ⟨h1, h2, h3⟩ := ih (h.freePage f) hrest hnd
    rw [hfree] at h1 h2 h3
    refine ⟨?_, ?_, ?_⟩
    · rw [freePages, List.foldl_cons, hfree, List.reverse_cons, List.append_assoc]
      exact h1
    · rw [freePages, List.foldl_cons, hfree]
      exact h2
    · rw [freePages, List.foldl_cons, hfree]
      exact h3

/-- Destroying a context gives back exactly its tables, each once, and the context itself. -/
structure Destroyed (s : EptState) (h : Host) : Prop where
  freed : ∃ l, l.Perm s.ctx.tables ∧ h.freed = l ++ s.host.freed
  slab : h.slab = s.host.slab.erase s.ctx.obj
  badFree : h.badFree = s.host.badFree

/-- Destroying a context frees its tables, in some order, and then the context. -/
theorem contextDestroy_eq {s : EptState} (sh : Shape s) :
    ∃ l, l.Perm s.ctx.tables ∧ relmEptContextDestroy s = (freePages s.host l).kfree s.ctx.obj := by
  have hfree : relmEptFreeTable s.host s.ctx.pml4 4 = freePages s.host _ := freeTable_eq 3 s.host s.ctx.pml4
  have hmem := fun f => (mem_collect (k := 3) List.mem_finRange s.ctx.pml4 f).trans (sh.tables f).symm
  have hnd := collect_nodup List.mem_finRange (List.nodup_finRange 512) s.ctx.pml4 sh.owned
  generalize collect tableOf (List.finRange 512) s.host.mem 3 s.ctx.pml4 = l at hfree hmem hnd
  exact ⟨l, (List.perm_ext_iff_of_nodup hnd sh.nodup).mpr hmem, by rw [relmEptContextDestroy, hfree]⟩

theorem contextDestroy_spec {s : EptState} (sh : Shape s) (ho : s.ctx.obj ∈ s.host.slab) :
    Destroyed s (relmEptContextDestroy s) := by
  obtain ⟨l, hperm, hdestroy⟩ := contextDestroy_eq sh
  obtain ⟨hf, hb, hs⟩ :=
    freePages_spec l s.host (fun f hf => sh.live f (hperm.mem_iff.mp hf)) (hperm.nodup_iff.mpr sh.nodup)
  have ho' : s.ctx.obj ∈ (freePages s.host l).slab := hs ▸ ho
  rw [hdestroy, Host.kfree, if_pos ho']
  exact ⟨⟨l.reverse, (List.reverse_perm l).trans hperm, hf⟩, congrArg (·.erase s.ctx.obj) hs, hb⟩

end Destroy

/-- The calls of a run. -/
inductive MixedCall
  | mapPage (gpa hpa flags : U64)
  | mapHugePage (gpa hpa flags : U64)
  | unmapPage (gpa : U64)
  | getMapping (gpa : U64)

/-- What a call did: the frames it used as tables, the tables of the context on return, and the PD entry that led it to
a page table. -/
structure MixedAnswer where
  touched : List U64
  owned : List U64
  pdEntry : Option U64

/-- The PD entry behind which a call has used a fourth table; a call that gets there leaves the entry as it found or
made it. -/
def pdEntryOf {α : Type} (gpa : U64) (r : EptResult α) : Option U64 :=
  if r.touched.length = 4 then r.touched[2]?.map fun pd => r.next.host.mem pd (eptPdIndex gpa) else none

namespace MixedCall

private def answer {α : Type} (gpa : U64) (r : EptResult α) : MixedAnswer × EptState :=
  (⟨r.touched, r.next.ctx.tables, pdEntryOf gpa r⟩, r.next)

def exec (s : EptState) : MixedCall → MixedAnswer × EptState
  | mapPage gpa hpa flags => answer gpa (relmEptMapPage s gpa hpa flags)
  | mapHugePage gpa hpa flags => answer gpa (relmEptMapHugePage s gpa hpa flags)
  | unmapPage gpa => answer gpa (relmEptUnmapPage s gpa)
  | getMapping gpa => answer gpa (relmEptGetMapping s gpa)

/-- The two sizes do not meet: a call on a page finds no 2 MiB leaf above it, and a call that maps a block
finds no page table in its slot. Rejected arguments meet nothing. -/
def Apart (s : EptState) : MixedCall → Prop
  | mapPage gpa hpa flags => (eptIs4kbAligned gpa && eptIs4kbAligned hpa && present flags) = true → s.pde gpa = none
  | mapHugePage gpa hpa flags =>
    (eptIs2mbAligned gpa && eptIs2mbAligned hpa && present flags) = true → s.walk (gpaPath gpa) = none
  | unmapPage gpa => s.pde gpa = none
  | getMapping gpa => s.pde gpa = none

instance (s : EptState) : DecidablePred (Apart s)
  | mapPage _ _ _ => inferInstanceAs (Decidable (_ = _ → _ = _))
  | mapHugePage _ _ _ => inferInstanceAs (Decidable (_ = _ → _ = _))
  | unmapPage _ => inferInstanceAs (Decidable (_ = _))
  | getMapping _ => inferInstanceAs (Decidable (_ = _))

end MixedCall

/-- What a run leaves: only owned tables were followed and no 2 MiB leaf, upper entries name owned tables, the counters
count, and destruction gives back every table once. -/
structure Intact (tr : List (MixedCall × MixedAnswer)) (s : EptState) : Prop where
  followed : ∀ x ∈ tr, ∀ f ∈ x.2.touched, f ∈ x.2.owned
  leaves : ∀ x ∈ tr, ∀ e, x.2.pdEntry = some e → (present e && isPs e) = false
  entries : ∀ p table i, p.length ≤ 2 → s.walk p = some table → present (s.host.mem table i) = true →
    isPs (s.host.mem table i) = false → entryAddr (s.host.mem table i) ∈ s.ctx.tables
  pages4kb : s.ctx.stats.pages4kb.toNat = s.leaves4kb
  pages2mb : s.ctx.stats.pages2mb.toNat = s.leaves2mb
  destroyed : Destroyed s (relmEptContextDestroy s)

/-- The invariant of runs that keep the sizes apart. -/
private structure Sound (tr : List (MixedCall × MixedAnswer)) (s : EptState) : Prop where
  shape : Shape s
  counted : Counted s
  obj : s.ctx.obj ∈ s.host.slab
  followed : ∀ x ∈ tr, ∀ f ∈ x.2.touched, f ∈ x.2.owned
  leaves : ∀ x ∈ tr, ∀ e, x.2.pdEntry = some e → (present e && isPs e) = false

section Runs

variable {tr : List (MixedCall × MixedAnswer)} {s : EptState} {gpa hpa flags : U64}

private theorem obj_extends {t : EptState} (ho : s.ctx.obj ∈ s.host.slab) (h : Extends s t) : t.ctx.obj ∈ t.host.slab := by
  obtain ⟨new, _, ha⟩ := h.alloc
  rw [h.obj, ha.slab]
  exact ho

/-- Where no 2 MiB leaf maps the address on return, none was followed. -/
private theorem pdEntryOf_table {α : Type} {r : EptResult α} (hh : r.next.pde gpa = none)
    (hw : ∀ pd, r.touched[2]? = some pd → r.next.walk (gpaPath2 gpa) = some pd) (e : U64) (he : pdEntryOf gpa r = some e) :
    (present e && isPs e) = false := by
  unfold pdEntryOf at he
  split at he
  · obtain ⟨pd, hpd, rfl⟩ := Option.map_eq_some_iff.mp he
    rw [pde, huge_eq (hw pd hpd)] at hh
    simpa using hh
  · cases he

private theorem mapHugePage_pdEntryOf (gpa hpa flags : U64) (s : EptState) :
    pdEntryOf gpa (relmEptMapHugePage s gpa hpa flags) = none := by
  have hlen : (relmEptMapHugePage s gpa hpa flags).touched.length ≠ 4 := by
    unfold relmEptMapHugePage
    split
    · simp
    split
    · simp
    dsimp only
    split
    · simp
    split <;> simp
  exact if_neg hlen

private theorem Sound.extend (h : Sound tr s) {c : MixedCall} {a : MixedAnswer} {t : EptState} (he : Extends s t)
    (hc : Counted t) (hf : ∀ f ∈ a.touched, f ∈ a.owned)
    (hl : ∀ e, a.pdEntry = some e → (present e && isPs e) = false) : Sound (tr ++ [(c, a)]) t where
  shape := he.shape
  counted := hc
  obj := obj_extends h.obj he
  followed x hx := by
    rcases List.mem_append.mp hx with hx | hx
    · exact h.followed x hx
    · obtain rfl := List.mem_singleton.mp hx
      exact hf
  leaves x hx := by
    rcases List.mem_append.mp hx with hx | hx
    · exact h.leaves x hx
    · obtain rfl := List.mem_singleton.mp hx
      exact hl

private theorem Sound.outcome (h : Sound tr s) {c : MixedCall} {r : EptResult Unit} {valid : Bool}
    {done : EptState → Prop} (ho : Outcome s r valid done) (hd : ∀ t, done t → Extends s t ∧ Counted t)
    (hl : ∀ e, pdEntryOf gpa r = some e → (present e && isPs e) = false) :
    Sound (tr ++ [(c, ⟨r.touched, r.next.ctx.tables, pdEntryOf gpa r⟩)]) r.next := by
  rcases ho with ⟨_, hr⟩ | ⟨_, _, _, hs, ht⟩ | ⟨_, _, hdone, ht⟩
  · rw [hr] at hl ⊢
    exact h.extend (.refl h.shape) h.counted (by simp) hl
  · exact h.extend hs.toExtends (h.counted.same hs) ht hl
  · exact h.extend (hd _ hdone).1 (hd _ hdone).2 ht hl

private theorem mapPage_invalid (h : ¬ (eptIs4kbAligned gpa && eptIs4kbAligned hpa && present flags) = true) :
    relmEptMapPage s gpa hpa flags = ⟨.error .einval, s, []⟩ := by
  revert h
  unfold relmEptMapPage
  cases eptIs4kbAligned gpa <;> cases eptIs4kbAligned hpa <;> cases present flags <;> simp

private theorem mapHugePage_invalid (h : ¬ (eptIs2mbAligned gpa && eptIs2mbAligned hpa && present flags) = true) :
    relmEptMapHugePage s gpa hpa flags = ⟨.error .einval, s, []⟩ := by
  revert h
  unfold relmEptMapHugePage
  cases eptIs2mbAligned gpa <;> cases eptIs2mbAligned hpa <;> cases present flags <;> simp

/-- No 2 MiB leaf appears over a page that is mapped. -/
private theorem mapPage_pde (sh : Shape s) (hh : s.pde gpa = none) : (relmEptMapPage s gpa hpa flags).next.pde gpa = none := by
  rcases mapPage_spec gpa hpa flags sh hh with ⟨_, hr⟩ | ⟨_, _, _, hs, _⟩ | ⟨_, _, ⟨hl, _⟩, _⟩
  · rw [hr]
    exact hh
  · exact (hs.pde gpa).trans hh
  · exact (hl.pde gpa).trans hh

private theorem Sound.step (h : Sound tr s) (c : MixedCall) (hc : c.Apart s) :
    Sound (tr ++ [(c, (c.exec s).1)]) (c.exec s).2 := by
  cases c with
  | mapPage gpa hpa flags =>
    by_cases hv : (eptIs4kbAligned gpa && eptIs4kbAligned hpa && present flags) = true
    · exact h.outcome (mapPage_spec _ _ _ h.shape (hc hv)) (fun t ht => ⟨ht.1.toExtends, h.counted.mapPage ht.1⟩)
        (pdEntryOf_table (mapPage_pde h.shape (hc hv)) fun pd hpd => mapPage_pd gpa hpa flags h.shape (hc hv) hpd)
    · simp only [MixedCall.exec, mapPage_invalid hv]
      exact h.extend (.refl h.shape) h.counted (fun f hf => absurd hf List.not_mem_nil) fun e he => by cases he
  | mapHugePage gpa hpa flags =>
    have hl : ∀ e, pdEntryOf gpa (relmEptMapHugePage s gpa hpa flags) = some e → (present e && isPs e) = false := fun e he => by
      rw [mapHugePage_pdEntryOf] at he
      cases he
    by_cases hv : (eptIs2mbAligned gpa && eptIs2mbAligned hpa && present flags) = true
    · exact h.outcome (mapHugePage_spec _ _ _ h.shape (hc hv))
        (fun t ht => ⟨ht.1.toExtends, h.counted.mapHugePage ht.1⟩) hl
    · simp only [MixedCall.exec, mapHugePage_invalid hv]
      exact h.extend (.refl h.shape) h.counted (fun f hf => absurd hf List.not_mem_nil) fun e he => by cases he
  | unmapPage gpa =>
    obtain ⟨ht, hu⟩ := unmapPage_spec h.shape hc
    have hwalk : ∀ pd, (relmEptUnmapPage s gpa).touched[2]? = some pd → s.walk (gpaPath2 gpa) = some pd := fun pd hpd =>
      eptWalk_pd h.shape hpd
    cases hp : s.pte gpa with
    | none =>
      rw [hp] at hu
      have hl := pdEntryOf_table (r := relmEptUnmapPage s gpa) (by rw [hu.2]; exact hc) (by rw [hu.2]; exact hwalk)
      refine h.extend ?_ ?_ ?_ hl <;> simp only [MixedCall.exec, MixedCall.answer, hu.2]
      · exact .refl h.shape
      · exact h.counted
      · exact ht
    | some e =>
      rw [hp] at hu
      have hl := pdEntryOf_table (r := relmEptUnmapPage s gpa) ((hu.2.pde gpa).trans hc) fun pd hpd =>
        hu.2.walks _ _ (by simp [gpaPath2]) (hwalk pd hpd)
      refine h.extend hu.2.toExtends (h.counted.unmapPage (by rw [hp]; rfl) hu.2) (fun f hf => ?_) hl
      exact hu.2.mem_tables (ht f hf)
  | getMapping gpa =>
    obtain ⟨hn, ht, _⟩ := getMapping_spec h.shape hc
    have hl := pdEntryOf_table (r := relmEptGetMapping s gpa) (by rw [hn]; exact hc)
      (by rw [hn]; exact fun pd hpd => eptWalk_pd h.shape hpd)
    refine h.extend ?_ ?_ ?_ hl <;> simp only [MixedCall.exec, MixedCall.answer, hn]
    · exact .refl h.shape
    · exact h.counted
    · exact ht

private theorem Sound.intact (h : Sound tr s) : Intact tr s where
  followed := h.followed
  leaves := h.leaves
  entries p table i hp hw hpr hps := by
    have hw' : walk tableOf s.host.mem s.ctx.pml4 p = some table := hw
    refine h.shape.walk_mem (p := p ++ [i]) (by simp only [List.length_append, List.length_singleton]; omega) ?_
    rw [EptState.walk, walk_concat, hw', Option.bind_some, tableOf, hpr, hps]
    rfl
  pages4kb := h.counted.pages4kb
  pages2mb := h.counted.pages2mb
  destroyed := contextDestroy_spec h.shape h.obj

end Runs

/-- Every run of mapping, unmapping and lookup calls in which no call meets the other page size keeps the
tables, the counters and their destruction exact. -/
theorem mixed_sizes_intact {h h' : Host} {ctx : EptContext} (hc : relmEptContextCreate h = (.ok ctx, h'))
    {calls : List MixedCall} (ha : Admitted MixedCall.exec (fun s c => c.Apart s) ⟨h', ctx⟩ calls) :
    Intact (run MixedCall.exec ⟨h', ctx⟩ calls).1 (run MixedCall.exec ⟨h', ctx⟩ calls).2 := by
  obtain ⟨he, -, hs⟩ := contextCreate_spec hc
  have hobj : ctx.obj ∈ h'.slab := by simp [hs]
  have hsound := run_invariant (P := Sound) (fun tr s c hs hc => hs.step c hc) ⟨he.shape, he.counted, hobj, by simp, by simp⟩ ha
  exact hsound.intact

private def mixedHost : Host :=
  Host.idle [some 0x1000#64, some 0x2000#64, some 0x3000#64, some 0x4000#64, some 0x5000#64] [true]

/-- A block, a page in the next block, a lookup and an unmapping. -/
private def apartCalls : List MixedCall :=
  [.mapHugePage 0x200000#64 0x400000#64 eptRwx, .mapPage 0x5000#64 0x9000#64 eptRwx, .getMapping 0x5000#64,
    .unmapPage 0x5000#64]

theorem mixed_sizes_intact_apart : ∃ ctx h', relmEptContextCreate mixedHost = (.ok ctx, h') ∧
    Admitted MixedCall.exec (fun s c => c.Apart s) ⟨h', ctx⟩ apartCalls ∧
      Intact (run MixedCall.exec ⟨h', ctx⟩ apartCalls).1 (run MixedCall.exec ⟨h', ctx⟩ apartCalls).2 := by
  refine ⟨_, _, rfl, by decide, ?_⟩
  exact mixed_sizes_intact (h := mixedHost) rfl (by decide)

private def emptyState : EptState where
  host := { mixedHost with
    mem := fill mixedHost.mem 0x1000#64 0#64
    live := [0x1000#64]
    answers := [some 0x2000#64, some 0x3000#64, some 0x4000#64, some 0x5000#64]
    slab := [0]
    slabNext := 1
    slabAnswers := [] }
  ctx :=
    { obj := 0, pml4 := 0x1000#64, pml4Pa := 0x1000#64, eptp := 0x101E#64, memtype := 6#64, adEnabled := false,
      stats := {}, tables := [0x1000#64] }

/-- The context after its second block has been mapped. -/
private def blockState : EptState where
  host := { emptyState.host with
    mem := setSlot (setSlot (fill (setSlot (fill emptyState.host.mem 0x2000#64 0#64) 0x1000#64 0 0x2007#64)
      0x3000#64 0#64) 0x2000#64 0 0x3007#64) 0x3000#64 1 0xFFFFFFFC00000087#64
    live := [0x3000#64, 0x2000#64, 0x1000#64]
    answers := [some 0x4000#64, some 0x5000#64] }
  ctx := { emptyState.ctx with
    stats := { pages2mb := 1, totalMapped := 0x200000#64 }
    tables := [0x3000#64, 0x2000#64, 0x1000#64] }

private def blockThenPage : List MixedCall :=
  [.mapHugePage 0x200000#64 0x400000#64 eptRwx, .mapPage 0x201000#64 0x9000#64 eptRwx]

private theorem exec_block : MixedCall.exec emptyState (.mapHugePage 0x200000#64 0x400000#64 eptRwx) =
    (⟨[0x1000#64, 0x2000#64, 0x3000#64], [0x3000#64, 0x2000#64, 0x1000#64], none⟩, blockState) := rfl

private theorem exec_page_answer : (MixedCall.exec blockState (.mapPage 0x201000#64 0x9000#64 eptRwx)).1 =
    ⟨[0x1000#64, 0x2000#64, 0x3000#64, 0xFFFFC00000000#64], [0x3000#64, 0x2000#64, 0x1000#64],
      some 0xFFFFFFFC00000087#64⟩ := rfl

/-- A page mapped inside a block uses the frame in the block's entry as a page table. -/
theorem page_inside_block_not_intact : relmEptContextCreate mixedHost = (.ok emptyState.ctx, emptyState.host) ∧
    ¬ Intact (run MixedCall.exec emptyState blockThenPage).1 (run MixedCall.exec emptyState blockThenPage).2 := by
  refine ⟨rfl, fun hi => ?_⟩
  have hf := hi.followed (.mapPage 0x201000#64 0x9000#64 eptRwx, _)
    (by simp only [blockThenPage, run, exec_block, exec_page_answer]; exact List.mem_cons_of_mem _ List.mem_cons_self)
    0xFFFFC00000000#64 (by decide)
  revert hf
  decide

end Relm.Ept
