import Relm.Host.Ledger

/-! Pages and objects that a computation owns: besides being on its account they were free before it, there is no page
twice, and memory that was handed out before has kept its contents. -/
namespace Relm.Host

/-- Over the host `h0`, exactly `pages` and `objs` are handed out besides, all of them new, and only they are written. -/
structure Owns (h0 h : Host) (pages : List U64) (objs : List Nat) : Prop where
  holds : Holds h0 h pages objs
  nodup : pages.Nodup
  fresh : ∀ f ∈ pages, f ∉ h0.live
  frame : ∀ f ∈ h0.live, h.mem f = h0.mem f

namespace Owns

variable {h0 h h' : Host} {pages pages' : List U64} {objs objs' : List Nat} {pa : U64} {obj order : Nat}

theorem start (h : Host) : Owns h h [] [] := ⟨.start h, List.nodup_nil, fun _ hf => absurd hf List.not_mem_nil, fun _ _ => rfl⟩

theorem perm (k : Owns h0 h pages objs) (hp : pages.Perm pages') : Owns h0 h pages' objs :=
  ⟨k.holds.perm hp, hp.nodup_iff.mp k.nodup, fun f hf => k.fresh f (hp.mem_iff.mpr hf), k.frame⟩

theorem permObjs (k : Owns h0 h pages objs) (hp : objs.Perm objs') : Owns h0 h pages objs' :=
  ⟨k.holds.permObjs hp, k.nodup, k.fresh, k.frame⟩

/-- Only the books and the memory matter. -/
theorem congr (k : Owns h0 h pages objs) (hl : h'.live = h.live) (hs : h'.slab = h.slab) (hb : h'.badFree = h.badFree)
    (hm : ∀ f ∈ h0.live, h'.mem f = h.mem f) : Owns h0 h' pages objs :=
  ⟨k.holds.congr hl hs hb, k.nodup, k.fresh, fun f hf => (hm f hf).trans (k.frame f hf)⟩

theorem slabTake (k : Owns h0 h pages objs) : Owns h0 h.slabTake pages (h.slabNext :: objs) :=
  ⟨k.holds.slabTake, k.nodup, k.fresh, k.frame⟩

theorem kfree (k : Owns h0 h pages (obj :: objs)) : Owns h0 (h.kfree obj) pages objs :=
  ⟨k.holds.kfree, k.nodup, k.fresh, fun f hf => by rw [kfree_mem]; exact k.frame f hf⟩

/-- What was live before is still live. -/
theorem live_of_live (k : Owns h0 h pages objs) {f : U64} (hf : f ∈ h0.live) : f ∈ h.live :=
  k.holds.live.mem_iff.mpr (List.mem_append_right _ hf)

/-- New pages that the allocator has handed out, written or not. -/
theorem allocated {l : List U64} (k : Owns h0 h pages objs) (a : Allocated h h' l) (hm : ∀ f ∉ l, h'.mem f = h.mem f) :
    Owns h0 h' (l ++ pages) objs where
  holds := k.holds.allocated a
  nodup := by
    refine List.nodup_append.mpr ⟨a.nodup, k.nodup, fun f hf g hg => ?_⟩
    rintro rfl
    exact (a.fresh f hf).2.2 (k.holds.mem_live hg)
  fresh f hf := by
    rcases List.mem_append.mp hf with hf | hf
    · exact fun hc => (a.fresh f hf).2.2 (k.live_of_live hc)
    · exact k.fresh f hf
  frame f hf := by
    rw [hm f fun hc => (a.fresh f hc).2.2 (k.live_of_live hf)]
    exact k.frame f hf

theorem refuse (k : Owns h0 h pages objs) : Owns h0 h.refuse pages objs := k.congr rfl rfl rfl fun _ _ => rfl

theorem take (k : Owns h0 h pages objs) (hav : h.available pa) : Owns h0 (h.take pa) (pa :: pages) objs :=
  k.allocated (.took hav) fun f hf => by
    funext i
    exact Lib.TableTree.fill_other _ _ _ fun hc => hf (List.mem_singleton.mpr hc)

theorem takeBlock (k : Owns h0 h pages objs) (hn : (blockPages pa order).Nodup) (hav : ∀ f ∈ blockPages pa order, h.available f) :
    Owns h0 (h.takeAll (blockPages pa order)) (blockPages pa order ++ pages) objs :=
  k.allocated (.tookAll hn hav) fun _ hf => if_neg hf

/-- Writing a word of an owned page. -/
theorem writeWord (k : Owns h0 h pages objs) (hpa : pa ∈ pages) (i : Fin 512) (w : U64) :
    Owns h0 (h.writeWord pa i w) pages objs :=
  k.congr rfl rfl rfl fun f hf => by
    funext j
    refine Lib.TableTree.setSlot_other _ _ (.inl ?_)
    rintro rfl
    exact k.fresh f hpa hf

/-- Writing bytes of an owned page. -/
theorem writeBytes (k : Owns h0 h pages objs) (hpa : pa ∈ pages) (off : Nat) (data : List Byte) :
    Owns h0 (h.writeBytes pa off data) pages objs := by
  induction data generalizing h off with
  | nil => exact k
  | cons b data ih => exact ih (k.writeWord hpa _ _) (off + 1)

theorem freePage (k : Owns h0 h (pa :: pages) objs) : Owns h0 (h.freePage pa) pages objs :=
  ⟨k.holds.freePage, k.nodup.of_cons, fun f hf => k.fresh f (List.mem_cons_of_mem pa hf), fun f hf => by
    rw [freePage_mem]
    exact k.frame f hf⟩

theorem freeAll {l : List U64} (k : Owns h0 h (l ++ pages) objs) : Owns h0 (l.foldl Host.freePage h) pages objs := by
  induction l generalizing h with
  | nil => exact k
  | cons f l ih => exact ih k.freePage

/-- The whole block is freed, and nothing else. -/
theorem freePages (k : Owns h0 h (blockPages pa order ++ pages) objs) : Owns h0 (h.freePages pa order) pages objs := by
  obtain ⟨hb, hp, hdisj⟩ := List.nodup_append.mp k.nodup
  have hlive : ∀ f ∈ blockPages pa order, f ∈ h.live := fun f hf => k.holds.mem_live (List.mem_append_left _ hf)
  rw [Host.freePages, if_pos hlive]
  have hrest : ∀ f ∈ pages ++ h0.live, f ∉ blockPages pa order := by
    intro f hf hc
    rcases List.mem_append.mp hf with hf | hf
    · exact hdisj f hc f hf rfl
    · exact k.fresh f (List.mem_append_left _ hc) hf
  refine ⟨⟨?_, k.holds.slab, k.holds.badFree⟩, hp, fun f hf => k.fresh f (List.mem_append_right _ hf), k.frame⟩
  have hblock : (blockPages pa order).filter (fun f => decide (f ∉ blockPages pa order)) = [] :=
    List.filter_eq_nil_iff.mpr (by simp)
  have hkept : (pages ++ h0.live).filter (fun f => decide (f ∉ blockPages pa order)) = pages ++ h0.live :=
    List.filter_eq_self.mpr (by simpa using hrest)
  have hfilter := k.holds.live.filter fun f => decide (f ∉ blockPages pa order)
  rwa [List.append_assoc, List.filter_append, hblock, List.nil_append, hkept] at hfilter

/-- Owned over a host that was itself on an account. -/
theorem trans (k : Owns h0 h pages objs) (k' : Owns h h' pages' objs') : Owns h0 h' (pages' ++ pages) (objs' ++ objs) where
  holds := k.holds.trans k'.holds
  nodup := by
    refine List.nodup_append.mpr ⟨k'.nodup, k.nodup, fun f hf g hg => ?_⟩
    rintro rfl
    exact k'.fresh f hf (k.holds.mem_live hg)
  fresh f hf := by
    rcases List.mem_append.mp hf with hf | hf
    · exact fun hc => k'.fresh f hf (k.live_of_live hc)
    · exact k.fresh f hf
  frame f hf := (k'.frame f (k.live_of_live hf)).trans (k.frame f hf)

end Owns

end Relm.Host
