import Relm.Host.Pages

/-! What a computation holds of the host's pages and slab objects, over what was handed out when it started. Nothing held
at the end, and nothing freed that was not handed out, means that all it allocated was freed exactly once. -/
namespace Relm.Host

theorem words_pos : 0 < 512 := by decide

/-- The first word of a page. -/
def firstWord : Fin 512 := ⟨0, words_pos⟩

/-- Over the books of `h0`, exactly `pages` and `objs` are handed out besides, and no free went wrong. -/
structure Holds (h0 h : Host) (pages : List U64) (objs : List Nat) : Prop where
  live : h.live.Perm (pages ++ h0.live)
  slab : h.slab.Perm (objs ++ h0.slab)
  badFree : h.badFree = h0.badFree

namespace Holds

variable {h0 h h' : Host} {pages l : List U64} {objs : List Nat} {pa : U64} {obj : Nat}

theorem start (h : Host) : Holds h h [] [] := ⟨.refl _, .refl _, rfl⟩

/-- Only the books matter. -/
theorem congr (k : Holds h0 h pages objs) (hl : h'.live = h.live) (hs : h'.slab = h.slab) (hb : h'.badFree = h.badFree) :
    Holds h0 h' pages objs := ⟨hl ▸ k.live, hs ▸ k.slab, hb.trans k.badFree⟩

theorem perm {pages' : List U64} (k : Holds h0 h pages objs) (hp : pages.Perm pages') : Holds h0 h pages' objs :=
  ⟨k.live.trans (hp.append_right _), k.slab, k.badFree⟩

theorem permObjs {objs' : List Nat} (k : Holds h0 h pages objs) (hp : objs.Perm objs') : Holds h0 h pages objs' :=
  ⟨k.live, k.slab.trans (hp.append_right _), k.badFree⟩

theorem mem_live (k : Holds h0 h pages objs) {f : U64} (hf : f ∈ pages) : f ∈ h.live :=
  k.live.mem_iff.mpr (List.mem_append_left _ hf)

theorem mem_slab (k : Holds h0 h pages objs) (ho : obj ∈ objs) : obj ∈ h.slab :=
  k.slab.mem_iff.mpr (List.mem_append_left _ ho)

theorem allocated (k : Holds h0 h pages objs) (a : Allocated h h' l) : Holds h0 h' (l ++ pages) objs where
  live := by
    rw [a.live, List.append_assoc]
    exact k.live.append_left l
  slab := a.slab ▸ k.slab
  badFree := a.badFree.trans k.badFree

theorem slabTake (k : Holds h0 h pages objs) : Holds h0 h.slabTake pages (h.slabNext :: objs) :=
  ⟨k.live, k.slab.cons _, k.badFree⟩

theorem freePage (k : Holds h0 h (pa :: pages) objs) : Holds h0 (h.freePage pa) pages objs := by
  have hlive : pa ∈ h.live := k.mem_live List.mem_cons_self
  rw [Host.freePage, if_pos hlive]
  refine ⟨?_, k.slab, k.badFree⟩
  have he := k.live.erase pa
  rwa [List.cons_append, List.erase_cons_head] at he

theorem freeAll (k : Holds h0 h (l ++ pages) objs) : Holds h0 (l.foldl Host.freePage h) pages objs := by
  induction l generalizing h with
  | nil => exact k
  | cons f l ih => exact ih k.freePage

theorem kfree (k : Holds h0 h pages (obj :: objs)) : Holds h0 (h.kfree obj) pages objs := by
  have hslab : obj ∈ h.slab := k.mem_slab List.mem_cons_self
  rw [Host.kfree, if_pos hslab]
  refine ⟨k.live, ?_, k.badFree⟩
  have he := k.slab.erase obj
  rwa [List.cons_append, List.erase_cons_head] at he

/-- What a later computation holds comes on top. -/
theorem trans {objs' : List Nat} (k : Holds h0 h pages objs) (k' : Holds h h' l objs') :
    Holds h0 h' (l ++ pages) (objs' ++ objs) where
  live := by
    rw [List.append_assoc]
    exact k'.live.trans (k.live.append_left l)
  slab := by
    rw [List.append_assoc]
    exact k'.slab.trans (k.slab.append_left objs')
  badFree := k'.badFree.trans k.badFree

/-- Two accounts of the same books list equally many objects. -/
theorem objs_length {objs' : List Nat} (k : Holds h0 h pages objs) (k' : Holds h0 h l objs') : objs.length = objs'.length := by
  have hl := (k.slab.symm.trans k'.slab).length_eq
  rw [List.length_append, List.length_append] at hl
  exact Nat.add_right_cancel hl

end Holds

end Relm.Host
