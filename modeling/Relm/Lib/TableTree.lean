import Mathlib.Data.List.Infix
import Mathlib.Data.List.Nodup
import Mathlib.Logic.Function.Basic

/-! Trees of tables kept in a shared store. A table is a frame of slots, an entry may name a child
frame, and a path of slot indices walks down from the root. Ownership: no frame has two paths. -/
namespace Relm.Lib.TableTree

variable {F I E : Type*}

/-- Replace one slot of one frame. -/
def setSlot [DecidableEq F] [DecidableEq I] (m : F → I → E) (f : F) (i : I) (e : E) : F → I → E :=
  Function.update m f (Function.update (m f) i e)

/-- Overwrite every slot of a frame with the same entry. -/
def fill [DecidableEq F] (m : F → I → E) (f : F) (e : E) : F → I → E := Function.update m f fun _ => e

/-- Follow child entries from a frame, one index a level. -/
def walk (child : E → Option F) (m : F → I → E) : F → List I → Option F
  | f, [] => some f
  | f, i :: p => (child (m f i)).bind fun g => walk child m g p

/-- No frame is reached along two paths of at most the given length. -/
def Owned (child : E → Option F) (m : F → I → E) (root : F) (depth : Nat) : Prop :=
  ∀ p q f, p.length ≤ depth → q.length ≤ depth →
    walk child m root p = some f → walk child m root q = some f → p = q

/-- The entry in a slot at the end of a path, when it counts as a leaf. -/
def leafAt (child : E → Option F) (isLeaf : E → Bool) (m : F → I → E) (root : F) (p : List I) (i : I) : Option E :=
  (walk child m root p).bind fun f => if isLeaf (m f i) then some (m f i) else none

variable {child : E → Option F} {m m' : F → I → E} {root f g : F} {p q r : List I} {i j : I} {e z : E}
variable {depth : Nat} {isLeaf : E → Bool}

@[simp] theorem walk_nil (f : F) : walk child m f [] = some f := rfl

theorem walk_append (p q : List I) (f : F) :
    walk child m f (p ++ q) = (walk child m f p).bind fun g => walk child m g q := by
  induction p generalizing f with
  | nil => rfl
  | cons i p ih =>
    simp only [List.cons_append, walk]
    cases child (m f i) with
    | none => rfl
    | some g => exact ih g

theorem walk_concat (p : List I) (i : I) (f : F) :
    walk child m f (p ++ [i]) = (walk child m f p).bind fun g => child (m g i) := by
  rw [walk_append]
  congr 1
  funext g
  simp [walk]

/-- Walks agree in two stores whose entries lead to the same children along the path. -/
theorem walk_congr (h : ∀ r i, r ++ [i] <+: q → ∀ f, walk child m root r = some f →
    child (m' f i) = child (m f i)) : walk child m' root q = walk child m root q := by
  induction q using List.reverseRecOn with
  | nil => rfl
  | append_singleton q j ih =>
    have hq := ih fun r i hr => h r i (hr.trans (List.prefix_append q [j]))
    rw [walk_concat, walk_concat, hq]
    cases hw : walk child m root q with
    | none => rfl
    | some f => exact h q j List.prefix_rfl f hw

private theorem not_concat_prefix_of_length (h : q.length ≤ p.length) : ¬ p ++ [i] <+: q := by
  intro hp
  have := hp.length_le
  simp only [List.length_append, List.length_singleton] at this
  omega

private theorem length_lt_of_concat_prefix (h : r ++ [i] <+: q) : r.length < q.length := by
  have := h.length_le
  simp only [List.length_append, List.length_singleton] at this
  omega

section Collect

/-- All frames of the subtree under a frame, children before parents. -/
def collect (child : E → Option F) (all : List I) (m : F → I → E) : Nat → F → List F
  | 0, f => [f]
  | k + 1, f => (all.flatMap fun i => ((child (m f i)).map (collect child all m k)).getD []) ++ [f]

variable {all : List I} {k : Nat}

theorem mem_collect (hall : ∀ i, i ∈ all) (f g : F) :
    g ∈ collect child all m k f ↔ ∃ p, p.length ≤ k ∧ walk child m f p = some g := by
  induction k generalizing f with
  | zero =>
    simp only [collect, List.mem_singleton]
    constructor
    · rintro rfl
      exact ⟨[], by simp⟩
    · rintro ⟨p, hp, hw⟩
      obtain rfl := List.length_eq_zero_iff.mp (Nat.le_zero.mp hp)
      exact (Option.some.inj hw).symm
  | succ k ih =>
    simp only [collect, List.mem_append, List.mem_flatMap, List.mem_singleton]
    constructor
    · rintro (⟨i, _, hi⟩ | rfl)
      · cases hc : child (m f i) with
        | none => simp [hc] at hi
        | some c =>
          rw [hc, Option.map_some, Option.getD_some, ih] at hi
          obtain ⟨p, hp, hw⟩ := hi
          exact ⟨i :: p, by simpa using hp, by simp [walk, hc, hw]⟩
      · exact ⟨[], by simp⟩
    · rintro ⟨p, hp, hw⟩
      cases p with
      | nil => exact .inr (Option.some.inj hw).symm
      | cons i p =>
        left
        refine ⟨i, hall i, ?_⟩
        simp only [walk] at hw
        cases hc : child (m f i) with
        | none => simp [hc] at hw
        | some c =>
          rw [hc, Option.bind_some] at hw
          rw [Option.map_some, Option.getD_some, ih]
          exact ⟨p, by simpa using hp, hw⟩

/-- A child of an owned table owns its own subtree. -/
theorem Owned.sub (ho : Owned child m f (k + 1)) (hc : child (m f i) = some g) : Owned child m g k := by
  intro a b c ha hb hwa hwb
  have hl : ∀ p, walk child m f (i :: p) = walk child m g p := fun p => by simp [walk, hc]
  have := ho (i :: a) (i :: b) c (by simpa using ha) (by simpa using hb) (by rw [hl, hwa]) (by rw [hl, hwb])
  exact List.cons_inj_right i |>.mp this

/-- Collecting an owned tree lists each frame once. -/
theorem collect_nodup (hall : ∀ i, i ∈ all) (hnd : all.Nodup) (f : F) (ho : Owned child m f k) :
    (collect child all m k f).Nodup := by
  induction k generalizing f with
  | zero => simp [collect]
  | succ k ih =>
    have hmem : ∀ i g, g ∈ ((child (m f i)).map (collect child all m k)).getD [] →
        ∃ p, p.length ≤ k ∧ walk child m f (i :: p) = some g := by
      intro i g hg
      cases hc : child (m f i) with
      | none => simp [hc] at hg
      | some c =>
        rw [hc, Option.map_some, Option.getD_some, mem_collect hall] at hg
        obtain ⟨p, hp, hw⟩ := hg
        exact ⟨p, hp, by simp [walk, hc, hw]⟩
    refine List.Nodup.append (List.nodup_flatMap.mpr ⟨?_, ?_⟩) (List.nodup_singleton f) ?_
    · intro i _
      cases hc : child (m f i) with
      | none => simp
      | some c => exact ih c (ho.sub hc)
    · refine hnd.imp ?_
      intro i j hij g hi hj
      obtain ⟨p, hp, hwp⟩ := hmem i g hi
      obtain ⟨q, hq, hwq⟩ := hmem j g hj
      have := ho (i :: p) (j :: q) g (by simpa using hp) (by simpa using hq) hwp hwq
      exact hij (List.cons.inj this).1
    · intro g hg hs
      obtain rfl := List.mem_singleton.mp hs
      obtain ⟨i, _, hi⟩ := List.mem_flatMap.mp hg
      obtain ⟨p, hp, hw⟩ := hmem i g hi
      have := ho (i :: p) [] g (by simpa using hp) (by simp) hw rfl
      cases this

end Collect

variable [DecidableEq F]

@[simp] theorem fill_same (m : F → I → E) (f : F) (e : E) (i : I) : fill m f e f i = e := by simp [fill]

theorem fill_other (m : F → I → E) (e : E) (i : I) (h : f ≠ g) : fill m g e f i = m f i := by simp [fill, h]

variable [DecidableEq I]

theorem setSlot_same (m : F → I → E) (f : F) (i : I) (e : E) : setSlot m f i e f i = e := by
  simp [setSlot]

theorem setSlot_other (m : F → I → E) (e : E) (h : f ≠ g ∨ i ≠ j) : setSlot m g j e f i = m f i := by
  by_cases hf : f = g
  · subst hf
    have hi : i ≠ j := h.resolve_left (by simp)
    simp [setSlot, hi]
  · simp [setSlot, hf]

section Owned

variable (ho : Owned child m root depth)

include ho in
/-- Rewriting one slot only disturbs walks that pass through it. -/
theorem walk_setSlot (hp : walk child m root p = some g) (hl : p.length ≤ depth) (hq : q.length ≤ depth)
    (hn : ¬ p ++ [j] <+: q) : walk child (setSlot m g j e) root q = walk child m root q := by
  apply walk_congr
  intro r i hr f hf
  have hrl := length_lt_of_concat_prefix hr
  rw [setSlot_other]
  by_contra hc
  push Not at hc
  obtain ⟨rfl, rfl⟩ := hc
  have : r = p := ho r p f (by omega) hl hf hp
  exact hn (this ▸ hr)

include ho in
/-- Rewriting a slot that leads nowhere before and after disturbs no walk. -/
theorem walk_setSlot_leaf (hp : walk child m root p = some g) (hl : p.length ≤ depth) (hq : q.length ≤ depth)
    (hc : p.length = depth ∨ child e = child (m g j)) :
    walk child (setSlot m g j e) root q = walk child m root q := by
  rcases hc with hd | hc
  · exact walk_setSlot ho hp hl hq (not_concat_prefix_of_length (by omega))
  · apply walk_congr
    intro r i _ f _
    by_cases hs : f = g ∧ i = j
    · obtain ⟨rfl, rfl⟩ := hs
      rw [setSlot_same, hc]
    · rw [setSlot_other m e (by tauto)]

include ho in
theorem owned_setSlot_leaf (hp : walk child m root p = some g) (hl : p.length ≤ depth)
    (hc : p.length = depth ∨ child e = child (m g j)) : Owned child (setSlot m g j e) root depth := by
  intro a b f ha hb hwa hwb
  rw [walk_setSlot_leaf ho hp hl ha hc] at hwa
  rw [walk_setSlot_leaf ho hp hl hb hc] at hwb
  exact ho a b f ha hb hwa hwb

include ho in
/-- A leaf write changes the leaf in its own slot and no other. -/
theorem leafAt_setSlot (hp : walk child m root p = some g) (hl : p.length ≤ depth) (hq : q.length ≤ depth)
    (hc : p.length = depth ∨ child e = child (m g j)) :
    leafAt child isLeaf (setSlot m g j e) root q i =
      if q = p ∧ i = j then (if isLeaf e then some e else none) else leafAt child isLeaf m root q i := by
  unfold leafAt
  rw [walk_setSlot_leaf ho hp hl hq hc]
  by_cases hs : q = p ∧ i = j
  · obtain ⟨rfl, rfl⟩ := hs
    simp [hp, setSlot_same]
  · rw [if_neg hs]
    cases hw : walk child m root q with
    | none => rfl
    | some f =>
      have hne : f ≠ g ∨ i ≠ j := by
        by_contra hcon
        push Not at hcon
        exact hs ⟨ho q p f hq hl hw (hcon.1 ▸ hp), hcon.2⟩
      simp only [Option.bind_some, setSlot_other m e hne]

include ho in
/-- A slot that is overwritten by an entry without a child cuts off what was below it. -/
theorem walk_cut (hp : walk child m root p = some g) (hl : p.length ≤ depth) (hc : child e = none) (hq : p ++ [j] <+: q) :
    walk child (setSlot m g j e) root q = none := by
  obtain ⟨r, rfl⟩ := hq
  have hparent : walk child (setSlot m g j e) root p = some g :=
    (walk_setSlot ho hp hl hl (not_concat_prefix_of_length le_rfl)).trans hp
  rw [walk_append, walk_concat, hparent]
  simp only [Option.bind_some, setSlot_same, hc, Option.bind_none]

include ho in
theorem walk_of_cut (hp : walk child m root p = some g) (hl : p.length ≤ depth) (hc : child e = none)
    (hq : q.length ≤ depth) (hw : walk child (setSlot m g j e) root q = some f) : walk child m root q = some f := by
  have hn : ¬ p ++ [j] <+: q := by
    intro hpre
    rw [walk_cut ho hp hl hc hpre] at hw
    cases hw
  rwa [walk_setSlot ho hp hl hq hn] at hw

include ho in
theorem owned_cut (hp : walk child m root p = some g) (hl : p.length ≤ depth) (hc : child e = none) :
    Owned child (setSlot m g j e) root depth := fun a b f ha hb hwa hwb =>
  ho a b f ha hb (walk_of_cut ho hp hl hc ha hwa) (walk_of_cut ho hp hl hc hb hwb)

include ho in
/-- A leaf that is there afterwards is the entry stored, or was there before. -/
theorem leafAt_of_cut (hp : walk child m root p = some g) (hl : p.length ≤ depth) (hc : child e = none)
    (hq : q.length ≤ depth) {x : E} (hx : leafAt child isLeaf (setSlot m g j e) root q i = some x) :
    (q = p ∧ x = e) ∨ leafAt child isLeaf m root q i = some x := by
  obtain ⟨f, hw, hleaf⟩ := Option.bind_eq_some_iff.mp hx
  have hold := walk_of_cut ho hp hl hc hq hw
  by_cases hs : f = g ∧ i = j
  · obtain ⟨rfl, rfl⟩ := hs
    rw [setSlot_same] at hleaf
    refine .inl ⟨ho q p f hq hl hold hp, ?_⟩
    split at hleaf
    · exact (Option.some.inj hleaf).symm
    · cases hleaf
  · rw [setSlot_other m e (by tauto)] at hleaf
    refine .inr ?_
    rw [leafAt, hold, Option.bind_some]
    exact hleaf

end Owned

/-- Hang a freshly cleared frame under an empty slot. -/
def attach (m : F → I → E) (g : F) (j : I) (e : E) (n : F) (z : E) : F → I → E := setSlot (fill m n z) g j e

/-- What `attach` needs: an owned parent with an empty slot, and a frame no walk reaches. -/
structure Attachable (child : E → Option F) (m : F → I → E) (root : F) (depth : Nat)
    (p : List I) (g : F) (j : I) (e : E) (n : F) (z : E) : Prop where
  owned : Owned child m root depth
  parent : walk child m root p = some g
  room : p.length < depth
  empty : child (m g j) = none
  fresh : ∀ q, q.length ≤ depth → walk child m root q ≠ some n
  link : child e = some n
  clear : child z = none

namespace Attachable

variable {n : F} (h : Attachable child m root depth p g j e n z)

private theorem at_parent : attach m g j e n z g j = e := setSlot_same _ _ _ _

private theorem at_other (hf : f ≠ n) (hs : f ≠ g ∨ i ≠ j) : attach m g j e n z f i = m f i := by
  rw [attach, setSlot_other _ _ hs, fill_other _ _ _ hf]

include h

omit [DecidableEq F] [DecidableEq I] in
theorem parent_ne : g ≠ n := fun hg => h.fresh p h.room.le (hg ▸ h.parent)

theorem at_new : attach m g j e n z n i = z := by
  rw [attach, setSlot_other _ _ (Or.inl h.parent_ne.symm), fill_same]

theorem walk_other (hq : q.length ≤ depth) (hn : ¬ p ++ [j] <+: q) :
    walk child (attach m g j e n z) root q = walk child m root q := by
  apply walk_congr
  intro r i hr f hf
  have hrl := length_lt_of_concat_prefix hr
  have hfn : f ≠ n := fun hc => h.fresh r (by omega) (hc ▸ hf)
  rw [at_other hfn]
  by_contra hc
  push Not at hc
  obtain ⟨rfl, rfl⟩ := hc
  exact hn (h.owned r p f (by omega) h.room.le hf h.parent ▸ hr)

theorem walk_parent : walk child (attach m g j e n z) root p = some g := by
  rw [h.walk_other h.room.le (not_concat_prefix_of_length le_rfl), h.parent]

theorem walk_new : walk child (attach m g j e n z) root (p ++ [j]) = some n := by
  rw [walk_concat, h.walk_parent]
  simp only [Option.bind_some, at_parent, h.link]

theorem walk_below (r : List I) (hr : r ≠ []) : walk child (attach m g j e n z) root (p ++ [j] ++ r) = none := by
  rw [walk_append, h.walk_new]
  cases r with
  | nil => exact absurd rfl hr
  | cons i r => simp [walk, h.at_new, h.clear]

omit [DecidableEq F] [DecidableEq I] in
/-- Before the attachment nothing hangs under the empty slot. -/
theorem walk_before (hq : p ++ [j] <+: q) : walk child m root q = none := by
  obtain ⟨r, rfl⟩ := hq
  rw [walk_append, walk_concat, h.parent]
  simp only [Option.bind_some, h.empty, Option.bind_none]

/-- Only the walk to the new frame itself has changed. -/
theorem walk_ne (hq : q.length ≤ depth) (hn : q ≠ p ++ [j]) :
    walk child (attach m g j e n z) root q = walk child m root q := by
  by_cases hp : p ++ [j] <+: q
  · rw [h.walk_before hp]
    obtain ⟨r, rfl⟩ := hp
    exact h.walk_below r fun hr => hn (by simp [hr])
  · exact h.walk_other hq hp

/-- Afterwards a walk finds the new frame, or what it found before. -/
theorem walk_eq_some (hq : q.length ≤ depth) (hw : walk child (attach m g j e n z) root q = some f) :
    (q = p ++ [j] ∧ f = n) ∨ (¬ p ++ [j] <+: q ∧ walk child m root q = some f) := by
  by_cases hn : p ++ [j] <+: q
  · obtain ⟨r, rfl⟩ := hn
    by_cases hr : r = []
    · subst hr
      rw [List.append_nil, h.walk_new] at hw
      exact .inl ⟨by simp, (Option.some.inj hw).symm⟩
    · rw [h.walk_below r hr] at hw
      cases hw
  · rw [h.walk_other hq hn] at hw
    exact .inr ⟨hn, hw⟩

theorem owned_after : Owned child (attach m g j e n z) root depth := by
  intro a b f ha hb hwa hwb
  rcases h.walk_eq_some ha hwa with ⟨rfl, rfl⟩ | ⟨_, hwa⟩ <;> rcases h.walk_eq_some hb hwb with ⟨rfl, hf⟩ | ⟨_, hwb⟩
  · rfl
  · exact absurd hwb (h.fresh b hb)
  · exact absurd (hf ▸ hwa) (h.fresh a ha)
  · exact h.owned a b f ha hb hwa hwb

/-- The reachable frames grow by exactly the new one. -/
theorem reach_iff : (∃ q, q.length ≤ depth ∧ walk child (attach m g j e n z) root q = some f) ↔
    f = n ∨ ∃ q, q.length ≤ depth ∧ walk child m root q = some f := by
  constructor
  · rintro ⟨q, hq, hw⟩
    rcases h.walk_eq_some hq hw with ⟨_, rfl⟩ | ⟨_, hw⟩
    · exact .inl rfl
    · exact .inr ⟨q, hq, hw⟩
  · rintro (rfl | ⟨q, hq, hw⟩)
    · refine ⟨p ++ [j], ?_, h.walk_new⟩
      have := h.room
      simp only [List.length_append, List.length_singleton]
      omega
    · refine ⟨q, hq, ?_⟩
      rw [h.walk_other hq, hw]
      intro hn
      rw [h.walk_before hn] at hw
      cases hw

/-- Attaching an empty table creates and destroys no leaf. -/
theorem leafAt_attach (hq : q.length ≤ depth) (hz : isLeaf z = false)
    (hs : q = p → i = j → isLeaf e = false ∧ isLeaf (m g j) = false) :
    leafAt child isLeaf (attach m g j e n z) root q i = leafAt child isLeaf m root q i := by
  unfold leafAt
  by_cases hn : p ++ [j] <+: q
  · rw [h.walk_before hn, Option.bind_none]
    obtain ⟨r, rfl⟩ := hn
    by_cases hr : r = []
    · subst hr
      rw [List.append_nil, h.walk_new]
      simp [h.at_new, hz]
    · rw [h.walk_below r hr, Option.bind_none]
  · rw [h.walk_other hq hn]
    cases hw : walk child m root q with
    | none => rfl
    | some f =>
      have hfn : f ≠ n := fun hc => h.fresh q hq (hc ▸ hw)
      by_cases hfg : f = g ∧ i = j
      · obtain ⟨rfl, rfl⟩ := hfg
        have hqp : q = p := h.owned q p f hq h.room.le hw h.parent
        obtain ⟨he, hold⟩ := hs hqp rfl
        simp [at_parent, he, hold]
      · have hslot : f ≠ g ∨ i ≠ j := by tauto
        simp only [Option.bind_some, at_other hfn hslot]

end Attachable

end Relm.Lib.TableTree
