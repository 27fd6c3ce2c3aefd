import Relm.Host.Pages

/-! Hosts that still have a number of frames and of slab objects, or given blocks, to hand out. -/
namespace Relm
open Host

/-- The host hands out `pages` more frames and `objs` more slab objects before an allocation may fail. -/
structure Host.Supplied (h : Host) (pages objs : Nat) : Prop where
  frames : ∃ l : List U64, l.length = pages ∧ l.map some <+: h.answers ∧ l.Nodup ∧ ∀ f ∈ l, h.available f
  objects : List.replicate objs true <+: h.slabAnswers

namespace Host.Supplied

variable {h h' : Host} {pages objs : Nat}

/-- What an allocation looks at is the same. -/
theorem congr (k : h.Supplied pages objs) (ha : h'.answers = h.answers) (hm : h'.managed = h.managed)
    (hl : h'.live = h.live) (hs : h'.slabAnswers = h.slabAnswers) : h'.Supplied pages objs := by
  obtain ⟨⟨l, hlen, hpre, hn, hav⟩, ho⟩ := k
  refine ⟨⟨l, hlen, ha ▸ hpre, hn, fun f hf => ?_⟩, hs ▸ ho⟩
  obtain ⟨h1, h2, h3⟩ := hav f hf
  exact ⟨h1, by rw [hm]; exact h2, by rw [hl]; exact h3⟩

/-- Frames alone do not depend on the slab. -/
theorem congr_frames (k : h.Supplied pages 0) (ha : h'.answers = h.answers) (hm : h'.managed = h.managed)
    (hl : h'.live = h.live) : h'.Supplied pages 0 := by
  obtain ⟨⟨l, hlen, hpre, hn, hav⟩, -⟩ := k
  refine ⟨⟨l, hlen, ha ▸ hpre, hn, fun f hf => ?_⟩, List.nil_prefix⟩
  obtain ⟨h1, h2, h3⟩ := hav f hf
  exact ⟨h1, by rw [hm]; exact h2, by rw [hl]; exact h3⟩

theorem mono (k : h.Supplied pages objs) {pages' : Nat} (hle : pages' ≤ pages) : h.Supplied pages' objs := by
  obtain ⟨⟨l, hlen, hpre, hn, hav⟩, ho⟩ := k
  refine ⟨⟨l.take pages', ?_, ?_, hn.take, fun f hf => hav f (List.mem_of_mem_take hf)⟩, ho⟩
  · rw [List.length_take]
    omega
  · rw [List.map_take]
    exact (List.take_prefix ..).trans hpre

theorem getFreePage (k : h.Supplied (pages + 1) objs) :
    ∃ pa, h.available pa ∧ h.getFreePage = (some pa, h.take pa) ∧ (h.take pa).Supplied pages objs := by
  obtain ⟨⟨l, hlen, hpre, hn, hav⟩, ho⟩ := k
  cases l with
  | nil => cases hlen
  | cons pa l =>
    obtain ⟨rest, hrest⟩ := hpre
    rw [List.map_cons, List.cons_append] at hrest
    have hpa := hav pa List.mem_cons_self
    obtain ⟨hnot, hn⟩ := List.nodup_cons.mp hn
    refine ⟨pa, hpa, ?_, ⟨l, Nat.succ.inj hlen, ?_, hn, fun f hf => ?_⟩, ho⟩
    · simp only [Host.getFreePage, ← hrest, List.head?_cons, Option.join_some, if_pos hpa]
    · rw [Host.take, ← hrest]
      exact List.prefix_append ..
    · obtain ⟨h1, h2, h3⟩ := hav f (List.mem_cons_of_mem _ hf)
      refine ⟨h1, h2, fun hc => ?_⟩
      rcases List.mem_cons.mp hc with rfl | hc
      · exact hnot hf
      · exact h3 hc

/-- The answer behind a frame that is handed out. -/
private theorem answered {pa : U64} (hr : h.getFreePage = (some pa, h')) :
    h.answers.head? = some (some pa) ∧ h.available pa := by
  unfold Host.getFreePage at hr
  split at hr
  · rename_i p ha
    split at hr
    · rename_i hav
      obtain rfl : p = pa := Option.some.inj (congrArg Prod.fst hr)
      exact ⟨Option.join_eq_some_iff.mp ha, hav⟩
    · cases hr
  · cases hr

/-- A frame that has been handed out is one less to come. -/
theorem take_iff {pa : U64} (hr : h.getFreePage = (some pa, h.take pa)) :
    (h.take pa).Supplied pages objs ↔ h.Supplied (pages + 1) objs := by
  constructor
  · rintro ⟨⟨l, hlen, ⟨rest, hrest⟩, hn, hav⟩, ho⟩
    obtain ⟨hhead, hfirst⟩ := answered hr
    obtain ⟨tail, htail⟩ := List.head?_eq_some_iff.mp hhead
    have hold : ∀ f ∈ l, h.available f ∧ f ≠ pa := fun f hf => by
      obtain ⟨h1, h2, h3⟩ := hav f hf
      exact ⟨⟨h1, h2, fun hc => h3 (List.mem_cons_of_mem _ hc)⟩, fun hc => h3 (hc ▸ List.mem_cons_self)⟩
    refine ⟨⟨pa :: l, congrArg Nat.succ hlen, ⟨rest, ?_⟩, List.nodup_cons.mpr ⟨fun hc => (hold pa hc).2 rfl, hn⟩,
      fun f hf => ?_⟩, ho⟩
    · rw [Host.take, htail, List.tail_cons] at hrest
      rw [htail, List.map_cons, List.cons_append, hrest]
    · rcases List.mem_cons.mp hf with rfl | hf
      · exact hfirst
      · exact (hold f hf).1
  · intro k
    obtain ⟨p, -, hr', hk⟩ := k.getFreePage
    rw [hr'] at hr
    rwa [Option.some.inj (congrArg Prod.fst hr)] at hk

theorem not_of_refused (hr : h.getFreePage = (none, h')) : ¬ h.Supplied (pages + 1) objs := fun k => by
  obtain ⟨p, -, hr', -⟩ := k.getFreePage
  rw [hr] at hr'
  cases hr'

theorem kzalloc (k : h.Supplied pages (objs + 1)) :
    h.kzalloc = (some h.slabNext, h.slabTake) ∧ h.slabTake.Supplied pages objs := by
  obtain ⟨⟨l, hlen, hpre, hn, hav⟩, rest, hrest⟩ := k
  rw [List.replicate_succ, List.cons_append] at hrest
  refine ⟨?_, ⟨l, hlen, hpre, hn, hav⟩, ?_⟩
  · simp only [Host.kzalloc, ← hrest, List.head?_cons]
  · rw [Host.slabTake, ← hrest]
    exact List.prefix_append ..

/-- A slab object that has been handed out is one less to come. -/
theorem slabTake_iff (hk : h.kzalloc = (some h.slabNext, h.slabTake)) :
    h.slabTake.Supplied pages objs ↔ h.Supplied pages (objs + 1) := by
  refine ⟨fun ⟨hframes, rest, hrest⟩ => ⟨hframes, rest, ?_⟩, fun k => k.kzalloc.2⟩
  unfold Host.kzalloc at hk
  split at hk
  · rename_i hhead
    obtain ⟨tail, htail⟩ := List.head?_eq_some_iff.mp hhead
    rw [Host.slabTake, htail, List.tail_cons] at hrest
    rw [htail, List.replicate_succ, List.cons_append, hrest]
  · cases hk

/-- Nothing is always supplied. -/
theorem zero (h : Host) : h.Supplied 0 0 := ⟨⟨[], rfl, List.nil_prefix, List.nodup_nil, by simp⟩, List.nil_prefix⟩

end Host.Supplied

/-- The host hands out these blocks next, each of its order. -/
def Host.HandsOut (h : Host) : List (U64 × Nat) → Prop
  | [] => True
  | (pa, order) :: rest => (h.answers.head?.join = some pa ∧ pa.toNat % (4096 * 2 ^ order) = 0 ∧ (blockPages pa order).Nodup ∧
      ∀ f ∈ blockPages pa order, h.available f) ∧ (h.takeAll (blockPages pa order)).HandsOut rest

instance Host.decidableHandsOut : (h : Host) → (blocks : List (U64 × Nat)) → Decidable (h.HandsOut blocks)
  | _, [] => isTrue trivial
  | h, (pa, order) :: rest =>
    have := decidableHandsOut (h.takeAll (blockPages pa order)) rest
    have : Decidable (∀ f ∈ blockPages pa order, h.available f) := List.decidableBAll _ _
    inferInstanceAs (Decidable (_ ∧ _))

namespace Host.HandsOut

variable {h h' : Host} {pa : U64} {order : Nat} {rest : List (U64 × Nat)}

/-- What an allocation looks at is the same. -/
theorem congr {blocks : List (U64 × Nat)} (k : h.HandsOut blocks) (ha : h'.answers = h.answers) (hm : h'.managed = h.managed)
    (hl : h'.live = h.live) : h'.HandsOut blocks := by
  induction blocks generalizing h h' with
  | nil => trivial
  | cons block rest ih =>
    obtain ⟨⟨hhead, hal, hn, hav⟩, hrest⟩ := k
    refine ⟨⟨by rw [ha]; exact hhead, hal, hn, fun f hf => ?_⟩, ih hrest ?_ hm ?_⟩
    · obtain ⟨h1, h2, h3⟩ := hav f hf
      exact ⟨h1, by rw [hm]; exact h2, by rw [hl]; exact h3⟩
    · exact congrArg List.tail ha
    · exact congrArg (_ ++ ·) hl

theorem getFreePages (k : h.HandsOut ((pa, order) :: rest)) :
    h.getFreePages order = (some pa, h.takeAll (blockPages pa order)) ∧ (h.takeAll (blockPages pa order)).HandsOut rest := by
  refine ⟨?_, k.2⟩
  unfold Host.getFreePages
  rw [k.1.1]
  exact if_pos k.1.2

theorem getFreePage (k : h.HandsOut ((pa, 0) :: rest)) :
    h.getFreePage = (some pa, h.take pa) ∧ (h.take pa).HandsOut rest := by
  obtain ⟨⟨hhead, -, -, hav⟩, hrest⟩ := k
  rw [blockPages_zero] at hav hrest
  refine ⟨?_, hrest.congr rfl rfl rfl⟩
  unfold Host.getFreePage
  rw [hhead]
  exact if_pos (hav pa List.mem_cons_self)

theorem writeWord {blocks : List (U64 × Nat)} (k : h.HandsOut blocks) (pa : U64) (i : Fin 512) (w : U64) :
    (h.writeWord pa i w).HandsOut blocks := k.congr rfl rfl rfl

theorem writeBytes {blocks : List (U64 × Nat)} (k : h.HandsOut blocks) (pa : U64) (off : Nat) (data : List Byte) :
    (h.writeBytes pa off data).HandsOut blocks := by
  induction data generalizing h off with
  | nil => exact k
  | cons b data ih => exact ih (k.congr rfl rfl rfl : (h.setByte pa off b).HandsOut blocks) (off + 1)

end Host.HandsOut

end Relm
