import Relm.Arm64.Stage2Overwrite
import Relm.Arm64.Stage2Ram
import Relm.Lib.Count
import Relm.Lib.Loop

/-! Unmapping a range page by page: the pages of the range go, and with them every block that starts in it. -/
namespace Relm.Arm64
open Relm.Lib.Count Relm.Lib.Loop Relm.Lib.Run Relm.Lib.Word
open S2State

/-- One step of the unmapping loop. -/
def unmapStep (ipa : U64) (s : S2State) (i : Nat) : Except Errno Unit × S2State := relmStage2UnmapPage s (pageAt ipa i)

/-- Does a leaf of the level start at the address? -/
def leafStartsAt (s : S2State) (level : Nat) (ipa : U64) : Bool :=
  match s2Walk s ipa with
  | .ok l => l.base == ipa && l.size == s2LevelSize level
  | .error _ => false

/-- Does the address lie inside a leaf that starts before it? -/
def insideLeaf (s : S2State) (ipa : U64) : Bool :=
  match s2Walk s ipa with
  | .ok l => l.base != ipa
  | .error _ => false

def isMapped (s : S2State) (ipa : U64) : Bool :=
  match relmStage2GetMapping s ipa with
  | .ok _ => true
  | .error _ => false

/-- Nothing is left in the range, the rest of the geometry is as before, and the counters have gone down by the leaves
and the bytes of the range. -/
structure UnmapsExactly (s : S2State) (ipa size : U64) (t : S2State) : Prop where
  inside : ∀ a : U64, ipa.toNat ≤ a.toNat → a.toNat < ipa.toNat + size.toNat →
    relmStage2GetMapping t a = .error .enoent
  outside : ∀ a : U64, a.toNat < 2 ^ s.ctx.geometry.ipaBits →
    a.toNat < ipa.toNat ∨ ipa.toNat + size.toNat ≤ a.toNat → relmStage2GetMapping t a = relmStage2GetMapping s a
  pages4kb : t.ctx.stats.pages4kb = s.ctx.stats.pages4kb -
    BitVec.ofNat 64 (Nat.count (fun k => leafStartsAt s 3 (pageAt ipa k) = true) (size.toNat / 4096))
  pages2mb : t.ctx.stats.pages2mb = s.ctx.stats.pages2mb -
    BitVec.ofNat 64 (Nat.count (fun k => leafStartsAt s 2 (pageAt ipa k) = true) (size.toNat / 4096))
  totalMapped : t.ctx.stats.totalMapped = s.ctx.stats.totalMapped -
    BitVec.ofNat 64 (4096 * Nat.count (fun k => isMapped s (pageAt ipa k) = true) (size.toNat / 4096))

section Leaves

variable {s : S2State} {x : U64}

private theorem base_iff {level : Nat} (hl : level = 2 ∨ level = 3) (e : U64) :
    (leafInfo e x level).base = x ↔ x.toNat % 2 ^ s2Shift level = 0 := by
  have hdiv := Nat.div_add_mod' x.toNat (2 ^ s2Shift level)
  rw [leafInfo, ← BitVec.toNat_inj, base_toNat hl]
  omega

private theorem leafStartsAt_page (sh : Shape s) (hx : x.toNat % 4096 = 0) :
    leafStartsAt s 3 x = true ↔ (s.page x).isSome = true := by
  rw [leafStartsAt, walk_spec sh x, leaf]
  cases hb : s.block x with
  | some e =>
    have hsize : ((leafInfo e x 2).size == s2LevelSize 3) = false := show (s2LevelSize 2 == s2LevelSize 3) = false by decide
    rw [page_of_block sh (by rw [hb]; simp)]
    simp [hsize]
  | none =>
    cases hp : s.page x with
    | none => simp
    | some e =>
      have hbase := (base_iff (.inr rfl) e).mpr hx
      have hsize : (leafInfo e x 3).size = s2LevelSize 3 := rfl
      simp [hbase, hsize]

private theorem leafStartsAt_block (sh : Shape s) :
    leafStartsAt s 2 x = true ↔ (s.block x).isSome = true ∧ x.toNat % 2 ^ 21 = 0 := by
  rw [leafStartsAt, walk_spec sh x, leaf]
  cases hb : s.block x with
  | some e =>
    have hbase := base_iff (.inl rfl) (x := x) e
    simp only [leafInfo, beq_self_eq_true, Bool.and_true, beq_iff_eq, Option.isSome_some, true_and] at hbase ⊢
    exact hbase
  | none =>
    cases hp : s.page x with
    | none => simp
    | some e =>
      have hsize : ((leafInfo e x 3).size == s2LevelSize 2) = false := show (s2LevelSize 3 == s2LevelSize 2) = false by decide
      simp [hsize]

private theorem insideLeaf_iff (sh : Shape s) (hx : x.toNat % 4096 = 0) :
    insideLeaf s x = true ↔ (s.block x).isSome = true ∧ x.toNat % 2 ^ 21 ≠ 0 := by
  rw [insideLeaf, walk_spec sh x, leaf]
  cases hb : s.block x with
  | some e =>
    have hbase := base_iff (.inl rfl) (x := x) e
    simp only [bne_iff_ne, ne_eq, hbase, Option.isSome_some, true_and]
    rfl
  | none =>
    cases hp : s.page x with
    | none => simp
    | some e =>
      have hbase := (base_iff (.inr rfl) e).mpr hx
      simp [hbase]

private theorem isMapped_iff (sh : Shape s) :
    isMapped s x = true ↔ (s.page x).isSome = true ∨ (s.block x).isSome = true := by
  rw [isMapped, getMapping_spec sh x, leaf]
  cases s.block x with
  | some e => simp
  | none => cases s.page x <;> simp

end Leaves

/-- A range of whole pages, by the number of its first page and how many there are. -/
private structure Span (s : S2State) (ipa : U64) (b n : Nat) : Prop extends Sound s where
  first : ipa.toNat = 4096 * b
  fits : 4096 * (b + n) ≤ 2 ^ s.ctx.geometry.ipaBits
  start : insideLeaf s ipa = false

section Loop

variable {s t u : S2State} {ipa a : U64} {b n i k : Nat}

private theorem pow_bits (hv : s2GeometryValid s.ctx.geometry = true) :
    2 ^ s.ctx.geometry.ipaBits ≤ 2 ^ 48 ∧ 2 ^ s.ctx.geometry.ipaBits % 2 ^ 21 = 0 := by
  obtain ⟨hlo, hhi, -, -, -⟩ := geometry_bounds hv
  exact ⟨Nat.pow_le_pow_right (by decide) hhi, Nat.mod_eq_zero_of_dvd (Nat.pow_dvd_pow 2 (by omega))⟩

/-- The keys of an address of the geometry. -/
private theorem keys (h : Span s ipa b n) (ha : a.toNat < 2 ^ s.ctx.geometry.ipaBits) :
    pageKey s.start a = a.toNat / 4096 ∧ blockKey s.start a = a.toNat / 4096 / 512 := by
  have hw : walked s.start a = a.toNat := walked_of_lt h.valid ha
  rw [pageKey, blockKey, hw]
  omega

private theorem Span.at (h : Span s ipa b n) (hk : 4096 * (b + k) < 2 ^ s.ctx.geometry.ipaBits) :
    (pageAt ipa k).toNat = 4096 * (b + k) ∧ pageKey s.start (pageAt ipa k) = b + k ∧
      blockKey s.start (pageAt ipa k) = (b + k) / 512 := by
  have hfirst := h.first
  have hbits := (pow_bits h.valid).1
  have hat : (pageAt ipa k).toNat = 4096 * (b + k) := by
    rw [pageAt_toNat (by omega)]
    omega
  obtain ⟨hp, hb⟩ := keys h (show (pageAt ipa k).toNat < _ by omega)
  rw [hat] at hp hb
  exact ⟨hat, by omega, by omega⟩

/-- No block reaches into the range from before it. -/
private theorem Span.no_block (h : Span s ipa b n) (ha : a.toNat < 2 ^ s.ctx.geometry.ipaBits)
    (hlo : b ≤ a.toNat / 4096) (hcut : 512 * (a.toNat / 4096 / 512) < b) : s.block a = none := by
  by_contra hne
  have hfirst := h.first
  have hkey : blockKey s.start ipa = blockKey s.start a := by
    rw [(keys h ha).2, (keys h (show ipa.toNat < _ by omega)).2]
    omega
  have hin : insideLeaf s ipa = true := by
    rw [insideLeaf_iff h.shape (by omega), block_congr h.shape hkey]
    exact ⟨Option.isSome_iff_ne_none.mpr hne, by omega⟩
  rw [h.start] at hin
  cases hin

/-- The leaves that pages of the range have, and the blocks that start in it. -/
private def pagesIn (s : S2State) (ipa : U64) (n : Nat) : Nat := Nat.count (fun k => (s.page (pageAt ipa k)).isSome = true) n

private def blocksIn (s : S2State) (ipa : U64) (b n : Nat) : Nat :=
  Nat.count (fun k => (s.block (pageAt ipa k)).isSome = true ∧ (b + k) % 512 = 0) n

/-- The first pages of the range are gone, and so are the blocks that start there. -/
private structure Cleared (s : S2State) (ipa : U64) (b i : Nat) (t : S2State) : Prop extends Extends s t where
  page : ∀ a, t.page a = if b ≤ pageKey s.start a ∧ pageKey s.start a < b + i then none else s.page a
  block : ∀ a, t.block a =
    if b ≤ 512 * blockKey s.start a ∧ 512 * blockKey s.start a < b + i then none else s.block a
  pages4kb : t.ctx.stats.pages4kb = s.ctx.stats.pages4kb - BitVec.ofNat 64 (pagesIn s ipa i)
  pages2mb : t.ctx.stats.pages2mb = s.ctx.stats.pages2mb - BitVec.ofNat 64 (blocksIn s ipa b i)
  total : t.ctx.stats.totalMapped = s.ctx.stats.totalMapped -
    BitVec.ofNat 64 (4096 * pagesIn s ipa i + 2 ^ 21 * blocksIn s ipa b i)

private theorem Cleared.refl (sh : Shape s) : Cleared s ipa b 0 s where
  toExtends := (Grows.refl sh).toExtends
  page a := (if_neg (by omega)).symm
  block a := (if_neg (by omega)).symm
  pages4kb := by simp [pagesIn]
  pages2mb := by simp [blocksIn]
  total := by simp [pagesIn, blocksIn]

/-- The page and the block of the next page of the range are still those of the start. -/
private theorem Cleared.ahead (h : Cleared s ipa b i t) (hs : Span s ipa b n) (hi : i < n) :
    t.page (pageAt ipa i) = s.page (pageAt ipa i) ∧
      ((b + i) % 512 = 0 → t.block (pageAt ipa i) = s.block (pageAt ipa i)) := by
  have hfits := hs.fits
  obtain ⟨-, hp, hb⟩ := hs.at (show 4096 * (b + i) < _ by omega)
  constructor
  · rw [h.page, hp, if_neg (by omega)]
  · intro hmod
    rw [h.block, hb, if_neg (by omega)]

/-- What one step of the loop takes away, whichever leaf it finds. -/
private structure Removed (t : S2State) (x : U64) (c4 c2 : Nat) (u : S2State) : Prop extends Extends t u where
  page : ∀ a, u.page a = if pageKey t.start a = pageKey t.start x then none else t.page a
  block : ∀ a, u.block a = if blockKey t.start a = blockKey t.start x ∧ x.toNat % 2 ^ 21 = 0 then none else t.block a
  pages4kb : u.ctx.stats.pages4kb = t.ctx.stats.pages4kb - BitVec.ofNat 64 c4
  pages2mb : u.ctx.stats.pages2mb = t.ctx.stats.pages2mb - BitVec.ofNat 64 c2
  total : u.ctx.stats.totalMapped = t.ctx.stats.totalMapped - BitVec.ofNat 64 (4096 * c4 + 2 ^ 21 * c2)

private theorem sub_zero_count (x : U64) : x - BitVec.ofNat 64 0 = x := by simp

private theorem removed_nothing {x : U64} (sh : Shape t) (hp : t.page x = none) (hb : t.block x = none) :
    Removed t x 0 0 t := by
  refine ⟨(Grows.refl sh).toExtends, fun a => ?_, fun a => ?_, (sub_zero_count _).symm, (sub_zero_count _).symm,
    (sub_zero_count _).symm⟩
  · split
    · rename_i hkey
      rw [page_congr sh hkey, hp]
    · rfl
  · split
    · rename_i hkey
      rw [block_congr sh hkey.1, hb]
    · rfl

/-- Unmapping an address that lies in no leaf that starts before it. -/
private theorem unmapPage_removed {x : U64} (sh : Shape t) (hin : insideLeaf t x = false) :
    (relmStage2UnmapPage t x).1 = .ok () ∧
      Removed t x (t.page x).isSome.toNat (t.block x).isSome.toNat (relmStage2UnmapPage t x).2 := by
  cases unmapPage_spec sh x with
  | absent hleaf hr =>
    have hb : t.block x = none := by
      cases hb : t.block x with
      | none => rfl
      | some e => simp [leaf, hb] at hleaf
    have hp : t.page x = none := by simpa [leaf, hb] using hleaf
    rw [hr, hp, hb]
    exact ⟨rfl, removed_nothing sh hp hb⟩
  | inside l hleaf hbase hr =>
    rw [insideLeaf, walk_spec sh x, hleaf, bne_eq_false_iff_eq] at hin
    exact absurd hin hbase
  | block hblock hbase hret hu =>
    have hp := page_of_block sh hblock
    have hmod : x.toNat % 2 ^ 21 = 0 := by
      obtain ⟨e, -⟩ := Option.ne_none_iff_exists'.mp hblock
      exact (base_iff (.inl rfl) e).mp hbase
    rw [hp, Option.isSome_iff_ne_none.mpr hblock]
    refine ⟨hret, hu.toExtends, fun a => ?_, fun a => ?_, ?_, ?_, ?_⟩
    · rw [hu.page, if_neg fun h => absurd h.1 (by decide)]
      split
      · rename_i hkey
        rw [page_congr sh hkey, hp]
      · rfl
    · rw [hu.block]
      simp only [true_and, hmod, and_true]
    · rw [hu.stats]
      exact (sub_zero_count _).symm
    · rw [hu.stats]
      rfl
    · rw [hu.stats]
      rfl
  | page hblock hpage hbase hret hu =>
    rw [hblock, Option.isSome_iff_ne_none.mpr hpage]
    refine ⟨hret, hu.toExtends, fun a => ?_, fun a => ?_, ?_, ?_, ?_⟩
    · rw [hu.page]
      simp only [true_and]
    · rw [hu.block, if_neg fun h => absurd h.1 (by decide)]
      split
      · rename_i hkey
        rw [block_congr sh hkey.1, hblock]
      · rfl
    · rw [hu.stats]
      rfl
    · rw [hu.stats]
      exact (sub_zero_count _).symm
    · rw [hu.stats]
      rfl

private theorem Cleared.not_inside (h : Cleared s ipa b i t) (hs : Span s ipa b n) (hi : i < n) :
    insideLeaf t (pageAt ipa i) = false := by
  have hfits := hs.fits
  obtain ⟨hat, -, hb⟩ := hs.at (show 4096 * (b + i) < _ by omega)
  by_contra hin
  rw [Bool.not_eq_false, insideLeaf_iff h.shape (by omega), hat] at hin
  obtain ⟨hsome, hmod⟩ := hin
  rw [h.block, hb] at hsome
  split at hsome
  · cases hsome
  · rename_i hout
    rw [hs.no_block (a := pageAt ipa i) (by omega) (by omega) (by omega)] at hsome
    cases hsome

private theorem Cleared.next (h : Cleared s ipa b i t) (hs : Span s ipa b n) (hi : i < n) :
    (unmapStep ipa t i).1 = .ok () ∧ Cleared s ipa b (i + 1) (unmapStep ipa t i).2 := by
  have hfits := hs.fits
  have hst := h.start_eq
  obtain ⟨hat, hp, hb⟩ := hs.at (show 4096 * (b + i) < _ by omega)
  obtain ⟨hpage, hblock⟩ := h.ahead hs hi
  obtain ⟨hret, hr⟩ := unmapPage_removed h.shape (h.not_inside hs hi)
  rw [unmapStep]
  have hpages : pagesIn s ipa (i + 1) = pagesIn s ipa i + (t.page (pageAt ipa i)).isSome.toNat := by
    rw [pagesIn, Nat.count_succ, hpage]
    cases (s.page (pageAt ipa i)).isSome <;> rfl
  have hblocks : blocksIn s ipa b (i + 1) = blocksIn s ipa b i + (t.block (pageAt ipa i)).isSome.toNat := by
    rw [blocksIn, Nat.count_succ]
    by_cases hmod : (b + i) % 512 = 0
    · rw [hblock hmod]
      cases (s.block (pageAt ipa i)).isSome <;> simp [hmod, blocksIn]
    · have hnone : (t.block (pageAt ipa i)).isSome = false := by
        by_contra hsome
        have hin : insideLeaf t (pageAt ipa i) = true := by
          rw [insideLeaf_iff h.shape (by omega), hat]
          exact ⟨(Bool.not_eq_false _).mp hsome, by omega⟩
        rw [h.not_inside hs hi] at hin
        cases hin
      rw [hnone, if_neg fun hc => hmod hc.2]
      rfl
  refine ⟨hret, h.toExtends.trans hr.toExtends, fun a => ?_, fun a => ?_, ?_, ?_, ?_⟩
  · rw [hr.page, hst, hp, h.page]
    by_cases hkey : pageKey s.start a = b + i
    · rw [if_pos hkey, if_pos (by omega)]
    · rw [if_neg hkey]
      exact if_congr (by omega) rfl rfl
  · rw [hr.block, hst, hb, hat, h.block]
    by_cases hkey : blockKey s.start a = (b + i) / 512 ∧ 4096 * (b + i) % 2 ^ 21 = 0
    · rw [if_pos hkey, if_pos (by omega)]
    · rw [if_neg hkey]
      exact if_congr (by omega) rfl rfl
  · rw [hr.pages4kb, h.pages4kb, hpages, BitVec.sub_sub, BitVec.ofNat_add]
  · rw [hr.pages2mb, h.pages2mb, hblocks, BitVec.sub_sub, BitVec.ofNat_add]
  · rw [hr.total, h.total, hpages, hblocks, BitVec.sub_sub, ← BitVec.ofNat_add]
    congr 2
    omega

/-- The loop over a range that starts in no block that began before it. -/
private theorem states_cleared (hs : Span s ipa b n) (hk : k ≤ n) :
    Cleared s ipa b k (states (unmapStep ipa) s k) ∧ ∀ i < k, ¬ Fails (unmapStep ipa) s i := by
  induction k with
  | zero => exact ⟨.refl hs.shape, fun i hi => absurd hi (Nat.not_lt_zero i)⟩
  | succ k ih =>
    obtain ⟨hcleared, hpassed⟩ := ih (by omega)
    obtain ⟨hret, hnext⟩ := hcleared.next hs (by omega)
    refine ⟨hnext, fun i hi => ?_⟩
    rcases Nat.lt_succ_iff_lt_or_eq.mp hi with hlt | rfl
    · exact hpassed i hlt
    · exact not_not.mpr hret

/-- Nothing of the range is mapped any more. -/
private theorem Cleared.inside (h : Cleared s ipa b n t) (hs : Span s ipa b n) (hlo : b ≤ a.toNat / 4096)
    (hhi : a.toNat / 4096 < b + n) : relmStage2GetMapping t a = .error .enoent := by
  have hfits := hs.fits
  have ha : a.toNat < 2 ^ s.ctx.geometry.ipaBits := by omega
  obtain ⟨hp, hb⟩ := keys hs ha
  have hpage : t.page a = none := by rw [h.page, hp, if_pos ⟨hlo, hhi⟩]
  have hblock : t.block a = none := by
    rw [h.block, hb]
    split
    · rfl
    · rename_i hout
      exact hs.no_block ha hlo (by omega)
  rw [getMapping_spec h.shape a, leaf, hblock, hpage]
  rfl

/-- The blocks that start in the range end in it. -/
private def WholeBlocks (s : S2State) (ipa : U64) (b n : Nat) : Prop :=
  ∀ k < n, (s.block (pageAt ipa k)).isSome = true → (b + k) % 512 = 0 → k + 512 ≤ n

private theorem Cleared.outside (h : Cleared s ipa b n t) (hs : Span s ipa b n) (hw : WholeBlocks s ipa b n)
    (ha : a.toNat < 2 ^ s.ctx.geometry.ipaBits) (hout : a.toNat / 4096 < b ∨ b + n ≤ a.toNat / 4096) :
    relmStage2GetMapping t a = relmStage2GetMapping s a := by
  have hfits := hs.fits
  obtain ⟨hp, hb⟩ := keys hs ha
  have hpage : t.page a = s.page a := by rw [h.page, hp, if_neg (by omega)]
  refine getMapping_congr hs.shape h.shape hpage ?_
  rw [h.block, hb]
  split
  · rename_i hin
    by_contra hne
    have hk : b + (512 * (a.toNat / 4096 / 512) - b) = 512 * (a.toNat / 4096 / 512) := by omega
    have hkey : blockKey s.start (pageAt ipa (512 * (a.toNat / 4096 / 512) - b)) = blockKey s.start a := by
      rw [(hs.at (show 4096 * (b + (512 * (a.toNat / 4096 / 512) - b)) < _ by omega)).2.2, hb]
      omega
    have hsome : (s.block (pageAt ipa (512 * (a.toNat / 4096 / 512) - b))).isSome = true := by
      rw [block_congr hs.shape hkey]
      exact Option.isSome_iff_ne_none.mpr fun hc => hne hc.symm
    have hend := hw _ (by omega) hsome (by omega)
    omega
  · rfl

/-- A block that reaches over the end of the range is missing there. -/
private theorem Cleared.whole (h : Cleared s ipa b n t) (hs : Span s ipa b n)
    (hsame : ∀ a : U64, a.toNat = 4096 * (b + n) → a.toNat < 2 ^ s.ctx.geometry.ipaBits →
      relmStage2GetMapping t a = relmStage2GetMapping s a) : WholeBlocks s ipa b n := by
  intro k hk hsome hmod
  by_contra hover
  have hfits := hs.fits
  have hbits := (pow_bits hs.valid).2
  have hlast : 4096 * (b + n) < 2 ^ s.ctx.geometry.ipaBits := by omega
  obtain ⟨hat, hp, hb⟩ := hs.at hlast
  have hkey : blockKey s.start (pageAt ipa n) = blockKey s.start (pageAt ipa k) := by
    rw [hb, (hs.at (show 4096 * (b + k) < _ by omega)).2.2]
    omega
  have hblock : s.block (pageAt ipa n) ≠ none := by
    rw [block_congr hs.shape hkey]
    exact Option.isSome_iff_ne_none.mp hsome
  obtain ⟨e, he⟩ := Option.ne_none_iff_exists'.mp hblock
  have hgone : t.block (pageAt ipa n) = none := by rw [h.block, hb, if_pos (by omega)]
  have hpage : t.page (pageAt ipa n) = none := by
    rw [h.page, hp, if_neg (by omega)]
    exact page_of_block hs.shape hblock
  have heq := hsame (pageAt ipa n) hat (by omega)
  rw [getMapping_spec h.shape, getMapping_spec hs.shape, leaf, leaf, hgone, hpage, he] at heq
  cases heq

/-- The block of a number. -/
private def blockAt (s : S2State) (m : Nat) : Option U64 := s.block (BitVec.ofNat 64 (2 ^ 21 * m))

private theorem Span.block_eq (hs : Span s ipa b n) (ha : a.toNat < 2 ^ s.ctx.geometry.ipaBits) :
    s.block a = blockAt s (a.toNat / 4096 / 512) := by
  have hbits := (pow_bits hs.valid).1
  have hat : (BitVec.ofNat 64 (2 ^ 21 * (a.toNat / 4096 / 512))).toNat = 2 ^ 21 * (a.toNat / 4096 / 512) := by
    rw [BitVec.toNat_ofNat, Nat.mod_eq_of_lt (by omega)]
  refine block_congr hs.shape ?_
  rw [(keys hs ha).2, (keys hs (show (BitVec.ofNat 64 (2 ^ 21 * (a.toNat / 4096 / 512))).toNat < _ by omega)).2, hat]
  omega

private theorem Span.block_at (hs : Span s ipa b n) (hk : 4096 * (b + k) < 2 ^ s.ctx.geometry.ipaBits) :
    s.block (pageAt ipa k) = blockAt s ((b + k) / 512) := by
  have hat := (hs.at hk).1
  rw [hs.block_eq (by omega), hat]
  congr 1
  omega

/-- No mapped block lies across the start of the range, nor across its end. -/
private theorem Span.uncut (hs : Span s ipa b n) (hw : WholeBlocks s ipa b n) {e : Nat} (he : e = 0 ∨ e = n)
    (hsome : (blockAt s ((b + e) / 512)).isSome = true) : (b + e) % 512 = 0 := by
  have hfits := hs.fits
  have hbits := (pow_bits hs.valid).2
  by_contra hmod
  have hlt : 4096 * (b + e) < 2 ^ s.ctx.geometry.ipaBits := by omega
  have hat := (hs.at hlt).1
  rw [← hs.block_at hlt] at hsome
  by_cases hcut : 512 * ((b + e) / 512) < b
  · rw [hs.no_block (a := pageAt ipa e) (by omega) (by omega) (by omega)] at hsome
    cases hsome
  · have hk : b + (512 * ((b + e) / 512) - b) = 512 * ((b + e) / 512) := by omega
    have hfirst : (s.block (pageAt ipa (512 * ((b + e) / 512) - b))).isSome = true := by
      rw [hs.block_at (by omega), hk, Nat.mul_div_cancel_left _ (by decide), ← hs.block_at hlt]
      exact hsome
    have hend := hw _ (by omega) hfirst (by omega)
    omega

/-- The pages of the range that were mapped, by the leaves that mapped them. -/
private theorem count_mapped (hs : Span s ipa b n) (hw : WholeBlocks s ipa b n) :
    Nat.count (fun k => isMapped s (pageAt ipa k) = true) n = pagesIn s ipa n + 512 * blocksIn s ipa b n := by
  have hfits := hs.fits
  have hat : ∀ k < n, s.block (pageAt ipa k) = blockAt s ((b + k) / 512) := fun k hk => hs.block_at (by omega)
  have hstart : (blockAt s (b / 512)).isSome = true → b % 512 = 0 := by
    have hfirst := hs.uncut hw (.inl rfl)
    rwa [Nat.add_zero] at hfirst
  have hend : (blockAt s ((b + n) / 512)).isSome = true → (b + n) % 512 = 0 := hs.uncut hw (.inr rfl)
  have hblocks := count_blocks (p := fun m => (blockAt s m).isSome = true) (show 0 < 512 by decide) n hstart hend
  have hcover : Nat.count (fun k => (s.block (pageAt ipa k)).isSome = true) n = 512 * blocksIn s ipa b n := by
    rw [blocksIn, count_congr n fun k hk => by rw [hat k hk], hblocks]
    congr 1
    exact count_congr n fun k hk => by rw [hat k hk]
  rw [count_congr n fun k _ => isMapped_iff hs.shape, count_or, hcover, pagesIn]
  intro k _ hpage hblock
  rw [page_of_block hs.shape (Option.isSome_iff_ne_none.mp hblock)] at hpage
  cases hpage

private theorem Span.starts_iff (hs : Span s ipa b n) (hk : k < n) :
    leafStartsAt s 2 (pageAt ipa k) = true ↔ (s.block (pageAt ipa k)).isSome = true ∧ (b + k) % 512 = 0 := by
  have hfits := hs.fits
  rw [leafStartsAt_block hs.shape, (hs.at (show 4096 * (b + k) < _ by omega)).1]
  exact and_congr_right fun _ => by omega

/-- The counters and the lookups after the loop are those of the claim if the blocks are whole, and not otherwise. -/
private theorem Cleared.exact_iff {size : U64} (h : Cleared s ipa b n t) (hs : Span s ipa b n)
    (hsize : size.toNat = 4096 * n) : UnmapsExactly s ipa size t ↔ WholeBlocks s ipa b n := by
  have hfirst := hs.first
  have hfits := hs.fits
  have hcount : size.toNat / 4096 = n := by omega
  constructor
  · intro hexact
    exact h.whole hs fun a hat ha => hexact.outside a ha (by omega)
  · intro hw
    have hpages : pagesIn s ipa n = Nat.count (fun k => leafStartsAt s 3 (pageAt ipa k) = true) n := by
      refine count_congr n fun k hk => (leafStartsAt_page hs.shape ?_).symm
      rw [(hs.at (by omega)).1]
      omega
    have hblocks : blocksIn s ipa b n = Nat.count (fun k => leafStartsAt s 2 (pageAt ipa k) = true) n :=
      count_congr n fun k hk => (hs.starts_iff hk).symm
    refine ⟨fun a hlo hhi => h.inside hs (by omega) (by omega), fun a ha hout => h.outside hs hw ha (by omega), ?_, ?_, ?_⟩
    · rw [h.pages4kb, hcount, hpages]
    · rw [h.pages2mb, hcount, hblocks]
    · rw [h.total, hcount, count_mapped hs hw]
      congr 2
      omega

/-- Whole blocks, in terms of addresses. -/
private theorem wholeBlocks_iff {size : U64} (hs : Span s ipa b n) (hsize : size.toNat = 4096 * n) :
    WholeBlocks s ipa b n ↔ ∀ k < n, leafStartsAt s 2 (pageAt ipa k) = true →
      (pageAt ipa k).toNat + 2 ^ 21 ≤ ipa.toNat + size.toNat := by
  have hfirst := hs.first
  have hfits := hs.fits
  refine forall_congr' fun k => forall_congr' fun hk => ?_
  rw [hs.starts_iff hk, and_imp, (hs.at (show 4096 * (b + k) < _ by omega)).1]
  exact forall_congr' fun _ => forall_congr' fun _ => by omega

end Loop

private theorem unmapFrom_eq (ipa : U64) (left i : Nat) (s : S2State) : s2UnmapFrom ipa left i s =
    ((loop (unmapStep ipa) left i s).1, (loop (unmapStep ipa) left i s).2.2) := by
  induction left generalizing i s with
  | zero => rfl
  | succ left ih =>
    have hstep : relmStage2UnmapPage s (ipa + BitVec.ofNat 64 i * s2PageSize4kb) = unmapStep ipa s i := rfl
    rw [s2UnmapFrom, loop, hstep]
    generalize unmapStep ipa s i = r
    obtain ⟨ret, t⟩ := r
    cases ret with
    | error e => rfl
    | ok u => exact ih (i + 1) t

/-- A range that starts inside a block is refused. -/
private theorem unmapStep_inside {s : S2State} {ipa : U64} (h : insideLeaf s ipa = true) :
    Fails (unmapStep ipa) s 0 := by
  change (unmapStep ipa s 0).1 ≠ .ok ()
  rw [unmapStep, pageAt_zero, relmStage2UnmapPage]
  rw [insideLeaf] at h
  cases hwalk : s2Walk s ipa with
  | error e =>
    rw [hwalk] at h
    cases h
  | ok l =>
    rw [hwalk] at h
    dsimp only at h ⊢
    rw [if_pos h]
    exact fun hc => by cases hc

section Call

variable {s : S2State} {ipa size : U64}

/-- The call on pages of the geometry is the loop over them. -/
private theorem unmapRange_eq (hs : Sound s) (hipa : ipa.toNat % 4096 = 0) (hsize : size.toNat % 4096 = 0)
    (hfits : ipa.toNat + size.toNat ≤ 2 ^ s.ctx.geometry.ipaBits) (hpos : 0 < size.toNat) :
    relmStage2UnmapRange s ipa size =
      ((loop (unmapStep ipa) (size.toNat / 4096) 0 s).1, (loop (unmapStep ipa) (size.toNat / 4096) 0 s).2.2) := by
  have hbits := (pow_bits hs.valid).1
  have hzero : size ≠ 0 := fun h => absurd hpos (by rw [h]; decide)
  have hcount : (size / s2PageSize4kb).toNat = size.toNat / 4096 := by
    rw [BitVec.toNat_udiv, show s2PageSize4kb.toNat = 4096 by decide]
  have hless : ipa < ipa + size := by
    rw [BitVec.lt_def, toNat_add_eq rfl rfl (by omega)]
    omega
  rw [relmStage2UnmapRange, (pageAligned_iff ipa).mpr hipa, (pageAligned_iff size).mpr hsize, if_neg (by simpa using hzero),
    if_pos hless, hcount, unmapFrom_eq]

private theorem span_of_outside (hs : Sound s) (hipa : ipa.toNat % 4096 = 0)
    (hfits : ipa.toNat + size.toNat ≤ 2 ^ s.ctx.geometry.ipaBits) (hin : insideLeaf s ipa = false) :
    Span s ipa (ipa.toNat / 4096) (size.toNat / 4096) := ⟨hs, by omega, by omega, hin⟩

/-- A range that starts inside no block is unmapped without an error. -/
private theorem unmapRange_ok (hs : Sound s) (hipa : ipa.toNat % 4096 = 0) (hsize : size.toNat % 4096 = 0)
    (hfits : ipa.toNat + size.toNat ≤ 2 ^ s.ctx.geometry.ipaBits) (hpos : 0 < size.toNat)
    (hin : insideLeaf s ipa = false) : ∃ t, relmStage2UnmapRange s ipa size = (.ok (), t) := by
  rw [unmapRange_eq hs hipa hsize hfits hpos]
  obtain ⟨-, hpassed⟩ := states_cleared (span_of_outside hs hipa hfits hin) le_rfl
  have hend := loop_ended (unmapStep ipa) s (size.toNat / 4096)
  generalize loop (unmapStep ipa) (size.toNat / 4096) 0 s = r at hend ⊢
  cases hend with
  | stopped e j hj fails _ => exact absurd fails (hpassed j hj)
  | finished _ => exact ⟨_, rfl⟩

end Call

/-- Unmapping a range of the geometry takes out its pages and nothing else exactly when it is refused for starting
inside a block, or every block that starts in the range ends in it. -/
theorem stage2_unmap_range_exact_iff {s : S2State} {ipa size : U64} (hs : Sound s) (hipa : ipa.toNat % 4096 = 0)
    (hsize : size.toNat % 4096 = 0) (hfits : ipa.toNat + size.toNat ≤ 2 ^ s.ctx.geometry.ipaBits) :
    ((relmStage2UnmapRange s ipa size).1 = .ok () →
        UnmapsExactly s ipa size (relmStage2UnmapRange s ipa size).2) ↔
      (insideLeaf s ipa = true ∨ ∀ k < size.toNat / 4096, leafStartsAt s 2 (pageAt ipa k) = true →
        (pageAt ipa k).toNat + 2 ^ 21 ≤ ipa.toNat + size.toNat) := by
  by_cases hzero : size = 0
  · rw [hzero, relmStage2UnmapRange]
    exact iff_of_true (fun h => by cases h) (.inr fun k hk => absurd hk (Nat.not_lt_zero k))
  have hpos : 0 < size.toNat := Nat.pos_of_ne_zero fun h => hzero (BitVec.toNat_inj.mp h)
  rw [unmapRange_eq hs hipa hsize hfits hpos]
  have hend := loop_ended (unmapStep ipa) s (size.toNat / 4096)
  generalize loop (unmapStep ipa) (size.toNat / 4096) 0 s = r at hend ⊢
  cases hin : insideLeaf s ipa with
  | true =>
    refine iff_of_true (fun hok => ?_) (.inl rfl)
    cases hend with
    | stopped e j _ _ _ => cases hok
    | finished passed => exact absurd (unmapStep_inside hin) (passed 0 (by omega))
  | false =>
    have hspan := span_of_outside hs hipa hfits hin
    obtain ⟨hcleared, hpassed⟩ := states_cleared hspan le_rfl
    cases hend with
    | stopped e j hj fails _ => exact absurd fails (hpassed j hj)
    | finished _ =>
      have hpages : size.toNat = 4096 * (size.toNat / 4096) := by omega
      rw [hcleared.exact_iff hspan hpages, wholeBlocks_iff hspan hpages]
      exact ⟨fun h => .inr (h rfl), fun h _ => h.resolve_left Bool.false_ne_true⟩

private def blockGeometry : Geometry := ⟨39, 40, 1, 8⟩

private def blockHost : Host :=
  { Host.idle [some 0x1000#64, some 0x2000#64, some 0x3000#64] [true] with
    managed := fun f => decide (f.toNat < 2 ^ 48) }

private def oneBlock : List S2Call := [.mapHugePage 0x200000#64 0x400000#64 s2AccessMask]

private def blockBesidePage : List S2Call :=
  [.mapHugePage 0x200000#64 0x400000#64 s2AccessMask, .mapPage 0x400000#64 0x900000#64 s2AccessMask]

/-- A block is taken out by a range of its length, and the page behind it stays. -/
theorem stage2_unmap_range_exact_iff_beside : ∃ ctx h' t,
    relmStage2ContextCreate (some blockGeometry) blockHost blockGeometry 1#16 = (.ok ctx, h') ∧
    Sound (run S2Call.exec ⟨h', ctx⟩ blockBesidePage).2 ∧
    relmStage2GetMapping (run S2Call.exec ⟨h', ctx⟩ blockBesidePage).2 0x201000#64 = .ok 0x401000#64 ∧
    relmStage2UnmapRange (run S2Call.exec ⟨h', ctx⟩ blockBesidePage).2 0x200000#64 0x200000#64 = (.ok (), t) ∧
    UnmapsExactly (run S2Call.exec ⟨h', ctx⟩ blockBesidePage).2 0x200000#64 0x200000#64 t ∧
    relmStage2GetMapping t 0x201000#64 = .error .enoent ∧ relmStage2GetMapping t 0x400000#64 = .ok 0x900000#64 := by
  have hm : ∀ f, blockHost.managed f = true → f.toNat < 2 ^ 48 := fun f hf => of_decide_eq_true hf
  have hsound := sound_of_run hm
    (show relmStage2ContextCreate (some blockGeometry) blockHost blockGeometry 1#16 = _ from rfl)
    (show ∀ c ∈ blockBesidePage, c.BlockFlags by decide)
  obtain ⟨t, hcall⟩ := unmapRange_ok hsound (show (0x200000#64).toNat % 4096 = 0 by decide)
    (show (0x200000#64).toNat % 4096 = 0 by decide) (by decide) (by decide) rfl
  have hexact := (stage2_unmap_range_exact_iff hsound (by decide) (by decide) (by decide)).mpr
    (.inr fun k hk hstart => ?_) (congrArg Prod.fst hcall)
  · rw [hcall] at hexact
    refine ⟨_, _, t, rfl, hsound, rfl, hcall, hexact, hexact.inside _ (by decide) (by decide), ?_⟩
    rw [hexact.outside _ (by decide) (by decide)]
    rfl
  · have hbase : (0x200000#64).toNat = 0x200000 := rfl
    have hlen : k < 512 := hk
    have hat : (pageAt 0x200000#64 k).toNat = (0x200000#64).toNat + 4096 * k := pageAt_toNat (by omega)
    have hmod := ((leafStartsAt_block hsound.shape).mp hstart).2
    rw [hat] at hmod ⊢
    omega

/-- One page of a block is named, and the whole block goes. -/
theorem unmap_range_takes_block : ∃ ctx h',
    relmStage2ContextCreate (some blockGeometry) blockHost blockGeometry 1#16 = (.ok ctx, h') ∧
    relmStage2GetMapping (run S2Call.exec ⟨h', ctx⟩ oneBlock).2 0x201000#64 = .ok 0x401000#64 ∧
    (relmStage2UnmapRange (run S2Call.exec ⟨h', ctx⟩ oneBlock).2 0x200000#64 0x1000#64).1 = .ok () ∧
    relmStage2GetMapping (relmStage2UnmapRange (run S2Call.exec ⟨h', ctx⟩ oneBlock).2 0x200000#64 0x1000#64).2
      0x201000#64 = .error .enoent := by
  refine ⟨_, _, rfl, ?_, ?_, ?_⟩ <;> rfl

end Relm.Arm64
