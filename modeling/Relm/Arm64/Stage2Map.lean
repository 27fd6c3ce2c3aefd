import Relm.Arm64.Stage2Operations
import Relm.Lib.Run

/-! A stage-2 context as a finite map with pages of two sizes, over every run of mapping and unmapping calls in which no
page is put inside a block, no block over a table, and no address above the geometry is unmapped through an alias. -/
namespace Relm.Arm64
open Relm.Lib.Run Relm.Lib.Word
open S2State

/-- The calls of a run. -/
inductive S2Call
  | mapPage (ipa pa flags : U64)
  | mapHugePage (ipa pa flags : U64)
  | unmapPage (ipa : U64)

namespace S2Call

def ipa : S2Call → U64
  | mapPage ipa _ _ => ipa
  | mapHugePage ipa _ _ => ipa
  | unmapPage ipa => ipa

def exec (s : S2State) : S2Call → Except Errno Unit × S2State
  | mapPage ipa pa flags => relmStage2MapPage s ipa pa flags
  | mapHugePage ipa pa flags => relmStage2MapHugePage s ipa pa flags
  | unmapPage ipa => relmStage2UnmapPage s ipa

/-- Flags within `S2_LEAF_FLAGS_MASK`. -/
def Admissible : S2Call → Prop
  | mapPage _ _ flags => LeafFlags flags
  | mapHugePage _ _ flags => LeafFlags flags
  | unmapPage _ => True

instance : DecidablePred Admissible
  | mapPage _ _ flags => inferInstanceAs (Decidable (LeafFlags flags))
  | mapHugePage _ _ flags => inferInstanceAs (Decidable (LeafFlags flags))
  | unmapPage _ => inferInstanceAs (Decidable True)

end S2Call

/-- Is there a leaf that the walk takes to start at the address? -/
def leafStarts (s : S2State) (ipa : U64) : Bool :=
  match s2Walk s ipa with
  | .ok l => l.base == ipa
  | .error _ => false

/-- A call that replaces no leaf or table by one of the other size, and unmaps nothing through an alias. -/
def S2Call.Safe (s : S2State) : S2Call → Prop
  | mapPage ipa pa flags =>
    Accepted s.ctx.geometry ipa pa flags 3 → s.block ipa = none ∨ s.host.getFreePage.1 = none
  | mapHugePage ipa pa flags =>
    (ipa ||| pa) &&& (s2PageSize2mb - 1) = 0 → Accepted s.ctx.geometry ipa pa flags 2 → s.tableAt 3 ipa = none
  | unmapPage ipa => ipa.toNat < 2 ^ s.ctx.geometry.ipaBits ∨ leafStarts s ipa = false

instance (s : S2State) : DecidablePred (S2Call.Safe s)
  | .mapPage _ _ _ => inferInstanceAs (Decidable (_ → _))
  | .mapHugePage _ _ _ => inferInstanceAs (Decidable (_ → _))
  | .unmapPage _ => inferInstanceAs (Decidable (_ ∨ _))

/-- The abstract map: the address behind each mapped 4 KiB page number and each mapped 2 MiB block number. -/
structure S2Map where
  pages : Nat → Option U64
  blocks : Nat → Option U64

namespace S2Map

def empty : S2Map := ⟨fun _ => none, fun _ => none⟩

/-- What a call that was answered in a given way means. A block hides the pages mapped before it in its range;
unmapping takes the page of the address, or else its block. -/
def after (m : S2Map) : S2Call × Except Errno Unit → S2Map
  | (.mapPage ipa pa _, .ok _) => { m with pages := Function.update m.pages (ipa.toNat / 4096) (some pa) }
  | (.mapHugePage ipa pa _, .ok _) =>
    { pages := fun n => if n / 512 = ipa.toNat / 2 ^ 21 then none else m.pages n
      blocks := Function.update m.blocks (ipa.toNat / 2 ^ 21) (some pa) }
  | (.unmapPage ipa, .ok _) =>
    if (m.pages (ipa.toNat / 4096)).isSome then { m with pages := Function.update m.pages (ipa.toNat / 4096) none }
    else { m with blocks := Function.update m.blocks (ipa.toNat / 2 ^ 21) none }
  | (_, .error _) => m

/-- The live mappings after the calls of a trace. -/
def replay (tr : List (S2Call × Except Errno Unit)) : S2Map := tr.foldl after empty

/-- The most recent live mapping that covers an address: a page inside a block is the newer of the two. -/
def lookup (m : S2Map) (a : Nat) : Except Errno U64 :=
  match m.pages (a / 4096) with
  | some pa => .ok (pa + BitVec.ofNat 64 (a % 4096))
  | none =>
    match m.blocks (a / 2 ^ 21) with
    | some pa => .ok (pa + BitVec.ofNat 64 (a % 2 ^ 21))
    | none => .error .enoent

/-- The number of mapped pages. -/
noncomputable def pageCount (m : S2Map) : Nat := {n | (m.pages n).isSome = true}.ncard
/-- The number of mapped blocks. -/
noncomputable def blockCount (m : S2Map) : Nat := {n | (m.blocks n).isSome = true}.ncard

/-- The length of the range that a call names. -/
def rangeSize (m : S2Map) : S2Call → Nat
  | .mapPage _ _ _ => 4096
  | .mapHugePage _ _ _ => 2 ^ 21
  | .unmapPage ipa => if (m.blocks (ipa.toNat / 2 ^ 21)).isSome then 2 ^ 21 else 4096

/-- An address outside the range that a call names. -/
def Outside (m : S2Map) (c : S2Call) (a : U64) : Prop := a.toNat < c.ipa.toNat ∨ c.ipa.toNat + m.rangeSize c ≤ a.toNat

/-- What the map promises about a state: every lookup, what a further call may change, and the counters. An address
above the geometry is walked as the address its low bits make. -/
structure Describes (m : S2Map) (s : S2State) : Prop where
  lookup : ∀ a : U64, relmStage2GetMapping s a = m.lookup a.toNat ↔
    a.toNat < 2 ^ s.ctx.geometry.ipaBits ∨ m.lookup (walked s.start a) = .error .enoent
  failed : ∀ c : S2Call, c.Admissible → c.Safe s → ∀ e, (c.exec s).1 = .error e →
    ∀ a, relmStage2GetMapping (c.exec s).2 a = relmStage2GetMapping s a
  others : ∀ c : S2Call, c.Admissible → c.Safe s → ∀ a : U64, a.toNat < 2 ^ s.ctx.geometry.ipaBits → m.Outside c a →
    relmStage2GetMapping (c.exec s).2 a = relmStage2GetMapping s a
  high : ∀ c : S2Call, c.Admissible → c.Safe s → 2 ^ s.ctx.geometry.ipaBits ≤ c.ipa.toNat →
    ∀ a, relmStage2GetMapping (c.exec s).2 a = relmStage2GetMapping s a
  pages : s.ctx.stats.pages4kb.toNat = m.pageCount
  blocks : s.ctx.stats.pages2mb.toNat = m.blockCount
  bytes : s.ctx.stats.totalMapped.toNat = 4096 * m.pageCount + 2 ^ 21 * m.blockCount

end S2Map

/-- The counters of a context count the map. -/
structure Counted (stats : S2Stats) (m : S2Map) : Prop where
  pages : stats.pages4kb.toNat = m.pageCount
  blocks : stats.pages2mb.toNat = m.blockCount
  bytes : stats.totalMapped.toNat = 4096 * m.pageCount + 2 ^ 21 * m.blockCount

/-- The concrete state and the abstract map hold the same leaves. -/
structure Refines (s : S2State) (m : S2Map) : Prop where
  shape : Shape s
  valid : s2GeometryValid s.ctx.geometry = true
  page : ∀ a, (s.page a).map (· &&& s2PageAddrMask) = m.pages (pageKey s.start a)
  block : ∀ a, (s.block a).map (· &&& s2PageAddrMask) = m.blocks (blockKey s.start a)
  pagesBelow : ∀ n, m.pages n ≠ none → 4096 * n < 2 ^ s.ctx.geometry.ipaBits
  blocksBelow : ∀ n, m.blocks n ≠ none → 2 ^ 21 * n < 2 ^ s.ctx.geometry.ipaBits
  pageAddr : ∀ n pa, m.pages n = some pa → pa.toNat % 4096 = 0
  blockAddr : ∀ n pa, m.blocks n = some pa → pa.toNat % 2 ^ 21 = 0
  counted : Counted s.ctx.stats m

namespace Refines

variable {s t : S2State} {m : S2Map} {ipa pa flags : U64}

/-- An aligned address keeps its value when the walk masks it to the leaf size. -/
private theorem mask_aligned {level : Nat} (hl : level = 2 ∨ level = 3) (h : pa.toNat % 2 ^ s2Shift level = 0) :
    pa &&& ~~~(s2LevelSize level - 1) = pa := by
  have hdiv := Nat.div_add_mod' pa.toNat (2 ^ s2Shift level)
  rw [← BitVec.toNat_inj, base_toNat hl]
  omega

private theorem walked_mod {start : Nat} (hs : start ≤ 1) (a : U64) {k : Nat} (hk : k ≤ 21) :
    walked start a % 2 ^ k = a.toNat % 2 ^ k := by
  rw [walked]
  exact Nat.mod_mod_of_dvd _ (Nat.pow_dvd_pow 2 (by rw [walkBits]; omega))

/-- Every lookup is the map's at the address that is walked. -/
theorem getMapping_eq (h : Refines s m) (a : U64) : relmStage2GetMapping s a = m.lookup (walked s.start a) := by
  have hp : _ = m.pages (walked s.start a / 4096) := h.page a
  have hb : _ = m.blocks (walked s.start a / 2 ^ 21) := h.block a
  rw [getMapping_spec h.shape a, leaf, S2Map.lookup]
  cases hblk : s.block a with
  | some e =>
    have hnone : s.page a = none := page_of_block h.shape (by rw [hblk]; simp)
    rw [hnone, Option.map_none] at hp
    rw [hblk, Option.map_some] at hb
    have haligned := h.blockAddr _ _ hb.symm
    rw [← hp, ← hb]
    have hoff : a - (a &&& ~~~(s2LevelSize 2 - 1)) = BitVec.ofNat 64 (walked s.start a % 2 ^ 21) := by
      rw [offset_eq (.inl rfl), walked_mod h.shape.start a le_rfl]
      rfl
    simp only [leafInfo, hoff, mask_aligned (.inl rfl) haligned]
  | none =>
    rw [hblk, Option.map_none] at hb
    cases hpg : s.page a with
    | none =>
      rw [hpg, Option.map_none] at hp
      rw [← hp, ← hb]
      rfl
    | some e =>
      rw [hpg, Option.map_some] at hp
      have haligned := h.pageAddr _ _ hp.symm
      rw [← hp]
      have hoff : a - (a &&& ~~~(s2LevelSize 3 - 1)) = BitVec.ofNat 64 (walked s.start a % 4096) := by
        rw [offset_eq (.inr rfl), show (4096 : Nat) = 2 ^ 12 from rfl, walked_mod h.shape.start a (by decide)]
        rfl
      simp only [Option.map_some, leafInfo, hoff, mask_aligned (.inr rfl) haligned]

theorem walked_eq (h : Refines s m) {a : U64} (ha : a.toNat < 2 ^ s.ctx.geometry.ipaBits) : walked s.start a = a.toNat :=
  walked_of_lt h.valid ha

/-- The map has nothing above the geometry. -/
theorem high_none (h : Refines s m) {a : Nat} (ha : 2 ^ s.ctx.geometry.ipaBits ≤ a) :
    m.pages (a / 4096) = none ∧ m.blocks (a / 2 ^ 21) = none := by
  obtain ⟨hlo, -, -, -, -⟩ := geometry_bounds h.valid
  obtain ⟨k, hk⟩ : ∃ k, 2 ^ s.ctx.geometry.ipaBits = 2 ^ 21 * k := by
    refine ⟨2 ^ (s.ctx.geometry.ipaBits - 21), ?_⟩
    rw [← Nat.pow_add]
    congr 1
    omega
  constructor
  · by_contra hne
    have hlt := h.pagesBelow _ hne
    rw [hk] at hlt ha
    omega
  · by_contra hne
    have hlt := h.blocksBelow _ hne
    rw [hk] at hlt ha
    omega

theorem lookup_iff (h : Refines s m) (a : U64) : relmStage2GetMapping s a = m.lookup a.toNat ↔
    a.toNat < 2 ^ s.ctx.geometry.ipaBits ∨ m.lookup (walked s.start a) = .error .enoent := by
  rw [h.getMapping_eq a]
  by_cases ha : a.toNat < 2 ^ s.ctx.geometry.ipaBits
  · simp only [h.walked_eq ha, ha, true_or]
  · obtain ⟨hp, hb⟩ := h.high_none (Nat.le_of_not_lt ha)
    have hnone : m.lookup a.toNat = .error .enoent := by
      rw [S2Map.lookup, hp, hb]
    simp only [hnone, ha, false_or]

/-- Tables alone may change. -/
theorem grows (h : Refines s m) (hg : Grows s t) : Refines t m := by
  have hgeo := hg.geometry
  have hst := hg.start_eq
  refine ⟨hg.shape, hgeo ▸ h.valid, fun a => ?_, fun a => ?_, hgeo ▸ h.pagesBelow, hgeo ▸ h.blocksBelow, h.pageAddr,
    h.blockAddr, hg.stats ▸ h.counted⟩
  · rw [hg.page a, hst, h.page a]
  · rw [hg.block a, hst, h.block a]

/-- The key of a page of the geometry, and an address that has it. -/
theorem exists_page (h : Refines s m) {n : Nat} (hn : 4096 * n < 2 ^ s.ctx.geometry.ipaBits) :
    ∃ a : U64, a.toNat = 4096 * n ∧ pageKey s.start a = n ∧ blockKey s.start a = n / 512 := by
  obtain ⟨-, hhi, -, -, -⟩ := geometry_bounds h.valid
  have hpow : 2 ^ s.ctx.geometry.ipaBits ≤ 2 ^ 48 := Nat.pow_le_pow_right (by decide) hhi
  have hnat : (BitVec.ofNat 64 (4096 * n)).toNat = 4096 * n := by
    rw [BitVec.toNat_ofNat, Nat.mod_eq_of_lt (by omega)]
  have hw : walked s.start (BitVec.ofNat 64 (4096 * n)) = 4096 * n := by
    rw [h.walked_eq (by omega), hnat]
  refine ⟨_, hnat, ?_, ?_⟩
  · rw [pageKey, hw]
    omega
  · rw [blockKey, hw]
    omega

theorem page_lt (h : Refines s m) (n : Nat) (hn : (m.pages n).isSome = true) : n < 2 ^ 36 := by
  obtain ⟨-, hhi, -, -, -⟩ := geometry_bounds h.valid
  have hpow : 2 ^ s.ctx.geometry.ipaBits ≤ 2 ^ 48 := Nat.pow_le_pow_right (by decide) hhi
  have hlt := h.pagesBelow n (Option.isSome_iff_ne_none.mp hn)
  omega

theorem block_lt (h : Refines s m) (n : Nat) (hn : (m.blocks n).isSome = true) : n < 2 ^ 27 := by
  obtain ⟨-, hhi, -, -, -⟩ := geometry_bounds h.valid
  have hpow : 2 ^ s.ctx.geometry.ipaBits ≤ 2 ^ 48 := Nat.pow_le_pow_right (by decide) hhi
  have hlt := h.blocksBelow n (Option.isSome_iff_ne_none.mp hn)
  omega

section Counts

variable {m' : S2Map} {level : Nat}

private theorem one_toNat : (1 : U64).toNat = 1 := rfl

/-- Counting a leaf in. -/
private theorem counted_more (hc : Counted s.ctx.stats m) (hl : level = 2 ∨ level = 3)
    (hp : m'.pageCount = m.pageCount + if level = 3 then 1 else 0)
    (hb : m'.blockCount = m.blockCount + if level = 2 then 1 else 0) (hple : m.pageCount ≤ 2 ^ 36)
    (hble : m.blockCount ≤ 2 ^ 27) : Counted (s.count level).ctx.stats m' := by
  have hbytes := toNat_add_eq hc.bytes (levelSize_toNat hl) (by rcases hl with rfl | rfl <;> rw [s2Shift] <;> omega)
  rcases hl with rfl | rfl
  · refine ⟨hc.pages.trans hp.symm, ?_, hbytes.trans ?_⟩
    · exact (toNat_add_eq hc.blocks one_toNat (by omega)).trans hb.symm
    · simp only [s2Shift, if_true, show ¬ (2 = 3) by decide, if_false] at hp hb ⊢
      omega
  · refine ⟨?_, hc.blocks.trans hb.symm, hbytes.trans ?_⟩
    · exact (toNat_add_eq hc.pages one_toNat (by omega)).trans hp.symm
    · simp only [s2Shift, if_true, show ¬ (3 = 2) by decide, if_false] at hp hb ⊢
      omega

/-- Counting a leaf out. -/
private theorem counted_less (hc : Counted s.ctx.stats m) (hl : level = 2 ∨ level = 3)
    (hp : m.pageCount = m'.pageCount + if level = 3 then 1 else 0)
    (hb : m.blockCount = m'.blockCount + if level = 2 then 1 else 0) :
    Counted (s.uncount level (s2LevelSize level)).ctx.stats m' := by
  rcases hl with rfl | rfl
  · simp only [if_true, show ¬ (2 = 3) by decide, if_false] at hp hb
    have hbytes := toNat_sub_eq hc.bytes (levelSize_toNat (.inl rfl)) (by rw [s2Shift]; omega)
    refine ⟨hc.pages.trans hp, ?_, hbytes.trans ?_⟩
    · exact (toNat_sub_eq hc.blocks one_toNat (by omega)).trans (by omega)
    · rw [s2Shift]
      omega
  · simp only [if_true, show ¬ (3 = 2) by decide, if_false] at hp hb
    have hbytes := toNat_sub_eq hc.bytes (levelSize_toNat (.inr rfl)) (by rw [s2Shift]; omega)
    refine ⟨?_, hc.blocks.trans hb, hbytes.trans ?_⟩
    · exact (toNat_sub_eq hc.pages one_toNat (by omega)).trans (by omega)
    · rw [s2Shift]
      omega

end Counts

section Replace

variable {k : Nat} {o : Option U64}

/-- One page replaced refines one page of the map replaced. -/
private theorem replacePage (h : Refines s m) (hx : Extends s t) (hk : 4096 * k < 2 ^ s.ctx.geometry.ipaBits)
    (hpage : ∀ a, (t.page a).map (· &&& s2PageAddrMask) = Function.update m.pages k o (pageKey s.start a))
    (hblock : ∀ a, t.block a = s.block a) (ho : ∀ pa, o = some pa → pa.toNat % 4096 = 0)
    (hc : Counted t.ctx.stats { m with pages := Function.update m.pages k o }) :
    Refines t { m with pages := Function.update m.pages k o } := by
  have hgeo := hx.geometry
  have hst := hx.start_eq
  refine ⟨hx.shape, hgeo ▸ h.valid, fun a => ?_, fun a => ?_, ?_, hgeo ▸ h.blocksBelow, ?_, h.blockAddr, hc⟩
  · rw [hpage a, hst]
  · rw [hblock a, hst, h.block a]
  · rw [hgeo]
    exact (Function.forall_update_iff m.pages fun n o => o ≠ none → 4096 * n < 2 ^ s.ctx.geometry.ipaBits).mpr
      ⟨fun _ => hk, fun n _ => h.pagesBelow n⟩
  · exact (Function.forall_update_iff m.pages fun _ o => ∀ pa : U64, o = some pa → pa.toNat % 4096 = 0).mpr
      ⟨ho, fun n _ => h.pageAddr n⟩

private theorem replaceBlock (h : Refines s m) (hx : Extends s t) (hk : 2 ^ 21 * k < 2 ^ s.ctx.geometry.ipaBits)
    (hpage : ∀ a, t.page a = s.page a)
    (hblock : ∀ a, (t.block a).map (· &&& s2PageAddrMask) = Function.update m.blocks k o (blockKey s.start a))
    (ho : ∀ pa, o = some pa → pa.toNat % 2 ^ 21 = 0)
    (hc : Counted t.ctx.stats { m with blocks := Function.update m.blocks k o }) :
    Refines t { m with blocks := Function.update m.blocks k o } := by
  have hgeo := hx.geometry
  have hst := hx.start_eq
  refine ⟨hx.shape, hgeo ▸ h.valid, fun a => ?_, fun a => ?_, hgeo ▸ h.pagesBelow, ?_, h.pageAddr, ?_, hc⟩
  · rw [hpage a, hst, h.page a]
  · rw [hblock a, hst]
  · rw [hgeo]
    exact (Function.forall_update_iff m.blocks fun n o => o ≠ none → 2 ^ 21 * n < 2 ^ s.ctx.geometry.ipaBits).mpr
      ⟨fun _ => hk, fun n _ => h.blocksBelow n⟩
  · exact (Function.forall_update_iff m.blocks fun _ o => ∀ pa : U64, o = some pa → pa.toNat % 2 ^ 21 = 0).mpr
      ⟨ho, fun n _ => h.blockAddr n⟩

end Replace

/-- What the checks say of the addresses. -/
private theorem accepted_bounds (h : Refines s m) {level : Nat} (hl : level = 2 ∨ level = 3)
    (ha : Accepted s.ctx.geometry ipa pa flags level) :
    ipa.toNat + 2 ^ s2Shift level ≤ 2 ^ s.ctx.geometry.ipaBits ∧ ipa.toNat < 2 ^ s.ctx.geometry.ipaBits ∧ Nameable pa := by
  obtain ⟨-, hhi, hpa, -, -⟩ := geometry_bounds h.valid
  obtain ⟨-, hfit, hlt⟩ := (rangeFits_iff hhi).mp ha.ipaFits
  obtain ⟨-, -, hplt⟩ := (rangeFits_iff hpa).mp ha.paFits
  have hpow : 2 ^ s.ctx.geometry.paBits ≤ 2 ^ 48 := Nat.pow_le_pow_right (by decide) hpa
  rw [levelSize_toNat hl] at hfit
  exact ⟨hfit, hlt, (pageAligned_iff pa).mp ha.paAligned, by omega⟩

private theorem block_key_lt (h : Refines s m) (hlt : ipa.toNat < 2 ^ s.ctx.geometry.ipaBits) : ipa.toNat / 2 ^ 21 < 2 ^ 27 := by
  obtain ⟨-, hhi, -, -, -⟩ := geometry_bounds h.valid
  have hpow : 2 ^ s.ctx.geometry.ipaBits ≤ 2 ^ 48 := Nat.pow_le_pow_right (by decide) hhi
  omega

private theorem page_key_lt (h : Refines s m) (hlt : ipa.toNat < 2 ^ s.ctx.geometry.ipaBits) : ipa.toNat / 4096 < 2 ^ 36 := by
  obtain ⟨-, hhi, -, -, -⟩ := geometry_bounds h.valid
  have hpow : 2 ^ s.ctx.geometry.ipaBits ≤ 2 ^ 48 := Nat.pow_le_pow_right (by decide) hhi
  omega

private theorem mappedPage (h : Refines s m) (hf : LeafFlags flags) (ha : Accepted s.ctx.geometry ipa pa flags 3)
    (hm : Mapped s ipa 3 (s2LeafEntry pa flags 3) t) :
    Refines t { m with pages := Function.update m.pages (ipa.toNat / 4096) (some pa) } := by
  obtain ⟨-, hlt, hname⟩ := h.accepted_bounds (.inr rfl) ha
  have hkey : pageKey s.start ipa = ipa.toNat / 4096 := by rw [pageKey, h.walked_eq hlt]
  have hold : (s.leafAtLevel 3 ipa).isSome = (m.pages (ipa.toNat / 4096)).isSome := by
    rw [leafAtLevel, if_pos rfl, ← hkey, ← h.page ipa, Option.isSome_map]
  have hcount := ncard_isSome_update (some pa) h.page_lt (h.page_key_lt hlt)
  refine h.replacePage hm.toExtends (by omega) (fun a => ?_) (fun a => ?_) ?_ ?_
  · rw [hm.page a, ← hkey]
    by_cases hk : pageKey s.start a = pageKey s.start ipa
    · rw [if_pos ⟨rfl, hk⟩, hk, Function.update_self, Option.map_some, addr_leafEntry hf hname]
    · rw [if_neg (fun hc => hk hc.2), Function.update_of_ne hk, h.page a]
  · rw [hm.block a, if_neg (by simp)]
  · rintro _ ⟨⟩
    exact hname.1
  · rw [hm.stats, hold]
    cases hs : (m.pages (ipa.toNat / 4096)).isSome with
    | true =>
      rw [hs] at hcount
      have hsame : S2Map.pageCount { m with pages := Function.update m.pages (ipa.toNat / 4096) (some pa) } = m.pageCount :=
        Nat.add_right_cancel hcount
      exact ⟨hsame ▸ h.counted.pages, h.counted.blocks, hsame ▸ h.counted.bytes⟩
    | false =>
      rw [hs] at hcount
      exact counted_more h.counted (.inr rfl) hcount rfl (ncard_le_of_lt h.page_lt) (ncard_le_of_lt h.block_lt)

/-- No page lies where there is no level 3 table. -/
private theorem hidden_pages (h : Refines s m) (hlt : ipa.toNat < 2 ^ s.ctx.geometry.ipaBits) (hn : s.tableAt 3 ipa = none) :
    (fun n => if n / 512 = ipa.toNat / 2 ^ 21 then none else m.pages n) = m.pages := by
  have hst := h.shape.start
  funext n
  split
  · rename_i heq
    cases hp : m.pages n with
    | none => rfl
    | some pa =>
      obtain ⟨a, -, hkey, hblock⟩ := h.exists_page (h.pagesBelow n (by rw [hp]; simp))
      have hsame : blockKey s.start a = blockKey s.start ipa := by
        rw [hblock, heq, blockKey, h.walked_eq hlt]
      have htable : s.tableAt 3 a = none := by
        rw [tableAt, (path_eq_iff hst a ipa).mpr hsame]
        exact hn
      have hpage : s.page a = none := entryAt_none isTable htable
      have hleaf := h.page a
      rw [hpage, hkey, hp] at hleaf
      cases hleaf
  · rfl

theorem mask_or_eq_zero {x y : U64} (h : (x ||| y) &&& (s2PageSize2mb - 1) = 0) :
    x.toNat % 2 ^ 21 = 0 ∧ y.toNat % 2 ^ 21 = 0 := by
  rw [BitVec.and_or_distrib_right] at h
  obtain ⟨hx, hy⟩ := BitVec.or_eq_zero_iff.mp h
  rw [← and_low_toNat x (s2PageSize2mb - 1) 21 (by decide), ← and_low_toNat y (s2PageSize2mb - 1) 21 (by decide), hx, hy]
  exact ⟨rfl, rfl⟩

private theorem mappedBlock (h : Refines s m) (hf : LeafFlags flags) (ha : Accepted s.ctx.geometry ipa pa flags 2)
    (halign : (ipa ||| pa) &&& (s2PageSize2mb - 1) = 0) (hm : Mapped s ipa 2 (s2LeafEntry pa flags 2) t) :
    Refines t { m with blocks := Function.update m.blocks (ipa.toNat / 2 ^ 21) (some pa) } := by
  obtain ⟨-, hlt, hname⟩ := h.accepted_bounds (.inl rfl) ha
  have hkey : blockKey s.start ipa = ipa.toNat / 2 ^ 21 := by rw [blockKey, h.walked_eq hlt]
  have hold : (s.leafAtLevel 2 ipa).isSome = (m.blocks (ipa.toNat / 2 ^ 21)).isSome := by
    rw [leafAtLevel, if_neg (by decide), ← hkey, ← h.block ipa, Option.isSome_map]
  have hcount := ncard_isSome_update (some pa) h.block_lt (h.block_key_lt hlt)
  refine h.replaceBlock hm.toExtends (by omega) (fun a => ?_) (fun a => ?_) ?_ ?_
  · rw [hm.page a, if_neg (by simp)]
  · rw [hm.block a, ← hkey]
    by_cases hk : blockKey s.start a = blockKey s.start ipa
    · rw [if_pos ⟨rfl, hk⟩, hk, Function.update_self, Option.map_some, addr_leafEntry hf hname]
    · rw [if_neg (fun hc => hk hc.2), Function.update_of_ne hk, h.block a]
  · rintro _ ⟨⟩
    exact (mask_or_eq_zero halign).2
  · rw [hm.stats, hold]
    cases hs : (m.blocks (ipa.toNat / 2 ^ 21)).isSome with
    | true =>
      rw [hs] at hcount
      have hsame : S2Map.blockCount { m with blocks := Function.update m.blocks (ipa.toNat / 2 ^ 21) (some pa) } =
          m.blockCount := Nat.add_right_cancel hcount
      exact ⟨h.counted.pages, hsame ▸ h.counted.blocks, hsame ▸ h.counted.bytes⟩
    | false =>
      rw [hs] at hcount
      exact counted_more h.counted (.inl rfl) rfl hcount (ncard_le_of_lt h.page_lt) (ncard_le_of_lt h.block_lt)

private theorem unmappedPage (h : Refines s m) (hlt : ipa.toNat < 2 ^ s.ctx.geometry.ipaBits) (hp : s.page ipa ≠ none)
    (hu : Unmapped s ipa 3 t) : (m.pages (ipa.toNat / 4096)).isSome = true ∧
      Refines t { m with pages := Function.update m.pages (ipa.toNat / 4096) none } := by
  have hkey : pageKey s.start ipa = ipa.toNat / 4096 := by rw [pageKey, h.walked_eq hlt]
  have hold : (m.pages (ipa.toNat / 4096)).isSome = true := by
    rw [← hkey, ← h.page ipa, Option.isSome_map]
    exact Option.isSome_iff_ne_none.mpr hp
  have hcount := ncard_isSome_update none h.page_lt (h.page_key_lt hlt)
  rw [hold] at hcount
  refine ⟨hold, h.replacePage hu.toExtends (by omega) (fun a => ?_) (fun a => ?_) (by simp) ?_⟩
  · rw [hu.page a, ← hkey]
    by_cases hk : pageKey s.start a = pageKey s.start ipa
    · rw [if_pos ⟨rfl, hk⟩, hk, Function.update_self, Option.map_none]
    · rw [if_neg (fun hc => hk hc.2), Function.update_of_ne hk, h.page a]
  · rw [hu.block a, if_neg (by simp)]
  · rw [hu.stats]
    exact counted_less h.counted (.inr rfl) hcount.symm rfl

private theorem unmappedBlock (h : Refines s m) (hlt : ipa.toNat < 2 ^ s.ctx.geometry.ipaBits) (hb : s.block ipa ≠ none)
    (hu : Unmapped s ipa 2 t) : m.pages (ipa.toNat / 4096) = none ∧
      Refines t { m with blocks := Function.update m.blocks (ipa.toNat / 2 ^ 21) none } := by
  have hkey : blockKey s.start ipa = ipa.toNat / 2 ^ 21 := by rw [blockKey, h.walked_eq hlt]
  have hnone : m.pages (ipa.toNat / 4096) = none := by
    have hp := h.page ipa
    rw [page_of_block h.shape hb, pageKey, h.walked_eq hlt] at hp
    exact hp.symm
  have hold : (m.blocks (ipa.toNat / 2 ^ 21)).isSome = true := by
    rw [← hkey, ← h.block ipa, Option.isSome_map]
    exact Option.isSome_iff_ne_none.mpr hb
  have hcount := ncard_isSome_update none h.block_lt (h.block_key_lt hlt)
  rw [hold] at hcount
  refine ⟨hnone, h.replaceBlock hu.toExtends (by omega) (fun a => ?_) (fun a => ?_) (by simp) ?_⟩
  · rw [hu.page a, if_neg (by simp)]
  · rw [hu.block a, ← hkey]
    by_cases hk : blockKey s.start a = blockKey s.start ipa
    · rw [if_pos ⟨rfl, hk⟩, hk, Function.update_self, Option.map_none]
    · rw [if_neg (fun hc => hk hc.2), Function.update_of_ne hk, h.block a]
  · rw [hu.stats]
    exact counted_less h.counted (.inl rfl) rfl hcount.symm

/-- Unmapping an address that the map does not have leaves the map alone. -/
private theorem after_unmap_none {a : U64} (hp : m.pages (a.toNat / 4096) = none) (hb : m.blocks (a.toNat / 2 ^ 21) = none) :
    m.after (.unmapPage a, .ok ()) = m := by
  rw [S2Map.after, if_neg (by rw [hp]; simp), ← hb, Function.update_eq_self]

/-- The map has nothing where the walk finds no leaf, nor where it does not look. -/
private theorem leaf_none (h : Refines s m) (hleaf : s.leaf ipa = none) :
    m.pages (ipa.toNat / 4096) = none ∧ m.blocks (ipa.toNat / 2 ^ 21) = none := by
  by_cases hlt : ipa.toNat < 2 ^ s.ctx.geometry.ipaBits
  · have hp := h.page ipa
    have hb := h.block ipa
    rw [leaf] at hleaf
    cases hblk : s.block ipa with
    | some e => simp [hblk] at hleaf
    | none =>
      rw [hblk, Option.map_eq_none_iff] at hleaf
      rw [hleaf, pageKey, h.walked_eq hlt] at hp
      rw [hblk, blockKey, h.walked_eq hlt] at hb
      exact ⟨hp.symm, hb.symm⟩
  · exact h.high_none (Nat.le_of_not_lt hlt)

/-- What mapping means, by how it ends. -/
private theorem outcome (h : Refines s m) {level : Nat} {e : U64} {r : Except Errno Unit × S2State} {c : S2Call}
    (ho : MapOutcome s ipa level e r) (hc : ∀ e, m.after (c, .error e) = m)
    (hd : ∀ t, Mapped s ipa level e t → Refines t (m.after (c, .ok ()))) :
    Refines r.2 (m.after (c, r.1)) ∧ r.2.ctx.geometry = s.ctx.geometry := by
  cases ho with
  | refused hret _ hg =>
    rw [hret, hc]
    exact ⟨h.grows hg, hg.geometry⟩
  | done hret hm =>
    rw [hret]
    exact ⟨hd r.2 hm, hm.geometry⟩

private theorem step_unmap (h : Refines s m) (ipa : U64) (hs : (S2Call.unmapPage ipa).Safe s) :
    Refines (relmStage2UnmapPage s ipa).2 (m.after (.unmapPage ipa, (relmStage2UnmapPage s ipa).1)) ∧
      (relmStage2UnmapPage s ipa).2.ctx.geometry = s.ctx.geometry := by
  have hstarts : ∀ l, s.leaf ipa = some l → l.base = ipa → ipa.toNat < 2 ^ s.ctx.geometry.ipaBits := by
    intro l hl hbase
    refine hs.resolve_right fun hno => ?_
    rw [leafStarts, walk_spec h.shape ipa, hl] at hno
    simp [hbase] at hno
  cases unmapPage_spec h.shape ipa with
  | absent hleaf hr =>
    rw [hr]
    have hnone := h.leaf_none hleaf
    rw [after_unmap_none hnone.1 hnone.2]
    exact ⟨h, rfl⟩
  | inside l hleaf hbase hr =>
    rw [hr]
    exact ⟨h, rfl⟩
  | block hblock hbase hret hu =>
    obtain ⟨e, he⟩ := Option.ne_none_iff_exists'.mp hblock
    have hlt := hstarts (leafInfo e ipa 2) (by rw [leaf, he]) hbase
    obtain ⟨hnone, hnext⟩ := h.unmappedBlock hlt hblock hu
    rw [hret, S2Map.after, if_neg (by rw [hnone]; simp)]
    exact ⟨hnext, hu.geometry⟩
  | page hblock hpage hbase hret hu =>
    obtain ⟨e, he⟩ := Option.ne_none_iff_exists'.mp hpage
    have hlt := hstarts (leafInfo e ipa 3) (by rw [leaf, hblock, he]; rfl) hbase
    obtain ⟨hold, hnext⟩ := h.unmappedPage hlt hpage hu
    rw [hret, S2Map.after, if_pos hold]
    exact ⟨hnext, hu.geometry⟩

/-- One call keeps the refinement, with the map updated as the answer says. -/
theorem step (h : Refines s m) (c : S2Call) (hc : c.Admissible) (hs : c.Safe s) :
    Refines (c.exec s).2 (m.after (c, (c.exec s).1)) ∧ (c.exec s).2.ctx.geometry = s.ctx.geometry := by
  cases c with
  | mapPage ipa pa flags =>
    simp only [S2Call.exec, relmStage2MapPage]
    by_cases ha : Accepted s.ctx.geometry ipa pa flags 3
    · rw [map_accepted ha]
      have ho : MapOutcome s ipa 3 (s2LeafEntry pa flags 3) (s2MapOne s ipa pa flags 3) := by
        cases hb : s.block ipa with
        | none => exact mapOne_page h.shape hb
        | some e =>
          have hne : s.block ipa ≠ none := by rw [hb]; simp
          exact mapOne_page_refused h.shape hne ((hs ha).resolve_left hne)
      exact h.outcome ho (fun _ => rfl) fun t hm => h.mappedPage hc ha hm
    · obtain ⟨e, he⟩ := map_rejected ha
      rw [he]
      exact ⟨h, rfl⟩
  | mapHugePage ipa pa flags =>
    simp only [S2Call.exec, relmStage2MapHugePage]
    by_cases halign : (ipa ||| pa) &&& (s2PageSize2mb - 1) = 0
    · rw [if_neg (by rw [halign]; decide)]
      by_cases ha : Accepted s.ctx.geometry ipa pa flags 2
      · rw [map_accepted ha]
        have hn := hs halign ha
        refine h.outcome (mapOne_block h.shape (isBlock_block hc pa) hn) (fun _ => rfl) fun t hm => ?_
        have hnext := h.mappedBlock hc ha halign hm
        rw [S2Map.after, h.hidden_pages (h.accepted_bounds (.inl rfl) ha).2.1 hn]
        exact hnext
      · obtain ⟨e, he⟩ := map_rejected ha
        rw [he]
        exact ⟨h, rfl⟩
    · rw [if_pos (by simpa using halign)]
      exact ⟨h, rfl⟩
  | unmapPage ipa => exact h.step_unmap ipa hs

/-- A successful call starts where the leaf it is about starts. -/
def Starts (m : S2Map) : S2Call → Prop
  | .mapPage ipa _ _ => ipa.toNat % 4096 = 0
  | .mapHugePage ipa _ _ => ipa.toNat % 2 ^ 21 = 0
  | .unmapPage ipa => (m.pages (ipa.toNat / 4096) ≠ none → ipa.toNat % 4096 = 0) ∧
      (m.pages (ipa.toNat / 4096) = none → m.blocks (ipa.toNat / 2 ^ 21) ≠ none → ipa.toNat % 2 ^ 21 = 0)

private theorem base_aligned {level : Nat} (hl : level = 2 ∨ level = 3) (h : ipa &&& ~~~(s2LevelSize level - 1) = ipa) :
    ipa.toNat % 2 ^ s2Shift level = 0 := by
  have hb := base_toNat hl ipa
  rw [h] at hb
  rw [hb]
  exact Nat.mul_mod_left _ _

theorem starts_of_ok (h : Refines s m) (c : S2Call) (hok : (c.exec s).1 = .ok ()) : Starts m c := by
  cases c with
  | mapPage ipa pa flags =>
    by_cases ha : Accepted s.ctx.geometry ipa pa flags 3
    · exact (pageAligned_iff ipa).mp ha.ipaAligned
    · obtain ⟨e, he⟩ := map_rejected ha
      rw [S2Call.exec, relmStage2MapPage, he] at hok
      cases hok
  | mapHugePage ipa pa flags =>
    by_cases halign : (ipa ||| pa) &&& (s2PageSize2mb - 1) = 0
    · exact (mask_or_eq_zero halign).1
    · rw [S2Call.exec, relmStage2MapHugePage, if_pos (by simpa using halign)] at hok
      cases hok
  | unmapPage ipa =>
    rw [S2Call.exec] at hok
    cases unmapPage_spec h.shape ipa with
    | absent hleaf hr =>
      obtain ⟨hp, hb⟩ := h.leaf_none hleaf
      exact ⟨fun hne => absurd hp hne, fun _ hne => absurd hb hne⟩
    | inside l hleaf hbase hr =>
      rw [hr] at hok
      cases hok
    | block hblock hbase hret hu =>
      have h2 : ipa.toNat % 2 ^ 21 = 0 := base_aligned (.inl rfl) hbase
      exact ⟨fun _ => by omega, fun _ _ => h2⟩
    | page hblock hpage hbase hret hu =>
      refine ⟨fun _ => base_aligned (.inr rfl) hbase, fun hp hb => ?_⟩
      by_cases hlt : ipa.toNat < 2 ^ s.ctx.geometry.ipaBits
      · have hleaf := h.page ipa
        rw [pageKey, h.walked_eq hlt, hp, Option.map_eq_none_iff] at hleaf
        exact absurd hleaf hpage
      · exact absurd (h.high_none (Nat.le_of_not_lt hlt)).2 hb

/-- A call changes nothing outside the range it names. -/
theorem after_outside {c : S2Call} (hs : Starts m c) {a : U64} (ho : m.Outside c a) :
    (m.after (c, .ok ())).lookup a.toNat = m.lookup a.toNat := by
  cases c with
  | mapPage ipa pa flags =>
    simp only [Starts] at hs
    simp only [S2Map.Outside, S2Map.rangeSize, S2Call.ipa] at ho
    have hne : a.toNat / 4096 ≠ ipa.toNat / 4096 := by omega
    simp only [S2Map.after, S2Map.lookup, Function.update_of_ne hne]
  | mapHugePage ipa pa flags =>
    simp only [Starts] at hs
    simp only [S2Map.Outside, S2Map.rangeSize, S2Call.ipa] at ho
    have hne : a.toNat / 2 ^ 21 ≠ ipa.toNat / 2 ^ 21 := by omega
    have hsame : a.toNat / 4096 / 512 ≠ ipa.toNat / 2 ^ 21 := by omega
    simp only [S2Map.after, S2Map.lookup, Function.update_of_ne hne, if_neg hsame]
  | unmapPage ipa =>
    obtain ⟨hpage, hblock⟩ := hs
    simp only [S2Map.Outside, S2Map.rangeSize, S2Call.ipa] at ho
    cases hp : m.pages (ipa.toNat / 4096) with
    | some pa =>
      have h4 := hpage (by rw [hp]; simp)
      have hne : a.toNat / 4096 ≠ ipa.toNat / 4096 := by
        split at ho <;> omega
      simp only [S2Map.after, hp, Option.isSome_some, if_true, S2Map.lookup, Function.update_of_ne hne]
    | none =>
      cases hb : m.blocks (ipa.toNat / 2 ^ 21) with
      | none => rw [after_unmap_none hp hb]
      | some pa =>
        have h2 := hblock hp (by rw [hb]; simp)
        rw [hb, Option.isSome_some, if_pos rfl] at ho
        have hne : a.toNat / 2 ^ 21 ≠ ipa.toNat / 2 ^ 21 := by omega
        simp only [S2Map.after, hp, Option.isSome_none, Bool.false_eq_true, if_false, S2Map.lookup, Function.update_of_ne hne]

/-- A call that leaves the map alone leaves every lookup alone. -/
private theorem same_lookups (h : Refines s m) {c : S2Call} (hc : c.Admissible) (hs : c.Safe s)
    (hm : m.after (c, (c.exec s).1) = m) (a : U64) :
    relmStage2GetMapping (c.exec s).2 a = relmStage2GetMapping s a := by
  obtain ⟨hr, hgeo⟩ := h.step c hc hs
  have hst : (c.exec s).2.start = s.start := congrArg Geometry.startLevel hgeo
  rw [hr.getMapping_eq a, h.getMapping_eq a, hm, hst]

private theorem after_error (m : S2Map) (c : S2Call) (e : Errno) : m.after (c, .error e) = m := by
  cases c <;> rfl

/-- Mapping never accepts an address above the geometry. -/
private theorem map_high (h : Refines s m) (ipa pa flags : U64) {level : Nat} (hl : level = 2 ∨ level = 3)
    (hhigh : 2 ^ s.ctx.geometry.ipaBits ≤ ipa.toNat) : ∃ e, s2Map s ipa pa flags level = (.error e, s) := by
  refine map_rejected fun ha => ?_
  have hlt := (h.accepted_bounds hl ha).2.1
  omega

private theorem after_high (h : Refines s m) (c : S2Call) (hhigh : 2 ^ s.ctx.geometry.ipaBits ≤ c.ipa.toNat) :
    m.after (c, (c.exec s).1) = m := by
  cases c with
  | mapPage ipa pa flags =>
    obtain ⟨e, he⟩ := h.map_high ipa pa flags (.inr rfl) hhigh
    rw [S2Call.exec, relmStage2MapPage, he]
    exact after_error m _ e
  | mapHugePage ipa pa flags =>
    obtain ⟨e, he⟩ := h.map_high ipa pa flags (.inl rfl) hhigh
    rw [S2Call.exec, relmStage2MapHugePage]
    split
    · exact after_error m _ _
    · rw [he]
      exact after_error m _ e
  | unmapPage ipa =>
    obtain ⟨hp, hb⟩ := h.high_none hhigh
    cases hr : (S2Call.exec s (.unmapPage ipa)).1 with
    | error e => rfl
    | ok _ => exact after_unmap_none hp hb

theorem describes (h : Refines s m) : m.Describes s where
  lookup := h.lookup_iff
  failed c hc hs e he := h.same_lookups hc hs (by rw [he]; exact after_error m c e)
  others c hc hs a ha ho := by
    cases hr : (c.exec s).1 with
    | error e => exact h.same_lookups hc hs (by rw [hr]; exact after_error m c e) a
    | ok _ =>
      obtain ⟨hnext, hgeo⟩ := h.step c hc hs
      rw [hr] at hnext
      rw [hnext.getMapping_eq a, h.getMapping_eq a, hnext.walked_eq (by rw [hgeo]; exact ha), h.walked_eq ha]
      exact after_outside (h.starts_of_ok c hr) ho
  high c hc hs hhigh := h.same_lookups hc hs (h.after_high c hhigh)
  pages := h.counted.pages
  blocks := h.counted.blocks
  bytes := h.counted.bytes

theorem of_empty (he : Empty s) (hv : s2GeometryValid s.ctx.geometry = true) : Refines s .empty where
  shape := he.shape
  valid := hv
  page a := by rw [he.page a]; rfl
  block a := by rw [he.block a]; rfl
  pagesBelow n hn := absurd rfl hn
  blocksBelow n hn := absurd rfl hn
  pageAddr n pa hn := by cases hn
  blockAddr n pa hn := by cases hn
  counted := by
    have hp : S2Map.empty.pageCount = 0 := by simp [S2Map.pageCount, S2Map.empty]
    have hb : S2Map.empty.blockCount = 0 := by simp [S2Map.blockCount, S2Map.empty]
    rw [he.stats]
    refine ⟨?_, ?_, ?_⟩
    · rw [hp]; rfl
    · rw [hb]; rfl
    · rw [hp, hb]; rfl

end Refines

/-- After every run of safe calls on a new context, lookups, further safe calls and counters are those of the map of
live mappings. -/
theorem stage2_refines_map {limits : Option Geometry} {h h' : Host} {geometry : Geometry} {vmid : BitVec 16} {ctx : Stage2}
    (hm : ∀ f, h.managed f = true → f.toNat < 2 ^ 48)
    (hc : relmStage2ContextCreate limits h geometry vmid = (.ok ctx, h')) {calls : List S2Call}
    (ha : ∀ c ∈ calls, c.Admissible) (hs : Admitted S2Call.exec (fun s c => c.Safe s) ⟨h', ctx⟩ calls) :
    (S2Map.replay (run S2Call.exec ⟨h', ctx⟩ calls).1).Describes (run S2Call.exec ⟨h', ctx⟩ calls).2 := by
  obtain ⟨he, hgeo, hv, -⟩ := contextCreate_spec hm hc
  have hadm : Admitted S2Call.exec (fun s c => c.Safe s ∧ c.Admissible) ⟨h', ctx⟩ calls :=
    hs.and (admitted_of_forall ha _)
  have hrun := run_invariant (P := fun tr s => Refines s (S2Map.replay tr)) (fun tr s c hr hc => by
    have hstep := (hr.step c hc.2 hc.1).1
    rwa [S2Map.replay, List.foldl_append]) (Refines.of_empty he (hgeo ▸ hv)) hadm
  exact hrun.describes

private def mapGeometry : Geometry := ⟨39, 40, 1, 8⟩

private def mapHost : Host :=
  { Host.idle [some 0x1000#64, some 0x2000#64, some 0x3000#64, none, some 0x4000#64] [true] with
    managed := fun f => decide (f.toNat < 2 ^ 48) }

private def mapFlags : U64 := s2AccessMask ||| 0xf#64 <<< 2 ||| 0x3#64 <<< 8

/-- A block, a page beside it, a page whose table cannot be allocated, and the block unmapped again. -/
private def safeCalls : List S2Call :=
  [.mapHugePage 0x200000#64 0x400000#64 mapFlags, .mapPage 0x5000#64 0x9000#64 mapFlags,
    .mapPage 0x40000000#64 0xa000#64 mapFlags, .unmapPage 0x200000#64]

theorem stage2_refines_map_safe : ∃ ctx h', relmStage2ContextCreate (some mapGeometry) mapHost mapGeometry 1#16 = (.ok ctx, h') ∧
    (∀ f, mapHost.managed f = true → f.toNat < 2 ^ 48) ∧ (∀ c ∈ safeCalls, c.Admissible) ∧
    Admitted S2Call.exec (fun s c => c.Safe s) ⟨h', ctx⟩ safeCalls ∧
    (S2Map.replay (run S2Call.exec ⟨h', ctx⟩ safeCalls).1).Describes (run S2Call.exec ⟨h', ctx⟩ safeCalls).2 := by
  have hm : ∀ f, mapHost.managed f = true → f.toNat < 2 ^ 48 := fun f hf => of_decide_eq_true hf
  have hadm : ∀ c ∈ safeCalls, c.Admissible := by decide
  refine ⟨_, _, rfl, hm, hadm, by decide, ?_⟩
  exact stage2_refines_map hm (show relmStage2ContextCreate (some mapGeometry) mapHost mapGeometry 1#16 = _ from rfl) hadm
    (by decide)

/-- A page put inside a block. -/
private def pageInBlock : List S2Call :=
  [.mapHugePage 0x200000#64 0x400000#64 mapFlags, .mapPage 0x201000#64 0x9000#64 mapFlags]

/-- A block put over a page. -/
private def blockOverPage : List S2Call :=
  [.mapPage 0x201000#64 0x9000#64 mapFlags, .mapHugePage 0x200000#64 0x400000#64 mapFlags]

/-- A page unmapped through an address above the 39 bits. -/
private def highUnmap : List S2Call :=
  [.mapPage 0x5000#64 0x9000#64 mapFlags, .unmapPage 0x8000005000#64]

/-- The page takes the whole block out, the block over the page is not counted, and the address above the geometry
resolves and removes the page. -/
theorem stage2_not_refines_map : ∃ ctx h',
    relmStage2ContextCreate (some mapGeometry) mapHost mapGeometry 1#16 = (.ok ctx, h') ∧
    relmStage2GetMapping (run S2Call.exec ⟨h', ctx⟩ pageInBlock).2 0x202000#64 = .error .enoent ∧
    (S2Map.replay (run S2Call.exec ⟨h', ctx⟩ pageInBlock).1).lookup 0x202000 = .ok 0x402000#64 ∧
    (run S2Call.exec ⟨h', ctx⟩ blockOverPage).2.ctx.stats.pages2mb = 0 ∧
    (S2Map.replay (run S2Call.exec ⟨h', ctx⟩ blockOverPage).1).blocks 1 = some 0x400000#64 ∧
    relmStage2GetMapping (run S2Call.exec ⟨h', ctx⟩ (highUnmap.take 1)).2 0x8000005000#64 = .ok 0x9000#64 ∧
    relmStage2GetMapping (run S2Call.exec ⟨h', ctx⟩ highUnmap).2 0x5000#64 = .error .enoent ∧
    (S2Map.replay (run S2Call.exec ⟨h', ctx⟩ highUnmap).1).lookup 0x5000 = .ok 0x9000#64 := by
  refine ⟨_, _, rfl, ?_, ?_, ?_, ?_, ?_, ?_, ?_⟩ <;> rfl

end Relm.Arm64
