import Relm.Arm64.Stage2Overwrite
import Relm.Arm64.Stage2Ram
import Relm.Lib.Loop

/-! Mapping a range page by page: what a call that fails half way leaves behind. -/
namespace Relm.Arm64
open Relm.Lib.Loop Relm.Lib.Run Relm.Lib.Word
open S2State

/-- One step of the mapping loop. -/
def mapStep (ipa pa flags : U64) (s : S2State) (i : Nat) : Except Errno Unit × S2State :=
  relmStage2MapPage s (pageAt ipa i) (pageAt pa i) flags

/-- A call that fails changes no lookup and no counter. -/
def RollsBack (s : S2State) (r : Except Errno Unit × S2State) : Prop :=
  ∀ e, r.1 = .error e → (∀ a, relmStage2GetMapping r.2 a = relmStage2GetMapping s a) ∧ r.2.ctx.stats = s.ctx.stats

/-- A 4 KiB leaf maps the page to the very address that mapping it would store. -/
def MappedAlike (s : S2State) (ipa pa flags : U64) : Prop :=
  ∃ l, s2Walk s ipa = .ok l ∧ l.size = s2LevelSize 3 ∧ l.pa = s2LeafEntry pa flags 3 &&& s2PageAddrMask

/-- The pages before the first one that cannot be mapped were all mapped alike before the call. -/
def FailsHarmlessly (s : S2State) (ipa pa size flags : U64) : Prop :=
  s2PageAligned size = true → ∀ j < size.toNat / 4096, Fails (mapStep ipa pa flags) s j →
    (∀ i < j, ¬ Fails (mapStep ipa pa flags) s i) → ∀ i < j, MappedAlike s (pageAt ipa i) (pageAt pa i) flags

section Step

variable {s t u : S2State} {ipa pa flags e : U64}

/-- What one step does: it stores the page, or it changes no leaf. -/
private theorem mapStep_spec (sh : Shape t) (i : Nat) :
    ((mapStep ipa pa flags t i).1 = .ok () ∧ Accepted t.ctx.geometry (pageAt ipa i) (pageAt pa i) flags 3 ∧
      PagePut t (pageAt ipa i) (s2LeafEntry (pageAt pa i) flags 3) (mapStep ipa pa flags t i).2) ∨
    (mapStep ipa pa flags t i).1 ≠ .ok () ∧ Grows t (mapStep ipa pa flags t i).2 := by
  rw [mapStep, relmStage2MapPage]
  by_cases ha : Accepted t.ctx.geometry (pageAt ipa i) (pageAt pa i) flags 3
  · have hput : PutOutcome t (pageAt ipa i) (s2LeafEntry (pageAt pa i) flags 3)
        (s2MapOne t (pageAt ipa i) (pageAt pa i) flags 3) := mapOne_put sh
    rw [map_accepted ha]
    cases hput with
    | refused hret hg =>
      refine .inr ⟨?_, hg⟩
      rw [hret]
      exact fun h => by cases h
    | done hret hp => exact .inl ⟨hret, ha, hp⟩
  · obtain ⟨err, he⟩ := map_rejected ha
    rw [he]
    exact .inr ⟨(fun h => by cases h), .refl sh⟩

/-- The first pages of the range have been stored over a state. -/
structure Overlaid (s : S2State) (ipa pa flags : U64) (i : Nat) (t : S2State) : Prop extends Extends s t where
  inside : 0 < i → ipa.toNat + 4096 * i ≤ 2 ^ s.ctx.geometry.ipaBits
  stored : ∀ k < i, t.page (pageAt ipa k) = some (s2LeafEntry (pageAt pa k) flags 3)
  page : ∀ a, (∀ k < i, pageKey s.start a ≠ pageKey s.start (pageAt ipa k)) → t.page a = s.page a
  block : ∀ a, t.block a = s.block a ∨ t.block a = none ∧ ∃ k < i, blockKey s.start a = blockKey s.start (pageAt ipa k)
  counted : ∃ c ≤ i, t.ctx.stats.pages4kb = s.ctx.stats.pages4kb + BitVec.ofNat 64 c ∧
    (c = 0 → ∀ k < i, s.page (pageAt ipa k) ≠ none)
  stats : (∀ k < i, s.page (pageAt ipa k) ≠ none) → t.ctx.stats = s.ctx.stats

private theorem Overlaid.refl (sh : Shape s) : Overlaid s ipa pa flags 0 s where
  toExtends := (Grows.refl sh).toExtends
  inside h := absurd h (Nat.lt_irrefl 0)
  stored k hk := absurd hk (Nat.not_lt_zero k)
  page _ _ := rfl
  block _ := .inl rfl
  counted := ⟨0, le_rfl, by simp, fun _ k hk => absurd hk (Nat.not_lt_zero k)⟩
  stats _ := rfl

/-- The key of a page of a range that lies in the geometry. -/
private theorem pageKey_pageAt (hv : s2GeometryValid s.ctx.geometry = true) {i k : Nat} (hk : k < i)
    (hi : ipa.toNat + 4096 * i ≤ 2 ^ s.ctx.geometry.ipaBits) :
    pageKey s.start (pageAt ipa k) = ipa.toNat / 4096 + k := by
  obtain ⟨-, hhi, -, -, -⟩ := geometry_bounds hv
  have hpow : 2 ^ s.ctx.geometry.ipaBits ≤ 2 ^ 48 := Nat.pow_le_pow_right (by decide) hhi
  have hat : (pageAt ipa k).toNat = ipa.toNat + 4096 * k := pageAt_toNat (by omega)
  have hw : walked s.start (pageAt ipa k) = ipa.toNat + 4096 * k := by
    rw [← hat]
    exact walked_of_lt hv (by omega)
  rw [pageKey, hw]
  omega

/-- The next page lies in the geometry if it is accepted. -/
private theorem Overlaid.next_inside (h : Overlaid s ipa pa flags i t) (hv : s2GeometryValid s.ctx.geometry = true)
    (ha : Accepted t.ctx.geometry (pageAt ipa i) (pageAt pa i) flags 3) :
    ipa.toNat + 4096 * (i + 1) ≤ 2 ^ s.ctx.geometry.ipaBits := by
  obtain ⟨-, hhi, -, -, -⟩ := geometry_bounds hv
  have hpow : 2 ^ s.ctx.geometry.ipaBits ≤ 2 ^ 48 := Nat.pow_le_pow_right (by decide) hhi
  have hat : (pageAt ipa i).toNat = ipa.toNat + 4096 * i := by
    rcases Nat.eq_zero_or_pos i with rfl | hpos
    · rw [pageAt_zero]
      rfl
    · have hin := h.inside hpos
      exact pageAt_toNat (by omega)
  have hfits := ha.ipaFits
  rw [h.geometry] at hfits
  have hbound := ((rangeFits_iff hhi).mp hfits).2.1
  rw [hat, show (s2LevelSize 3).toNat = 4096 by decide, Nat.add_assoc] at hbound
  exact hbound

private theorem Overlaid.next {i : Nat} (h : Overlaid s ipa pa flags i t)
    (hv : s2GeometryValid s.ctx.geometry = true)
    (ha : Accepted t.ctx.geometry (pageAt ipa i) (pageAt pa i) flags 3)
    (hp : PagePut t (pageAt ipa i) (s2LeafEntry (pageAt pa i) flags 3) u) : Overlaid s ipa pa flags (i + 1) u := by
  have hst := h.start_eq
  have hin := h.next_inside hv ha
  have hne : ∀ k < i, pageKey s.start (pageAt ipa i) ≠ pageKey s.start (pageAt ipa k) := by
    intro k hk
    rw [pageKey_pageAt hv (Nat.lt_succ_self i) hin, pageKey_pageAt hv (show k < i + 1 by omega) hin]
    omega
  have hold : t.page (pageAt ipa i) = s.page (pageAt ipa i) := h.page _ hne
  refine ⟨h.toExtends.trans hp.toExtends, fun _ => hin, fun k hk => ?_, fun a hna => ?_, fun a => ?_, ?_, fun hall => ?_⟩
  · rw [hp.page, hst]
    rcases Nat.lt_succ_iff_lt_or_eq.mp hk with hlt | rfl
    · rw [if_neg fun heq => hne k hlt heq.symm]
      exact h.stored k hlt
    · rw [if_pos rfl]
  · rw [hp.page, hst, if_neg (hna i (Nat.lt_succ_self i))]
    exact h.page a fun k hk => hna k (Nat.lt_succ_of_lt hk)
  · rw [hp.block, hst]
    split
    · rename_i hkey
      exact .inr ⟨rfl, i, Nat.lt_succ_self i, hkey⟩
    · rcases h.block a with heq | ⟨hnone, k, hk, hkey⟩
      · exact .inl heq
      · exact .inr ⟨hnone, k, Nat.lt_succ_of_lt hk, hkey⟩
  · obtain ⟨c, hc, hpages, hzero⟩ := h.counted
    rw [hp.stats, hold]
    cases hpage : s.page (pageAt ipa i) with
    | some e =>
      refine ⟨c, by omega, hpages, fun h0 k hk => ?_⟩
      rcases Nat.lt_succ_iff_lt_or_eq.mp hk with hlt | rfl
      · exact hzero h0 k hlt
      · rw [hpage]
        exact fun hcontra => by cases hcontra
    | none =>
      refine ⟨c + 1, by omega, ?_, fun h0 => absurd h0 (Nat.succ_ne_zero c)⟩
      change t.ctx.stats.pages4kb + 1 = _
      rw [hpages, BitVec.add_assoc, BitVec.ofNat_add]
      rfl
  · rw [hp.stats, hold, if_pos (Option.isSome_iff_ne_none.mpr (hall i (Nat.lt_succ_self i)))]
    exact h.stats fun k hk => hall k (Nat.lt_succ_of_lt hk)

/-- The state after pages that could all be mapped. -/
private theorem states_overlaid (h : Sound s) {n : Nat} (hok : ∀ i < n, ¬ Fails (mapStep ipa pa flags) s i) :
    Overlaid s ipa pa flags n (states (mapStep ipa pa flags) s n) := by
  refine states_induction (P := fun i t => Overlaid s ipa pa flags i t) (.refl h.shape) fun i t hi ht heq => ?_
  have hret : (mapStep ipa pa flags t i).1 = .ok () := by
    rw [heq]
    exact not_fails (hok i hi)
  rcases mapStep_spec ht.shape i with ⟨-, ha, hp⟩ | ⟨hne, -⟩
  · exact ht.next h.valid ha hp
  · exact absurd hret hne

end Step

section Lookups

variable {s t u : S2State} {ipa pa flags e a : U64}

/-- The leaf of an address that has a page. -/
private theorem leaf_of_page (sh : Shape s) (hp : s.page a = some e) : s.leaf a = some (leafInfo e a 3) := by
  have hb : s.block a = none := by
    by_contra hne
    rw [page_of_block sh hne] at hp
    cases hp
  rw [leaf, hb, hp]
  rfl

private theorem leafInfo_pa (e a : U64) : (leafInfo e a 3).pa = e &&& s2PageAddrMask := by
  rw [leafInfo, BitVec.and_assoc, show s2PageAddrMask &&& ~~~(s2LevelSize 3 - 1) = s2PageAddrMask by decide]

/-- A page in terms of the leaf that the walk reports. -/
private theorem mappedAlike_iff (sh : Shape s) : MappedAlike s ipa pa flags ↔
    ∃ e, s.page ipa = some e ∧ e &&& s2PageAddrMask = s2LeafEntry pa flags 3 &&& s2PageAddrMask := by
  constructor
  · rintro ⟨l, hwalk, hsize, hpa⟩
    rw [walk_spec sh ipa] at hwalk
    cases hb : s.block ipa with
    | some e =>
      rw [leaf, hb] at hwalk
      obtain rfl := Except.ok.inj hwalk
      exact absurd hsize (show s2LevelSize 2 ≠ s2LevelSize 3 by decide)
    | none =>
      cases hp : s.page ipa with
      | none =>
        rw [leaf, hb, hp] at hwalk
        cases hwalk
      | some e =>
        rw [leaf_of_page sh hp] at hwalk
        obtain rfl := Except.ok.inj hwalk
        exact ⟨e, rfl, (leafInfo_pa e ipa).symm.trans hpa⟩
  · rintro ⟨e, hp, hpa⟩
    refine ⟨leafInfo e ipa 3, ?_, rfl, (leafInfo_pa e ipa).trans hpa⟩
    rw [walk_spec sh ipa, leaf_of_page sh hp]

private theorem getMapping_page (sh : Shape s) (hp : s.page a = some e) :
    relmStage2GetMapping s a = .ok ((e &&& s2PageAddrMask) + (a - (a &&& ~~~(s2LevelSize 3 - 1)))) := by
  rw [getMapping_spec sh a, leaf_of_page sh hp, ← leafInfo_pa e a]
  rfl

variable {j : Nat}

/-- Lookups and counters are as before if the pages stored were mapped alike. -/
private theorem Overlaid.unchanged (h : Overlaid s ipa pa flags j t) (sh : Shape s)
    (hall : ∀ i < j, MappedAlike s (pageAt ipa i) (pageAt pa i) flags) :
    (∀ a, relmStage2GetMapping t a = relmStage2GetMapping s a) ∧ t.ctx.stats = s.ctx.stats := by
  have hpages : ∀ i < j, s.page (pageAt ipa i) ≠ none := by
    intro i hi
    obtain ⟨e, he, -⟩ := (mappedAlike_iff sh).mp (hall i hi)
    rw [he]
    exact fun hc => by cases hc
  refine ⟨fun a => ?_, h.stats hpages⟩
  by_cases hkey : ∃ k < j, pageKey s.start a = pageKey s.start (pageAt ipa k)
  · obtain ⟨k, hk, hkey⟩ := hkey
    obtain ⟨e, he, haddr⟩ := (mappedAlike_iff sh).mp (hall k hk)
    have hs : s.page a = some e := (page_congr sh hkey).trans he
    have ht : t.page a = some (s2LeafEntry (pageAt pa k) flags 3) :=
      (page_congr h.shape (by rw [h.start_eq]; exact hkey)).trans (h.stored k hk)
    rw [getMapping_page sh hs, getMapping_page h.shape ht, haddr]
  · have hp : t.page a = s.page a := h.page a fun k hk hc => hkey ⟨k, hk, hc⟩
    rcases h.block a with hb | ⟨hb, k, hk, hbkey⟩
    · exact getMapping_congr sh h.shape hp hb
    · refine getMapping_congr sh h.shape hp (hb.trans ?_)
      rw [block_congr sh hbkey]
      by_contra hne
      exact hpages k hk (page_of_block sh fun hc => hne hc.symm)

/-- A counter that has not moved tells that every page stored had a leaf. -/
private theorem Overlaid.pages_of_stats (h : Overlaid s ipa pa flags j t) (hv : s2GeometryValid s.ctx.geometry = true)
    (hstats : t.ctx.stats = s.ctx.stats) : ∀ i < j, s.page (pageAt ipa i) ≠ none := by
  intro i hi
  obtain ⟨-, hhi, -, -, -⟩ := geometry_bounds hv
  have hpow : 2 ^ s.ctx.geometry.ipaBits ≤ 2 ^ 48 := Nat.pow_le_pow_right (by decide) hhi
  have hin := h.inside (by omega)
  obtain ⟨c, hc, hpages, hzero⟩ := h.counted
  refine hzero ?_ i hi
  rw [hstats] at hpages
  have hnat := congrArg BitVec.toNat (BitVec.self_eq_add_right.mp hpages)
  rw [BitVec.toNat_ofNat, Nat.mod_eq_of_lt (by omega)] at hnat
  exact hnat

/-- Conversely, lookups and counters are as before only then. -/
private theorem Overlaid.alike (h : Overlaid s ipa pa flags j t) (hs : Sound s)
    (hlook : ∀ a, relmStage2GetMapping t a = relmStage2GetMapping s a) (hstats : t.ctx.stats = s.ctx.stats) :
    ∀ i < j, MappedAlike s (pageAt ipa i) (pageAt pa i) flags := by
  intro i hi
  obtain ⟨e, he⟩ := Option.ne_none_iff_exists'.mp (h.pages_of_stats hs.valid hstats i hi)
  refine (mappedAlike_iff hs.shape).mpr ⟨e, he, ?_⟩
  have hsame := hlook (pageAt ipa i)
  rw [getMapping_page hs.shape he, getMapping_page h.shape (h.stored i hi)] at hsame
  exact ((BitVec.add_left_inj _).mp (Except.ok.inj hsame)).symm

end Lookups

private theorem mapFrom_eq (flags ipa pa : U64) (left i : Nat) (s : S2State) : s2MapFrom flags ipa pa left i s =
    ((loop (mapStep ipa pa flags) left i s).1, (loop (mapStep ipa pa flags) left i s).2.2) := by
  induction left generalizing i s with
  | zero => rfl
  | succ left ih =>
    have hstep : relmStage2MapPage s (ipa + BitVec.ofNat 64 i * s2PageSize4kb)
        (pa + BitVec.ofNat 64 i * s2PageSize4kb) flags = mapStep ipa pa flags s i := rfl
    rw [s2MapFrom, loop, hstep]
    generalize mapStep ipa pa flags s i = r
    obtain ⟨ret, t⟩ := r
    cases ret with
    | error e => rfl
    | ok u => exact ih (i + 1) t

/-- A range mapping that fails leaves every lookup and the counters alone exactly when the pages before the one that
cannot be mapped were mapped to the same addresses already. -/
theorem stage2_map_range_rolls_back_iff {limits : Option Geometry} {h h' : Host} {geometry : Geometry} {vmid : BitVec 16}
    {ctx : Stage2} (hm : ∀ f, h.managed f = true → f.toNat < 2 ^ 48)
    (hc : relmStage2ContextCreate limits h geometry vmid = (.ok ctx, h')) {calls : List S2Call}
    (hf : ∀ c ∈ calls, c.BlockFlags) (ipa pa size flags : U64) :
    RollsBack (run S2Call.exec ⟨h', ctx⟩ calls).2
        (relmStage2MapRange (run S2Call.exec ⟨h', ctx⟩ calls).2 ipa pa size flags) ↔
      FailsHarmlessly (run S2Call.exec ⟨h', ctx⟩ calls).2 ipa pa size flags := by
  have hs : Sound (run S2Call.exec ⟨h', ctx⟩ calls).2 := sound_of_run hm hc hf
  generalize (run S2Call.exec ⟨h', ctx⟩ calls).2 = s at hs ⊢
  rw [relmStage2MapRange]
  split
  · rename_i hbad
    refine iff_of_true (fun _ _ => ⟨fun _ => rfl, rfl⟩) fun haligned j hj => ?_
    rw [haligned, Bool.not_true, Bool.or_false, beq_iff_eq] at hbad
    rw [hbad] at hj
    exact absurd hj (Nat.not_lt_zero j)
  · rename_i hgood
    have haligned : s2PageAligned size = true := by
      cases hal : s2PageAligned size with
      | true => rfl
      | false => simp [hal] at hgood
    have hcount : (size / s2PageSize4kb).toNat = size.toNat / 4096 := by
      rw [BitVec.toNat_udiv, show s2PageSize4kb.toNat = 4096 by decide]
    rw [mapFrom_eq, hcount]
    have hend := loop_ended (mapStep ipa pa flags) s (size.toNat / 4096)
    generalize loop (mapStep ipa pa flags) (size.toNat / 4096) 0 s = r at hend ⊢
    cases hend with
    | finished passed =>
      exact iff_of_true (fun e he => by cases he) fun _ j hj hfail => absurd hfail (passed j hj)
    | stopped e j hj fails first =>
      have hover := states_overlaid hs first
      have hgrows : Grows (states (mapStep ipa pa flags) s j) (states (mapStep ipa pa flags) s (j + 1)) :=
        (mapStep_spec hover.shape j).resolve_left (fun hok => fails hok.1) |>.2
      have hlook : ∀ a, relmStage2GetMapping (states (mapStep ipa pa flags) s (j + 1)) a =
          relmStage2GetMapping (states (mapStep ipa pa flags) s j) a :=
        fun a => getMapping_congr hover.shape hgrows.shape (hgrows.page a) (hgrows.block a)
      constructor
      · intro hrolls _ k hk hkfails hkfirst
        obtain ⟨hsame, hstats⟩ := hrolls e rfl
        obtain rfl : k = j := first_unique hkfails hkfirst fails first
        exact hover.alike hs (fun a => (hlook a).symm.trans (hsame a)) (hgrows.stats.symm.trans hstats)
      · intro hharm _ _
        obtain ⟨hsame, hstats⟩ := hover.unchanged hs.shape (hharm haligned j hj fails first)
        exact ⟨fun a => (hlook a).trans (hsame a), hgrows.stats.trans hstats⟩

private def rangeGeometry : Geometry := ⟨39, 40, 1, 8⟩

private def rangeHost : Host :=
  { Host.idle [some 0x1000#64, some 0x2000#64, some 0x3000#64] [true] with
    managed := fun f => decide (f.toNat < 2 ^ 48) }

/-- The last page of the geometry. -/
private def lastPage : List S2Call := [.mapPage 0x7ffffff000#64 0x9000#64 s2AccessMask]

/-- The last page is mapped once more to where it was, and the page behind it is refused. -/
theorem stage2_map_range_rolls_back_iff_last_page : ∃ ctx h',
    relmStage2ContextCreate (some rangeGeometry) rangeHost rangeGeometry 1#16 = (.ok ctx, h') ∧
    (∀ f, rangeHost.managed f = true → f.toNat < 2 ^ 48) ∧ (∀ c ∈ lastPage, c.BlockFlags) ∧
    (relmStage2MapRange (run S2Call.exec ⟨h', ctx⟩ lastPage).2 0x7ffffff000#64 0x9000#64 0x2000#64 s2AccessMask).1 =
      .error .erange ∧
    RollsBack (run S2Call.exec ⟨h', ctx⟩ lastPage).2
      (relmStage2MapRange (run S2Call.exec ⟨h', ctx⟩ lastPage).2 0x7ffffff000#64 0x9000#64 0x2000#64 s2AccessMask) := by
  have hm : ∀ f, rangeHost.managed f = true → f.toNat < 2 ^ 48 := fun f hf => of_decide_eq_true hf
  refine ⟨_, _, rfl, hm, by decide, rfl, ?_⟩
  refine (stage2_map_range_rolls_back_iff hm
    (show relmStage2ContextCreate (some rangeGeometry) rangeHost rangeGeometry 1#16 = _ from rfl) (by decide) _ _ _ _).mpr ?_
  intro _ j hj _ _ i hi
  obtain rfl : i = 0 := by
    have htwo : j < 2 := hj
    omega
  exact ⟨_, rfl, rfl, rfl⟩

/-- The last page of the geometry is redirected, and stays so when the page behind it is refused. -/
theorem failed_map_range_redirects_page : ∃ ctx h',
    relmStage2ContextCreate (some rangeGeometry) rangeHost rangeGeometry 1#16 = (.ok ctx, h') ∧
    relmStage2GetMapping (run S2Call.exec ⟨h', ctx⟩ lastPage).2 0x7ffffff000#64 = .ok 0x9000#64 ∧
    (relmStage2MapRange (run S2Call.exec ⟨h', ctx⟩ lastPage).2 0x7ffffff000#64 0x100000#64 0x2000#64 s2AccessMask).1 =
      .error .erange ∧
    relmStage2GetMapping (relmStage2MapRange (run S2Call.exec ⟨h', ctx⟩ lastPage).2 0x7ffffff000#64 0x100000#64 0x2000#64
      s2AccessMask).2 0x7ffffff000#64 = .ok 0x100000#64 := by
  refine ⟨_, _, rfl, ?_, ?_, ?_⟩ <;> rfl

end Relm.Arm64
