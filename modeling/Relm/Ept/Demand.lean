import Relm.Ept.Operations
import Relm.Host.Supplied

/-! How many frames it takes to map pages: one for each table that is missing on the way. -/
namespace Relm.Ept

/-- The paths of the three tables above a page. -/
def tablePaths (gpa : U64) : List (List (Fin 512)) := [[eptPml4Index gpa], gpaPath2 gpa, gpaPath gpa]

namespace EptState

/-- The tables that are missing on the way to a page, those at the paths `seen` aside. -/
def missing (s : EptState) (seen : List (List (Fin 512))) (gpa : U64) : List (List (Fin 512)) :=
  (tablePaths gpa).filter fun q => (s.walk q).isNone && !seen.contains q

/-- The frames it takes to map pages one after the other, with `own` frames for each page itself. -/
def demand (s : EptState) (own : Nat) : (seen : List (List (Fin 512))) → (gpas : List U64) → Nat
  | _, [] => 0
  | seen, gpa :: gpas => own + (s.missing seen gpa).length + s.demand own (tablePaths gpa ++ seen) gpas

section

variable {s t : EptState} {gpa hpa flags : U64} {pages objs : Nat}

/-- One frame for a table that is not there. -/
private def absent (s : EptState) (q : List (Fin 512)) : Nat := if (s.walk q).isNone then 1 else 0

private theorem missing_length : (s.missing [] gpa).length =
    s.absent [eptPml4Index gpa] + s.absent (gpaPath2 gpa) + s.absent (gpaPath gpa) := by
  simp only [missing, tablePaths, List.filter_cons, List.filter_nil, List.contains_nil, Bool.not_false, Bool.and_true,
    absent]
  cases s.walk [eptPml4Index gpa] <;> cases s.walk (gpaPath2 gpa) <;> cases s.walk (gpaPath gpa) <;> rfl

/-- A table is found, or created from a frame, unless the host has none. -/
private theorem getOrCreate_demand {p : List (Fin 512)} {g : U64} {j : Fin 512} (sh : Shape s) (hp : s.walk p = some g)
    (hl : p.length < 3) (hh : s.huge p j = none) :
    (∃ t, relmEptGetOrCreateTable s g j = (none, t) ∧
      ∀ pages objs, ¬ s.host.Supplied (pages + s.absent (p ++ [j])) objs) ∨
    ∃ u t, relmEptGetOrCreateTable s g j = (some u, t) ∧ Grows s t ∧ t.walk (p ++ [j]) = some u ∧
      (∀ q, q.length ≤ 3 → q ≠ p ++ [j] → t.walk q = s.walk q) ∧
      ∀ pages objs, t.host.Supplied pages objs ↔ s.host.Supplied (pages + s.absent (p ++ [j])) objs := by
  obtain ⟨o, t, ht, hgrows, -, hwalk, hothers⟩ := getOrCreate_spec (j := j) sh hp hl hh
  have hslot := walk_slot hp hh
  have hdef := ht
  unfold relmEptGetOrCreateTable at hdef
  cases ha : present (s.host.mem g j) with
  | true =>
    simp only [ha, if_true] at hdef
    cases hdef
    refine .inr ⟨_, _, ht, hgrows, hwalk _ rfl, hothers, fun pages objs => ?_⟩
    rw [absent, hslot, ha]
    exact Iff.rfl
  | false =>
    have habsent : s.absent (p ++ [j]) = 1 := by
      rw [absent, hslot, ha]
      rfl
    rw [habsent]
    rcases s.host.getFreePage_cases with hr | ⟨pa, -, hr⟩
    · simp only [ha, hr, Bool.false_eq_true, if_false] at hdef
      cases hdef
      exact .inl ⟨_, ht, fun _ _ => Host.Supplied.not_of_refused hr⟩
    · simp only [ha, hr, Bool.false_eq_true, if_false] at hdef
      cases hdef
      refine .inr ⟨_, _, ht, hgrows, hwalk _ rfl, hothers, fun pages objs => ?_⟩
      exact ⟨fun k => (Host.Supplied.take_iff hr).mp (k.congr rfl rfl rfl rfl),
        fun k => ((Host.Supplied.take_iff hr).mpr k).congr rfl rfl rfl rfl⟩

/-- Counting and storing a leaf takes no frame and leaves the tables where they are. -/
private theorem store_demand {pt : U64} (old e : U64) (sh : Shape t) (hp : t.walk (gpaPath gpa) = some pt) :
    (∀ pages objs, ((t.count4kb old).setEntry pt (eptPtIndex gpa) e).host.Supplied pages objs ↔
      t.host.Supplied pages objs) ∧
    ∀ q, q.length ≤ 3 → ((t.count4kb old).setEntry pt (eptPtIndex gpa) e).walk q = t.walk q := by
  have hcount : (t.count4kb old).host = t.host ∧ (t.count4kb old).ctx.pml4 = t.ctx.pml4 := by
    unfold count4kb
    split <;> exact ⟨rfl, rfl⟩
  constructor
  · intro pages objs
    refine ⟨fun k => k.congr ?_ ?_ ?_ ?_, fun k => k.congr ?_ ?_ ?_ ?_⟩ <;>
      simp only [setEntry, hcount.1, Host.writeWord]
  · intro q hq
    have hs : LeafSlot t (gpaPath gpa) pt (eptPtIndex gpa) e := .inl rfl
    refine Eq.trans ?_ (setEntry_walk sh hp hs q hq)
    simp only [walk, setEntry, hcount.1, hcount.2]

/-- Once the three tables on the way to a page are there, the tables are the old ones and these. -/
private theorem walk_created {s1 s2 s3 : EptState} {pdpt pd pt : U64} (g2 : Grows s1 s2) (g3 : Grows s2 s3)
    (w1 : s1.walk [eptPml4Index gpa] = some pdpt) (w2 : s2.walk (gpaPath2 gpa) = some pd)
    (w3 : s3.walk (gpaPath gpa) = some pt)
    (f1 : ∀ q, q.length ≤ 3 → q ≠ [eptPml4Index gpa] → s1.walk q = s.walk q)
    (f2 : ∀ q, q.length ≤ 3 → q ≠ gpaPath2 gpa → s2.walk q = s1.walk q)
    (f3 : ∀ q, q.length ≤ 3 → q ≠ gpaPath gpa → s3.walk q = s2.walk q) {q : List (Fin 512)} (hq : q.length ≤ 3) :
    s3.walk q = none ↔ s.walk q = none ∧ q ∉ tablePaths gpa := by
  by_cases hin : q ∈ tablePaths gpa
  · have hsome : s3.walk q ≠ none := by
      rcases List.mem_cons.mp hin with rfl | hin
      · exact fun hn => by cases ((g2.trans g3).walks _ _ (by simp) w1).symm.trans hn
      rcases List.mem_cons.mp hin with rfl | hin
      · exact fun hn => by cases (g3.walks _ _ (by simp [gpaPath2]) w2).symm.trans hn
      obtain rfl := List.mem_singleton.mp hin
      exact fun hn => by cases w3.symm.trans hn
    exact ⟨fun hn => absurd hn hsome, fun hn => absurd hin hn.2⟩
  · have hold : s3.walk q = s.walk q := by
      simp only [tablePaths, List.mem_cons, not_or] at hin
      rw [f3 q hq hin.2.2.1, f2 q hq hin.2.1, f1 q hq hin.1]
    rw [hold]
    exact ⟨fun hn => ⟨hn, hin⟩, fun hn => hn.1⟩

/-- A page is mapped exactly if the host supplies the tables that are missing; afterwards they are there. -/
theorem mapPage_demand (sh : Shape s) (hh : s.pde gpa = none)
    (hv : (eptIs4kbAligned gpa && eptIs4kbAligned hpa && present flags) = true) :
    ((∃ e, (relmEptMapPage s gpa hpa flags).ret = .error e) ∧
      ∀ pages objs, ¬ s.host.Supplied (pages + (s.missing [] gpa).length) objs) ∨
    ((relmEptMapPage s gpa hpa flags).ret = .ok () ∧
      (∀ pages objs, (relmEptMapPage s gpa hpa flags).next.host.Supplied pages objs ↔
        s.host.Supplied (pages + (s.missing [] gpa).length) objs) ∧
      ∀ q, q.length ≤ 3 → ((relmEptMapPage s gpa hpa flags).next.walk q = none ↔
        s.walk q = none ∧ q ∉ tablePaths gpa)) := by
  simp only [Bool.and_eq_true] at hv
  rw [missing_length]
  unfold relmEptMapPage
  simp only [hv.1.1, hv.1.2, hv.2, Bool.not_true, Bool.or_self, Bool.false_eq_true, if_false]
  rcases getOrCreate_demand sh (p := []) rfl (by simp) (sh.upper [] (eptPml4Index gpa) (by simp)) with
    ⟨s1, h1, no1⟩ | ⟨pdpt, s1, h1, g1, w1, f1, d1⟩
  · simp only [h1]
    exact .inl ⟨⟨_, rfl⟩, fun pages objs k => no1 pages objs (k.mono (by simp; omega))⟩
  simp only [h1]
  have e1 : s1.absent (gpaPath2 gpa) = s.absent (gpaPath2 gpa) := by
    rw [absent, absent, f1 _ (by simp [gpaPath2]) (by simp [gpaPath2])]
  rcases getOrCreate_demand g1.shape w1 (by simp) (g1.shape.upper _ (eptPdptIndex gpa) (by simp)) with
    ⟨s2, h2, no2⟩ | ⟨pd, s2, h2, g2, w2, f2, d2⟩
  · simp only [h2]
    refine .inl ⟨⟨_, rfl⟩, fun pages objs k => no2 pages objs ((d1 _ _).mpr (k.mono ?_))⟩
    change pages + s1.absent (gpaPath2 gpa) + s.absent [eptPml4Index gpa] ≤ _
    omega
  simp only [h2]
  have e2 : s2.absent (gpaPath gpa) = s.absent (gpaPath gpa) := by
    rw [absent, absent, f2 _ (by simp [gpaPath]) (by simp [gpaPath]), f1 _ (by simp [gpaPath]) (by simp [gpaPath])]
  rcases getOrCreate_demand g2.shape w2 (by simp) (((g1.trans g2).pde gpa).trans hh) with
    ⟨s3, h3, no3⟩ | ⟨pt, s3, h3, g3, w3, f3, d3⟩
  · simp only [h3]
    refine .inl ⟨⟨_, rfl⟩, fun pages objs k => no3 pages objs ((d2 _ _).mpr ((d1 _ _).mpr (k.mono ?_)))⟩
    change pages + s2.absent (gpaPath gpa) + s1.absent (gpaPath2 gpa) + s.absent [eptPml4Index gpa] ≤ _
    omega
  simp only [h3]
  obtain ⟨dstore, hstore⟩ := store_demand (s3.host.mem pt (eptPtIndex gpa)) (leafEntry hpa flags) g3.shape
    (show s3.walk (gpaPath gpa) = some pt from w3)
  refine .inr ⟨trivial, fun pages objs => ?_, fun q hq => ?_⟩
  · refine ((dstore _ _).trans ((d3 _ _).trans ((d2 _ _).trans (d1 _ _)))).trans ?_
    change s.host.Supplied (pages + s2.absent (gpaPath gpa) + s1.absent (gpaPath2 gpa) + s.absent [eptPml4Index gpa]) objs ↔ _
    rw [e1, e2, show pages + s.absent (gpaPath gpa) + s.absent (gpaPath2 gpa) + s.absent [eptPml4Index gpa] =
      pages + (s.absent [eptPml4Index gpa] + s.absent (gpaPath2 gpa) + s.absent (gpaPath gpa)) by omega]
  · rw [hstore q hq]
    exact walk_created g2 g3 w1 w2 w3 f1 f2 f3 hq

/-- Only the tables at the paths `seen` have been added. -/
def Reached (s : EptState) (seen : List (List (Fin 512))) (t : EptState) : Prop :=
  ∀ q, q.length ≤ 3 → (t.walk q = none ↔ s.walk q = none ∧ q ∉ seen)

/-- The tables are in memory, whatever else the host does. -/
theorem Reached.start (hm : t.host.mem = s.host.mem) (hc : t.ctx = s.ctx) : Reached s [] t := fun q _ => by
  rw [walk, walk, hm, hc]
  simp

/-- Mapping a page adds the tables on its way. -/
theorem Reached.cons {seen : List (List (Fin 512))} {u : EptState} (h : Reached s seen t)
    (hu : ∀ q, q.length ≤ 3 → (u.walk q = none ↔ t.walk q = none ∧ q ∉ tablePaths gpa)) :
    Reached s (tablePaths gpa ++ seen) u := by
  intro q hq
  rw [hu q hq, h q hq, List.mem_append, not_or]
  tauto

/-- What is missing for the next page. -/
theorem Reached.missing {seen : List (List (Fin 512))} (h : Reached s seen t) (gpa : U64) :
    t.missing [] gpa = s.missing seen gpa := by
  unfold EptState.missing
  refine List.filter_congr fun q hq => ?_
  have hlen : q.length ≤ 3 := by
    simp only [tablePaths, List.mem_cons, List.not_mem_nil, or_false] at hq
    rcases hq with rfl | rfl | rfl <;> simp [gpaPath2, gpaPath]
  have hw := h q hlen
  rw [Bool.eq_iff_iff]
  simpa using hw

end

end EptState

end Relm.Ept
