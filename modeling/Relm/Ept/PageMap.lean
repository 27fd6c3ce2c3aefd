import Relm.Ept.Statistics

/-! An EPT context refines a finite map from guest pages to host addresses, over every run of mapping and
unmapping calls and every pattern of table-allocation failures. -/
namespace Relm.Ept
open Relm.Lib.Run
open EptState

/-- The calls of a run. -/
inductive EptCall
  | mapPage (gpa hpa flags : U64)
  | unmapPage (gpa : U64)

namespace EptCall

def gpa : EptCall → U64
  | mapPage gpa _ _ => gpa
  | unmapPage gpa => gpa

def exec (s : EptState) : EptCall → Except Errno Unit × EptState
  | mapPage gpa hpa flags => let r := relmEptMapPage s gpa hpa flags; (r.ret, r.next)
  | unmapPage gpa => let r := relmEptUnmapPage s gpa; (r.ret, r.next)

/-- Addresses within the architectural widths, and flags that stay out of the address field. -/
def Admissible : EptCall → Prop
  | mapPage gpa hpa flags => gpa.toNat < 2 ^ 48 ∧ hpa.toNat < 2 ^ 52 ∧ flags &&& eptAddrMask = 0#64
  | unmapPage gpa => gpa.toNat < 2 ^ 48

instance : DecidablePred Admissible
  | mapPage _ _ _ => inferInstanceAs (Decidable (_ ∧ _ ∧ _))
  | unmapPage _ => inferInstanceAs (Decidable (_ < _))

end EptCall

/-- The translation of an address. -/
def translate (s : EptState) (a : U64) : Except Errno U64 := (relmEptGetMapping s a).ret

/-- The abstract map: the host address of each mapped page number. -/
abbrev PageMap := Nat → Option U64

namespace PageMap

/-- What a call that was answered in a given way means. -/
def after (m : PageMap) : EptCall × Except Errno Unit → PageMap
  | (.mapPage gpa hpa _, .ok _) => Function.update m (pageOf gpa) (some hpa)
  | (.unmapPage gpa, .ok _) => Function.update m (pageOf gpa) none
  | (_, .error _) => m

/-- For each page, the address last mapped successfully and not unmapped since. -/
def replay (tr : List (EptCall × Except Errno Unit)) : PageMap := tr.foldl after fun _ => none

def lookup (m : PageMap) (a : U64) : Except Errno U64 :=
  match m (pageOf a) with
  | none => .error .enoent
  | some hpa => .ok (hpa ||| a % 4096#64)

/-- The number of mapped pages. -/
noncomputable def size (m : PageMap) : Nat := {n | m n ≠ none}.ncard

end PageMap

/-- The concrete state and the abstract map describe the same translations. -/
structure Refines (s : EptState) (m : PageMap) : Prop where
  shape : Shape s
  noHuge : ∀ a, s.pde a = none
  counted : Counted s
  leaf : ∀ a, (s.pte a).map entryAddr = m (pageOf a)
  small : ∀ n, m n ≠ none → n < pageSpace

namespace Refines

variable {s t : EptState} {m : PageMap} {gpa hpa flags : U64}

theorem offset_eq (a : U64) : eptPageOffset a = a % 4096#64 := by
  rw [← BitVec.toNat_inj, eptPageOffset, Lib.Word.and_low_toNat _ _ 12 (by decide), BitVec.toNat_umod]
  rfl

theorem translate_eq (h : Refines s m) (a : U64) : translate s a = m.lookup a := by
  have hl := h.leaf a
  rw [translate, (getMapping_spec h.shape (h.noHuge a)).2.2, PageMap.lookup, ← hl, offset_eq]
  cases s.pte a <;> rfl

theorem size_eq (h : Refines s m) : m.size = s.leaves4kb := by
  rw [PageMap.size, leaves4kb, countBelow]
  congr 1
  ext n
  constructor
  · intro hn
    have hlt := h.small n hn
    refine ⟨hlt, ?_⟩
    have hl := h.leaf (pageAddr n)
    rw [pageOf_pageAddr hlt] at hl
    rw [Set.mem_ofPred_eq, ← hl] at hn
    cases hp : s.pte (pageAddr n) with
    | none => simp [hp] at hn
    | some e => rfl
  · rintro ⟨hlt, hs⟩
    have hl := h.leaf (pageAddr n)
    rw [pageOf_pageAddr hlt] at hl
    rw [Set.mem_ofPred_eq, ← hl]
    cases hp : s.pte (pageAddr n) with
    | none => simp [hp] at hs
    | some e => simp

theorem same (h : Refines s m) (hs : Same s t) : Refines t m where
  shape := hs.shape
  noHuge a := (hs.pde a).trans (h.noHuge a)
  counted := h.counted.same hs
  leaf a := by rw [hs.pte a, h.leaf a]
  small := h.small

/-- One leaf replaced refines one entry of the map replaced. -/
private theorem replaced {o : Option U64} {st : EptStats} (h : Refines s m) (hl : Leaves s t (s.withPte gpa o) s.pde st)
    (hc : Counted t) : Refines t (Function.update m (pageOf gpa) (o.map entryAddr)) where
  shape := hl.shape
  noHuge a := (hl.pde a).trans (h.noHuge a)
  counted := hc
  leaf a := by
    rw [hl.pte a, withPte]
    by_cases ha : pageOf a = pageOf gpa
    · simp [ha]
    · simp [ha, h.leaf a]
  small n hn := by
    by_cases hg : n = pageOf gpa
    · exact hg ▸ pageOf_lt gpa
    · rw [Function.update_of_ne hg] at hn
      exact h.small n hn

/-- One call keeps the refinement, with the map updated as the answer says. -/
theorem step (h : Refines s m) (c : EptCall) (hc : c.Admissible) : Refines (c.exec s).2 (m.after (c, (c.exec s).1)) := by
  cases c with
  | mapPage gpa hpa flags =>
    simp only [EptCall.exec]
    rcases mapPage_spec gpa hpa flags h.shape (h.noHuge gpa) with
      ⟨_, hr⟩ | ⟨_, hret, _, hs, _⟩ | ⟨hv, hret, hd, _⟩
    · rw [hr]
      exact h
    · rw [hret]
      exact h.same hs
    · rw [hret]
      have hf : isFrame hpa := by
        simp only [Bool.and_eq_true] at hv
        exact ⟨(is4kbAligned_iff hpa).mp hv.1.2, hc.2.1⟩
      have hrep := h.replaced hd.1 (h.counted.mapPage hd.1)
      rwa [Option.map_some, entryAddr_leafEntry hpa flags hf hc.2.2] at hrep
  | unmapPage gpa =>
    simp only [EptCall.exec]
    have hu := (unmapPage_spec h.shape (h.noHuge gpa)).2
    cases hp : s.pte gpa with
    | none =>
      rw [hp] at hu
      rw [hu.1, hu.2]
      exact h
    | some e =>
      rw [hp] at hu
      rw [hu.1]
      exact h.replaced hu.2 (h.counted.unmapPage (by rw [hp]; rfl) hu.2)

/-- Every run from a new context refines the replay of its answers. -/
theorem of_run {h h' : Host} {ctx : EptContext} (hc : relmEptContextCreate h = (.ok ctx, h')) {calls : List EptCall}
    (ha : ∀ c ∈ calls, c.Admissible) :
    Refines (run EptCall.exec ⟨h', ctx⟩ calls).2 (PageMap.replay (run EptCall.exec ⟨h', ctx⟩ calls).1) := by
  obtain ⟨he, -, -⟩ := contextCreate_spec hc
  refine run_invariant (P := fun tr s => Refines s (PageMap.replay tr)) ?_ ?_
    (admitted_of_forall ha _)
  · intro tr s c hr hc
    have hstep := hr.step c hc
    rwa [PageMap.replay, List.foldl_append]
  · exact ⟨he.shape, he.pde, he.counted, fun a => by rw [he.pte a]; rfl, fun n hn => absurd rfl hn⟩

end Refines

/-- What the map promises about a state: every lookup, what a further call may change, and the counters. -/
structure PageMap.Describes (m : PageMap) (s : EptState) : Prop where
  lookup : ∀ a : U64, a.toNat < 2 ^ 48 → translate s a = m.lookup a
  failed : ∀ c : EptCall, c.Admissible → ∀ e, (c.exec s).1 = .error e →
    ∀ a : U64, a.toNat < 2 ^ 48 → translate (c.exec s).2 a = translate s a
  others : ∀ c : EptCall, c.Admissible →
    ∀ a : U64, a.toNat < 2 ^ 48 → pageOf a ≠ pageOf c.gpa → translate (c.exec s).2 a = translate s a
  pages : s.ctx.stats.pages4kb.toNat = m.size
  bytes : s.ctx.stats.totalMapped.toNat = 4096 * m.size

private theorem PageMap.after_other (m : PageMap) (c : EptCall) (r : Except Errno Unit) {n : Nat} (hn : n ≠ pageOf c.gpa) :
    m.after (c, r) n = m n := by
  cases c <;> cases r <;> simp_all [PageMap.after, EptCall.gpa]

theorem Refines.describes {s : EptState} {m : PageMap} (h : Refines s m) : m.Describes s where
  lookup a _ := h.translate_eq a
  failed c hc e he a _ := by
    have hs := h.step c hc
    rw [he] at hs
    rw [hs.translate_eq, h.translate_eq]
    cases c <;> rfl
  others c hc a _ hne := by
    rw [(h.step c hc).translate_eq, h.translate_eq, PageMap.lookup, PageMap.lookup, PageMap.after_other m c _ hne]
  pages := by rw [h.size_eq, h.counted.pages4kb]
  bytes := by
    have h2 : s.leaves2mb = 0 := by simp [leaves2mb, countBelow, h.noHuge]
    rw [h.size_eq, h.counted.totalMapped, h2, Nat.mul_zero, Nat.add_zero]

/-- After every run of mapping and unmapping calls on a new context, lookups, further calls and counters
are those of the map from each page to the address last mapped and not unmapped since. -/
theorem ept_refines_page_map {h h' : Host} {ctx : EptContext} (hc : relmEptContextCreate h = (.ok ctx, h'))
    {calls : List EptCall} (ha : ∀ c ∈ calls, c.Admissible) :
    (PageMap.replay (run EptCall.exec ⟨h', ctx⟩ calls).1).Describes (run EptCall.exec ⟨h', ctx⟩ calls).2 :=
  (Refines.of_run hc ha).describes

private def sampleHost : Host :=
  Host.idle [some 0x1000#64, some 0x2000#64, some 0x3000#64, some 0x4000#64, none] [true]

/-- Two pages mapped, an allocation failure in between, and one of them unmapped again. -/
private def sampleCalls : List EptCall :=
  [.mapPage 0x5000#64 0x9000#64 (eptRwx ||| eptMemtypeWb), .mapPage 0x40000000#64 0xA000#64 eptAccessRead,
    .mapPage 0x6000#64 0xB000#64 eptAccessRead, .unmapPage 0x5000#64]

theorem ept_refines_page_map_sample : ∃ ctx h', relmEptContextCreate sampleHost = (.ok ctx, h') ∧
    (∀ c ∈ sampleCalls, c.Admissible) ∧ (PageMap.replay (run EptCall.exec ⟨h', ctx⟩ sampleCalls).1).Describes
      (run EptCall.exec ⟨h', ctx⟩ sampleCalls).2 := by
  have hadm : ∀ c ∈ sampleCalls, c.Admissible := by decide
  refine ⟨_, _, rfl, hadm, ?_⟩
  exact ept_refines_page_map (h := sampleHost) rfl hadm

end Relm.Ept
