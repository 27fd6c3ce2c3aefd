import Relm.Ept.Demand
import Relm.Vm.Regions

/-! When the page loops of a VM finish: exactly when the host supplies the frames they take. A pass-through loop that
does not finish takes out of the EPT what it put there. -/
namespace Relm.Vm
open Relm.Ept Relm.Ept.EptState

/-- `n` pages of a range, from its page `i` on. -/
def pagesFrom (base : U64) (i n : Nat) : List U64 := (List.range' i n).map fun k => base + BitVec.ofNat 64 k * pageSize

theorem pagesFrom_succ (base : U64) (i n : Nat) :
    pagesFrom base i (n + 1) = (base + BitVec.ofNat 64 i * pageSize) :: pagesFrom base (i + 1) n := by
  rw [pagesFrom, List.range'_succ]
  rfl

theorem page_aligned {base : U64} (h : base.toNat % 4096 = 0) (i : Nat) :
    eptIs4kbAligned (base + BitVec.ofNat 64 i * pageSize) = true := by
  rw [is4kbAligned_iff, BitVec.toNat_add, BitVec.toNat_mul, show pageSize.toNat = 4096 from rfl]
  omega

section RamLoop

variable {e : EptState} {s : VmState} {gpaStart : U64}

/-- A page just taken is no table. -/
private theorem taken {pa : U64} (sh : s.eptState.Shape) (hav : s.host.available pa) :
    Framed s.eptState ({ s with host := s.host.take pa } : VmState).eptState := by
  refine ⟨rfl, fun f hf => ?_, fun f hf => List.mem_cons_of_mem _ (sh.live f hf)⟩
  have hne : f ≠ pa := fun hc => hav.2.2 (hc ▸ sh.live f hf)
  funext i
  exact Lib.TableTree.fill_other _ _ _ hne

/-- The page loop finishes exactly if the host supplies the pages and the tables that are missing for them. -/
theorem ramLoop_ok_iff (hal : gpaStart.toNat % 4096 = 0) (left i : Nat) (pages : List U64) (s : VmState)
    (sh : s.eptState.Shape) (hb : ∀ a, s.eptState.pde a = none) {seen : List (List (Fin 512))}
    (hseen : e.Reached seen s.eptState) : (ramLoop gpaStart left i pages s).ret = .ok () ↔
      s.host.Supplied (e.demand 1 seen (pagesFrom gpaStart i left)) 0 := by
  induction left generalizing i pages s seen with
  | zero => exact ⟨fun _ => .zero _, fun _ => rfl⟩
  | succ left ih =>
    rw [pagesFrom_succ, demand]
    unfold ramLoop
    rcases s.host.getFreePage_cases with hr | ⟨pa, hav, hr⟩
    · simp only [hr]
      refine ⟨fun hc => (by cases hc), fun k => ?_⟩
      have hno : ¬ s.host.Supplied (0 + 1) 0 := Host.Supplied.not_of_refused hr
      exact absurd (k.mono (by omega)) hno
    · have hframed := taken sh hav
      have sh1 := hframed.shape sh
      have hb1 : ∀ a, ({ s with host := s.host.take pa } : VmState).eptState.pde a = none := fun a =>
        (hframed.pde sh a).trans (hb a)
      have hseen1 : e.Reached seen ({ s with host := s.host.take pa } : VmState).eptState := fun q hq => by
        rw [hframed.walk sh hq]
        exact hseen q hq
      have hv : (eptIs4kbAligned (gpaStart + BitVec.ofNat 64 i * pageSize) && eptIs4kbAligned pa &&
          present (vmxEptFlags relmRamFlags)) = true := by
        rw [page_aligned hal, (is4kbAligned_iff pa).mpr hav.1.1]
        decide
      have hd := mapPage_demand sh1
        (hb1 (gpaStart + BitVec.ofNat 64 i * pageSize)) hv
      have ho := mapPage_spec (gpaStart + BitVec.ofNat 64 i * pageSize) pa (vmxEptFlags relmRamFlags) sh1 (hb1 _)
      rw [hseen1.missing] at hd
      simp only [hr, vmxMemMapPage]
      rw [Nat.add_assoc, Nat.add_comm 1, Nat.add_comm (e.missing seen _).length, ← Host.Supplied.take_iff hr]
      generalize relmEptMapPage _ _ pa _ = r at hd ho ⊢
      obtain ⟨ret, next, touched⟩ := r
      rcases hd with ⟨⟨err, herr⟩, hno⟩ | ⟨hok, hsup, hwalk⟩
      · obtain rfl : ret = .error err := herr
        exact ⟨fun hc => (by cases hc), fun k => absurd k (hno _ _)⟩
      · obtain rfl : ret = .ok () := hok
        rcases ho with ⟨hv', _⟩ | ⟨_, hret, _⟩ | ⟨_, _, ⟨hl, _⟩, _⟩
        · rw [hv] at hv'
          cases hv'
        · cases hret
        · exact (ih (i + 1) (pages ++ [pa]) (s.withEpt next) hl.shape (fun a => (hl.pde a).trans (hb1 a))
            (hseen1.cons hwalk)).trans (hsup _ _)

/-- A loop that has mapped a page started at an aligned address and got its first page mapped. -/
theorem ramLoop_first {n : Nat} (h : (ramLoop gpaStart n 0 [] s).pages ≠ []) :
    gpaStart.toNat % 4096 = 0 ∧ (ramLoop gpaStart 1 0 [] s).ret = .ok () := by
  cases n with
  | zero => exact absurd rfl h
  | succ n =>
    unfold ramLoop at h ⊢
    rcases s.host.getFreePage_cases with hr | ⟨pa, -, hr⟩
    · simp only [hr] at h
      exact absurd rfl h
    · simp only [hr, vmxMemMapPage] at h ⊢
      have hal : (relmEptMapPage ({ s with host := s.host.take pa } : VmState).eptState
          (gpaStart + BitVec.ofNat 64 0 * pageSize) pa (vmxEptFlags relmRamFlags)).ret = .ok () →
          gpaStart.toNat % 4096 = 0 := fun hok => by simpa using mapPage_aligned hok
      generalize relmEptMapPage _ _ pa _ = r at h hal ⊢
      obtain ⟨ret, next, touched⟩ := r
      cases ret with
      | error err => exact absurd rfl h
      | ok u => exact ⟨hal rfl, rfl⟩

end RamLoop

section MmioLoop

variable {b e t : EptState} {gpa hpa : U64}

/-- The EPT differs from the one a pass-through loop started from in tables that have been added and in the leaves of
the first `i` pages. -/
structure Overlaid (gpa : U64) (i : Nat) (e t : EptState) : Prop extends Extends e t where
  noBlocks : ∀ a, t.pde a = none
  pte : ∀ a x, t.pte a = some x → e.pte a = some x ∨ ∃ j < i, pageOf a = pageOf (gpa + BitVec.ofNat 64 j * pageSize)

namespace Overlaid

variable {i : Nat}

theorem refl (sh : e.Shape) (hb : ∀ a, e.pde a = none) : Overlaid gpa 0 e e :=
  ⟨.refl sh, hb, fun _ _ hx => .inl hx⟩

/-- The loop finishes exactly if the host supplies the tables that are missing, and keeps to its pages. -/
theorem mmioLoop (hg : gpa.toNat % 4096 = 0) (hh : hpa.toNat % 4096 = 0) (s : VmState) (left i : Nat) (t : EptState)
    (h : Overlaid gpa i e t) {seen : List (List (Fin 512))} (hseen : b.Reached seen t) :
    ∃ ret j u, Vm.mmioLoop gpa hpa left i (s.withEpt t) = (ret, j, s.withEpt u) ∧ Overlaid gpa j e u ∧
      (ret = .ok () ↔ t.host.Supplied (b.demand 0 seen (pagesFrom gpa i left)) 0) := by
  induction left generalizing i t seen with
  | zero => exact ⟨_, _, t, rfl, h, fun _ => .zero _, fun _ => rfl⟩
  | succ left ih =>
    rw [pagesFrom_succ, demand, Nat.zero_add]
    have hv : (eptIs4kbAligned (gpa + BitVec.ofNat 64 i * pageSize) && eptIs4kbAligned (hpa + BitVec.ofNat 64 i * pageSize) &&
        present (vmxEptFlags relmMmioFlags)) = true := by
      rw [page_aligned hg, page_aligned hh]
      decide
    have hd := mapPage_demand (s := (s.withEpt t).eptState) h.shape (h.noBlocks (gpa + BitVec.ofNat 64 i * pageSize)) hv
    have ho := mapPage_spec (s := (s.withEpt t).eptState) (gpa + BitVec.ofNat 64 i * pageSize)
      (hpa + BitVec.ofNat 64 i * pageSize) (vmxEptFlags relmMmioFlags) h.shape (h.noBlocks _)
    have hmissing : (s.withEpt t).eptState.missing [] (gpa + BitVec.ofNat 64 i * pageSize) =
      b.missing seen (gpa + BitVec.ofNat 64 i * pageSize) := hseen.missing _
    rw [hmissing] at hd
    unfold Vm.mmioLoop
    simp only [vmxMemMapPage]
    rw [Nat.add_comm (b.missing seen _).length]
    generalize relmEptMapPage (s.withEpt t).eptState _ _ _ = r at hd ho ⊢
    obtain ⟨ret, next, touched⟩ := r
    rcases hd with ⟨⟨err, herr⟩, hno⟩ | ⟨hok, hsup, hwalk⟩
    · obtain rfl : ret = .error err := herr
      refine ⟨_, i, next, rfl, ?_, fun hc => (by cases hc), fun k => absurd k (hno _ _)⟩
      rcases ho with ⟨hv', _⟩ | ⟨_, _, _, hs, _⟩ | ⟨_, hret, _⟩
      · rw [hv] at hv'
        cases hv'
      · exact ⟨h.toExtends.trans hs.toExtends, fun a => (hs.pde a).trans (h.noBlocks a),
          fun a x hx => h.pte a x ((hs.pte a).symm.trans hx)⟩
      · cases hret
    · obtain rfl : ret = .ok () := hok
      rcases ho with ⟨hv', _⟩ | ⟨_, hret, _⟩ | ⟨_, _, ⟨hl, _⟩, _⟩
      · rw [hv] at hv'
        cases hv'
      · cases hret
      · have hnext : Overlaid gpa (i + 1) e next := by
          refine ⟨h.toExtends.trans hl.toExtends, fun a => (hl.pde a).trans (h.noBlocks a), fun a x hx => ?_⟩
          have hx' := (hl.pte a).symm.trans hx
          rw [withPte] at hx'
          split at hx'
          · exact .inr ⟨i, Nat.lt_succ_self i, ‹_›⟩
          · refine (h.pte a x hx').imp_right ?_
            rintro ⟨j, hj, hp⟩
            exact ⟨j, by omega, hp⟩
        obtain ⟨ret, j, u, heq, hu, hiff⟩ := ih (i + 1) next hnext (hseen.cons hwalk)
        exact ⟨ret, j, u, heq, hu, hiff.trans (hsup _ _)⟩

/-- Unmapping the pages, last first, leaves only tables behind. -/
theorem mmioUnmap (s : VmState) (i : Nat) (t : EptState) (h : Overlaid gpa i e t) :
    ∃ u, Vm.mmioUnmap gpa i (s.withEpt t) = s.withEpt u ∧ Overlaid gpa 0 e u := by
  induction i generalizing t with
  | zero => exact ⟨t, rfl, h⟩
  | succ i ih =>
    have hspec := (unmapPage_spec h.shape (h.noBlocks (gpa + BitVec.ofNat 64 i * pageSize))).2
    cases hp : t.pte (gpa + BitVec.ofNat 64 i * pageSize) with
    | none =>
      rw [hp] at hspec
      have hkeep : Overlaid gpa i e t := by
        refine ⟨h.toExtends, h.noBlocks, fun a x hx => (h.pte a x hx).imp_right ?_⟩
        rintro ⟨j, hj, hpage⟩
        refine ⟨j, Nat.lt_of_le_of_ne (Nat.lt_succ_iff.mp hj) fun hji => ?_, hpage⟩
        rw [pte_congr (hji ▸ hpage), hp] at hx
        cases hx
      obtain ⟨u, hu⟩ := ih t hkeep
      refine ⟨u, ?_, hu.2⟩
      rw [← hu.1, Vm.mmioUnmap]
      change Vm.mmioUnmap gpa i (s.withEpt (relmEptUnmapPage t _).next) = _
      rw [hspec.2]
    | some old =>
      rw [hp] at hspec
      have hl := hspec.2
      refine ih (relmEptUnmapPage t (gpa + BitVec.ofNat 64 i * pageSize)).next ⟨h.toExtends.trans hl.toExtends,
        fun a => (hl.pde a).trans (h.noBlocks a), fun a x hx => ?_⟩
      have hx' := (hl.pte a).symm.trans hx
      rw [withPte] at hx'
      split at hx'
      · cases hx'
      · rename_i hne
        refine (h.pte a x hx').imp_right ?_
        rintro ⟨j, hj, hpage⟩
        exact ⟨j, Nat.lt_of_le_of_ne (Nat.lt_succ_iff.mp hj) fun hji => hne (hji ▸ hpage), hpage⟩

end Overlaid

end MmioLoop

end Relm.Vm
