import Mathlib.Data.List.Perm.Basic
import Mathlib.Logic.Function.Basic

/-! One step at each of several indices, every step on the state of its own index only. What the steps answer and leave
does not depend on the order in which the indices are visited. -/
namespace Relm.Lib.Each

variable {I S A : Type*} [DecidableEq I]

/-- Make the step at each index in turn and list the answers; `none` as soon as a step has no result. -/
def each (step : I → S → Option (A × S)) : List I → (I → S) → Option (List A × (I → S))
  | [], s => some ([], s)
  | i :: l, s =>
    match step i (s i) with
    | none => none
    | some (a, t) => (each step l (Function.update s i t)).map fun r => (a :: r.1, r.2)

variable {step : I → S → Option (A × S)} {l : List I} {s : I → S}

private theorem update_rest {i : I} (hi : i ∉ l) (s : I → S) (t : S) : ∀ j ∈ l, Function.update s i t j = s j := by
  intro j hj
  refine Function.update_of_ne ?_ t s
  rintro rfl
  exact hi hj

/-- Some index has no step. -/
theorem each_eq_none_iff (hn : l.Nodup) : each step l s = none ↔ ∃ i ∈ l, step i (s i) = none := by
  induction l generalizing s with
  | nil => simp [each]
  | cons i l ih =>
    obtain ⟨hi, hn⟩ := List.nodup_cons.mp hn
    rw [each]
    cases hs : step i (s i) with
    | none => simp [hs]
    | some r =>
      obtain ⟨a, t⟩ := r
      rw [Option.map_eq_none_iff, ih hn, List.exists_mem_cons_iff]
      have hne := update_rest hi s t
      constructor
      · rintro ⟨j, hj, hnone⟩
        rw [hne j hj] at hnone
        exact .inr ⟨j, hj, hnone⟩
      · rintro (hc | ⟨j, hj, hnone⟩)
        · rw [hs] at hc
          cases hc
        · exact ⟨j, hj, by rwa [hne j hj]⟩

/-- Each index has made its own step, and the answers are those of these steps. -/
structure Made (step : I → S → Option (A × S)) (l : List I) (s : I → S) (answers : List A) (s' : I → S) : Prop where
  answer : ∀ i ∈ l, ∃ a ∈ answers, step i (s i) = some (a, s' i)
  only : ∀ a ∈ answers, ∃ i ∈ l, step i (s i) = some (a, s' i)
  others : ∀ i, i ∉ l → s' i = s i

theorem each_made (hn : l.Nodup) {answers : List A} {s' : I → S} (h : each step l s = some (answers, s')) :
    Made step l s answers s' := by
  induction l generalizing s answers with
  | nil =>
    cases h
    exact ⟨fun i hi => absurd hi List.not_mem_nil, fun a ha => absurd ha List.not_mem_nil, fun i _ => rfl⟩
  | cons i l ih =>
    obtain ⟨hi, hn⟩ := List.nodup_cons.mp hn
    rw [each] at h
    cases hs : step i (s i) with
    | none =>
      rw [hs] at h
      cases h
    | some r =>
      obtain ⟨a, t⟩ := r
      rw [hs] at h
      obtain ⟨r, hl, heq⟩ := Option.map_eq_some_iff.mp h
      obtain ⟨hanswers, rfl⟩ := Prod.mk.inj heq
      rw [← hanswers]
      obtain ⟨hans, honly, hothers⟩ := ih hn hl
      have hne := update_rest hi s t
      have hself : r.2 i = t := by rw [hothers i hi, Function.update_self]
      refine ⟨fun j hj => ?_, fun b hb => ?_, fun j hj => ?_⟩
      · rcases List.mem_cons.mp hj with rfl | hj
        · exact ⟨a, List.mem_cons_self, by rw [hs, hself]⟩
        · obtain ⟨b, hb, hstep⟩ := hans j hj
          exact ⟨b, List.mem_cons_of_mem a hb, by rw [← hstep, hne j hj]⟩
      · rcases List.mem_cons.mp hb with rfl | hb
        · exact ⟨i, List.mem_cons_self, by rw [hs, hself]⟩
        · obtain ⟨j, hj, hstep⟩ := honly b hb
          exact ⟨j, List.mem_cons_of_mem i hj, by rw [← hstep, hne j hj]⟩
      · obtain ⟨hji, hjl⟩ := not_or.mp fun hc => hj (List.mem_cons.mpr hc)
        rw [hothers j hjl, Function.update_of_ne hji]

end Relm.Lib.Each
