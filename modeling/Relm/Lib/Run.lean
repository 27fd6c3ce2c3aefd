import Mathlib.Data.Set.Card

/-! Runs of a machine that answers each operation: the trace of answers, side conditions on the steps, and
the invariant rule. Also counting where a predicate on an initial segment holds. -/
namespace Relm.Lib.Run

variable {S O R : Type*}

/-- Execute the operations in order; the trace pairs each with its answer. -/
def run (exec : S → O → R × S) (s : S) : List O → List (O × R) × S
  | [] => ([], s)
  | o :: os =>
    let r := exec s o
    let c := run exec r.2 os
    ((o, r.1) :: c.1, c.2)

/-- Every operation of the run meets a condition in the state it starts from. -/
def Admitted (exec : S → O → R × S) (ok : S → O → Prop) : S → List O → Prop
  | _, [] => True
  | s, o :: os => ok s o ∧ Admitted exec ok (exec s o).2 os

instance Admitted.decidable (exec : S → O → R × S) (ok : S → O → Prop) [∀ s o, Decidable (ok s o)] :
    ∀ s ops, Decidable (Admitted exec ok s ops)
  | _, [] => isTrue trivial
  | s, o :: os => @instDecidableAnd _ _ _ (Admitted.decidable exec ok (exec s o).2 os)

variable {exec : S → O → R × S} {ok : S → O → Prop}

theorem run_append (s : S) (a b : List O) : run exec s (a ++ b) =
    ((run exec s a).1 ++ (run exec (run exec s a).2 b).1, (run exec (run exec s a).2 b).2) := by
  induction a generalizing s with
  | nil => rfl
  | cons o a ih => simp only [List.cons_append, run, ih]

theorem run_map_fst (s : S) (ops : List O) : (run exec s ops).1.map Prod.fst = ops := by
  induction ops generalizing s with
  | nil => rfl
  | cons o os ih => simp only [run, List.map_cons, ih]

/-- What holds initially and survives every admitted step holds of the trace and the state of every run. -/
theorem run_invariant {P : List (O × R) → S → Prop}
    (step : ∀ tr s o, P tr s → ok s o → P (tr ++ [(o, (exec s o).1)]) (exec s o).2)
    {s : S} (init : P [] s) {ops : List O} (ha : Admitted exec ok s ops) : P (run exec s ops).1 (run exec s ops).2 := by
  suffices h : ∀ (ops : List O) (tr : List (O × R)) (s : S), P tr s → Admitted exec ok s ops →
      P (tr ++ (run exec s ops).1) (run exec s ops).2 by simpa using h ops [] s init ha
  intro ops
  induction ops with
  | nil =>
    intro tr s hp _
    simpa [run] using hp
  | cons o os ih =>
    intro tr s hp ha
    have := ih _ _ (step tr s o hp ha.1) ha.2
    simpa [run] using this

/-- A condition on the operations alone. -/
theorem admitted_of_forall {valid : O → Prop} {ops : List O} (h : ∀ o ∈ ops, valid o) (s : S) :
    Admitted exec (fun _ o => valid o) s ops := by
  induction ops generalizing s with
  | nil => trivial
  | cons o os ih => exact ⟨h o (by simp), ih (fun o ho => h o (by simp [ho])) _⟩

theorem Admitted.imp {ok' : S → O → Prop} (h : ∀ s o, ok s o → ok' s o) {s : S} {ops : List O}
    (ha : Admitted exec ok s ops) : Admitted exec ok' s ops := by
  induction ops generalizing s with
  | nil => trivial
  | cons o os ih => exact ⟨h s o ha.1, ih ha.2⟩

theorem Admitted.and {ok' : S → O → Prop} {s : S} {ops : List O} (ha : Admitted exec ok s ops)
    (hb : Admitted exec ok' s ops) : Admitted exec (fun s o => ok s o ∧ ok' s o) s ops := by
  induction ops generalizing s with
  | nil => trivial
  | cons o os ih => exact ⟨⟨ha.1, hb.1⟩, ih ha.2 hb.2⟩

/-- A run is admitted if each of its operations is, in the state that the ones before it lead to. -/
theorem admitted_iff_split (s : S) (ops : List O) : Admitted exec ok s ops ↔
    ∀ before o after, ops = before ++ o :: after → ok (run exec s before).2 o := by
  induction ops generalizing s with
  | nil => exact ⟨fun _ before o after h => by simp at h, fun _ => trivial⟩
  | cons o os ih =>
    constructor
    · rintro ⟨hok, hrest⟩ before o' after h
      cases before with
      | nil =>
        cases h
        exact hok
      | cons b before =>
        cases h
        exact (ih _).mp hrest before o' after rfl
    · intro h
      refine ⟨h [] o os rfl, (ih _).mpr fun before o' after heq => ?_⟩
      exact h (o :: before) o' after (by rw [heq, List.cons_append])

/-- What an answer says exactly of the admitted steps holds of the whole trace exactly when the run is admitted. -/
theorem forall_mem_run_iff {Q : O × R → Prop} (h : ∀ s o, Q (o, (exec s o).1) ↔ ok s o) (s : S) (ops : List O) :
    (∀ x ∈ (run exec s ops).1, Q x) ↔ Admitted exec ok s ops := by
  induction ops generalizing s with
  | nil => exact ⟨fun _ => trivial, fun _ x hx => by cases hx⟩
  | cons o os ih =>
    rw [run, List.forall_mem_cons, ih, h]
    rfl

/-- Operations that are each admitted in every state the machine can be in are admitted as a run. -/
theorem admitted_of_invariant {Inv : S → Prop} {valid : O → Prop}
    (step : ∀ s o, Inv s → valid o → ok s o ∧ Inv (exec s o).2) {s : S} (init : Inv s) {ops : List O}
    (hv : ∀ o ∈ ops, valid o) : Admitted exec ok s ops := by
  induction ops generalizing s with
  | nil => trivial
  | cons o os ih =>
    obtain ⟨hok, hnext⟩ := step s o init (hv o List.mem_cons_self)
    exact ⟨hok, ih hnext fun o ho => hv o (List.mem_cons_of_mem _ ho)⟩

/-- A property of the trace and the state holds before and after every step of a run. -/
def Throughout (exec : S → O → R × S) (P : List (O × R) → S → Prop) : List (O × R) → S → List O → Prop
  | tr, s, [] => P tr s
  | tr, s, o :: os => P tr s ∧ Throughout exec P (tr ++ [(o, (exec s o).1)]) (exec s o).2 os

theorem Throughout.start {P : List (O × R) → S → Prop} {tr : List (O × R)} {s : S} {ops : List O}
    (h : Throughout exec P tr s ops) : P tr s := by
  cases ops with
  | nil => exact h
  | cons o os => exact h.1

/-- A property that a step keeps when it is admitted and breaks when it is not holds throughout exactly the runs all
of whose steps are admitted. -/
theorem throughout_iff_admitted {Inv P : List (O × R) → S → Prop} (holds : ∀ tr s, Inv tr s → P tr s)
    (step : ∀ tr s o, Inv tr s → ok s o → Inv (tr ++ [(o, (exec s o).1)]) (exec s o).2)
    (fails : ∀ tr s o, Inv tr s → ¬ ok s o → ¬ P (tr ++ [(o, (exec s o).1)]) (exec s o).2)
    {tr : List (O × R)} {s : S} (init : Inv tr s) (ops : List O) :
    Throughout exec P tr s ops ↔ Admitted exec ok s ops := by
  induction ops generalizing tr s with
  | nil => exact ⟨fun _ => trivial, fun _ => holds tr s init⟩
  | cons o os ih =>
    constructor
    · intro h
      have hok : ok s o := by
        by_contra hno
        exact fails tr s o init hno h.2.start
      exact ⟨hok, (ih (step tr s o init hok)).mp h.2⟩
    · intro h
      exact ⟨holds tr s init, (ih (step tr s o init h.1)).mpr h.2⟩

/-- A view that no step of a fallible machine changes is, after a run without a failure, what it was before. -/
theorem view_foldlM {T E : Type*} {exec : S → O → Except E S} (view : S → T)
    (step : ∀ s o s', exec s o = .ok s' → view s' = view s) {s s' : S} {ops : List O} (h : ops.foldlM exec s = .ok s') :
    view s' = view s := by
  induction ops generalizing s with
  | nil =>
    cases h
    rfl
  | cons o os ih =>
    rw [List.foldlM_cons] at h
    cases he : exec s o with
    | error e =>
      rw [he] at h
      cases h
    | ok t =>
      rw [he] at h
      exact (ih h).trans (step s o t he)

/-- What holds initially and survives every step of a partial machine holds after every run without a fault. -/
theorem foldlM_invariant {exec : S → O → Option S} {P : S → Prop} {valid : O → Prop}
    (step : ∀ s o s', P s → valid o → exec s o = some s' → P s') {s s' : S} (init : P s) {ops : List O}
    (hv : ∀ o ∈ ops, valid o) (h : ops.foldlM exec s = some s') : P s' := by
  induction ops generalizing s with
  | nil =>
    cases h
    exact init
  | cons o os ih =>
    rw [List.foldlM_cons] at h
    cases he : exec s o with
    | none =>
      rw [he] at h
      cases h
    | some t =>
      rw [he] at h
      exact ih (step s o t init (hv o List.mem_cons_self) he) (fun o ho => hv o (List.mem_cons_of_mem _ ho)) h

section View

variable {T O' R' : Type*} {exec' : T → O' → R' × T} {part : O → Option O'} {answer : R → R'}

/-- The answers of a run to the operations that have a local part. -/
def localTrace (part : O → Option O') (answer : R → R') (tr : List (O × R)) : List (O' × R') :=
  tr.filterMap fun x => (part x.1).map fun o => (o, answer x.2)

/-- A part of the state that only some operations see, each as a local step, goes through the local run of these. -/
theorem run_view (view : S → T) (Inv : S → Prop)
    (keep : ∀ s o, Inv s → ok s o → Inv (exec s o).2)
    (visible : ∀ s o o', Inv s → ok s o → part o = some o' →
      exec' (view s) o' = (answer (exec s o).1, view (exec s o).2))
    (hidden : ∀ s o, Inv s → ok s o → part o = none → view (exec s o).2 = view s)
    {s : S} (hi : Inv s) {ops : List O} (ha : Admitted exec ok s ops) :
    run exec' (view s) (ops.filterMap part) =
      (localTrace part answer (run exec s ops).1, view (run exec s ops).2) := by
  induction ops generalizing s with
  | nil => rfl
  | cons o os ih =>
    have hrest := ih (keep s o hi ha.1) ha.2
    cases hp : part o with
    | none =>
      rw [hidden s o hi ha.1 hp] at hrest
      simp only [List.filterMap_cons, hp, run, localTrace, hrest, Option.map_none]
    | some o' =>
      simp only [List.filterMap_cons, hp, run, localTrace, visible s o o' hi ha.1 hp, hrest, Option.map_some]

end View

section Count

variable {f g : Nat → Bool} {k n : Nat}

/-- How many positions below a bound satisfy a test. -/
noncomputable def countBelow (n : Nat) (f : Nat → Bool) : Nat := {i | i < n ∧ f i = true}.ncard

private theorem finite_below (n : Nat) (f : Nat → Bool) : {i | i < n ∧ f i = true}.Finite :=
  (Set.finite_lt_nat n).subset fun _ h => h.1

theorem countBelow_le (n : Nat) (f : Nat → Bool) : countBelow n f ≤ n := by
  have hsub : {i | i < n ∧ f i = true} ⊆ (Finset.range n : Set Nat) := fun _ h => Finset.mem_coe.mpr (Finset.mem_range.mpr h.1)
  have h := Set.ncard_le_ncard hsub (Finset.finite_toSet _)
  rwa [Set.ncard_coe_finset, Finset.card_range] at h

/-- A test that fails from a bound on is counted below it. -/
theorem ncard_eq_countBelow (h : ∀ i, f i = true → i < n) : {i | f i = true}.ncard = countBelow n f := by
  rw [countBelow]
  congr 1
  ext i
  exact ⟨fun hi => ⟨h i hi, hi⟩, fun hi => hi.2⟩

/-- Turning one more position on raises the count by one. -/
theorem countBelow_succ (hk : k < n) (hne : ∀ i < n, i ≠ k → g i = f i) (hf : f k = false) (hg : g k = true) :
    countBelow n g = countBelow n f + 1 := by
  have hset : {i | i < n ∧ g i = true} = insert k {i | i < n ∧ f i = true} := by
    ext i
    simp only [Set.mem_ofPred_eq, Set.mem_insert_iff]
    by_cases hi : i = k
    · subst hi
      simp [hk, hg]
    · simp only [hi, false_or]
      exact and_congr_right fun hin => by rw [hne i hin hi]
  rw [countBelow, countBelow, hset, Set.ncard_insert_of_notMem (by simp [hf]) (finite_below n f)]

theorem countBelow_congr (h : ∀ i < n, g i = f i) : countBelow n g = countBelow n f := by
  rw [countBelow, countBelow]
  congr 1
  ext i
  exact and_congr_right fun hi => by rw [h i hi]

/-- How the count moves when at most one position changes. -/
theorem countBelow_update (hk : k < n) (hne : ∀ i < n, i ≠ k → g i = f i) :
    countBelow n g + (f k).toNat = countBelow n f + (g k).toNat := by
  cases hf : f k <;> cases hg : g k
  · rw [countBelow_congr fun i hi => if h : i = k then by rw [h, hf, hg] else hne i hi h]
  · rw [countBelow_succ hk hne hf hg]
    rfl
  · rw [countBelow_succ hk (fun i hi h => (hne i hi h).symm) hg hf]
    rfl
  · rw [countBelow_congr fun i hi => if h : i = k then by rw [h, hf, hg] else hne i hi h]

theorem ncard_le_of_lt (h : ∀ i, f i = true → i < n) : {i | f i = true}.ncard ≤ n := by
  rw [ncard_eq_countBelow h]
  exact countBelow_le n f

/-- How the number of keys of a partial function moves when it is updated at one. -/
theorem ncard_isSome_update {α : Type*} {f : Nat → Option α} (o : Option α) (h : ∀ i, (f i).isSome = true → i < n)
    (hk : k < n) : {i | (Function.update f k o i).isSome = true}.ncard + (f k).isSome.toNat =
      {i | (f i).isSome = true}.ncard + o.isSome.toNat := by
  have hu : ∀ i, (Function.update f k o i).isSome = true → i < n := by
    intro i hi
    by_cases hik : i = k
    · rw [hik]
      exact hk
    · rw [Function.update_of_ne hik] at hi
      exact h i hi
  rw [ncard_eq_countBelow h, ncard_eq_countBelow hu]
  have hc := countBelow_update (f := fun i => (f i).isSome) (g := fun i => (Function.update f k o i).isSome) hk
    fun i _ hne => by rw [Function.update_of_ne hne]
  rw [Function.update_self] at hc
  exact hc

end Count

end Relm.Lib.Run
