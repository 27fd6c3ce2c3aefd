import Relm.Vm.Vcpus

/-! Starting and stopping a VM: `relm_run_vm`, `relm_stop_vm`, and the threads of the VCPUs between the calls. -/
namespace Relm.Vm

/-- What the thread of a VCPU does next, with the outcome of the function it calls. -/
inductive ThreadEvent
  | enter
  | pin (ok : Bool)
  | init (ok : Bool)
  /-- `vcpu_run` fails, or `handle_exit` reports a fatal condition. -/
  | fails
  /-- An exit is handled; the handler leaves this state and this `halted`. -/
  | handled (state : VcpuStatus) (halted : Bool)

namespace Vcpu

/-- The thread leaves `relm_vcpu_loop` through `_out_arch_destroy`. -/
def leaveLoop (v : Vcpu) : Vcpu :=
  { v with state := if v.state = .error then .error else .stopped, hostTask := some .exited }

/-- The thread returns after an error, whichever label it goes through. -/
def fail (v : Vcpu) : Vcpu := { v with state := .error, hostTask := some .exited }

/-- One step of `relm_vcpu_loop`; an event that does not fit the phase does nothing. -/
def thread (v : Vcpu) : ThreadEvent → Vcpu
  | .enter => if v.hostTask = some .created then { v with hostTask := some .entered } else v
  | .pin ok =>
    if v.hostTask = some .entered then if ok then { v with hostTask := some .pinned } else v.fail else v
  | .init ok =>
    if v.hostTask = some .pinned then
      if ok then { v with state := .running, hostTask := some .looping } else v.fail
    else v
  | .fails => if v.hostTask = some .looping then v.fail else v
  | .handled state halted =>
    if v.hostTask = some .looping then
      let v := { v with state, halted }
      if state = .running then v else v.leaveLoop
    else v

end Vcpu

/-- How a thread that is told to stop comes to its end: what it still does, and the outcomes of pinning and of
`vcpu_init` should it be before them. -/
structure Ending where
  late : List ThreadEvent
  pin : Bool
  init : Bool

/-- `kthread_stop`: a thread that has not been entered never is, the others run on to the next test of
`kthread_should_stop`. -/
def kthreadStop (e : Ending) (v : Vcpu) : Vcpu :=
  let v := e.late.foldl Vcpu.thread v
  match v.hostTask with
  | some .entered => if !e.pin then v.fail else if !e.init then v.fail else Vcpu.leaveLoop { v with state := .running }
  | some .pinned => if !e.init then v.fail else Vcpu.leaveLoop { v with state := .running }
  | some .looping => v.leaveLoop
  | _ => v

def relmVcpuStop (e : Ending) (v : Vcpu) : Vcpu :=
  if v.hostTask.isNone then v else { kthreadStop e v with hostTask := none }

/-- `created` is the error of `kthread_create`, if it fails. -/
def relmVcpuRun (created : Option Errno) (v : Vcpu) : Except Errno Unit × Vcpu :=
  if v.hostTask.isSome then (.error .ebusy, v)
  else if v.state ≠ .initialized then (.error .einval, v)
  else
    match created with
    | some e => (.error e, { v with halted := false })
    | none => (.ok (), { v with halted := false, hostTask := some .created })

/-- The start loop of `relm_run_vm` from slot `i` on: the first error, the VCPUs counted as started, and the slots. -/
def startVcpus (created : Nat → Option Errno) : (i : Nat) → List (Option Vcpu) → Option Errno × Nat × List (Option Vcpu)
  | _, [] => (none, 0, [])
  | i, none :: rest =>
    let r := startVcpus created (i + 1) rest
    (r.1, r.2.1, none :: r.2.2)
  | i, some v :: rest =>
    if v.hostTask.isSome then
      let r := startVcpus created (i + 1) rest
      (r.1, r.2.1 + 1, some v :: r.2.2)
    else
      match relmVcpuRun (created i) v with
      | (.error e, v) => (some e, 0, some v :: rest)
      | (.ok _, v) =>
        let r := startVcpus created (i + 1) rest
        (r.1, r.2.1 + 1, some v :: r.2.2)

/-- The stop loop of both functions. -/
def stopVcpus (endings : Nat → Ending) : (i : Nat) → List (Option Vcpu) → List (Option Vcpu)
  | _, [] => []
  | i, none :: rest => none :: stopVcpus endings (i + 1) rest
  | i, some v :: rest =>
    some (if v.hostTask.isNone then v else relmVcpuStop (endings i) v) :: stopVcpus endings (i + 1) rest

/-- The states in which `relm_run_vm` accepts a VM. -/
def VmStatus.runnable (s : VmStatus) : Bool := s == .initialized || s == .stopped

def relmRunVm (created : Nat → Option Errno) (endings : Nat → Ending) (vm : VmCpus) : Except Errno Unit × VmCpus :=
  if !vm.state.runnable then (.error .einval, vm)
  else if vm.onlineVcpus = 0 then (.error .enoent, vm)
  else
    match startVcpus created 0 vm.vcpus with
    | (some e, _, vcpus) => (.error e, { vm with vcpus := stopVcpus endings 0 vcpus, state := .initialized })
    | (none, 0, vcpus) => (.error .eio, { vm with vcpus, state := .stopped })
    | (none, _ + 1, vcpus) => (.ok (), { vm with vcpus, state := .running })

def relmStopVm (endings : Nat → Ending) (vm : VmCpus) : Except Errno Unit × VmCpus :=
  (.ok (), { vm with vcpus := stopVcpus endings 0 vm.vcpus, state := .stopped })

/-- What happens to a VM: the two calls, with the outcomes of the kernel's thread functions, and steps of the threads. -/
inductive LifeOp
  | run (created : Nat → Option Errno) (endings : Nat → Ending)
  | stop (endings : Nat → Ending)
  | thread (i : Nat) (event : ThreadEvent)

namespace LifeOp

/-- A step of the thread in slot `i`. -/
def threadAt (vcpus : List (Option Vcpu)) (i : Nat) (event : ThreadEvent) : List (Option Vcpu) :=
  vcpus.modify i fun slot => slot.map fun v => v.thread event

def exec (vm : VmCpus) : LifeOp → Except Errno Unit × VmCpus
  | run created endings => relmRunVm created endings vm
  | stop endings => relmStopVm endings vm
  | thread i event => (.ok (), { vm with vcpus := threadAt vm.vcpus i event })

end LifeOp

/-- A VCPU in slot `i` without a thread. -/
def Idle (vm : VmCpus) (i : Nat) (v : Vcpu) : Prop := vm.vcpus[i]? = some (some v) ∧ v.hostTask = none

/-- What a call of `relm_run_vm` owes its caller. -/
structure RunOk (created : Nat → Option Errno) (vm : VmCpus) (ret : Except Errno Unit) (vm' : VmCpus) : Prop where
  starts : vm.state.runnable = true → (∀ i v, Idle vm i v → created i = none) →
    ret = .ok () ∧ ∀ (i : Nat) v, vm'.vcpus[i]? = some (some v) → v.hostTask.isSome = true
  undoes : ∀ e, ret = .error e → vm'.state = vm.state ∧
    ∀ (i : Nat) v, Idle vm i v → ∀ v', vm'.vcpus[i]? = some (some v') → v'.hostTask = none

/-- A running VM has a VCPU with a thread. -/
def RunningHasThread (vm : VmCpus) : Prop :=
  vm.state = .running → ∃ (i : Nat) (v : Vcpu), vm.vcpus[i]? = some (some v) ∧ v.hostTask.isSome = true

/-- Every state of a run and every call of `relm_run_vm` in it is as it should be. -/
def LifeSound (vm : VmCpus) : List LifeOp → Prop
  | [] => RunningHasThread vm
  | op :: ops => RunningHasThread vm ∧
      (∀ created endings, op = .run created endings → RunOk created vm (op.exec vm).1 (op.exec vm).2) ∧
      LifeSound (op.exec vm).2 ops

/-- Every idle VCPU can be started, or the VM was never started and the creation of a thread fails. -/
def LifeFits (vm : VmCpus) : LifeOp → Prop
  | .run created _ => vm.state.runnable = true →
      (∀ i v, Idle vm i v → v.state = .initialized ∧ created i = none) ∨
      vm.state = .initialized ∧ ∃ i v, Idle vm i v ∧ created i ≠ none
  | _ => True

/-- Every operation of a run fits in the state it meets. -/
def LifeFitsAll (vm : VmCpus) : List LifeOp → Prop
  | [] => True
  | op :: ops => LifeFits vm op ∧ LifeFitsAll (op.exec vm).2 ops

section Loops

variable (created : Nat → Option Errno) (endings : Nat → Ending)

theorem startVcpus_isSome (i : Nat) (l : List (Option Vcpu)) :
    (startVcpus created i l).2.2.map Option.isSome = l.map Option.isSome := by
  induction l generalizing i with
  | nil => rfl
  | cons slot rest ih =>
    cases slot with
    | none => simp [startVcpus, ih]
    | some v =>
      unfold startVcpus
      split
      · simp [ih]
      · split <;> simp [ih]

theorem stopVcpus_isSome (i : Nat) (l : List (Option Vcpu)) : (stopVcpus endings i l).map Option.isSome = l.map Option.isSome := by
  induction l generalizing i with
  | nil => rfl
  | cons slot rest ih => cases slot <;> simp [stopVcpus, ih]

/-- Nothing runs after the stop loop. -/
theorem stopVcpus_idle (i : Nat) (l : List (Option Vcpu)) (k : Nat) (v : Vcpu)
    (h : (stopVcpus endings i l)[k]? = some (some v)) : v.hostTask = none := by
  induction l generalizing i k with
  | nil => cases h
  | cons slot rest ih =>
    cases k with
    | zero =>
      cases slot with
      | none => cases h
      | some w =>
        simp only [stopVcpus, List.getElem?_cons_zero, Option.some.injEq] at h
        rw [← h]
        split
        · rename_i hn
          exact Option.isNone_iff_eq_none.mp hn
        · rename_i hn
          rw [relmVcpuStop, if_neg hn]
    | succ k =>
      cases slot with
      | none => exact ih (i + 1) k h
      | some w => exact ih (i + 1) k h

/-- What the start loop needs of a VCPU without a thread. -/
def Startable (v : Vcpu) (outcome : Option Errno) : Prop := v.hostTask = none → v.state = .initialized ∧ outcome = none

private theorem vcpuRun_startable {v : Vcpu} {outcome : Option Errno} (hv : v.hostTask = none)
    (h : v.state = .initialized ∧ outcome = none) :
    relmVcpuRun outcome v = (.ok (), { v with halted := false, hostTask := some .created }) := by
  simp [relmVcpuRun, hv, h.1, h.2]

private theorem vcpuRun_refused {v : Vcpu} {outcome : Option Errno} (hv : v.hostTask = none)
    (h : ¬ (v.state = .initialized ∧ outcome = none)) : ∃ e v', relmVcpuRun outcome v = (.error e, v') := by
  unfold relmVcpuRun
  rw [if_neg (by simp [hv])]
  split
  · exact ⟨_, _, rfl⟩
  · rename_i hs
    cases outcome with
    | some e => exact ⟨e, _, rfl⟩
    | none => exact absurd ⟨not_not.mp hs, rfl⟩ h

private theorem forall_slots_cons {P : Nat → Vcpu → Prop} {slot : Option Vcpu} {rest : List (Option Vcpu)} :
    (∀ (k : Nat) v, (slot :: rest)[k]? = some (some v) → P k v) ↔
      (∀ v, slot = some v → P 0 v) ∧ ∀ (k : Nat) v, rest[k]? = some (some v) → P (k + 1) v := by
  constructor
  · exact fun h => ⟨fun v hv => h 0 v (congrArg some hv), fun k v hv => h (k + 1) v hv⟩
  · rintro ⟨h0, hs⟩ k v hv
    cases k with
    | zero => exact h0 v (Option.some.inj hv)
    | succ k => exact hs k v hv

/-- The start loop succeeds exactly when every VCPU it meets can be started, and then every VCPU has a thread. -/
theorem startVcpus_spec (i : Nat) (l : List (Option Vcpu)) :
    ((startVcpus created i l).1 = none ↔ ∀ (k : Nat) v, l[k]? = some (some v) → Startable v (created (i + k))) ∧
    ((startVcpus created i l).1 = none →
      (startVcpus created i l).2.1 = l.countP Option.isSome ∧
      ∀ (k : Nat) v, (startVcpus created i l).2.2[k]? = some (some v) → v.hostTask.isSome = true) := by
  induction l generalizing i with
  | nil => exact ⟨⟨fun _ k v hv => (by cases hv), fun _ => rfl⟩, fun _ => ⟨rfl, fun k v hv => by cases hv⟩⟩
  | cons slot rest ih =>
    obtain ⟨ihiff, ihdone⟩ := ih (i + 1)
    have hshift : (∀ (k : Nat) v, rest[k]? = some (some v) → Startable v (created (i + (k + 1)))) ↔
        (startVcpus created (i + 1) rest).1 = none := by
      rw [ihiff]
      simp only [Nat.add_assoc, Nat.add_comm 1]
    rw [forall_slots_cons, hshift]
    cases slot with
    | none =>
      simp only [startVcpus]
      refine ⟨⟨fun h => ⟨fun v hv => (by cases hv), h⟩, fun h => h.2⟩, fun h => ?_⟩
      obtain ⟨hcount, hall⟩ := ihdone h
      refine ⟨by rw [hcount, List.countP_cons_of_neg (by simp)], ?_⟩
      exact (forall_slots_cons (P := fun _ v => v.hostTask.isSome = true)).mpr ⟨fun v hv => (by cases hv), hall⟩
    | some v =>
      have hdone : ∀ w : Vcpu, w.hostTask.isSome = true → (startVcpus created (i + 1) rest).1 = none →
          (startVcpus created (i + 1) rest).2.1 + 1 = (some v :: rest).countP Option.isSome ∧
          ∀ (k : Nat) u, (some w :: (startVcpus created (i + 1) rest).2.2)[k]? = some (some u) → u.hostTask.isSome = true := by
        intro w hw h
        obtain ⟨hcount, hall⟩ := ihdone h
        refine ⟨by rw [hcount, List.countP_cons_of_pos (by simp)], ?_⟩
        refine (forall_slots_cons (P := fun _ v => v.hostTask.isSome = true)).mpr ⟨?_, hall⟩
        rintro u ⟨⟩
        exact hw
      have hfirst : (∀ u, some v = some u → Startable u (created (i + 0))) ↔ Startable v (created i) :=
        ⟨fun h => h v rfl, by rintro h u ⟨⟩; exact h⟩
      rw [hfirst]
      simp only [startVcpus]
      cases ht : v.hostTask with
      | some phase =>
        simp only [Option.isSome_some, if_true]
        refine ⟨⟨fun h => ⟨fun hn => ?_, h⟩, fun h => h.2⟩, hdone v (by rw [ht]; rfl)⟩
        rw [ht] at hn
        cases hn
      | none =>
        simp only [Option.isSome_none, Bool.false_eq_true, if_false]
        by_cases hs : v.state = .initialized ∧ created i = none
        · rw [vcpuRun_startable ht hs]
          exact ⟨⟨fun h => ⟨fun _ => hs, h⟩, fun h => h.2⟩, hdone _ rfl⟩
        · obtain ⟨e, v', hrun⟩ := vcpuRun_refused ht hs
          rw [hrun]
          exact ⟨⟨fun h => (by cases h), fun h => absurd (h.1 ht) hs⟩, fun h => by cases h⟩

end Loops

/-- A thread never clears `host_task`. -/
theorem Vcpu.thread_isSome (v : Vcpu) (event : ThreadEvent) : (v.thread event).hostTask.isSome = v.hostTask.isSome := by
  cases event with
  | enter =>
    simp only [Vcpu.thread]
    split
    · rename_i h
      simp [h]
    · rfl
  | pin ok =>
    simp only [Vcpu.thread]
    split
    · rename_i h
      cases ok <;> simp [h, Vcpu.fail]
    · rfl
  | init ok =>
    simp only [Vcpu.thread]
    split
    · rename_i h
      cases ok <;> simp [h, Vcpu.fail]
    · rfl
  | fails =>
    simp only [Vcpu.thread]
    split
    · rename_i h
      simp [h, Vcpu.fail]
    · rfl
  | handled state halted =>
    simp only [Vcpu.thread]
    split
    · rename_i h
      split <;> simp [h, Vcpu.leaveLoop]
    · rfl

/-- What every operation keeps: a VCPU, its count, and that a running VM has a thread. -/
structure Alive (vm : VmCpus) : Prop where
  vcpu : true ∈ vm.vcpus.map Option.isSome
  online : vm.onlineVcpus ≠ 0
  thread : RunningHasThread vm

namespace Alive

variable {vm : VmCpus}

private theorem exists_slot {l : List (Option Vcpu)} (h : true ∈ l.map Option.isSome) :
    ∃ (k : Nat) (v : Vcpu), l[k]? = some (some v) := by
  obtain ⟨slot, hslot, hsome⟩ := List.mem_map.mp h
  obtain ⟨v, rfl⟩ := Option.isSome_iff_exists.mp hsome
  obtain ⟨k, hk⟩ := List.getElem?_of_mem hslot
  exact ⟨k, v, hk⟩

private theorem startable_iff (vm : VmCpus) (created : Nat → Option Errno) :
    (startVcpus created 0 vm.vcpus).1 = none ↔ ∀ i v, Idle vm i v → v.state = .initialized ∧ created i = none := by
  rw [(startVcpus_spec created 0 vm.vcpus).1]
  simp only [Nat.zero_add]
  exact ⟨fun h i v hi => h i v hi.1 hi.2, fun h i v hi hn => h i v ⟨hi, hn⟩⟩

/-- A call of `relm_run_vm` on a VM it accepts: every VCPU is started, or all are stopped and the VM is marked as never
started. -/
private theorem run_cases (h : Alive vm) (created : Nat → Option Errno) (endings : Nat → Ending)
    (hr : vm.state.runnable = true) :
    ((∀ i v, Idle vm i v → v.state = .initialized ∧ created i = none) ∧
      ∃ vcpus, relmRunVm created endings vm = (.ok (), { vm with vcpus, state := .running }) ∧
        vcpus.map Option.isSome = vm.vcpus.map Option.isSome ∧
        ∀ (k : Nat) v, vcpus[k]? = some (some v) → v.hostTask.isSome = true) ∨
    (¬ (∀ i v, Idle vm i v → v.state = .initialized ∧ created i = none) ∧
      ∃ e vcpus, relmRunVm created endings vm = (.error e, { vm with vcpus, state := .initialized }) ∧
        vcpus.map Option.isSome = vm.vcpus.map Option.isSome ∧
        ∀ (k : Nat) v, vcpus[k]? = some (some v) → v.hostTask = none) := by
  rw [← startable_iff]
  have hsome := startVcpus_isSome created 0 vm.vcpus
  obtain ⟨-, hdone⟩ := startVcpus_spec created 0 vm.vcpus
  unfold relmRunVm
  rw [hr, if_neg (by decide), if_neg h.online]
  generalize startVcpus created 0 vm.vcpus = r at hsome hdone ⊢
  obtain ⟨err, started, vcpus⟩ := r
  cases err with
  | some e =>
    refine .inr ⟨fun hc => (by cases hc), e, _, rfl, ?_, stopVcpus_idle endings 0 vcpus⟩
    rw [stopVcpus_isSome]
    exact hsome
  | none =>
    obtain ⟨hcount, hall⟩ := hdone rfl
    have hpos : 0 < started := by
      obtain ⟨slot, hslot, hs⟩ := List.mem_map.mp h.vcpu
      rw [show started = vm.vcpus.countP Option.isSome from hcount, List.countP_pos_iff]
      exact ⟨slot, hslot, hs⟩
    obtain ⟨n, rfl⟩ : ∃ n, started = n + 1 := ⟨started - 1, by omega⟩
    exact .inl ⟨rfl, vcpus, rfl, hsome, hall⟩

private theorem run_other {created : Nat → Option Errno} {endings : Nat → Ending} (hr : vm.state.runnable = false) :
    relmRunVm created endings vm = (.error .einval, vm) := by simp [relmRunVm, hr]

private theorem runOk_iff (h : Alive vm) (created : Nat → Option Errno) (endings : Nat → Ending) :
    RunOk created vm (relmRunVm created endings vm).1 (relmRunVm created endings vm).2 ↔ LifeFits vm (.run created endings) := by
  cases hr : vm.state.runnable with
  | false =>
    rw [run_other hr]
    have hno : vm.state.runnable ≠ true := by
      rw [hr]
      decide
    refine ⟨fun _ hc => absurd hc hno, fun _ => ⟨fun hc => absurd hc hno, fun e _ => ⟨rfl, ?_⟩⟩⟩
    intro i v hi v' hv'
    obtain rfl := Option.some.inj (Option.some.inj (hi.1.symm.trans hv'))
    exact hi.2
  | true =>
    simp only [LifeFits, hr, true_imp_iff]
    rcases h.run_cases created endings hr with ⟨hall, vcpus, hrun, -, hthreads⟩ | ⟨hnot, e, vcpus, hrun, -, hidle⟩
    · rw [hrun]
      exact ⟨fun _ => .inl hall, fun _ => ⟨fun _ _ => ⟨rfl, hthreads⟩, fun e he => by cases he⟩⟩
    · rw [hrun]
      constructor
      · intro hok
        refine .inr ⟨((hok.undoes e rfl).1).symm, ?_⟩
        by_contra hnone
        have hcreated : ∀ i v, Idle vm i v → created i = none := by
          intro i v hi
          by_contra hc
          exact hnone ⟨i, v, hi, hc⟩
        cases (hok.starts hr hcreated).1
      · rintro (hall | ⟨hs, i, v, hi, hc⟩)
        · exact absurd hall hnot
        · exact ⟨fun _ hcreated => absurd (hcreated i v hi) hc, fun e' _ => ⟨hs.symm, fun k _ _ v' hv' => hidle k v' hv'⟩⟩

private theorem threadAt_get (l : List (Option Vcpu)) (i : Nat) (event : ThreadEvent) (k : Nat) :
    (LifeOp.threadAt l i event)[k]? = (l[k]?).map fun slot => if i = k then slot.map fun v => v.thread event else slot := by
  rw [LifeOp.threadAt, List.getElem?_modify]
  by_cases hik : i = k
  · simp only [if_pos hik]
    rfl
  · simp only [if_neg hik]
    rfl

private theorem threadAt_isSome (l : List (Option Vcpu)) (i : Nat) (event : ThreadEvent) :
    (LifeOp.threadAt l i event).map Option.isSome = l.map Option.isSome := by
  apply List.ext_getElem?
  intro k
  rw [List.getElem?_map, List.getElem?_map, threadAt_get, Option.map_map]
  congr 1
  funext slot
  by_cases hik : i = k <;> simp [hik]

private theorem step (h : Alive vm) (op : LifeOp) : Alive (op.exec vm).2 := by
  cases op with
  | run created endings =>
    cases hr : vm.state.runnable with
    | false =>
      rw [LifeOp.exec, run_other hr]
      exact h
    | true =>
      rw [LifeOp.exec]
      rcases h.run_cases created endings hr with ⟨-, vcpus, hrun, hsome, hthreads⟩ | ⟨-, e, vcpus, hrun, hsome, -⟩
      · rw [hrun]
        have hv : true ∈ vcpus.map Option.isSome := hsome ▸ h.vcpu
        obtain ⟨k, v, hk⟩ := exists_slot hv
        exact ⟨hv, h.online, fun _ => ⟨k, v, hk, hthreads k v hk⟩⟩
      · rw [hrun]
        exact ⟨hsome ▸ h.vcpu, h.online, fun hc => by cases hc⟩
  | stop endings =>
    refine ⟨?_, h.online, fun hc => by cases hc⟩
    have hsome := stopVcpus_isSome endings 0 vm.vcpus
    exact hsome ▸ h.vcpu
  | thread i event =>
    refine ⟨?_, h.online, fun hrun => ?_⟩
    · have hsome := threadAt_isSome vm.vcpus i event
      exact hsome ▸ h.vcpu
    · obtain ⟨k, v, hk, hv⟩ := h.thread hrun
      refine ⟨k, if i = k then v.thread event else v, ?_, ?_⟩
      · rw [show (LifeOp.exec vm (.thread i event)).2.vcpus = LifeOp.threadAt vm.vcpus i event from rfl, threadAt_get, hk]
        by_cases hik : i = k <;> simp [hik]
      · by_cases hik : i = k
        · rw [if_pos hik, Vcpu.thread_isSome]
          exact hv
        · rw [if_neg hik]
          exact hv

private theorem sound_iff (h : Alive vm) (ops : List LifeOp) : LifeSound vm ops ↔ LifeFitsAll vm ops := by
  induction ops generalizing vm with
  | nil => exact ⟨fun _ => trivial, fun _ => h.thread⟩
  | cons op ops ih =>
    have hop : (∀ created endings, op = .run created endings → RunOk created vm (op.exec vm).1 (op.exec vm).2) ↔
        LifeFits vm op := by
      cases op with
      | run created endings =>
        rw [← h.runOk_iff created endings]
        constructor
        · exact fun hall => hall created endings rfl
        · rintro hok _ _ ⟨⟩
          exact hok
      | stop endings => exact ⟨fun _ => trivial, fun _ _ _ hc => by cases hc⟩
      | thread i event => exact ⟨fun _ => trivial, fun _ _ _ hc => by cases hc⟩
    rw [LifeSound, LifeFitsAll, hop, ih (h.step op)]
    exact ⟨fun hs => hs.2, fun hs => ⟨h.thread, hs⟩⟩

end Alive

/-- A VM as creation and the additions of VCPUs leave it, with at least one VCPU. -/
structure Fresh (vm : VmCpus) : Prop where
  state : vm.state = .initialized
  online : vm.onlineVcpus = vm.vcpus.countP Option.isSome
  vcpus : ∀ v, some v ∈ vm.vcpus → v.state = .initialized ∧ v.hostTask = none
  vcpu : ∃ v, some v ∈ vm.vcpus

/-- Over every run of starts, stops and thread steps: a running VM has a thread, and every start does what it owes, exactly
when each start that is accepted finds its idle VCPUs initialised and gets their threads, or fails on a VM not
started before because a thread cannot be created. -/
theorem vm_lifecycle_sound_iff {vm : VmCpus} (h : Fresh vm) (ops : List LifeOp) : LifeSound vm ops ↔ LifeFitsAll vm ops := by
  obtain ⟨v, hv⟩ := h.vcpu
  refine Alive.sound_iff ⟨List.mem_map.mpr ⟨some v, hv, rfl⟩, ?_, fun hc => ?_⟩ ops
  · have hpos : 0 < vm.vcpus.countP Option.isSome := List.countP_pos_iff.mpr ⟨some v, hv, rfl⟩
    rw [h.online]
    omega
  · rw [h.state] at hc
    cases hc

private def oneVcpu : VmCpus := ⟨.initialized, 1, 1, [some ⟨1#16, .initialized, false, none⟩]⟩

private def cleanEnding : Nat → Ending := fun _ => ⟨[], true, true⟩

/-- Start, run into the loop, stop. -/
private def onceThrough : List LifeOp :=
  [.run (fun _ => none) cleanEnding, .thread 0 .enter, .thread 0 (.pin true), .thread 0 (.init true), .stop cleanEnding]

private theorem oneVcpu_fresh : Fresh oneVcpu := by
  refine ⟨rfl, rfl, fun v hv => ?_, ⟨_, List.mem_singleton.mpr rfl⟩⟩
  obtain rfl := Option.some.inj (List.mem_singleton.mp hv)
  exact ⟨rfl, rfl⟩

theorem vm_lifecycle_sound_once : Fresh oneVcpu ∧ LifeSound oneVcpu onceThrough := by
  refine ⟨oneVcpu_fresh, (vm_lifecycle_sound_iff oneVcpu_fresh onceThrough).mpr
    ⟨fun _ => .inl fun i v hi => ?_, trivial, trivial, trivial, trivial, trivial⟩⟩
  exact ⟨(oneVcpu_fresh.vcpus v (List.mem_of_getElem? hi.1)).1, rfl⟩

/-- A second start fails: the thread left its VCPU stopped, and `relm_vcpu_run` wants it initialised. The VM, stopped
before, is then marked as initialised. -/
theorem restart_fails : ¬ LifeSound oneVcpu (onceThrough ++ [.run (fun _ => none) cleanEnding]) := by
  rintro ⟨-, -, -, -, -, -, -, -, -, -, -, hrun, -⟩
  cases ((hrun _ _ rfl).starts rfl fun _ _ _ => rfl).1

end Relm.Vm
