import Relm.Vmx.ApicPage

/-! HLT and the threads that inject interrupts: every interleaving of the vCPU thread in `relm_vcpu_loop` with any number
of callers of `relm_apic_inject_interrupt`. -/
namespace Relm.Vmx.Halt
open Relm.Lib.Bitmap

/-- Where the vCPU thread is; each name is the next thing it does. -/
inductive Phase
  | loopTop
  | guest
  /-- The guest executed HLT and `handle_hlt` is about to store `halted`. -/
  | hltExit (guestRip instrLen : U64)
  | advanceRip (guestRip instrLen : U64)
  /-- The handler of any other exit. -/
  | otherExit
  | testState
  | testHalted
  /-- The phases of `wait_event_interruptible`: the test before the loop, then `prepare_to_wait_event`, the test under
  it, and `schedule`. -/
  | waitTest
  | prepare
  | recheck
  | schedule
  | asleep
  | exited
  deriving DecidableEq

/-- The thread is on `vcpu->wq`. -/
def Phase.queued : Phase → Bool
  | .recheck | .schedule | .asleep => true
  | _ => false

/-- The thread is in `wait_event_interruptible`. -/
def Phase.inHaltWait : Phase → Bool
  | .waitTest | .prepare | .recheck | .schedule | .asleep => true
  | _ => false

/-- How far a caller of `relm_apic_inject_interrupt` has come: the `IRR` bit is set, `halted` is cleared, the queue is
woken. -/
inductive InjectorPhase
  | marked
  | cleared
  | completed
  deriving DecidableEq

/-- A call of `relm_apic_inject_interrupt` past its lock. `delivered` is set when the guest takes the vector. -/
structure Injection where
  vector : BitVec 8
  phase : InjectorPhase
  delivered : Bool

structure State where
  phase : Phase
  halted : Bool
  /-- `vcpu->state == VCPU_STATE_RUNNING`. -/
  running : Bool
  /-- `kthread_should_stop()`. -/
  stop : Bool
  /-- The task state: false from `prepare_to_wait_event` until a wake-up. -/
  runnable : Bool
  guestRip : U64
  apic : VirtApic
  /-- The calls in flight, and those that completed after the last VM entry. -/
  injections : List Injection

/-- What the halt wait waits for. -/
def State.waitOver (s : State) : Bool := !s.halted || s.stop

/-- A VM entry; calls completed before it are no longer recorded. -/
def State.enter (s : State) : State :=
  { s with phase := .guest, injections := s.injections.filter fun inj => inj.phase != .completed }

/-- The guest takes a vector: from `IRR` to `ISR`. -/
def deliver (apic : VirtApic) (vector : BitVec 8) : VirtApic :=
  let word := vector.toNat / 32
  let mask := VirtApic.vectorMask vector.toNat
  { apic with
    irr := Function.update apic.irr word (apic.irr word &&& ~~~mask)
    isr := Function.update apic.isr word (apic.isr word ||| mask) }

def Injection.take (inj : Injection) (vector : BitVec 8) : Injection :=
  if inj.vector = vector then { inj with delivered := true } else inj

/-- `finish_wait`. -/
def State.leaveWait (s : State) : State := { s with phase := .loopTop, runnable := true }

/-- The steps of the vCPU thread, of the injectors and of `kthread_stop`. -/
inductive Action
  | vcpu
  | guestHlt (guestRip instrLen : U64)
  | guestExit
  | guestDeliver (vector : BitVec 8)
  /-- The handler of an exit other than HLT returns 1, or 0 with the vCPU still running or not. -/
  | resume
  | unwind (running : Bool)
  | entryFails
  | mark (vector : BitVec 8) (levelTriggered : Bool)
  | clear (i : Nat)
  | wake (i : Nat)
  | stop
  deriving DecidableEq

/-- One step of an interleaving. Only the vCPU thread stores `true` to `halted`, in `storeHalted`. -/
inductive Step : State → Action → State → Prop
  | vmEntry {s : State} : s.phase = .loopTop → s.stop = false → Step s .vcpu s.enter
  | loopStops {s : State} : s.phase = .loopTop → s.stop = true → Step s .vcpu { s with phase := .exited }
  | entryFails {s : State} : s.phase = .loopTop → s.stop = false →
      Step s .entryFails { s with phase := .exited, running := false }
  | guestHlt {s : State} (guestRip instrLen : U64) : s.phase = .guest →
      Step s (.guestHlt guestRip instrLen) { s with phase := .hltExit guestRip instrLen, guestRip }
  | guestExit {s : State} : s.phase = .guest → Step s .guestExit { s with phase := .otherExit }
  | guestDeliver {s : State} (vector : BitVec 8) : s.phase = .guest → Member s.apic.irr vector.toNat →
      Step s (.guestDeliver vector)
        { s with apic := deliver s.apic vector, injections := s.injections.map fun inj => inj.take vector }
  | storeHalted {s : State} {guestRip instrLen : U64} : s.phase = .hltExit guestRip instrLen →
      Step s .vcpu { s with phase := .advanceRip guestRip instrLen, halted := true }
  | advanceRip {s : State} {guestRip instrLen : U64} : s.phase = .advanceRip guestRip instrLen →
      Step s .vcpu { s with phase := .testState, guestRip := guestRip + instrLen }
  | resume {s : State} : s.phase = .otherExit → Step s .resume s.enter
  | unwind {s : State} (running : Bool) : s.phase = .otherExit →
      Step s (.unwind running) { s with phase := .testState, running }
  | stateChanged {s : State} : s.phase = .testState → s.running = false → Step s .vcpu { s with phase := .exited }
  | stateRunning {s : State} : s.phase = .testState → s.running = true → Step s .vcpu { s with phase := .testHalted }
  | notHalted {s : State} : s.phase = .testHalted → s.halted = false → Step s .vcpu { s with phase := .loopTop }
  | isHalted {s : State} : s.phase = .testHalted → s.halted = true → Step s .vcpu { s with phase := .waitTest }
  | noWait {s : State} : s.phase = .waitTest → s.waitOver = true → Step s .vcpu { s with phase := .loopTop }
  | mustWait {s : State} : s.phase = .waitTest → s.waitOver = false → Step s .vcpu { s with phase := .prepare }
  | prepare {s : State} : s.phase = .prepare → Step s .vcpu { s with phase := .recheck, runnable := false }
  | waitDone {s : State} : s.phase = .recheck → s.waitOver = true → Step s .vcpu s.leaveWait
  | waitOn {s : State} : s.phase = .recheck → s.waitOver = false → Step s .vcpu { s with phase := .schedule }
  | sleep {s : State} : s.phase = .schedule → s.runnable = false → Step s .vcpu { s with phase := .asleep }
  | noSleep {s : State} : s.phase = .schedule → s.runnable = true → Step s .vcpu { s with phase := .prepare }
  | wakes {s : State} : s.phase = .asleep → s.runnable = true → Step s .vcpu { s with phase := .prepare }
  | mark {s : State} (vector : BitVec 8) (levelTriggered : Bool) :
      Step s (.mark vector levelTriggered)
        { s with apic := s.apic.inject vector levelTriggered, injections := ⟨vector, .marked, false⟩ :: s.injections }
  | clear {s : State} {i : Nat} {inj : Injection} : s.injections[i]? = some inj → inj.phase = .marked →
      Step s (.clear i)
        { s with halted := false, injections := s.injections.set i { inj with phase := .cleared } }
  | wake {s : State} {i : Nat} {inj : Injection} : s.injections[i]? = some inj → inj.phase = .cleared →
      Step s (.wake i)
        { s with runnable := s.runnable || s.phase.queued
                 injections := s.injections.set i { inj with phase := .completed } }
  | stop {s : State} : Step s .stop { s with stop := true, runnable := true }

/-- A vCPU thread as `relm_vcpu_run` starts it, before any injection. -/
structure Started (s : State) : Prop where
  phase : s.phase = .loopTop
  halted : s.halted = false
  running : s.running = true
  runnable : s.runnable = true
  injections : s.injections = []

/-- The states of the interleavings in which every step meets a condition. -/
inductive Reach (ok : State → Action → Prop) : State → Prop
  | start {s : State} : Started s → Reach ok s
  | step {s s' : State} {a : Action} : Reach ok s → ok s a → Step s a s' → Reach ok s'

/-- The vector of an injection is still pending in `IRR`. -/
def StillPending (s : State) (inj : Injection) : Prop :=
  inj.delivered = false ∧ Member s.apic.irr inj.vector.toNat

/-- The thread goes to sleep, or sleeps, with no wake-up under way. -/
def Blocked (s : State) : Prop := (s.phase = .schedule ∨ s.phase = .asleep) ∧ s.runnable = false

/-- While an injection that completed after the last VM entry is pending, the vCPU thread is not blocked, and if it is
in the halt wait then what it waits for holds. -/
def NoLostWakeup (s : State) : Prop :=
  ∀ inj ∈ s.injections, inj.phase = .completed → StillPending s inj →
    ¬ Blocked s ∧ (s.phase.inHaltWait = true → s.halted = false)

/-- `handle_hlt` stores `halted` only when every call whose vector is pending has yet to clear it. -/
def StoreInTime (s : State) (a : Action) : Prop :=
  a = .vcpu → (∃ guestRip instrLen, s.phase = .hltExit guestRip instrLen) →
    ∀ inj ∈ s.injections, StillPending s inj → inj.phase = .marked

section Invariant

variable {s s' : State} {a : Action} {inj : Injection}

/-- What every interleaving keeps when each store of `halted` comes in time. -/
structure Inv (s : State) : Prop where
  pending : ∀ inj ∈ s.injections, inj.delivered = false → Member s.apic.irr inj.vector.toNat
  halted : s.halted = true → ∀ inj ∈ s.injections, inj.delivered = false → inj.phase = .marked
  blocked : Blocked s → ∀ inj ∈ s.injections, inj.delivered = false → inj.phase ≠ .completed

theorem not_blocked_of_phase (h₁ : s.phase ≠ .schedule) (h₂ : s.phase ≠ .asleep) : ¬ Blocked s :=
  fun hb => hb.1.elim h₁ h₂

theorem not_blocked_of_runnable (h : s.runnable = true) : ¬ Blocked s := by
  intro hb
  rw [hb.2] at h
  cases h

/-- A step of the vCPU thread that leaves the injections, `IRR` and `halted` alone and does not block. -/
theorem Inv.thread (h : Inv s) (hinj : s'.injections = s.injections) (hapic : s'.apic = s.apic)
    (hhalt : s'.halted = s.halted) (hb : Blocked s' → Blocked s) : Inv s' where
  pending inj hm hd := by
    rw [hapic]
    exact h.pending inj (hinj ▸ hm) hd
  halted ht inj hm hd := h.halted (hhalt ▸ ht) inj (hinj ▸ hm) hd
  blocked hblock inj hm hd := h.blocked (hb hblock) inj (hinj ▸ hm) hd

theorem Inv.enter (h : Inv s) : Inv s.enter where
  pending inj hm hd := h.pending inj (List.mem_of_mem_filter hm) hd
  halted ht inj hm hd := h.halted ht inj (List.mem_of_mem_filter hm) hd
  blocked hb := absurd hb (not_blocked_of_phase (by simp [State.enter]) (by simp [State.enter]))

theorem inject_irr (apic : VirtApic) (vector : BitVec 8) (levelTriggered : Bool) (v : Nat) :
    Member (apic.inject vector levelTriggered).irr v ↔ v = vector.toNat ∨ Member apic.irr v := by
  have hirr : (apic.inject vector levelTriggered).irr =
      Function.update apic.irr (vector.toNat / 32) (apic.irr (vector.toNat / 32) ||| 1#32 <<< (vector.toNat % 32)) := by
    simp only [VirtApic.inject, VirtApic.sync, VirtApic.vectorMask]
    split <;> split <;> rfl
  rw [hirr]
  exact member_insert apic.irr vector.toNat v

theorem deliver_irr (apic : VirtApic) (vector : BitVec 8) (v : Nat) :
    Member (deliver apic vector).irr v ↔ v ≠ vector.toNat ∧ Member apic.irr v :=
  member_erase apic.irr vector.toNat v

/-- What delivery leaves pending was pending for another vector. -/
theorem mem_take {l : List Injection} {vector : BitVec 8} (hm : inj ∈ l.map fun inj => inj.take vector)
    (hd : inj.delivered = false) : inj ∈ l ∧ inj.vector ≠ vector := by
  obtain ⟨old, hold, rfl⟩ := List.mem_map.mp hm
  by_cases hv : old.vector = vector
  · rw [Injection.take, if_pos hv] at hd
    cases hd
  · rw [Injection.take, if_neg hv]
    exact ⟨hold, hv⟩

theorem Inv.deliver (h : Inv s) (hphase : s.phase = .guest) (vector : BitVec 8) :
    Inv { s with apic := deliver s.apic vector, injections := s.injections.map fun inj => inj.take vector } where
  pending inj hm hd := by
    obtain ⟨hmem, hne⟩ := mem_take hm hd
    refine (deliver_irr _ _ _).mpr ⟨?_, h.pending inj hmem hd⟩
    exact fun hc => hne (BitVec.eq_of_toNat_eq hc)
  halted ht inj hm hd := h.halted ht inj (mem_take hm hd).1 hd
  blocked hb := absurd hb (not_blocked_of_phase (by simp [hphase]) (by simp [hphase]))

theorem Inv.mark (h : Inv s) (vector : BitVec 8) (levelTriggered : Bool) :
    Inv { s with apic := s.apic.inject vector levelTriggered
                 injections := ⟨vector, .marked, false⟩ :: s.injections } where
  pending inj hm hd := by
    rw [inject_irr]
    rcases List.mem_cons.mp hm with rfl | hmem
    · exact .inl rfl
    · exact .inr (h.pending inj hmem hd)
  halted ht inj hm hd := by
    rcases List.mem_cons.mp hm with rfl | hmem
    · rfl
    · exact h.halted ht inj hmem hd
  blocked hb inj hm hd := by
    rcases List.mem_cons.mp hm with rfl | hmem
    · simp
    · exact h.blocked hb inj hmem hd

theorem Inv.clear (h : Inv s) {i : Nat} (hi : s.injections[i]? = some inj) :
    Inv { s with halted := false, injections := s.injections.set i { inj with phase := .cleared } } where
  pending inj' hm hd := by
    rcases List.mem_or_eq_of_mem_set hm with hmem | rfl
    · exact h.pending inj' hmem hd
    · exact h.pending inj (List.mem_of_getElem? hi) hd
  halted ht := absurd ht (by simp)
  blocked hb inj' hm hd := by
    rcases List.mem_or_eq_of_mem_set hm with hmem | rfl
    · exact h.blocked hb inj' hmem hd
    · simp

/-- A completed call has woken the queue, so a thread on it is not blocked any more. -/
theorem Inv.wake (h : Inv s) {i : Nat} (hi : s.injections[i]? = some inj) (hc : inj.phase = .cleared) :
    Inv { s with runnable := s.runnable || s.phase.queued
                 injections := s.injections.set i { inj with phase := .completed } } where
  pending inj' hm hd := by
    rcases List.mem_or_eq_of_mem_set hm with hmem | rfl
    · exact h.pending inj' hmem hd
    · exact h.pending inj (List.mem_of_getElem? hi) hd
  halted ht inj' hm hd := by
    rcases List.mem_or_eq_of_mem_set hm with hmem | rfl
    · exact h.halted ht inj' hmem hd
    · have hmarked := h.halted ht inj (List.mem_of_getElem? hi) hd
      rw [hc] at hmarked
      cases hmarked
  blocked hb := by
    obtain ⟨hphase, hrun⟩ := hb
    rcases hphase with hp | hp
    · simp [show s.phase = .schedule from hp, Phase.queued] at hrun
    · simp [show s.phase = .asleep from hp, Phase.queued] at hrun

/-- The store of `halted` in `handle_hlt`. -/
theorem Inv.storeHalted (h : Inv s) {guestRip instrLen : U64}
    (hstore : ∀ inj ∈ s.injections, StillPending s inj → inj.phase = .marked) :
    Inv { s with phase := .advanceRip guestRip instrLen, halted := true } where
  pending := h.pending
  halted _ inj hm hd := hstore inj hm ⟨hd, h.pending inj hm hd⟩
  blocked hb := absurd hb (not_blocked_of_phase (by simp) (by simp))

/-- The thread reaches `schedule` only with `halted` set. -/
theorem Inv.waitOn (h : Inv s) (hwait : s.waitOver = false) : Inv { s with phase := .schedule } where
  pending := h.pending
  halted := h.halted
  blocked _ inj hm hd := by
    have hhalted : s.halted = true := by
      cases hh : s.halted with
      | true => rfl
      | false => simp [State.waitOver, hh] at hwait
    rw [h.halted hhalted inj hm hd]
    simp

theorem Step.inv (h : Step s a s') (hi : Inv s) (hok : StoreInTime s a) : Inv s' := by
  cases h with
  | vmEntry | resume => exact hi.enter
  | guestDeliver vector hp => exact hi.deliver hp vector
  | storeHalted hp => exact hi.storeHalted (hok rfl ⟨_, _, hp⟩)
  | waitOn _ hw => exact hi.waitOn hw
  | mark vector level => exact hi.mark vector level
  | clear hm => exact hi.clear hm
  | wake hm hc => exact hi.wake hm hc
  | sleep hp hr => exact hi.thread rfl rfl rfl fun _ => ⟨.inl hp, hr⟩
  | stop => exact hi.thread rfl rfl rfl fun hb => absurd hb (not_blocked_of_runnable rfl)
  | waitDone => exact hi.thread rfl rfl rfl fun hb => absurd hb (not_blocked_of_runnable rfl)
  | _ => exact hi.thread rfl rfl rfl fun hb => absurd hb (not_blocked_of_phase (by simp) (by simp))

theorem Started.inv (h : Started s) : Inv s where
  pending := by simp [h.injections]
  halted := by simp [h.injections]
  blocked := by simp [h.injections]

theorem Reach.inv (h : Reach StoreInTime s) : Inv s := by
  induction h with
  | start hs => exact hs.inv
  | step _ hok hstep ih => exact hstep.inv ih hok

theorem Inv.noLostWakeup (h : Inv s) : NoLostWakeup s := by
  intro inj hm hc hpend
  refine ⟨fun hb => h.blocked hb inj hm hpend.1 hc, fun _ => ?_⟩
  cases hh : s.halted with
  | false => rfl
  | true =>
    have hmarked := h.halted hh inj hm hpend.1
    rw [hc] at hmarked
    cases hmarked

end Invariant

/-- In every interleaving whose stores of `halted` all come in time, no wake-up is lost. -/
theorem no_lost_wakeup {s : State} (h : Reach StoreInTime s) : NoLostWakeup s := h.inv.noLostWakeup

section Interleavings

/-- A vCPU before its first VM entry. -/
def fresh : State :=
  { phase := .loopTop, halted := false, running := true, stop := false, runnable := true, guestRip := 0x1000#64
    apic := zeroedApic.relmApicInit 0, injections := [] }

/-- The guest has executed a one-byte HLT at 0x1000. -/
def afterHlt : State := { fresh with phase := .hltExit 0x1000#64 1#64 }

/-- The thread sleeps in the halt wait. -/
def asleepAt (apic : VirtApic) (injections : List Injection) : State :=
  { fresh with phase := .asleep, halted := true, runnable := false, guestRip := 0x1001#64, apic, injections }

variable (ok : State → Action → Prop)

private theorem fresh_started : Started fresh := ⟨rfl, rfl, rfl, rfl, rfl⟩

private theorem reach_afterHlt (hok : ∀ s a, s.injections = [] → ok s a) : Reach ok afterHlt := by
  have h₀ : Reach ok fresh := .start fresh_started
  have h₁ : Reach ok fresh.enter := h₀.step (hok _ _ rfl) (.vmEntry rfl rfl)
  exact h₁.step (hok _ _ rfl) (.guestHlt 0x1000#64 1#64 rfl)

/-- From the store of `halted` on, with no other thread in between, the vCPU thread falls asleep. -/
private theorem reach_asleep {apic : VirtApic} {injections : List Injection}
    (hok : ∀ s a, s.injections = injections → s.apic = apic → ok s a)
    (h : Reach ok { afterHlt with apic, injections }) : Reach ok (asleepAt apic injections) := by
  have h₁ := h.step (hok _ _ rfl rfl) (.storeHalted rfl)
  have h₂ := h₁.step (hok _ _ rfl rfl) (.advanceRip rfl)
  have h₃ := h₂.step (hok _ _ rfl rfl) (.stateRunning rfl rfl)
  have h₄ := h₃.step (hok _ _ rfl rfl) (.isHalted rfl rfl)
  have h₅ := h₄.step (hok _ _ rfl rfl) (.mustWait rfl rfl)
  have h₆ := h₅.step (hok _ _ rfl rfl) (.prepare rfl)
  have h₇ := h₆.step (hok _ _ rfl rfl) (.waitOn rfl rfl)
  exact h₇.step (hok _ _ rfl rfl) (.sleep rfl rfl)

/-- An injector sets the `IRR` bit, clears `halted` and wakes the queue. -/
private theorem reach_injected {s : State} (vector : BitVec 8) (hinj : s.injections = [])
    (hok : ∀ s' a, s'.phase = s.phase → ok s' a) (h : Reach ok s) :
    Reach ok { s with halted := false, runnable := s.runnable || s.phase.queued
                      apic := s.apic.inject vector false, injections := [⟨vector, .completed, false⟩] } := by
  have hmark := Step.mark (s := s) vector false
  rw [hinj] at hmark
  have hclear := Step.clear (s := { s with apic := s.apic.inject vector false
                                           injections := [⟨vector, .marked, false⟩] }) (i := 0) rfl rfl
  have hwake := Step.wake (s := { s with halted := false, apic := s.apic.inject vector false
                                         injections := [⟨vector, .cleared, false⟩] }) (i := 0) rfl rfl
  exact ((h.step (hok _ _ rfl) hmark).step (hok _ _ rfl) hclear).step (hok _ _ rfl) hwake

/-- An interrupt arrives between the guest's HLT and the store of `halted`: the vCPU sleeps on it. -/
theorem wakeup_lost : ∃ s, Reach (fun _ _ => True) s ∧ ¬ NoLostWakeup s := by
  have hhlt := reach_injected _ 0x31#8 rfl (fun _ _ _ => trivial) (reach_afterHlt _ fun _ _ _ => trivial)
  have hsleep := reach_asleep _ (fun _ _ _ _ => trivial) hhlt
  refine ⟨_, hsleep, fun h => ?_⟩
  have hpend : Member (zeroedApic.relmApicInit 0 |>.inject 0x31#8 false).irr 0x31 :=
    (inject_irr _ _ _ _).mpr (.inl rfl)
  exact (h ⟨0x31#8, .completed, false⟩ (by simp [asleepAt]) rfl ⟨rfl, hpend⟩).1 ⟨.inr rfl, rfl⟩

private theorem storeInTime_of_phase {s : State} {a : Action} (h : s.phase = .asleep) : StoreInTime s a := by
  rintro - ⟨_, _, hp⟩
  rw [h] at hp
  cases hp

private theorem storeInTime_of_idle {s : State} {a : Action} (h : s.injections = []) : StoreInTime s a := by
  intro _ _ inj hm
  rw [h] at hm
  cases hm

/-- An interrupt that arrives after the vCPU fell asleep wakes it. -/
theorem no_lost_wakeup_asleep : ∃ s, Reach StoreInTime s ∧ s.phase = .asleep ∧ NoLostWakeup s ∧
    ∃ inj ∈ s.injections, inj.phase = .completed ∧ StillPending s inj ∧ s.runnable = true := by
  have hhlt := reach_afterHlt StoreInTime fun s a hs => storeInTime_of_idle hs
  have hasleep := reach_asleep StoreInTime (fun s a hs _ => storeInTime_of_idle hs) hhlt
  have hend := reach_injected StoreInTime 0x31#8 rfl (fun s a hs => storeInTime_of_phase hs) hasleep
  refine ⟨_, hend, rfl, no_lost_wakeup hend, ⟨0x31#8, .completed, false⟩, List.mem_cons_self, rfl, ⟨rfl, ?_⟩, rfl⟩
  exact (inject_irr _ _ _ _).mpr (.inl rfl)

end Interleavings

end Relm.Vmx.Halt
