import Relm.Lib.Run

/-! The threads of the VCPUs on the CPUs of the host: what `current_vcpu` and the current VMCS of a CPU name when a thread
enters the guest and when an exit is handled, for every interleaving and every migration. -/
namespace Relm.Vmx.Threads
open Relm.Lib.Run

/-- Where the thread of a VCPU stands in `relm_vcpu_loop` and in the world switch; `guest` and `handler` carry the VMCS
that was entered and the VCPU whose registers the guest runs with, and `entryFailed` is the exit of an entry that failed. -/
inductive Pc (V : Type)
  | start | pin | register | vmclear | vmptrld | fields | head | saveRsp | enter
  | guest (vmcs regs : V) | handler (vmcs regs : V) | entryFailed
  | ran | destroy (loaded : Bool) | unset | done
  /-- `.Lvmexit_fatal`. -/
  | parked
  /-- Returned on the stack frame of another thread. -/
  | lost

namespace Pc

variable {V : Type}

/-- From the return of `relm_vcpu_pin_to_cpu` to VMCLEAR on the way out. -/
@[simp] def settled : Pc V → Bool
  | start | pin | unset | done | parked | lost => false
  | _ => true

/-- From the second `relm_set_current_vcpu` on. -/
@[simp] def registered : Pc V → Bool
  | register => false
  | pc => pc.settled

/-- From VMPTRLD to VMCLEAR. -/
@[simp] def loaded : Pc V → Bool
  | fields | head | saveRsp | enter | guest _ _ | handler _ _ | entryFailed | ran => true
  | destroy loaded => loaded
  | _ => false

/-- Between `relm_vmentry_save_rsp` and the return of the world switch. -/
@[simp] def saved : Pc V → Bool
  | enter | guest _ _ | handler _ _ | entryFailed => true
  | _ => false

/-- Before the VMCS is loaded. -/
@[simp] def early : Pc V → Bool
  | start | pin | register | vmclear | vmptrld => true
  | _ => false

/-- Cleared and on the way to VM entry. -/
@[simp] def outside : Pc V → Bool
  | vmptrld | fields | head | saveRsp | enter => true
  | _ => false

/-- At the return of `relm_vmentry_asm`. -/
@[simp] def returned : Pc V → Bool
  | ran => true
  | _ => false

/-- In the guest or at its exit. -/
@[simp] def inside : Pc V → Option (V × V)
  | guest vmcs regs | handler vmcs regs => some (vmcs, regs)
  | _ => none

/-- Not halted for good, and not on a frame of another thread. -/
@[simp] def alive : Pc V → Bool
  | parked | lost => false
  | _ => true

/-- Nothing is required at one place that is not required at the other. -/
structure Asks (pc pc' : Pc V) : Prop where
  settled : pc.settled = true → pc'.settled = true
  registered : pc.registered = true → pc'.registered = true
  loaded : pc.loaded = true → pc'.loaded = true
  inside : pc.inside = none
  saved : pc.saved = true → pc'.saved = true
  alive : pc.alive = true
  early : pc.early = true → pc'.early = true
  outside : pc.outside = true → pc'.outside = true
  returned : pc.returned = false

theorem of_saved {pc : Pc V} (h : pc.saved = true) : pc.settled = true ∧ pc.registered = true ∧ pc.loaded = true := by
  cases pc <;> simp_all

theorem settled_of_registered {pc : Pc V} (h : pc.registered = true) : pc.settled = true := by
  cases pc <;> simp_all

theorem registered_of_loaded {pc : Pc V} (h : pc.loaded = true) : pc.registered = true := by
  cases pc <;> simp_all

end Pc

/-- A logical CPU: `current_vcpu`, the current VMCS, the VMCSs that are active on it, and the thread that holds it while
it runs a guest or is halted for good. -/
structure Cpu (V : Type) where
  current : Option V
  vmcs : Option V
  active : V → Bool
  held : Option V

/-- A thread: its affinity is one CPU or, as `none`, every CPU that is online. -/
structure Thread (C V : Type) where
  pc : Pc V
  cpu : C
  target : C
  mask : Option C
  stopping : Bool

/-- `launched`, whether `state` is STOPPED since a VM entry failed, `vmentry_host_rsp` (as the thread whose frame it points
to), the VCPU whose register values `regs` holds, and the launch state of the VMCS. -/
structure Vcpu (V : Type) where
  launched : Bool
  stopped : Bool
  rsp : Option V
  regs : V
  launchState : Bool

structure System (C V : Type) where
  cpus : C → Cpu V
  threads : V → Thread C V
  vcpus : V → Vcpu V

/-- What the processor makes of a VM entry with the right instruction: the guest runs, the instruction fails and execution
goes on behind it, or it fails once guest state is being loaded, which is an exit with bit 31 of the exit reason set. -/
inductive Entry
  | entered | refused | failed

/-- What happens next: a step of a thread, with the outcome of what it calls or decides and of a VM entry; the scheduler
moves a thread; `set_cpus_allowed_ptr` of `relm_vcpu_unpin_and_stop`; `kthread_stop`. -/
inductive Event (C V : Type)
  | thread (v : V) (ok : Bool) (entry : Entry)
  | migrate (v : V) (cpu : C)
  | unpin (v : V)
  | stop (v : V)

variable {C V : Type} [DecidableEq C] [DecidableEq V]

namespace System

def setCpu (s : System C V) (c : C) (cpu : Cpu V) : System C V := { s with cpus := Function.update s.cpus c cpu }
def setThread (s : System C V) (v : V) (thread : Thread C V) : System C V :=
  { s with threads := Function.update s.threads v thread }
def setVcpu (s : System C V) (v : V) (vcpu : Vcpu V) : System C V := { s with vcpus := Function.update s.vcpus v vcpu }

def goto (s : System C V) (v : V) (pc : Pc V) : System C V := s.setThread v { s.threads v with pc }

/-- `relm_set_current_vcpu` on the CPU of the thread. -/
def relmSetCurrentVcpu (s : System C V) (c : C) (vcpu : Option V) : System C V := s.setCpu c { s.cpus c with current := vcpu }

/-- VMCLEAR on a CPU: the VMCS is no longer active there, nor current, and its launch state is clear. -/
def vmclear (s : System C V) (c : C) (v : V) : System C V :=
  let cpu := s.cpus c
  (s.setCpu c { cpu with
    vmcs := if cpu.vmcs = some v then none else cpu.vmcs, active := Function.update cpu.active v false }).setVcpu v
      { s.vcpus v with launchState := false }

/-- VMPTRLD on a CPU. -/
def vmptrld (s : System C V) (c : C) (v : V) : System C V :=
  s.setCpu c { s.cpus c with vmcs := some v, active := Function.update (s.cpus c).active v true }

def hold (s : System C V) (c : C) (v : Option V) : System C V := s.setCpu c { s.cpus c with held := v }

/-- `relm_vmentry_save_rsp`, with the frame of thread `v`. -/
def relmVmentrySaveRsp (s : System C V) (c : C) (v : V) : System C V :=
  match (s.cpus c).current with
  | none => s
  | some u => s.setVcpu u { s.vcpus u with rsp := some v }

/-- VMLAUNCH or VMRESUME: with the instruction that the launch state asks for, what the processor makes of it; `none` is
where execution goes on behind the instruction. A failed entry leaves the launch state as it is. -/
def vmentry (s : System C V) (c : C) (v : V) (launched : Bool) (regs : V) (entry : Entry) : Option (System C V) :=
  match (s.cpus c).vmcs with
  | none => none
  | some w =>
    if (s.vcpus w).launchState = launched then
      match entry with
      | .entered => some (((s.setVcpu w { s.vcpus w with launchState := true }).hold c (some v)).goto v (.guest w regs))
      | .refused => none
      | .failed => some (s.goto v .entryFailed)
    else none

/-- `.Lvmexit_return_zero`: back to the frame that `relm_vmentry_get_rsp` finds, or halted without one. -/
def vmexitReturnZero (s : System C V) (c : C) (v : V) : System C V :=
  match (s.cpus c).current.bind fun u => (s.vcpus u).rsp with
  | none => (s.hold c (some v)).goto v .parked
  | some u => s.goto v (if u = v then .ran else .lost)

/-- `handle_vmexit` and what `relm_vmexit_handler` does with its answer `resume`; a VMRESUME that fails unwinds as well. -/
def handleVmexit (s : System C V) (c : C) (v : V) (regs : V) (resume : Bool) (entry : Entry) : System C V :=
  match (s.cpus c).current with
  | none => s.vmexitReturnZero c v
  | some u =>
    let s := s.setVcpu u { s.vcpus u with launched := true, regs }
    if resume then (s.vmentry c v true regs entry).getD (s.vmexitReturnZero c v) else s.vmexitReturnZero c v

/-- `handle_vmexit` where bit 31 is set: the VCPU is stopped, before anything else of it is touched. -/
def handleEntryFailure (s : System C V) (c : C) (v : V) : System C V :=
  match (s.cpus c).current with
  | none => s.vmexitReturnZero c v
  | some u => (s.setVcpu u { s.vcpus u with stopped := true }).vmexitReturnZero c v

/-- One step of the thread of `v`; a CPU that runs the guest of another thread runs no thread. -/
def thread (s : System C V) (v : V) (ok : Bool) (entry : Entry) : Option (System C V) :=
  let t := s.threads v
  let c := t.cpu
  if (s.cpus c).held.any (· ≠ v) then none
  else
    match t.pc with
    | .start => some ((s.relmSetCurrentVcpu c (some v)).goto v .pin)
    | .pin =>
      if ok then some (s.setThread v { t with pc := .register, cpu := t.target, mask := some t.target })
      else some (s.goto v .unset)
    | .register => some ((s.relmSetCurrentVcpu c (some v)).goto v .vmclear)
    | .vmclear => some (if ok then (s.vmclear c v).goto v .vmptrld else s.goto v (.destroy false))
    | .vmptrld => some (if ok then (s.vmptrld c v).goto v .fields else s.goto v (.destroy false))
    -- the state becomes RUNNING
    | .fields => some (if ok then (s.setVcpu v { s.vcpus v with stopped := false }).goto v .head else s.goto v (.destroy true))
    | .head => some (s.goto v (if t.stopping then .destroy true else .saveRsp))
    | .saveRsp => some ((s.relmVmentrySaveRsp c v).goto v .enter)
    | .enter => some ((s.vmentry c v (s.vcpus v).launched (s.vcpus v).regs entry).getD (s.goto v (.destroy true)))
    | .guest w regs => some ((s.hold c none).goto v (.handler w regs))
    | .handler _ regs => some (s.handleVmexit c v regs ok entry)
    | .entryFailed => some (s.handleEntryFailure c v)
    | .ran =>
      some ((s.setVcpu v { s.vcpus v with launched := true }).goto v
        (if ok && !(s.vcpus v).stopped then .head else .destroy true))
    -- VMCLEAR has worked before where the VMCS is loaded
    | .destroy loaded => some (if loaded || ok then (s.vmclear c v).goto v .unset else s.goto v .unset)
    | .unset => some ((s.relmSetCurrentVcpu c none).goto v .done)
    | .done | .parked | .lost => none

/-- A thread can be moved where its affinity allows, unless it is in the guest, halted or over. -/
def migrate (s : System C V) (v : V) (cpu : C) : Option (System C V) :=
  let t := s.threads v
  match t.pc with
  | .guest _ _ | .done | .parked | .lost => none
  | _ => if t.mask.all (· = cpu) then some (s.setThread v { t with cpu }) else none

def step (s : System C V) : Event C V → Option (System C V)
  | .thread v ok entry => s.thread v ok entry
  | .migrate v cpu => s.migrate v cpu
  | .unpin v => some (s.setThread v { s.threads v with mask := none })
  | .stop v => some (s.setThread v { s.threads v with stopping := true })

/-- An event that cannot happen changes nothing; the answer says whether it could. -/
def exec (s : System C V) (e : Event C V) : Bool × System C V :=
  match s.step e with
  | none => (false, s)
  | some t => (true, t)

end System

/-- A thread is on the CPU that it was pinned to, and the CPU names its VCPU and its VMCS. -/
structure Sound (t : Thread C V) (cpu : Cpu V) (v : V) : Prop where
  settled : t.pc.settled = true → t.cpu = t.target
  registered : t.pc.registered = true → cpu.current = some v
  loaded : t.pc.loaded = true → cpu.vmcs = some v

/-- Every thread finds its own VCPU and its own VMCS where it runs. -/
def Attributed (s : System C V) : Prop := ∀ v, Sound (s.threads v) (s.cpus (s.threads v).cpu) v

/-- An event takes nothing from a thread that is attached to a CPU: no thread sets or clears `current_vcpu` under another
one, and none is moved between pinning and VMCLEAR. -/
def Undisturbed (s : System C V) (e : Event C V) : Prop :=
  (s.step e).isSome = true →
    match e with
    | .thread v _ _ =>
      match (s.threads v).pc with
      | .start | .register | .unset => ∀ u, u ≠ v → (s.threads u).pc.registered = true → (s.threads u).cpu ≠ (s.threads v).cpu
      | _ => True
    | .migrate v cpu => (s.threads v).pc.settled = true → cpu = (s.threads v).cpu
    | _ => True

/-- What is then true of a thread: beyond being attributed it enters and leaves only its own guest, with its own registers
and back to its own frame, with the instruction that the launch state of its VMCS asks for; and it goes round only with a
VMCS that has been launched. -/
structure Faithful (t : Thread C V) (vcpu : Vcpu V) (cpu : Cpu V) (v : V) : Prop extends Sound t cpu v where
  regs : vcpu.regs = v
  inside : ∀ x, t.pc.inside = some x → x = (v, v) ∧ vcpu.launchState = true
  rsp : t.pc.saved = true → vcpu.rsp = some v
  alive : t.pc.alive = true
  early : t.pc.early = true → vcpu.launched = false
  outside : t.pc.outside = true → vcpu.launchState = vcpu.launched
  returned : t.pc.returned = true → vcpu.stopped = true ∨ vcpu.launchState = true

/-- All threads are, and a VMCS is active on a CPU only while its thread has it loaded there. -/
structure Ordered (s : System C V) : Prop where
  faithful : ∀ v, Faithful (s.threads v) (s.vcpus v) (s.cpus (s.threads v).cpu) v
  active : ∀ c v, (s.cpus c).active v = true → (s.threads v).pc.loaded = true ∧ (s.threads v).cpu = c
  current : ∀ c v, (s.cpus c).vmcs = some v → (s.cpus c).active v = true

/-- Before any thread has run. -/
structure Boot (s : System C V) : Prop where
  threads : ∀ v, (s.threads v).pc = .start
  regs : ∀ v, (s.vcpus v).regs = v
  launched : ∀ v, (s.vcpus v).launched = false
  cpus : ∀ c v, (s.cpus c).active v = false ∧ (s.cpus c).vmcs ≠ some v

omit [DecidableEq C] [DecidableEq V] in
theorem Boot.ordered {s : System C V} (h : Boot s) : Ordered s where
  faithful v := by
    have hpc := h.threads v
    refine ⟨⟨?_, ?_, ?_⟩, h.regs v, ?_, ?_, ?_, fun _ => h.launched v, ?_, ?_⟩ <;> rw [hpc] <;> simp
  active c v hc := absurd hc (by rw [(h.cpus c v).1]; decide)
  current c v hc := absurd hc (h.cpus c v).2

section Frame

variable {s : System C V} {t : Thread C V} {vcpu : Vcpu V} {cpu cpu' : Cpu V} {v u : V}

omit [DecidableEq C] [DecidableEq V] in
/-- The CPU of a thread may change in all that the thread does not ask of it. -/
theorem Faithful.withCpu (h : Faithful t vcpu cpu u) (hc : t.pc.registered = true → cpu'.current = some u)
    (hv : t.pc.loaded = true → cpu'.vmcs = some u) : Faithful t vcpu cpu' u :=
  ⟨⟨h.settled, hc, hv⟩, h.regs, h.inside, h.rsp, h.alive, h.early, h.outside, h.returned⟩

omit [DecidableEq C] [DecidableEq V] in
/-- The thread goes on to a place that asks for nothing new. -/
theorem Faithful.goto (h : Faithful t vcpu cpu v) {pc : Pc V} (ha : pc.Asks t.pc) : Faithful { t with pc } vcpu cpu v where
  settled hp := h.settled (ha.settled hp)
  registered hp := h.registered (ha.registered hp)
  loaded hp := h.loaded (ha.loaded hp)
  regs := h.regs
  inside x hx := by
    rw [ha.inside] at hx
    cases hx
  rsp hp := h.rsp (ha.saved hp)
  alive := ha.alive
  early hp := h.early (ha.early hp)
  outside hp := h.outside (ha.outside hp)
  returned hp := by
    rw [ha.returned] at hp
    cases hp

/-- What one step of a thread may change: itself, its VCPU and the CPU that it runs on. -/
def System.put (s : System C V) (v : V) (t : Thread C V) (vcpu : Vcpu V) (cpu : Cpu V) : System C V :=
  ((s.setCpu (s.threads v).cpu cpu).setVcpu v vcpu).setThread v t

/-- Another thread on the CPU keeps what it asks for. -/
def Spares (s : System C V) (v : V) (cpu : Cpu V) : Prop :=
  ∀ u, u ≠ v → (s.threads u).cpu = (s.threads v).cpu →
    ((s.threads u).pc.registered = true → cpu.current = some u) ∧ ((s.threads u).pc.loaded = true → cpu.vmcs = some u)

section Put

variable (s) (t) (vcpu) (cpu) (v)

omit [DecidableEq C] in
@[simp] theorem System.setThread_self : (s.setThread v t).threads v = t := Function.update_self ..
@[simp] theorem System.put_thread : (s.put v t vcpu cpu).threads v = t := Function.update_self ..
@[simp] theorem System.put_vcpu : (s.put v t vcpu cpu).vcpus v = vcpu := Function.update_self ..
@[simp] theorem System.put_cpu : (s.put v t vcpu cpu).cpus (s.threads v).cpu = cpu := Function.update_self ..

end Put

/-- A step of a thread that serves itself, spares the others and keeps the book of its own VMCS. -/
theorem Ordered.put (h : Ordered s) (hcpu : t.cpu = (s.threads v).cpu) (hv : Faithful t vcpu cpu v) (hs : Spares s v cpu)
    (hothers : ∀ u, u ≠ v → cpu.active u = (s.cpus (s.threads v).cpu).active u)
    (hown : cpu.active v = true → t.pc.loaded = true) (hcurrent : ∀ u, cpu.vmcs = some u → cpu.active u = true) :
    Ordered (s.put v t vcpu cpu) := by
  have hthread : ∀ u, u ≠ v → (s.put v t vcpu cpu).threads u = s.threads u := fun u hu => Function.update_of_ne hu ..
  have hvcpu : ∀ u, u ≠ v → (s.put v t vcpu cpu).vcpus u = s.vcpus u := fun u hu => Function.update_of_ne hu ..
  have hcpus : ∀ c, c ≠ (s.threads v).cpu → (s.put v t vcpu cpu).cpus c = s.cpus c := fun c hc => Function.update_of_ne hc ..
  refine ⟨fun u => ?_, fun c u hc => ?_, fun c u hc => ?_⟩
  · by_cases hu : u = v
    · rw [hu, System.put_thread, System.put_vcpu, hcpu, System.put_cpu]
      exact hv
    · rw [hthread u hu, hvcpu u hu]
      by_cases hc : (s.threads u).cpu = (s.threads v).cpu
      · rw [hc, System.put_cpu]
        obtain ⟨hcur, hvm⟩ := hs u hu hc
        exact (h.faithful u).withCpu hcur hvm
      · rw [hcpus _ hc]
        exact h.faithful u
  · by_cases hcv : c = (s.threads v).cpu
    · rw [hcv, System.put_cpu] at hc
      by_cases hu : u = v
      · rw [hu] at hc ⊢
        rw [System.put_thread]
        exact ⟨hown hc, hcpu.trans hcv.symm⟩
      · rw [hothers u hu] at hc
        rw [hthread u hu, hcv]
        exact h.active _ u hc
    · rw [hcpus c hcv] at hc
      obtain ⟨hl, hat⟩ := h.active c u hc
      have hu : u ≠ v := by
        rintro rfl
        exact hcv hat.symm
      rw [hthread u hu]
      exact ⟨hl, hat⟩
  · by_cases hcv : c = (s.threads v).cpu
    · rw [hcv, System.put_cpu] at hc ⊢
      exact hcurrent u hc
    · rw [hcpus c hcv] at hc ⊢
      exact h.current c u hc

omit [DecidableEq C] in
/-- A thread without a loaded VMCS changes, and perhaps moves. -/
theorem Ordered.move (h : Ordered s) (hl : (s.threads v).pc.loaded = false) (hv : Faithful t (s.vcpus v) (s.cpus t.cpu) v) :
    Ordered (s.setThread v t) := by
  have hthread : ∀ u, u ≠ v → (s.setThread v t).threads u = s.threads u := fun u hu => Function.update_of_ne hu ..
  have hself : (s.setThread v t).threads v = t := Function.update_self ..
  refine ⟨fun u => ?_, fun c u hc => ?_, h.current⟩
  · by_cases hu : u = v
    · rw [hu, hself]
      exact hv
    · rw [hthread u hu]
      exact h.faithful u
  · obtain ⟨hload, hat⟩ := h.active c u hc
    have hu : u ≠ v := by
      rintro rfl
      rw [hl] at hload
      cases hload
    rw [hthread u hu]
    exact ⟨hload, hat⟩

omit [DecidableEq C] [DecidableEq V] in
/-- The others do not depend on what is left as it is. -/
theorem Ordered.spares (h : Ordered s) (hcur : cpu.current = (s.cpus (s.threads v).cpu).current)
    (hvm : cpu.vmcs = (s.cpus (s.threads v).cpu).vmcs) : Spares s v cpu := by
  intro u _ hc
  rw [hcur, hvm, ← hc]
  exact ⟨(h.faithful u).registered, (h.faithful u).loaded⟩

/-- The thread and its VCPU alone change, on the same CPU. -/
theorem Ordered.onCpu (h : Ordered s) (hcpu : t.cpu = (s.threads v).cpu) {held : Option V}
    (hv : Faithful t vcpu (s.cpus (s.threads v).cpu) v) (hl : (s.threads v).pc.loaded = true → t.pc.loaded = true) :
    Ordered (s.put v t vcpu { s.cpus (s.threads v).cpu with held }) :=
  h.put hcpu (hv.withCpu hv.registered hv.loaded) (h.spares rfl rfl) (fun _ _ => rfl) (fun ha => hl (h.active _ v ha).1)
    fun u hu => h.current _ u hu

end Frame

section Steps

variable {s t : System C V} {v : V} {pc : Pc V}

theorem System.goto_eq (s : System C V) (v : V) (pc : Pc V) :
    s.goto v pc = s.put v { s.threads v with pc } (s.vcpus v) (s.cpus (s.threads v).cpu) := by
  simp [System.goto, System.put, System.setCpu, System.setVcpu, System.setThread]

theorem System.setCurrent_eq (s : System C V) (v : V) (vcpu : Option V) (pc : Pc V) :
    (s.relmSetCurrentVcpu (s.threads v).cpu vcpu).goto v pc =
      s.put v { s.threads v with pc } (s.vcpus v) { s.cpus (s.threads v).cpu with current := vcpu } := by
  simp [System.goto, System.put, System.setCpu, System.setVcpu, System.setThread, System.relmSetCurrentVcpu]

theorem System.vmclear_eq (s : System C V) (v : V) (pc : Pc V) :
    (s.vmclear (s.threads v).cpu v).goto v pc =
      s.put v { s.threads v with pc } { s.vcpus v with launchState := false } { s.cpus (s.threads v).cpu with
        vmcs := if (s.cpus (s.threads v).cpu).vmcs = some v then none else (s.cpus (s.threads v).cpu).vmcs,
        active := Function.update (s.cpus (s.threads v).cpu).active v false } := by
  simp [System.goto, System.put, System.setCpu, System.setVcpu, System.setThread, System.vmclear]

theorem System.vmptrld_eq (s : System C V) (v : V) (pc : Pc V) :
    (s.vmptrld (s.threads v).cpu v).goto v pc =
      s.put v { s.threads v with pc } (s.vcpus v) { s.cpus (s.threads v).cpu with
        vmcs := some v, active := Function.update (s.cpus (s.threads v).cpu).active v true } := by
  simp [System.goto, System.put, System.setCpu, System.setVcpu, System.setThread, System.vmptrld]

theorem System.setVcpu_eq (s : System C V) (v : V) (vcpu : Vcpu V) (pc : Pc V) :
    (s.setVcpu v vcpu).goto v pc = s.put v { s.threads v with pc } vcpu (s.cpus (s.threads v).cpu) := by
  simp [System.goto, System.put, System.setCpu, System.setVcpu, System.setThread]

theorem System.hold_eq (s : System C V) (v : V) (held : Option V) (pc : Pc V) :
    (s.hold (s.threads v).cpu held).goto v pc =
      s.put v { s.threads v with pc } (s.vcpus v) { s.cpus (s.threads v).cpu with held } := by
  simp [System.goto, System.put, System.setCpu, System.setVcpu, System.setThread, System.hold]

/-- VM entry with the VMCS of the thread. -/
theorem System.vmentry_eq (s : System C V) (v : V) {regs : V} {launched : Bool}
    (hv : (s.cpus (s.threads v).cpu).vmcs = some v) (hl : (s.vcpus v).launchState = launched) :
    s.vmentry (s.threads v).cpu v launched regs .entered = some (s.put v { s.threads v with pc := .guest v regs }
        { s.vcpus v with launchState := true } { s.cpus (s.threads v).cpu with held := some v }) ∧
      s.vmentry (s.threads v).cpu v launched regs .refused = none ∧
      s.vmentry (s.threads v).cpu v launched regs .failed = some (s.goto v .entryFailed) := by
  simp [System.vmentry, hv, hl, System.goto, System.put, System.setCpu, System.setVcpu, System.setThread, System.hold]

/-- The thread goes on on its CPU. -/
theorem Ordered.goto (h : Ordered s) (ha : pc.Asks (s.threads v).pc)
    (hl : (s.threads v).pc.loaded = true → pc.loaded = true) : Ordered (s.goto v pc) := by
  rw [System.goto_eq]
  exact h.put rfl ((h.faithful v).goto ha) (h.spares rfl rfl) (fun _ _ => rfl) (fun hc => hl (h.active _ v hc).1)
    fun u hu => h.current _ u hu

/-- `relm_set_current_vcpu` on a CPU that no other thread is attached to. -/
theorem Ordered.setCurrent (h : Ordered s) {vcpu : Option V}
    (hfree : ∀ u, u ≠ v → (s.threads u).pc.registered = true → (s.threads u).cpu ≠ (s.threads v).cpu)
    (hl : (s.threads v).pc.loaded = false) (hv : Faithful { s.threads v with pc } (s.vcpus v) { s.cpus (s.threads v).cpu with current := vcpu } v) :
    Ordered ((s.relmSetCurrentVcpu (s.threads v).cpu vcpu).goto v pc) := by
  rw [System.setCurrent_eq]
  refine h.put rfl hv (fun u hu hc => ⟨fun hr => absurd hc (hfree u hu hr), fun hload => ?_⟩) (fun _ _ => rfl) (fun ha => ?_)
    fun u hu => h.current _ u hu
  · rw [← hc]
    exact (h.faithful u).loaded hload
  · obtain ⟨hload, -⟩ := h.active _ v ha
    rw [hl] at hload
    cases hload

/-- VMCLEAR of the own VMCS. -/
theorem Ordered.vmclear (h : Ordered s) (hpc : pc.loaded = false) (hin : pc.inside = none) (hsaved : pc.saved = false)
    (halive : pc.alive = true) (hset : pc.settled = true → (s.threads v).pc.settled = true)
    (hreg : pc.registered = true → (s.threads v).pc.registered = true) (hearly : pc.early = true → (s.threads v).pc.early = true)
    (hout : pc.outside = true → (s.vcpus v).launched = false) (hret : pc.returned = false) :
    Ordered ((s.vmclear (s.threads v).cpu v).goto v pc) := by
  rw [System.vmclear_eq]
  have hf := h.faithful v
  refine h.put rfl ?_ (fun u hu hc => ?_) (fun u hu => Function.update_of_ne hu ..) (fun ha => ?_) fun u hu => ?_
  · refine ⟨⟨fun hp => hf.settled (hset hp), fun hp => hf.registered (hreg hp), fun hp => ?_⟩, hf.regs, fun x hx => ?_, fun hp => ?_,
      halive, fun hp => hf.early (hearly hp), fun hp => (hout hp).symm, fun hp => ?_⟩
    · rw [hpc] at hp
      cases hp
    · rw [hin] at hx
      cases hx
    · rw [hsaved] at hp
      cases hp
    · rw [hret] at hp
      cases hp
  · have hu' := h.faithful u
    rw [hc] at hu'
    refine ⟨hu'.registered, fun hp => ?_⟩
    have hne : ¬ (s.cpus (s.threads v).cpu).vmcs = some v := by
      rw [hu'.loaded hp]
      exact fun heq => hu (Option.some.inj heq)
    exact (if_neg hne).trans (hu'.loaded hp)
  · have hoff : Function.update (s.cpus (s.threads v).cpu).active v false v = true := ha
    rw [Function.update_self] at hoff
    cases hoff
  · dsimp only at hu ⊢
    split at hu
    · cases hu
    · rename_i hne
      have huv : u ≠ v := by
        rintro rfl
        exact hne hu
      rw [Function.update_of_ne huv]
      exact h.current _ u hu

/-- A thread that loads its VMCS is alone on its CPU. -/
theorem Ordered.vmptrld (h : Ordered s) (hpc : (s.threads v).pc = .vmptrld) :
    Ordered ((s.vmptrld (s.threads v).cpu v).goto v .fields) := by
  rw [System.vmptrld_eq]
  have hf := h.faithful v
  have hcur := hf.registered (by rw [hpc]; rfl)
  refine h.put rfl ?_ (fun u hu hc => ?_) (fun u hu => Function.update_of_ne hu ..) (fun _ => rfl) fun u hu => ?_
  · exact ⟨⟨fun _ => hf.settled (by rw [hpc]; rfl), fun _ => hcur, fun _ => rfl⟩, hf.regs, fun x hx => (by cases hx), fun hp => (by cases hp),
      rfl, fun hp => (by cases hp), fun _ => hf.outside (by rw [hpc]; rfl), fun hp => (by cases hp)⟩
  · -- the CPU names one VCPU only
    have hu' := h.faithful u
    rw [hc] at hu'
    refine ⟨hu'.registered, fun hp => ?_⟩
    have heq := hu'.registered (Pc.registered_of_loaded hp)
    rw [hcur] at heq
    exact absurd (Option.some.inj heq).symm hu
  · obtain rfl := Option.some.inj hu
    exact Function.update_self ..

/-- VM entry with the own registers finds the own VMCS, whatever comes of it. -/
theorem Ordered.vmentry (h : Ordered s) {launched : Bool} {regs : V} (hsaved : (s.threads v).pc.saved = true)
    (hstate : (s.vcpus v).launchState = launched) (hregs : regs = v) (entry : Entry) {other : System C V} (ho : Ordered other) :
    Ordered ((s.vmentry (s.threads v).cpu v launched regs entry).getD other) := by
  have hf := h.faithful v
  obtain ⟨hset, hreg, hload⟩ := Pc.of_saved hsaved
  obtain ⟨hentered, hrefused, hfailed⟩ := @System.vmentry_eq _ _ _ _ s v regs _ (hf.loaded hload) hstate
  cases entry with
  | entered =>
    rw [hentered, Option.getD_some]
    refine h.onCpu ?_ ?_ ?_
    · rfl
    · refine ⟨⟨fun _ => hf.settled hset, fun _ => hf.registered hreg, fun _ => hf.loaded hload⟩, hf.regs, fun x hx => ?_,
        fun _ => hf.rsp hsaved, rfl, fun hp => (by cases hp), fun hp => (by cases hp), fun hp => (by cases hp)⟩
      obtain rfl := Option.some.inj hx
      rw [hregs]
      exact ⟨rfl, rfl⟩
    · exact fun _ => rfl
  | refused =>
    rw [hrefused, Option.getD_none]
    exact ho
  | failed =>
    rw [hfailed, Option.getD_some]
    refine h.goto ⟨fun _ => hset, fun _ => hreg, fun _ => hload, rfl, fun _ => hsaved, rfl, fun hp => (by cases hp),
      fun hp => (by cases hp), rfl⟩ fun _ => rfl

/-- The thread returns to its own frame, with a VMCS that has been launched or a VCPU that has been stopped. -/
theorem Ordered.vmexitReturnZero (h : Ordered s) (hsaved : (s.threads v).pc.saved = true)
    (hl : (s.vcpus v).stopped = true ∨ (s.vcpus v).launchState = true) : Ordered (s.vmexitReturnZero (s.threads v).cpu v) := by
  have hf := h.faithful v
  obtain ⟨hset, hreg, hload⟩ := Pc.of_saved hsaved
  rw [System.vmexitReturnZero, hf.registered hreg, Option.bind_some, hf.rsp hsaved]
  dsimp only
  rw [if_pos rfl, System.goto_eq]
  refine h.put rfl ?_ (h.spares rfl rfl) (fun _ _ => rfl) (fun _ => rfl) fun u hu => h.current _ u hu
  exact ⟨⟨fun _ => hf.settled hset, fun _ => hf.registered hreg, fun _ => hf.loaded hload⟩, hf.regs, fun x hx => (by cases hx),
    fun hp => (by cases hp), rfl, fun hp => (by cases hp), fun hp => (by cases hp), fun _ => hl⟩

/-- The VCPU of a thread changes in what the thread does not ask of it where it stands. -/
theorem Ordered.setVcpu (h : Ordered s) {vcpu : Vcpu V} (hv : Faithful (s.threads v) vcpu (s.cpus (s.threads v).cpu) v) :
    Ordered (s.setVcpu v vcpu) := by
  have heq : s.setVcpu v vcpu = s.put v (s.threads v) vcpu (s.cpus (s.threads v).cpu) := by
    simp [System.put, System.setCpu, System.setVcpu, System.setThread]
  rw [heq]
  exact h.put rfl hv (h.spares rfl rfl) (fun _ _ => rfl) (fun ha => (h.active _ _ ha).1) fun u hu => h.current _ u hu

/-- An exit is handled for the own VCPU, and leads back into the own guest or to the own frame. -/
theorem Ordered.handleVmexit (h : Ordered s) {w regs : V} (hpc : (s.threads v).pc = .handler w regs) (resume : Bool)
    (entry : Entry) : Ordered (s.handleVmexit (s.threads v).cpu v regs resume entry) := by
  have hf := h.faithful v
  obtain ⟨hin, hlaunch⟩ := hf.inside (w, regs) (by rw [hpc]; rfl)
  obtain ⟨-, rfl⟩ := Prod.mk.inj hin
  have hsaved : (s.threads regs).pc.saved = true := by
    rw [hpc]
    rfl
  -- the values that the guest leaves with go to its own VCPU
  have hstored : Ordered (s.setVcpu regs { s.vcpus regs with launched := true, regs }) := by
    refine h.setVcpu ⟨hf.toSound, rfl, fun x hx => ⟨(hf.inside x hx).1, hlaunch⟩, hf.rsp, hf.alive, fun hp => ?_, fun hp => ?_,
      hf.returned⟩
    · rw [hpc] at hp
      cases hp
    · rw [hpc] at hp
      cases hp
  have hself : (s.setVcpu regs { s.vcpus regs with launched := true, regs }).vcpus regs = { s.vcpus regs with launched := true, regs } :=
    Function.update_self ..
  have hback := hstored.vmexitReturnZero (v := regs) hsaved (.inr (by rw [hself]; exact hlaunch))
  rw [System.handleVmexit, hf.registered (by rw [hpc]; rfl)]
  dsimp only
  split
  · exact hstored.vmentry (v := regs) hsaved (by rw [hself]; exact hlaunch) rfl entry hback
  · exact hback

/-- A failed entry stops the own VCPU and leads to the own frame. -/
theorem Ordered.handleEntryFailure (h : Ordered s) (hpc : (s.threads v).pc = .entryFailed) :
    Ordered (s.handleEntryFailure (s.threads v).cpu v) := by
  have hf := h.faithful v
  have hsaved : (s.threads v).pc.saved = true := by
    rw [hpc]
    rfl
  have hstopped : Ordered (s.setVcpu v { s.vcpus v with stopped := true }) :=
    h.setVcpu ⟨hf.toSound, hf.regs, hf.inside, hf.rsp, hf.alive, hf.early, hf.outside, fun _ => .inl rfl⟩
  have hself : (s.setVcpu v { s.vcpus v with stopped := true }).vcpus v = { s.vcpus v with stopped := true } := Function.update_self ..
  rw [System.handleEntryFailure, hf.registered (by rw [hpc]; rfl)]
  exact hstopped.vmexitReturnZero (v := v) hsaved (.inl (by rw [hself]))

omit [DecidableEq C] [DecidableEq V] in
private theorem asks_of (hpc : (s.threads v).pc = pc) {pc' : Pc V} (h : pc'.Asks pc) : pc'.Asks (s.threads v).pc := hpc ▸ h

/-- Every step of a thread that disturbs no other. -/
theorem Ordered.thread (h : Ordered s) {ok : Bool} {entry : Entry} (hd : Undisturbed s (.thread v ok entry))
    (hs : s.thread v ok entry = some t) : Ordered t := by
  have hfree := hd (by rw [System.step, hs]; rfl)
  have hf := h.faithful v
  unfold System.thread at hs
  dsimp only at hs hfree
  split at hs
  · cases hs
  cases hpc : (s.threads v).pc with
  | start =>
    rw [hpc] at hs hfree
    obtain rfl := Option.some.inj hs
    refine h.setCurrent hfree (by rw [hpc]; rfl) ⟨⟨?_, ?_, ?_⟩, hf.regs, ?_, ?_, rfl, fun _ => hf.early (by rw [hpc]; rfl), ?_, ?_⟩ <;>
      simp
  | pin =>
    rw [hpc] at hs
    dsimp only at hs
    split at hs
    · obtain rfl := Option.some.inj hs
      refine h.move (by rw [hpc]; rfl) ⟨⟨fun _ => rfl, ?_, ?_⟩, hf.regs, ?_, ?_, rfl, fun _ => hf.early (by rw [hpc]; rfl), ?_, ?_⟩ <;>
        simp
    · obtain rfl := Option.some.inj hs
      exact h.goto (asks_of hpc (by constructor <;> simp)) (by rw [hpc]; simp)
  | register =>
    rw [hpc] at hs hfree
    obtain rfl := Option.some.inj hs
    refine h.setCurrent hfree (by rw [hpc]; rfl) ⟨⟨fun _ => hf.settled (by rw [hpc]; rfl), fun _ => rfl, ?_⟩, hf.regs, ?_, ?_, rfl,
      fun _ => hf.early (by rw [hpc]; rfl), ?_, ?_⟩ <;> simp
  | vmclear =>
    rw [hpc] at hs
    obtain rfl := Option.some.inj hs
    split
    · have hlaunched := hf.early (by rw [hpc]; rfl)
      exact h.vmclear rfl rfl rfl rfl (by rw [hpc]; simp) (by rw [hpc]; simp)
        (by rw [hpc]; simp) (fun _ => hlaunched) rfl
    · exact h.goto (asks_of hpc (by constructor <;> simp)) (by rw [hpc]; simp)
  | vmptrld =>
    rw [hpc] at hs
    obtain rfl := Option.some.inj hs
    split
    · exact h.vmptrld hpc
    · exact h.goto (asks_of hpc (by constructor <;> simp)) (by rw [hpc]; simp)
  | fields =>
    rw [hpc] at hs
    obtain rfl := Option.some.inj hs
    split
    · rw [System.setVcpu_eq]
      refine h.onCpu ?_ ⟨⟨fun _ => hf.settled (by rw [hpc]; rfl), fun _ => hf.registered (by rw [hpc]; rfl),
        fun _ => hf.loaded (by rw [hpc]; rfl)⟩, hf.regs, fun x hx => (by cases hx), fun hp => (by cases hp), rfl, fun hp => (by cases hp),
        fun _ => hf.outside (by rw [hpc]; rfl), fun hp => (by cases hp)⟩ fun _ => rfl
      rfl
    · exact h.goto (asks_of hpc (by constructor <;> simp)) fun _ => rfl
  | head =>
    rw [hpc] at hs
    obtain rfl := Option.some.inj hs
    split <;> exact h.goto (asks_of hpc (by constructor <;> simp)) fun _ => rfl
  | saveRsp =>
    rw [hpc] at hs
    obtain rfl := Option.some.inj hs
    rw [System.relmVmentrySaveRsp, hf.registered (by rw [hpc]; rfl)]
    dsimp only
    rw [System.setVcpu_eq]
    refine h.put rfl ⟨⟨fun _ => hf.settled (by rw [hpc]; rfl), fun _ => hf.registered (by rw [hpc]; rfl),
      fun _ => hf.loaded (by rw [hpc]; rfl)⟩, hf.regs, fun x hx => (by cases hx), fun _ => rfl, rfl, fun hp => (by cases hp),
      fun _ => hf.outside (by rw [hpc]; rfl), fun hp => (by cases hp)⟩ (h.spares rfl rfl) (fun _ _ => rfl) (fun _ => rfl)
      fun u hu => h.current _ u hu
  | enter =>
    rw [hpc] at hs
    obtain rfl := Option.some.inj hs
    have hleave : Ordered (s.goto v (.destroy true)) := h.goto (asks_of hpc (by constructor <;> simp)) fun _ => rfl
    exact h.vmentry (by rw [hpc]; rfl) (hf.outside (by rw [hpc]; rfl)) hf.regs entry hleave
  | guest w regs =>
    rw [hpc] at hs
    obtain rfl := Option.some.inj hs
    rw [System.hold_eq]
    refine h.onCpu ?_ ?_ ?_
    · rfl
    · exact ⟨⟨fun _ => hf.settled (by rw [hpc]; rfl), fun _ => hf.registered (by rw [hpc]; rfl),
        fun _ => hf.loaded (by rw [hpc]; rfl)⟩, hf.regs, fun x hx => hf.inside x (by rw [hpc]; exact hx),
        fun _ => hf.rsp (by rw [hpc]; rfl), rfl, fun hp => (by cases hp), fun hp => (by cases hp), fun hp => (by cases hp)⟩
    · exact fun _ => rfl
  | handler w regs =>
    rw [hpc] at hs
    obtain rfl := Option.some.inj hs
    exact h.handleVmexit hpc ok entry
  | entryFailed =>
    rw [hpc] at hs
    obtain rfl := Option.some.inj hs
    exact h.handleEntryFailure hpc
  | ran =>
    rw [hpc] at hs
    obtain rfl := Option.some.inj hs
    have hret := hf.returned (by rw [hpc]; rfl)
    rw [System.setVcpu_eq]
    refine h.onCpu ?_ ?_ ?_
    · rfl
    · split
      · -- another round: the VCPU is not stopped, so its VMCS has been launched
        rename_i hround
        have hlaunch : (s.vcpus v).launchState = true := hret.resolve_left (by simp_all)
        exact ⟨⟨fun _ => hf.settled (by rw [hpc]; rfl), fun _ => hf.registered (by rw [hpc]; rfl),
          fun _ => hf.loaded (by rw [hpc]; rfl)⟩, hf.regs, fun x hx => (by cases hx), fun hp => (by cases hp), rfl,
          fun hp => (by cases hp), fun _ => hlaunch, fun hp => (by cases hp)⟩
      · exact ⟨⟨fun _ => hf.settled (by rw [hpc]; rfl), fun _ => hf.registered (by rw [hpc]; rfl),
          fun _ => hf.loaded (by rw [hpc]; rfl)⟩, hf.regs, fun x hx => (by cases hx), fun hp => (by cases hp), rfl,
          fun hp => (by cases hp), fun hp => (by cases hp), fun hp => (by cases hp)⟩
    · intro _
      split <;> rfl
  | destroy loaded =>
    rw [hpc] at hs
    obtain rfl := Option.some.inj hs
    split
    · exact h.vmclear rfl rfl rfl rfl (fun hp => (by cases hp)) (fun hp => (by cases hp)) (fun hp => (by cases hp))
        (fun hp => (by cases hp)) rfl
    · rename_i hkept
      refine h.goto (asks_of hpc (by constructor <;> simp)) fun hload => ?_
      rw [hpc] at hload
      simp_all
  | unset =>
    rw [hpc] at hs hfree
    obtain rfl := Option.some.inj hs
    refine h.setCurrent hfree (by rw [hpc]; rfl) ⟨⟨?_, ?_, ?_⟩, hf.regs, ?_, ?_, rfl, ?_, ?_, ?_⟩ <;>
      simp
  | done =>
    rw [hpc] at hs
    cases hs
  | parked =>
    rw [hpc] at hs
    cases hs
  | lost =>
    rw [hpc] at hs
    cases hs

/-- The affinity or the request to stop changes. -/
theorem Ordered.setThread (h : Ordered s) {x : Thread C V} (hpc : x.pc = (s.threads v).pc) (hcpu : x.cpu = (s.threads v).cpu)
    (htarget : x.target = (s.threads v).target) : Ordered (s.setThread v x) := by
  have heq : s.setThread v x = s.put v x (s.vcpus v) (s.cpus (s.threads v).cpu) := by
    simp [System.put, System.setCpu, System.setVcpu, System.setThread]
  have hf := h.faithful v
  rw [heq]
  refine h.put hcpu ⟨⟨?_, ?_, ?_⟩, hf.regs, ?_, ?_, ?_, ?_, ?_, ?_⟩ (h.spares rfl rfl) (fun _ _ => rfl) (fun ha => ?_)
    fun u hu => h.current _ u hu
  all_goals rw [hpc]
  · rw [hcpu, htarget]
    exact hf.settled
  · exact hf.registered
  · exact hf.loaded
  · exact hf.inside
  · exact hf.rsp
  · exact hf.alive
  · exact hf.early
  · exact hf.outside
  · exact hf.returned
  · exact (h.active _ v ha).1

private theorem moved {cpu : C} (hs : s.migrate v cpu = some t) :
    t = s.setThread v { s.threads v with cpu } := by
  unfold System.migrate at hs
  dsimp only at hs
  split at hs
  · cases hs
  · cases hs
  · cases hs
  · cases hs
  · split at hs
    · exact (Option.some.inj hs).symm
    · cases hs

private theorem mask_of_migrate {cpu : C} (hs : s.migrate v cpu = some t) : (s.threads v).mask.all (· = cpu) = true := by
  unfold System.migrate at hs
  dsimp only at hs
  split at hs
  · cases hs
  · cases hs
  · cases hs
  · cases hs
  · split at hs
    · assumption
    · cases hs

/-- A thread is moved before it is pinned or after its VMCS has been cleared, or not at all. -/
theorem Ordered.migrate (h : Ordered s) {cpu : C} (hd : Undisturbed s (.migrate v cpu)) (hs : s.migrate v cpu = some t) :
    Ordered t := by
  have hstay := hd (by rw [System.step, hs]; rfl)
  have hf := h.faithful v
  rw [moved hs]
  by_cases hset : (s.threads v).pc.settled = true
  · exact h.setThread rfl (hstay hset) rfl
  · have hreg : ¬ (s.threads v).pc.registered = true := fun hr => hset (Pc.settled_of_registered hr)
    have hload : ¬ (s.threads v).pc.loaded = true := fun hl => hreg (Pc.registered_of_loaded hl)
    exact h.move (by simpa using hload) ⟨⟨fun hp => absurd hp hset, fun hp => absurd hp hreg, fun hp => absurd hp hload⟩, hf.regs,
      hf.inside, hf.rsp, hf.alive, hf.early, hf.outside, hf.returned⟩

/-- Every event that disturbs no thread. -/
theorem Ordered.exec (h : Ordered s) {e : Event C V} (hd : Undisturbed s e) : Ordered (s.exec e).2 := by
  unfold System.exec
  split
  · exact h
  · rename_i t hs
    cases e with
    | thread v ok entry => exact h.thread hd hs
    | migrate v cpu => exact h.migrate hd hs
    | unpin v =>
      obtain rfl := Option.some.inj hs
      exact h.setThread rfl rfl rfl
    | stop v =>
      obtain rfl := Option.some.inj hs
      exact h.setThread rfl rfl rfl

/-- A thread that sets or clears `current_vcpu` under another one leaves that one without its VCPU. -/
private theorem robbed {x : Thread C V} {vcpu : Vcpu V} {cpu : Cpu V} {u : V} (hu : u ≠ v)
    (hr : (s.threads u).pc.registered = true) (hc : (s.threads u).cpu = (s.threads v).cpu) (hne : cpu.current ≠ some u) :
    ¬ Attributed (s.put v x vcpu cpu) := by
  intro ha
  have hthread : (s.put v x vcpu cpu).threads u = s.threads u := Function.update_of_ne hu ..
  have hs := ha u
  rw [hthread, hc, System.put_cpu] at hs
  exact hne (hs.registered hr)

/-- Every other event leaves a thread without its CPU or its VCPU. -/
theorem Ordered.disturbed (h : Ordered s) {e : Event C V} (hd : ¬ Undisturbed s e) : ¬ Attributed (s.exec e).2 := by
  unfold Undisturbed at hd
  rw [Classical.not_imp] at hd
  obtain ⟨hen, hd⟩ := hd
  obtain ⟨t, hs⟩ := Option.isSome_iff_exists.mp hen
  unfold System.exec
  rw [hs]
  dsimp only
  cases e with
  | thread v ok entry =>
    dsimp only at hd
    have hrobs : ∀ y pc, t = (s.relmSetCurrentVcpu (s.threads v).cpu y).goto v pc → (y = some v ∨ y = none) →
        ¬ (∀ u, u ≠ v → (s.threads u).pc.registered = true → (s.threads u).cpu ≠ (s.threads v).cpu) → ¬ Attributed t := by
      rintro y pc rfl hy hex
      simp only [ne_eq, not_forall, not_not] at hex
      obtain ⟨u, hu, hr, hc⟩ := hex
      rw [System.setCurrent_eq]
      refine robbed hu hr hc ?_
      rcases hy with rfl | rfl
      · exact fun heq => hu (Option.some.inj heq).symm
      · exact fun heq => by cases heq
    rw [System.step, System.thread] at hs
    split at hs
    · cases hs
    cases hpc : (s.threads v).pc with
    | start =>
      rw [hpc] at hs hd
      exact hrobs _ _ (Option.some.inj hs).symm (.inl rfl) hd
    | register =>
      rw [hpc] at hs hd
      exact hrobs _ _ (Option.some.inj hs).symm (.inl rfl) hd
    | unset =>
      rw [hpc] at hs hd
      exact hrobs _ _ (Option.some.inj hs).symm (.inr rfl) hd
    | _ =>
      rw [hpc] at hd
      exact absurd trivial hd
  | migrate v cpu =>
    rw [Classical.not_imp] at hd
    obtain ⟨hset, hmoved⟩ := hd
    have ht : t = s.setThread v { s.threads v with cpu } := moved hs
    intro ha
    have hself : t.threads v = { s.threads v with cpu } := by
      rw [ht]
      exact Function.update_self ..
    have hv := (ha v).settled
    rw [hself] at hv
    exact hmoved ((hv hset).trans ((h.faithful v).settled hset).symm)
  | unpin v => exact absurd trivial hd
  | stop v => exact absurd trivial hd

end Steps

/-- A run all of whose events leave the threads undisturbed. -/
theorem Ordered.run {s : System C V} (h : Ordered s) {events : List (Event C V)} (ha : Admitted System.exec Undisturbed s events) :
    Ordered (run System.exec s events).2 :=
  @run_invariant _ _ _ System.exec _ (fun _ s => Ordered s) (fun _ _ _ h hd => h.exec hd) _ h _ ha

theorem Ordered.attributed_iff {s : System C V} (h : Ordered s) (events : List (Event C V)) :
    Throughout System.exec (fun _ s => Attributed s) [] s events ↔ Admitted System.exec Undisturbed s events :=
  @throughout_iff_admitted _ _ _ System.exec _ (fun _ s => Ordered s) _ (fun _ _ h v => (h.faithful v).toSound)
    (fun _ _ _ h hd => h.exec hd) (fun _ _ _ h hd => h.disturbed hd) _ _ h events

/-- In every run from the start, whatever the interleaving, the outcomes and the migrations, every thread finds its own VCPU
and its own VMCS at all times exactly if no event takes them away; and then every guest that is entered is left for its own
VCPU, with its own registers and back to its own stack frame, VM entry is never refused for the state of the VMCS, and no
CPU has a VMCS active that its thread does not have loaded there. -/
theorem attribution_iff {s : System C V} (hs : Boot s) (events : List (Event C V)) :
    (Throughout System.exec (fun _ s => Attributed s) [] s events ↔ Admitted System.exec Undisturbed s events) ∧
      (Admitted System.exec Undisturbed s events → Ordered (run System.exec s events).2) :=
  ⟨hs.ordered.attributed_iff events, hs.ordered.run⟩

/-- Before the threads of VCPUs with these target CPUs have run. -/
def atRest (target : V → C) : System C V where
  cpus _ := { current := none, vmcs := none, active := fun _ => false, held := none }
  threads v := { pc := .start, cpu := target v, target := target v, mask := none, stopping := false }
  vcpus v := { launched := false, stopped := false, rsp := none, regs := v, launchState := false }

omit [DecidableEq C] [DecidableEq V] in
theorem atRest_boot (target : V → C) : Boot (atRest target) :=
  ⟨fun _ => rfl, fun _ => rfl, fun _ => rfl, fun _ _ => ⟨rfl, fun h => by cases h⟩⟩

/-- Two VCPUs with one target: the second takes the CPU from the first as soon as it starts. -/
theorem attribution_lost_on_one_cpu : ¬ Throughout System.exec (fun _ s => Attributed s) [] (atRest fun _ : Bool => ())
    [.thread false true .entered, .thread false true .entered, .thread false true .entered, .thread true true .entered] := by
  intro h
  have ha := (attribution_iff (atRest_boot _) _).1.mp h
  exact ha.2.2.2.1 rfl false (by decide) rfl rfl

/-- A failed entry ends the thread, with the VMCS cleared. -/
example : ((run System.exec (atRest fun _ : Unit => ()) (List.replicate 13 (.thread () true .failed))).2.threads ()).pc = .done ∧
    ((run System.exec (atRest fun _ : Unit => ()) (List.replicate 13 (.thread () true .failed))).2.cpus ()).active () = false :=
  ⟨rfl, rfl⟩

section Single

variable {s t : System C V} {v : V}

/-- A step of a thread leaves its affinity alone, except that pinning restricts it to the target. -/
private theorem thread_mask {ok : Bool} {entry : Entry} (hs : s.thread v ok entry = some t) :
    (∃ pc, t.threads v = { s.threads v with pc } ∧ (pc.settled = true → (s.threads v).pc.settled = true)) ∨
      (t.threads v).mask = some (t.threads v).target := by
  have hgoto : ∀ (r : System C V) pc, r.threads = s.threads → (r.goto v pc).threads v = { s.threads v with pc } := by
    intro r pc hr
    rw [System.goto, hr]
    exact Function.update_self ..
  have hentry : ∀ (r : System C V) c launched regs r', r.vmentry c v launched regs entry = some r' → r.threads = s.threads →
      ∃ pc, r'.threads v = { s.threads v with pc } := by
    intro r c launched regs r' he hr
    unfold System.vmentry at he
    split at he
    · cases he
    · split at he
      · cases entry with
        | entered =>
          obtain rfl := Option.some.inj he
          exact ⟨_, hgoto _ _ hr⟩
        | refused => cases he
        | failed =>
          obtain rfl := Option.some.inj he
          exact ⟨_, hgoto _ _ hr⟩
      · cases he
  have hreturn : ∀ (r : System C V) c, r.threads = s.threads → ∃ pc, (r.vmexitReturnZero c v).threads v = { s.threads v with pc } := by
    intro r c hr
    unfold System.vmexitReturnZero
    split
    · exact ⟨_, hgoto _ _ hr⟩
    · exact ⟨_, hgoto _ _ hr⟩
  unfold System.thread at hs
  dsimp only at hs
  split at hs
  · cases hs
  cases hpc : (s.threads v).pc with
  | pin =>
    rw [hpc] at hs
    dsimp only at hs
    split at hs
    · obtain rfl := Option.some.inj hs
      refine .inr ?_
      rw [show ∀ x, (s.setThread v x).threads v = x from fun x => Function.update_self ..]
    · obtain rfl := Option.some.inj hs
      exact .inl ⟨_, hgoto s _ rfl, fun h => by cases h⟩
  | start =>
    rw [hpc] at hs
    obtain rfl := Option.some.inj hs
    exact .inl ⟨_, hgoto _ _ rfl, fun h => by cases h⟩
  | enter =>
    rw [hpc] at hs
    obtain rfl := Option.some.inj hs
    refine .inl ?_
    cases he : s.vmentry (s.threads v).cpu v (s.vcpus v).launched (s.vcpus v).regs entry with
    | none => exact ⟨_, hgoto s _ rfl, fun _ => rfl⟩
    | some r =>
      obtain ⟨pc, hr⟩ := hentry s _ _ _ r he rfl
      exact ⟨pc, hr, fun _ => rfl⟩
  | handler w regs =>
    rw [hpc] at hs
    obtain rfl := Option.some.inj hs
    refine .inl ?_
    unfold System.handleVmexit
    split
    · obtain ⟨pc, hr⟩ := hreturn s (s.threads v).cpu rfl
      exact ⟨pc, hr, fun _ => rfl⟩
    · rename_i u hu
      obtain ⟨pc, hr⟩ := hreturn (s.setVcpu u { s.vcpus u with launched := true, regs }) (s.threads v).cpu rfl
      dsimp only
      split
      · cases he : (s.setVcpu u { s.vcpus u with launched := true, regs }).vmentry (s.threads v).cpu v true regs entry with
        | none => exact ⟨pc, hr, fun _ => rfl⟩
        | some r =>
          obtain ⟨pc, hr⟩ := hentry _ _ _ _ r he rfl
          exact ⟨pc, hr, fun _ => rfl⟩
      · exact ⟨pc, hr, fun _ => rfl⟩
  | entryFailed =>
    rw [hpc] at hs
    obtain rfl := Option.some.inj hs
    refine .inl ?_
    unfold System.handleEntryFailure
    split
    · obtain ⟨pc, hr⟩ := hreturn s (s.threads v).cpu rfl
      exact ⟨pc, hr, fun _ => rfl⟩
    · rename_i u hu
      obtain ⟨pc, hr⟩ := hreturn (s.setVcpu u { s.vcpus u with stopped := true }) (s.threads v).cpu rfl
      exact ⟨pc, hr, fun _ => rfl⟩
  | saveRsp =>
    rw [hpc] at hs
    obtain rfl := Option.some.inj hs
    refine .inl ⟨_, hgoto _ _ ?_, fun _ => rfl⟩
    unfold System.relmVmentrySaveRsp
    split <;> rfl
  | guest w regs =>
    rw [hpc] at hs
    obtain rfl := Option.some.inj hs
    exact .inl ⟨_, hgoto _ _ rfl, fun _ => rfl⟩
  | unset =>
    rw [hpc] at hs
    obtain rfl := Option.some.inj hs
    exact .inl ⟨_, hgoto _ _ rfl, fun h => by cases h⟩
  | done =>
    rw [hpc] at hs
    cases hs
  | parked =>
    rw [hpc] at hs
    cases hs
  | lost =>
    rw [hpc] at hs
    cases hs
  | _ =>
    rw [hpc] at hs
    obtain rfl := Option.some.inj hs
    first | split | skip
    all_goals exact .inl ⟨_, hgoto _ _ rfl, fun _ => rfl⟩

/-- A pinned thread may run on its target alone. -/
private def Pinned (s : System C V) : Prop :=
  ∀ v, (s.threads v).pc.settled = true → (s.threads v).mask = some (s.threads v).target

private theorem Pinned.exec [Subsingleton V] (h : Pinned s) {e : Event C V} (he : ∀ v, e ≠ .unpin v) :
    Pinned (s.exec e).2 := by
  unfold System.exec
  split
  · exact h
  · rename_i t hs
    intro u hset
    cases e with
    | thread v ok entry =>
      obtain rfl := Subsingleton.elim u v
      rcases thread_mask hs with ⟨pc, hpc, hkeep⟩ | hmask
      · rw [hpc] at hset ⊢
        exact h u (hkeep hset)
      · exact hmask
    | migrate v cpu =>
      obtain rfl := Subsingleton.elim u v
      obtain rfl := moved hs
      rw [System.setThread_self] at hset ⊢
      exact h u hset
    | unpin v => exact absurd rfl (he v)
    | stop v =>
      obtain rfl := Subsingleton.elim u v
      obtain rfl := Option.some.inj hs
      rw [System.setThread_self] at hset ⊢
      exact h u hset

/-- The only thread disturbs no other, and as long as it is pinned nothing moves it. -/
private theorem undisturbed_of_pinned [Subsingleton V] (ho : Ordered s) (h : Pinned s) (e : Event C V) : Undisturbed s e := by
  intro hen
  cases e with
  | thread v ok entry =>
    dsimp only
    split
    all_goals first | exact fun u hu => absurd (Subsingleton.elim u v) hu | trivial
  | migrate v cpu =>
    intro hset
    obtain ⟨t, hs⟩ := Option.isSome_iff_exists.mp hen
    have hmask := mask_of_migrate hs
    rw [h v hset, Option.all_some, decide_eq_true_eq] at hmask
    exact hmask.symm.trans ((ho.faithful v).settled hset).symm
  | unpin v => trivial
  | stop v => trivial

/-- The thread sets itself up, is stopped through `relm_vcpu_unpin_and_stop` and leaves on CPU `d`. -/
def stopElsewhere (v : V) (d : C) : List (Event C V) :=
  List.replicate 6 (.thread v true .entered) ++ [.unpin v, .migrate v d, .stop v] ++ List.replicate 3 (.thread v true .entered)

section Fields

variable (s) (v) (c : C) (x : Option V) (pc : Pc V)

omit [DecidableEq C] in
@[simp] theorem System.goto_threads : (s.goto v pc).threads v = { s.threads v with pc } := Function.update_self ..
omit [DecidableEq C] in
@[simp] theorem System.goto_cpus : (s.goto v pc).cpus = s.cpus := rfl
omit [DecidableEq V] in
@[simp] theorem System.setCurrent_threads : (s.relmSetCurrentVcpu c x).threads = s.threads := rfl
omit [DecidableEq C] in
@[simp] theorem System.setVcpu_threads (vcpu : Vcpu V) : (s.setVcpu v vcpu).threads = s.threads := rfl
@[simp] theorem System.vmclear_threads : (s.vmclear c v).threads = s.threads := rfl
@[simp] theorem System.vmptrld_threads : (s.vmptrld c v).threads = s.threads := rfl

omit [DecidableEq V] in
theorem System.setCurrent_cpus {d : C} (h : d ≠ c) : (s.relmSetCurrentVcpu c x).cpus d = s.cpus d := Function.update_of_ne h ..
theorem System.vmclear_cpus {d : C} (h : d ≠ c) : (s.vmclear c v).cpus d = s.cpus d := Function.update_of_ne h ..

end Fields

omit [DecidableEq C] in
/-- The only thread is never kept off a CPU. -/
private theorem not_held [Subsingleton V] (s : System C V) (c : C) (v : V) : (s.cpus c).held.any (· ≠ v) = false := by
  cases (s.cpus c).held with
  | none => rfl
  | some u => simp [Subsingleton.elim u v]

private theorem exec_of_thread {ok : Bool} {entry : Entry} (h : s.thread v ok entry = some t) :
    (s.exec (.thread v ok entry)).2 = t := by
  rw [System.exec, System.step, h]

/-- What the six steps of the way in do to the only thread. -/
private theorem set_up [Subsingleton V] (hs : Boot s) (v : V) :
    ((run System.exec s (List.replicate 6 (.thread v true .entered))).2.threads v).pc = .head ∧
      ((run System.exec s (List.replicate 6 (.thread v true .entered))).2.threads v).target = (s.threads v).target := by
  have hstep : ∀ (r : System C V) pc pc', (r.threads v).pc = pc →
      ((pc, pc') = (.start, .pin) ∨ (pc, pc') = (.pin, .register) ∨ (pc, pc') = (.register, .vmclear) ∨
        (pc, pc') = (.vmclear, .vmptrld) ∨ (pc, pc') = (.vmptrld, .fields) ∨ (pc, pc') = (.fields, .head)) →
      ((r.exec (.thread v true .entered)).2.threads v).pc = pc' ∧
        ((r.exec (.thread v true .entered)).2.threads v).target = (r.threads v).target := by
    intro r pc pc' hpc hcase
    have hfree := not_held r (r.threads v).cpu v
    rcases hcase with heq | heq | heq | heq | heq | heq <;> obtain ⟨rfl, rfl⟩ := Prod.mk.inj heq <;>
      rw [System.exec, System.step, System.thread, hfree, hpc] <;> simp
  obtain ⟨h1, g1⟩ := hstep s _ .pin (hs.threads v) (by simp)
  obtain ⟨h2, g2⟩ := hstep _ _ .register h1 (by simp)
  obtain ⟨h3, g3⟩ := hstep _ _ .vmclear h2 (by simp)
  obtain ⟨h4, g4⟩ := hstep _ _ .vmptrld h3 (by simp)
  obtain ⟨h5, g5⟩ := hstep _ _ .fields h4 (by simp)
  obtain ⟨h6, g6⟩ := hstep _ _ .head h5 (by simp)
  exact ⟨h6, g6.trans (g5.trans (g4.trans (g3.trans (g2.trans g1))))⟩

/-- The three steps of the way out touch the CPU that the thread is on and no other. -/
private theorem leaves [Subsingleton V] {c : C} (hpc : (s.threads v).pc = .head) (hstop : (s.threads v).stopping = true)
    (hc : c ≠ (s.threads v).cpu) :
    ((run System.exec s (List.replicate 3 (.thread v true .entered))).2.threads v).pc = .done ∧
      (run System.exec s (List.replicate 3 (.thread v true .entered))).2.cpus c = s.cpus c := by
  have hfree := fun (r : System C V) c => not_held r c v
  have h1 : (s.exec (.thread v true .entered)).2 = s.goto v (.destroy true) := by
    refine exec_of_thread ?_
    rw [System.thread, hfree, hpc]
    simp [hstop]
  have h2 : ((s.goto v (.destroy true)).exec (.thread v true .entered)).2 =
      ((s.goto v (.destroy true)).vmclear (s.threads v).cpu v).goto v .unset := by
    refine exec_of_thread ?_
    rw [System.thread, hfree, System.goto_threads]
    simp
  have h3 : ((((s.goto v (.destroy true)).vmclear (s.threads v).cpu v).goto v .unset).exec (.thread v true .entered)).2 =
      ((((s.goto v (.destroy true)).vmclear (s.threads v).cpu v).goto v .unset).relmSetCurrentVcpu (s.threads v).cpu none).goto v
        .done := by
    refine exec_of_thread ?_
    rw [System.thread, hfree, System.goto_threads, System.vmclear_threads, System.goto_threads]
    simp
  have hrun : (run System.exec s (List.replicate 3 (.thread v true .entered))).2 =
      ((((s.goto v (.destroy true)).vmclear (s.threads v).cpu v).goto v .unset).relmSetCurrentVcpu (s.threads v).cpu none).goto v
        .done := by
    rw [← h3, ← h2, ← h1]
    rfl
  rw [hrun, System.goto_threads, System.goto_cpus, System.setCurrent_cpus _ _ _ hc, System.goto_cpus,
    System.vmclear_cpus _ _ _ hc, System.goto_cpus]
  exact ⟨rfl, rfl⟩

private theorem admitted_without_unpin [Subsingleton V] (hs : Boot s) {events : List (Event C V)}
    (he : ∀ e ∈ events, ∀ v, e ≠ .unpin v) : Admitted System.exec Undisturbed s events := by
  refine @admitted_of_invariant _ _ _ System.exec _ (fun s => Ordered s ∧ Pinned s) (fun e => ∀ v, e ≠ .unpin v) ?_ _
    ⟨hs.ordered, fun v hset => ?_⟩ _ he
  · rintro s e ⟨ho, hp⟩ he
    have hu := undisturbed_of_pinned ho hp e
    exact ⟨hu, ho.exec hu, hp.exec he⟩
  · rw [hs.threads v] at hset
    cases hset

/-- After `relm_vcpu_unpin_and_stop` the thread can leave on a CPU where its VMCS is not active. -/
private theorem stopElsewhere_leaves [Subsingleton V] (hs : Boot s) {d : C} (hd : d ≠ (s.threads v).target) :
    ((run System.exec s (stopElsewhere v d)).2.threads v).pc = .done ∧
      ((run System.exec s (stopElsewhere v d)).2.cpus (s.threads v).target).active v = true := by
  have ho : Ordered (run System.exec s (List.replicate 6 (.thread v true .entered))).2 := by
    refine hs.ordered.run (admitted_without_unpin hs fun e he u => ?_)
    rw [List.eq_of_mem_replicate he]
    exact fun h => by cases h
  obtain ⟨hpc, htarget⟩ := set_up hs v
  set r := (run System.exec s (List.replicate 6 (.thread v true .entered))).2
  have hcpu : (r.threads v).cpu = (s.threads v).target := ((ho.faithful v).settled (by rw [hpc]; rfl)).trans htarget
  have hactive := ho.current _ v ((ho.faithful v).loaded (by rw [hpc]; rfl))
  rw [hcpu] at hactive
  -- unpinned, moved and asked to stop
  have hmid : (run System.exec r [.unpin v, .migrate v d, .stop v]).2 =
      r.setThread v { r.threads v with cpu := d, mask := none, stopping := true } := by
    have hmove : (r.setThread v { r.threads v with mask := none }).migrate v d =
        some (r.setThread v { r.threads v with cpu := d, mask := none }) := by
      rw [System.migrate, System.setThread_self]
      dsimp only
      rw [hpc]
      simp [System.setThread]
    simp only [run, System.exec, System.step, hmove, System.setThread_self]
    simp [System.setThread]
  have hsplit : (run System.exec s (stopElsewhere v d)).2 =
      (run System.exec (r.setThread v { r.threads v with cpu := d, mask := none, stopping := true })
        (List.replicate 3 (.thread v true .entered))).2 := by
    rw [stopElsewhere, run_append, run_append, hmid]
  have hout := leaves (s := r.setThread v { r.threads v with cpu := d, mask := none, stopping := true }) (v := v)
    (c := (s.threads v).target) (by rw [System.setThread_self]; exact hpc) (by rw [System.setThread_self])
    (by rw [System.setThread_self]; exact hd.symm)
  rw [hsplit]
  refine ⟨hout.1, ?_⟩
  rw [hout.2]
  exact hactive

/-- With one VCPU, which is all that RELM_MAX_VCPUS admits, every run without `relm_vcpu_unpin_and_stop` keeps all of this,
whatever the scheduler does; with it the thread can end on any other CPU, and the VMCS is left active where it was. -/
theorem single_vcpu_runs [Subsingleton V] {s : System C V} (hs : Boot s) :
    (∀ events : List (Event C V), (∀ e ∈ events, ∀ v, e ≠ .unpin v) →
      Throughout System.exec (fun _ s => Attributed s) [] s events ∧ Ordered (run System.exec s events).2) ∧
    ∀ v d, d ≠ (s.threads v).target → ((run System.exec s (stopElsewhere v d)).2.threads v).pc = .done ∧
      ((run System.exec s (stopElsewhere v d)).2.cpus (s.threads v).target).active v = true := by
  refine ⟨fun events he => ?_, fun v d hd => stopElsewhere_leaves hs hd⟩
  have ha := admitted_without_unpin hs he
  exact ⟨(hs.ordered.attributed_iff events).mpr ha, hs.ordered.run ha⟩

/-- The thread ends on CPU 1 while its VMCS is active on CPU 0. -/
theorem single_vcpu_stopped_elsewhere :
    ((run System.exec (atRest fun _ : Unit => 0) (stopElsewhere () 1)).2.cpus 0).active () = true :=
  ((single_vcpu_runs (atRest_boot fun _ : Unit => (0 : Nat))).2 () 1 (by decide)).2

end Single

end Relm.Vmx.Threads
