import Mathlib.Data.Int.Basic
import Relm.Host.Pages

/-! The VCPU table of a VM: adding through the generic layer and either x86 backend, and the lookup. -/
namespace Relm.Vm

/-- `enum vm_state`. -/
inductive VmStatus
  | created | initialized | running | suspended | stopped
  deriving DecidableEq

/-- `enum vcpu_state`. -/
inductive VcpuStatus
  | uninitialized | initialized | running | halted | stopped | shutdown | error
  deriving DecidableEq

/-- Where the thread of a VCPU is: not yet in `relm_vcpu_loop`, before pinning, before `vcpu_init`, at the head of the
loop, or returned. -/
inductive ThreadPhase
  | created | entered | pinned | looping | exited
  deriving DecidableEq

/-- `struct vcpu`, as far as the table and its life cycle read it. `hostTask` is `none` for a `NULL` pointer. -/
structure Vcpu where
  vpid : BitVec 16
  state : VcpuStatus
  halted : Bool
  hostTask : Option ThreadPhase

/-- `RELM_MAX_VCPUS`. -/
def relmMaxVcpus : Nat := 1

/-- The VCPU part of `struct relm_vm`; a slot is `none` for a `NULL` pointer. -/
structure VmCpus where
  state : VmStatus
  maxVcpus : Nat
  onlineVcpus : Int
  vcpus : List (Option Vcpu)

def vpidIsValid (vpid : Int) (max : Nat) : Bool := decide (vpid > 0) && decide (vpid ≤ max)
def vpidToIndex (vpid : Int) : Int := vpid - 1

namespace VmCpus

/-- A table as `relm_create_vm` allocates it. -/
def empty (maxVcpus : Nat) : VmCpus := ⟨.initialized, maxVcpus, 0, List.replicate maxVcpus none⟩

/-- `vm->vcpus[index]`; `none` when the access leaves the array. -/
def slot (t : VmCpus) (index : Int) : Option (Option Vcpu) := if 0 ≤ index then t.vcpus[index.toNat]? else none

/-- Store a VCPU and count it; `none` when the access leaves the array. -/
def put (t : VmCpus) (index : Int) (vcpu : Vcpu) : Option VmCpus :=
  if 0 ≤ index ∧ index.toNat < t.vcpus.length then
    some { t with vcpus := t.vcpus.set index.toNat (some vcpu), onlineVcpus := t.onlineVcpus + 1 }
  else none

end VmCpus

/-- `relm_vcpu_create`, with the outcome of its allocations. The field has 16 bits. -/
def relmVcpuCreate (created : Except Errno Unit) (vpid : Int) : Except Errno Vcpu :=
  created.map fun _ => ⟨BitVec.ofInt 16 vpid, .initialized, false, none⟩

/-- The two implementations of `add_vcpu`. -/
inductive Backend
  | vmx | svm
  deriving DecidableEq

def vmxAddVcpu (created : Except Errno Unit) (t : VmCpus) (vpid : Int) : Option (Except Errno Unit × VmCpus) :=
  match relmVcpuCreate created vpid with
  | .error e => some (.error e, t)
  | .ok vcpu => (t.put (vpidToIndex vpid) vcpu).map fun t => (.ok (), t)

def svmAddVcpu (created : Except Errno Unit) (t : VmCpus) (vpid : Int) : Option (Except Errno Unit × VmCpus) :=
  if vpid < 0 ∨ vpid ≥ t.maxVcpus then some (.error .einval, t)
  else
    match relmVcpuCreate created vpid with
    | .error e => some (.error e, t)
    | .ok vcpu => (t.put vpid vcpu).map fun t => (.ok (), t)

def Backend.addVcpu : Backend → Except Errno Unit → VmCpus → Int → Option (Except Errno Unit × VmCpus)
  | .vmx => vmxAddVcpu
  | .svm => svmAddVcpu

/-- `none` when an access leaves the array. -/
def relmVmAddVcpu (b : Backend) (created : Except Errno Unit) (t : VmCpus) (vpid : Int) :
    Option (Except Errno Unit × VmCpus) :=
  if !vpidIsValid vpid t.maxVcpus then some (.error .einval, t)
  else
    match t.slot (vpidToIndex vpid) with
    | none => none
    | some (some _) => some (.error .eexist, t)
    | some none => b.addVcpu created t vpid

/-- The argument has 16 bits; `none` when an access leaves the array. -/
def relmVmGetVcpu (t : VmCpus) (vpid : BitVec 16) : Option (Option Vcpu) :=
  if vpid == 0 then some none
  else if !vpidIsValid vpid.toNat t.maxVcpus then some none
  else t.slot (vpidToIndex vpid.toNat)

/-- A call of `relm_vm_add_vcpu`, with the outcome of the creation if it is attempted. -/
structure AddCall where
  vpid : Int
  created : Except Errno Unit

/-- The lookup finds exactly what was added, under its own number, and the counter counts the occupied slots. -/
structure Serves (t : VmCpus) (added : List Int) : Prop where
  sound : ∀ v : BitVec 16, ∃ s, relmVmGetVcpu t v = some s ∧ (s.isSome = true → (v.toNat : Int) ∈ added)
  complete : ∀ vpid ∈ added, ∃ vcpu, relmVmGetVcpu t (BitVec.ofInt 16 vpid) = some (some vcpu) ∧ (vcpu.vpid.toNat : Int) = vpid
  online : t.onlineVcpus = t.vcpus.countP Option.isSome

/-- One call: a free valid number is taken, a number that is taken is refused, and no VCPU is overwritten. -/
structure AddOk (t : VmCpus) (added : List Int) (c : AddCall) (ret : Except Errno Unit) (t' : VmCpus) : Prop where
  accepts : 1 ≤ c.vpid → c.vpid ≤ t.maxVcpus → c.vpid ∉ added → c.created = .ok () → ret = .ok ()
  refuses : c.vpid ∈ added → ret = .error .eexist
  keeps : ∀ (i : Nat) vcpu, t.vcpus[i]? = some (some vcpu) → t'.vcpus[i]? = some (some vcpu)

/-- Every state of a run serves what has been added so far, and no call leaves the array. -/
def TableSound (b : Backend) (t : VmCpus) (added : List Int) : List AddCall → Prop
  | [] => Serves t added
  | c :: calls => Serves t added ∧ ∃ ret t', relmVmAddVcpu b c.created t c.vpid = some (ret, t') ∧ AddOk t added c ret t' ∧
      TableSound b t' (if ret.toBool then c.vpid :: added else added) calls

/-- The numbers that are really added fit the field and the argument, and the backend has the generic convention. -/
def AddFits (b : Backend) (maxVcpus : Nat) (c : AddCall) : Prop :=
  1 ≤ c.vpid → c.vpid ≤ maxVcpus → c.created = .ok () → b = .vmx ∧ c.vpid < 2 ^ 16

/-- The invariant: slot `i` is for the number `i + 1`. -/
structure Placed (t : VmCpus) (added : List Int) : Prop where
  length : t.vcpus.length = t.maxVcpus
  slots : ∀ (i : Nat) s, t.vcpus[i]? = some s → (s.isSome = true ↔ ((i : Int) + 1) ∈ added)
  numbers : ∀ (i : Nat) vcpu, t.vcpus[i]? = some (some vcpu) → vcpu.vpid.toNat = i + 1
  range : ∀ vpid ∈ added, 1 ≤ vpid ∧ vpid ≤ t.maxVcpus ∧ vpid < 2 ^ 16
  online : t.onlineVcpus = t.vcpus.countP Option.isSome

namespace Placed

variable {t : VmCpus} {added : List Int} {vpid : Int}

theorem valid_iff (vpid : Int) (max : Nat) : vpidIsValid vpid max = true ↔ 1 ≤ vpid ∧ vpid ≤ max := by
  rw [vpidIsValid, Bool.and_eq_true, decide_eq_true_eq, decide_eq_true_eq]
  exact Iff.rfl

/-- The slot of a valid number is inside the array. -/
theorem slot_eq (h : Placed t added) (h1 : 1 ≤ vpid) (h2 : vpid ≤ t.maxVcpus) :
    ∃ s, t.slot (vpidToIndex vpid) = some s ∧ t.vcpus[(vpid - 1).toNat]? = some s ∧ (s.isSome = true ↔ vpid ∈ added) := by
  have hlt : (vpid - 1).toNat < t.vcpus.length := by
    rw [h.length]
    omega
  refine ⟨t.vcpus[(vpid - 1).toNat], ?_, List.getElem?_eq_getElem hlt, ?_⟩
  · rw [VmCpus.slot, vpidToIndex, if_pos (by omega)]
    exact List.getElem?_eq_getElem hlt
  · rw [h.slots _ _ (List.getElem?_eq_getElem hlt), show (((vpid - 1).toNat : Int) + 1) = vpid by omega]

theorem serves (h : Placed t added) : Serves t added := by
  refine ⟨fun v => ?_, fun vpid hv => ?_, h.online⟩
  · unfold relmVmGetVcpu
    by_cases h0 : v = 0
    · rw [if_pos (beq_iff_eq.mpr h0)]
      exact ⟨none, rfl, fun hc => by cases hc⟩
    rw [if_neg (fun hc => h0 (beq_iff_eq.mp hc))]
    by_cases hv : vpidIsValid v.toNat t.maxVcpus = true
    · simp only [hv, Bool.not_true, Bool.false_eq_true, if_false]
      obtain ⟨h1, h2⟩ := (valid_iff _ _).mp hv
      obtain ⟨s, hs, -, hiff⟩ := h.slot_eq h1 h2
      exact ⟨s, hs, hiff.mp⟩
    · simp only [hv, Bool.not_false, if_true]
      exact ⟨none, rfl, fun hc => by cases hc⟩
  · obtain ⟨h1, h2, h3⟩ := h.range vpid hv
    have hnat : ((BitVec.ofInt 16 vpid).toNat : Int) = vpid := by
      rw [BitVec.toNat_ofInt]
      omega
    have hne : BitVec.ofInt 16 vpid ≠ 0 := by
      intro hc
      rw [hc, show ((0 : BitVec 16).toNat : Int) = 0 from rfl] at hnat
      omega
    obtain ⟨s, hs, hget, hiff⟩ := h.slot_eq h1 h2
    have hsome := hiff.mpr hv
    obtain ⟨vcpu, rfl⟩ := Option.isSome_iff_exists.mp hsome
    refine ⟨vcpu, ?_, ?_⟩
    · rw [relmVmGetVcpu, if_neg (fun hc => hne (beq_iff_eq.mp hc)), hnat, (valid_iff _ _).mpr ⟨h1, h2⟩]
      simpa using hs
    · rw [h.numbers _ vcpu hget]
      omega

/-- Storing a VCPU under its own number in a free slot. -/
private theorem put (h : Placed t added) (h1 : 1 ≤ vpid) (h2 : vpid ≤ t.maxVcpus) (h3 : vpid < 2 ^ 16) (hnew : vpid ∉ added)
    {vcpu : Vcpu} (hv : vcpu.vpid = BitVec.ofInt 16 vpid) :
    ∃ t', t.put (vpidToIndex vpid) vcpu = some t' ∧ Placed t' (vpid :: added) ∧
      ∀ (i : Nat) v, t.vcpus[i]? = some (some v) → t'.vcpus[i]? = some (some v) := by
  obtain ⟨s, -, hget, hiff⟩ := h.slot_eq h1 h2
  have hs : s = none := Option.not_isSome_iff_eq_none.mp fun hc => hnew (hiff.mp hc)
  rw [hs] at hget
  have hlt : (vpid - 1).toNat < t.vcpus.length := by
    rw [h.length]
    omega
  refine ⟨_, if_pos ⟨by rw [vpidToIndex]; omega, hlt⟩, ⟨?_, ?_, ?_, ?_, ?_⟩, ?_⟩
  · simpa using h.length
  · intro i s' hi
    rw [vpidToIndex, List.getElem?_set] at hi
    by_cases hi' : (vpid - 1).toNat = i
    · rw [if_pos hi', if_pos (hi' ▸ hlt)] at hi
      rw [← Option.some.inj hi]
      simp only [Option.isSome_some, List.mem_cons, true_iff]
      left
      omega
    · rw [if_neg hi'] at hi
      rw [h.slots i s' hi, List.mem_cons]
      constructor
      · exact .inr
      · rintro (hc | hc)
        · omega
        · exact hc
  · intro i v hi
    rw [vpidToIndex, List.getElem?_set] at hi
    by_cases hi' : (vpid - 1).toNat = i
    · rw [if_pos hi', if_pos (hi' ▸ hlt)] at hi
      obtain rfl := Option.some.inj (Option.some.inj hi)
      rw [hv, BitVec.toNat_ofInt]
      omega
    · rw [if_neg hi'] at hi
      exact h.numbers i v hi
  · intro v hmem
    rcases List.mem_cons.mp hmem with rfl | hmem
    · exact ⟨h1, h2, h3⟩
    · exact h.range v hmem
  · have hcount := List.countP_set (p := Option.isSome) (a := some vcpu) hlt
    have hnone : t.vcpus[(vpid - 1).toNat] = none := by
      rw [List.getElem?_eq_getElem hlt] at hget
      exact Option.some.inj hget
    rw [hnone] at hcount
    simp only [Option.isSome_none, Option.isSome_some, Bool.false_eq_true, if_false, if_true, Nat.sub_zero] at hcount
    simp only [vpidToIndex]
    rw [hcount, h.online]
    rfl
  · intro i v hi
    have hne : (vpid - 1).toNat ≠ i := by
      rintro rfl
      rw [hget] at hi
      cases hi
    rw [vpidToIndex, List.getElem?_set, if_neg hne]
    exact hi

/-- A call that fits keeps the invariant and answers as it should. -/
theorem step (h : Placed t added) {b : Backend} {c : AddCall} (hc : AddFits b t.maxVcpus c) :
    ∃ ret t', relmVmAddVcpu b c.created t c.vpid = some (ret, t') ∧ AddOk t added c ret t' ∧ t'.maxVcpus = t.maxVcpus ∧
      Placed t' (if ret.toBool then c.vpid :: added else added) ∧ (b = .svm → ret.toBool = false) := by
  unfold relmVmAddVcpu
  by_cases hv : vpidIsValid c.vpid t.maxVcpus = true
  swap
  · have hnot : ¬ (1 ≤ c.vpid ∧ c.vpid ≤ t.maxVcpus) := fun hr => hv ((valid_iff _ _).mpr hr)
    simp only [hv, Bool.not_false, if_true]
    refine ⟨_, t, rfl, ⟨fun h1 h2 => absurd ⟨h1, h2⟩ hnot, fun hm => ?_, fun _ _ hi => hi⟩, rfl, h, fun _ => rfl⟩
    obtain ⟨h1, h2, -⟩ := h.range _ hm
    exact absurd ⟨h1, h2⟩ hnot
  obtain ⟨h1, h2⟩ := (valid_iff _ _).mp hv
  obtain ⟨s, hs, -, hiff⟩ := h.slot_eq h1 h2
  simp only [hv, Bool.not_true, Bool.false_eq_true, if_false, hs]
  cases s with
  | some v =>
    have hm : c.vpid ∈ added := hiff.mp rfl
    exact ⟨_, t, rfl, ⟨fun _ _ hn => absurd hm hn, fun _ => rfl, fun _ _ hi => hi⟩, rfl, h, fun _ => rfl⟩
  | none =>
    have hn : c.vpid ∉ added := fun hm => by cases hiff.mpr hm
    cases hcr : c.created with
    | error e =>
      have hret : ∃ e', b.addVcpu (.error e) t c.vpid = some (.error e', t) := by
        cases b with
        | vmx => exact ⟨e, rfl⟩
        | svm =>
          simp only [Backend.addVcpu, svmAddVcpu]
          split
          · exact ⟨_, rfl⟩
          · exact ⟨e, rfl⟩
      obtain ⟨e', hret⟩ := hret
      refine ⟨_, t, hret, ⟨fun _ _ _ hok => ?_, fun hm => absurd hm hn, fun _ _ hi => hi⟩, rfl, h, fun _ => rfl⟩
      rw [hcr] at hok
      cases hok
    | ok u =>
      obtain ⟨rfl, h3⟩ := hc h1 h2 hcr
      have hvpid : (⟨BitVec.ofInt 16 c.vpid, .initialized, false, none⟩ : Vcpu).vpid = BitVec.ofInt 16 c.vpid := rfl
      obtain ⟨t', hput, hplaced, hkeep⟩ := h.put h1 h2 h3 hn hvpid
      refine ⟨.ok (), t', ?_, ⟨fun _ _ _ _ => rfl, fun hm => absurd hm hn, hkeep⟩, ?_, hplaced, fun hc => by cases hc⟩
      · simp only [Backend.addVcpu, vmxAddVcpu, relmVcpuCreate, Except.map, hput, Option.map_some]
      · unfold VmCpus.put at hput
        split at hput
        · obtain rfl := Option.some.inj hput
          rfl
        · cases hput

/-- A VCPU added under a number above 16 bits, or by the other convention, is not found again. -/
private theorem not_sound (h : Placed t added) {b : Backend} {c : AddCall} {calls : List AddCall}
    (hb : b = .svm → added = []) (hs : TableSound b t added (c :: calls)) : AddFits b t.maxVcpus c := by
  intro h1 h2 hcr
  obtain ⟨-, ret, t', hadd, hok, hrest⟩ := hs
  have hserves : Serves t' (if ret.toBool then c.vpid :: added else added) := by
    cases calls with
    | nil => exact hrest
    | cons c' calls => exact hrest.1
  by_cases hmem : c.vpid ∈ added
  · refine ⟨?_, (h.range _ hmem).2.2⟩
    cases b with
    | vmx => rfl
    | svm =>
      rw [hb rfl] at hmem
      cases hmem
  have hret : ret = .ok () := hok.accepts h1 h2 hmem hcr
  subst hret
  obtain ⟨vcpu, hget, hnum⟩ := hserves.complete c.vpid (by simp [Except.toBool])
  have hsmall : c.vpid < 2 ^ 16 := by
    have := vcpu.vpid.isLt
    omega
  refine ⟨?_, hsmall⟩
  cases b with
  | vmx => rfl
  | svm =>
    -- The VCPU is in slot `vpid`, and the lookup reads slot `vpid - 1`, which is still free.
    obtain ⟨s, hslot, hold, hiff⟩ := h.slot_eq h1 h2
    have hnone : s = none := Option.not_isSome_iff_eq_none.mp fun hc => hmem (hiff.mp hc)
    subst hnone
    have hput : (t.put c.vpid ⟨BitVec.ofInt 16 c.vpid, .initialized, false, none⟩) = some t' := by
      unfold relmVmAddVcpu at hadd
      simp only [(valid_iff _ _).mpr ⟨h1, h2⟩, Bool.not_true, Bool.false_eq_true, if_false, hslot, Backend.addVcpu,
        svmAddVcpu, hcr, relmVcpuCreate, Except.map] at hadd
      split at hadd
      · cases hadd
      · obtain ⟨u, hu, heq⟩ := Option.map_eq_some_iff.mp hadd
        rw [hu, (Prod.mk.inj heq).2]
    have hslot' : t'.slot (vpidToIndex c.vpid) = some none := by
      unfold VmCpus.put at hput
      split at hput
      · obtain rfl := Option.some.inj hput
        rw [VmCpus.slot, vpidToIndex, if_pos (by omega)]
        simp only
        rw [List.getElem?_set, if_neg (by omega)]
        exact hold
      · cases hput
    have hmax : t'.maxVcpus = t.maxVcpus := by
      unfold VmCpus.put at hput
      split at hput
      · obtain rfl := Option.some.inj hput
        rfl
      · cases hput
    have hnat : ((BitVec.ofInt 16 c.vpid).toNat : Int) = c.vpid := by
      rw [BitVec.toNat_ofInt]
      omega
    have hne : BitVec.ofInt 16 c.vpid ≠ 0 := by
      intro hc
      rw [hc, show ((0 : BitVec 16).toNat : Int) = 0 from rfl] at hnat
      omega
    rw [relmVmGetVcpu, if_neg (fun hc => hne (beq_iff_eq.mp hc)), hnat, hmax, (valid_iff _ _).mpr ⟨h1, h2⟩] at hget
    simp only [Bool.not_true, Bool.false_eq_true, if_false, hslot'] at hget
    cases hget

private theorem sound_iff (h : Placed t added) {b : Backend} (hb : b = .svm → added = []) (calls : List AddCall) :
    TableSound b t added calls ↔ ∀ c ∈ calls, AddFits b t.maxVcpus c := by
  induction calls generalizing t added with
  | nil => exact ⟨fun _ _ hc => (by cases hc), fun _ => h.serves⟩
  | cons c calls ih =>
    constructor
    · intro hs
      have hfits := not_sound h hb hs
      obtain ⟨ret, t', hadd, -, hmax, hplaced, hsvm⟩ := h.step hfits
      obtain ⟨-, ret', t'', hadd', -, hrest⟩ := hs
      rw [hadd] at hadd'
      obtain ⟨rfl, rfl⟩ := Prod.mk.inj (Option.some.inj hadd')
      have htail := (ih hplaced fun hbs => by rw [hsvm hbs]; exact hb hbs).mp hrest
      rw [hmax] at htail
      intro c' hc'
      rcases List.mem_cons.mp hc' with rfl | hc'
      · exact hfits
      · exact htail c' hc'
    · intro hall
      have hfits := hall c List.mem_cons_self
      obtain ⟨ret, t', hadd, hok, hmax, hplaced, hsvm⟩ := h.step hfits
      refine ⟨h.serves, ret, t', hadd, hok, (ih hplaced ?_).mpr fun c' hc' => hmax ▸ hall c' (List.mem_cons_of_mem _ hc')⟩
      intro hbs
      rw [hsvm hbs]
      exact hb hbs

private theorem placed_empty (maxVcpus : Nat) : Placed (VmCpus.empty maxVcpus) [] := by
  have hnone : ∀ (i : Nat) s, (VmCpus.empty maxVcpus).vcpus[i]? = some s → s = none := by
    intro i s hi
    have hi' : (List.replicate maxVcpus (none : Option Vcpu))[i]? = some s := hi
    rw [List.getElem?_replicate] at hi'
    split at hi'
    · exact (Option.some.inj hi').symm
    · cases hi'
  refine ⟨List.length_replicate, fun i s hi => ?_, fun i v hi => ?_, fun v hv => (by cases hv), ?_⟩
  · rw [hnone i s hi]
    simp
  · cases hnone i _ hi
  · simp [VmCpus.empty, List.countP_replicate]

end Placed

/-- Over every run of additions to a new table: the table serves exactly what was added, with no access outside the array,
exactly when every number that is really added goes through the VMX backend and fits 16 bits. -/
theorem vcpu_table_sound_iff (b : Backend) (maxVcpus : Nat) (calls : List AddCall) :
    TableSound b (VmCpus.empty maxVcpus) [] calls ↔ ∀ c ∈ calls, AddFits b maxVcpus c :=
  Placed.sound_iff (Placed.placed_empty maxVcpus) (fun _ => rfl) calls

/-- With one slot the SVM backend refuses the only number; with two it puts number 1 where the lookup of number 2 reads. -/
theorem svm_loses_vcpus : ¬ TableSound .svm (VmCpus.empty 1) [] [⟨1, .ok ()⟩] ∧
    ¬ TableSound .svm (VmCpus.empty 2) [] [⟨1, .ok ()⟩] := by
  constructor
  · rintro ⟨-, ret, t, hadd, hok, -⟩
    have hrun : relmVmAddVcpu .svm (.ok ()) (VmCpus.empty 1) 1 = some (.error .einval, VmCpus.empty 1) := rfl
    obtain ⟨rfl, -⟩ := Prod.mk.inj (Option.some.inj (hrun.symm.trans hadd))
    cases hok.accepts (by decide) (by decide) (by decide) rfl
  · rintro ⟨-, ret, t, hadd, -, hserves⟩
    have hrun : relmVmAddVcpu .svm (.ok ()) (VmCpus.empty 2) 1 =
        some (.ok (), ⟨.initialized, 2, 1, [none, some ⟨1#16, .initialized, false, none⟩]⟩) := rfl
    obtain ⟨rfl, rfl⟩ := Prod.mk.inj (Option.some.inj (hrun.symm.trans hadd))
    obtain ⟨vcpu, hget, -⟩ := hserves.complete 1 (by decide)
    cases hget

end Relm.Vm
