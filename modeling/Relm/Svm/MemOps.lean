import Relm.Lib.Run
import Relm.Svm.Npt
import Relm.Vm.Regions

/-! The memory operations behind the common interface: over every run of mapping and unmapping calls the VMX and the
SVM backend answer alike, translate alike and grant the same accesses. -/
namespace Relm.Svm
open Relm.Ept Relm.Lib.Run
open NptState

/-- `map_page` and `unmap_page` of `struct relm_mem_ops`, over the state of a backend. -/
structure MemOps (S : Type) where
  mapPage : S → U64 → U64 → U64 → Except Errno Unit × S
  unmapPage : S → U64 → S

/-- Generic region flags as NPT bits. -/
def svmNptFlags (flags : U64) : U64 :=
  nptPresent ||| nptUser ||| (if flags &&& Vm.relmMemFWrite != 0 then nptWritable else 0) |||
  (if flags &&& Vm.relmMemFExec != 0 then 0 else nptNx) |||
  (if flags &&& Vm.relmMemFMmio != 0 then nptMemtypeUc else nptMemtypeWb)

def vmxMemOps : MemOps EptState where
  mapPage s gpa hpa flags := let r := relmEptMapPage s gpa hpa (Vm.vmxEptFlags flags); (r.ret, r.next)
  unmapPage s gpa := (relmEptUnmapPage s gpa).next

def svmMemOps : MemOps NptState where
  mapPage s gpa hpa flags := relmNptMapPage s gpa hpa (svmNptFlags flags)
  unmapPage s gpa := (relmNptUnmapPage s gpa).2

/-- The calls of a run. -/
inductive MemCall
  | mapPage (gpa hpa flags : U64)
  | unmapPage (gpa : U64)

/-- The answer of a call; unmapping has none. -/
def MemOps.exec {S : Type} (ops : MemOps S) (s : S) : MemCall → Except Errno Unit × S
  | .mapPage gpa hpa flags => ops.mapPage s gpa hpa flags
  | .unmapPage gpa => (.ok (), ops.unmapPage s gpa)

/-- Addresses within the architectural widths, and read access asked for. -/
def MemCall.Admissible : MemCall → Prop
  | mapPage gpa hpa flags => gpa.toNat < 2 ^ 48 ∧ hpa.toNat < 2 ^ 52 ∧ flags &&& Vm.relmMemFRead ≠ 0
  | unmapPage gpa => gpa.toNat < 2 ^ 48

instance : DecidablePred MemCall.Admissible
  | .mapPage _ _ _ => inferInstanceAs (Decidable (_ ∧ _ ∧ _))
  | .unmapPage _ => inferInstanceAs (Decidable (_ < _))

/-- May the guest write the page, by the EPT? -/
def eptMayWrite (s : EptState) (a : U64) : Bool := (hwTranslate s a).any fun r => r.2 &&& eptAccessWrite != 0
def eptMayExec (s : EptState) (a : U64) : Bool := (hwTranslate s a).any fun r => r.2 &&& eptAccessExec != 0
/-- May the guest write the page, by the NPT? -/
def nptMayWrite (t : NptState) (a : U64) : Bool := (nptHwTranslate t a).any fun r => r.2.1
def nptMayExec (t : NptState) (a : U64) : Bool := (nptHwTranslate t a).any fun r => r.2.2

/-- Two backend states that the interface cannot tell apart. -/
structure BackendsAgree (s : EptState) (t : NptState) : Prop where
  mapping : ∀ a, (relmEptGetMapping s a).ret = relmNptGetMapping t a
  write : ∀ a, eptMayWrite s a = nptMayWrite t a
  exec : ∀ a, eptMayExec s a = nptMayExec t a

section Flags

variable (flags : U64)

/-- What the translated flags say, in both formats. -/
structure FlagsMirror (ept npt : U64) : Prop where
  eptAddr : ept &&& eptAddrMask = 0#64
  nptAddr : npt &&& eptAddrMask = 0#64
  present : present ept = true
  user : presentUser npt = true
  write : (ept &&& eptAccessWrite != 0) = (npt &&& nptWritable != 0)
  exec : (ept &&& eptAccessExec != 0) = (npt &&& nptNx == 0)

variable {flags}

theorem flags_mirror (hr : flags &&& Vm.relmMemFRead ≠ 0) : FlagsMirror (Vm.vmxEptFlags flags) (svmNptFlags flags) := by
  have hread : (flags &&& Vm.relmMemFRead != 0) = true := bne_iff_ne.mpr hr
  unfold Vm.vmxEptFlags svmNptFlags
  rw [hread]
  generalize (flags &&& Vm.relmMemFWrite != 0) = w
  generalize (flags &&& Vm.relmMemFExec != 0) = x
  generalize (flags &&& Vm.relmMemFMmio != 0) = m
  cases w <;> cases x <;> cases m <;> exact ⟨by decide, by decide, by decide, by decide, by decide, by decide⟩

private theorem leafEntry_and {m : U64} (hm : eptAddrMask &&& m = 0#64) (hpa f : U64) : leafEntry hpa f &&& m = f &&& m := by
  rw [leafEntry, BitVec.and_or_distrib_right, BitVec.and_assoc, hm, BitVec.and_zero, BitVec.zero_or]

end Flags

/-- Leaves of one address and of mirrored flags. -/
def LeavesMirror : Option U64 → Option U64 → Prop
  | none, none => True
  | some e, some n => ∃ hpa ept npt, isFrame hpa ∧ FlagsMirror ept npt ∧ e = leafEntry hpa ept ∧ n = leafEntry hpa npt
  | _, _ => False

theorem LeavesMirror.isSome {o o' : Option U64} (h : LeavesMirror o o') : o'.isSome = o.isSome := by
  cases o with
  | none =>
    cases o' with
    | none => rfl
    | some n => exact h.elim
  | some e =>
    cases o' with
    | none => exact h.elim
    | some n => rfl

/-- A well formed context that holds 4 KiB leaves only. -/
structure Plain (s : EptState) : Prop where
  shape : EptState.Shape s
  noHuge : ∀ a, s.pde a = none

namespace Plain

variable {s : EptState} {gpa hpa flags : U64}

/-- The arguments the mapping functions of both formats accept. -/
def accepted (gpa hpa : U64) : Bool := eptIs4kbAligned gpa && eptIs4kbAligned hpa

/-- What mapping a page does to a plain context: where no allocation has failed, the arguments alone decide. -/
theorem mapPage (h : Plain s) (hf : present flags = true) (gpa hpa : U64) :
    Plain (relmEptMapPage s gpa hpa flags).next ∧
    (s.host.oom = true → (relmEptMapPage s gpa hpa flags).next.host.oom = true) ∧
    ((relmEptMapPage s gpa hpa flags).next.host.oom = false →
      if accepted gpa hpa then (relmEptMapPage s gpa hpa flags).ret = .ok () ∧
        (relmEptMapPage s gpa hpa flags).next.pte = s.withPte gpa (some (leafEntry hpa flags))
      else (relmEptMapPage s gpa hpa flags).ret = .error .einval ∧ (relmEptMapPage s gpa hpa flags).next.pte = s.pte) := by
  have hvalid : (eptIs4kbAligned gpa && eptIs4kbAligned hpa && present flags) = accepted gpa hpa := by
    rw [hf, Bool.and_true, accepted]
  cases EptState.mapPage_spec gpa hpa flags h.shape (h.noHuge gpa) with
  | invalid hv hr =>
    rw [hvalid] at hv
    rw [hr, hv]
    exact ⟨h, id, fun _ => ⟨rfl, rfl⟩⟩
  | refused hv hret hoom same =>
    refine ⟨⟨same.shape, fun a => (same.pde a).trans (h.noHuge a)⟩, fun _ => hoom, fun hno => ?_⟩
    rw [hoom] at hno
    cases hno
  | done hv hret hd =>
    rw [hvalid] at hv
    rw [if_pos hv]
    exact ⟨⟨hd.1.shape, fun a => (hd.1.pde a).trans (h.noHuge a)⟩, hd.1.oom, fun _ => ⟨hret, funext hd.1.pte⟩⟩

/-- Unmapping removes the leaf of the page, if there is one. -/
theorem unmapPage (h : Plain s) (gpa : U64) :
    Plain (relmEptUnmapPage s gpa).next ∧ (s.host.oom = true → (relmEptUnmapPage s gpa).next.host.oom = true) ∧
      (relmEptUnmapPage s gpa).next.pte = if (s.pte gpa).isSome then s.withPte gpa none else s.pte := by
  have hspec := (EptState.unmapPage_spec h.shape (h.noHuge gpa)).2
  cases hp : s.pte gpa with
  | none =>
    rw [hp] at hspec
    rw [hspec.2]
    exact ⟨h, id, rfl⟩
  | some e =>
    rw [hp] at hspec
    obtain ⟨-, hl⟩ := hspec
    exact ⟨⟨hl.shape, fun a => (hl.pde a).trans (h.noHuge a)⟩, hl.oom, funext hl.pte⟩

end Plain

/-- Both contexts are plain, and no link of the nested tables forbids execution. -/
structure Paired (s : EptState) (t : NptState) : Prop where
  ept : Plain s
  npt : Plain t.toEpt
  links : EptState.Without nxLink t.toEpt

/-- Each leaf of one context has its mirror in the other. -/
structure Mirrors (s : EptState) (t : NptState) : Prop extends Paired s t where
  leaves : ∀ a, LeavesMirror (s.pte a) (t.toEpt.pte a)

namespace Mirrors

variable {s : EptState} {t : NptState}

private theorem grant {a hpa npt : U64} (hu : presentUser npt = true) :
    leafGrant a (leafEntry hpa npt) =
      some (entryAddr (leafEntry hpa npt) ||| eptPageOffset a, npt &&& nptWritable != 0, npt &&& nptNx == 0) := by
  have hu' : presentUser (leafEntry hpa npt) = true := by
    rw [presentUser, leafEntry_and (by decide)]
    exact hu
  rw [leafGrant, if_pos hu', leafEntry_and (by decide), leafEntry_and (by decide)]

theorem agree (h : Mirrors s t) : BackendsAgree s t := by
  have hlookup : ∀ a, (relmEptGetMapping s a).ret = relmNptGetMapping t a := by
    intro a
    have hl := h.leaves a
    rw [getMapping_toEpt, (EptState.getMapping_spec h.ept.shape (h.ept.noHuge a)).2.2,
      (EptState.getMapping_spec h.npt.shape (h.npt.noHuge a)).2.2]
    cases hs : s.pte a with
    | none =>
      cases ht : t.toEpt.pte a with
      | none => rfl
      | some n => rw [hs, ht] at hl; exact hl.elim
    | some e =>
      cases ht : t.toEpt.pte a with
      | none => rw [hs, ht] at hl; exact hl.elim
      | some n =>
        rw [hs, ht] at hl
        obtain ⟨hpa, ept, npt, hframe, hf, rfl, rfl⟩ := hl
        simp only [entryAddr_leafEntry hpa ept hframe hf.eptAddr, entryAddr_leafEntry hpa npt hframe hf.nptAddr]
  have haccess : ∀ a, eptMayWrite s a = nptMayWrite t a ∧ eptMayExec s a = nptMayExec t a := by
    intro a
    have hl := h.leaves a
    simp only [eptMayWrite, eptMayExec, nptMayWrite, nptMayExec, hwTranslate_eq h.ept.shape a, h.ept.noHuge a,
      hwTranslate_pte ⟨h.npt.shape, h.links⟩ (h.npt.noHuge a)]
    cases hs : s.pte a with
    | none =>
      cases ht : t.toEpt.pte a with
      | none => exact ⟨rfl, rfl⟩
      | some n => rw [hs, ht] at hl; exact hl.elim
    | some e =>
      cases ht : t.toEpt.pte a with
      | none => rw [hs, ht] at hl; exact hl.elim
      | some n =>
        rw [hs, ht] at hl
        obtain ⟨hpa, ept, npt, hframe, hf, rfl, rfl⟩ := hl
        simp only [Option.map_some, Option.bind_some, grant hf.user, Option.any_some, BitVec.and_assoc]
        rw [show eptRwx &&& eptAccessWrite = eptAccessWrite by decide, show eptRwx &&& eptAccessExec = eptAccessExec by decide,
          leafEntry_and (by decide), leafEntry_and (by decide)]
        exact ⟨hf.write, hf.exec⟩
  exact ⟨hlookup, fun a => (haccess a).1, fun a => (haccess a).2⟩

end Mirrors

section Step

variable {s : EptState} {t : NptState} {c : MemCall}

/-- Every call keeps the contexts plain and the links executable, and forgets no failed allocation. -/
theorem Paired.step (h : Paired s t) (hc : c.Admissible) :
    Paired (vmxMemOps.exec s c).2 (svmMemOps.exec t c).2 ∧
    (s.host.oom = true → (vmxMemOps.exec s c).2.host.oom = true) ∧
    (t.host.oom = true → (svmMemOps.exec t c).2.host.oom = true) := by
  cases c with
  | mapPage gpa hpa flags =>
    have hf := flags_mirror hc.2.2
    have hnext := (mapPage_toEpt t gpa hpa hf.user).2
    obtain ⟨hs, hos, -⟩ := h.ept.mapPage hf.present gpa hpa
    obtain ⟨ht, hot, -⟩ := h.npt.mapPage (present_of_presentUser hf.user) gpa hpa
    have hlinks := EptState.mapPage_without nxLink_zero nxLink_tableEntry present_of_nxLink gpa hpa (svmNptFlags flags)
      h.npt.shape (h.npt.noHuge gpa) h.links
    rw [← hnext] at ht hot hlinks
    exact ⟨⟨hs, ht, hlinks⟩, hos, hot⟩
  | unmapPage gpa =>
    have hnext := (unmapPage_toEpt t gpa).2
    obtain ⟨hs, hos, -⟩ := h.ept.unmapPage gpa
    obtain ⟨ht, hot, -⟩ := h.npt.unmapPage gpa
    have hlinks := EptState.unmapPage_without gpa h.npt.shape (h.npt.noHuge gpa) h.links
    rw [← hnext] at ht hot hlinks
    exact ⟨⟨hs, ht, hlinks⟩, hos, hot⟩

/-- Where no allocation failed, both backends give one answer and the leaves mirror each other again. -/
theorem Mirrors.step (h : Mirrors s t) (hc : c.Admissible) (hs : (vmxMemOps.exec s c).2.host.oom = false)
    (ht : (svmMemOps.exec t c).2.host.oom = false) :
    (vmxMemOps.exec s c).1 = (svmMemOps.exec t c).1 ∧ Mirrors (vmxMemOps.exec s c).2 (svmMemOps.exec t c).2 := by
  have hp := (h.toPaired.step hc).1
  cases c with
  | mapPage gpa hpa flags =>
    have hf := flags_mirror hc.2.2
    obtain ⟨hret, hnext⟩ := mapPage_toEpt t gpa hpa hf.user
    have ht' : (relmEptMapPage t.toEpt gpa hpa (svmNptFlags flags)).next.host.oom = false := by
      rw [← hnext]
      exact ht
    have es := (h.ept.mapPage hf.present gpa hpa).2.2 hs
    have et := (h.npt.mapPage (present_of_presentUser hf.user) gpa hpa).2.2 ht'
    rw [← hret, ← hnext] at et
    by_cases ha : Plain.accepted gpa hpa = true
    · rw [if_pos ha] at es et
      refine ⟨es.1.trans et.1.symm, hp, fun a => ?_⟩
      have hpte : LeavesMirror (s.withPte gpa (some (leafEntry hpa (Vm.vmxEptFlags flags))) a)
          (t.toEpt.withPte gpa (some (leafEntry hpa (svmNptFlags flags))) a) := by
        unfold EptState.withPte
        by_cases hpage : pageOf a = pageOf gpa
        · rw [if_pos hpage, if_pos hpage]
          rw [Plain.accepted, Bool.and_eq_true] at ha
          exact ⟨hpa, _, _, ⟨(is4kbAligned_iff hpa).mp ha.2, hc.2.1⟩, hf, rfl, rfl⟩
        · rw [if_neg hpage, if_neg hpage]
          exact h.leaves a
      rw [← es.2, ← et.2] at hpte
      exact hpte
    · rw [if_neg ha] at es et
      refine ⟨es.1.trans et.1.symm, hp, fun a => ?_⟩
      have hl := h.leaves a
      rw [← es.2, ← et.2] at hl
      exact hl
  | unmapPage gpa =>
    refine ⟨rfl, hp, fun a => ?_⟩
    have es := (h.ept.unmapPage gpa).2.2
    have et := (h.npt.unmapPage gpa).2.2
    rw [← (unmapPage_toEpt t gpa).2] at et
    have hsome : (t.toEpt.pte gpa).isSome = (s.pte gpa).isSome := (h.leaves gpa).isSome
    rw [hsome] at et
    have hpte : LeavesMirror ((relmEptUnmapPage s gpa).next.pte a) ((relmNptUnmapPage t gpa).2.toEpt.pte a) := by
      rw [es, et]
      cases (s.pte gpa).isSome with
      | false => exact h.leaves a
      | true =>
        simp only [if_true, EptState.withPte]
        by_cases hpage : pageOf a = pageOf gpa
        · rw [if_pos hpage, if_pos hpage]
          trivial
        · rw [if_neg hpage, if_neg hpage]
          exact h.leaves a
    exact hpte

end Step

section Runs

variable {s : EptState} {t : NptState} {calls : List MemCall}

private theorem paired_run (h : Paired s t) (hc : ∀ c ∈ calls, c.Admissible) :
    Paired (run vmxMemOps.exec s calls).2 (run svmMemOps.exec t calls).2 ∧
    (s.host.oom = true → (run vmxMemOps.exec s calls).2.host.oom = true) ∧
    (t.host.oom = true → (run svmMemOps.exec t calls).2.host.oom = true) := by
  induction calls generalizing s t with
  | nil => exact ⟨h, id, id⟩
  | cons c calls ih =>
    obtain ⟨hp, hos, hot⟩ := h.step (hc c List.mem_cons_self)
    obtain ⟨hp', hos', hot'⟩ := ih hp fun c' hc' => hc c' (List.mem_cons_of_mem _ hc')
    exact ⟨hp', fun ho => hos' (hos ho), fun ho => hot' (hot ho)⟩

private theorem clear_before {before after : Bool} (h : before = true → after = true) (ha : after = false) :
    before = false := by
  cases before with
  | false => rfl
  | true => exact absurd (h rfl) (by rw [ha]; decide)

/-- A run that ends without a failed allocation met none on the way, so every step mirrors. -/
theorem mirrors_run (h : Mirrors s t) (hc : ∀ c ∈ calls, c.Admissible)
    (hs : (run vmxMemOps.exec s calls).2.host.oom = false) (ht : (run svmMemOps.exec t calls).2.host.oom = false) :
    (run vmxMemOps.exec s calls).1 = (run svmMemOps.exec t calls).1 ∧
      Mirrors (run vmxMemOps.exec s calls).2 (run svmMemOps.exec t calls).2 := by
  induction calls generalizing s t with
  | nil => exact ⟨rfl, h⟩
  | cons c calls ih =>
    have hrest : ∀ c' ∈ calls, c'.Admissible := fun c' hc' => hc c' (List.mem_cons_of_mem _ hc')
    obtain ⟨hp, -, -⟩ := h.toPaired.step (hc c List.mem_cons_self)
    obtain ⟨-, hos, hot⟩ := paired_run hp hrest
    -- The flag is sticky: clear at the end, it was clear after this call.
    have hs1 : (vmxMemOps.exec s c).2.host.oom = false := clear_before hos hs
    have ht1 : (svmMemOps.exec t c).2.host.oom = false := clear_before hot ht
    obtain ⟨hret, hm⟩ := h.step (hc c List.mem_cons_self) hs1 ht1
    obtain ⟨htrace, hend⟩ := ih hm hrest hs ht
    refine ⟨?_, hend⟩
    rw [run, run]
    simp only [hret, htrace]

/-- From new contexts, whatever the two allocators hand out: the backends accept and reject the same calls, and after
every call they translate alike and grant the same accesses. -/
theorem backends_agree {h h' k k' : Host} {ept : EptContext} {npt : NptContext} (calls : List MemCall)
    (hept : relmEptContextCreate h = (.ok ept, h')) (hnpt : relmNptContextCreate k = (.ok npt, k'))
    (hc : ∀ c ∈ calls, c.Admissible)
    (hs : (run vmxMemOps.exec ⟨h', ept⟩ calls).2.host.oom = false)
    (ht : (run svmMemOps.exec ⟨k', npt⟩ calls).2.host.oom = false) :
    (run vmxMemOps.exec ⟨h', ept⟩ calls).1 = (run svmMemOps.exec ⟨k', npt⟩ calls).1 ∧
      ∀ n, BackendsAgree (run vmxMemOps.exec ⟨h', ept⟩ (calls.take n)).2 (run svmMemOps.exec ⟨k', npt⟩ (calls.take n)).2 := by
  have he := (EptState.contextCreate_spec hept).1
  obtain ⟨hn, hsound⟩ := nptContextCreate_spec hnpt
  have hm : Mirrors ⟨h', ept⟩ ⟨k', npt⟩ := by
    refine ⟨⟨⟨he.shape, he.pde⟩, ⟨hn.shape, hn.pde⟩, hsound.links⟩, fun a => ?_⟩
    rw [he.pte a, hn.pte a]
    trivial
  refine ⟨(mirrors_run hm hc hs ht).1, fun n => ?_⟩
  have htake : ∀ c ∈ calls.take n, c.Admissible := fun c hx => hc c (List.mem_of_mem_take hx)
  obtain ⟨-, hos, hot⟩ := paired_run (paired_run hm.toPaired htake).1 fun c hx => hc c (List.mem_of_mem_drop (i := n) hx)
  rw [← List.take_append_drop n calls, run_append] at hs ht
  exact (mirrors_run hm htake (clear_before hos hs) (clear_before hot ht)).2.agree

private def opsHost : Host := Host.idle [some 0x1000#64, some 0x2000#64, some 0x3000#64, some 0x4000#64] [true]
private def opsEpt : EptContext := ⟨0, 0x1000#64, 0x1000#64, constructEptp 0x1000#64 6#64 false, 6#64, false, {}, [0x1000#64]⟩
private def opsNpt : NptContext := ⟨0, 0x1000#64, 0x1000#64, {}, [0x1000#64]⟩

/-- Map a page, take its write access away by an overwrite, try an unaligned address, unmap. -/
private def opsCalls : List MemCall :=
  [.mapPage 0x5000#64 0x9000#64 (Vm.relmMemFRead ||| Vm.relmMemFWrite), .mapPage 0x5000#64 0x9000#64 Vm.relmMemFRead,
   .mapPage 0x5008#64 0x9000#64 Vm.relmMemFRead, .unmapPage 0x5000#64]

theorem backends_agree_overwrite :
    (run vmxMemOps.exec ⟨opsHost.slabTake.take 0x1000#64, opsEpt⟩ opsCalls).1.map Prod.snd =
        [.ok (), .ok (), .error .einval, .ok ()] ∧
      ∀ n, BackendsAgree (run vmxMemOps.exec ⟨opsHost.slabTake.take 0x1000#64, opsEpt⟩ (opsCalls.take n)).2
        (run svmMemOps.exec ⟨opsHost.slabTake.take 0x1000#64, opsNpt⟩ (opsCalls.take n)).2 :=
  ⟨rfl, (backends_agree (h := opsHost) (k := opsHost) opsCalls rfl rfl (by decide) rfl rfl).2⟩

end Runs

end Relm.Svm
