import Relm.Lib.Bitmap
import Relm.Lib.Word
import Relm.Vmx.MsrAreas

/-! The MSR bitmap: the bits the module sets, and the bits the processor looks up when a guest accesses an MSR. -/
namespace Relm.Vmx
open Relm.Lib.Bitmap Relm.Lib.Word

/-- `enum relm_msr_access`. -/
def relmMsrRead : U32 := 1#32 <<< 0
def relmMsrWrite : U32 := 1#32 <<< 1

/-- Where the bits of a range of MSRs start; the other MSRs have none. -/
def msrBitmapOffset (msr : MsrIndex) : Option U32 :=
  if msr ≤ 0x1FFF#32 then some 0
  else if 0xC0000000#32 ≤ msr ∧ msr ≤ 0xC0001FFF#32 then some 0x400#32
  else none

/-- There is no result if a byte past the end of the bitmap would be written. -/
def relmMsrBitmapSet (bitmap : List Byte) (msr : MsrIndex) (access : U32) : Option (List Byte) :=
  match msrBitmapOffset msr with
  | none => some bitmap
  | some offset =>
    let byte := offset + (msr &&& 0x1FFF#32) / 8
    let bit := (msr &&& 0x1FFF#32) % 8
    (if access &&& relmMsrRead != 0 then orByte bitmap byte.toNat (1#8 <<< bit.toNat) else some bitmap).bind fun bitmap =>
      if access &&& relmMsrWrite != 0 then orByte bitmap (byte + 0x800#32).toNat (1#8 <<< bit.toNat) else some bitmap

def relmInterceptSysenterCs (bitmap : List Byte) : Option (List Byte) := relmMsrBitmapSet bitmap ia32SysenterCs relmMsrRead

def relmInterceptApicBase (bitmap : List Byte) : Option (List Byte) := relmMsrBitmapSet bitmap msrIa32ApicBase relmMsrRead

/-- The calls of `relm_setup_msr_bitmap` on the page it allocates. -/
def relmSetupMsrBitmap (page : List Byte) : Option (List Byte) := (relmInterceptSysenterCs page).bind relmInterceptApicBase

/-- A zeroed page. -/
def clearedBitmap : List Byte := List.replicate 4096 0

/-- The state of the bitmap after a sequence of calls, each with an MSR and an access mask. -/
def setMsrBits (bitmap : List Byte) (calls : List (MsrIndex × U32)) : Option (List Byte) :=
  calls.foldlM (fun bitmap call => relmMsrBitmapSet bitmap call.1 call.2) bitmap

inductive MsrAccess
  | read | write
  deriving DecidableEq, Repr

/-- The access bit that asks for an intercept. -/
def MsrAccess.flag : MsrAccess → U32
  | read => relmMsrRead
  | write => relmMsrWrite

/-- The range of an MSR that the bitmap has bits for: the low one or the high one. -/
def msrRange (msr : MsrIndex) : Option Bool :=
  if msr.toNat ≤ 0x1FFF then some false
  else if 0xC0000000 ≤ msr.toNat ∧ msr.toNat ≤ 0xC0001FFF then some true
  else none

/-- Where the 1 KiB area of an access to a range starts. -/
def msrArea : MsrAccess → (high : Bool) → Nat
  | .read, false => 0x000
  | .read, true => 0x400
  | .write, false => 0x800
  | .write, true => 0xC00

/-- The bit the processor looks at, by the low 13 bits of the MSR. -/
def msrBit (access : MsrAccess) (high : Bool) (msr : MsrIndex) : Nat := 8 * msrArea access high + (msr.setWidth 13).toNat

/-- The processor's lookup. Accesses to an MSR outside the two ranges exit without one. -/
def msrBitmapIntercepts (bitmap : List Byte) (access : MsrAccess) (msr : MsrIndex) : Option Bool :=
  (msrRange msr).map fun high => decide (ByteMember bitmap (msrBit access high msr))

section Lookup

variable {bitmap : List Byte} {msr m : MsrIndex} {access : U32} {kind kind' : MsrAccess} {high high' : Bool}

private theorem low13_lt (msr : MsrIndex) : (msr.setWidth 13).toNat < 0x2000 := (msr.setWidth 13).isLt

/-- An MSR of a range is the start of the range and its low 13 bits. -/
private theorem msrRange_some (h : msrRange msr = some high) :
    msr.toNat = (if high then 0xC0000000 else 0) + (msr.setWidth 13).toNat := by
  rw [BitVec.toNat_setWidth]
  unfold msrRange at h
  split at h
  · obtain rfl := Option.some.inj h
    rw [if_neg Bool.false_ne_true]
    omega
  · split at h
    · obtain rfl := Option.some.inj h
      rw [if_pos rfl]
      omega
    · cases h

/-- No two accesses share a bit. -/
private theorem msrBit_inj (h : msrRange msr = some high) (h' : msrRange m = some high') :
    msrBit kind high msr = msrBit kind' high' m ↔ msr = m ∧ kind = kind' := by
  have hmsr := msrRange_some h
  have hm := msrRange_some h'
  have hlt := low13_lt msr
  have hlt' := low13_lt m
  rw [← BitVec.toNat_inj, hmsr, hm, msrBit, msrBit]
  cases kind <;> cases kind' <;> cases high <;> cases high' <;> simp [msrArea] <;> omega

private theorem low13_toNat (msr : MsrIndex) : (msr &&& 0x1FFF#32).toNat = (msr.setWidth 13).toNat := by
  rw [and_low_toNat _ _ 13 (by decide), BitVec.toNat_setWidth]

/-- The bytes and the bit that the module computes. -/
private theorem readByte_toNat {offset : U32} (ho : offset.toNat = msrArea .read high) (msr : MsrIndex) :
    (offset + (msr &&& 0x1FFF#32) / 8).toNat = msrBit .read high msr / 8 := by
  have hlt := low13_lt msr
  rw [BitVec.toNat_add, BitVec.toNat_udiv, low13_toNat, ho, msrBit, show (8 : U32).toNat = 8 from rfl]
  cases high <;> simp only [msrArea] <;> omega

private theorem writeByte_toNat {offset : U32} (ho : offset.toNat = msrArea .read high) (msr : MsrIndex) :
    (offset + (msr &&& 0x1FFF#32) / 8 + 0x800#32).toNat = msrBit .write high msr / 8 := by
  have hlt := low13_lt msr
  rw [BitVec.toNat_add, readByte_toNat ho, msrBit, msrBit, show (0x800#32).toNat = 0x800 from rfl]
  cases high <;> simp only [msrArea] <;> omega

private theorem bit_toNat (kind : MsrAccess) (high : Bool) (msr : MsrIndex) :
    ((msr &&& 0x1FFF#32) % 8).toNat = msrBit kind high msr % 8 := by
  rw [BitVec.toNat_umod, low13_toNat, msrBit, Nat.mul_add_mod]
  rfl

private theorem msrBit_byte (kind : MsrAccess) (high : Bool) (msr : MsrIndex) : msrBit kind high msr / 8 < 4096 := by
  have hlt := low13_lt msr
  rw [msrBit]
  cases kind <;> cases high <;> simp only [msrArea] <;> omega

/-- Set a bit under a condition. -/
private def setBitIf (c : Bool) (bitmap : List Byte) (n : Nat) : Option (List Byte) :=
  if c then orByte bitmap (n / 8) (1#8 <<< (n % 8)) else some bitmap

private theorem setBitIf_spec (c : Bool) (bitmap : List Byte) {n : Nat} (h : n / 8 < bitmap.length) :
    ∃ out, setBitIf c bitmap n = some out ∧ out.length = bitmap.length ∧
      ∀ u, ByteMember out u ↔ (c = true ∧ u = n) ∨ ByteMember bitmap u := by
  cases c with
  | false =>
    refine ⟨bitmap, rfl, rfl, fun u => ?_⟩
    rw [or_iff_right]
    exact fun hc => Bool.false_ne_true hc.1
  | true =>
    obtain ⟨out, hout, hlen, hmem⟩ := byteMember_insert h
    refine ⟨out, hout, hlen, fun u => ?_⟩
    rw [hmem u, eq_self_iff_true, true_and]

private theorem offset_eq (msr : MsrIndex) :
    msrBitmapOffset msr = (msrRange msr).map fun high => if high then 0x400#32 else 0#32 := by
  rw [msrBitmapOffset, msrRange]
  simp only [BitVec.le_def, show (0x1FFF#32).toNat = 0x1FFF from rfl, show (0xC0000000#32).toNat = 0xC0000000 from rfl,
    show (0xC0001FFF#32).toNat = 0xC0001FFF from rfl]
  split
  · rfl
  · split
    · rfl
    · rfl

/-- A call on an MSR of a range sets the bits of the accesses asked for. -/
private theorem set_ranged (h : msrRange msr = some high) (bitmap : List Byte) (access : U32) :
    relmMsrBitmapSet bitmap msr access = (setBitIf (access &&& relmMsrRead != 0) bitmap (msrBit .read high msr)).bind
      fun bitmap => setBitIf (access &&& relmMsrWrite != 0) bitmap (msrBit .write high msr) := by
  have ho : (if high then 0x400#32 else 0#32).toNat = msrArea .read high := by
    cases high <;> rfl
  rw [relmMsrBitmapSet, offset_eq, h, Option.map_some]
  dsimp only
  rw [readByte_toNat ho, writeByte_toNat ho]
  refine congrArg₂ Option.bind ?_ (funext fun out => ?_)
  · rw [bit_toNat .read high, setBitIf]
  · rw [bit_toNat .write high, setBitIf]

private theorem set_unranged (h : msrRange msr = none) (bitmap : List Byte) (access : U32) :
    relmMsrBitmapSet bitmap msr access = some bitmap := by
  rw [relmMsrBitmapSet, offset_eq, h]
  rfl

private theorem intercepts_iff (h : msrRange m = some high) :
    msrBitmapIntercepts bitmap kind m = some true ↔ ByteMember bitmap (msrBit kind high m) := by
  rw [msrBitmapIntercepts, h, Option.map_some, Option.some_inj, decide_eq_true_eq]

private theorem not_intercepts (h : msrRange m = none) : msrBitmapIntercepts bitmap kind m ≠ some true := by
  rw [msrBitmapIntercepts, h]
  exact fun hc => by cases hc

/-- The bitmap has bits for the MSR. -/
def InMsrRanges (msr : MsrIndex) : Prop := msr.toNat ≤ 0x1FFF ∨ (0xC0000000 ≤ msr.toNat ∧ msr.toNat ≤ 0xC0001FFF)

private theorem inMsrRanges_iff (msr : MsrIndex) : InMsrRanges msr ↔ msrRange msr ≠ none := by
  rw [InMsrRanges, msrRange]
  split
  · rename_i h
    exact iff_of_true (.inl h) (by simp)
  · rename_i h
    split
    · rename_i h'
      exact iff_of_true (.inr h') (by simp)
    · rename_i h'
      exact iff_of_false (not_or.mpr ⟨h, h'⟩) (by simp)

/-- A call asks for an intercept of an access. -/
def Requests (call : MsrIndex × U32) (kind : MsrAccess) (m : MsrIndex) : Prop :=
  call.1 = m ∧ InMsrRanges m ∧ call.2 &&& kind.flag ≠ 0

private theorem flag_iff (access : U32) (kind : MsrAccess) (p : Prop) :
    (access &&& relmMsrWrite ≠ 0 ∧ p ∧ kind = .write) ∨ (access &&& relmMsrRead ≠ 0 ∧ p ∧ kind = .read) ↔
      p ∧ access &&& kind.flag ≠ 0 := by
  cases kind <;> simp [MsrAccess.flag, and_comm]

/-- What one call adds to the accesses that are intercepted. -/
private theorem set_spec (hlen : bitmap.length = 4096) (msr : MsrIndex) (access : U32) :
    ∃ out, relmMsrBitmapSet bitmap msr access = some out ∧ out.length = 4096 ∧ ∀ kind m,
      msrBitmapIntercepts out kind m = some true ↔
        Requests (msr, access) kind m ∨ msrBitmapIntercepts bitmap kind m = some true := by
  cases h : msrRange msr with
  | none =>
    refine ⟨bitmap, set_unranged h bitmap access, hlen, fun kind m => ?_⟩
    rw [or_iff_right]
    rintro ⟨rfl, hin, -⟩
    exact (inMsrRanges_iff _).mp hin h
  | some high =>
    obtain ⟨mid, hmid, hmidlen, hmidmem⟩ := setBitIf_spec (access &&& relmMsrRead != 0) bitmap
      (hlen ▸ msrBit_byte .read high msr)
    obtain ⟨out, hout, houtlen, houtmem⟩ := setBitIf_spec (access &&& relmMsrWrite != 0) mid
      (hmidlen.trans hlen ▸ msrBit_byte .write high msr)
    refine ⟨out, ?_, houtlen.trans (hmidlen.trans hlen), fun kind m => ?_⟩
    · rw [set_ranged h, hmid, Option.bind_some, hout]
    · cases hm : msrRange m with
      | none =>
        refine iff_of_false (not_intercepts hm) ?_
        rintro (⟨-, hin, -⟩ | hc)
        · exact (inMsrRanges_iff m).mp hin hm
        · exact not_intercepts hm hc
      | some high' =>
        have hin : InMsrRanges m := (inMsrRanges_iff m).mpr (by rw [hm]; simp)
        rw [intercepts_iff hm, intercepts_iff hm, houtmem, hmidmem, msrBit_inj hm h, msrBit_inj hm h, Requests, bne_iff_ne,
          bne_iff_ne, ← or_assoc, flag_iff, eq_comm (a := m)]
        exact or_congr_left (and_congr_right fun _ => (and_iff_right hin).symm)

/-- What a sequence of calls adds to the accesses that are intercepted. -/
private theorem setMsrBits_spec (hlen : bitmap.length = 4096) (calls : List (MsrIndex × U32)) :
    ∃ out, setMsrBits bitmap calls = some out ∧ out.length = 4096 ∧ ∀ kind m,
      msrBitmapIntercepts out kind m = some true ↔
        (∃ call ∈ calls, Requests call kind m) ∨ msrBitmapIntercepts bitmap kind m = some true := by
  induction calls generalizing bitmap with
  | nil =>
    refine ⟨bitmap, rfl, hlen, fun kind m => ?_⟩
    rw [or_iff_right]
    rintro ⟨call, hcall, -⟩
    cases hcall
  | cons call calls ih =>
    obtain ⟨mid, hmid, hmidlen, hmidspec⟩ := set_spec hlen call.1 call.2
    obtain ⟨out, hout, houtlen, houtspec⟩ := ih hmidlen
    refine ⟨out, ?_, houtlen, fun kind m => ?_⟩
    · rw [setMsrBits, List.foldlM_cons, hmid]
      exact hout
    · rw [houtspec, hmidspec, ← or_assoc]
      apply or_congr_left
      rw [List.exists_mem_cons_iff, or_comm]

private theorem cleared_intercepts (kind : MsrAccess) (m : MsrIndex) :
    msrBitmapIntercepts clearedBitmap kind m ≠ some true := by
  cases hm : msrRange m with
  | none => exact not_intercepts hm
  | some high =>
    rw [ne_eq, intercepts_iff hm]
    exact byteMember_replicate 4096 _

private theorem clearedBitmap_length : clearedBitmap.length = 4096 := List.length_replicate

end Lookup

/-- The bitmap set up for a VCPU intercepts the reads of two MSRs and nothing else. -/
theorem setup_intercepts : ∃ bitmap, relmSetupMsrBitmap clearedBitmap = some bitmap ∧ ∀ kind m,
    msrBitmapIntercepts bitmap kind m = some true ↔ kind = .read ∧ (m = ia32SysenterCs ∨ m = msrIa32ApicBase) := by
  obtain ⟨bitmap, hset, -, hspec⟩ := setMsrBits_spec clearedBitmap_length
    [(ia32SysenterCs, relmMsrRead), (msrIa32ApicBase, relmMsrRead)]
  refine ⟨bitmap, ?_, fun kind m => ?_⟩
  · rw [← hset, relmSetupMsrBitmap, setMsrBits, List.foldlM_cons]
    exact congrArg (Option.bind _) (funext fun b => (List.foldlM_cons.trans (bind_pure _)).symm)
  · have hcall : ∀ msr, InMsrRanges msr → (Requests (msr, relmMsrRead) kind m ↔ kind = .read ∧ m = msr) := by
      intro msr hin
      constructor
      · rintro ⟨rfl, -, hflag⟩
        cases kind with
        | read => exact ⟨rfl, rfl⟩
        | write =>
          have hclear : relmMsrRead &&& MsrAccess.write.flag = 0 := by decide
          exact absurd hclear hflag
      · rintro ⟨rfl, rfl⟩
        have hset : relmMsrRead &&& MsrAccess.read.flag ≠ 0 := by decide
        exact ⟨rfl, hin, hset⟩
    rw [hspec, or_iff_left (cleared_intercepts kind m)]
    simp only [List.exists_mem_cons_iff, List.not_mem_nil, false_and, exists_false, or_false,
      hcall _ (.inl (by decide : ia32SysenterCs.toNat ≤ 0x1FFF)),
      hcall _ (.inl (by decide : msrIa32ApicBase.toNat ≤ 0x1FFF)), and_or_left]

/-- After any calls on a cleared bitmap the processor intercepts the accesses that some call asked for; no call writes
past the bitmap, and a call on an MSR without bits changes nothing. -/
theorem msr_bitmap_matches_lookup (calls : List (MsrIndex × U32)) :
    (∃ bitmap, setMsrBits clearedBitmap calls = some bitmap ∧ bitmap.length = 4096 ∧ ∀ kind m,
      msrBitmapIntercepts bitmap kind m = some true ↔ ∃ call ∈ calls, Requests call kind m) ∧
      ∀ bitmap msr access, ¬ InMsrRanges msr → relmMsrBitmapSet bitmap msr access = some bitmap := by
  constructor
  · obtain ⟨bitmap, hset, hlen, hspec⟩ := setMsrBits_spec clearedBitmap_length calls
    refine ⟨bitmap, hset, hlen, fun kind m => ?_⟩
    rw [hspec, or_iff_left (cleared_intercepts kind m)]
  · intro bitmap msr access hout
    rw [inMsrRanges_iff, not_not] at hout
    exact set_unranged hout bitmap access

end Relm.Vmx
