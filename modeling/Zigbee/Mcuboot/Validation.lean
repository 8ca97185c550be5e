import Mathlib.Data.List.Induction
import Zigbee.Lib.Checked
import Zigbee.Mcuboot.PowerFail

/-!
# Validation of an image, request by request

`validate` of `mcuboot-image/src/image.rs` over a flash driver whose requests are logged and may fail,
with its 32-bit additions and its loops.

* `OnFlash.validate` — the program.
* `OnFlash.validate_agrees` — it stays inside the slot, does not trap, and answers as `validate` does on
  the contents of the flash, unless a request fails.
* `Trusted` — what an accepted image is: its TLVs in a row, the last SHA-256 TLV over the bytes before
  them, and a signature that a key hash governs.
* `validate_sound_and_total` — both together.
-/

namespace Zigbee.Mcuboot

open Bytes NorFlash Checked Checked.Prog

/-- A read of the driver. -/
structure ReadRequest where
  address : Nat
  len : Nat
  deriving DecidableEq

/-- A `ReadNorFlash` driver, with its addresses in 32 bits. -/
structure NorReader where
  capacity : Nat
  contents : Flash
  /-- Whether the driver refuses the request that follows these. -/
  fails : List ReadRequest → Bool
  addressable : capacity < 2 ^ 32

inductive ValidateError where
  | flash
  | refused (e : ImageError)
  deriving DecidableEq

/-- The range is inside the slot. -/
def InSlot (slot maxLen : Nat) (r : ReadRequest) : Prop := slot ≤ r.address ∧ r.address + r.len ≤ slot + maxLen

abbrev FlashProg := Prog ReadRequest ValidateError

variable {offset : Nat}

theorem readArray_ok {f : Flash} {slot len limit : Nat} {bytes : Buf} (h : readArray f slot offset len limit = .ok bytes) :
    offset + len ≤ limit ∧ bytes = NorFlash.read f (slot + offset) len := by
  unfold readArray at h
  split at h
  · cases h
  · cases h
    exact ⟨Nat.not_lt.mp ‹_›, rfl⟩

namespace OnFlash

def malformed {α : Type} : FlashProg α := fail (.refused .malformed)

/-- `READ_CHUNK` -/
def READ_CHUNK : Nat := 128

section

variable (C : Crypto) (D : NorReader) (slot : Nat)

def read (address len : Nat) : FlashProg Buf :=
  request ⟨address, len⟩ fun log =>
    if D.capacity < address + len ∨ D.fails log = true then .error .flash else .ok (NorFlash.read D.contents address len)

def readArray (offset len limit : Nat) : FlashProg Buf :=
  if 2 ^ 32 ≤ offset + len ∨ limit < offset + len then malformed
  else do
    let address ← add (2 ^ 32) slot offset
    read D address len

/-- One pass of `hash_range`: the offset, and the bytes that the hasher has. -/
def hashChunk (len : Nat) (st : Nat × Buf) : FlashProg (Nat × Buf) := do
  let rest ← sub len st.1
  let address ← add (2 ^ 32) slot st.1
  let bytes ← read D address (min READ_CHUNK rest)
  let offset ← add (2 ^ 32) st.1 (min READ_CHUNK rest)
  pure (offset, st.2 ++ bytes)

def hashRange (len : Nat) : FlashProg Buf := do
  let st ← whileLoop (fun st => decide (st.1 < len)) (hashChunk D slot len) (len + 1) (0, [])
  pure (C.sha256 st.2)

/-- The `match kind` of the TLV loop. -/
def readTlv (key : TrustedKey) (digest : Buf) (stop : Nat) (kind : UInt16) (len valueAt : Nat) (st : Tlvs) :
    FlashProg Tlvs :=
  if kind = TLV_SHA256 then
    if len ≠ 32 then malformed
    else do
      let value ← readArray D slot valueAt 32 stop
      pure { st with hashOk := decide (value = digest) }
  else if kind = TLV_KEYHASH then
    if len ≠ 32 then pure { st with keySelected := false }
    else do
      let value ← readArray D slot valueAt 32 stop
      pure { st with keySelected := decide (value = key.keyHash C) }
  else if kind = TLV_ECDSA_SIG ∧ st.keySelected = true ∧ st.signatureOk = false then
    if len ≤ MAX_DER_LEN then do
      let address ← add (2 ^ 32) slot valueAt
      let der ← read D address len
      pure { st with keySelected := false, signatureOk := C.verify key.xy.toList digest der }
    else pure { st with keySelected := false }
  else pure st

/-- One pass of the TLV loop. -/
def tlvEntry (key : TrustedKey) (digest : Buf) (stop : Nat) (s : Nat × Tlvs) : FlashProg (Nat × Tlvs) := do
  let entry ← readArray D slot s.1 4 stop
  let valueAt ← add (2 ^ 32) s.1 4
  if 2 ^ 32 ≤ valueAt + (u16At entry 2).toNat ∨ stop < valueAt + (u16At entry 2).toNat then malformed
  else do
    let st ← readTlv C D slot key digest stop (u16At entry 0) (u16At entry 2).toNat valueAt s.2
    pure (valueAt + (u16At entry 2).toNat, st)

def protectedOk (header : ImageHeader) (maxLen : Nat) : FlashProg Unit :=
  if header.protectTlvSize = 0 then pure ()
  else do
    let start ← sub header.hashedLen header.protectTlvSize.toNat
    let info ← readArray D slot start 4 maxLen
    if u16At info 0 ≠ TLV_PROTECTED_INFO_MAGIC ∨ u16At info 2 ≠ header.protectTlvSize then malformed else pure ()

def imageEnd (header : ImageHeader) (maxLen : Nat) : FlashProg Nat :=
  if header.flags ≠ 0 then fail (.refused .unsupported)
  else if header.hdrSize.toNat < IMAGE_HEADER_LEN then malformed
  else if 2 ^ 32 ≤ header.hashedLen then malformed
  else do
    let tlvInfo ← readArray D slot header.hashedLen 4 maxLen
    if u16At tlvInfo 0 ≠ TLV_INFO_MAGIC then malformed
    else if 2 ^ 32 ≤ header.hashedLen + (u16At tlvInfo 2).toNat ∨ maxLen < header.hashedLen + (u16At tlvInfo 2).toNat ∨
        (u16At tlvInfo 2).toNat < 4 then malformed
    else pure (header.hashedLen + (u16At tlvInfo 2).toNat)

def validate (maxLen : Nat) (key : TrustedKey) : FlashProg ValidImage := do
  let bytes ← read D slot IMAGE_HEADER_LEN
  match ImageHeader.parse bytes with
  | none => fail (.refused .noImage)
  | some header => do
    let stop ← imageEnd D slot header maxLen
    protectedOk D slot header maxLen
    let digest ← hashRange C D slot header.hashedLen
    let offset ← add (2 ^ 32) header.hashedLen 4
    let s ← whileLoop (fun s => decide (s.1 < stop)) (tlvEntry C D slot key digest stop) (stop + 1)
      (offset, ⟨false, false, false⟩)
    if s.2.hashOk = false then fail (.refused .hashMismatch)
    else if s.2.signatureOk = false then fail (.refused .badSignature)
    else pure ⟨header, stop, digest⟩

end

/-! ## The program and the model without requests -/

section

variable {C : Crypto} {D : NorReader} {slot maxLen : Nat}

/-- The outcome is that of `x`, or a request failed. -/
def Agrees {α : Type} (D : NorReader) (x : Except ImageError α) : Outcome ValidateError α → Prop
  | .ok a => x = .ok a
  | .error .flash => ∃ log, D.fails log = true
  | .error (.refused e) => x = .error e
  | .trap => False

theorem agrees_bind {α β : Type} {m : FlashProg α} {k : α → FlashProg β} {R : ReadRequest → Prop} {x : Except ImageError α}
    {y : Except ImageError β} (hm : wp m R (Agrees D x)) (herror : ∀ e, x = .error e → y = .error e)
    (hok : ∀ a, x = .ok a → wp (k a) R (Agrees D y)) : wp (m >>= k) R (Agrees D y) := by
  refine wp_bind (wp_mono hm fun out hout => ?_)
  cases out with
  | ok a => exact hok a hout
  | error e =>
    cases e with
    | flash => exact hout
    | refused e => exact herror e hout
  | trap => exact hout

variable (hslot : slot + maxLen ≤ D.capacity)
include hslot

theorem read_agrees {len : Nat} (h : offset + len ≤ maxLen) :
    wp (read D (slot + offset) len) (InSlot slot maxLen) (Agrees D (.ok (NorFlash.read D.contents (slot + offset) len))) := by
  refine wp_request ⟨Nat.le_add_right _ _, ?_⟩ (fun log a ha => ?_) (fun log e he => ?_)
  · show slot + offset + len ≤ slot + maxLen
    omega
  · split at ha
    · cases ha
    · cases ha
      rfl
  · split at he
    · rename_i hfail
      cases he
      exact ⟨log, hfail.resolve_left (by omega)⟩
    · cases he

theorem readArray_agrees {len limit : Nat} (hlimit : limit ≤ maxLen) :
    wp (readArray D slot offset len limit) (InSlot slot maxLen)
      (Agrees D (Mcuboot.readArray D.contents slot offset len limit)) := by
  have haddr := D.addressable
  unfold readArray Mcuboot.readArray
  by_cases hout : limit < offset + len
  · rw [if_pos (Or.inr hout), if_pos hout]
    exact wp_fail rfl
  · rw [if_neg (by omega), if_neg hout]
    exact wp_add (by omega) (read_agrees hslot (by omega))

theorem hashRange_agrees {len : Nat} (hlen : len ≤ maxLen) :
    wp (hashRange C D slot len) (InSlot slot maxLen) (Agrees D (.ok (C.sha256 (NorFlash.read D.contents slot len)))) := by
  have haddr := D.addressable
  unfold hashRange
  -- What the hasher has is what stands before the offset.
  let I : Nat × Buf → Prop := fun st => st.1 ≤ len ∧ st.2 = NorFlash.read D.contents slot st.1
  let Q : Outcome ValidateError (Nat × Buf) → Prop := fun
    | .ok st => st.2 = NorFlash.read D.contents slot len
    | .error .flash => ∃ log, D.fails log = true
    | .error (.refused _) => False
    | .trap => False
  refine wp_bind (wp_mono (Q := Q) (wp_whileLoop I (fun st => len - st.1) ?_ ?_ ?_ ?_) fun out hout => ?_)
  · rintro ⟨offset, bytes⟩ ⟨hle, hbytes⟩ hcond
    have hlt : offset < len := of_decide_eq_true hcond
    have hpos : 0 < min READ_CHUNK (len - offset) := by
      unfold READ_CHUNK
      omega
    refine wp_sub (Nat.le_of_lt hlt) ?_
    refine wp_add (by omega) ?_
    refine wp_bind (wp_mono (read_agrees hslot (show offset + min READ_CHUNK (len - offset) ≤ maxLen by omega))
      fun out hout => ?_)
    cases out with
    | ok chunk =>
      cases hout
      rw [andThen_ok]
      refine wp_add (by omega) (wp_pure ⟨⟨?_, ?_⟩, ?_⟩)
      · show offset + min READ_CHUNK (len - offset) ≤ len
        omega
      · dsimp only at hbytes ⊢
        rw [hbytes, ← read_append]
      · show len - (offset + min READ_CHUNK (len - offset)) < len - offset
        omega
    | error e =>
      cases e with
      | flash => exact hout
      | refused e => cases hout
    | trap => exact hout
  · rintro ⟨offset, bytes⟩ ⟨hle, hbytes⟩ hcond
    have hge : ¬ offset < len := of_decide_eq_false hcond
    have heq : offset = len := Nat.le_antisymm hle (Nat.not_lt.mp hge)
    exact heq ▸ hbytes
  · exact ⟨Nat.zero_le _, rfl⟩
  · show len - 0 < len + 1
    omega
  · cases out with
    | ok st => exact wp_pure (show _ = Except.ok _ by rw [show st.2 = _ from hout])
    | error e =>
      cases e with
      | flash => exact hout
      | refused e => exact hout.elim
    | trap => exact hout

theorem readTlv_agrees {key : TrustedKey} {digest : Buf} {stop : Nat} (hstop : stop ≤ maxLen) (kind : UInt16)
    {len valueAt : Nat} (hvalue : valueAt + len ≤ stop) (st : Tlvs) :
    wp (readTlv C D slot key digest stop kind len valueAt st) (InSlot slot maxLen)
      (Agrees D (Mcuboot.readTlv C D.contents slot key digest stop kind len valueAt st)) := by
  have haddr := D.addressable
  unfold readTlv Mcuboot.readTlv
  by_cases hsha : kind = TLV_SHA256
  · rw [if_pos hsha, if_pos hsha]
    by_cases hlen : len ≠ 32
    · rw [if_pos hlen, if_pos hlen]
      exact wp_fail rfl
    · rw [if_neg hlen, if_neg hlen]
      exact agrees_bind (readArray_agrees hslot hstop) (fun e he => by rw [he]; rfl) fun a ha => wp_pure (by rw [ha]; rfl)
  · rw [if_neg hsha, if_neg hsha]
    by_cases hkey : kind = TLV_KEYHASH
    · rw [if_pos hkey, if_pos hkey]
      by_cases hlen : len ≠ 32
      · rw [if_pos hlen, if_pos hlen]
        exact wp_pure rfl
      · rw [if_neg hlen, if_neg hlen]
        exact agrees_bind (readArray_agrees hslot hstop) (fun e he => by rw [he]; rfl) fun a ha => wp_pure (by rw [ha]; rfl)
    · rw [if_neg hkey, if_neg hkey]
      by_cases hsig : kind = TLV_ECDSA_SIG ∧ st.keySelected = true ∧ st.signatureOk = false
      · rw [if_pos hsig, if_pos hsig]
        by_cases hder : len ≤ MAX_DER_LEN
        · rw [if_pos hder]
          refine wp_add (by omega) ?_
          refine agrees_bind (read_agrees hslot (show valueAt + len ≤ maxLen by omega)) nofun fun a ha => wp_pure ?_
          cases ha
          simp [Agrees, hder]
        · rw [if_neg hder]
          refine wp_pure ?_
          simp [Agrees, hder, hsig.2.2]
      · rw [if_neg hsig, if_neg hsig]
        exact wp_pure rfl

/-- The loop of the program follows that of the model, which has passes left for the rest of the area. -/
theorem tlvLoop_agrees {key : TrustedKey} {digest : Buf} {stop start : Nat} (hstop : stop ≤ maxLen) (hstart : start ≤ stop)
    (st : Tlvs) :
    wp (whileLoop (fun s => decide (s.1 < stop)) (tlvEntry C D slot key digest stop) (stop + 1) (start, st))
      (InSlot slot maxLen) fun
        | .ok s => readTlvs C D.contents slot key digest stop stop start st = .ok s.2
        | .error .flash => ∃ log, D.fails log = true
        | .error (.refused e) => readTlvs C D.contents slot key digest stop stop start st = .error e
        | .trap => False := by
  have haddr := D.addressable
  let I : Nat × Tlvs → Prop := fun s => s.1 ≤ stop ∧ ∃ fuel, stop ≤ s.1 + fuel ∧
    readTlvs C D.contents slot key digest stop stop start st = readTlvs C D.contents slot key digest stop fuel s.1 s.2
  refine wp_whileLoop I (fun s => stop - s.1) ?_ ?_ ⟨hstart, stop, Nat.le_add_left _ _, rfl⟩ (by dsimp only; omega)
  · rintro ⟨offset, st'⟩ ⟨hle, fuel, hfuel, hrun⟩ hcond
    have hlt : offset < stop := of_decide_eq_true hcond
    dsimp only at hle hfuel hrun
    obtain ⟨fuel, rfl⟩ : ∃ n, fuel = n + 1 := ⟨fuel - 1, by omega⟩
    rw [readTlvs, if_neg (by omega)] at hrun
    refine wp_bind (wp_mono (readArray_agrees hslot hstop) fun out hout => ?_)
    cases out with
    | error e =>
      cases e with
      | flash => exact hout
      | refused e =>
        rw [show Mcuboot.readArray D.contents slot offset 4 stop = .error e from hout] at hrun
        exact hrun
    | trap => exact hout
    | ok entry =>
      obtain ⟨hentry, -⟩ := readArray_ok hout
      rw [show Mcuboot.readArray D.contents slot offset 4 stop = .ok entry from hout] at hrun
      dsimp only at hrun
      rw [andThen_ok]
      refine wp_add (by dsimp only; omega) ?_
      dsimp only
      by_cases hnext : stop < offset + 4 + (u16At entry 2).toNat
      · rw [if_pos hnext] at hrun
        rw [if_pos (Or.inr hnext)]
        exact wp_fail hrun
      · rw [if_neg hnext] at hrun
        rw [if_neg (by omega)]
        refine wp_bind (wp_mono (readTlv_agrees hslot hstop _ (Nat.not_lt.mp hnext) st') fun out hout => ?_)
        cases out with
        | error e =>
          cases e with
          | flash => exact hout
          | refused e =>
            rw [show Mcuboot.readTlv _ _ _ _ _ _ _ _ _ _ = .error e from hout] at hrun
            exact hrun
        | trap => exact hout
        | ok st'' =>
          rw [show Mcuboot.readTlv _ _ _ _ _ _ _ _ _ _ = .ok st'' from hout] at hrun
          rw [andThen_ok]
          refine wp_pure ⟨⟨Nat.not_lt.mp hnext, fuel, ?_, hrun⟩, ?_⟩
          · show stop ≤ offset + 4 + (u16At entry 2).toNat + fuel
            omega
          · show stop - (offset + 4 + (u16At entry 2).toNat) < stop - offset
            omega
  · rintro ⟨offset, st'⟩ ⟨hle, fuel, hfuel, hrun⟩ hcond
    have hge : ¬ offset < stop := of_decide_eq_false hcond
    dsimp only at hrun ⊢
    rw [hrun]
    cases fuel with
    | zero => rfl
    | succ fuel => rw [readTlvs, if_pos (Nat.not_lt.mp hge)]

theorem protectedOk_agrees (header : ImageHeader) :
    wp (protectedOk D slot header maxLen) (InSlot slot maxLen) (Agrees D (Mcuboot.protectedOk D.contents slot header maxLen)) := by
  unfold protectedOk Mcuboot.protectedOk
  by_cases hzero : header.protectTlvSize = 0
  · rw [if_pos hzero, if_pos hzero]
    exact wp_pure rfl
  · rw [if_neg hzero, if_neg hzero]
    refine wp_sub (Nat.le_add_left _ _) ?_
    refine agrees_bind (readArray_agrees hslot (Nat.le_refl _)) (fun e he => by rw [he]) fun info hinfo => ?_
    rw [hinfo]
    dsimp only
    by_cases hbad : u16At info 0 ≠ TLV_PROTECTED_INFO_MAGIC ∨ u16At info 2 ≠ header.protectTlvSize
    · rw [if_pos hbad, if_pos hbad]
      exact wp_fail rfl
    · rw [if_neg hbad, if_neg hbad]
      exact wp_pure rfl

theorem imageEnd_agrees (header : ImageHeader) :
    wp (imageEnd D slot header maxLen) (InSlot slot maxLen) (Agrees D (Mcuboot.imageEnd D.contents slot header maxLen)) := by
  unfold imageEnd Mcuboot.imageEnd
  by_cases hflags : header.flags ≠ 0
  · rw [if_pos hflags, if_pos hflags]
    exact wp_fail rfl
  rw [if_neg hflags, if_neg hflags]
  by_cases hsize : header.hdrSize.toNat < IMAGE_HEADER_LEN
  · rw [if_pos hsize, if_pos hsize]
    exact wp_fail rfl
  rw [if_neg hsize, if_neg hsize]
  by_cases hlen : 2 ^ 32 ≤ header.hashedLen
  · rw [if_pos hlen, if_pos hlen]
    exact wp_fail rfl
  rw [if_neg hlen, if_neg hlen]
  refine agrees_bind (readArray_agrees hslot (Nat.le_refl _)) (fun e he => by rw [he]) fun tlvInfo htlvInfo => ?_
  rw [htlvInfo]
  dsimp only
  by_cases hmagic : u16At tlvInfo 0 ≠ TLV_INFO_MAGIC
  · rw [if_pos hmagic, if_pos hmagic]
    exact wp_fail rfl
  rw [if_neg hmagic, if_neg hmagic]
  by_cases hfits : 2 ^ 32 ≤ header.hashedLen + (u16At tlvInfo 2).toNat ∨ maxLen < header.hashedLen + (u16At tlvInfo 2).toNat ∨
      (u16At tlvInfo 2).toNat < 4
  · rw [if_pos hfits, if_pos hfits]
    exact wp_fail rfl
  · rw [if_neg hfits, if_neg hfits]
    exact wp_pure rfl

/-- **The program stays inside the slot, does not trap, and answers as the model does, unless a request
    fails.** -/
theorem validate_agrees (hlen : IMAGE_HEADER_LEN ≤ maxLen) (key : TrustedKey) :
    wp (validate C D slot maxLen key) (InSlot slot maxLen) (Agrees D (Mcuboot.validate C D.contents slot maxLen key)) := by
  have haddr := D.addressable
  unfold validate
  have hstart : 0 + IMAGE_HEADER_LEN ≤ maxLen := by omega
  have hread := read_agrees hslot hstart
  rw [Nat.add_zero] at hread
  refine agrees_bind hread nofun fun bytes hbytes => ?_
  have hheader : ImageHeader.read D.contents slot = ImageHeader.parse bytes := congrArg ImageHeader.parse (Except.ok.inj hbytes)
  unfold Mcuboot.validate
  rw [hheader]
  cases ImageHeader.parse bytes with
  | none => exact wp_fail rfl
  | some header =>
    dsimp only
    refine agrees_bind (imageEnd_agrees hslot header) (fun e he => by rw [he]) fun stop hstop => ?_
    obtain ⟨-, -, hhashed, hmax⟩ := imageEnd_ok hstop
    rw [hstop]
    dsimp only
    refine agrees_bind (protectedOk_agrees hslot header) (fun e he => by rw [he]) fun _ hprotected => ?_
    rw [hprotected]
    dsimp only
    refine agrees_bind (hashRange_agrees hslot (show header.hashedLen ≤ maxLen by omega)) nofun fun digest hdigest => ?_
    cases hdigest
    refine wp_add (by omega) ?_
    refine wp_bind (wp_mono (tlvLoop_agrees hslot hmax hhashed ⟨false, false, false⟩) fun out hout => ?_)
    cases out with
    | error e =>
      cases e with
      | flash => exact hout
      | refused e =>
        show _ = _
        rw [show readTlvs C D.contents slot key _ stop stop (header.hashedLen + 4) _ = .error e from hout]
    | trap => exact hout
    | ok s =>
      rw [show readTlvs C D.contents slot key _ stop stop (header.hashedLen + 4) _ = .ok s.2 from hout, andThen_ok]
      dsimp only
      by_cases hhash : s.2.hashOk = false
      · rw [if_pos hhash, if_pos hhash]
        exact wp_fail rfl
      rw [if_neg hhash, if_neg hhash]
      by_cases hsig : s.2.signatureOk = false
      · rw [if_pos hsig, if_pos hsig]
        exact wp_fail rfl
      · rw [if_neg hsig, if_neg hsig]
        exact wp_pure rfl

end

end OnFlash

/-! ## What is accepted -/

structure Tlv where
  kind : UInt16
  value : Buf
  deriving DecidableEq

/-- The TLV at an offset of the slot, as its header describes it. -/
def tlvAt (f : Flash) (slot offset : Nat) : Tlv :=
  ⟨u16At (NorFlash.read f (slot + offset) 4) 0,
    NorFlash.read f (slot + (offset + 4)) (u16At (NorFlash.read f (slot + offset) 4) 2).toNat⟩

/-- TLVs in a row that fill the area from an offset to `stop`. -/
inductive TlvsAt (f : Flash) (slot stop : Nat) : Nat → List Tlv → Prop
  | done : TlvsAt f slot stop stop []
  | entry {offset : Nat} {tlvs : List Tlv} (hfits : offset + 4 + (tlvAt f slot offset).value.length ≤ stop)
      (hrest : TlvsAt f slot stop (offset + 4 + (tlvAt f slot offset).value.length) tlvs) :
      TlvsAt f slot stop offset (tlvAt f slot offset :: tlvs)

/-- The value of the last TLV of a kind. -/
def lastOf (kind : UInt16) (tlvs : List Tlv) : Option Buf := (tlvs.filter (·.kind == kind)).getLast?.map (·.value)

/-- A key hash, and behind it only TLVs that are neither a key hash nor a signature. -/
def Selects (hash : Buf) (tlvs : List Tlv) : Prop :=
  ∃ before between, tlvs = before ++ ⟨TLV_KEYHASH, hash⟩ :: between ∧
    ∀ t ∈ between, t.kind ≠ TLV_KEYHASH ∧ t.kind ≠ TLV_ECDSA_SIG

/-- A signature over the digest that verifies, directly governed by the hash of the key. -/
def Signed (C : Crypto) (key : TrustedKey) (digest : Buf) (tlvs : List Tlv) : Prop :=
  ∃ before der behind, tlvs = before ++ ⟨TLV_ECDSA_SIG, der⟩ :: behind ∧ Selects (key.keyHash C) before ∧
    der.length ≤ MAX_DER_LEN ∧ C.verify key.xy.toList digest der = true

theorem imageEnd_stop {f : Flash} {slot maxLen stop : Nat} {header : ImageHeader} (h : imageEnd f slot header maxLen = .ok stop) :
    stop = header.hashedLen + (u16At (NorFlash.read f (slot + header.hashedLen) 4) 2).toNat := by
  unfold imageEnd at h
  split at h
  · cases h
  split at h
  · cases h
  split at h
  · cases h
  cases hread : readArray f slot header.hashedLen 4 maxLen with
  | error e =>
    rw [hread] at h
    cases h
  | ok tlvInfo =>
    rw [hread] at h
    obtain ⟨-, rfl⟩ := readArray_ok hread
    dsimp only at h
    split at h
    · cases h
    split at h
    · cases h
    · cases h
      rfl

/-- An image in a slot that the owner of the key has signed. -/
structure Trusted (C : Crypto) (f : Flash) (slot maxLen : Nat) (key : TrustedKey) (image : ValidImage) : Prop where
  magic : u32At (NorFlash.read f slot IMAGE_HEADER_LEN) 0 = IMAGE_MAGIC
  header : ImageHeader.parse (NorFlash.read f slot IMAGE_HEADER_LEN) = some image.header
  flags : image.header.flags = 0
  stop : image.stop = image.header.hashedLen + (u16At (NorFlash.read f (slot + image.header.hashedLen) 4) 2).toNat
  fits : image.stop ≤ maxLen
  digest : image.digest = C.sha256 (NorFlash.read f slot image.header.hashedLen)
  tlvs : ∃ tlvs, TlvsAt f slot image.stop (image.header.hashedLen + 4) tlvs ∧
    lastOf TLV_SHA256 tlvs = some image.digest ∧ Signed C key image.digest tlvs

/-- What a TLV does to the flags of the loop. -/
def tlvStep (C : Crypto) (key : TrustedKey) (digest : Buf) (st : Tlvs) (t : Tlv) : Tlvs :=
  if t.kind = TLV_SHA256 then { st with hashOk := decide (t.value = digest) }
  else if t.kind = TLV_KEYHASH then { st with keySelected := decide (t.value = key.keyHash C) && decide (t.value.length = 32) }
  else if t.kind = TLV_ECDSA_SIG ∧ st.keySelected = true ∧ st.signatureOk = false then
    { st with
      keySelected := false
      signatureOk := decide (t.value.length ≤ MAX_DER_LEN) && C.verify key.xy.toList digest t.value }
  else st

section

variable {C : Crypto} {f : Flash} {slot maxLen stop : Nat} {key : TrustedKey} {digest : Buf} {image : ValidImage}

theorem readTlv_ok {st st' : Tlvs} (h : readTlv C f slot key digest stop (u16At (NorFlash.read f (slot + offset) 4) 0)
      (u16At (NorFlash.read f (slot + offset) 4) 2).toNat (offset + 4) st = .ok st') :
    st' = tlvStep C key digest st (tlvAt f slot offset) := by
  have hlength : (tlvAt f slot offset).value.length = (u16At (NorFlash.read f (slot + offset) 4) 2).toNat := read_length _ _ _
  have hvalue : ∀ {n : Nat}, (u16At (NorFlash.read f (slot + offset) 4) 2).toNat = n →
      NorFlash.read f (slot + (offset + 4)) n = (tlvAt f slot offset).value := by
    rintro n rfl
    rfl
  unfold readTlv at h
  unfold tlvStep
  rw [hlength, show (tlvAt f slot offset).kind = u16At (NorFlash.read f (slot + offset) 4) 0 from rfl]
  split
  · rename_i hsha
    rw [if_pos hsha] at h
    split at h
    · cases h
    · rename_i hlen
      cases hread : readArray f slot (offset + 4) 32 stop with
      | error e =>
        rw [hread] at h
        cases h
      | ok value =>
        rw [hread] at h
        rw [(readArray_ok hread).2, hvalue (not_not.mp hlen)] at h
        cases h
        rfl
  · rename_i hsha
    rw [if_neg hsha] at h
    split
    · rename_i hkey
      rw [if_pos hkey] at h
      split at h
      · rename_i hlen
        cases h
        simp [hlen]
      · rename_i hlen
        cases hread : readArray f slot (offset + 4) 32 stop with
        | error e =>
          rw [hread] at h
          cases h
        | ok value =>
          rw [hread] at h
          rw [(readArray_ok hread).2, hvalue (not_not.mp hlen)] at h
          cases h
          simp [not_not.mp hlen]
    · rename_i hkey
      rw [if_neg hkey] at h
      split
      · rename_i hsig
        rw [if_pos hsig] at h
        cases h
        rfl
      · rename_i hsig
        rw [if_neg hsig] at h
        cases h
        rfl

/-- The loop ends behind TLVs that fill the area, with the flags that they set. -/
theorem readTlvs_ok {fuel : Nat} {st st' : Tlvs} (hoffset : offset ≤ stop) (hfuel : stop ≤ offset + fuel)
    (h : readTlvs C f slot key digest stop fuel offset st = .ok st') :
    ∃ tlvs, TlvsAt f slot stop offset tlvs ∧ st' = tlvs.foldl (tlvStep C key digest) st := by
  induction fuel generalizing offset st with
  | zero =>
    obtain rfl : offset = stop := by omega
    cases h
    exact ⟨[], .done, rfl⟩
  | succ fuel ih =>
    rw [readTlvs] at h
    split at h
    · obtain rfl : offset = stop := by omega
      cases h
      exact ⟨[], .done, rfl⟩
    · cases hread : readArray f slot offset 4 stop with
      | error e =>
        rw [hread] at h
        cases h
      | ok entry =>
        rw [hread] at h
        obtain ⟨hentry, rfl⟩ := readArray_ok hread
        dsimp only at h
        split at h
        · cases h
        · rename_i hnext
          cases htlv : readTlv C f slot key digest stop (u16At (NorFlash.read f (slot + offset) 4) 0)
              (u16At (NorFlash.read f (slot + offset) 4) 2).toNat (offset + 4) st with
          | error e =>
            rw [htlv] at h
            cases h
          | ok st₁ =>
            rw [htlv] at h
            have hlength : (tlvAt f slot offset).value.length = (u16At (NorFlash.read f (slot + offset) 4) 2).toNat :=
              read_length _ _ _
            obtain ⟨tlvs, htlvs, hfold⟩ := ih (Nat.not_lt.mp hnext) (by omega) h
            rw [← hlength] at htlvs hnext
            refine ⟨_, .entry (Nat.not_lt.mp hnext) htlvs, ?_⟩
            rw [hfold, List.foldl_cons, readTlv_ok htlv]

/-- The hash flag tells of the last SHA-256 TLV. -/
theorem foldl_hashOk {tlvs : List Tlv} (h : (tlvs.foldl (tlvStep C key digest) ⟨false, false, false⟩).hashOk = true) :
    lastOf TLV_SHA256 tlvs = some digest := by
  induction tlvs using List.reverseRecOn with
  | nil => cases h
  | append_singleton tlvs t ih =>
    rw [List.foldl_append, List.foldl_cons, List.foldl_nil] at h
    rw [lastOf, List.filter_append]
    by_cases hsha : t.kind = TLV_SHA256
    · rw [tlvStep, if_pos hsha] at h
      simp only [decide_eq_true_eq] at h
      simp [hsha, h]
    · rw [List.filter_cons_of_neg (by simpa using hsha), List.filter_nil, List.append_nil]
      refine ih ?_
      rw [tlvStep, if_neg hsha] at h
      split at h
      · exact h
      · split at h <;> exact h

/-- While no signature has verified, a selected key has its hash behind the last signature; once one has,
    it is governed by such a hash. -/
theorem foldl_signatureOk (tlvs : List Tlv) :
    ((tlvs.foldl (tlvStep C key digest) ⟨false, false, false⟩).signatureOk = false →
      (tlvs.foldl (tlvStep C key digest) ⟨false, false, false⟩).keySelected = true → Selects (key.keyHash C) tlvs) ∧
    ((tlvs.foldl (tlvStep C key digest) ⟨false, false, false⟩).signatureOk = true → Signed C key digest tlvs) := by
  have hmore : ∀ {tlvs : List Tlv} (t : Tlv), Signed C key digest tlvs → Signed C key digest (tlvs ++ [t]) := by
    rintro _ t ⟨before, der, behind, rfl, hrest⟩
    exact ⟨before, der, behind ++ [t], by simp, hrest⟩
  have hpass : ∀ {tlvs : List Tlv} {t : Tlv}, t.kind ≠ TLV_KEYHASH → t.kind ≠ TLV_ECDSA_SIG → Selects (key.keyHash C) tlvs →
      Selects (key.keyHash C) (tlvs ++ [t]) := by
    rintro _ t hkey hsig ⟨before, between, rfl, hbetween⟩
    refine ⟨before, between ++ [t], by simp, fun t' ht' => ?_⟩
    rcases List.mem_append.mp ht' with ht' | ht'
    · exact hbetween t' ht'
    · exact List.mem_singleton.mp ht' ▸ ⟨hkey, hsig⟩
  induction tlvs using List.reverseRecOn with
  | nil => exact ⟨nofun, nofun⟩
  | append_singleton tlvs t ih =>
    obtain ⟨hselected, hsigned⟩ := ih
    rw [List.foldl_append, List.foldl_cons, List.foldl_nil]
    generalize tlvs.foldl (tlvStep C key digest) ⟨false, false, false⟩ = st at hselected hsigned ⊢
    unfold tlvStep
    split
    · rename_i hsha
      have hkind : t.kind ≠ TLV_KEYHASH ∧ t.kind ≠ TLV_ECDSA_SIG := by
        rw [hsha]
        decide
      exact ⟨fun hno hkey => hpass hkind.1 hkind.2 (hselected hno hkey), fun hok => hmore t (hsigned hok)⟩
    · split
      · rename_i hkey
        refine ⟨fun _ hmatch => ⟨tlvs, [], ?_, nofun⟩, fun hok => hmore t (hsigned hok)⟩
        simp only [Bool.and_eq_true, decide_eq_true_eq] at hmatch
        rw [← hkey, ← hmatch.1]
      · rename_i hkey
        split
        · rename_i hsig
          refine ⟨fun _ hno => (by cases hno), fun hok => ?_⟩
          simp only [Bool.and_eq_true, decide_eq_true_eq] at hok
          refine ⟨tlvs, t.value, [], ?_, hselected hsig.2.2 hsig.2.1, hok.1, hok.2⟩
          rw [← hsig.1]
        · rename_i hsig
          refine ⟨fun hno hkeySelected => ?_, fun hok => hmore t (hsigned hok)⟩
          exact hpass hkey (fun hkind => hsig ⟨hkind, hkeySelected, hno⟩) (hselected hno hkeySelected)

/-- **What the model accepts is signed by the key.** -/
theorem ValidAt.trusted (h : ValidAt C f slot maxLen key image) : Trusted C f slot maxLen key image := by
  obtain ⟨hflags, -, hhashed, hmax⟩ := imageEnd_ok h.stop
  obtain ⟨st, hread, hhash, hsig⟩ := h.tlvs
  obtain ⟨tlvs, htlvs, rfl⟩ := readTlvs_ok hhashed (Nat.le_add_left _ _) hread
  have hheader : ImageHeader.parse (NorFlash.read f slot IMAGE_HEADER_LEN) = some image.header := h.header
  refine ⟨?_, hheader, hflags, ?_, hmax, h.digest, tlvs, htlvs, foldl_hashOk hhash, (foldl_signatureOk tlvs).2 hsig⟩
  · unfold ImageHeader.parse at hheader
    split at hheader
    · cases hheader
    · exact not_not.mp ‹_›
  · exact imageEnd_stop h.stop

end

/-- **Validation is sound and total.**  For every slot inside a flash of any contents, whose requests may
    fail at will, `validate` reads nothing outside the slot, ends without an overflow, and accepts only an
    image that the key has signed. -/
theorem validate_sound_and_total (C : Crypto) (D : NorReader) {slot maxLen : Nat} (key : TrustedKey)
    (hlen : IMAGE_HEADER_LEN ≤ maxLen) (hslot : slot + maxLen ≤ D.capacity) :
    (∀ r ∈ (OnFlash.validate C D slot maxLen key []).2, InSlot slot maxLen r) ∧
      (OnFlash.validate C D slot maxLen key []).1 ≠ .trap ∧
      ∀ image, (OnFlash.validate C D slot maxLen key []).1 = .ok image → Trusted C D.contents slot maxLen key image := by
  obtain ⟨hreads, hout⟩ := OnFlash.validate_agrees (C := C) hslot hlen key [] nofun
  refine ⟨hreads, fun htrap => ?_, fun image hok => ?_⟩
  · rw [htrap] at hout
    exact hout
  · rw [hok] at hout
    exact (validate_iff.mp hout).trusted

/-- A flash with a signed image, whose requests do not fail. -/
def signedReader : NorReader := ⟨1024, requestedFlash, fun _ => false, by decide⟩

/-- The signed image is accepted, and it is signed. -/
theorem signedImage_trusted :
    (OnFlash.validate signedCrypto signedReader 512 256 vendorKey []).1 = .ok signedImage ∧
      Trusted signedCrypto requestedFlash 512 256 vendorKey signedImage := by
  have hlen : IMAGE_HEADER_LEN ≤ 256 := by decide
  have hslot : 512 + 256 ≤ signedReader.capacity := by decide
  have h := validate_sound_and_total signedCrypto signedReader vendorKey hlen hslot
  have hok : (OnFlash.validate signedCrypto signedReader 512 256 vendorKey []).1 = .ok signedImage := by decide +kernel
  exact ⟨hok, h.2.2 signedImage hok⟩

end Zigbee.Mcuboot
