import Zigbee.Lib.NorFlash

/-!
# MCUboot images

Model of `mcuboot-image/src/image.rs`: the image header, and the validation of an image in a flash slot
(geometry, TLV areas, SHA-256, signature by a trusted key).

* `ImageHeader.parse`, `cmpRelease` — header and release order.
* `validate` — the checks in the order of the source, with `readTlvs` for its loop.
* `ValidAt`, `validate_iff` — what an accepted slot holds.
* `validate_congr` — validation looks only at the image it accepts, so that a copy of it is accepted too.
-/

namespace Zigbee.Mcuboot

open Bytes NorFlash

def IMAGE_MAGIC : UInt32 := 0x96F3B83D
def IMAGE_HEADER_LEN : Nat := 32
def TLV_INFO_MAGIC : UInt16 := 0x6907
def TLV_PROTECTED_INFO_MAGIC : UInt16 := 0x6908
def TLV_KEYHASH : UInt16 := 0x01
def TLV_SHA256 : UInt16 := 0x10
def TLV_ECDSA_SIG : UInt16 := 0x22
/-- `der.len()` -/
def MAX_DER_LEN : Nat := 72

def P256_SPKI_PREFIX : Buf :=
  [0x30, 0x59, 0x30, 0x13, 0x06, 0x07, 0x2A, 0x86, 0x48, 0xCE, 0x3D, 0x02, 0x01, 0x06, 0x08, 0x2A,
    0x86, 0x48, 0xCE, 0x3D, 0x03, 0x01, 0x07, 0x03, 0x42, 0x00, 0x04]

/-- Reads of the flash do not fail here. -/
inductive ImageError where
  | noImage
  | malformed
  | unsupported
  | hashMismatch
  | badSignature
  deriving DecidableEq, Repr

structure ImageVersion where
  major : UInt8
  minor : UInt8
  revision : UInt16
  build : UInt32
  deriving DecidableEq, Repr

variable {v : ImageVersion}

namespace ImageVersion

/-- Major, minor and revision. -/
def cmpRelease (self other : ImageVersion) : Ordering :=
  (compare self.major.toNat other.major.toNat).then
    ((compare self.minor.toNat other.minor.toNat).then (compare self.revision.toNat other.revision.toNat))

/-- The release that no other exceeds, which an erased header shows. -/
def IsLast (v : ImageVersion) : Prop := v.major = 0xFF ∧ v.minor = 0xFF ∧ v.revision = 0xFFFF

instance (v : ImageVersion) : Decidable v.IsLast := by unfold IsLast; infer_instance

/-- The release as a number. -/
def releaseNumber (v : ImageVersion) : Nat := (v.major.toNat * 256 + v.minor.toNat) * 65536 + v.revision.toNat

theorem cmpRelease_lt {w : ImageVersion} : v.cmpRelease w = .lt ↔ v.releaseNumber < w.releaseNumber := by
  have h1 := v.minor.toNat_lt
  have h2 := w.minor.toNat_lt
  have h3 := v.revision.toNat_lt
  have h4 := w.revision.toNat_lt
  unfold cmpRelease releaseNumber
  simp only [Ordering.then_eq_lt, Nat.compare_eq_lt, Nat.compare_eq_eq]
  omega

theorem releaseNumber_le (v : ImageVersion) : v.releaseNumber ≤ 0xFFFFFFFF := by
  have h1 := v.major.toNat_lt
  have h2 := v.minor.toNat_lt
  have h3 := v.revision.toNat_lt
  unfold releaseNumber
  omega

theorem isLast_iff : v.IsLast ↔ v.releaseNumber = 0xFFFFFFFF := by
  have h1 := v.major.toNat_lt
  have h2 := v.minor.toNat_lt
  have h3 := v.revision.toNat_lt
  unfold IsLast releaseNumber
  rw [← UInt8.toNat_inj, ← UInt8.toNat_inj, ← UInt16.toNat_inj]
  show v.major.toNat = 255 ∧ v.minor.toNat = 255 ∧ v.revision.toNat = 65535 ↔ _
  omega

theorem IsLast.not_lt (h : v.IsLast) (w : ImageVersion) : v.cmpRelease w ≠ .lt := by
  rw [ne_eq, cmpRelease_lt, isLast_iff.mp h]
  exact Nat.not_lt.mpr w.releaseNumber_le

/-- Every other release is lower than the last. -/
theorem lt_of_isLast {w : ImageVersion} (hv : ¬ v.IsLast) (hw : w.IsLast) : v.cmpRelease w = .lt := by
  rw [cmpRelease_lt, isLast_iff.mp hw]
  exact Nat.lt_of_le_of_ne v.releaseNumber_le fun h => hv (isLast_iff.mpr h)

end ImageVersion

structure ImageHeader where
  loadAddr : UInt32
  hdrSize : UInt16
  protectTlvSize : UInt16
  imgSize : UInt32
  flags : UInt32
  version : ImageVersion
  deriving DecidableEq, Repr

namespace ImageHeader

def parse (bytes : Buf) : Option ImageHeader :=
  if u32At bytes 0 ≠ IMAGE_MAGIC then none
  else
    some {
      loadAddr := u32At bytes 4
      hdrSize := u16At bytes 8
      protectTlvSize := u16At bytes 10
      imgSize := u32At bytes 12
      flags := u32At bytes 16
      version := ⟨u8At bytes 20, u8At bytes 21, u16At bytes 22, u32At bytes 24⟩ }

def read (f : Flash) (slot : Nat) : Option ImageHeader := parse (NorFlash.read f slot IMAGE_HEADER_LEN)

/-- `hashed_len`: header, firmware and protected TLVs. -/
def hashedLen (h : ImageHeader) : Nat := h.hdrSize.toNat + h.imgSize.toNat + h.protectTlvSize.toNat

end ImageHeader

/-- SHA-256, and `p256.rs`: `verify` reads a key and a DER signature and checks it over a digest. -/
structure Crypto where
  sha256 : Buf → Buf
  verify : Buf → Buf → Buf → Bool

/-- `x || y` of the key that images are signed with. -/
structure TrustedKey where
  xy : Vector UInt8 64
  deriving DecidableEq

def TrustedKey.keyHash (C : Crypto) (key : TrustedKey) : Buf := C.sha256 (P256_SPKI_PREFIX ++ key.xy.toList)

structure ValidImage where
  header : ImageHeader
  stop : Nat
  digest : Buf
  deriving DecidableEq

/-! ## Validation -/

section

variable (C : Crypto) (f : Flash) (slot : Nat)

def readArray (offset len limit : Nat) : Except ImageError Buf :=
  if limit < offset + len then .error .malformed else .ok (read f (slot + offset) len)

/-- What the TLV loop has found so far. -/
structure Tlvs where
  hashOk : Bool
  keySelected : Bool
  signatureOk : Bool
  deriving DecidableEq

/-- One TLV of the unprotected area. -/
def readTlv (key : TrustedKey) (digest : Buf) (stop : Nat) (kind : UInt16) (len valueAt : Nat) (st : Tlvs) :
    Except ImageError Tlvs :=
  if kind = TLV_SHA256 then
    if len ≠ 32 then .error .malformed
    else (readArray f slot valueAt 32 stop).map fun value => { st with hashOk := decide (value = digest) }
  else if kind = TLV_KEYHASH then
    if len ≠ 32 then .ok { st with keySelected := false }
    else (readArray f slot valueAt 32 stop).map fun value => { st with keySelected := decide (value = key.keyHash C) }
  else if kind = TLV_ECDSA_SIG ∧ st.keySelected = true ∧ st.signatureOk = false then
    .ok { st with
      keySelected := false
      signatureOk := decide (len ≤ MAX_DER_LEN) && C.verify key.xy.toList digest (read f (slot + valueAt) len) }
  else .ok st

/-- The loop over the unprotected area. -/
def readTlvs (key : TrustedKey) (digest : Buf) (stop : Nat) : Nat → Nat → Tlvs → Except ImageError Tlvs
  | 0, _, st => .ok st
  | fuel + 1, offset, st =>
    if stop ≤ offset then .ok st
    else
      match readArray f slot offset 4 stop with
      | .error e => .error e
      | .ok entry =>
        let len := (u16At entry 2).toNat
        let valueAt := offset + 4
        if stop < valueAt + len then .error .malformed
        else
          match readTlv C f slot key digest stop (u16At entry 0) len valueAt st with
          | .error e => .error e
          | .ok st => readTlvs key digest stop fuel (valueAt + len) st

/-- The check of the protected area's own header. -/
def protectedOk (header : ImageHeader) (maxLen : Nat) : Except ImageError Unit :=
  if header.protectTlvSize = 0 then .ok ()
  else
    match readArray f slot (header.hashedLen - header.protectTlvSize.toNat) 4 maxLen with
    | .error e => .error e
    | .ok info =>
      if u16At info 0 ≠ TLV_PROTECTED_INFO_MAGIC ∨ u16At info 2 ≠ header.protectTlvSize then .error .malformed else .ok ()

/-- `end`, from the header of the unprotected area. -/
def imageEnd (header : ImageHeader) (maxLen : Nat) : Except ImageError Nat :=
  if header.flags ≠ 0 then .error .unsupported
  else if header.hdrSize.toNat < IMAGE_HEADER_LEN then .error .malformed
  else if 2 ^ 32 ≤ header.hashedLen then .error .malformed
  else
    match readArray f slot header.hashedLen 4 maxLen with
    | .error e => .error e
    | .ok tlvInfo =>
      let tlvTotal := (u16At tlvInfo 2).toNat
      if u16At tlvInfo 0 ≠ TLV_INFO_MAGIC then .error .malformed
      else if 2 ^ 32 ≤ header.hashedLen + tlvTotal ∨ maxLen < header.hashedLen + tlvTotal ∨ tlvTotal < 4 then .error .malformed
      else .ok (header.hashedLen + tlvTotal)

def validate (maxLen : Nat) (key : TrustedKey) : Except ImageError ValidImage :=
  match ImageHeader.read f slot with
  | none => .error .noImage
  | some header =>
    match imageEnd f slot header maxLen with
    | .error e => .error e
    | .ok stop =>
      match protectedOk f slot header maxLen with
      | .error e => .error e
      | .ok () =>
        let digest := C.sha256 (read f slot header.hashedLen)
        match readTlvs C f slot key digest stop stop (header.hashedLen + 4) ⟨false, false, false⟩ with
        | .error e => .error e
        | .ok st =>
          if st.hashOk = false then .error .hashMismatch
          else if st.signatureOk = false then .error .badSignature
          else .ok ⟨header, stop, digest⟩

/-- What a slot holds that `validate` accepts. -/
structure ValidAt (maxLen : Nat) (key : TrustedKey) (image : ValidImage) : Prop where
  header : ImageHeader.read f slot = some image.header
  stop : imageEnd f slot image.header maxLen = .ok image.stop
  protectedArea : protectedOk f slot image.header maxLen = .ok ()
  digest : image.digest = C.sha256 (read f slot image.header.hashedLen)
  tlvs : ∃ st, readTlvs C f slot key image.digest image.stop image.stop (image.header.hashedLen + 4) ⟨false, false, false⟩ =
    .ok st ∧ st.hashOk = true ∧ st.signatureOk = true

end

section

variable {C : Crypto} {f f' : Flash} {slot slot' maxLen stop : Nat} {key : TrustedKey} {image : ValidImage}

/-- **What is accepted**. -/
theorem validate_iff : validate C f slot maxLen key = .ok image ↔ ValidAt C f slot maxLen key image := by
  constructor
  · intro h
    unfold validate at h
    cases hheader : ImageHeader.read f slot with
    | none =>
      rw [hheader] at h
      cases h
    | some header =>
      rw [hheader] at h
      simp only at h
      cases hstop : imageEnd f slot header maxLen with
      | error e =>
        rw [hstop] at h
        cases h
      | ok stop =>
        rw [hstop] at h
        simp only at h
        cases hprot : protectedOk f slot header maxLen with
        | error e =>
          rw [hprot] at h
          cases h
        | ok u =>
          rw [hprot] at h
          simp only at h
          cases htlvs : readTlvs C f slot key (C.sha256 (read f slot header.hashedLen)) stop stop
              (header.hashedLen + 4) ⟨false, false, false⟩ with
          | error e =>
            rw [htlvs] at h
            cases h
          | ok st =>
            rw [htlvs] at h
            simp only at h
            split at h
            · cases h
            · rename_i hhash
              split at h
              · cases h
              · rename_i hsig
                cases h
                exact ⟨hheader, hstop, hprot, rfl, st, htlvs, by simpa using hhash, by simpa using hsig⟩
  · intro h
    obtain ⟨st, htlvs, hhash, hsig⟩ := h.tlvs
    rw [h.digest] at htlvs
    unfold validate
    rw [h.header]
    simp only [h.stop, h.protectedArea, htlvs, hhash, hsig, Bool.true_eq_false, if_false]
    rw [← h.digest]

/-- The end of an image, and what its headers cover. -/
theorem imageEnd_ok {header : ImageHeader} (h : imageEnd f slot header maxLen = .ok stop) :
    header.flags = 0 ∧ IMAGE_HEADER_LEN ≤ header.hdrSize.toNat ∧ header.hashedLen + 4 ≤ stop ∧ stop ≤ maxLen := by
  unfold imageEnd at h
  split at h
  · cases h
  · rename_i hflags
    split at h
    · cases h
    · rename_i hsize
      split at h
      · cases h
      · cases hread : readArray f slot header.hashedLen 4 maxLen with
        | error e =>
          rw [hread] at h
          cases h
        | ok tlvInfo =>
          rw [hread] at h
          simp only at h
          split at h
          · cases h
          · split at h
            · cases h
            · rename_i hfits
              cases h
              exact ⟨not_not.mp hflags, by omega, by omega, by omega⟩

theorem ValidAt.bounds (h : ValidAt C f slot maxLen key image) :
    IMAGE_HEADER_LEN ≤ image.header.hashedLen ∧ image.header.hashedLen + 4 ≤ image.stop ∧ image.stop ≤ maxLen := by
  obtain ⟨-, hsize, hhashed, hmax⟩ := imageEnd_ok h.stop
  refine ⟨?_, hhashed, hmax⟩
  unfold ImageHeader.hashedLen
  omega

/-! ## Copies -/

variable (hsame : ∀ i, i < stop → f' (slot' + i) = f (slot + i))
include hsame

theorem read_same {offset len : Nat} (h : offset + len ≤ stop) :
    read f' (slot' + offset) len = read f (slot + offset) len := by
  apply read_shift
  intro i hi
  rw [Nat.add_assoc, Nat.add_assoc]
  exact hsame _ (by omega)

theorem readArray_same {offset len limit : Nat} (h : limit ≤ stop ∨ offset + len ≤ stop) :
    readArray f' slot' offset len limit = readArray f slot offset len limit := by
  unfold readArray
  by_cases hlimit : limit < offset + len
  · rw [if_pos hlimit, if_pos hlimit]
  · rw [if_neg hlimit, if_neg hlimit, read_same hsame (by omega)]

theorem readTlvs_same (digest : Buf) (fuel offset : Nat) (st : Tlvs) :
    readTlvs C f' slot' key digest stop fuel offset st = readTlvs C f slot key digest stop fuel offset st := by
  induction fuel generalizing offset st with
  | zero => rfl
  | succ fuel ih =>
    unfold readTlvs
    rw [readArray_same hsame (Or.inl (Nat.le_refl _))]
    split
    · rfl
    · cases readArray f slot offset 4 stop with
      | error e => rfl
      | ok entry =>
        simp only
        split
        · rfl
        · rename_i hnext
          have htlv : readTlv C f' slot' key digest stop (u16At entry 0) (u16At entry 2).toNat (offset + 4) st =
              readTlv C f slot key digest stop (u16At entry 0) (u16At entry 2).toNat (offset + 4) st := by
            unfold readTlv
            rw [readArray_same hsame (Or.inl (Nat.le_refl _)), read_same hsame (Nat.not_lt.mp hnext)]
          rw [htlv]
          cases readTlv C f slot key digest stop (u16At entry 0) (u16At entry 2).toNat (offset + 4) st with
          | error e => rfl
          | ok st' => exact ih _ _

omit hsame in
/-- **A copy of an accepted image is accepted.** -/
theorem validate_congr (h : validate C f slot maxLen key = .ok image)
    (hsame : ∀ i, i < image.stop → f' (slot' + i) = f (slot + i)) : validate C f' slot' maxLen key = .ok image := by
  have hv := validate_iff.mp h
  obtain ⟨hheader, hhashed, -⟩ := hv.bounds
  have hread : ∀ {len : Nat}, len ≤ image.stop → read f' slot' len = read f slot len := by
    intro len hlen
    have := read_same hsame (show 0 + len ≤ image.stop by omega)
    rwa [Nat.add_zero, Nat.add_zero] at this
  refine validate_iff.mpr ⟨?_, ?_, ?_, ?_, ?_⟩
  · have hparse := hv.header
    unfold ImageHeader.read at hparse ⊢
    rw [hread (by omega)]
    exact hparse
  · have hstop := hv.stop
    unfold imageEnd at hstop ⊢
    rw [readArray_same hsame (Or.inr hhashed)]
    exact hstop
  · have hprot := hv.protectedArea
    unfold protectedOk at hprot ⊢
    by_cases hzero : image.header.protectTlvSize = 0
    · rw [if_pos hzero]
    · have hpos : image.header.protectTlvSize.toNat ≠ 0 := fun heq => hzero (UInt16.toNat_inj.mp heq)
      rw [readArray_same hsame (Or.inr (by omega))]
      exact hprot
  · rw [hv.digest, hread (by omega)]
  · obtain ⟨st, htlvs, hok⟩ := hv.tlvs
    exact ⟨st, (readTlvs_same hsame _ _ _ _).trans htlvs, hok⟩

end

end Zigbee.Mcuboot
