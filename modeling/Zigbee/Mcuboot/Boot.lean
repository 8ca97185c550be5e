import Zigbee.Lib.Crash
import Zigbee.Mcuboot.Image

/-!
# The overwrite-only boot loader

Model of `mcuboot-image/src/boot.rs` and `trailer.rs`.  A boot that finds the request magic in the
secondary slot and accepts the image there copies it over the primary one and then drops the request.
The flash erases unit by unit and programs word by word, and power can fail between any two.

* `boot` — the decision, the copy and the final validation.
* `Copied`, `Requested`, `Recoverable` — what the flash holds wherever a boot stops.
-/

namespace Zigbee.Mcuboot

open Bytes NorFlash Crash Crash.Prog

def BOOT_MAGIC : Buf :=
  [0x77, 0xC2, 0x95, 0xF3, 0x60, 0xD2, 0xEF, 0x7F, 0x35, 0x52, 0x50, 0x0F, 0x2C, 0xB6, 0x79, 0x80]
def BOOT_MAGIC_LEN : Nat := 16
def COPY_CHUNK : Nat := 256

inductive MagicState where
  | good
  | erased
  | other
  deriving DecidableEq, Repr

def MagicState.classify (bytes : Buf) : MagicState :=
  if bytes = BOOT_MAGIC then .good
  else if bytes.all (· == 0xFF) then .erased
  else .other

def magicAddress (slot slotSize : Nat) : Nat := slot + slotSize - BOOT_MAGIC_LEN

def readMagic (f : Flash) (slot slotSize : Nat) : MagicState :=
  .classify (read f (magicAddress slot slotSize) BOOT_MAGIC_LEN)

/-- `ERASE_SIZE` and `WRITE_SIZE` of the flash. -/
structure Device where
  eraseSize : Nat
  writeSize : Nat

structure Layout where
  primary : Nat
  secondary : Nat
  slotSize : Nat
  sectorSize : Nat

/-- `a.div_ceil(b)` -/
def divCeil (a b : Nat) : Nat := (a + b - 1) / b

namespace Layout

variable (L : Layout)

def maxImageLen : Nat := L.slotSize - L.sectorSize

def trailerSector (slot : Nat) : Nat := slot + L.slotSize - L.sectorSize

def roundUp (len : Nat) : Nat := divCeil len L.sectorSize * L.sectorSize

/-- Two disjoint slots of whole sectors on a flash that takes the loader's requests: sectors are whole
    erase units, erase units and copy chunks are whole words. -/
structure Fits (D : Device) : Prop where
  erase_pos : 0 < D.eraseSize
  write_pos : 0 < D.writeSize
  sector_pos : 0 < L.sectorSize
  word_chunk : D.writeSize ∣ COPY_CHUNK
  word_unit : D.writeSize ∣ D.eraseSize
  unit_sector : D.eraseSize ∣ L.sectorSize
  sector_slot : L.sectorSize ∣ L.slotSize
  primary_aligned : L.sectorSize ∣ L.primary
  secondary_aligned : L.sectorSize ∣ L.secondary
  disjoint : L.primary + L.slotSize ≤ L.secondary ∨ L.secondary + L.slotSize ≤ L.primary
  addresses : L.primary + L.slotSize < 2 ^ 32 ∧ L.secondary + L.slotSize < 2 ^ 32

end Layout

inductive Update where
  | none
  | installed
  | rejected (e : ImageError)
  | downgrade
  deriving DecidableEq, Repr

structure Bootable where
  image : ValidImage
  vectorTable : Nat
  update : Update

inductive BootError where
  | flash
  | copyCorrupt
  | noBootableImage (primary : ImageError) (update : Update)
  deriving DecidableEq, Repr

/-! ## Flash requests -/

/-- The unit erases of a request. -/
def eraseCommands (unit start n : Nat) : List (Flash → Flash) :=
  (List.range n).map fun k f => erase f (start + k * unit) (start + k * unit + unit)

/-- The word programs of a request. -/
def wordCommands (word address : Nat) (data : Buf) : List (Flash → Flash) :=
  (List.range (data.length / word)).map fun k f => program f (address + k * word) (slice data (k * word) (k * word + word))

section

variable (D : Device)

def eraseRange {ε : Type} (e : ε) (start stop : Nat) : Prog Flash Unit ε Unit :=
  commands e (eraseCommands D.eraseSize start ((stop - start) / D.eraseSize))

def writeRange {ε : Type} (e : ε) (address : Nat) (data : Buf) : Prog Flash Unit ε Unit :=
  commands e (wordCommands D.writeSize address data)

/-! ## Booting -/

variable (L : Layout) (C : Crypto) (key : TrustedKey)

def eraseSector (address : Nat) : Prog Flash Unit BootError Unit := eraseRange D .flash address (address + L.sectorSize)

/-- One chunk of the copy; erased bytes are not programmed. -/
def copyChunk (offset len : Nat) : Prog Flash Unit BootError Unit := do
  let f ← getDisk
  let data := read f (L.secondary + offset) len
  if data.any (· != 0xFF) then writeRange D .flash (L.primary + offset) data else pure ()

def copyChunks (total : Nat) : Nat → Nat → Prog Flash Unit BootError Unit
  | 0, _ => pure ()
  | fuel + 1, offset =>
    if total ≤ offset then pure ()
    else do
      copyChunk D L offset (min COPY_CHUNK (total - offset))
      copyChunks total fuel (offset + min COPY_CHUNK (total - offset))

/-- `total`: the image in whole words. -/
def copyLen (image : ValidImage) : Nat := divCeil image.stop D.writeSize * D.writeSize

def install (image : ValidImage) : Prog Flash Unit BootError Unit := do
  eraseRange D .flash L.primary (L.primary + L.roundUp (copyLen D image))
  copyChunks D L (copyLen D image) (copyLen D image) 0
  let f ← getDisk
  match validate C f L.primary L.maxImageLen key with
  | .ok copy => if copy.digest = image.digest then pure () else fail .copyCorrupt
  | .error _ => fail .copyCorrupt

/-- The request, and the header behind it. -/
def dropRequest (update : Update) : Prog Flash Unit BootError Update := do
  eraseSector D L (L.trailerSector L.secondary)
  eraseSector D L L.secondary
  pure update

/-- Is the candidate's release lower than the one in the primary header? -/
def isDowngrade (f : Flash) (candidate : ValidImage) : Bool :=
  (ImageHeader.read f L.primary).any fun primary => candidate.header.version.cmpRelease primary.version == .lt

def processRequest : Prog Flash Unit BootError Update := do
  let f ← getDisk
  if readMagic f L.secondary L.slotSize ≠ .good then pure .none
  else
    match validate C f L.secondary L.maxImageLen key with
    | .error e => dropRequest D L (.rejected e)
    | .ok candidate =>
      if isDowngrade L f candidate = true then dropRequest D L .downgrade
      else do
        install D L C key candidate
        dropRequest D L .installed

def boot : Prog Flash Unit BootError Bootable := do
  let update ← processRequest D L C key
  let f ← getDisk
  match validate C f L.primary L.maxImageLen key with
  | .ok image => pure ⟨image, L.primary + image.header.hdrSize.toNat, update⟩
  | .error e => fail (.noBootableImage e update)

end

/-! ## Headers and magic -/

variable {k start stop b : Nat}

section

variable {f g : Flash} {L : Layout} {a : Nat}

theorem u8At_read {n : Nat} (h : k < n) : u8At (read f a n) k = f (a + k) := by
  unfold u8At
  rw [List.getD_eq_getElem?_getD, List.getElem?_eq_getElem (by simpa using h)]
  simp

/-- The release in a header, whatever else is there. -/
def releaseAt (f : Flash) (a : Nat) : Nat :=
  ((f (a + 20)).toNat * 256 + (f (a + 21)).toNat) * 65536 + ((f (a + 22)).toNat + 256 * (f (a + 23)).toNat)

theorem releaseNumber_of_read {h : ImageHeader} (hread : ImageHeader.read f a = some h) :
    h.version.releaseNumber = releaseAt f a := by
  unfold ImageHeader.read ImageHeader.parse at hread
  split at hread
  · cases hread
  · cases hread
    have hrevision : (u16At (read f a IMAGE_HEADER_LEN) 22).toNat = (f (a + 22)).toNat + 256 * (f (a + 23)).toNat := by
      have h22 := (f (a + 22)).toNat_lt
      have h23 := (f (a + 23)).toNat_lt
      unfold u16At
      rw [u8At_read (by decide), u8At_read (by decide)]
      exact UInt16.toNat_ofNat_of_lt' (show (f (a + 22)).toNat + 256 * (f (a + 23)).toNat < 2 ^ 16 by omega)
    unfold ImageVersion.releaseNumber releaseAt
    simp only [hrevision]
    rw [u8At_read (by decide), u8At_read (by decide)]

theorem u32At_erased {b : Buf} {off : Nat} (h : u8At b off = 0xFF) : (u32At b off).toNat % 256 = 255 := by
  unfold u32At
  rw [h, UInt32.toNat_ofNat', show (0xFF : UInt8).toNat = 255 from rfl]
  omega

/-- An erased first byte is no header. -/
theorem read_none_of_erased (h : f a = 0xFF) : ImageHeader.read f a = none := by
  unfold ImageHeader.read ImageHeader.parse
  rw [if_pos]
  intro hmagic
  have hfirst := @u32At_erased (read f a IMAGE_HEADER_LEN) 0 (by rw [u8At_read (by decide), Nat.add_zero, h])
  rw [hmagic] at hfirst
  exact absurd hfirst (by decide)

theorem erase_keeps_erased (h : ¬ (start ≤ b ∧ b < stop) → f b = 0xFF) : erase f start stop b = 0xFF := by
  unfold erase
  split
  · rfl
  · rename_i hout
    exact h hout

theorem readMagic_congr {slot slotSize : Nat} (h : ∀ i, i < BOOT_MAGIC_LEN →
    f (magicAddress slot slotSize + i) = g (magicAddress slot slotSize + i)) :
    readMagic f slot slotSize = readMagic g slot slotSize := by
  unfold readMagic
  rw [read_shift h]

/-- A magic whose last byte is erased is not good. -/
theorem readMagic_erased {slot slotSize : Nat} (hsize : BOOT_MAGIC_LEN ≤ slotSize)
    (h : f (slot + slotSize - 1) = 0xFF) : readMagic f slot slotSize ≠ .good := by
  intro hgood
  unfold readMagic MagicState.classify at hgood
  split at hgood
  · rename_i heq
    have hlast := congrArg (fun l => u8At l 15) heq
    rw [u8At_read (by decide)] at hlast
    unfold magicAddress BOOT_MAGIC_LEN at *
    rw [show slot + slotSize - 16 + 15 = slot + slotSize - 1 by omega, h] at hlast
    exact absurd hlast (by decide)
  · split at hgood <;> cases hgood

end

/-! ## Sizes -/

theorem le_divCeil {a : Nat} (hb : 0 < b) : a ≤ divCeil a b * b := by
  have h := Nat.lt_div_mul_add (a := a + b - 1) hb
  unfold divCeil
  omega

/-- Rounding up stays below a bound that is a multiple. -/
theorem divCeil_le {a c : Nat} (hb : 0 < b) (hdvd : b ∣ c) (h : a ≤ c) : divCeil a b * b ≤ c := by
  obtain ⟨k, rfl⟩ := hdvd
  have hk : divCeil a b ≤ k := by
    unfold divCeil
    rw [← Nat.lt_succ_iff, Nat.div_lt_iff_lt_mul hb, Nat.succ_mul, Nat.mul_comm k b]
    omega
  rw [Nat.mul_comm b k]
  exact Nat.mul_le_mul_right b hk

namespace Layout.Fits

variable {D : Device} {L : Layout} (h : L.Fits D)
include h

theorem word_sector : D.writeSize ∣ L.sectorSize := h.word_unit.trans h.unit_sector

theorem sector_image : L.sectorSize ∣ L.maxImageLen := Nat.dvd_sub h.sector_slot (dvd_refl _)

/-- A copied image ends within the image area of a slot, also when it is rounded up to sectors. -/
theorem copyLen_bounds {image : ValidImage} (himage : image.stop ≤ L.maxImageLen) :
    image.stop ≤ copyLen D image ∧ copyLen D image ≤ L.roundUp (copyLen D image) ∧
      L.roundUp (copyLen D image) ≤ L.maxImageLen :=
  ⟨le_divCeil h.write_pos, le_divCeil h.sector_pos,
    divCeil_le h.sector_pos h.sector_image (divCeil_le h.write_pos (h.word_sector.trans h.sector_image) himage)⟩

/-- A slot with room for an image has two sectors. -/
theorem two_sectors (himage : 0 < L.maxImageLen) : 2 * L.sectorSize ≤ L.slotSize := by
  obtain ⟨k, hk⟩ := h.sector_slot
  unfold Layout.maxImageLen at himage
  have hlt : L.sectorSize * 1 < L.sectorSize * k := by omega
  have hk2 : 2 ≤ k := Nat.lt_of_mul_lt_mul_left hlt
  rw [hk, Nat.mul_comm 2]
  exact Nat.mul_le_mul_left _ hk2

end Layout.Fits

/-! ## What a boot leaves behind -/

section

variable (D : Device) (L : Layout) (f₀ : Flash) (image : ValidImage)

/-- The request is there, and the staged image is that of `f₀`. -/
structure Requested (f : Flash) : Prop where
  magic : readMagic f L.secondary L.slotSize = .good
  staged : ∀ i, i < L.maxImageLen → f (L.secondary + i) = f₀ (L.secondary + i)

/-- The primary slot has the whole image. -/
def Complete (f : Flash) : Prop := ∀ i, i < image.stop → f (L.primary + i) = f₀ (L.secondary + i)

/-- The next boot installs the image, or finds it installed. -/
def Recoverable (f : Flash) : Prop :=
  (Requested L f₀ f ∧ isDowngrade L f image = false) ∨
    (readMagic f L.secondary L.slotSize ≠ .good ∧ Complete L f₀ image f)

/-- `k` units of the primary slot have been erased. -/
structure Erasing (k : Nat) (f : Flash) : Prop where
  requested : Requested L f₀ f
  erased : ∀ i, i < k * D.eraseSize → f (L.primary + i) = 0xFF
  untouched : k = 0 → isDowngrade L f image = false

/-- `n` bytes have been copied, and the others up to `stop` are erased. -/
structure Copied (stop n : Nat) (f : Flash) : Prop where
  requested : Requested L f₀ f
  copied : ∀ i, i < n → f (L.primary + i) = f₀ (L.secondary + i)
  erased : ∀ i, n ≤ i → i < stop → f (L.primary + i) = 0xFF

end

section

variable {D : Device} {L : Layout} {f₀ f g : Flash} {image : ValidImage} {stop n : Nat}

theorem Requested.frame (h : Requested L f₀ f) (hslot : BOOT_MAGIC_LEN ≤ L.slotSize)
    (hsame : ∀ i, i < L.slotSize → g (L.secondary + i) = f (L.secondary + i)) : Requested L f₀ g where
  magic := by
    rw [← h.magic]
    apply readMagic_congr
    intro i hi
    unfold magicAddress BOOT_MAGIC_LEN at *
    rw [show L.secondary + L.slotSize - 16 + i = L.secondary + (L.slotSize - 16 + i) by omega]
    exact hsame _ (by omega)
  staged := by
    intro i hi
    rw [hsame i (Nat.lt_of_lt_of_le hi (Nat.sub_le _ _))]
    exact h.staged i hi

/-- A change of the primary slot does not reach the secondary one. -/
theorem Requested.frame_primary (h : Requested L f₀ f) (hL : L.Fits D) (hslot : BOOT_MAGIC_LEN ≤ L.slotSize)
    (hsame : ∀ a, a < L.primary ∨ L.primary + L.slotSize ≤ a → g a = f a) : Requested L f₀ g := by
  apply h.frame hslot
  intro i hi
  apply hsame
  have hdisjoint := hL.disjoint
  omega

theorem accepts_erased (h : f L.primary = 0xFF) : isDowngrade L f image = false := by
  unfold isDowngrade
  rw [read_none_of_erased h]
  rfl

/-- A header that shows a release at least as high as the image's is accepted. -/
theorem accepts_of_release (h : releaseAt f L.primary ≤ image.header.version.releaseNumber) : isDowngrade L f image = false := by
  unfold isDowngrade
  cases hread : ImageHeader.read f L.primary with
  | none => rfl
  | some primary =>
    have hle : ¬ image.header.version.cmpRelease primary.version = .lt := by
      rw [ImageVersion.cmpRelease_lt, releaseNumber_of_read hread]
      exact Nat.not_lt.mpr h
    simpa using hle

/-- Whatever a header shows, the last release is not lower. -/
theorem accepts_last (h : image.header.version.IsLast) : isDowngrade L f image = false := by
  unfold isDowngrade
  cases ImageHeader.read f L.primary with
  | none => rfl
  | some primary => simpa using h.not_lt primary.version

theorem Complete.accepts (h : Complete L f₀ image f) (hheader : ImageHeader.read f₀ L.secondary = some image.header)
    (hstop : 24 ≤ image.stop) : isDowngrade L f image = false := by
  apply accepts_of_release
  rw [releaseNumber_of_read hheader]
  unfold releaseAt
  rw [h 20 (by omega), h 21 (by omega), h 22 (by omega), h 23 (by omega)]

theorem eraseCommands_get {unit m : Nat} (hk : k < (eraseCommands unit start m).length) :
    (eraseCommands unit start m)[k] = fun d => erase d (start + k * unit) (start + k * unit + unit) := by
  simp only [eraseCommands, List.getElem_map, List.getElem_range]

theorem wordCommands_get {word address : Nat} {data : Buf} (hk : k < (wordCommands word address data).length) :
    (wordCommands word address data)[k] =
      fun d => program d (address + k * word) (slice data (k * word) (k * word + word)) := by
  simp only [wordCommands, List.getElem_map, List.getElem_range]

@[simp] theorem eraseCommands_length (unit start m : Nat) : (eraseCommands unit start m).length = m := by simp [eraseCommands]

@[simp] theorem wordCommands_length (word address : Nat) (data : Buf) :
    (wordCommands word address data).length = data.length / word := by simp [wordCommands]

/-- One unit of the primary slot. -/
theorem Erasing.step (hL : L.Fits D) (hslot : BOOT_MAGIC_LEN ≤ L.slotSize) (h : Erasing D L f₀ image k f)
    (hk : (k + 1) * D.eraseSize ≤ L.slotSize) :
    Erasing D L f₀ image (k + 1)
      (erase f (L.primary + k * D.eraseSize) (L.primary + k * D.eraseSize + D.eraseSize)) where
  requested := by
    apply h.requested.frame_primary hL hslot
    intro a ha
    rw [Nat.succ_mul] at hk
    unfold erase
    rw [if_neg (by omega)]
  erased := by
    intro i hi
    rw [Nat.succ_mul] at hi
    exact erase_keeps_erased fun hout => h.erased i (by omega)
  untouched := fun h0 => absurd h0 (Nat.succ_ne_zero k)

/-- However far the erase has come, the image is not refused. -/
theorem Erasing.recoverable (hL : L.Fits D) (h : Erasing D L f₀ image k f) : Recoverable L f₀ image f := by
  refine Or.inl ⟨h.requested, ?_⟩
  rcases Nat.eq_zero_or_pos k with h0 | hpos
  · exact h.untouched h0
  · apply accepts_erased
    exact h.erased 0 (Nat.mul_pos hpos hL.erase_pos)

/-- One word of the copy. -/
theorem Copied.step (hL : L.Fits D) (hslot : BOOT_MAGIC_LEN ≤ L.slotSize) (h : Copied L f₀ stop n f)
    {data : Buf} (hlen : data.length = D.writeSize)
    (hdata : ∀ i, i < D.writeSize → u8At data i = f₀ (L.secondary + (n + i))) (hn : n + D.writeSize ≤ stop)
    (hstop : stop ≤ L.slotSize) : Copied L f₀ stop (n + D.writeSize) (program f (L.primary + n) data) where
  requested := by
    apply h.requested.frame_primary hL hslot
    intro a ha
    unfold program
    rw [if_neg (by omega)]
  copied := by
    intro i hi
    unfold program
    by_cases hold : i < n
    · rw [if_neg (by omega)]
      exact h.copied i hold
    · rw [if_pos (by omega), h.erased i (by omega) (by omega), show L.primary + i - (L.primary + n) = i - n by omega,
        hdata (i - n) (by omega), show n + (i - n) = i by omega]
      exact UInt8.toBitVec_inj.mp BitVec.allOnes_and
  erased := by
    intro i hi hi'
    unfold program
    rw [if_neg (by omega)]
    exact h.erased i (by omega) hi'

/-- Does a word that holds the header's magic hold its release too, or is the release the last one? -/
def KeepsOrder (D : Device) (image : ValidImage) : Prop := 24 ≤ D.writeSize ∨ image.header.version.IsLast

/-- However far the copy has come, the image is not refused. -/
theorem Copied.recoverable (hcond : KeepsOrder D image) (h : Copied L f₀ stop n f) (hn : D.writeSize ∣ n)
    (hpos : 0 < stop) (hheader : ImageHeader.read f₀ L.secondary = some image.header) : Recoverable L f₀ image f := by
  refine Or.inl ⟨h.requested, ?_⟩
  rcases Nat.eq_zero_or_pos n with h0 | hnpos
  · apply accepts_erased
    exact h.erased 0 (by omega) hpos
  · rcases hcond with hword | hlast
    · have hle : 24 ≤ n := hword.trans (Nat.le_of_dvd hnpos hn)
      apply accepts_of_release
      rw [releaseNumber_of_read hheader]
      unfold releaseAt
      rw [h.copied 20 (by omega), h.copied 21 (by omega), h.copied 22 (by omega), h.copied 23 (by omega)]
    · exact accepts_last hlast

end

/-! ## The primary slot -/

def SamePrimary (L : Layout) (f g : Flash) : Prop := ∀ i, i < L.slotSize → g (L.primary + i) = f (L.primary + i)

section

variable {D : Device} {L : Layout} {ε : Type} {w : World Flash Unit} {f : Flash} (hL : L.Fits D)
include hL

/-- An erase inside the secondary slot leaves the primary one alone. -/
theorem eraseRange_frame {e : ε} (hstart : L.secondary ≤ start) (hstop : stop ≤ L.secondary + L.slotSize)
    (hsame : SamePrimary L f w.disk) {P : Post Flash Unit ε Unit}
    (hok : ∀ d left, left <:+ w.faults → SamePrimary L f d → P.ok () ⟨d, w.ram, left⟩)
    (hend : Suffices (SamePrimary L f) w.faults P.err P.cut) : wp (eraseRange D e start stop) w P := by
  unfold eraseRange
  apply commands_wp fun _ => SamePrimary L f
  · exact hsame
  · intro k hk d hd i hi
    rw [eraseCommands_get]
    rw [eraseCommands_length] at hk
    have hunit : (k + 1) * D.eraseSize ≤ stop - start :=
      (Nat.mul_le_mul_right _ (Nat.succ_le_of_lt hk)).trans (Nat.div_mul_le_self _ _)
    rw [Nat.succ_mul] at hunit
    have hdisjoint := hL.disjoint
    rw [← hd i hi]
    exact if_neg (by omega)
  · exact hok
  · exact fun hne _ d left _ hd => hend.err _ _ hne hd
  · exact fun hne _ d _ hd => hend.cut d hne hd

/-- Dropping the request leaves the primary slot alone. -/
theorem drop_frame (hslot : L.sectorSize ≤ L.slotSize) (update : Update) (hsame : SamePrimary L f w.disk)
    {P : Post Flash Unit BootError Update}
    (hok : ∀ d left, left <:+ w.faults → SamePrimary L f d → P.ok update ⟨d, w.ram, left⟩)
    (hend : Suffices (SamePrimary L f) w.faults P.err P.cut) : wp (dropRequest D L update) w P := by
  unfold dropRequest eraseSector
  simp only [wp_bind]
  apply eraseRange_frame hL _ _ hsame
  · intro d left hleft hd
    apply eraseRange_frame hL (Nat.le_refl _) (Nat.add_le_add_left hslot _) hd
    · exact fun d' left' hleft' hd' => hok d' left' (hleft'.trans hleft) hd'
    · exact hend.suffix hleft
  · exact hend
  · unfold Layout.trailerSector
    omega
  · unfold Layout.trailerSector
    omega

end

/-! ## Installing -/

/-- What a boot is asked to install. -/
structure Staged (D : Device) (L : Layout) (C : Crypto) (key : TrustedKey) (f₀ : Flash) (image : ValidImage) : Prop where
  fits : L.Fits D
  magic : readMagic f₀ L.secondary L.slotSize = .good
  valid : validate C f₀ L.secondary L.maxImageLen key = .ok image
  accepts : isDowngrade L f₀ image = false

variable {P : Post Flash Unit BootError Unit} {offset : Nat}

section

variable {D : Device} {L : Layout} {C : Crypto} {key : TrustedKey} {f₀ f : Flash} {image : ValidImage}

namespace Staged

variable (h : Staged D L C key f₀ image)
include h

theorem header : ImageHeader.read f₀ L.secondary = some image.header := (validate_iff.mp h.valid).header

theorem stop_bounds : 36 ≤ image.stop ∧ image.stop ≤ L.maxImageLen := by
  obtain ⟨hheader, hhashed, hmax⟩ := (validate_iff.mp h.valid).bounds
  unfold IMAGE_HEADER_LEN at hheader
  exact ⟨by omega, hmax⟩

theorem slot_large : BOOT_MAGIC_LEN ≤ L.slotSize := by
  obtain ⟨hlow, hhigh⟩ := h.stop_bounds
  unfold Layout.maxImageLen at hhigh
  unfold BOOT_MAGIC_LEN
  omega

/-- The staged image validates wherever it is left alone. -/
theorem valid_of (hf : ∀ i, i < L.maxImageLen → f (L.secondary + i) = f₀ (L.secondary + i)) :
    validate C f L.secondary L.maxImageLen key = .ok image :=
  validate_congr h.valid fun i hi => hf i (Nat.lt_of_lt_of_le hi h.stop_bounds.2)

/-- A whole copy validates. -/
theorem valid_copy (hf : Complete L f₀ image f) : validate C f L.primary L.maxImageLen key = .ok image :=
  validate_congr h.valid hf

theorem requested : Requested L f₀ f₀ := ⟨h.magic, fun _ _ => rfl⟩

end Staged

variable {w : World Flash Unit} (h : Staged D L C key f₀ image)
include h

/-- The erase covers whole units. -/
theorem units : L.roundUp (copyLen D image) / D.eraseSize * D.eraseSize = L.roundUp (copyLen D image) :=
  Nat.div_mul_cancel (h.fits.unit_sector.trans (Dvd.intro_left _ rfl))

omit h in
theorem erasing_step (h : Staged D L C key f₀ image) (hk : k < L.roundUp (copyLen D image) / D.eraseSize)
    (hf : Erasing D L f₀ image k f) :
    Erasing D L f₀ image (k + 1) (erase f (L.primary + k * D.eraseSize) (L.primary + k * D.eraseSize + D.eraseSize)) := by
  obtain ⟨-, -, hround⟩ := h.fits.copyLen_bounds h.stop_bounds.2
  apply hf.step h.fits h.slot_large
  have hle := Nat.mul_le_mul_right D.eraseSize (Nat.succ_le_of_lt hk)
  rw [units h] at hle
  exact hle.trans (hround.trans (Nat.sub_le _ _))

omit h in
theorem Erasing.copied (h : Staged D L C key f₀ image)
    (hf : Erasing D L f₀ image (L.roundUp (copyLen D image) / D.eraseSize) f) :
    Copied L f₀ (L.roundUp (copyLen D image)) 0 f := by
  refine ⟨hf.requested, fun i hi => absurd hi (Nat.not_lt_zero i), fun i _ hi => hf.erased i ?_⟩
  rw [units h]
  exact hi

theorem erase_wp (hreq : Requested L f₀ w.disk) (hacc : isDowngrade L w.disk image = false)
    (hok : ∀ d left, left <:+ w.faults → Copied L f₀ (L.roundUp (copyLen D image)) 0 d → P.ok () ⟨d, w.ram, left⟩)
    (hend : Suffices (Recoverable L f₀ image) w.faults P.err P.cut) :
    wp (eraseRange D .flash L.primary (L.primary + L.roundUp (copyLen D image))) w P := by
  unfold eraseRange
  rw [Nat.add_sub_cancel_left]
  apply commands_wp (Erasing D L f₀ image)
  · exact ⟨hreq, fun i hi => by omega, fun _ => hacc⟩
  · intro k hk d hd
    rw [eraseCommands_get]
    rw [eraseCommands_length] at hk
    exact erasing_step h hk hd
  · intro d left hleft hd
    rw [eraseCommands_length] at hd
    exact hok d left hleft (hd.copied h)
  · exact fun hne k d left _ hd => hend.err _ _ hne (hd.recoverable h.fits)
  · exact fun hne k d _ hd => hend.cut d hne (hd.recoverable h.fits)

/-- An erase that nothing disturbs. -/
theorem erase_pass {left : List Fault}
    (hfaults : w.faults = List.replicate (L.roundUp (copyLen D image) / D.eraseSize) .none ++ left)
    (hreq : Requested L f₀ w.disk) (hacc : isDowngrade L w.disk image = false)
    (hok : ∀ d, Copied L f₀ (L.roundUp (copyLen D image)) 0 d → P.ok () ⟨d, w.ram, left⟩) :
    wp (eraseRange D .flash L.primary (L.primary + L.roundUp (copyLen D image))) w P := by
  unfold eraseRange
  rw [Nat.add_sub_cancel_left]
  apply commands_pass (Erasing D L f₀ image)
  · rw [eraseCommands_length]
    exact hfaults
  · exact ⟨hreq, fun i hi => by omega, fun _ => hacc⟩
  · intro k hk d hd
    rw [eraseCommands_get]
    rw [eraseCommands_length] at hk
    exact erasing_step h hk hd
  · intro d hd
    rw [eraseCommands_length] at hd
    exact hok d (hd.copied h)

/-- The data of a chunk, word by word. -/
theorem chunk_step {f : Flash} {len : Nat} (hf : Requested L f₀ f) (hlen : offset + len ≤ L.maxImageLen)
    (hstop : offset + len ≤ stop) (hslot : stop ≤ L.slotSize) (hk : k < len / D.writeSize) {d : Flash}
    (hd : Copied L f₀ stop (offset + k * D.writeSize) d) :
    Copied L f₀ stop (offset + (k + 1) * D.writeSize)
      (program d (L.primary + offset + k * D.writeSize)
        (slice (read f (L.secondary + offset) len) (k * D.writeSize) (k * D.writeSize + D.writeSize))) := by
  have hword : (k + 1) * D.writeSize ≤ len :=
    (Nat.mul_le_mul_right _ (Nat.succ_le_of_lt hk)).trans (Nat.div_mul_le_self _ _)
  rw [Nat.succ_mul] at hword ⊢
  rw [Nat.add_assoc L.primary, ← Nat.add_assoc offset]
  apply hd.step h.fits h.slot_large
  · unfold slice
    rw [List.length_take, List.length_drop, read_length]
    omega
  · intro i hi
    rw [u8At_slice hi, u8At_read (by omega), Nat.add_assoc L.secondary, hf.staged _ (by omega)]
    congr 1
    omega
  · omega
  · exact hslot

/-- **One chunk of the copy.** -/
theorem copyChunk_wp (hcond : KeepsOrder D image) {len : Nat} (hcopied : Copied L f₀ stop offset w.disk)
    (hoffset : D.writeSize ∣ offset) (hword : D.writeSize ∣ len) (hlen : offset + len ≤ L.maxImageLen)
    (hstop : offset + len ≤ stop) (hslot : stop ≤ L.slotSize) (hpos : 0 < stop)
    (hok : ∀ d left, left <:+ w.faults → Copied L f₀ stop (offset + len) d → P.ok () ⟨d, w.ram, left⟩)
    (hend : Suffices (Recoverable L f₀ image) w.faults P.err P.cut) : wp (copyChunk D L offset len) w P := by
  unfold copyChunk
  simp only [wp_bind, wp_getDisk]
  by_cases hdata : (read w.disk (L.secondary + offset) len).any (· != 0xFF) = true
  · rw [if_pos hdata]
    have hrecoverable : ∀ k d, Copied L f₀ stop (offset + k * D.writeSize) d → Recoverable L f₀ image d :=
      fun k d hd => hd.recoverable hcond (Nat.dvd_add hoffset (Dvd.intro_left k rfl)) hpos h.header
    unfold writeRange
    apply commands_wp fun k => Copied L f₀ stop (offset + k * D.writeSize)
    · rw [Nat.zero_mul, Nat.add_zero]
      exact hcopied
    · intro k hk d hd
      rw [wordCommands_get]
      rw [wordCommands_length, read_length] at hk
      exact chunk_step h hcopied.requested hlen hstop hslot hk hd
    · intro d left hleft hd
      rw [wordCommands_length, read_length, Nat.div_mul_cancel hword] at hd
      exact hok d left hleft hd
    · exact fun hne k d left _ hd => hend.err _ _ hne (hrecoverable k d hd)
    · exact fun hne k d _ hd => hend.cut d hne (hrecoverable k d hd)
  · rw [if_neg hdata]
    -- the chunk is as it is after the erase
    refine hok w.disk w.faults (List.suffix_refl _) ⟨hcopied.requested, fun i hi => ?_, fun i hi => hcopied.erased i (by omega)⟩
    by_cases hold : i < offset
    · exact hcopied.copied i hold
    · rw [hcopied.erased i (by omega) (by omega), ← hcopied.requested.staged i (by omega)]
      have hmem : w.disk (L.secondary + i) ∈ NorFlash.read w.disk (L.secondary + offset) len := by
        unfold NorFlash.read
        rw [List.mem_map]
        refine ⟨i - offset, List.mem_range.mpr (by omega), ?_⟩
        rw [show L.secondary + offset + (i - offset) = L.secondary + i by omega]
      by_contra hne
      exact hdata (List.any_eq_true.mpr ⟨_, hmem, by simpa using Ne.symm hne⟩)

/-- **The copy.** -/
theorem copyChunks_wp (hcond : KeepsOrder D image) {total : Nat} (htotal : D.writeSize ∣ total)
    (himage : total ≤ L.maxImageLen) (hstop : total ≤ stop) (hslot : stop ≤ L.slotSize) (hpos : 0 < stop) {fuel : Nat}
    (hcopied : Copied L f₀ stop offset w.disk) (hoffset : D.writeSize ∣ offset) (hle : offset ≤ total)
    (hfuel : total ≤ offset + fuel) (hok : ∀ d left, left <:+ w.faults → Copied L f₀ stop total d → P.ok () ⟨d, w.ram, left⟩)
    (hend : Suffices (Recoverable L f₀ image) w.faults P.err P.cut) : wp (copyChunks D L total fuel offset) w P := by
  induction fuel generalizing w offset with
  | zero =>
    obtain rfl : offset = total := by omega
    exact hok w.disk w.faults (List.suffix_refl _) hcopied
  | succ fuel ih =>
    unfold copyChunks
    by_cases hdone : total ≤ offset
    · rw [if_pos hdone]
      obtain rfl : offset = total := by omega
      exact hok w.disk w.faults (List.suffix_refl _) hcopied
    · rw [if_neg hdone]
      have hchunk : 0 < min COPY_CHUNK (total - offset) ∧ offset + min COPY_CHUNK (total - offset) ≤ total := by
        unfold COPY_CHUNK
        omega
      have hword : D.writeSize ∣ min COPY_CHUNK (total - offset) := by
        rcases Nat.le_total COPY_CHUNK (total - offset) with hmin | hmin
        · rw [Nat.min_eq_left hmin]
          exact h.fits.word_chunk
        · rw [Nat.min_eq_right hmin]
          exact Nat.dvd_sub htotal hoffset
      simp only [wp_bind]
      apply copyChunk_wp h hcond hcopied hoffset hword
      · omega
      · omega
      · exact hslot
      · exact hpos
      · intro d left hleft hd
        apply ih hd (Nat.dvd_add hoffset hword) hchunk.2 (by omega)
        · exact fun d' left' hleft' hd' => hok d' left' (hleft'.trans hleft) hd'
        · exact hend.suffix hleft
      · exact hend

/-- **An installation** ends with the whole image in the primary slot, or can be taken up again. -/
theorem install_wp (hcond : KeepsOrder D image) (hreq : Requested L f₀ w.disk) (hacc : isDowngrade L w.disk image = false)
    (hok : ∀ d left, left <:+ w.faults → Requested L f₀ d → Complete L f₀ image d → P.ok () ⟨d, w.ram, left⟩)
    (hend : Suffices (Recoverable L f₀ image) w.faults P.err P.cut) : wp (install D L C key image) w P := by
  obtain ⟨himage, hround, hslot⟩ := h.fits.copyLen_bounds h.stop_bounds.2
  have hlow := h.stop_bounds.1
  have hpos : 0 < L.roundUp (copyLen D image) := by omega
  unfold install
  simp only [wp_bind]
  apply erase_wp h hreq hacc
  · intro d left hleft hcopied
    apply copyChunks_wp h hcond (Dvd.intro_left _ rfl) (hround.trans hslot) hround (hslot.trans (Nat.sub_le _ _)) hpos
    · exact hcopied
    · exact dvd_zero _
    · exact Nat.zero_le _
    · exact Nat.le_add_left _ _
    · intro d' left' hleft' hcopied'
      have hcomplete : Complete L f₀ image d' := fun i hi => hcopied'.copied i (Nat.lt_of_lt_of_le hi himage)
      simp only [wp_getDisk, h.valid_copy hcomplete, if_true, wp_pure]
      exact hok d' left' (hleft'.trans hleft) hcopied'.requested hcomplete
    · exact hend.suffix hleft
  · exact hend

/-! ## Dropping the request -/

/-- `k` units of the trailer sector have been erased behind an installation. -/
structure Dropping (D : Device) (L : Layout) (f₀ : Flash) (image : ValidImage) (k : Nat) (f : Flash) : Prop where
  complete : Complete L f₀ image f
  staged : ∀ i, i < L.maxImageLen → f (L.secondary + i) = f₀ (L.secondary + i)
  erased : ∀ i, i < k * D.eraseSize → f (L.trailerSector L.secondary + i) = 0xFF

omit h in
theorem Dropping.recoverable (h : Staged D L C key f₀ image) (hd : Dropping D L f₀ image k f) : Recoverable L f₀ image f := by
  by_cases hmagic : readMagic f L.secondary L.slotSize = .good
  · exact Or.inl ⟨⟨hmagic, hd.staged⟩, hd.complete.accepts h.header (by have := h.stop_bounds.1; omega)⟩
  · exact Or.inr ⟨hmagic, hd.complete⟩

/-- An erase inside the secondary slot leaves a copy alone. -/
theorem complete_erase (hd : Complete L f₀ image f) (hstart : L.secondary ≤ start) (hstop : stop ≤ L.secondary + L.slotSize) :
    Complete L f₀ image (erase f start stop) := by
  intro i hi
  have hbounds := h.stop_bounds
  have hdisjoint := h.fits.disjoint
  unfold Layout.maxImageLen at hbounds
  unfold erase
  rw [if_neg (by omega)]
  exact hd i hi

theorem drop_wp (update : Update) {P : Post Flash Unit BootError Update} (hreq : Requested L f₀ w.disk)
    (hcomplete : Complete L f₀ image w.disk)
    (hok : ∀ d left, left <:+ w.faults → readMagic d L.secondary L.slotSize ≠ .good → Complete L f₀ image d →
      P.ok update ⟨d, w.ram, left⟩)
    (hend : Suffices (Recoverable L f₀ image) w.faults P.err P.cut) : wp (dropRequest D L update) w P := by
  have hsectors := h.fits.two_sectors (by have := h.stop_bounds; omega)
  have hpos := h.fits.sector_pos
  have hunits : L.sectorSize / D.eraseSize * D.eraseSize = L.sectorSize := Nat.div_mul_cancel h.fits.unit_sector
  have hbelow : ∀ {k : Nat}, k < L.sectorSize / D.eraseSize → k * D.eraseSize + D.eraseSize ≤ L.sectorSize := by
    intro k hk
    rw [← Nat.succ_mul, ← hunits]
    exact Nat.mul_le_mul_right _ (Nat.succ_le_of_lt hk)
  have htrailer : L.trailerSector L.secondary + L.sectorSize = L.secondary + L.slotSize := by
    unfold Layout.trailerSector
    omega
  unfold dropRequest eraseSector eraseRange
  simp only [wp_bind, Nat.add_sub_cancel_left]
  apply commands_wp (Dropping D L f₀ image)
  · exact ⟨hcomplete, hreq.staged, fun i hi => by omega⟩
  · intro k hk d hd
    rw [eraseCommands_get]
    rw [eraseCommands_length] at hk
    have hunit := hbelow hk
    refine ⟨complete_erase h hd.complete (by omega) (by omega), fun i hi => ?_, fun i hi => ?_⟩
    · rw [← hd.staged i hi]
      unfold Layout.maxImageLen at hi
      exact if_neg (by omega)
    · rw [Nat.succ_mul] at hi
      exact erase_keeps_erased fun hout => hd.erased i (by omega)
  · intro d left hleft hd
    have hne : left ≠ [] → w.faults ≠ [] := ne_nil_of_suffix hleft
    have hlast : d (L.secondary + L.slotSize - 1) = 0xFF := by
      rw [show L.secondary + L.slotSize - 1 = L.trailerSector L.secondary + (L.sectorSize - 1) by omega]
      apply hd.erased
      rw [eraseCommands_length, hunits]
      omega
    -- from here on the magic is gone
    have hgone : ∀ {d' : Flash}, Complete L f₀ image d' ∧ d' (L.secondary + L.slotSize - 1) = 0xFF →
        readMagic d' L.secondary L.slotSize ≠ .good := fun hd' => readMagic_erased h.slot_large hd'.2
    apply commands_wp fun _ d' => Complete L f₀ image d' ∧ d' (L.secondary + L.slotSize - 1) = 0xFF
    · exact ⟨hd.complete, hlast⟩
    · intro k hk d' hd'
      rw [eraseCommands_get]
      rw [eraseCommands_length] at hk
      have hunit := hbelow hk
      exact ⟨complete_erase h hd'.1 (Nat.le_add_right _ _) (by omega), erase_keeps_erased fun _ => hd'.2⟩
    · exact fun d' left' hleft' hd' => hok d' left' (hleft'.trans hleft) (hgone hd') hd'.1
    · exact fun hne' _ d' _ _ hd' => hend.err _ _ (hne hne') (Or.inr ⟨hgone hd', hd'.1⟩)
    · exact fun hne' _ d' _ hd' => hend.cut d' (hne hne') (Or.inr ⟨hgone hd', hd'.1⟩)
  · exact fun hne k d left _ hd => hend.err _ _ hne (hd.recoverable h)
  · exact fun hne k d _ hd => hend.cut d hne (hd.recoverable h)

/-- **One boot** keeps the flash recoverable, and leaves the image installed unless something got in its
    way. -/
theorem boot_wp (hcond : KeepsOrder D image) {P : Post Flash Unit BootError Bootable} (hrec : Recoverable L f₀ image w.disk)
    (hok : ∀ b w', b.image = image → Recoverable L f₀ image w'.disk → P.ok b w')
    (hend : Suffices (Recoverable L f₀ image) w.faults P.err P.cut) : wp (boot D L C key) w P := by
  have hlast : ∀ (d : Flash) (left : List Fault) (update : Update), readMagic d L.secondary L.slotSize ≠ .good →
      Complete L f₀ image d →
      wp (match validate C d L.primary L.maxImageLen key with
        | .ok image => pure ⟨image, L.primary + image.header.hdrSize.toNat, update⟩
        | .error e => fail (.noBootableImage e update)) ⟨d, w.ram, left⟩ P := by
    intro d left update hmagic hcomplete
    rw [h.valid_copy hcomplete]
    exact hok _ _ rfl (Or.inr ⟨hmagic, hcomplete⟩)
  unfold boot
  rw [wp_bind]
  unfold processRequest
  simp only [wp_bind, wp_getDisk]
  rcases hrec with ⟨hreq, hacc⟩ | ⟨hmagic, hcomplete⟩
  · rw [if_neg (by rw [hreq.magic]; simp), h.valid_of hreq.staged]
    simp only [hacc, Bool.false_eq_true, if_false, wp_bind]
    apply install_wp h hcond hreq hacc
    · intro d left hleft hreq' hcomplete
      apply drop_wp h .installed hreq' hcomplete
      · exact fun d' left' _ hmagic hcomplete' => hlast d' left' .installed hmagic hcomplete'
      · exact hend.suffix hleft
    · exact hend
  · rw [if_pos hmagic]
    exact hlast w.disk w.faults .none hmagic hcomplete

end

end Zigbee.Mcuboot
