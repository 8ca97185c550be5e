import Mathlib.Data.Nat.Prime.Basic
import Zigbee.Mcuboot.Boot

/-!
# Power failures while an image is installed

Boots that each lose power somewhere, and the boot after them.

* `PowerFailSafe` — that boot returns the staged image, however many others were cut before it.
* `safe_of_keepsOrder`, `not_safe_of_not_keepsOrder` — when it does, and the cut after which it does not.
-/

namespace Zigbee.Mcuboot

open Bytes NorFlash Crash Crash.Prog

section

variable (D : Device) (L : Layout) (C : Crypto) (key : TrustedKey)

/-- The flash after a boot that loses power after `n` unit erases and word programs. -/
def bootCut (f : Flash) (n : Nat) : Flash := (boot D L C key ⟨f, (), List.replicate n .none ++ [.cut false]⟩).disk

/-- After any number of cut boots, an undisturbed one returns the staged image. -/
def PowerFailSafe (f₀ : Flash) (image : ValidImage) : Prop :=
  ∀ cuts : List Nat, ∃ b w, boot D L C key ⟨cuts.foldl (bootCut D L C key) f₀, (), []⟩ = .ok b w ∧
    b.image.digest = image.digest

end

section

variable {D : Device} {L : Layout} {C : Crypto} {key : TrustedKey} {f₀ f : Flash} {image : ValidImage}

/-! ## Images whose order is kept -/

theorem bootCut_recoverable (h : Staged D L C key f₀ image) (hcond : KeepsOrder D image) (hrec : Recoverable L f₀ image f)
    (n : Nat) : Recoverable L f₀ image (bootCut D L C key f n) := by
  unfold bootCut
  apply disk_of_wp
  apply boot_wp h hcond hrec
  · exact fun _ _ _ hrec' => hrec'
  · exact ⟨fun _ _ _ hrec' => hrec', fun _ _ hrec' => hrec'⟩

theorem boot_recoverable (h : Staged D L C key f₀ image) (hcond : KeepsOrder D image) (hrec : Recoverable L f₀ image f) :
    ∃ b w, boot D L C key ⟨f, (), []⟩ = .ok b w ∧ b.image.digest = image.digest := by
  have hboot : wp (boot D L C key) ⟨f, (), []⟩ ⟨fun b _ => b.image = image, fun _ _ => False, fun _ => False⟩ := by
    apply boot_wp h hcond hrec
    · exact fun _ _ himage _ => himage
    · exact ⟨fun _ _ hne _ => hne rfl, fun _ hne _ => hne rfl⟩
  unfold wp at hboot
  cases hresult : boot D L C key ⟨f, (), []⟩ with
  | ok b w =>
    rw [hresult] at hboot
    exact ⟨b, w, rfl, congrArg ValidImage.digest hboot⟩
  | err e w =>
    rw [hresult] at hboot
    exact hboot.elim
  | cut d =>
    rw [hresult] at hboot
    exact hboot.elim

/-- Every cut boot leaves the flash recoverable. -/
theorem safe_of_keepsOrder (h : Staged D L C key f₀ image) (hcond : KeepsOrder D image) : PowerFailSafe D L C key f₀ image := by
  intro cuts
  apply boot_recoverable h hcond
  have hrun : ∀ {f : Flash}, Recoverable L f₀ image f → Recoverable L f₀ image (cuts.foldl (bootCut D L C key) f) := by
    induction cuts with
    | nil => exact fun hrec => hrec
    | cons n cuts ih => exact fun hrec => ih (bootCut_recoverable h hcond hrec n)
  exact hrun (Or.inl ⟨h.requested, h.accepts⟩)

/-! ## Images whose order is lost -/

theorem readMagic_same (hmagic : ∀ i, i < 4 → f (L.primary + i) = f₀ (L.secondary + i)) {header : ImageHeader}
    (hheader : ImageHeader.read f₀ L.secondary = some header) : ∃ primary, ImageHeader.read f L.primary = some primary := by
  have hword : u32At (read f L.primary IMAGE_HEADER_LEN) 0 = u32At (read f₀ L.secondary IMAGE_HEADER_LEN) 0 := by
    unfold u32At
    rw [u8At_read (by decide), u8At_read (by decide), u8At_read (by decide), u8At_read (by decide), u8At_read (by decide),
      u8At_read (by decide), u8At_read (by decide), u8At_read (by decide), hmagic 0 (by omega), hmagic (0 + 1) (by omega),
      hmagic (0 + 2) (by omega), hmagic (0 + 3) (by omega)]
  unfold ImageHeader.read ImageHeader.parse at hheader ⊢
  split at hheader
  · cases hheader
  · rename_i hgood
    rw [hword, if_neg hgood]
    exact ⟨_, rfl⟩

theorem flags_erased {a : Nat} {header : ImageHeader} (hheader : ImageHeader.read f a = some header) (h : f (a + 16) = 0xFF) :
    header.flags ≠ 0 := by
  unfold ImageHeader.read ImageHeader.parse at hheader
  split at hheader
  · cases hheader
  · cases hheader
    intro hflags
    have hfirst := @u32At_erased (NorFlash.read f a IMAGE_HEADER_LEN) 16 (by rw [u8At_read (by decide), h])
    rw [show u32At (NorFlash.read f a IMAGE_HEADER_LEN) 16 = 0 from hflags] at hfirst
    exact absurd hfirst (by decide)

/-- A header cut off behind its magic shows the last release. -/
theorem Copied.refused (h : Staged D L C key f₀ image) (hlast : ¬ image.header.version.IsLast) {stop n : Nat}
    (hf : Copied L f₀ stop n f) (hn : 4 ≤ n ∧ n ≤ 16) (hstop : 24 ≤ stop) : isDowngrade L f image = true := by
  obtain ⟨primary, hprimary⟩ := readMagic_same (fun i hi => hf.copied i (by omega)) h.header
  have hrelease := releaseNumber_of_read hprimary
  unfold releaseAt at hrelease
  rw [hf.erased 20 (by omega) (by omega), hf.erased 21 (by omega) (by omega), hf.erased 22 (by omega) (by omega),
    hf.erased 23 (by omega) (by omega)] at hrelease
  have hlt := ImageVersion.lt_of_isLast hlast (ImageVersion.isLast_iff.mpr hrelease)
  unfold isDowngrade
  rw [hprimary]
  simpa using hlt

/-- The flags of such a header are those of no image. -/
theorem Copied.unbootable {stop n : Nat} (hf : Copied L f₀ stop n f) (hn : n ≤ 16) (hstop : 24 ≤ stop) {g : Flash}
    (hsame : SamePrimary L f g) (hslot : 24 ≤ L.slotSize) (copy : ValidImage) :
    validate C g L.primary L.maxImageLen key ≠ .ok copy := by
  intro hvalid
  obtain ⟨hflags, -⟩ := imageEnd_ok (validate_iff.mp hvalid).stop
  apply flags_erased (validate_iff.mp hvalid).header _ hflags
  rw [hsame 16 (by omega)]
  exact hf.erased 16 hn (by omega)

/-- Such a flash boots nothing, and the boot drops the request. -/
theorem Copied.lost (h : Staged D L C key f₀ image) (hlast : ¬ image.header.version.IsLast) {stop n : Nat}
    (hf : Copied L f₀ stop n f) (hn : 4 ≤ n ∧ n ≤ 16) (hstop : 24 ≤ stop) :
    wp (boot D L C key) ⟨f, (), []⟩ ⟨fun _ _ => False, fun _ _ => True, fun _ => True⟩ := by
  have hbounds := h.stop_bounds
  have hsectors := h.fits.two_sectors (by omega)
  have hslot : 24 ≤ L.slotSize := by
    unfold Layout.maxImageLen at hbounds
    omega
  unfold boot processRequest
  simp only [wp_bind, wp_getDisk]
  rw [if_neg (by rw [hf.requested.magic]; simp), h.valid_of hf.requested.staged]
  simp only [hf.refused h hlast hn hstop, if_true]
  apply drop_frame h.fits (f := f)
  · omega
  · exact fun i _ => rfl
  · intro d left hleft hsame
    simp only
    split
    · rename_i copy hvalid
      exact hf.unbootable hn.2 hstop hsame hslot copy hvalid
    · exact trivial
  · exact ⟨fun _ _ _ _ => trivial, fun _ _ _ => trivial⟩

/-- Words that end behind the magic and before the flags. -/
theorem words_of_narrow (hword : D.writeSize ∣ COPY_CHUNK) (hnarrow : D.writeSize < 24) :
    4 ≤ divCeil 4 D.writeSize * D.writeSize ∧ divCeil 4 D.writeSize * D.writeSize ≤ 16 ∧ D.writeSize ≤ 16 := by
  obtain ⟨k, -, hk⟩ := (Nat.dvd_prime_pow Nat.prime_two).mp (show D.writeSize ∣ 2 ^ 8 from hword)
  have hexp : k ≤ 4 := by
    by_contra hlarge
    have hpow := Nat.pow_le_pow_right (show 0 < 2 by decide) (show 5 ≤ k by omega)
    omega
  have hdvd : D.writeSize ∣ 16 := by
    rw [hk]
    exact Nat.pow_dvd_pow 2 hexp
  have hpos : 0 < D.writeSize := Nat.pos_of_dvd_of_pos hdvd (by decide)
  exact ⟨le_divCeil hpos, divCeil_le hpos hdvd (by decide), Nat.le_of_dvd (by decide) hdvd⟩

/-- A copy cut in its first chunk. -/
theorem first_words (h : Staged D L C key f₀ image) {stop m : Nat} {w : World Flash Unit} {left : List Fault}
    {P : Post Flash Unit BootError Unit} (hcopied : Copied L f₀ stop 0 w.disk)
    (hstop : copyLen D image ≤ stop) (hslot : stop ≤ L.slotSize) (himage : copyLen D image ≤ L.maxImageLen)
    (hm : (m + 1) * D.writeSize ≤ min COPY_CHUNK (copyLen D image)) (hfaults : w.faults = List.replicate m .none ++ .cut false :: left)
    (hcut : ∀ d, Copied L f₀ stop (m * D.writeSize) d → P.cut d) :
    wp (copyChunks D L (copyLen D image) (copyLen D image) 0) w P := by
  have hpos := h.fits.write_pos
  rw [Nat.succ_mul] at hm
  obtain ⟨fuel, hfuel⟩ : ∃ fuel, copyLen D image = fuel + 1 := Nat.exists_eq_succ_of_ne_zero (by omega)
  have hdata : (NorFlash.read w.disk L.secondary (min COPY_CHUNK (copyLen D image))).any (· != 0xFF) = true := by
    have hfirst : f₀ L.secondary ≠ 0xFF := by
      intro herased
      have hheader := h.header
      rw [read_none_of_erased herased] at hheader
      cases hheader
    rw [List.any_eq_true]
    refine ⟨w.disk L.secondary, ?_, ?_⟩
    · unfold NorFlash.read
      exact List.mem_map.mpr ⟨0, List.mem_range.mpr (by omega), rfl⟩
    · have hsame := hcopied.requested.staged 0 (by omega)
      rw [Nat.add_zero] at hsame
      rw [hsame]
      simpa using hfirst
  rw [show copyChunks D L (copyLen D image) (copyLen D image) 0 =
    copyChunks D L (copyLen D image) (fuel + 1) 0 by rw [← hfuel]]
  unfold copyChunks
  rw [if_neg (by omega), Nat.sub_zero]
  simp only [wp_bind]
  unfold copyChunk
  simp only [wp_bind, wp_getDisk, Nat.add_zero]
  rw [if_pos hdata]
  unfold writeRange
  apply commands_stop (fun k => Copied L f₀ stop (k * D.writeSize)) (m := m)
  · rw [wordCommands_length, read_length]
    exact Nat.le_div_iff_mul_le hpos |>.mpr (by rw [Nat.succ_mul]; exact hm)
  · exact hfaults
  · rw [Nat.zero_mul]
    exact hcopied
  · intro k hk d hd
    rw [wordCommands_get]
    rw [wordCommands_length, read_length] at hk
    rw [← Nat.zero_add (k * D.writeSize)] at hd
    have hstep := chunk_step h hcopied.requested (show 0 + min COPY_CHUNK (copyLen D image) ≤ L.maxImageLen by omega)
      (show 0 + min COPY_CHUNK (copyLen D image) ≤ stop by omega) hslot hk hd
    simp only [Nat.zero_add, Nat.add_zero] at hstep
    exact hstep
  · exact hcut

/-- **The cut**: after the erase and the words that hold the header's magic. -/
theorem cut_behind_magic (h : Staged D L C key f₀ image) (hnarrow : D.writeSize < 24) :
    Copied L f₀ (L.roundUp (copyLen D image)) (divCeil 4 D.writeSize * D.writeSize)
      (bootCut D L C key f₀ (L.roundUp (copyLen D image) / D.eraseSize + divCeil 4 D.writeSize)) := by
  obtain ⟨hlow, hhigh⟩ := h.stop_bounds
  obtain ⟨himage, hround, hslot⟩ := h.fits.copyLen_bounds hhigh
  obtain ⟨-, hbehind, hword⟩ := words_of_narrow h.fits.word_chunk hnarrow
  unfold bootCut
  apply disk_of_wp
  unfold boot processRequest
  simp only [wp_bind, wp_getDisk]
  rw [if_neg (by rw [h.magic]; simp), h.valid]
  simp only [h.accepts, Bool.false_eq_true, if_false]
  unfold install
  simp only [wp_bind]
  apply erase_pass h
  · rw [List.replicate_add, List.append_assoc]
  · exact h.requested
  · exact h.accepts
  · intro d hd
    apply first_words h (m := divCeil 4 D.writeSize) hd hround (hslot.trans (Nat.sub_le _ _)) (hround.trans hslot)
    · rw [Nat.succ_mul]
      unfold COPY_CHUNK
      omega
    · rfl
    · exact fun d' hd' => hd'

theorem not_safe_of_not_keepsOrder (h : Staged D L C key f₀ image) (hcond : ¬ KeepsOrder D image) :
    ¬ PowerFailSafe D L C key f₀ image := by
  intro hsafe
  obtain ⟨hnarrow, hlast⟩ := not_or.mp hcond
  have hwords := words_of_narrow h.fits.word_chunk (Nat.not_le.mp hnarrow)
  obtain ⟨hlow, hhigh⟩ := h.stop_bounds
  obtain ⟨himage, hround, -⟩ := h.fits.copyLen_bounds hhigh
  have hlost := (cut_behind_magic h (Nat.not_le.mp hnarrow)).lost h hlast ⟨hwords.1, hwords.2.1⟩ (by omega)
  obtain ⟨b, w, hboot, -⟩ := hsafe [L.roundUp (copyLen D image) / D.eraseSize + divCeil 4 D.writeSize]
  unfold wp at hlost
  rw [List.foldl_cons, List.foldl_nil] at hboot
  rw [hboot] at hlost
  exact hlost

/-- **Power-fail safety.** -/
theorem boot_power_fail_safe_iff (h : Staged D L C key f₀ image) : PowerFailSafe D L C key f₀ image ↔ KeepsOrder D image :=
  ⟨fun hsafe => not_not.mp fun hcond => not_safe_of_not_keepsOrder h hcond hsafe, safe_of_keepsOrder h⟩

end

/-! ## A signed image -/

def signedBytes : Buf :=
  [0x3D, 0xB8, 0xF3, 0x96, 0x00, 0x00, 0x00, 0x00, 0x20, 0x00, 0x00, 0x00, 0x04, 0x00, 0x00, 0x00, 0x00, 0x00, 0x00, 0x00,
    0x01, 0x00, 0x00, 0x00, 0x00, 0x00, 0x00, 0x00, 0x00, 0x00, 0x00, 0x00, 0xDE, 0xAD, 0xBE, 0xEF]

/-- The SHA-256 digest of `signedBytes`. -/
def signedDigest : Buf :=
  [0xDD, 0x56, 0xE5, 0x2D, 0xD2, 0xD7, 0x84, 0x2C, 0x42, 0x98, 0xA1, 0xD5, 0x11, 0x63, 0x5A, 0xFA, 0x7B, 0x6A, 0xBD, 0xAF,
    0xB3, 0x6A, 0x0E, 0x40, 0xDC, 0x85, 0xB4, 0x92, 0x33, 0x5F, 0xA4, 0x5F]

def vendorKey : TrustedKey :=
  ⟨#v[0x70, 0x6C, 0xF8, 0xF5, 0xCF, 0x92, 0xBD, 0xBB, 0x12, 0xDC, 0x0E, 0x02, 0xA0, 0xE9, 0xE7, 0x19, 0xD8, 0x22, 0xC5, 0xC7,
    0x99, 0x43, 0x0D, 0xA3, 0x36, 0xDF, 0xD8, 0xCB, 0x5F, 0xAA, 0x88, 0x8D, 0xCA, 0x61, 0x0B, 0x13, 0x9C, 0x04, 0xBF, 0x88,
    0x74, 0x8E, 0xD6, 0x3C, 0x1F, 0xA0, 0xFE, 0x20, 0x79, 0x42, 0xC1, 0xEB, 0xAB, 0x55, 0x65, 0x28, 0x38, 0x65, 0xA1, 0x51,
    0x09, 0xA7, 0x18, 0x8E]⟩

/-- The SHA-256 digest of `vendorKey` as a public key. -/
def vendorKeyHash : Buf :=
  [0x5F, 0x21, 0x73, 0x6A, 0x8B, 0x67, 0xF3, 0x0F, 0x8B, 0x46, 0xC9, 0xC1, 0x46, 0xDB, 0x0C, 0xAC, 0xB2, 0x89, 0xE4, 0x7C,
    0xC4, 0xA2, 0x66, 0x28, 0xD8, 0xF0, 0x01, 0x52, 0x4D, 0xB3, 0x9D, 0x46]

/-- The owner of `vendorKey` signs `signedDigest`. -/
def signature : Buf :=
  [0x30, 0x44, 0x02, 0x20, 0x03, 0xB1, 0x63, 0xF7, 0x0C, 0x35, 0x54, 0x63, 0xA1, 0xE7, 0xBE, 0xFB, 0xE3, 0xCC, 0xE8, 0xBF,
    0xC4, 0x9D, 0x4B, 0x8E, 0x45, 0xDA, 0x20, 0x95, 0x15, 0xEB, 0xE3, 0x00, 0x47, 0x2C, 0x59, 0xF9, 0x02, 0x20, 0x7A, 0x74,
    0x52, 0x62, 0xA4, 0x85, 0x1D, 0x31, 0x13, 0x5C, 0xDE, 0xDB, 0x3B, 0x70, 0x16, 0x1A, 0xB3, 0x6D, 0xD8, 0x9E, 0x1D, 0x8E,
    0x99, 0x13, 0x89, 0x11, 0x51, 0x91, 0xA5, 0x6C, 0x89, 0xDE]

def imageBytes : Buf :=
  signedBytes ++ [0x07, 0x69, 0x96, 0x00, 0x10, 0x00, 0x20, 0x00] ++ signedDigest ++ [0x01, 0x00, 0x20, 0x00] ++ vendorKeyHash ++
    [0x22, 0x00, 0x46, 0x00] ++ signature

/-- SHA-256 and P-256 on the values above. -/
def signedCrypto : Crypto where
  sha256 b := if b = signedBytes then signedDigest else vendorKeyHash
  verify key digest der := decide (key = vendorKey.xy.toList ∧ digest = signedDigest ∧ der = signature)

def signedImage : ValidImage := ⟨⟨0, 32, 0, 4, 0, ⟨1, 0, 0, 0⟩⟩, 186, signedDigest⟩

def smallLayout : Layout := ⟨0, 512, 512, 256⟩

/-- An erased primary slot, and a secondary slot with the image and the request. -/
def requestedFlash : Flash := fun a => if a < 1008 then imageBytes.getD (a - 512) 0xFF else BOOT_MAGIC.getD (a - 1008) 0xFF

theorem signedImage_staged {D : Device} (hfits : smallLayout.Fits D) :
    Staged D smallLayout signedCrypto vendorKey requestedFlash signedImage where
  fits := hfits
  magic := by decide +kernel
  valid := by decide +kernel
  accepts := by decide +kernel


theorem smallLayout_fits {word : Nat} (hpos : 0 < word) (hword : word ∣ 256) : smallLayout.Fits ⟨256, word⟩ where
  erase_pos := show 0 < 256 by decide
  write_pos := hpos
  sector_pos := by decide
  word_chunk := hword
  word_unit := hword
  unit_sector := show 256 ∣ 256 from dvd_refl _
  sector_slot := by decide
  primary_aligned := by decide
  secondary_aligned := by decide
  disjoint := by decide
  addresses := by decide

/-- With 32-byte words the image is installed after any cuts. -/
theorem wide_words_safe : PowerFailSafe ⟨256, 32⟩ smallLayout signedCrypto vendorKey requestedFlash signedImage :=
  (boot_power_fail_safe_iff (signedImage_staged (smallLayout_fits (by decide) (by decide)))).mpr (by unfold KeepsOrder; decide)

/-- With 4-byte words there are cuts after which nothing boots. -/
theorem narrow_words_counterexample : Staged ⟨256, 4⟩ smallLayout signedCrypto vendorKey requestedFlash signedImage ∧
    ¬ PowerFailSafe ⟨256, 4⟩ smallLayout signedCrypto vendorKey requestedFlash signedImage := by
  have hstaged := signedImage_staged (smallLayout_fits (show 0 < 4 by decide) (show 4 ∣ 256 by decide))
  refine ⟨hstaged, not_safe_of_not_keepsOrder hstaged ?_⟩
  unfold KeepsOrder
  decide

end Zigbee.Mcuboot
