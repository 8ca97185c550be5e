import Zigbee.Crypto.AesMmo
import Zigbee.Lib.ReflectedCrc
import Zigbee.Runtime.TrustCenterTable

/-!
# Installation codes

An installation code is 6, 8, 12 or 16 bytes and their CRC-16/X-25, and its link key is the AES-MMO hash
of all of them.

* `ValidInstallCode` — the check sequence by division of polynomials.
* `derive_settles`, `derive_refuses` — what the derivation accepts.
* `not_valid_of_burst` — no change within sixteen bits of a valid code gives a valid one.
-/

namespace Zigbee.Crypto

open Polynomial
open Zigbee.Runtime (InstallCodeError)
open ReflectedCrc

/-! ## The code -/

def installCodeCrcStep (crc : UInt16) : UInt16 := if crc &&& 1 ≠ 0 then (crc >>> 1) ^^^ 0x8408 else crc >>> 1

def installCodeCrc (data : List UInt8) : UInt16 :=
  ~~~ data.foldl (fun crc byte => installCodeCrcStep^[8] (crc ^^^ byte.toUInt16)) 0xFFFF

/-- `u16::from_le_bytes` -/
def fromLeBytes (lo hi : UInt8) : UInt16 := lo.toUInt16 ||| (hi.toUInt16 <<< 8)

section
variable {σ ε : Type} (P : ForwardAesProvider σ ε)

def deriveInstallCodeKeyWith (code : List UInt8) : Hashing σ ε InstallCodeError AesKey :=
  if h : code.length = 8 ∨ code.length = 10 ∨ code.length = 14 ∨ code.length = 18 then
    let dataLen := code.length - 2
    have hlen : dataLen + 2 = code.length := by omega
    let expectedCrc := fromLeBytes code[dataLen] code[dataLen + 1]
    if installCodeCrc (slice code 0 dataLen (by omega)) ≠ expectedCrc then throw .invalidCrc
    else ExceptT.adapt (fun _ => .cipherFailure) (aesMmoHashWith P code)
  else throw .invalidLength

end

/-! ## The check sequence -/

abbrev X25 : BitVec 16 := 0x8408

/-- The bytes as the register reads them. -/
def bits (data : List UInt8) : List (BitVec 8) := data.map UInt8.toBitVec

theorem generator_X25 : generator X25 = X ^ 16 + X ^ 12 + X ^ 5 + 1 := by
  have hpoly : poly X25 = X ^ 12 + X ^ 5 + 1 := by
    simp [poly, Finset.sum_range_succ, coefficient]
  rw [generator, hpoly]
  ring

theorem toBitVec_step (crc : UInt16) : (installCodeCrcStep crc).toBitVec = ReflectedCrc.step X25 crc.toBitVec := by
  have hbit : crc &&& 1 ≠ 0 ↔ crc.toBitVec.getLsbD 0 = true := by
    have hone : (crc &&& 1).toBitVec = BitVec.setWidth 16 (BitVec.ofBool (crc.toBitVec.getLsbD 0)) :=
      BitVec.and_one_eq_setWidth_ofBool_getLsbD
    rw [Ne, ← UInt16.toBitVec_inj, hone]
    cases crc.toBitVec.getLsbD 0 <;> decide
  unfold installCodeCrcStep ReflectedCrc.step
  by_cases h : crc.toBitVec.getLsbD 0 = true
  · rw [if_pos (hbit.mpr h), if_pos h]
    rfl
  · rw [if_neg (mt hbit.mp h), if_neg h]
    rfl

theorem toBitVec_steps (crc : UInt16) (n : Nat) :
    (installCodeCrcStep^[n] crc).toBitVec = (ReflectedCrc.step X25)^[n] crc.toBitVec := by
  induction n generalizing crc with
  | zero => rfl
  | succ n ih => rw [Function.iterate_succ_apply, Function.iterate_succ_apply, ih, toBitVec_step]

theorem toBitVec_register (crc : UInt16) (data : List UInt8) :
    (data.foldl (fun crc byte => installCodeCrcStep^[8] (crc ^^^ byte.toUInt16)) crc).toBitVec =
      (bits data).foldl (feed X25) crc.toBitVec := by
  induction data generalizing crc with
  | nil => rfl
  | cons byte rest ih =>
    rw [List.foldl_cons, ih, toBitVec_steps]
    rfl

/-- Sixteen ones. -/
noncomputable def ones : (ZMod 2)[X] := poly (BitVec.allOnes 16)

variable (data : List UInt8)

/-- **The check sequence is a remainder**: that of the data behind sixteen ones, complemented. -/
theorem poly_installCodeCrc :
    poly (installCodeCrc data).toBitVec =
      ones + (X ^ (8 * data.length) * ones + X ^ 16 * message (bits data)) %ₘ (X ^ 16 + X ^ 12 + X ^ 5 + 1) := by
  have hnot : (installCodeCrc data).toBitVec =
      BitVec.allOnes 16 ^^^ (bits data).foldl (feed X25) (BitVec.allOnes 16) := by
    rw [BitVec.allOnes_xor, show (BitVec.allOnes 16) = (0xFFFF : UInt16).toBitVec from rfl, ← toBitVec_register]
    rfl
  have hlength : (bits data).length = data.length := List.length_map _
  rw [hnot, poly_xor, register_eq_mod _ _ (by decide), hlength, generator_X25]
  rfl

/-- The two bytes of a check sequence are read in the order of its bits. -/
theorem poly_fromLeBytes (lo hi : UInt8) :
    poly (fromLeBytes lo hi).toBitVec = message (bits [lo, hi]) := by
  ext k
  rw [coeff_poly, coeff_message]
  change (if k < 16 then _ else 0) = if k < 16 then _ else 0
  split
  · congr 1
    have hword : (fromLeBytes lo hi).toBitVec = lo.toBitVec.setWidth 16 ||| (hi.toBitVec.setWidth 16 <<< 8) := rfl
    rw [hword, BitVec.getLsbD_or, BitVec.getLsbD_setWidth, BitVec.getLsbD_shiftLeft, BitVec.getLsbD_setWidth,
      bitAt]
    change _ = ([lo.toBitVec, hi.toBitVec].getD ((16 - 1 - k) / 8) 0#8).getLsbD ((16 - 1 - k) % 8)
    by_cases hhigh : 16 - 1 - k < 8
    · rw [show (16 - 1 - k) / 8 = 0 by omega, show (16 - 1 - k) % 8 = 16 - 1 - k by omega]
      simp [hhigh]
      omega
    · rw [show (16 - 1 - k) / 8 = 1 by omega, show (16 - 1 - k) % 8 = 16 - 1 - k - 8 by omega,
        BitVec.getLsbD_of_ge lo.toBitVec _ (by omega)]
      have hin : 16 - 1 - k < 16 ∧ 16 - 1 - k - 8 < 16 := by omega
      simp [hhigh, hin]
  · rfl

/-! ## What is accepted -/

/-- The data are 6, 8, 12 or 16 bytes, and two more bytes are the remainder of CRC-16/X-25. -/
structure ValidInstallCode (code : List UInt8) : Prop where
  length : code.length = 8 ∨ code.length = 10 ∨ code.length = 14 ∨ code.length = 18
  crc : ∃ data lo hi, code = data ++ [lo, hi] ∧ message (bits [lo, hi]) =
    ones + (X ^ (8 * data.length) * ones + X ^ 16 * message (bits data)) %ₘ (X ^ 16 + X ^ 12 + X ^ 5 + 1)

theorem crc_eq_iff (lo hi : UInt8) :
    installCodeCrc data = fromLeBytes lo hi ↔ message (bits [lo, hi]) =
      ones + (X ^ (8 * data.length) * ones + X ^ 16 * message (bits data)) %ₘ (X ^ 16 + X ^ 12 + X ^ 5 + 1) := by
  rw [← poly_installCodeCrc, ← poly_fromLeBytes]
  constructor
  · intro h
    rw [h]
  · intro h
    exact (UInt16.toBitVec_inj.mp (poly_injective h)).symm

section
variable {σ ε : Type} {P : ForwardAesProvider σ ε} {code : List UInt8}

/-- The code in its data and its check sequence. -/
theorem exists_split (h : 2 ≤ code.length) : ∃ data lo hi, code = data ++ [lo, hi] := by
  refine ⟨code.take (code.length - 2), code[code.length - 2], code[code.length - 1], ?_⟩
  have hdrop : code.drop (code.length - 2) = [code[code.length - 2], code[code.length - 1]] := by
    rw [List.drop_eq_getElem_cons (by omega), List.drop_eq_getElem_cons (by omega), List.drop_eq_nil_of_le (by omega)]
    congr
    omega
  rw [← hdrop, List.take_append_drop]

theorem derive_split (lo hi : UInt8)
    (h : (data ++ [lo, hi]).length = 8 ∨ (data ++ [lo, hi]).length = 10 ∨ (data ++ [lo, hi]).length = 14 ∨
      (data ++ [lo, hi]).length = 18) :
    deriveInstallCodeKeyWith P (data ++ [lo, hi]) =
      if installCodeCrc data ≠ fromLeBytes lo hi then throw .invalidCrc
      else ExceptT.adapt (fun _ => .cipherFailure) (aesMmoHashWith P (data ++ [lo, hi])) := by
  have hlength : (data ++ [lo, hi]).length - 2 = data.length := by simp
  have hdata : slice (data ++ [lo, hi]) 0 ((data ++ [lo, hi]).length - 2) (by omega) = data := by
    unfold slice
    rw [List.drop_zero, Nat.sub_zero, hlength, List.take_left]
  rw [deriveInstallCodeKeyWith, dif_pos h]
  dsimp only
  rw [hdata]
  simp

/-- **A valid code gives the hash of all its bytes**, or the failure of the cipher. -/
theorem derive_settles (h : ValidInstallCode code) :
    Settles P .cipherFailure (deriveInstallCodeKeyWith P code) (Mmo.hash P.cipher code) := by
  obtain ⟨data, lo, hi, rfl, hcrc⟩ := h.crc
  rw [derive_split data lo hi h.length, if_neg (not_not.mpr ((crc_eq_iff data lo hi).mpr hcrc))]
  intro s
  have hrun : ExceptT.adapt (fun _ => InstallCodeError.cipherFailure) (aesMmoHashWith P (data ++ [lo, hi])) s =
      ((aesMmoHashWith P (data ++ [lo, hi]) s).1.mapError fun _ => .cipherFailure,
        (aesMmoHashWith P (data ++ [lo, hi]) s).2) := rfl
  rw [hrun]
  have hshort : (data ++ [lo, hi]).length < 8192 := by
    have := h.length
    omega
  rcases aesMmoHashWith_settles (P := P) hshort s with ⟨t, ht⟩ | ⟨hfail, t, ht⟩
  · rw [ht]
    exact Or.inl ⟨t, rfl⟩
  · rw [ht]
    exact Or.inr ⟨hfail, t, rfl⟩

/-- **Any other string is refused** before the cipher is asked. -/
theorem derive_refuses (h : ¬ ValidInstallCode code) (s : EngineState σ ε) :
    ∃ e, e ≠ .cipherFailure ∧ deriveInstallCodeKeyWith P code s = (.error e, s) := by
  by_cases hlength : code.length = 8 ∨ code.length = 10 ∨ code.length = 14 ∨ code.length = 18
  · have htwo : 2 ≤ code.length := by omega
    obtain ⟨data, lo, hi, rfl⟩ := exists_split htwo
    refine ⟨.invalidCrc, by decide, ?_⟩
    rw [derive_split data lo hi hlength, if_pos fun hcrc => h ⟨hlength, data, lo, hi, rfl, (crc_eq_iff data lo hi).mp hcrc⟩]
    rfl
  · refine ⟨.invalidLength, by decide, ?_⟩
    rw [deriveInstallCodeKeyWith, dif_neg hlength]
    rfl

end

/-! ## Changes of a valid code -/

/-- Bit `k` of a string, the least significant bit of each byte first: the order of the check sequence. -/
def bitLsb (code : List UInt8) (k : Nat) : Bool := (code.getD (k / 8) 0).toBitVec.getLsbD (k % 8)

/-- Bit `k` of a string, the most significant bit of each byte first. -/
def bitMsb (code : List UInt8) (k : Nat) : Bool := (code.getD (k / 8) 0).toBitVec.getMsbD (k % 8)

/-- The strings differ only in the sixteen bits from `s` on. -/
def DifferWithin (bit : List UInt8 → Nat → Bool) (a b : List UInt8) (s : Nat) : Prop :=
  ∀ k, bit a k ≠ bit b k → s ≤ k ∧ k < s + 16

theorem bitAt_bits (code : List UInt8) (k : Nat) : bitAt (bits code) k = bitLsb code k := by
  unfold bitAt bitLsb bits
  rw [List.getD_eq_getElem?_getD, List.getD_eq_getElem?_getD, List.getElem?_map]
  cases code[k / 8]? <;> rfl

theorem coeff_zero_X25 : (generator X25).coeff 0 = 1 := by
  rw [generator_X25]
  simp

/-- The residue of a valid code is the same for all codes of its length. -/
theorem ValidInstallCode.residue {code : List UInt8} (h : ValidInstallCode code) :
    ReflectedCrc.residue X25 (message (bits code)) =
      ReflectedCrc.residue X25 (ones + X ^ (8 * (code.length - 2)) * ones) := by
  obtain ⟨data, lo, hi, rfl, hcrc⟩ := h.crc
  have hdata : (data ++ [lo, hi]).length - 2 = data.length := by simp
  have hmod : ∀ p, ReflectedCrc.residue X25 (p %ₘ (X ^ 16 + X ^ 12 + X ^ 5 + 1)) = ReflectedCrc.residue X25 p := by
    intro p
    rw [← generator_X25]
    have hinverse := AdjoinRoot.mk_leftInverse (generator_monic (c := X25)) (ReflectedCrc.residue X25 p)
    rwa [AdjoinRoot.modByMonicHom_mk] at hinverse
  have happend : bits (data ++ [lo, hi]) = bits data ++ bits [lo, hi] := List.map_append
  have hcancel : ∀ m n : (ZMod 2)[X], m + (ones + (n + m)) = ones + n := by
    intro m n
    calc m + (ones + (n + m)) = ones + n + (m + m) := by ring
      _ = ones + n := by rw [add_self, add_zero]
  rw [hdata, happend, message_append, hcrc, map_add, map_add, hmod, ← map_add, ← map_add]
  exact congrArg _ (hcancel _ _)

section
variable {a b : List UInt8}

theorem generator_dvd (ha : ValidInstallCode a) (hb : ValidInstallCode b) (hlength : a.length = b.length) :
    generator X25 ∣ message (bits a) - message (bits b) :=
  AdjoinRoot.mk_eq_mk.mp (ha.residue.trans (by rw [hb.residue, hlength]))

theorem bits_injective (h : bits a = bits b) : a = b :=
  List.map_injective_iff.mpr (fun _ _ => UInt8.eq_of_toBitVec_eq) h

theorem length_bits : (bits data).length = data.length := List.length_map _

theorem bitLsb_past {k : Nat} (h : 8 * a.length ≤ k) : bitLsb a k = false := by
  rw [bitLsb, List.getD_eq_getElem?_getD, List.getElem?_eq_none (by omega)]
  exact BitVec.getLsbD_zero

/-- Valid codes of one length do not differ in sixteen bits of the order of the check sequence. -/
theorem eq_of_lsb (ha : ValidInstallCode a) (hb : ValidInstallCode b) (hlength : a.length = b.length) {s : Nat}
    (h : DifferWithin bitLsb a b s) : a = b := by
  have hbits : (bits a).length = (bits b).length := by rw [length_bits, length_bits, hlength]
  have hcoeff : ∀ k, (k < 8 * a.length → 8 * a.length - 1 - k < s ∨ s + 16 ≤ 8 * a.length - 1 - k) →
      (message (bits a) - message (bits b)).coeff k = 0 := by
    intro k hk
    refine coeff_message_sub hbits fun hlt => ?_
    rw [length_bits] at hlt ⊢
    rw [bitAt_bits, bitAt_bits]
    by_contra hne
    have := h _ hne
    have := hk hlt
    omega
  have hzero := eq_zero_of_burst (t := 8 * a.length - (s + 16)) coeff_zero_X25
    (fun k hk => hcoeff k fun _ => by omega) (fun k hk => hcoeff k fun _ => by omega) (generator_dvd ha hb hlength)
  exact bits_injective (message_injective hbits (sub_eq_zero.mp hzero))

/-- A multiple of the generator by `q`, coefficient by coefficient. -/
theorem coeff_generator_mul (q : (ZMod 2)[X]) (k : Nat) :
    (generator X25 * q).coeff k =
      (if 16 ≤ k then q.coeff (k - 16) else 0) + (if 12 ≤ k then q.coeff (k - 12) else 0) +
        (if 5 ≤ k then q.coeff (k - 5) else 0) + q.coeff k := by
  rw [generator_X25, add_mul, add_mul, add_mul, one_mul, coeff_add, coeff_add, coeff_add, coeff_X_pow_mul', coeff_X_pow_mul',
    coeff_X_pow_mul']

/-- A multiple of the generator of three bytes that has nothing below bit `m` of the first and nothing from bit `m` on
    in the last is zero. -/
theorem eq_zero_of_three {q : (ZMod 2)[X]} {m : Nat} (hq : ∀ k, 8 ≤ k → q.coeff k = 0)
    (hhigh : ∀ v, v < m → (generator X25 * q).coeff (16 + v) = 0)
    (hlow : ∀ v, m ≤ v → v < 8 → (generator X25 * q).coeff v = 0) : q = 0 := by
  have hfirst : ∀ v, v < m → q.coeff v + q.coeff (v + 4) = 0 := by
    intro v hv
    have := hhigh v hv
    rw [coeff_generator_mul, if_pos (by omega), if_pos (by omega), if_pos (by omega), hq (16 + v) (by omega),
      hq (16 + v - 5) (by omega), add_zero, add_zero, Nat.add_sub_cancel_left, show 16 + v - 12 = v + 4 by omega] at this
    exact this
  have hlast : ∀ v, m ≤ v → v < 8 → (if 5 ≤ v then q.coeff (v - 5) else 0) + q.coeff v = 0 := by
    intro v hv hv8
    have := hlow v hv hv8
    rw [coeff_generator_mul, if_neg (by omega), if_neg (by omega), zero_add, zero_add] at this
    exact this
  -- one coefficient after the other: each is tied to one that is already known to be zero
  have hstep : ∀ v, v < 8 → q.coeff (v + 4) = 0 → (5 ≤ v → q.coeff (v - 5) = 0) → q.coeff v = 0 := by
    intro v hv hnext hback
    by_cases hvm : v < m
    · have := hfirst v hvm
      rwa [hnext, add_zero] at this
    · have := hlast v (by omega) hv
      split at this
      · rename_i h5
        rwa [hback h5, zero_add] at this
      · rwa [zero_add] at this
  have h4 := hstep 4 (by decide) (hq 8 (by decide)) fun h => absurd h (by decide)
  have h0 := hstep 0 (by decide) h4 fun h => absurd h (by decide)
  have h5 := hstep 5 (by decide) (hq 9 (by decide)) fun _ => h0
  have h1 := hstep 1 (by decide) h5 fun h => absurd h (by decide)
  have h6 := hstep 6 (by decide) (hq 10 (by decide)) fun _ => h1
  have h2 := hstep 2 (by decide) h6 fun h => absurd h (by decide)
  have h7 := hstep 7 (by decide) (hq 11 (by decide)) fun _ => h2
  have h3 := hstep 3 (by decide) h7 fun h => absurd h (by decide)
  have hall : ∀ v, v < 8 → q.coeff v = 0 := by
    intro v hv
    interval_cases v <;> assumption
  ext k
  by_cases hk : k < 8
  · rw [hall k hk, coeff_zero]
  · rw [hq k (by omega), coeff_zero]

/-- Valid codes of one length do not differ in sixteen bits that are counted from the most significant bit of each
    byte. -/
theorem eq_of_msb (ha : ValidInstallCode a) (hb : ValidInstallCode b) (hlength : a.length = b.length) {s : Nat}
    (h : DifferWithin bitMsb a b s) : a = b := by
  have hmsb : ∀ code k, bitLsb code k = bitMsb code (8 * (k / 8) + (7 - k % 8)) := by
    intro code k
    rw [bitLsb, bitMsb, show (8 * (k / 8) + (7 - k % 8)) / 8 = k / 8 by omega,
      show (8 * (k / 8) + (7 - k % 8)) % 8 = 7 - k % 8 by omega, BitVec.getMsbD_eq_getLsbD, decide_eq_true (by omega),
      Bool.true_and]
    congr 1
    omega
  have hchanged : ∀ k, bitLsb a k ≠ bitLsb b k → s ≤ 8 * (k / 8) + (7 - k % 8) ∧ 8 * (k / 8) + (7 - k % 8) < s + 16 := by
    intro k hk
    rw [hmsb, hmsb] at hk
    exact h _ hk
  have hinside : ∀ k, bitLsb a k ≠ bitLsb b k → k < 8 * a.length := by
    intro k hk
    by_contra hge
    rw [bitLsb_past (by omega), bitLsb_past (by omega)] at hk
    exact hk rfl
  by_cases haligned : s % 8 = 0 ∨ 8 * a.length ≤ 8 * (s / 8) + 16
  · -- two whole bytes, in either order
    refine eq_of_lsb ha hb hlength (s := 8 * (s / 8)) fun k hk => ?_
    have := hchanged k hk
    have := hinside k hk
    omega
  · -- the last bits of one byte, the next byte, and the first bits of a third
    have hbits : (bits a).length = (bits b).length := by rw [length_bits, length_bits, hlength]
    have hcoeff : ∀ k, (k < 8 * a.length → bitLsb a (8 * a.length - 1 - k) = bitLsb b (8 * a.length - 1 - k)) →
        (message (bits a) - message (bits b)).coeff k = 0 := by
      intro k hk
      refine coeff_message_sub hbits fun hlt => ?_
      rw [length_bits] at hlt ⊢
      rw [bitAt_bits, bitAt_bits, hk hlt]
    have hsame : ∀ k, k < 8 * a.length → (8 * (k / 8) + (7 - k % 8) < s ∨ s + 16 ≤ 8 * (k / 8) + (7 - k % 8)) →
        bitLsb a k = bitLsb b k := by
      intro k _ hout
      by_contra hne
      have := hchanged k hne
      omega
    have hdvd := generator_dvd ha hb hlength
    have hlow : ∀ k, k < 8 * a.length - 8 * (s / 8) - 24 →
        (message (bits a) - message (bits b)).coeff k = 0 :=
      fun k hk => hcoeff k fun hlt => hsame _ (by omega) (by omega)
    obtain ⟨p, hp⟩ := X_pow_dvd_iff.mpr hlow
    rw [hp] at hdvd
    obtain ⟨q, rfl⟩ := (isCoprime_X_pow coeff_zero_X25 _).dvd_of_dvd_mul_left hdvd
    have hcoeffs : ∀ k, (generator X25 * q).coeff k =
        (message (bits a) - message (bits b)).coeff (k + (8 * a.length - 8 * (s / 8) - 24)) := by
      intro k
      rw [hp, coeff_X_pow_mul]
    have hdegree : ∀ k, 8 ≤ k → q.coeff k = 0 := by
      intro k hk
      by_contra hne
      have hq : q ≠ 0 := by
        rintro rfl
        exact hne (coeff_zero k)
      have hproduct : generator X25 * q ≠ 0 := mul_ne_zero generator_monic.ne_zero hq
      have hnat : (generator X25 * q).natDegree = 16 + q.natDegree := by
        rw [generator_monic.natDegree_mul' hq, natDegree_eq_of_degree_eq_some degree_generator]
      have hlarge : k ≤ q.natDegree := le_natDegree_of_ne_zero hne
      refine leadingCoeff_ne_zero.mpr hproduct ?_
      rw [leadingCoeff, hnat, hcoeffs]
      exact hcoeff _ fun hlt => hsame _ (by omega) (by omega)
    have hzero := eq_zero_of_three (m := s % 8) hdegree
      (fun v hv => by
        rw [hcoeffs]
        exact hcoeff _ fun hlt => hsame _ (by omega) (by omega))
      (fun v hv hv8 => by
        rw [hcoeffs]
        exact hcoeff _ fun hlt => hsame _ (by omega) (by omega))
    rw [hzero, mul_zero, mul_zero] at hp
    exact bits_injective (message_injective hbits (sub_eq_zero.mp hp))

/-- **A change within sixteen consecutive bits of a valid code is refused**, in either order of the bits of a byte. -/
theorem not_valid_of_burst (ha : ValidInstallCode a) (hlength : a.length = b.length) (hne : a ≠ b) {s : Nat}
    (h : DifferWithin bitLsb a b s ∨ DifferWithin bitMsb a b s) : ¬ ValidInstallCode b := by
  intro hb
  rcases h with h | h
  · exact hne (eq_of_lsb ha hb hlength h)
  · exact hne (eq_of_msb ha hb hlength h)

end

/-! ## The hash and the codes -/

/-- The outcome is a key. -/
def Accepts {σ ε η : Type} (x : Hashing σ ε η AesKey) (s : EngineState σ ε) : Prop := ∃ key t, x s = (.ok key, t)

section
variable {σ ε : Type} (P : ForwardAesProvider σ ε)

/-- With a cipher that does not fail, what is accepted is what is valid. -/
theorem derive_accepts_iff (hcipher : ¬ P.MayFail) (code : List UInt8) (s : EngineState σ ε) :
    Accepts (deriveInstallCodeKeyWith P code) s ↔ ValidInstallCode code := by
  constructor
  · rintro ⟨key, t, ht⟩
    by_contra hinvalid
    obtain ⟨e, -, he⟩ := derive_refuses (P := P) hinvalid s
    rw [he] at ht
    cases ht
  · intro h
    rcases derive_settles (P := P) h s with ⟨t, ht⟩ | ⟨hfail, -⟩
    · exact ⟨_, t, ht⟩
    · exact absurd hfail hcipher

/-- AES-MMO is the iteration over the padded message for every block cipher, its padding is injective, and messages
    from 8192 bytes on are refused; an installation code is accepted exactly if it is valid, and a change within sixteen
    consecutive bits of a valid one is refused. -/
theorem aes_mmo_and_install_codes :
    (∀ data : List UInt8, data.length < 8192 → Settles P .cipherFailure (aesMmoHashWith P data) (Mmo.hash P.cipher data)) ∧
    (∀ data : List UInt8, 8192 ≤ data.length → ∀ s, aesMmoHashWith P data s = (.error .inputTooLong, s)) ∧
    (∀ data : List UInt8, ∃ z,
      Mmo.pad data = data ++ (0x80 :: List.replicate z 0 ++ Ccm.bigEndian 2 (8 * data.length)) ∧
      (Mmo.pad data).length = 16 * (data.length / 16 + if 14 ≤ data.length % 16 then 2 else 1) ∧
      ∀ z', 16 ∣ data.length + 1 + z' + 2 → z ≤ z') ∧
    (∀ a b : List UInt8, a.length < 8192 → b.length < 8192 → Mmo.pad a = Mmo.pad b → a = b) ∧
    (∀ code, ValidInstallCode code → Settles P .cipherFailure (deriveInstallCodeKeyWith P code) (Mmo.hash P.cipher code)) ∧
    (∀ code, ¬ ValidInstallCode code → ∀ s, ∃ e, e ≠ .cipherFailure ∧ deriveInstallCodeKeyWith P code s = (.error e, s)) ∧
    (¬ P.MayFail → ∀ code s, Accepts (deriveInstallCodeKeyWith P code) s ↔ ValidInstallCode code) ∧
    ∀ a b s, ValidInstallCode a → a.length = b.length → a ≠ b → DifferWithin bitLsb a b s ∨ DifferWithin bitMsb a b s →
      ¬ ValidInstallCode b :=
  ⟨fun _ h => aesMmoHashWith_settles h, fun _ h s => aesMmoHashWith_long h s,
    fun data => ⟨Mmo.zeros data.length, rfl, Mmo.length_pad data, fun _ h => Mmo.zeros_least h⟩,
    fun _ _ ha hb h => Mmo.pad_injective ha hb h, fun _ h => derive_settles h, fun _ h s => derive_refuses h s,
    fun h code s => derive_accepts_iff P h code s, fun _ _ _ ha hlength hne h => not_valid_of_burst ha hlength hne h⟩

end

/-! ## The software cipher -/

/-- `SoftwareAesProvider`, with `E` for AES-128. -/
def softwareAesProvider (E : Ccm.Block → Ccm.Block → Ccm.Block) : ForwardAesProvider Unit Empty where
  forwardCipher key := ⟨E key, fun _ _ => none, fun s _ => s⟩

theorem softwareAesProvider_total (E : Ccm.Block → Ccm.Block → Ccm.Block) : ¬ (softwareAesProvider E).MayFail := by
  rintro ⟨k, s, m, h⟩
  exact h rfl

/-! ## A code -/

def exampleCode : List UInt8 :=
  [0x88, 0x77, 0x66, 0x55, 0x44, 0x33, 0x22, 0x11, 0x11, 0x22, 0x33, 0x44, 0x55, 0x66, 0x77, 0x88, 0xD4, 0x90]

/-- The first byte of the code is changed. -/
def changedCode : List UInt8 := 0x89 :: exampleCode.tail

/-- A permutation for every key. -/
def whiten (key block : AesKey) : AesKey := key.zipWith (· ^^^ ·) block

/-- The code is accepted, and the changed one is not. -/
theorem exampleCode_accepted :
    Accepts (deriveInstallCodeKeyWith (softwareAesProvider whiten) exampleCode) ⟨(), []⟩ ∧ ¬ ValidInstallCode changedCode := by
  obtain ⟨-, -, -, -, -, -, haccepts, hburst⟩ := aes_mmo_and_install_codes (softwareAesProvider whiten)
  have hvalid : ValidInstallCode exampleCode :=
    ⟨by decide, exampleCode.take 16, 0xD4, 0x90, by decide, (crc_eq_iff _ _ _).mp (by decide +kernel)⟩
  refine ⟨(haccepts (softwareAesProvider_total _) exampleCode ⟨(), []⟩).mpr hvalid,
    hburst exampleCode changedCode 0 hvalid (by decide) (by decide) (Or.inl fun k hk => ⟨Nat.zero_le k, ?_⟩)⟩
  by_contra hlarge
  refine hk ?_
  obtain ⟨j, hj⟩ : ∃ j, k / 8 = j + 1 := ⟨k / 8 - 1, by omega⟩
  rw [bitLsb, bitLsb, hj]
  rfl

end Zigbee.Crypto
