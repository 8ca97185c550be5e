import Mathlib.Algebra.Polynomial.FieldDivision
import Mathlib.RingTheory.AdjoinRoot
import Mathlib.Algebra.Field.ZMod

/-!
# Reflected cyclic redundancy checks

A reflected CRC keeps its register with the highest power in bit 0.  The register and the bytes it is
fed are read as polynomials over the field of two elements.

* `step`, `feed` — the bitwise register; `generator` — the polynomial of the feedback constant.
* `register_eq_mod` — the register is the remainder of the message by the generator.
* `eq_zero_of_burst` — the generator divides no change that is shorter than itself.
-/

namespace ReflectedCrc

open Polynomial

variable {w : Nat}

/-! ## Bits as polynomials -/

def coefficient (b : Bool) : ZMod 2 := if b then 1 else 0

theorem coefficient_xor (a b : Bool) : coefficient (a ^^ b) = coefficient a + coefficient b := by
  cases a <;> cases b <;> decide

theorem coefficient_injective {a b : Bool} (h : coefficient a = coefficient b) : a = b := by
  cases a <;> cases b <;> revert h <;> decide

/-- Bit 0 is the coefficient of the highest power. -/
noncomputable def poly (r : BitVec w) : (ZMod 2)[X] := ∑ j ∈ Finset.range w, C (coefficient (r.getLsbD j)) * X ^ (w - 1 - j)

variable (r : BitVec w)

theorem coeff_poly (k : Nat) : (poly r).coeff k = if k < w then coefficient (r.getLsbD (w - 1 - k)) else 0 := by
  simp only [poly, finsetSum_coeff, coeff_C_mul_X_pow]
  by_cases hk : k < w
  · rw [if_pos hk, Finset.sum_eq_single (w - 1 - k)]
    · rw [if_pos (by omega)]
    · intro j hj hne
      have := Finset.mem_range.mp hj
      rw [if_neg (by omega)]
    · intro hnot
      exact absurd (Finset.mem_range.mpr (by omega)) hnot
  · rw [if_neg hk]
    refine Finset.sum_eq_zero fun j hj => if_neg ?_
    have := Finset.mem_range.mp hj
    omega

theorem poly_xor (a b : BitVec w) : poly (a ^^^ b) = poly a + poly b := by
  ext k
  rw [coeff_add, coeff_poly, coeff_poly, coeff_poly]
  split
  · rw [BitVec.getLsbD_xor, coefficient_xor]
  · rw [add_zero]

theorem poly_injective {a b : BitVec w} (h : poly a = poly b) : a = b := by
  refine BitVec.eq_of_getLsbD_eq fun j hj => coefficient_injective ?_
  have hcoeff := congrArg (coeff · (w - 1 - j)) h
  simp only [coeff_poly] at hcoeff
  rw [if_pos (by omega), if_pos (by omega), show w - 1 - (w - 1 - j) = j by omega] at hcoeff
  exact hcoeff

theorem degree_poly_lt : (poly r).degree < w := by
  refine (degree_lt_iff_coeff_zero _ _).mpr fun k hk => ?_
  rw [coeff_poly, if_neg (Nat.not_lt.mpr hk)]

/-- A register that is wider holds the same bits at higher powers. -/
theorem poly_setWidth {v : Nat} (r : BitVec v) (h : v ≤ w) : poly (r.setWidth w) = X ^ (w - v) * poly r := by
  ext k
  rw [coeff_poly, coeff_X_pow_mul', coeff_poly]
  by_cases hk : k < w
  · rw [if_pos hk, BitVec.getLsbD_setWidth]
    by_cases hle : w - v ≤ k
    · rw [if_pos hle, if_pos (by omega), show v - 1 - (k - (w - v)) = w - 1 - k by omega,
        decide_eq_true (show w - 1 - k < w by omega), Bool.true_and]
    · rw [if_neg hle, BitVec.getLsbD_of_ge r _ (by omega), Bool.and_false]
      rfl
  · rw [if_neg hk]
    split
    · rw [if_neg (by omega)]
    · rfl

/-! ## The register -/

variable (c : BitVec w)

/-- One bit of the division: the highest power leaves, and it is replaced by what it is modulo the generator. -/
def step (r : BitVec w) : BitVec w := if r.getLsbD 0 then (r >>> 1) ^^^ c else r >>> 1

def feed (r : BitVec w) (byte : BitVec 8) : BitVec w := (step c)^[8] (r ^^^ byte.setWidth w)

noncomputable def generator : (ZMod 2)[X] := X ^ w + poly c

variable {c}

theorem generator_monic : (generator c).Monic := monic_X_pow_add (degree_poly_lt c)

theorem degree_generator : (generator c).degree = w := by
  rw [generator, degree_add_eq_left_of_degree_lt (by rw [degree_X_pow]; exact degree_poly_lt c), degree_X_pow]

theorem X_mul_poly (hw : 0 < w) : X * poly r = poly (r >>> 1) + C (coefficient (r.getLsbD 0)) * X ^ w := by
  ext k
  rw [coeff_add, coeff_C_mul_X_pow, coeff_poly]
  cases k with
  | zero =>
    rw [coeff_X_mul_zero, if_pos hw, if_neg (by omega), add_zero, BitVec.getLsbD_ushiftRight,
      BitVec.getLsbD_of_ge r _ (by omega)]
    rfl
  | succ k =>
    rw [coeff_X_mul, coeff_poly, BitVec.getLsbD_ushiftRight]
    by_cases hlow : k + 1 < w
    · rw [if_pos hlow, if_pos (by omega), if_neg (by omega), add_zero, show w - 1 - k = 1 + (w - 1 - (k + 1)) by omega]
    · rw [if_neg hlow, zero_add]
      by_cases hk : k + 1 = w
      · rw [if_pos hk, if_pos (by omega), show w - 1 - k = 0 by omega]
      · rw [if_neg hk, if_neg (by omega)]

theorem add_self (p : (ZMod 2)[X]) : p + p = 0 := CharTwo.add_self_eq_zero p

/-- **One step multiplies by `X` modulo the generator.** -/
theorem X_mul_poly_eq (hw : 0 < w) : X * poly r = poly (step c r) + C (coefficient (r.getLsbD 0)) * generator c := by
  rw [X_mul_poly r hw, step]
  cases r.getLsbD 0 with
  | false => simp [coefficient]
  | true =>
    rw [if_pos rfl, poly_xor, generator, coefficient, if_pos rfl, C_1, one_mul, one_mul, add_assoc, ← add_assoc (poly c),
      add_comm (poly c) (X ^ w), add_assoc, add_self, add_zero]

/-- The residue of a polynomial. -/
noncomputable abbrev residue (c : BitVec w) : (ZMod 2)[X] →+* AdjoinRoot (generator c) := AdjoinRoot.mk (generator c)

theorem residue_step (hw : 0 < w) : residue c (poly (step c r)) = residue c (X * poly r) := by
  rw [X_mul_poly_eq r hw, map_add, map_mul, AdjoinRoot.mk_self, mul_zero, add_zero]

theorem residue_steps (hw : 0 < w) (n : Nat) : residue c (poly ((step c)^[n] r)) = residue c (X ^ n * poly r) := by
  induction n generalizing r with
  | zero => rw [Function.iterate_zero_apply, pow_zero, one_mul]
  | succ n ih => rw [Function.iterate_succ_apply, ih, map_mul, residue_step r hw, ← map_mul, ← mul_assoc, ← pow_succ]

theorem residue_feed (byte : BitVec 8) (hw : 8 ≤ w) :
    residue c (poly (feed c r byte)) = residue c (X ^ 8 * poly r + X ^ w * poly byte) := by
  have hpower : (X : (ZMod 2)[X]) ^ 8 * X ^ (w - 8) = X ^ w := by rw [← pow_add, Nat.add_sub_cancel' hw]
  rw [feed, residue_steps _ (by omega), poly_xor, poly_setWidth byte hw, mul_add, ← mul_assoc, hpower]

/-- The polynomial of a message: the bits in the order in which the register is fed, the first one highest. -/
noncomputable def message : List (BitVec 8) → (ZMod 2)[X]
  | [] => 0
  | byte :: rest => X ^ (8 * rest.length) * poly byte + message rest

theorem message_append (a b : List (BitVec 8)) : message (a ++ b) = X ^ (8 * b.length) * message a + message b := by
  induction a with
  | nil => rw [List.nil_append, message, mul_zero, zero_add]
  | cons byte rest ih =>
    rw [List.cons_append, message, message, ih, List.length_append, Nat.mul_add, pow_add]
    ring

theorem residue_register (bytes : List (BitVec 8)) (hw : 8 ≤ w) :
    residue c (poly (bytes.foldl (feed c) r)) = residue c (X ^ (8 * bytes.length) * poly r + X ^ w * message bytes) := by
  induction bytes generalizing r with
  | nil => rw [List.foldl_nil, message, List.length_nil, Nat.mul_zero, pow_zero, one_mul, mul_zero, add_zero]
  | cons byte rest ih =>
    rw [List.foldl_cons, ih, map_add, map_mul, residue_feed r byte hw, ← map_mul, ← map_add, message, List.length_cons,
      Nat.mul_succ, pow_add]
    refine congrArg (residue c) ?_
    ring

/-- **The register is a remainder**: that of the message behind the initial register. -/
theorem register_eq_mod (bytes : List (BitVec 8)) (hw : 8 ≤ w) :
    poly (bytes.foldl (feed c) r) = (X ^ (8 * bytes.length) * poly r + X ^ w * message bytes) %ₘ generator c := by
  obtain ⟨q, hq⟩ := AdjoinRoot.mk_eq_mk.mp (residue_register (c := c) r bytes hw)
  refine (div_modByMonic_unique (-q) _ generator_monic ⟨?_, ?_⟩).2.symm
  · rw [mul_neg, ← hq]
    ring
  · rw [degree_generator]
    exact degree_poly_lt _

/-! ## Changes of a message -/

/-- Bit `k` of the bytes, in the order in which the register is fed. -/
def bitAt (bytes : List (BitVec 8)) (k : Nat) : Bool := (bytes.getD (k / 8) 0#8).getLsbD (k % 8)

theorem coeff_message (bytes : List (BitVec 8)) (k : Nat) :
    (message bytes).coeff k = if k < 8 * bytes.length then coefficient (bitAt bytes (8 * bytes.length - 1 - k)) else 0 := by
  induction bytes with
  | nil => rw [message, coeff_zero, List.length_nil, if_neg (by omega)]
  | cons byte rest ih =>
    rw [message, coeff_add, coeff_X_pow_mul', coeff_poly, ih, List.length_cons]
    by_cases hrest : k < 8 * rest.length
    · rw [if_neg (by omega), zero_add, if_pos hrest, if_pos (by omega), bitAt, bitAt,
        show (8 * (rest.length + 1) - 1 - k) / 8 = (8 * rest.length - 1 - k) / 8 + 1 by omega,
        show (8 * (rest.length + 1) - 1 - k) % 8 = (8 * rest.length - 1 - k) % 8 by omega, List.getD_cons_succ]
    · rw [if_pos (by omega), if_neg hrest, add_zero]
      by_cases hbyte : k < 8 * (rest.length + 1)
      · rw [if_pos (by omega), if_pos hbyte, bitAt, show (8 * (rest.length + 1) - 1 - k) / 8 = 0 by omega,
          List.getD_cons_zero]
        congr 2
        omega
      · rw [if_neg (by omega), if_neg hbyte]

theorem message_injective {a b : List (BitVec 8)} (hlength : a.length = b.length) (h : message a = message b) : a = b := by
  refine List.ext_getElem hlength fun i ha hb => BitVec.eq_of_getLsbD_eq fun j hj => coefficient_injective ?_
  have hcoeff := congrArg (coeff · (8 * a.length - 1 - (8 * i + j))) h
  simp only [coeff_message] at hcoeff
  rw [if_pos (by omega), if_pos (by omega), ← hlength, bitAt, bitAt,
    show (8 * a.length - 1 - (8 * a.length - 1 - (8 * i + j))) / 8 = i by omega,
    show (8 * a.length - 1 - (8 * a.length - 1 - (8 * i + j))) % 8 = j by omega, List.getD_eq_getElem?_getD,
    List.getD_eq_getElem?_getD, List.getElem?_eq_getElem ha, List.getElem?_eq_getElem hb] at hcoeff
  exact hcoeff

/-- The difference of two messages has a coefficient only where they have different bits. -/
theorem coeff_message_sub {a b : List (BitVec 8)} (hlength : a.length = b.length) {k : Nat}
    (hsame : k < 8 * a.length → bitAt a (8 * a.length - 1 - k) = bitAt b (8 * a.length - 1 - k)) :
    (message a - message b).coeff k = 0 := by
  rw [coeff_sub, coeff_message, coeff_message, ← hlength]
  split
  · rename_i hk
    rw [hsame hk, sub_self]
  · exact sub_self 0

theorem isCoprime_X_pow (h : (generator c).coeff 0 = 1) (t : Nat) : IsCoprime (generator c) (X ^ t) := by
  refine IsCoprime.pow_right (IsCoprime.symm ((irreducible_X).coprime_iff_not_dvd.mpr fun hdvd => ?_))
  rw [X_dvd_iff, h] at hdvd
  exact one_ne_zero hdvd

/-- **A change shorter than the generator is no multiple of it.** -/
theorem eq_zero_of_burst (h : (generator c).coeff 0 = 1) {p : (ZMod 2)[X]} {t : Nat}
    (hlow : ∀ k, k < t → p.coeff k = 0) (hhigh : ∀ k, t + w ≤ k → p.coeff k = 0) (hdvd : generator c ∣ p) : p = 0 := by
  obtain ⟨q, rfl⟩ := X_pow_dvd_iff.mpr hlow
  have hq : generator c ∣ q := (isCoprime_X_pow h t).dvd_of_dvd_mul_left hdvd
  have hdegree : q.degree < w := by
    refine (degree_lt_iff_coeff_zero _ _).mpr fun k hk => ?_
    have := hhigh (t + k) (by omega)
    rwa [Nat.add_comm, coeff_X_pow_mul] at this
  rw [eq_zero_of_dvd_of_degree_lt hq (by rwa [degree_generator]), mul_zero]

end ReflectedCrc
