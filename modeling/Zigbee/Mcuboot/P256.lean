import Mathlib.FieldTheory.Finite.Basic
import Mathlib.Tactic.NormNum.Prime
import Zigbee.Lib.MultiLimb
import Zigbee.Lib.SquareMultiply

/-!
# Montgomery arithmetic of P-256

Model of `Modulus` of `mcuboot-image/src/p256.rs`, for the field prime and the group order.  An arithmetic
operation that would overflow its word fails, and so does everything that contains it.

* `Modulus.mul` — the product, one `round` for every limb of the second factor; `Modulus.add`, `sub`, `invert`.
* `Acc.value`, `round_spec` — the accumulator stays below twice the modulus, and a round divides by `2 ^ 32`.
* `P_prime`, `N_prime` — the moduli are prime, by certificates.
* `montgomery_exact` — **the arithmetic is exact**, and nothing overflows.
-/

namespace Zigbee.Mcuboot.P256

open MultiLimb (value checkedAdd checkedMul addRow subRow mulAddRow)
open SquareMultiply (ladder)
open MultiLimb

/-! ## The code -/

/-- Eight little-endian 32-bit limbs. -/
structure Limbs where
  limbs : List UInt32
  length_eq : limbs.length = 8
  deriving DecidableEq

def Limbs.value (a : Limbs) : Nat := MultiLimb.value a.limbs

structure Modulus where
  m : Limbs
  /-- `-m⁻¹ mod 2³²`. -/
  mInv : UInt32
  /-- `R² mod m` with `R = 2²⁵⁶`. -/
  r2 : Limbs

def P : Modulus where
  m := ⟨[0xFFFFFFFF, 0xFFFFFFFF, 0xFFFFFFFF, 0x00000000, 0x00000000, 0x00000000, 0x00000001, 0xFFFFFFFF], rfl⟩
  mInv := 0x00000001
  r2 := ⟨[0x00000003, 0x00000000, 0xFFFFFFFF, 0xFFFFFFFB, 0xFFFFFFFE, 0xFFFFFFFF, 0xFFFFFFFD, 0x00000004], rfl⟩

def N : Modulus where
  m := ⟨[0xFC632551, 0xF3B9CAC2, 0xA7179E84, 0xBCE6FAAD, 0xFFFFFFFF, 0xFFFFFFFF, 0x00000000, 0xFFFFFFFF], rfl⟩
  mInv := 0xEE00BC4F
  r2 := ⟨[0xBE79EEA2, 0x83244C95, 0x49BD6FA6, 0x4699799C, 0x2B6BEC59, 0x2845B239, 0xF3D95620, 0x66E12D94], rfl⟩

def ONE : Limbs := ⟨[1, 0, 0, 0, 0, 0, 0, 0], rfl⟩

/-- `copy_from_slice` panics where the lengths differ. -/
def copyFromSlice (l : List UInt32) : Option Limbs := if h : l.length = 8 then some ⟨l, h⟩ else none

def less (a b : Limbs) : Bool := MultiLimb.less a.limbs b.limbs

/-- `a -= b`, and the borrow. -/
def subInPlace (a b : Limbs) : Limbs × Bool :=
  (⟨(subRow a.limbs b.limbs 0).1, (subRow_length (a.length_eq.trans b.length_eq.symm)).trans a.length_eq⟩,
    (subRow a.limbs b.limbs 0).2 != 0)

/-- `a += b`, and the carry. -/
def addInPlace (a b : Limbs) : Option (Limbs × Bool) := do
  let (sum, carry) ← addRow a.limbs b.limbs 0
  let sum ← copyFromSlice sum
  some (sum, carry != 0)

def checkedAdd32 (a b : UInt32) : Option UInt32 := if a.toNat + b.toNat < 2 ^ 32 then some (a + b) else none

/-- The ten limbs of `t`: eight of them, `t[8]` and `t[9]`. -/
structure Acc where
  low : List UInt32
  t8 : UInt32
  t9 : UInt32

namespace Modulus

/-- The subtraction that ends a sum and a product. -/
def reduceOnce (M : Modulus) (a : Limbs) (carry : Bool) : Limbs :=
  if carry || !less a M.m then (subInPlace a M.m).1 else a

def add (M : Modulus) (a b : Limbs) : Option Limbs := do
  let (sum, carry) ← addInPlace a b
  some (M.reduceOnce sum carry)

def sub (M : Modulus) (a b : Limbs) : Option Limbs :=
  let (difference, borrow) := subInPlace a b
  if borrow then (addInPlace difference M.m).map (·.1) else some difference

/-- The body of the loop of `mul`. -/
def round (M : Modulus) (a : Limbs) (t : Acc) (word : UInt32) : Option Acc := do
  let (low, carry) ← mulAddRow word.toUInt64 t.low a.limbs 0
  let x ← checkedAdd t.t8.toUInt64 carry
  let t8 := x.toUInt32
  let t9 := (x >>> 32).toUInt32
  match low, M.m.limbs with
  | t0 :: low, m0 :: m =>
    let q := (t0 * M.mInv).toUInt64
    let product ← checkedMul q m0.toUInt64
    let x ← checkedAdd t0.toUInt64 product
    let (low, carry) ← mulAddRow q low m (x >>> 32)
    let x ← checkedAdd t8.toUInt64 carry
    let t8 ← checkedAdd32 t9 (x >>> 32).toUInt32
    some ⟨low ++ [x.toUInt32], t8, t9⟩
  | _, _ => none

/-- Montgomery product `a·b·R⁻¹ mod m` for `a, b < m`. -/
def mul (M : Modulus) (a b : Limbs) : Option Limbs := do
  let t ← b.limbs.foldlM (M.round a) ⟨List.replicate 8 0, 0, 0⟩
  let result ← copyFromSlice t.low
  some (M.reduceOnce result (t.t8 != 0))

def enterMont (M : Modulus) (a : Limbs) : Option Limbs := M.mul a M.r2

/-- Montgomery-domain inverse by Fermat: `a^(m-2)`. -/
def invert (M : Modulus) (a : Limbs) : Option Limbs :=
  match M.m.limbs with
  | [] => none
  | m0 :: m =>
    if m0 < 2 then none
    else do
      let exponent := (m0 - 2) :: m
      let result ← M.enterMont ONE
      ladder M.mul a (fun bit => (exponent.getD (bit / 32) 0 >>> UInt32.ofNat (bit % 32)) &&& 1 != 0) 256 result

end Modulus

/-! ## Sums and differences -/

section
variable {M : Modulus} {a b : Limbs}

theorem value_lt (a : Limbs) : a.value < 2 ^ 256 := by
  have := MultiLimb.value_lt a.limbs
  rwa [a.length_eq] at this

theorem eq_of_value (h : a.value = b.value) : a = b := by
  obtain ⟨l, hl⟩ := a
  obtain ⟨l', hl'⟩ := b
  obtain rfl := value_injective (hl.trans hl'.symm) h
  rfl

theorem less_iff (a b : Limbs) : less a b = true ↔ a.value < b.value :=
  MultiLimb.less_iff (a.length_eq.trans b.length_eq.symm)

theorem copyFromSlice_eq {l : List UInt32} (h : l.length = 8) : copyFromSlice l = some ⟨l, h⟩ := dif_pos h

/-- A word that is at most one is its own test. -/
theorem toNat_ne_zero {w : UInt64} (h : w.toNat ≤ 1) : (w != 0).toNat = w.toNat := by
  by_cases hw : w = 0
  · subst hw
    rfl
  · have hne : w.toNat ≠ 0 := fun h0 => hw (UInt64.toNat_inj.mp h0)
    rw [bne_iff_ne.mpr hw, Bool.toNat_true]
    omega

theorem addInPlace_spec (a b : Limbs) :
    ∃ sum carry, addInPlace a b = some (sum, carry) ∧ sum.value + 2 ^ 256 * carry.toNat = a.value + b.value := by
  obtain ⟨r, carry, hr, hlen, hcarry, hvalue⟩ := @addRow_spec a.limbs b.limbs 0 (a.length_eq.trans b.length_eq.symm) (by decide)
  have hlen' : r.length = 8 := hlen.trans a.length_eq
  refine ⟨⟨r, hlen'⟩, carry != 0, ?_, ?_⟩
  · simp only [addInPlace, hr, copyFromSlice_eq hlen', Option.bind_eq_bind, Option.bind_some]
  · rw [toNat_ne_zero hcarry]
    rw [a.length_eq] at hvalue
    exact hvalue

theorem subInPlace_spec (a b : Limbs) :
    (subInPlace a b).1.value + b.value = a.value + 2 ^ 256 * (subInPlace a b).2.toNat := by
  obtain ⟨hborrow, hvalue⟩ := @subRow_spec a.limbs b.limbs 0 (a.length_eq.trans b.length_eq.symm) (by decide)
  have hbit : (subInPlace a b).2.toNat = (subRow a.limbs b.limbs 0).2.toNat := toNat_ne_zero hborrow
  rw [a.length_eq] at hvalue
  rw [hbit]
  exact hvalue

/-- **One subtraction reduces** what is below twice the modulus. -/
theorem reduceOnce_spec {carry : Bool} (h : a.value + 2 ^ 256 * carry.toNat < 2 * M.m.value) :
    (M.reduceOnce a carry).value = (a.value + 2 ^ 256 * carry.toNat) % M.m.value := by
  have hm := value_lt M.m
  have hsub := subInPlace_spec a M.m
  have hr := value_lt (subInPlace a M.m).1
  have hborrow := Bool.toNat_le (subInPlace a M.m).2
  have hless := less_iff a M.m
  have hpos : 0 < M.m.value := by omega
  unfold Modulus.reduceOnce
  by_cases hdone : carry = false ∧ a.value < M.m.value
  · obtain ⟨rfl, hlt⟩ := hdone
    rw [hless.mpr hlt]
    simp only [Bool.not_true, Bool.or_self, Bool.false_eq_true, if_false, Bool.toNat_false, Nat.mul_zero, Nat.add_zero]
    rw [Nat.mod_eq_of_lt hlt]
  · have hge : M.m.value ≤ a.value + 2 ^ 256 * carry.toNat := by
      cases carry
      · have := not_and.mp hdone rfl
        omega
      · rw [Bool.toNat_true]
        omega
    have htest : (carry || !less a M.m) = true := by
      cases carry
      · have hnot : less a M.m = false := Bool.eq_false_iff.mpr fun hlt => hdone ⟨rfl, hless.mp hlt⟩
        rw [hnot]
        rfl
      · rfl
    rw [if_pos htest, Nat.mod_eq_sub_mod hge, Nat.mod_eq_of_lt (by omega)]
    omega

theorem add_spec (ha : a.value < M.m.value) (hb : b.value < M.m.value) :
    ∃ r, M.add a b = some r ∧ r.value = (a.value + b.value) % M.m.value := by
  obtain ⟨sum, carry, hsum, hvalue⟩ := addInPlace_spec a b
  refine ⟨M.reduceOnce sum carry, ?_, ?_⟩
  · simp only [Modulus.add, hsum, Option.bind_eq_bind, Option.bind_some]
  · rw [reduceOnce_spec (by omega), hvalue]

theorem sub_spec (ha : a.value < M.m.value) (hb : b.value < M.m.value) :
    ∃ r, M.sub a b = some r ∧ r.value = (a.value + M.m.value - b.value) % M.m.value := by
  have hdiff := subInPlace_spec a b
  have hr := value_lt (subInPlace a b).1
  unfold Modulus.sub
  dsimp only
  cases hborrow : (subInPlace a b).2 with
  | false =>
    rw [hborrow, Bool.toNat_false, Nat.mul_zero, Nat.add_zero] at hdiff
    refine ⟨_, if_neg (by decide), ?_⟩
    rw [Nat.mod_eq_sub_mod (by omega), Nat.mod_eq_of_lt (by omega)]
    omega
  | true =>
    rw [hborrow, Bool.toNat_true, Nat.mul_one] at hdiff
    obtain ⟨sum, carry, hsum, hvalue⟩ := addInPlace_spec (subInPlace a b).1 M.m
    have hs := value_lt sum
    have hcarry := Bool.toNat_le carry
    have hb' := value_lt b
    refine ⟨sum, by rw [if_pos rfl, hsum]; rfl, ?_⟩
    rw [Nat.mod_eq_of_lt (by omega)]
    omega

end

/-! ## Products -/

def Acc.value (t : Acc) : Nat := MultiLimb.value t.low + 2 ^ 256 * t.t8.toNat

/-- What the arithmetic needs of a modulus. -/
structure Modulus.Valid (M : Modulus) : Prop where
  inv : (M.m.limbs.headD 0).toNat * M.mInv.toNat % 2 ^ 32 = 2 ^ 32 - 1
  low : 2 ≤ M.m.limbs.headD 0
  prime : M.m.value.Prime
  large : 2 < M.m.value
  r2 : M.r2.value = 2 ^ 256 * 2 ^ 256 % M.m.value

theorem checkedAdd32_eq {a b : UInt32} (h : a.toNat + b.toNat < 2 ^ 32) : ∃ c, checkedAdd32 a b = some c ∧ c.toNat = a.toNat + b.toNat :=
  ⟨a + b, if_pos h, by rw [UInt32.toNat_add, Nat.mod_eq_of_lt h]⟩

/-- The multiple of the modulus that a round adds cancels the lowest limb. -/
theorem cancels {t0 m0 mInv : Nat} (h : m0 * mInv % 2 ^ 32 = 2 ^ 32 - 1) : (t0 + t0 * mInv % 2 ^ 32 * m0) % 2 ^ 32 = 0 := by
  have hq : t0 * mInv % 2 ^ 32 * m0 ≡ t0 * (m0 * mInv % 2 ^ 32) [MOD 2 ^ 32] :=
    calc t0 * mInv % 2 ^ 32 * m0 ≡ t0 * mInv * m0 [MOD 2 ^ 32] := (Nat.mod_modEq _ _).mul_right m0
      _ = t0 * (m0 * mInv) := by ring
      _ ≡ t0 * (m0 * mInv % 2 ^ 32) [MOD 2 ^ 32] := (Nat.mod_modEq _ _).symm.mul_left t0
  rw [h] at hq
  have hsum := hq.add_left t0
  have hmul : t0 + t0 * (2 ^ 32 - 1) = 2 ^ 32 * t0 := by omega
  rw [hmul] at hsum
  exact Eq.trans hsum (Nat.mul_mod_right _ _)

section
variable {M : Modulus} {a b : Limbs}

/-- **One round**: nothing overflows, and the accumulator takes the word's multiple of `a` and a multiple of the
    modulus, and is divided by `2 ^ 32`. -/
theorem round_spec (hM : M.Valid) (ha : a.value < M.m.value) {t : Acc} (hlen : t.low.length = 8) (ht : t.value < 2 * M.m.value)
    (word : UInt32) :
    ∃ t' q, M.round a t word = some t' ∧ t'.low.length = 8 ∧ t'.value < 2 * M.m.value ∧
      2 ^ 32 * t'.value = t.value + a.value * word.toNat + q * M.m.value := by
  have hword := word.toNat_lt
  have ht8 := t.t8.toNat_lt
  have hm := value_lt M.m
  -- `t += a * word`
  obtain ⟨low, c1, hrow, hlow, hc1, hvalue⟩ := @mulAddRow_spec t.low a.limbs word.toUInt64 0 (hlen.trans a.length_eq.symm)
    (by rw [UInt32.toNat_toUInt64]; exact hword) (by decide)
  rw [hlen, UInt32.toNat_toUInt64] at hvalue
  have hlow : low.length = 8 := hlow.trans hlen
  obtain ⟨x1, hx1, hx1sum⟩ := @checkedAdd_eq t.t8.toUInt64 c1 (by rw [UInt32.toNat_toUInt64]; omega)
  rw [UInt32.toNat_toUInt64] at hx1sum
  have hsplit1 := low_add_high x1
  have ht9 : (x1 >>> 32).toUInt32.toNat = (x1 >>> 32).toNat := by
    rw [UInt64.toNat_toUInt32, Nat.mod_eq_of_lt (high_lt x1)]
  -- the lowest limbs
  obtain ⟨t0, low', rfl⟩ := List.exists_cons_of_length_eq_add_one hlow
  obtain ⟨m0, m', hlimbs⟩ := List.exists_cons_of_length_eq_add_one M.m.length_eq
  have hinv := hM.inv
  rw [hlimbs, List.headD_cons] at hinv
  have ht0 := t0.toNat_lt
  have hm0 := m0.toNat_lt
  have hq : (t0 * M.mInv).toUInt64.toNat = t0.toNat * M.mInv.toNat % 2 ^ 32 := by
    rw [UInt32.toNat_toUInt64, UInt32.toNat_mul]
  have hqlt : (t0 * M.mInv).toUInt64.toNat < 2 ^ 32 := by
    rw [hq]
    exact Nat.mod_lt _ (by decide)
  generalize hqdef : (t0 * M.mInv).toUInt64 = q at hq hqlt
  have hbound : q.toNat * m0.toNat ≤ (2 ^ 32 - 1) * (2 ^ 32 - 1) := Nat.mul_le_mul (by omega) (by omega)
  obtain ⟨p, hp, hproduct⟩ := @checkedMul_eq q m0.toUInt64 (by rw [UInt32.toNat_toUInt64]; omega)
  rw [UInt32.toNat_toUInt64] at hproduct
  obtain ⟨x2, hx2, hx2sum⟩ := @checkedAdd_eq t0.toUInt64 p (by rw [UInt32.toNat_toUInt64]; omega)
  rw [UInt32.toNat_toUInt64, hproduct] at hx2sum
  have hx2zero : x2.toNat = 2 ^ 32 * (x2 >>> 32).toNat := by
    have hzero := @cancels t0.toNat _ _ hinv
    rw [← hq, ← hx2sum] at hzero
    rw [shift_toNat]
    omega
  -- `t += q * m`, one limb down
  have hlow' : low'.length = 7 := Nat.succ.inj hlow
  have hm' : m'.length = 7 := by
    have := M.m.length_eq
    rw [hlimbs] at this
    exact Nat.succ.inj this
  obtain ⟨low'', c2, hrow', hlow'', hc2, hvalue'⟩ := @mulAddRow_spec low' m' q (x2 >>> 32) (hlow'.trans hm'.symm) hqlt
    (high_lt x2)
  rw [hlow'] at hvalue' hlow''
  have hx1low := x1.toUInt32.toNat_lt
  obtain ⟨x3, hx3, hx3sum⟩ := @checkedAdd_eq x1.toUInt32.toUInt64 c2 (by rw [UInt32.toNat_toUInt64]; omega)
  rw [UInt32.toNat_toUInt64] at hx3sum
  have hsplit3 := low_add_high x3
  have hx3high : (x3 >>> 32).toUInt32.toNat = (x3 >>> 32).toNat := by
    rw [UInt64.toNat_toUInt32, Nat.mod_eq_of_lt (high_lt x3)]
  obtain ⟨t8, ht8', ht8sum⟩ := @checkedAdd32_eq (x1 >>> 32).toUInt32 (x3 >>> 32).toUInt32 (by omega)
  have hround : M.round a t word = some ⟨low'' ++ [x3.toUInt32], t8, (x1 >>> 32).toUInt32⟩ := by
    simp only [Modulus.round, hrow, hx1, hlimbs, hqdef, hp, hx2, hrow', hx3, ht8', Option.bind_eq_bind, Option.bind_some]
  have hmodulus : q.toNat * M.m.value = q.toNat * m0.toNat + 2 ^ 32 * (value m' * q.toNat) := by
    rw [Limbs.value, hlimbs, MultiLimb.value]
    ring
  have hnew : 2 ^ 32 * Acc.value ⟨low'' ++ [x3.toUInt32], t8, (x1 >>> 32).toUInt32⟩ =
      t.value + a.value * word.toNat + q.toNat * M.m.value := by
    rw [hmodulus, Acc.value, Acc.value, value_append, hlow'', Limbs.value]
    simp only [MultiLimb.value, UInt64.toNat_zero, Nat.reduceMul, Nat.mul_zero, Nat.add_zero] at hvalue hvalue' ⊢
    omega
  refine ⟨_, q.toNat, hround, by rw [List.length_append, hlow'']; rfl, ?_, hnew⟩
  have hfirst : a.value * word.toNat ≤ M.m.value * (2 ^ 32 - 1) := Nat.mul_le_mul ha.le (by omega)
  have hsecond : q.toNat * M.m.value ≤ (2 ^ 32 - 1) * M.m.value := Nat.mul_le_mul_right _ (by omega)
  omega

/-- The rounds of a product. -/
theorem rounds_spec (hM : M.Valid) (ha : a.value < M.m.value) (words : List UInt32) {t : Acc} (hlen : t.low.length = 8)
    (ht : t.value < 2 * M.m.value) :
    ∃ t' q, words.foldlM (M.round a) t = some t' ∧ t'.low.length = 8 ∧ t'.value < 2 * M.m.value ∧
      2 ^ (32 * words.length) * t'.value = t.value + a.value * value words + q * M.m.value := by
  induction words generalizing t with
  | nil => exact ⟨t, 0, rfl, hlen, ht, by simp [value]⟩
  | cons word words ih =>
    obtain ⟨t1, q1, hround, hlen1, ht1, hvalue1⟩ := round_spec hM ha hlen ht word
    obtain ⟨t', q', hrest, hlen', ht', hvalue'⟩ := ih hlen1 ht1
    refine ⟨t', q1 + 2 ^ 32 * q', ?_, hlen', ht', ?_⟩
    · rw [List.foldlM_cons, hround]
      exact hrest
    · rw [List.length_cons, Nat.mul_succ, pow_add, value]
      calc 2 ^ (32 * words.length) * 2 ^ 32 * t'.value = 2 ^ 32 * (2 ^ (32 * words.length) * t'.value) := by ring
        _ = 2 ^ 32 * t1.value + 2 ^ 32 * (a.value * value words + q' * M.m.value) := by rw [hvalue']; ring
        _ = t.value + a.value * (word.toNat + 2 ^ 32 * value words) + (q1 + 2 ^ 32 * q') * M.m.value := by rw [hvalue1]; ring

/-- **The Montgomery product.** -/
theorem mul_spec (hM : M.Valid) (ha : a.value < M.m.value) (b : Limbs) :
    ∃ r, M.mul a b = some r ∧ r.value < M.m.value ∧ 2 ^ 256 * r.value ≡ a.value * b.value [MOD M.m.value] := by
  have hpos : 0 < M.m.value := by omega
  have hzero : Acc.value ⟨List.replicate 8 0, 0, 0⟩ = 0 := by decide
  obtain ⟨t, q, hfold, hlen, ht, hvalue⟩ := @rounds_spec M a hM ha b.limbs ⟨List.replicate 8 0, 0, 0⟩ rfl (by omega)
  have hm := value_lt M.m
  have hcarry : (t.t8 != 0).toNat = t.t8.toNat := by
    by_cases h8 : t.t8 = 0
    · rw [h8]
      rfl
    · have hne : t.t8.toNat ≠ 0 := fun h0 => h8 (UInt32.toNat_inj.mp h0)
      rw [bne_iff_ne.mpr h8, Bool.toNat_true]
      unfold Acc.value at ht
      omega
  have hsum : (Limbs.mk t.low hlen).value + 2 ^ 256 * (t.t8 != 0).toNat = t.value := by
    rw [hcarry]
    rfl
  have hreduced := @reduceOnce_spec M ⟨t.low, hlen⟩ (t.t8 != 0) (by omega)
  rw [hsum] at hreduced
  refine ⟨M.reduceOnce ⟨t.low, hlen⟩ (t.t8 != 0), ?_, ?_, ?_⟩
  · simp only [Modulus.mul, hfold, copyFromSlice_eq hlen, Option.bind_eq_bind, Option.bind_some]
  · rw [hreduced]
    exact Nat.mod_lt _ hpos
  · rw [hzero, Nat.zero_add, b.length_eq] at hvalue
    calc 2 ^ 256 * (M.reduceOnce ⟨t.low, hlen⟩ (t.t8 != 0)).value ≡ 2 ^ 256 * t.value [MOD M.m.value] := by
          rw [hreduced]
          exact (Nat.mod_modEq _ _).mul_left _
      _ = a.value * b.value + q * M.m.value := hvalue
      _ ≡ a.value * b.value [MOD M.m.value] := Nat.add_mul_mod_self_right _ _ _

/-! ## The Montgomery domain -/

/-- The residue that a value of the Montgomery domain stands for. -/
def residue (M : Modulus) (a : Limbs) : ZMod M.m.value := a.value * (2 ^ 256)⁻¹

theorem radix_ne_zero (hM : M.Valid) : (2 ^ 256 : ZMod M.m.value) ≠ 0 := by
  have : Fact M.m.value.Prime := ⟨hM.prime⟩
  refine pow_ne_zero _ fun h => ?_
  have hdvd : M.m.value ∣ 2 := (ZMod.natCast_eq_zero_iff 2 _).mp (by exact_mod_cast h)
  have := Nat.le_of_dvd (by decide) hdvd
  have := hM.large
  omega

/-- The product as a residue. -/
theorem mul_residue (hM : M.Valid) {r : Limbs} (h : 2 ^ 256 * r.value ≡ a.value * b.value [MOD M.m.value]) :
    (r.value : ZMod M.m.value) = a.value * b.value * (2 ^ 256)⁻¹ := by
  have : Fact M.m.value.Prime := ⟨hM.prime⟩
  have hR := radix_ne_zero hM
  have hcast := (ZMod.natCast_eq_natCast_iff _ _ _).mpr h
  rw [Nat.cast_mul, Nat.cast_mul, Nat.cast_pow, Nat.cast_ofNat] at hcast
  rw [← hcast, mul_comm, inv_mul_cancel_left₀ hR]

theorem residue_mul (hM : M.Valid) {r : Limbs} (h : 2 ^ 256 * r.value ≡ a.value * b.value [MOD M.m.value]) :
    residue M r = residue M a * residue M b := by
  rw [residue, residue, residue, mul_residue hM h]
  ring

/-- Reduced values are told apart by their residues. -/
theorem eq_of_residue (hM : M.Valid) (ha : a.value < M.m.value) (hb : b.value < M.m.value) (h : residue M a = residue M b) : a = b := by
  have : Fact M.m.value.Prime := ⟨hM.prime⟩
  have hcast := mul_right_cancel₀ (inv_ne_zero (radix_ne_zero hM)) h
  have hmod := (ZMod.natCast_eq_natCast_iff _ _ _).mp hcast
  exact eq_of_value ((Nat.mod_eq_of_lt ha).symm.trans (Eq.trans hmod (Nat.mod_eq_of_lt hb)))

/-- One, in the Montgomery domain. -/
theorem one_spec (hM : M.Valid) :
    ∃ one, M.enterMont ONE = some one ∧ one.value = 2 ^ 256 % M.m.value ∧ residue M one = 1 := by
  have : Fact M.m.value.Prime := ⟨hM.prime⟩
  have hlarge := hM.large
  have hone : ONE.value = 1 := by decide
  obtain ⟨one, hone', hlt, hmod⟩ := mul_spec hM (a := ONE) (by omega) M.r2
  have hres : residue M one = 1 := by
    have h2 : (M.r2.value : ZMod M.m.value) = 2 ^ 256 * 2 ^ 256 := by
      rw [hM.r2, ZMod.natCast_mod, Nat.cast_mul, Nat.cast_pow, Nat.cast_ofNat]
    rw [residue, mul_residue hM hmod, hone, h2, Nat.cast_one, one_mul, mul_inv_cancel_right₀ (radix_ne_zero hM),
      mul_inv_cancel₀ (radix_ne_zero hM)]
  refine ⟨one, hone', ?_, hres⟩
  have hcast : ((one.value : Nat) : ZMod M.m.value) = ((2 ^ 256 : Nat) : ZMod M.m.value) := by
    have := congrArg (· * (2 ^ 256 : ZMod M.m.value)) hres
    simp only [residue, one_mul] at this
    rw [inv_mul_cancel_right₀ (radix_ne_zero hM)] at this
    rw [this, Nat.cast_pow, Nat.cast_ofNat]
  have hmod' := (ZMod.natCast_eq_natCast_iff _ _ _).mp hcast
  exact (Nat.mod_eq_of_lt hlt).symm.trans hmod'

/-- The bit test of the exponent. -/
theorem bit_eq (exponent : List UInt32) (bit : Nat) :
    ((exponent.getD (bit / 32) 0 >>> UInt32.ofNat (bit % 32)) &&& 1 != 0) = (value exponent).testBit bit := by
  have hbit : bit % 32 < 32 := Nat.mod_lt _ (by decide)
  rw [testBit_value]
  generalize exponent.getD (bit / 32) 0 = x
  have hshift : (x >>> UInt32.ofNat (bit % 32)).toNat = x.toNat >>> (bit % 32) := by
    rw [UInt32.toNat_shiftRight, UInt32.toNat_ofNat_of_lt' (by change _ < 2 ^ 32; omega), Nat.mod_eq_of_lt hbit]
  have hand : ((x >>> UInt32.ofNat (bit % 32)) &&& 1).toNat = x.toNat >>> (bit % 32) &&& 1 := by
    rw [UInt32.toNat_and, hshift]
    rfl
  rw [Nat.testBit, Nat.and_comm, ← hand]
  by_cases h : (x >>> UInt32.ofNat (bit % 32)) &&& 1 = 0
  · rw [h]
    rfl
  · rw [bne_iff_ne.mpr h]
    exact (bne_iff_ne.mpr fun h0 => h (UInt32.toNat_inj.mp h0)).symm

/-- **The inverse**, by Fermat's little theorem. -/
theorem invert_spec (hM : M.Valid) (ha : a.value < M.m.value) (hne : a.value ≠ 0) :
    ∃ r one, M.invert a = some r ∧ r.value < M.m.value ∧ M.enterMont ONE = some one ∧ one.value = 2 ^ 256 % M.m.value ∧
      M.mul r a = some one ∧ M.mul a r = some one := by
  have : Fact M.m.value.Prime := ⟨hM.prime⟩
  have hlarge := hM.large
  have hm := value_lt M.m
  obtain ⟨one, hone, honeValue, honeRes⟩ := one_spec hM
  have honeLt : one.value < M.m.value := by
    rw [honeValue]
    exact Nat.mod_lt _ (by omega)
  obtain ⟨m0, m', hlimbs⟩ := List.exists_cons_of_length_eq_add_one M.m.length_eq
  have hlow := hM.low
  rw [hlimbs, List.headD_cons] at hlow
  have hexp : value ((m0 - 2) :: m') = M.m.value - 2 := by
    have hle := UInt32.le_iff_toNat_le.mp hlow
    rw [Limbs.value, hlimbs, value, value, UInt32.toNat_sub_of_le _ _ hlow]
    change 2 ≤ _ at hle
    change m0.toNat - 2 + _ = _
    omega
  obtain ⟨r, hr, hrlt, hrres⟩ := @SquareMultiply.ladder_spec Limbs (ZMod M.m.value) _ M.mul (fun x => x.value < M.m.value) (residue M)
    (fun x y hx hy => by
      obtain ⟨z, hz, hzlt, hzmod⟩ := mul_spec hM hx y
      exact ⟨z, hz, hzlt, residue_mul hM hzmod⟩) a ha (value ((m0 - 2) :: m')) 256 one honeLt 0 (by rw [honeRes, pow_zero])
  have hinvert : M.invert a = some r := by
    rw [Modulus.invert, hlimbs]
    dsimp only
    rw [if_neg (UInt32.not_lt.mpr hlow), hone, Option.bind_eq_bind, Option.bind_some]
    simp only [bit_eq]
    exact hr
  rw [hexp, Nat.zero_mul, Nat.zero_add, Nat.mod_eq_of_lt (by omega)] at hrres
  have hares : residue M a ≠ 0 := by
    refine mul_ne_zero (fun h0 => ?_) (inv_ne_zero (radix_ne_zero hM))
    have hdvd := (ZMod.natCast_eq_zero_iff _ _).mp h0
    exact absurd (Nat.le_of_dvd (Nat.pos_of_ne_zero hne) hdvd) (Nat.not_le.mpr ha)
  have hinverse : residue M r * residue M a = 1 := by
    rw [hrres, ← pow_succ, show M.m.value - 2 + 1 = M.m.value - 1 by omega]
    exact ZMod.pow_card_sub_one_eq_one hares
  obtain ⟨y, hy, hylt, hymod⟩ := mul_spec hM hrlt a
  obtain ⟨z, hz, hzlt, hzmod⟩ := mul_spec hM ha r
  have hyone : y = one := eq_of_residue hM hylt honeLt (by rw [residue_mul hM hymod, hinverse, honeRes])
  have hzone : z = one := eq_of_residue hM hzlt honeLt (by rw [residue_mul hM hzmod, mul_comm, hinverse, honeRes])
  exact ⟨r, one, hinvert, hrlt, hone, honeValue, hyone ▸ hy, hzone ▸ hz⟩

end

/-! ## The moduli -/

/-- Primes that need no certificate. -/
def smallPrimes : List Nat :=
  [2, 3, 5, 7, 11, 17, 19, 23, 29, 41, 43, 53, 71, 107, 127, 131, 173, 197, 229, 257, 311, 373, 641, 1201,
   1297, 1531, 2411, 3023, 3407, 3677, 3769, 16879, 17449, 18169, 38189, 65537, 78283, 104471, 126241, 155317,
   490463, 704251]

/-- A certificate of both moduli. -/
def primeLines : List SquareMultiply.Line :=
  [⟨6700417, 5, [2, 2, 2, 2, 2, 2, 2, 3, 17449]⟩,
   ⟨204061199, 11, [2, 11, 23, 107, 3769]⟩,
   ⟨34282281433, 17, [2, 2, 2, 3, 7, 204061199]⟩,
   ⟨66417393611, 6, [2, 5, 53, 173, 197, 3677]⟩,
   ⟨11290956913871, 13, [2, 5, 17, 66417393611]⟩,
   ⟨46076956964474543, 5, [2, 23, 18169, 78283, 704251]⟩,
   ⟨774023187263532362759620327192479577272145303, 3, [2, 3, 3, 2411, 34282281433, 11290956913871, 46076956964474543]⟩,
   ⟨835945042244614951780389953367877943453916927241, 11, [2, 2, 2, 3, 3, 3, 5, 774023187263532362759620327192479577272145303]⟩,
   ⟨115792089210356248762697446949407573530086143415290314195533631308867097853951, 6, [2, 3, 5, 5, 17, 257, 641, 1531, 65537, 490463, 6700417, 835945042244614951780389953367877943453916927241]⟩,
   ⟨9350987, 2, [2, 17, 229, 1201]⟩,
   ⟨187019741, 2, [2, 2, 5, 9350987]⟩,
   ⟨311245691, 2, [2, 5, 7, 17, 29, 29, 311]⟩,
   ⟨622491383, 5, [2, 311245691]⟩,
   ⟨3969899, 2, [2, 19, 104471]⟩,
   ⟨1002328039319, 19, [2, 126241, 3969899]⟩,
   ⟨191039911, 3, [2, 3, 5, 41, 155317]⟩,
   ⟨208150935158385979, 2, [2, 3, 11, 43, 127, 3023, 191039911]⟩,
   ⟨2624747550333869278416773953, 7, [2, 2, 2, 2, 2, 2, 3, 3, 1297, 16879, 208150935158385979]⟩,
   ⟨115792089210356248762697446949407573529996955224135760342422259061068512044369, 7, [2, 2, 2, 2, 3, 71, 131, 373, 3407, 17449, 38189, 187019741, 622491383, 1002328039319, 2624747550333869278416773953]⟩]

theorem smallPrimes_prime : ∀ q ∈ smallPrimes, q.Prime := by
  simp only [smallPrimes, List.forall_mem_cons, List.not_mem_nil, false_imp_iff, implies_true, and_true]
  norm_num

theorem primeLines_certify : SquareMultiply.certifies 256 smallPrimes primeLines = true := by decide +kernel

theorem prime_of_line {n : Nat} (h : n ∈ primeLines.map SquareMultiply.Line.number) : n.Prime := by
  obtain ⟨l, hl, rfl⟩ := List.mem_map.mp h
  exact SquareMultiply.prime_of_certifies smallPrimes_prime primeLines_certify l hl

theorem P_prime : P.m.value.Prime := prime_of_line (by decide +kernel)

theorem N_prime : N.m.value.Prime := prime_of_line (by decide +kernel)

theorem P_valid : P.Valid := ⟨by decide, by decide, P_prime, by decide +kernel, by decide +kernel⟩

theorem N_valid : N.Valid := ⟨by decide, by decide, N_prime, by decide +kernel, by decide +kernel⟩

/-- **Montgomery arithmetic is exact** for the field prime and the group order, and nothing overflows: products,
    sums, differences and inverses of reduced values. -/
theorem montgomery_exact (M : Modulus) (hM : M = P ∨ M = N) (a b : Limbs) (ha : a.value < M.m.value) (hb : b.value < M.m.value) :
    (∃ r, M.mul a b = some r ∧ r.value < M.m.value ∧ (r.value : ZMod M.m.value) = a.value * b.value * (2 ^ 256)⁻¹) ∧
    (∃ r, M.add a b = some r ∧ r.value = (a.value + b.value) % M.m.value) ∧
    (∃ r, M.sub a b = some r ∧ r.value = (a.value + M.m.value - b.value) % M.m.value) ∧
    (a.value ≠ 0 → ∃ r one, M.invert a = some r ∧ r.value < M.m.value ∧ M.enterMont ONE = some one ∧
      one.value = 2 ^ 256 % M.m.value ∧ M.mul r a = some one ∧ M.mul a r = some one) := by
  have hvalid : M.Valid := by
    rcases hM with rfl | rfl
    · exact P_valid
    · exact N_valid
  obtain ⟨r, hr, hlt, hmod⟩ := mul_spec hvalid ha b
  exact ⟨⟨r, hr, hlt, mul_residue hvalid hmod⟩, add_spec ha hb, sub_spec ha hb, invert_spec hvalid ha⟩

def seven : Limbs := ⟨[7, 0, 0, 0, 0, 0, 0, 0], rfl⟩

/-- The inverse of seven, for the group order. -/
theorem seven_inverse : ∃ r one, N.invert seven = some r ∧ N.enterMont ONE = some one ∧ N.mul r seven = some one := by
  have hlt : seven.value < N.m.value := by decide +kernel
  obtain ⟨-, -, -, hinvert⟩ := montgomery_exact N (Or.inr rfl) seven seven hlt hlt
  obtain ⟨r, one, hr, -, hone, -, hproduct, -⟩ := hinvert (by decide)
  exact ⟨r, one, hr, hone, hproduct⟩

end Zigbee.Mcuboot.P256
