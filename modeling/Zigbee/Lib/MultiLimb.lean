import Mathlib.Algebra.Group.Nat.Even
import Mathlib.Tactic.Ring

/-!
# Numbers of many limbs

Little-endian numbers of 32-bit limbs, and the loops over their limbs with a 64-bit carry.  A checked operation
of a machine fails where it overflows.

* `value` — the number that limbs are; `testBit_value` — its bits.
* `addRow`, `subRow`, `mulAddRow` — the loops; `addRow_spec`, `subRow_spec`, `mulAddRow_spec` — none of them
  overflows, and what they compute.
* `less_iff` — the comparison from the highest limb down.
-/

namespace MultiLimb

def value : List UInt32 → Nat
  | [] => 0
  | x :: xs => x.toNat + 2 ^ 32 * value xs

/-! ## Words -/

def checkedAdd (a b : UInt64) : Option UInt64 := if a.toNat + b.toNat < 2 ^ 64 then some (a + b) else none

def checkedMul (a b : UInt64) : Option UInt64 := if a.toNat * b.toNat < 2 ^ 64 then some (a * b) else none

section
variable {a b x : UInt64}

theorem checkedAdd_eq (h : a.toNat + b.toNat < 2 ^ 64) : ∃ c, checkedAdd a b = some c ∧ c.toNat = a.toNat + b.toNat :=
  ⟨a + b, if_pos h, by rw [UInt64.toNat_add, Nat.mod_eq_of_lt h]⟩

theorem checkedMul_eq (h : a.toNat * b.toNat < 2 ^ 64) : ∃ c, checkedMul a b = some c ∧ c.toNat = a.toNat * b.toNat :=
  ⟨a * b, if_pos h, by rw [UInt64.toNat_mul, Nat.mod_eq_of_lt h]⟩

theorem shift_toNat (x : UInt64) : (x >>> 32).toNat = x.toNat / 2 ^ 32 := by
  rw [UInt64.toNat_shiftRight, Nat.shiftRight_eq_div_pow]
  rfl

/-- A word is its low half and its high half. -/
theorem low_add_high (x : UInt64) : x.toUInt32.toNat + 2 ^ 32 * (x >>> 32).toNat = x.toNat := by
  rw [shift_toNat, UInt64.toNat_toUInt32]
  omega

theorem high_lt (x : UInt64) : (x >>> 32).toNat < 2 ^ 32 := by
  have := x.toNat_lt
  rw [shift_toNat]
  omega

end

/-! ## Values -/

section
variable {a b l : List UInt32}

theorem value_append (l l' : List UInt32) : value (l ++ l') = value l + 2 ^ (32 * l.length) * value l' := by
  induction l with
  | nil => simp [value]
  | cons x l ih =>
    rw [List.cons_append, value, value, ih, List.length_cons, Nat.mul_succ, pow_add]
    ring

theorem value_lt (l : List UInt32) : value l < 2 ^ (32 * l.length) := by
  induction l with
  | nil => exact Nat.one_pos
  | cons x l ih =>
    have hx := x.toNat_lt
    rw [value, List.length_cons, Nat.mul_succ, pow_add]
    omega

/-- Two numbers of one length, limb by limb. -/
@[elab_as_elim]
theorem limbs_induct {motive : (a b : List UInt32) → a.length = b.length → Prop} (nil : motive [] [] rfl)
    (cons : ∀ x y a b (hlen : a.length = b.length), motive a b hlen → motive (x :: a) (y :: b) (congrArg (· + 1) hlen)) :
    ∀ a b hlen, motive a b hlen
  | [], [], _ => nil
  | x :: a, y :: b, hlen => cons x y a b (Nat.succ.inj hlen) (limbs_induct nil cons a b (Nat.succ.inj hlen))

/-- Limbs of one length are told apart by their values. -/
theorem value_injective (hlen : a.length = b.length) (h : value a = value b) : a = b := by
  induction a, b, hlen using limbs_induct with
  | nil => rfl
  | cons x y a b hlen ih =>
    have hx := x.toNat_lt
    have hy := y.toNat_lt
    rw [value, value] at h
    obtain ⟨hxy, hab⟩ : x.toNat = y.toNat ∧ value a = value b := by omega
    rw [UInt32.toNat_inj.mp hxy, ih hab]

/-- A bit of a number is a bit of one of its limbs. -/
theorem testBit_value (l : List UInt32) (i : Nat) : (value l).testBit i = (l.getD (i / 32) 0).toNat.testBit (i % 32) := by
  induction l generalizing i with
  | nil => simp [value]
  | cons x l ih =>
    rw [value, Nat.add_comm, Nat.testBit_two_pow_mul_add _ x.toNat_lt]
    by_cases h : i < 32
    · rw [if_pos h, Nat.div_eq_of_lt h, Nat.mod_eq_of_lt h]
      rfl
    · obtain ⟨j, rfl⟩ := Nat.exists_eq_add_of_le (Nat.not_lt.mp h)
      rw [if_neg h, Nat.add_sub_cancel_left, ih, Nat.add_div_left _ (by decide), Nat.add_mod_left]
      rfl

end

/-! ## Rows -/

def addRow : List UInt32 → List UInt32 → UInt64 → Option (List UInt32 × UInt64)
  | x :: xs, y :: ys, carry => do
    let sum ← checkedAdd x.toUInt64 y.toUInt64
    let sum ← checkedAdd sum carry
    let (rest, carry) ← addRow xs ys (sum >>> 32)
    some (sum.toUInt32 :: rest, carry)
  | _, _, carry => some ([], carry)

/-- The subtractions wrap. -/
def subRow : List UInt32 → List UInt32 → UInt64 → List UInt32 × UInt64
  | x :: xs, y :: ys, borrow =>
    let difference := x.toUInt64 - y.toUInt64 - borrow
    let (rest, borrow) := subRow xs ys (difference >>> 63 &&& 1)
    (difference.toUInt32 :: rest, borrow)
  | _, _, borrow => ([], borrow)

/-- `xs + ys * word` -/
def mulAddRow (word : UInt64) : List UInt32 → List UInt32 → UInt64 → Option (List UInt32 × UInt64)
  | x :: xs, y :: ys, carry => do
    let product ← checkedMul y.toUInt64 word
    let sum ← checkedAdd x.toUInt64 product
    let sum ← checkedAdd sum carry
    let (rest, carry) ← mulAddRow word xs ys (sum >>> 32)
    some (sum.toUInt32 :: rest, carry)
  | _, _, carry => some ([], carry)

def lessFrom : List UInt32 → List UInt32 → Bool
  | x :: xs, y :: ys => if x ≠ y then x < y else lessFrom xs ys
  | _, _ => false

/-- `for i in (0..n).rev()`: the highest limbs that differ decide. -/
def less (a b : List UInt32) : Bool := lessFrom a.reverse b.reverse

section
variable {a b : List UInt32}

/-- The low half of a word before a row that takes the high half as its carry. -/
theorem value_carry {t : UInt64} {r : List UInt32} {m c rest : Nat} (h : value r + 2 ^ (32 * m) * c = rest + (t >>> 32).toNat) :
    value (t.toUInt32 :: r) + 2 ^ (32 * (m + 1)) * c = t.toNat + 2 ^ 32 * rest := by
  rw [value, Nat.mul_succ, pow_add]
  calc t.toUInt32.toNat + 2 ^ 32 * value r + 2 ^ (32 * m) * 2 ^ 32 * c
      = t.toUInt32.toNat + 2 ^ 32 * (value r + 2 ^ (32 * m) * c) := by ring
    _ = t.toUInt32.toNat + 2 ^ 32 * (t >>> 32).toNat + 2 ^ 32 * rest := by rw [h]; ring
    _ = t.toNat + 2 ^ 32 * rest := by rw [low_add_high]

theorem addRow_spec {carry : UInt64} (hlen : a.length = b.length) (hcarry : carry.toNat ≤ 1) :
    ∃ r carry', addRow a b carry = some (r, carry') ∧ r.length = a.length ∧ carry'.toNat ≤ 1 ∧
      value r + 2 ^ (32 * a.length) * carry'.toNat = value a + value b + carry.toNat := by
  induction a, b, hlen using limbs_induct generalizing carry with
  | nil =>
    exact ⟨[], carry, rfl, rfl, hcarry, by simp [value]⟩
  | cons x y a b hlen ih =>
    have hx := x.toNat_lt
    have hy := y.toNat_lt
    obtain ⟨s, hs, hsum⟩ := @checkedAdd_eq x.toUInt64 y.toUInt64 (by
      rw [UInt32.toNat_toUInt64, UInt32.toNat_toUInt64]
      omega)
    rw [UInt32.toNat_toUInt64, UInt32.toNat_toUInt64] at hsum
    obtain ⟨t, ht, htotal⟩ := @checkedAdd_eq s carry (by omega)
    obtain ⟨r, carry', hr, hlength, hle, hvalue⟩ := @ih (t >>> 32) (by
      rw [shift_toNat]
      omega)
    refine ⟨t.toUInt32 :: r, carry', ?_, by rw [List.length_cons, hlength, List.length_cons], hle, ?_⟩
    · simp only [addRow, hs, ht, hr, Option.bind_eq_bind, Option.bind_some]
    · rw [List.length_cons, value_carry hvalue, value, value]
      omega

theorem subRow_length {borrow : UInt64} (hlen : a.length = b.length) : (subRow a b borrow).1.length = a.length := by
  induction a, b, hlen using limbs_induct generalizing borrow with
  | nil => rfl
  | cons x y a b hlen ih =>
    rw [subRow, List.length_cons]
    exact congrArg (· + 1) (ih)

/-- A difference with borrow of two limbs. -/
theorem sub_word (x y : UInt32) {borrow : UInt64} (hborrow : borrow.toNat ≤ 1) :
    ((x.toUInt64 - y.toUInt64 - borrow) >>> 63 &&& 1).toNat ≤ 1 ∧
      (x.toUInt64 - y.toUInt64 - borrow).toUInt32.toNat + y.toNat + borrow.toNat =
        x.toNat + 2 ^ 32 * ((x.toUInt64 - y.toUInt64 - borrow) >>> 63 &&& 1).toNat := by
  have hx := x.toNat_lt
  have hy := y.toNat_lt
  have hand : ∀ w : UInt64, (w >>> 63 &&& 1).toNat = w.toNat / 2 ^ 63 := by
    intro w
    have hw := w.toNat_lt
    rw [UInt64.toNat_and, UInt64.toNat_shiftRight, Nat.shiftRight_eq_div_pow]
    change w.toNat / 2 ^ 63 &&& 1 = _
    rw [Nat.and_one_is_mod]
    omega
  rw [hand, UInt64.toNat_toUInt32, UInt64.toNat_sub, UInt64.toNat_sub, UInt32.toNat_toUInt64, UInt32.toNat_toUInt64]
  omega

theorem subRow_spec {borrow : UInt64} (hlen : a.length = b.length) (hborrow : borrow.toNat ≤ 1) :
    (subRow a b borrow).2.toNat ≤ 1 ∧
      value (subRow a b borrow).1 + value b + borrow.toNat = value a + 2 ^ (32 * a.length) * (subRow a b borrow).2.toNat := by
  induction a, b, hlen using limbs_induct generalizing borrow with
  | nil =>
    exact ⟨hborrow, by simp [subRow, value]⟩
  | cons x y a b hlen ih =>
    obtain ⟨hword, hvalue⟩ := sub_word x y hborrow
    obtain ⟨hle, hrest⟩ := ih hword
    refine ⟨hle, ?_⟩
    rw [subRow]
    dsimp only
    rw [value, value, value, List.length_cons, Nat.mul_succ, pow_add]
    generalize (subRow a b ((x.toUInt64 - y.toUInt64 - borrow) >>> 63 &&& 1)) = rest at hle hrest
    have hscaled := congrArg (2 ^ 32 * ·) hrest
    have hright : 2 ^ 32 * (value a + 2 ^ (32 * a.length) * rest.2.toNat) =
        2 ^ 32 * value a + 2 ^ (32 * a.length) * 2 ^ 32 * rest.2.toNat := by ring
    rw [hright] at hscaled
    omega

theorem mulAddRow_spec {word carry : UInt64} (hlen : a.length = b.length) (hword : word.toNat < 2 ^ 32)
    (hcarry : carry.toNat < 2 ^ 32) :
    ∃ r carry', mulAddRow word a b carry = some (r, carry') ∧ r.length = a.length ∧ carry'.toNat < 2 ^ 32 ∧
      value r + 2 ^ (32 * a.length) * carry'.toNat = value a + value b * word.toNat + carry.toNat := by
  induction a, b, hlen using limbs_induct generalizing carry with
  | nil =>
    exact ⟨[], carry, rfl, rfl, hcarry, by simp [value]⟩
  | cons x y a b hlen ih =>
    have hx := x.toNat_lt
    have hy := y.toNat_lt
    have hbound : y.toNat * word.toNat ≤ (2 ^ 32 - 1) * (2 ^ 32 - 1) := Nat.mul_le_mul (by omega) (by omega)
    obtain ⟨p, hp, hproduct⟩ := @checkedMul_eq y.toUInt64 word (by
      rw [UInt32.toNat_toUInt64]
      omega)
    rw [UInt32.toNat_toUInt64] at hproduct
    obtain ⟨s, hs, hsum⟩ := @checkedAdd_eq x.toUInt64 p (by
      rw [UInt32.toNat_toUInt64]
      omega)
    rw [UInt32.toNat_toUInt64] at hsum
    obtain ⟨t, ht, htotal⟩ := @checkedAdd_eq s carry (by omega)
    obtain ⟨r, carry', hr, hlength, hlt, hvalue⟩ := @ih (t >>> 32) (high_lt t)
    refine ⟨t.toUInt32 :: r, carry', ?_, by rw [List.length_cons, hlength, List.length_cons], hlt, ?_⟩
    · simp only [mulAddRow, hp, hs, ht, hr, Option.bind_eq_bind, Option.bind_some]
    · rw [List.length_cons, value_carry hvalue, value, value, htotal, hsum, hproduct]
      ring

/-! ## Comparison -/

theorem lessFrom_iff (hlen : a.length = b.length) : lessFrom a b = true ↔ value a.reverse < value b.reverse := by
  induction a, b, hlen using limbs_induct with
  | nil =>
    simp [lessFrom]
  | cons x y a b hlen ih =>
    have ha := value_lt a.reverse
    have hb := value_lt b.reverse
    rw [List.length_reverse] at ha hb
    rw [List.reverse_cons, List.reverse_cons, value_append, value_append, List.length_reverse, List.length_reverse, ← hlen,
      lessFrom]
    rw [← hlen] at hb
    simp only [value, Nat.mul_zero, Nat.add_zero]
    by_cases hxy : x = y
    · subst hxy
      rw [if_neg (not_not_intro rfl), ih, Nat.add_lt_add_iff_right]
    · rw [if_pos hxy, decide_eq_true_eq, UInt32.lt_iff_toNat_lt]
      have hne : x.toNat ≠ y.toNat := fun h => hxy (UInt32.toNat_inj.mp h)
      generalize 2 ^ (32 * a.length) = R at ha hb
      constructor
      · intro hlt
        have := Nat.mul_le_mul_left R (Nat.succ_le_of_lt hlt)
        rw [Nat.mul_succ] at this
        omega
      · intro hlt
        by_contra hge
        have hyx : y.toNat + 1 ≤ x.toNat := by omega
        have := Nat.mul_le_mul_left R hyx
        rw [Nat.mul_succ] at this
        omega

theorem less_iff (hlen : a.length = b.length) : less a b = true ↔ value a < value b := by
  have := lessFrom_iff (a := a.reverse) (b := b.reverse) (by simpa using hlen)
  rwa [List.reverse_reverse, List.reverse_reverse] at this

end

end MultiLimb
