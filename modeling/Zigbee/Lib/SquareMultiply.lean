import Mathlib.Data.List.Prime
import Mathlib.NumberTheory.LucasPrimality

/-!
# Square-and-multiply, and primality by certificates

* `ladder` — a power by square-and-multiply over the bits of an exponent, the highest first, with a product that
  may fail.
* `ladder_spec` — where products of good values succeed and follow those of a monoid, so do powers.
* `powMod`, `Line`, `certifies` — Lucas's test for a list of numbers, each from the primes in front of it.
* `prime_of_certifies` — every number of a certificate that passes is prime.
-/

namespace SquareMultiply

variable {α G : Type} [Monoid G]

/-- `for i in (0..n).rev()`: squares, and multiplies by `a` where the bit is set. -/
def ladder (mul : α → α → Option α) (a : α) (bit : Nat → Bool) : Nat → α → Option α
  | 0, r => some r
  | n + 1, r => do
    let r ← mul r r
    let r ← if bit n then mul r a else some r
    ladder mul a bit n r

/-- **The ladder computes a power.** -/
theorem ladder_spec {mul : α → α → Option α} {Good : α → Prop} {φ : α → G}
    (hmul : ∀ x y, Good x → Good y → ∃ z, mul x y = some z ∧ Good z ∧ φ z = φ x * φ y) {a : α} (ha : Good a)
    (e n : Nat) {r : α} (hr : Good r) {k : Nat} (hk : φ r = φ a ^ k) :
    ∃ z, ladder mul a e.testBit n r = some z ∧ Good z ∧ φ z = φ a ^ (k * 2 ^ n + e % 2 ^ n) := by
  induction n generalizing r k with
  | zero => exact ⟨r, rfl, hr, by rw [hk, pow_zero, mul_one, Nat.mod_one, add_zero]⟩
  | succ n ih =>
    obtain ⟨s, hs, hgood, hφ⟩ := hmul r r hr hr
    have hsquare : φ s = φ a ^ (2 * k) := by rw [hφ, hk, ← pow_add, two_mul]
    have hexp : k * 2 ^ (n + 1) + e % 2 ^ (n + 1) = (2 * k + (e.testBit n).toNat) * 2 ^ n + e % 2 ^ n := by
      rw [Nat.mod_pow_succ, ← Nat.toNat_testBit, pow_succ]
      ring
    rw [ladder, hs, Option.bind_eq_bind, Option.bind_some, hexp]
    cases hbit : e.testBit n with
    | false => exact ih hgood (hsquare.trans (by rw [Bool.toNat_false, add_zero]))
    | true =>
      obtain ⟨t, ht, htgood, htφ⟩ := hmul s a hgood ha
      rw [if_pos rfl, ht, Option.bind_some]
      exact ih htgood (by rw [htφ, hsquare, ← pow_succ, Bool.toNat_true])

/-! ## Certificates -/

/-- `a ^ e % m`, for an exponent of at most `n` bits. -/
def powMod (m n a e : Nat) : Option Nat := ladder (fun x y => some (x * y % m)) a e.testBit n (1 % m)

theorem powMod_spec {m n a e : Nat} (he : e < 2 ^ n) : ∃ z, powMod m n a e = some z ∧ (z : ZMod m) = (a : ZMod m) ^ e := by
  have hmul : ∀ x y : Nat, True → True → ∃ z, some (x * y % m) = some z ∧ True ∧ (z : ZMod m) = (x : ZMod m) * (y : ZMod m) :=
    fun x y _ _ => ⟨x * y % m, rfl, trivial, by rw [ZMod.natCast_mod, Nat.cast_mul]⟩
  have hone : ((1 % m : Nat) : ZMod m) = (a : ZMod m) ^ 0 := by rw [ZMod.natCast_mod, Nat.cast_one, pow_zero]
  obtain ⟨z, hz, -, hpow⟩ := @ladder_spec Nat (ZMod m) _ (fun x y => some (x * y % m)) (fun _ => True) (fun x => (x : ZMod m)) hmul a
    trivial e n (1 % m) trivial 0 hone
  rw [Nat.zero_mul, Nat.zero_add, Nat.mod_eq_of_lt he] at hpow
  exact ⟨z, hz, hpow⟩

/-- A number with a generator of its residues, and the primes whose product is one less than it. -/
structure Line where
  number : Nat
  generator : Nat
  factors : List Nat

/-- Lucas's test, with exponents of at most `n` bits. -/
def Line.passes (n : Nat) (known : List Nat) (l : Line) : Bool :=
  1 < l.number && l.number ≤ 2 ^ n && l.factors.all (known.contains ·) && l.factors.prod + 1 == l.number &&
    powMod l.number n l.generator (l.number - 1) == some 1 &&
    l.factors.all fun q => (powMod l.number n l.generator ((l.number - 1) / q)).any (· % l.number ≠ 1)

/-- Every line passes with the primes that are known and the numbers in front of it. -/
def certifies (n : Nat) : List Nat → List Line → Bool
  | _, [] => true
  | known, l :: ls => l.passes n known && certifies n (l.number :: known) ls

theorem prime_of_passes {n : Nat} {known : List Nat} {l : Line} (hknown : ∀ q ∈ known, q.Prime) (h : l.passes n known = true) :
    l.number.Prime := by
  simp only [Line.passes, Bool.and_eq_true, decide_eq_true_eq, List.all_eq_true, beq_iff_eq, List.contains_iff_mem] at h
  obtain ⟨⟨⟨⟨⟨hone, hsize⟩, hfactors⟩, hprod⟩, hfull⟩, hparts⟩ := h
  have hpred : l.number - 1 < 2 ^ n := by omega
  refine lucas_primality l.number (l.generator : ZMod l.number) ?_ fun q hq hdvd hbad => ?_
  · obtain ⟨z, hz, hpow⟩ := powMod_spec (m := l.number) (a := l.generator) hpred
    obtain rfl : z = 1 := Option.some.inj (hz.symm.trans hfull)
    rw [← hpow, Nat.cast_one]
  · rw [show l.number - 1 = l.factors.prod by omega] at hdvd
    obtain ⟨q', hq', hdvd'⟩ := (Prime.dvd_prod_iff hq.prime).mp hdvd
    obtain rfl := (Nat.prime_dvd_prime_iff_eq hq (hknown q' (hfactors q' hq'))).mp hdvd'
    obtain ⟨z, hz, hpow⟩ := powMod_spec (m := l.number) (a := l.generator)
      (show (l.number - 1) / q < 2 ^ n from (Nat.div_le_self _ _).trans_lt hpred)
    have hpart := hparts q hq'
    rw [hz, Option.any_some, decide_eq_true_eq] at hpart
    rw [← hpow, ← Nat.cast_one, ZMod.natCast_eq_natCast_iff', Nat.mod_eq_of_lt hone] at hbad
    exact hpart hbad

/-- **The numbers of a certificate are prime.** -/
theorem prime_of_certifies {n : Nat} {known : List Nat} {ls : List Line} (hknown : ∀ q ∈ known, q.Prime)
    (h : certifies n known ls = true) : ∀ l ∈ ls, l.number.Prime := by
  induction ls generalizing known with
  | nil => exact nofun
  | cons l ls ih =>
    rw [certifies, Bool.and_eq_true] at h
    have hprime := prime_of_passes hknown h.1
    intro l' hl'
    rcases List.mem_cons.mp hl' with rfl | hlater
    · exact hprime
    · exact ih (List.forall_mem_cons.mpr ⟨hprime, hknown⟩) h.2 l' hlater

end SquareMultiply
