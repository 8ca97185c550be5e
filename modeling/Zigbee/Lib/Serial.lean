import Mathlib.Algebra.Group.Nat.Defs

/-!
# Wrapping stamps

A counter or clock of 32 bits wraps; stamps taken from it are told apart by their age.

* `age_toNat` — the wrapping difference is the age, as long as the age has 32 bits.
* `age_lt_age` — the later stamp has the smaller age, as long as that of the earlier one has 32 bits.
-/

namespace Serial

variable {now stamp stamp' : Nat}

/-- A stamp's age, while it has 32 bits. -/
theorem age_toNat (hle : stamp ≤ now) (hlt : now - stamp < 2 ^ 32) :
    (UInt32.ofNat now - UInt32.ofNat stamp).toNat = now - stamp := by
  rw [UInt32.toNat_sub, UInt32.toNat_ofNat', UInt32.toNat_ofNat']
  omega

theorem age_lt_age (hlt : stamp < stamp') (hle : stamp' ≤ now) (hage : now - stamp < 2 ^ 32) :
    (UInt32.ofNat now - UInt32.ofNat stamp').toNat < (UInt32.ofNat now - UInt32.ofNat stamp).toNat := by
  rw [age_toNat hle (by omega), age_toNat (by omega) hage]
  omega

end Serial
