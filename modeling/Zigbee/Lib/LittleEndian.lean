import Mathlib.Tactic.Ring
import Zigbee.Lib.Bytes

/-!
# Little-endian integers of any width

* `leBytes` and `leNat` — a number as `n` bytes, the least significant first, and back.
* `leNat_leBytes` — the number comes back where it fits.
-/

namespace Bytes

def leBytes (v : Nat) : Nat → Buf
  | 0 => []
  | n + 1 => UInt8.ofNat v :: leBytes (v / 256) n

def leNat : Buf → Nat
  | [] => 0
  | b :: bs => b.toNat + 256 * leNat bs

@[simp] theorem leBytes_length (v n : Nat) : (leBytes v n).length = n := by
  induction n generalizing v with
  | zero => rfl
  | succ n ih => simp [leBytes, ih]

theorem leNat_leBytes (v n : Nat) : leNat (leBytes v n) = v % 256 ^ n := by
  induction n generalizing v with
  | zero => simp [leBytes, leNat, Nat.mod_one]
  | succ n ih =>
    rw [leBytes, leNat, ih, pow_succ, Nat.mul_comm (256 ^ n) 256, Nat.mod_mul, UInt8.toNat_ofNat']

theorem leBytes_leNat (bs : Buf) : leBytes (leNat bs) bs.length = bs := by
  induction bs with
  | nil => rfl
  | cons b bs ih =>
    have hb := b.toNat_lt
    simp only [leNat, List.length_cons, leBytes, List.cons.injEq]
    refine ⟨?_, ?_⟩
    · apply UInt8.toNat_inj.mp
      rw [UInt8.toNat_ofNat']
      omega
    · rw [show (b.toNat + 256 * leNat bs) / 256 = leNat bs by omega]
      exact ih

theorem leNat_lt (bs : Buf) : leNat bs < 256 ^ bs.length := by
  induction bs with
  | nil => simp [leNat]
  | cons b bs ih =>
    have hb := b.toNat_lt
    rw [leNat, List.length_cons, pow_succ]
    omega

end Bytes
