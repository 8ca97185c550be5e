import Zigbee.Lib.Ccm

/-!
# Hashing with a block cipher

The construction of Matyas, Meyer and Oseas over any cipher with keys and blocks of 16 bytes, and its
padding: a one bit, zeros, and the length in bits in two bytes.

* `hash` — the iteration over the blocks of a padded string.
* `length_pad`, `zeros_least` — the padding fills whole blocks with as few zeros as it can.
* `pad_injective` — strings whose length can be written have different paddings.
-/

namespace Mmo

open Ccm (Block block blocks bigEndian)

/-- One step: the cipher is keyed with the hash so far. -/
def compress (E : Block → Block → Block) (h m : Block) : Block := Ccm.xor (E h m) m

def chain (E : Block → Block → Block) (h : Block) (ms : List Block) : Block := ms.foldl (compress E) h

/-- The zero bytes between the one bit and the length. -/
def zeros (n : Nat) : Nat := (29 - n % 16) % 16

/-- What is appended to a string of `n` bytes. -/
def padding (n : Nat) : List UInt8 := 0x80 :: List.replicate (zeros n) 0 ++ bigEndian 2 (8 * n)

def pad (data : List UInt8) : List UInt8 := data ++ padding data.length

def hash (E : Block → Block → Block) (data : List UInt8) : Block := chain E (Vector.replicate 16 0) (blocks (pad data))

@[simp] theorem length_bigEndian (k n : Nat) : (bigEndian k n).length = k := by
  induction k with
  | zero => rfl
  | succ k ih => rw [bigEndian, List.length_cons, ih]

theorem length_padding (n : Nat) : (padding n).length = zeros n + 3 := by
  simp [padding]

/-- **One block is added, or two** when the length does not fit behind the rest of the string. -/
theorem length_pad (data : List UInt8) :
    (pad data).length = 16 * (data.length / 16 + if 14 ≤ data.length % 16 then 2 else 1) := by
  rw [pad, List.length_append, length_padding, zeros]
  split <;> omega

theorem zeros_least {n z : Nat} (h : 16 ∣ n + 1 + z + 2) : zeros n ≤ z := by
  unfold zeros
  omega

theorem bigEndian_two_injective {n k : Nat} (hn : n < 2 ^ 16) (hk : k < 2 ^ 16) (h : bigEndian 2 n = bigEndian 2 k) : n = k := by
  simp only [bigEndian, List.cons.injEq, and_true, Nat.reducePow, Nat.div_one] at h
  have hhigh := congrArg UInt8.toNat h.1
  have hlow := congrArg UInt8.toNat h.2
  simp only [UInt8.toNat_ofNat'] at hhigh hlow
  omega

/-- **Padding loses nothing** of the strings whose length in bits can be written in two bytes. -/
theorem pad_injective {a b : List UInt8} (ha : a.length < 8192) (hb : b.length < 8192) (h : pad a = pad b) : a = b := by
  have htails : bigEndian 2 (8 * a.length) = bigEndian 2 (8 * b.length) := by
    unfold pad padding at h
    rw [← List.append_assoc, ← List.append_assoc] at h
    exact (List.append_inj' h (by rw [length_bigEndian, length_bigEndian])).2
  have hlength := bigEndian_two_injective (by omega) (by omega) htails
  exact (List.append_inj h (by omega)).1

/-! ## The last blocks -/

theorem getElem_block (l : List UInt8) (i : Nat) (hi : i < 16) : (block l)[i] = l[i]?.getD 0 := by
  rw [block, Vector.getElem_ofFn, List.getD_eq_getElem?_getD]

/-- A block is the bytes it shows. -/
theorem block_eq {l k : List UInt8} (h : ∀ i, i < 16 → l[i]?.getD 0 = k[i]?.getD 0) : block l = block k := by
  refine Vector.ext fun i hi => ?_
  rw [getElem_block, getElem_block, h i hi]

theorem block_append_of_full {l : List UInt8} (h : 16 ≤ l.length) (k : List UInt8) : block (l ++ k) = block l :=
  block_eq fun i hi => by rw [List.getElem?_append_left (by omega)]

theorem block_append_zeros (l : List UInt8) (n : Nat) : block (l ++ List.replicate n 0) = block l := by
  refine block_eq fun i _ => ?_
  by_cases hi : i < l.length
  · rw [List.getElem?_append_left hi]
  · rw [List.getElem?_append_right (by omega), List.getElem?_eq_none (by omega : l.length ≤ i), List.getElem?_replicate]
    split <;> rfl

theorem block_set {l : List UInt8} (h : l.length < 16) (b : UInt8) : (block l).set l.length b h = block (l ++ [b]) := by
  refine Vector.ext fun i hi => ?_
  rw [Vector.getElem_set, getElem_block, getElem_block]
  split
  · rename_i hil
    rw [← hil, List.getElem?_concat_length]
    rfl
  · by_cases hlow : i < l.length
    · rw [List.getElem?_append_left hlow]
    · rw [List.getElem?_eq_none (by omega), List.getElem?_eq_none (by rw [List.length_append, List.length_singleton]; omega)]

/-- The last two bytes of a block that is not full. -/
theorem block_set_last {l : List UInt8} (h : l.length ≤ 14) (hi lo : UInt8) :
    ((block l).set 14 hi).set 15 lo = block (l ++ List.replicate (14 - l.length) 0 ++ [hi, lo]) := by
  have hlength : (l ++ List.replicate (14 - l.length) 0).length = 14 := by
    rw [List.length_append, List.length_replicate]
    omega
  rw [← block_append_zeros l (14 - l.length)]
  generalize l ++ List.replicate (14 - l.length) 0 = m at hlength
  refine Vector.ext fun i hlt => ?_
  rw [Vector.getElem_set, Vector.getElem_set, getElem_block, getElem_block]
  by_cases hlow : i < 14
  · rw [if_neg (by omega), if_neg (by omega), List.getElem?_append_left (by omega)]
  · rw [List.getElem?_append_right (by omega), hlength]
    by_cases hi14 : i = 14
    · subst hi14
      rw [if_neg (by omega), if_pos rfl]
      rfl
    · obtain rfl : i = 15 := by omega
      rw [if_pos rfl]
      rfl

end Mmo
