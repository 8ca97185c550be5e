import Mathlib.Algebra.Group.Nat.Defs
import Mathlib.Data.List.Basic
import Mathlib.Tactic.Common

/-!
# Counter with CBC-MAC

The mode of operation of RFC 3610 over any block function of 16 bytes, with a MIC of `M` bytes and a
length field of `L` bytes.

* `encrypt`, `decrypt` — encryption with authentication, and its inverse.
* `decrypt_eq_some` — a string opens to a message exactly if it is the encryption of that message.
* `blocks_step` — the blocks of a string, one at a time.
-/

namespace Ccm

abbrev Block := Vector UInt8 16

/-- The first 16 bytes, with zeros after the end. -/
def block (l : List UInt8) : Block := Vector.ofFn fun i => l.getD i 0

/-- A string in blocks, the last one padded with zeros. -/
def blocks (l : List UInt8) : List Block := (List.range ((l.length + 15) / 16)).map fun i => block (l.drop (16 * i))

def xor (a b : Block) : Block := Vector.ofFn fun i => a[i] ^^^ b[i]

/-- A number in `n` bytes, the most significant one first. -/
def bigEndian : Nat → Nat → List UInt8
  | 0, _ => []
  | n + 1, v => UInt8.ofNat (v / 256 ^ n) :: bigEndian n v

section
variable (E : Block → Block) (M L : Nat) (nonce aad : List UInt8)

/-- `B_0` for a message of `n` bytes. -/
def firstBlock (n : Nat) : Block :=
  block (UInt8.ofNat ((if aad = [] then 0 else 64) + 8 * ((M - 2) / 2) + (L - 1)) :: nonce ++ bigEndian L n)

/-- The length of the additional data, ahead of it. -/
def encodedLength (n : Nat) : List UInt8 :=
  if n < 0xFF00 then bigEndian 2 n
  else if n < 2 ^ 32 then 0xFF :: 0xFE :: bigEndian 4 n
  else 0xFF :: 0xFF :: bigEndian 8 n

def aadBlocks : List Block := if aad = [] then [] else blocks (encodedLength aad.length ++ aad)

/-- Cipher block chaining from `x` on. -/
def chain (x : Block) (bs : List Block) : Block := bs.foldl (fun x b => E (xor x b)) x

/-- The last block of the chain over the message. -/
def mac (message : List UInt8) : Block :=
  chain E (E (firstBlock M L nonce aad message.length)) (aadBlocks aad ++ blocks message)

/-- `S_i` -/
def keyStream (i : Nat) : Block := E (block (UInt8.ofNat (L - 1) :: nonce ++ bigEndian L i))

/-- The byte that the message's byte `i` is combined with. -/
def keyStreamByte (i : Nat) : UInt8 := (keyStream E L nonce (i / 16 + 1))[i % 16]

/-- The message under the key stream from `S_1` on. -/
def ctr (message : List UInt8) : List UInt8 :=
  message.mapIdx fun i b => b ^^^ (keyStream E L nonce (i / 16 + 1))[i % 16]

/-- The MIC: the first `M` bytes of the MAC under `S_0`. -/
def mic (message : List UInt8) : List UInt8 := ((xor (mac E M L nonce aad message) (keyStream E L nonce 0)).toList).take M

def encrypt (message : List UInt8) : List UInt8 := ctr E L nonce message ++ mic E M L nonce aad message

def decrypt (c : List UInt8) : Option (List UInt8) :=
  if c.length < M then none
  else
    let message := ctr E L nonce (c.take (c.length - M))
    if mic E M L nonce aad message = c.drop (c.length - M) then some message else none

end

section
variable {E : Block → Block} {M L : Nat} {nonce aad message c : List UInt8}

@[simp] theorem length_ctr : (ctr E L nonce message).length = message.length := List.length_mapIdx

theorem ctr_ctr : ctr E L nonce (ctr E L nonce message) = message := by
  refine List.ext_getElem? fun i => ?_
  unfold ctr
  rw [List.getElem?_mapIdx, List.getElem?_mapIdx]
  cases message[i]? with
  | none => rfl
  | some b => simp only [Option.map_some, UInt8.xor_assoc, UInt8.xor_self, UInt8.xor_zero]

theorem length_mic (hM : M ≤ 16) : (mic E M L nonce aad message).length = M := by
  unfold mic
  rw [List.length_take, Vector.length_toList]
  omega

/-- **A string opens to a message exactly if it is the encryption of that message.** -/
theorem decrypt_eq_some (hM : M ≤ 16) : decrypt E M L nonce aad c = some message ↔ c = encrypt E M L nonce aad message := by
  unfold decrypt
  constructor
  · intro h
    split at h
    · cases h
    · dsimp only at h
      split at h
      · rename_i hmic
        obtain rfl := Option.some.inj h
        unfold encrypt
        rw [ctr_ctr, hmic, List.take_append_drop]
      · cases h
  · rintro rfl
    have hlength : (encrypt E M L nonce aad message).length = message.length + M := by
      unfold encrypt
      rw [List.length_append, length_ctr, length_mic hM]
    have htake : (encrypt E M L nonce aad message).take ((encrypt E M L nonce aad message).length - M) = ctr E L nonce message := by
      rw [hlength, Nat.add_sub_cancel]
      exact List.take_left' length_ctr
    have hdrop : (encrypt E M L nonce aad message).drop ((encrypt E M L nonce aad message).length - M) =
        mic E M L nonce aad message := by
      rw [hlength, Nat.add_sub_cancel]
      exact List.drop_left' length_ctr
    rw [if_neg (by omega), htake, hdrop, ctr_ctr]
    exact if_pos rfl

end

/-! ## Block by block -/

@[simp] theorem blocks_nil : blocks [] = [] := rfl

/-- The first block of a string, and those of the rest. -/
theorem blocks_step {l : List UInt8} (h : l ≠ []) : blocks l = block l :: blocks (l.drop 16) := by
  have hlength := List.length_pos_of_ne_nil h
  have hcount : (l.length + 15) / 16 = ((l.drop 16).length + 15) / 16 + 1 := by
    rw [List.length_drop]
    omega
  unfold blocks
  rw [hcount, List.range_succ_eq_map, List.map_cons, List.map_map]
  refine congrArg₂ List.cons rfl (List.map_congr_left fun i _ => ?_)
  rw [Function.comp_apply, List.drop_drop, Nat.mul_succ, Nat.add_comm]

theorem block_take {l : List UInt8} {n : Nat} (h : min 16 l.length ≤ n) : block (l.take n) = block l := by
  unfold block
  congr 1
  funext i
  rw [List.getD_eq_getElem?_getD, List.getD_eq_getElem?_getD, List.getElem?_take]
  split
  · rfl
  · rw [List.getElem?_eq_none (by omega)]

end Ccm
