import Zigbee.Crypto.CcmStar
import Zigbee.Lib.Mmo
import Zigbee.Types

/-!
# AES-MMO

`aes_mmo_hash_with` of `zigbee-crypto`: the hash of a message over any provider of forward ciphers,
each of which may fail.

* `aesMmoChunks`, `aesMmoFinish` — the loop over the whole blocks, and the padding of what is left.
* `Settles` — the outcome is a value, or the failure of the cipher.
* `aesMmoHashWith_settles` — the hash is that of the padded message.
-/

namespace Zigbee.Crypto

open Ccm (Block block blocks)

inductive AesMmoError where
  | inputTooLong
  | cipherFailure
  deriving DecidableEq, Repr

/-- `forward_cipher` -/
structure ForwardAesProvider (σ ε : Type) where
  forwardCipher : AesKey → Aes128Forward σ ε

section
variable {σ ε : Type} (P : ForwardAesProvider σ ε)

abbrev Hashing (σ ε η : Type) := ExceptT η (StateM (EngineState σ ε))

def aesMmoCompress (hash : AesKey) (message : Block) : Hashing σ ε AesMmoError AesKey := do
  let encrypted ← ExceptT.adapt (fun _ => .cipherFailure) (encryptBlock (P.forwardCipher hash) message)
  return Ccm.xor encrypted message

/-- The padded end of the message; `bitLen` is its length. -/
def aesMmoFinish (bitLen : UInt16) (remainder : List UInt8) (h : remainder.length < 16) (hash : AesKey) :
    Hashing σ ε AesMmoError AesKey := do
  let finalBlock := copyFromSlice zeroBlock 0 remainder (by omega)
  let finalBlock := finalBlock.set remainder.length 0x80
  let (hash, finalBlock) ←
    if remainder.length > 13 then do
      let hash ← aesMmoCompress P hash finalBlock
      pure (hash, zeroBlock)
    else pure (hash, finalBlock)
  aesMmoCompress P hash ((finalBlock.set 14 (bitLen >>> 8).toUInt8 (by decide)).set 15 bitLen.toUInt8 (by decide))

/-- The whole blocks of `data`, and then the end. -/
def aesMmoChunks (bitLen : UInt16) (data : List UInt8) (hash : AesKey) : Hashing σ ε AesMmoError AesKey :=
  if h : 16 ≤ data.length then do
    let chunk := slice data 0 16 (by omega)
    let hash ← aesMmoCompress P hash (copyFromSlice zeroBlock 0 chunk (by rw [length_slice]))
    aesMmoChunks bitLen (data.drop 16) hash
  else aesMmoFinish P bitLen data (by omega) hash
termination_by data.length
decreasing_by
  rw [List.length_drop]
  omega

def aesMmoHashWith (data : List UInt8) : Hashing σ ε AesMmoError AesKey :=
  if data.length * 8 < 2 ^ 16 then aesMmoChunks P (UInt16.ofNat (data.length * 8)) data (Vector.replicate 16 0)
  else throw .inputTooLong

/-! ## Outcomes -/

/-- The block cipher that the provider gives. -/
def ForwardAesProvider.cipher (k m : Block) : Block := (P.forwardCipher k).forward m

/-- The provider gives a cipher that can fail. -/
def ForwardAesProvider.MayFail : Prop := ∃ k s m, (P.forwardCipher k).fails s m ≠ none

variable {η α β : Type}

/-- **The outcome is `v`, or the failure `e` of a cipher.** -/
def Settles (e : η) (x : Hashing σ ε η α) (v : α) : Prop :=
  ∀ s, (∃ t, x s = (.ok v, t)) ∨ P.MayFail ∧ ∃ t, x s = (.error e, t)

theorem Settles.pure (e : η) (v : α) : Settles P e (Pure.pure v) v := fun s => Or.inl ⟨s, rfl⟩

variable {P}

theorem Settles.bind {e : η} {x : Hashing σ ε η α} {f : α → Hashing σ ε η β} {a : α} {v : β} (hx : Settles P e x a)
    (hf : Settles P e (f a) v) : Settles P e (x >>= f) v := by
  intro s
  have hrun : (x >>= f) s = match x s with
      | (.ok a, t) => f a t
      | (.error e, t) => (.error e, t) := by
    simp only [Bind.bind, ExceptT.bind, ExceptT.mk, StateT.bind]
    rcases x s with ⟨r | r, t⟩ <;> rfl
  rw [hrun]
  rcases hx s with ⟨t, ht⟩ | ⟨hfail, t, ht⟩
  · rw [ht]
    exact hf t
  · rw [ht]
    exact Or.inr ⟨hfail, t, rfl⟩

theorem aesMmoCompress_settles (hash : AesKey) (message : Block) :
    Settles P .cipherFailure (aesMmoCompress P hash message) (Mmo.compress P.cipher hash message) := by
  have hadapt : Settles P AesMmoError.cipherFailure
      (ExceptT.adapt (fun _ => .cipherFailure) (encryptBlock (P.forwardCipher hash) message)) (P.cipher hash message) := by
    intro s
    have hrun : ExceptT.adapt (fun _ => AesMmoError.cipherFailure) (encryptBlock (P.forwardCipher hash) message) s =
        ((encryptBlock (P.forwardCipher hash) message s).1.mapError fun _ => .cipherFailure,
          (encryptBlock (P.forwardCipher hash) message s).2) := rfl
    rw [hrun]
    unfold encryptBlock
    cases hfails : (P.forwardCipher hash).fails s.engine message with
    | none => exact Or.inl ⟨_, rfl⟩
    | some e => exact Or.inr ⟨⟨hash, s.engine, message, by rw [hfails]; exact Option.some_ne_none e⟩, _, rfl⟩
  exact hadapt.bind (.pure P _ _)

/-! ## The loop -/

theorem copyFromSlice_zeroBlock (l : List UInt8) (h : 0 + l.length ≤ 16) : copyFromSlice zeroBlock 0 l h = block l := by
  refine Vector.ext fun i hi => ?_
  rw [copyFromSlice, Vector.getElem_ofFn, Mmo.getElem_block]
  split
  · rename_i hin
    exact (congrArg (·.getD 0) (List.getElem?_eq_getElem (l := l) (i := i) hin.2)).symm
  · rename_i hout
    rw [List.getElem?_eq_none (by simp only [Nat.zero_le, Nat.sub_zero, true_and] at hout; omega)]
    exact Vector.getElem_replicate hi

theorem aesMmoFinish_settles (n : Nat) {remainder : List UInt8} (h : remainder.length < 16) (hn : n % 16 = remainder.length)
    (hash : AesKey) :
    Settles P .cipherFailure (aesMmoFinish P (UInt16.ofNat (8 * n)) remainder h hash)
      (Mmo.chain P.cipher hash (blocks (remainder ++ Mmo.padding n))) := by
  have hcopy := copyFromSlice_zeroBlock remainder (by omega)
  unfold aesMmoFinish Mmo.padding Mmo.zeros
  dsimp only
  rw [hcopy, Mmo.block_set h, bigEndian_two, hn]
  generalize (UInt16.ofNat (8 * n) >>> 8).toUInt8 = hi
  generalize (UInt16.ofNat (8 * n)).toUInt8 = lo
  by_cases hlong : remainder.length > 13
  · have hzero : zeroBlock = block [] := by decide
    have hlast : (zeroBlock.set 14 hi).set 15 lo = block (List.replicate 14 0 ++ [hi, lo]) := by
      rw [hzero]
      exact Mmo.block_set_last (l := []) (by decide) hi lo
    have hsplit : remainder ++ (0x80 :: List.replicate ((29 - remainder.length) % 16) 0 ++ [hi, lo]) =
        remainder ++ [0x80] ++ List.replicate (15 - remainder.length) 0 ++ (List.replicate 14 0 ++ [hi, lo]) := by
      rw [show (29 - remainder.length) % 16 = 15 - remainder.length + 14 by omega, ← List.replicate_append_replicate]
      simp
    have hfull : (remainder ++ [0x80] ++ List.replicate (15 - remainder.length) 0).length = 16 := by
      simp
      omega
    have hblocks : blocks (remainder ++ (0x80 :: List.replicate ((29 - remainder.length) % 16) 0 ++ [hi, lo])) =
        [block (remainder ++ [0x80]), (zeroBlock.set 14 hi).set 15 lo] := by
      rw [hsplit, Ccm.blocks_step (by simp), Mmo.block_append_of_full (by omega), Mmo.block_append_zeros,
        List.drop_left' hfull, Ccm.blocks_step (by simp), hlast, List.drop_eq_nil_of_le (by simp), Ccm.blocks_nil]
    rw [hblocks, if_pos hlong, Mmo.chain, List.foldl_cons, List.foldl_cons, List.foldl_nil]
    refine (aesMmoCompress_settles hash _).bind ?_
    exact (Settles.pure P _ (Mmo.compress P.cipher hash (block (remainder ++ [0x80])), zeroBlock)).bind
      (aesMmoCompress_settles _ _)
  · have hsplit : remainder ++ (0x80 :: List.replicate ((29 - remainder.length) % 16) 0 ++ [hi, lo]) =
        remainder ++ [0x80] ++ List.replicate (14 - (remainder ++ [0x80]).length) 0 ++ [hi, lo] := by
      rw [show (29 - remainder.length) % 16 = 14 - (remainder ++ [(0x80 : UInt8)]).length by simp; omega]
      simp
    have hlength : (remainder ++ [(0x80 : UInt8)] ++ List.replicate (14 - (remainder ++ [(0x80 : UInt8)]).length) 0 ++
        [hi, lo]).length = 16 := by
      simp
      omega
    have hblocks : blocks (remainder ++ (0x80 :: List.replicate ((29 - remainder.length) % 16) 0 ++ [hi, lo])) =
        [((block (remainder ++ [0x80])).set 14 hi).set 15 lo] := by
      rw [hsplit, Ccm.blocks_step (by simp), List.drop_eq_nil_of_le (by omega), Ccm.blocks_nil,
        Mmo.block_set_last (by simp; omega)]
    rw [hblocks, if_neg hlong, Mmo.chain, List.foldl_cons, List.foldl_nil]
    exact (Settles.pure P _ (hash, block (remainder ++ [0x80]))).bind (aesMmoCompress_settles _ _)

/-- **The loop hashes the message behind the blocks that it has taken.** -/
theorem aesMmoChunks_settles (n : Nat) (data : List UInt8) (hn : n % 16 = data.length % 16) (hash : AesKey) :
    Settles P .cipherFailure (aesMmoChunks P (UInt16.ofNat (8 * n)) data hash)
      (Mmo.chain P.cipher hash (blocks (data ++ Mmo.padding n))) := by
  induction data, hash using aesMmoChunks.induct with
  | case1 data hash h ih =>
    have hchunk : (slice data 0 16 (by omega)).length = 16 := length_slice _
    have hblock : block (data ++ Mmo.padding n) = block (slice data 0 16 (by omega)) := by
      rw [Mmo.block_append_of_full h]
      exact (Ccm.block_take (by omega)).symm
    rw [aesMmoChunks, dif_pos h, Ccm.blocks_step (by simp [Mmo.padding]), List.drop_append_of_le_length h, hblock]
    refine (aesMmoCompress_settles hash _).bind ?_
    rw [copyFromSlice_zeroBlock, Mmo.chain, List.foldl_cons]
    exact ih _ (by rw [List.length_drop]; omega)
  | case2 data hash h =>
    rw [aesMmoChunks, dif_neg h]
    exact aesMmoFinish_settles n (by omega) (by omega) hash

/-- **A message shorter than 8192 bytes is hashed with its padding.** -/
theorem aesMmoHashWith_settles {data : List UInt8} (h : data.length < 8192) :
    Settles P .cipherFailure (aesMmoHashWith P data) (Mmo.hash P.cipher data) := by
  rw [aesMmoHashWith, if_pos (by omega), Nat.mul_comm]
  exact aesMmoChunks_settles data.length data rfl _

theorem aesMmoHashWith_long {data : List UInt8} (h : 8192 ≤ data.length) (s : EngineState σ ε) :
    aesMmoHashWith P data s = (.error .inputTooLong, s) := by
  rw [aesMmoHashWith, if_neg (by omega)]
  rfl

end

end Zigbee.Crypto
