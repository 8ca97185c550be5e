import Zigbee.Lib.Ccm

/-!
# CCM* of the Zigbee security layers

`zigbee-crypto` runs CCM* with a MIC of four bytes over any engine that encrypts one block, which may
fail.  Every slice of the code carries the proof that it is in range.

* `ccmMac_answers`, `ccmCtrXor_answers` — the loops are those of the mode of operation.
* `ccm_star_correct` — encryption and decryption are those of RFC 3610, or the engine's error.
-/

namespace Zigbee.Crypto

open Ccm (Block)
open Ccm

def CCM_STAR_NONCE_LEN : Nat := 13
def CCM_STAR_MIC_LEN : Nat := 4
def CCM_STAR_MAX_AAD_LEN : Nat := 0xFEFF
def CCM_STAR_MAX_PLAINTEXT_LEN : Nat := 124
def CCM_STAR_BUFFER_CAPACITY : Nat := CCM_STAR_MAX_PLAINTEXT_LEN + CCM_STAR_MIC_LEN
def CCM_B0_FLAGS_ADATA : UInt8 := 0x49
def CCM_B0_FLAGS_NO_ADATA : UInt8 := 0x09
def CCM_AI_FLAGS : UInt8 := 0x01

abbrev Nonce := Vector UInt8 CCM_STAR_NONCE_LEN

/-! ## The engine -/

/-- A forward permutation on an engine that may fail: whether it does may depend on anything. -/
structure Aes128Forward (σ ε : Type) where
  forward : Block → Block
  fails : σ → Block → Option ε
  next : σ → Block → σ

/-- The engine, and the errors it gave so far. -/
structure EngineState (σ ε : Type) where
  engine : σ
  errors : List ε

abbrev Run (σ ε : Type) := ExceptT ε (StateM (EngineState σ ε))

section
variable {σ ε : Type} (C : Aes128Forward σ ε)

def encryptBlock (b : Block) : Run σ ε Block := fun t =>
  match C.fails t.engine b with
  | some e => (.error e, ⟨C.next t.engine b, t.errors ++ [e]⟩)
  | none => (.ok (C.forward b), ⟨C.next t.engine b, t.errors⟩)

/-! ## Buffers -/

/-- `&l[i..j]` -/
def slice (l : List UInt8) (i j : Nat) (_ : i ≤ j ∧ j ≤ l.length) : List UInt8 := (l.drop i).take (j - i)

/-- `dst[start..start + src.len()].copy_from_slice(src)` -/
def copyFromSlice {n : Nat} (dst : Vector UInt8 n) (start : Nat) (src : List UInt8) (_ : start + src.length ≤ n) : Vector UInt8 n :=
  Vector.ofFn fun i => if h : start ≤ i ∧ i - start < src.length then src[i - start] else dst[i]

theorem length_slice {l : List UInt8} {i j : Nat} (h : i ≤ j ∧ j ≤ l.length) : (slice l i j h).length = j - i := by
  unfold slice
  rw [List.length_take, List.length_drop]
  omega

def zeroBlock : Block := Vector.replicate 16 0

/-- `tag[i] ^= block[i]`, and the next link of the chain. -/
def macFold (tag block : Block) : Run σ ε Block := encryptBlock C (Ccm.xor tag block)

def buildAi (nonce : Nonce) (counter : UInt16) : Block :=
  Vector.ofFn fun i =>
    if i.val = 0 then CCM_AI_FLAGS
    else if h : i.val < 14 then nonce.get ⟨i.val - 1, by simp only [CCM_STAR_NONCE_LEN]; omega⟩
    else if i.val = 14 then (counter >>> 8).toUInt8
    else counter.toUInt8

/-- The loop over the blocks of `data` from `offset` on. -/
def macChunks (data : List UInt8) (offset : Nat) (tag : Block) : Run σ ε Block :=
  if h : offset < data.length then do
    let chunkLen := min 16 (data.length - offset)
    have hchunk : chunkLen = min 16 (data.length - offset) := rfl
    let chunk := slice data offset (offset + chunkLen) (by omega)
    let block := copyFromSlice zeroBlock 0 chunk (by rw [length_slice]; omega)
    let tag ← macFold C tag block
    macChunks data (offset + chunkLen) tag
  else return tag
termination_by data.length - offset
decreasing_by omega

def macAad (aad : List UInt8) (tag : Block) : Run σ ε Block :=
  if aad.isEmpty then return tag
  else do
    let aadLen := UInt16.ofNat aad.length
    let firstChunkLen := min aad.length 14
    have hfirst : firstChunkLen = min aad.length 14 := rfl
    let block := (zeroBlock.set 0 (aadLen >>> 8).toUInt8).set 1 aadLen.toUInt8
    let block := copyFromSlice block 2 (slice aad 0 firstChunkLen (by omega)) (by rw [length_slice]; omega)
    let tag ← macFold C tag block
    macChunks C aad firstChunkLen tag

/-- The first block of the MAC. -/
def buildB0 (nonce : Nonce) (noAad : Bool) (payloadLen : UInt16) : Block :=
  Vector.ofFn fun i =>
    if i.val = 0 then if noAad then CCM_B0_FLAGS_NO_ADATA else CCM_B0_FLAGS_ADATA
    else if h : i.val < 14 then nonce.get ⟨i.val - 1, by simp only [CCM_STAR_NONCE_LEN]; omega⟩
    else if i.val = 14 then (payloadLen >>> 8).toUInt8
    else payloadLen.toUInt8

def ccmMac (nonce : Nonce) (aad payload : List UInt8) : Run σ ε Block := do
  let tag ← encryptBlock C (buildB0 nonce aad.isEmpty (UInt16.ofNat payload.length))
  let tag ← macAad C aad tag
  macChunks C payload 0 tag

/-- `data[offset + i] ^= key_stream[i]` for the bytes of one chunk. -/
def xorChunk (data : List UInt8) (offset chunkLen : Nat) (keyStream : Block) (_ : offset + chunkLen ≤ data.length ∧ chunkLen ≤ 16) :
    List UInt8 :=
  data.mapIdx fun j b => if h : offset ≤ j ∧ j - offset < chunkLen then b ^^^ keyStream[j - offset] else b

theorem length_xorChunk {data : List UInt8} {offset chunkLen : Nat} {keyStream : Block}
    (h : offset + chunkLen ≤ data.length ∧ chunkLen ≤ 16) : (xorChunk data offset chunkLen keyStream h).length = data.length :=
  List.length_mapIdx

def ctrXorFrom (nonce : Nonce) (data : List UInt8) (offset : Nat) (counter : UInt16) : Run σ ε (List UInt8) :=
  if h : offset < data.length then do
    let keyStream ← encryptBlock C (buildAi nonce counter)
    let chunkLen := min 16 (data.length - offset)
    have hchunk : chunkLen = min 16 (data.length - offset) := rfl
    ctrXorFrom nonce (xorChunk data offset chunkLen keyStream (by omega)) (offset + chunkLen) (counter + 1)
  else return data
termination_by data.length - offset
decreasing_by
  rw [length_xorChunk]
  omega

def ccmCtrXor (nonce : Nonce) (data : List UInt8) : Run σ ε (List UInt8) := ctrXorFrom C nonce data 0 1

/-- `mic[i] = tag[i] ^ s0[i]` -/
def micOf (tag s0 : Block) : Vector UInt8 CCM_STAR_MIC_LEN :=
  Vector.ofFn fun i => tag.get ⟨i.val, by have := i.isLt; simp only [CCM_STAR_MIC_LEN] at this; omega⟩ ^^^
    s0.get ⟨i.val, by have := i.isLt; simp only [CCM_STAR_MIC_LEN] at this; omega⟩

def constantTimeMicEq (expected actual : Vector UInt8 CCM_STAR_MIC_LEN) : Bool :=
  (List.finRange CCM_STAR_MIC_LEN).foldl (fun difference i => difference ||| (expected[i] ^^^ actual[i])) 0 == 0

/-- `heapless::Vec::extend_from_slice`, `none` if there is no room. -/
def extendFromSlice (output src : List UInt8) : Option (List UInt8) :=
  if output.length + src.length ≤ CCM_STAR_BUFFER_CAPACITY then some (output ++ src) else none

/-! ## Encryption and decryption -/

def ccmStarEncryptWith (nonce : Nonce) (aad plaintext : List UInt8) : Run σ ε (Option (List UInt8)) :=
  if h : plaintext.length > CCM_STAR_MAX_PLAINTEXT_LEN ∨ aad.length > CCM_STAR_MAX_AAD_LEN then return none
  else do
    let tag ← ccmMac C nonce aad plaintext
    let s0 ← encryptBlock C (buildAi nonce 0)
    let mic := micOf tag s0
    let buffer : Vector UInt8 CCM_STAR_MAX_PLAINTEXT_LEN := copyFromSlice (Vector.replicate _ 0) 0 plaintext (by omega)
    let data ← ccmCtrXor C nonce (slice buffer.toList 0 plaintext.length (by rw [Vector.length_toList]; omega))
    return (extendFromSlice [] data).bind fun output => extendFromSlice output mic.toList

def ccmStarDecryptWith (nonce : Nonce) (aad ciphertextAndMic : List UInt8) : Run σ ε (Option (List UInt8)) :=
  if h : ciphertextAndMic.length < CCM_STAR_MIC_LEN ∨ aad.length > CCM_STAR_MAX_AAD_LEN then return none
  else
    let ciphertextLen := ciphertextAndMic.length - CCM_STAR_MIC_LEN
    if hlen : ciphertextLen > CCM_STAR_MAX_PLAINTEXT_LEN then return none
    else do
      let ciphertext := slice ciphertextAndMic 0 ciphertextLen (by omega)
      let buffer : Vector UInt8 CCM_STAR_MAX_PLAINTEXT_LEN := copyFromSlice (Vector.replicate _ 0) 0 ciphertext
        (by rw [length_slice]; omega)
      let data ← ccmCtrXor C nonce (slice buffer.toList 0 ciphertextLen (by rw [Vector.length_toList]; omega))
      let tag ← ccmMac C nonce aad data
      let s0 ← encryptBlock C (buildAi nonce 0)
      let expectedMic := micOf tag s0
      let actual := slice ciphertextAndMic ciphertextLen (ciphertextLen + CCM_STAR_MIC_LEN) (by omega)
      if !constantTimeMicEq expectedMic ⟨actual.toArray, by rw [List.size_toArray, length_slice]; omega⟩ then return none
      else return extendFromSlice [] data

end

/-! ## Rules -/

section
variable {σ ε α β : Type}

/-- **The outcome is `v`, or the error that the engine gave**, at once and with no other before it. -/
def Answers (x : Run σ ε α) (v : α) : Prop :=
  ∀ s : σ, match x ⟨s, []⟩ with
    | (.ok a, t) => a = v ∧ t.errors = []
    | (.error e, t) => t.errors = [e]

theorem Answers.pure (v : α) : Answers (σ := σ) (ε := ε) (Pure.pure v) v := fun _ => ⟨rfl, rfl⟩

theorem Answers.bind {x : Run σ ε α} {f : α → Run σ ε β} {a : α} {v : β} (hx : Answers x a) (hf : Answers (f a) v) :
    Answers (x >>= f) v := by
  intro s
  have hs := hx s
  have hrun : (x >>= f) ⟨s, []⟩ = match x ⟨s, []⟩ with
      | (.ok a, t) => f a t
      | (.error e, t) => (.error e, t) := by
    simp only [Bind.bind, ExceptT.bind, ExceptT.mk, StateT.bind]
    rcases x ⟨s, []⟩ with ⟨r | r, t⟩ <;> rfl
  rw [hrun]
  rcases hxs : x ⟨s, []⟩ with ⟨r | r, t⟩
  · rw [hxs] at hs
    exact hs
  · rw [hxs] at hs
    obtain ⟨rfl, ht⟩ := hs
    have hfs := hf t.engine
    rw [show (⟨t.engine, []⟩ : EngineState σ ε) = t by rw [← ht]] at hfs
    exact hfs

theorem Answers.map {x : Run σ ε α} {g : α → β} {a : α} (hx : Answers x a) : Answers (do return g (← x)) (g a) :=
  hx.bind (.pure _)

variable (C : Aes128Forward σ ε)

theorem encryptBlock_answers (b : Block) : Answers (encryptBlock C b) (C.forward b) := by
  intro s
  unfold encryptBlock
  dsimp only
  cases C.fails s b with
  | none => exact ⟨rfl, rfl⟩
  | some e => rfl

end

/-! ## The loops -/

theorem high_byte (n : Nat) : (UInt16.ofNat n >>> 8).toUInt8 = UInt8.ofNat (n / 256) := by
  apply UInt8.toNat_inj.mp
  simp only [UInt16.toNat_toUInt8, UInt16.toNat_shiftRight, UInt16.toNat_ofNat', UInt8.toNat_ofNat', UInt16.toNat_ofNat]
  rw [Nat.shiftRight_eq_div_pow, show 2 ^ (8 % 2 ^ 16 % 16) = 256 from rfl]
  omega

theorem low_byte (n : Nat) : (UInt16.ofNat n).toUInt8 = UInt8.ofNat n := by
  apply UInt8.toNat_inj.mp
  simp only [UInt16.toNat_toUInt8, UInt16.toNat_ofNat', UInt8.toNat_ofNat']
  omega

theorem bigEndian_two (n : Nat) : bigEndian 2 n = [(UInt16.ofNat n >>> 8).toUInt8, (UInt16.ofNat n).toUInt8] := by
  rw [high_byte, low_byte]
  simp [bigEndian]

/-- A block of a flag, the nonce and two more bytes. -/
theorem block_nonce (flags hi lo : UInt8) (nonce : Nonce) :
    block (flags :: nonce.toList ++ [hi, lo]) = Vector.ofFn fun i : Fin 16 =>
      if i.val = 0 then flags
      else if h : i.val < 14 then nonce.get ⟨i.val - 1, by simp only [CCM_STAR_NONCE_LEN]; omega⟩
      else if i.val = 14 then hi
      else lo := by
  have hlength : nonce.toList.length = 13 := Vector.length_toList
  unfold block
  congr 1
  funext i
  obtain ⟨i, hi⟩ := i
  rw [List.getD_eq_getElem?_getD]
  cases i with
  | zero => rfl
  | succ i =>
    simp only [List.cons_append, List.getElem?_cons_succ]
    by_cases h : i < 13
    · rw [List.getElem?_append_left (by omega), List.getElem?_eq_getElem (by omega)]
      rw [if_neg (Nat.succ_ne_zero i), dif_pos (by omega)]
      rfl
    · rw [List.getElem?_append_right (by omega), hlength, if_neg (Nat.succ_ne_zero i), dif_neg (by omega)]
      by_cases h13 : i = 13
      · subst h13
        rfl
      · obtain rfl : i = 14 := by omega
        rfl

theorem buildAi_eq (nonce : Nonce) (counter : Nat) :
    buildAi nonce (UInt16.ofNat counter) = block (UInt8.ofNat (2 - 1) :: nonce.toList ++ bigEndian 2 counter) := by
  rw [bigEndian_two, block_nonce]
  rfl

theorem buildB0_eq (nonce : Nonce) (aad : List UInt8) (n : Nat) :
    buildB0 nonce aad.isEmpty (UInt16.ofNat n) = firstBlock 4 2 nonce.toList aad n := by
  unfold firstBlock
  rw [bigEndian_two, block_nonce]
  cases aad <;> rfl

/-- A chunk in a block of zeros is a block of what is left. -/
theorem chunk_eq (data : List UInt8) (offset chunkLen : Nat) (hn : chunkLen = min 16 (data.length - offset))
    (h : offset ≤ offset + chunkLen ∧ offset + chunkLen ≤ data.length) (h') :
    copyFromSlice zeroBlock 0 (slice data offset (offset + chunkLen) h) h' = block (data.drop offset) := by
  unfold copyFromSlice block
  congr 1
  funext i
  obtain ⟨i, hi⟩ := i
  have hlength : (slice data offset (offset + chunkLen) h).length = chunkLen := by
    rw [length_slice]
    omega
  have hdrop : (data.drop offset).length = data.length - offset := List.length_drop
  rw [List.getD_eq_getElem?_getD]
  split
  · rename_i hlt
    simp only [Nat.sub_zero] at hlt ⊢
    unfold slice
    rw [List.getElem_take, List.getElem?_eq_getElem (by omega), Option.getD_some]
  · rename_i hge
    have hend : chunkLen ≤ i := by
      by_contra hlt
      exact hge ⟨Nat.zero_le i, by rw [hlength]; change i - 0 < chunkLen; omega⟩
    rw [List.getElem?_eq_none (by omega)]
    exact Vector.getElem_replicate hi

/-- What is left after a chunk is what is left after a block. -/
theorem drop_chunk (data : List UInt8) (offset chunkLen : Nat) (hn : chunkLen = min 16 (data.length - offset)) :
    data.drop (offset + chunkLen) = (data.drop offset).drop 16 := by
  rw [List.drop_drop]
  by_cases h : offset + 16 ≤ data.length
  · congr 1
    omega
  · rw [List.drop_eq_nil_of_le (by omega), List.drop_eq_nil_of_le (by omega)]

/-- The first block of the additional data: its length, and what fits. -/
theorem aad_block_eq (aad : List UInt8) (h) (h') :
    copyFromSlice ((zeroBlock.set 0 (UInt16.ofNat aad.length >>> 8).toUInt8).set 1 (UInt16.ofNat aad.length).toUInt8) 2
      (slice aad 0 (min aad.length 14) h) h' = block (bigEndian 2 aad.length ++ aad) := by
  rw [bigEndian_two]
  unfold copyFromSlice block
  congr 1
  funext i
  obtain ⟨i, hi⟩ := i
  have hlength : (slice aad 0 (min aad.length 14) h).length = min aad.length 14 := length_slice h
  rw [List.getD_eq_getElem?_getD]
  match i with
  | 0 => rfl
  | 1 => rfl
  | i + 2 =>
    simp only [List.cons_append, List.nil_append, List.getElem?_cons_succ]
    split
    · rename_i hlt
      unfold slice
      rw [List.getElem_take, List.getElem?_eq_getElem (by omega), Option.getD_some]
      rfl
    · rename_i hge
      have hend : aad.length ≤ i := by
        by_contra hlt
        exact hge ⟨Nat.le_add_left 2 i, by rw [hlength]; omega⟩
      rw [List.getElem?_eq_none hend]
      simp [zeroBlock]

section
variable {σ ε : Type} (C : Aes128Forward σ ε)

/-- **The loop is the chain over the blocks that are left.** -/
theorem macChunks_answers (data : List UInt8) (offset : Nat) (tag : Block) :
    Answers (macChunks C data offset tag) (chain C.forward tag (blocks (data.drop offset))) := by
  induction offset, tag using macChunks.induct data with
  | case1 offset tag h chunkLen hchunk ih =>
    rw [macChunks, dif_pos h, blocks_step (by rw [Ne, List.drop_eq_nil_iff]; omega), ← drop_chunk data offset _ rfl]
    refine (encryptBlock_answers C _).bind ?_
    rw [chunk_eq data offset _ rfl]
    exact ih _
  | case2 offset tag h =>
    rw [macChunks, dif_neg h, List.drop_eq_nil_of_le (by omega)]
    exact .pure tag

theorem macAad_answers (aad : List UInt8) (h : aad.length ≤ CCM_STAR_MAX_AAD_LEN) (tag : Block) :
    Answers (macAad C aad tag) (chain C.forward tag (aadBlocks aad)) := by
  unfold macAad aadBlocks
  cases aad with
  | nil => exact .pure tag
  | cons a rest =>
    rw [if_neg (by simp), if_neg (List.cons_ne_nil a rest)]
    have hencoded : encodedLength (a :: rest).length = bigEndian 2 (a :: rest).length :=
      if_pos (Nat.lt_succ_of_le h)
    have hdrop : (bigEndian 2 (a :: rest).length ++ a :: rest).drop 16 = (a :: rest).drop (min (a :: rest).length 14) := by
      rw [bigEndian_two]
      change (a :: rest).drop 14 = _
      by_cases hlong : 14 ≤ (a :: rest).length
      · rw [Nat.min_eq_right hlong]
      · rw [List.drop_eq_nil_of_le (by omega), List.drop_eq_nil_of_le (by omega)]
    rw [hencoded, blocks_step (by rw [bigEndian_two]; exact List.cons_ne_nil _ _), hdrop]
    refine (encryptBlock_answers C _).bind ?_
    rw [aad_block_eq]
    exact macChunks_answers C _ _ _

/-- **The MAC of the code is that of the mode of operation.** -/
theorem ccmMac_answers (nonce : Nonce) (aad payload : List UInt8) (h : aad.length ≤ CCM_STAR_MAX_AAD_LEN) :
    Answers (ccmMac C nonce aad payload) (mac C.forward 4 2 nonce.toList aad payload) := by
  unfold ccmMac mac chain
  rw [List.foldl_append, ← buildB0_eq]
  exact (encryptBlock_answers C _).bind ((macAad_answers C aad h _).bind (macChunks_answers C payload 0 _))

/-- **The loop is counter mode from `offset` on.** -/
theorem ctrXorFrom_answers (nonce : Nonce) (data : List UInt8) (offset : Nat) (counter : UInt16) (k : Nat)
    (hcounter : counter = UInt16.ofNat (k + 1)) (hoffset : offset = 16 * k ∨ data.length ≤ offset) :
    Answers (ctrXorFrom C nonce data offset counter) (data.mapIdx fun j b =>
      if offset ≤ j then b ^^^ keyStreamByte C.forward 2 nonce.toList j else b) := by
  induction data, offset, counter using ctrXorFrom.induct generalizing k with
  | case1 data offset counter h ih =>
    set chunkLen := min 16 (data.length - offset) with hchunk
    have hk : offset = 16 * k := by omega
    have hnext : counter + 1 = UInt16.ofNat (k + 1 + 1) := by
      rw [hcounter, UInt16.ofNat_add (k + 1) 1]
      rfl
    have hdone : offset + chunkLen = 16 * (k + 1) ∨ data.length ≤ offset + chunkLen := by omega
    rw [ctrXorFrom, dif_pos h]
    refine (encryptBlock_answers C _).bind ?_
    have hrest := ih (C.forward (buildAi nonce counter)) (k + 1) hnext (by rw [length_xorChunk]; exact hdone)
    have hresult : ((xorChunk data offset chunkLen (C.forward (buildAi nonce counter)) (by omega)).mapIdx fun j b =>
        if offset + chunkLen ≤ j then b ^^^ keyStreamByte C.forward 2 nonce.toList j else b) =
        data.mapIdx fun j b =>
          if offset ≤ j then b ^^^ keyStreamByte C.forward 2 nonce.toList j else b := by
      refine List.ext_getElem? fun j => ?_
      unfold xorChunk
      rw [List.getElem?_mapIdx, List.getElem?_mapIdx, List.getElem?_mapIdx]
      by_cases hj : j < data.length
      · rw [List.getElem?_eq_getElem hj, Option.map_some, Option.map_some, Option.map_some]
        congr 1
        by_cases hbefore : offset ≤ j
        · by_cases hin : j - offset < chunkLen
          · rw [dif_pos ⟨hbefore, hin⟩, if_neg (by omega), if_pos hbefore]
            have hdiv : j / 16 = k := by omega
            have hmod : j % 16 = j - offset := by omega
            unfold keyStreamByte keyStream
            simp only [hdiv, hmod, hcounter, buildAi_eq]
          · rw [dif_neg (by omega), if_pos (by omega), if_pos hbefore]
        · rw [dif_neg (by omega), if_neg (by omega), if_neg hbefore]
      · rw [List.getElem?_eq_none (by omega)]
        rfl
    rw [hresult] at hrest
    exact hrest
  | case2 data offset counter h =>
    rw [ctrXorFrom, dif_neg h]
    have hsame : (data.mapIdx fun j b =>
        if offset ≤ j then b ^^^ keyStreamByte C.forward 2 nonce.toList j else b) = data := by
      refine List.ext_getElem? fun j => ?_
      rw [List.getElem?_mapIdx]
      by_cases hj : j < data.length
      · rw [List.getElem?_eq_getElem hj, Option.map_some, if_neg (by omega)]
      · rw [List.getElem?_eq_none (by omega)]
        rfl
    rw [hsame]
    exact .pure data

theorem ccmCtrXor_answers (nonce : Nonce) (data : List UInt8) :
    Answers (ccmCtrXor C nonce data) (ctr C.forward 2 nonce.toList data) := by
  have h := ctrXorFrom_answers C nonce data 0 1 0 rfl (.inl rfl)
  simp only [Nat.zero_le, if_true] at h
  exact h

end

/-! ## Encryption and decryption -/

/-- A buffer that was filled, up to where it was. -/
theorem slice_filled {n : Nat} (l : List UInt8) (h) (h') :
    slice (copyFromSlice (Vector.replicate n 0) 0 l h).toList 0 l.length h' = l := by
  have hlength := length_slice h'
  unfold slice copyFromSlice at *
  refine List.ext_getElem hlength fun i hi hi' => ?_
  simp [hi']

theorem micOf_eq (a b : Block) : (micOf a b).toList = ((Ccm.xor a b).toList).take 4 := by
  unfold micOf Ccm.xor
  refine List.ext_getElem (by rw [List.length_take, Vector.length_toList, Vector.length_toList]; rfl) fun i hi hi' => ?_
  rw [List.getElem_take, Vector.getElem_toList, Vector.getElem_toList, Vector.getElem_ofFn, Vector.getElem_ofFn]
  rfl

/-- The comparison of all bytes is equality. -/
theorem constantTimeMicEq_iff (expected actual : Vector UInt8 CCM_STAR_MIC_LEN) :
    constantTimeMicEq expected actual = true ↔ expected = actual := by
  have hfold : ∀ (is : List (Fin CCM_STAR_MIC_LEN)) (d : UInt8),
      is.foldl (fun difference i => difference ||| (expected[i] ^^^ actual[i])) d = 0 ↔
        d = 0 ∧ ∀ i ∈ is, expected[i] = actual[i] := by
    intro is
    induction is with
    | nil => simp
    | cons i is ih =>
      intro d
      rw [List.foldl_cons, ih, UInt8.or_eq_zero_iff, UInt8.xor_eq_zero_iff, List.forall_mem_cons]
      exact and_assoc
  unfold constantTimeMicEq
  rw [beq_iff_eq, hfold]
  constructor
  · rintro ⟨-, h⟩
    exact Vector.ext fun i hi => h ⟨i, hi⟩ (List.mem_finRange _)
  · rintro rfl
    exact ⟨rfl, fun _ _ => rfl⟩

/-- What encryption has to return. -/
def encrypted (E : Block → Block) (nonce : Nonce) (aad plaintext : List UInt8) : Option (List UInt8) :=
  if plaintext.length ≤ CCM_STAR_MAX_PLAINTEXT_LEN ∧ aad.length ≤ CCM_STAR_MAX_AAD_LEN then
    some (encrypt E CCM_STAR_MIC_LEN 2 nonce.toList aad plaintext)
  else none

/-- What decryption has to return. -/
def decrypted (E : Block → Block) (nonce : Nonce) (aad ciphertextAndMic : List UInt8) : Option (List UInt8) :=
  if ciphertextAndMic.length ≤ CCM_STAR_BUFFER_CAPACITY ∧ aad.length ≤ CCM_STAR_MAX_AAD_LEN then
    decrypt E CCM_STAR_MIC_LEN 2 nonce.toList aad ciphertextAndMic
  else none

section
variable {E : Block → Block} {nonce : Nonce} {aad c plaintext : List UInt8}

theorem length_encrypt : (encrypt E CCM_STAR_MIC_LEN 2 nonce.toList aad plaintext).length =
    plaintext.length + CCM_STAR_MIC_LEN := by
  unfold encrypt
  rw [List.length_append, length_ctr, length_mic (by decide)]

theorem decrypted_eq_some : decrypted E nonce aad c = some plaintext ↔ encrypted E nonce aad plaintext = some c := by
  unfold decrypted encrypted
  constructor
  · intro h
    split at h
    · rename_i hfits
      have hc := (decrypt_eq_some (by decide)).mp h
      have hlength := congrArg List.length hc
      rw [length_encrypt] at hlength
      have hplaintext : plaintext.length ≤ CCM_STAR_MAX_PLAINTEXT_LEN := by
        have hcapacity := hfits.1
        unfold CCM_STAR_BUFFER_CAPACITY at hcapacity
        omega
      rw [if_pos ⟨hplaintext, hfits.2⟩, hc]
    · cases h
  · intro h
    split at h
    · rename_i hfits
      have hc := (Option.some.inj h).symm
      have hlength := congrArg List.length hc
      rw [length_encrypt] at hlength
      have hcapacity : c.length ≤ CCM_STAR_BUFFER_CAPACITY := by
        unfold CCM_STAR_BUFFER_CAPACITY
        omega
      rw [if_pos ⟨hcapacity, hfits.2⟩]
      exact (decrypt_eq_some (by decide)).mpr hc
    · cases h

end

section
variable {σ ε : Type} (C : Aes128Forward σ ε)

theorem keyStream_zero (nonce : Nonce) : C.forward (buildAi nonce 0) = keyStream C.forward 2 nonce.toList 0 := by
  rw [show (0 : UInt16) = UInt16.ofNat 0 from rfl, buildAi_eq]
  rfl

theorem ccmStarEncryptWith_answers (nonce : Nonce) (aad plaintext : List UInt8) :
    Answers (ccmStarEncryptWith C nonce aad plaintext) (encrypted C.forward nonce aad plaintext) := by
  unfold ccmStarEncryptWith encrypted
  split
  · rename_i h
    rw [if_neg (by omega)]
    exact .pure none
  · rename_i h
    have hfits : plaintext.length ≤ CCM_STAR_MAX_PLAINTEXT_LEN ∧ aad.length ≤ CCM_STAR_MAX_AAD_LEN := by omega
    rw [if_pos hfits]
    refine (ccmMac_answers C nonce aad plaintext hfits.2).bind ((encryptBlock_answers C _).bind ?_)
    simp only [slice_filled]
    have hroom : ∀ n, n ≤ CCM_STAR_MAX_PLAINTEXT_LEN → 0 + n ≤ CCM_STAR_BUFFER_CAPACITY ∧
        n + CCM_STAR_MIC_LEN ≤ CCM_STAR_BUFFER_CAPACITY := fun n hn => by
      unfold CCM_STAR_BUFFER_CAPACITY
      omega
    have hdata : (ctr C.forward 2 nonce.toList plaintext).length = plaintext.length := length_ctr
    have houtput : ((extendFromSlice [] (ctr C.forward 2 nonce.toList plaintext)).bind fun output =>
        extendFromSlice output (micOf (mac C.forward 4 2 nonce.toList aad plaintext) (C.forward (buildAi nonce 0))).toList) =
        some (encrypt C.forward CCM_STAR_MIC_LEN 2 nonce.toList aad plaintext) := by
      unfold extendFromSlice
      rw [List.length_nil, hdata, if_pos (hroom _ hfits.1).1, Option.bind_some, List.nil_append, hdata, Vector.length_toList,
        if_pos (hroom _ hfits.1).2, micOf_eq, keyStream_zero]
      rfl
    rw [← houtput]
    exact (ccmCtrXor_answers C nonce plaintext).map

theorem ccmStarDecryptWith_answers (nonce : Nonce) (aad c : List UInt8) :
    Answers (ccmStarDecryptWith C nonce aad c) (decrypted C.forward nonce aad c) := by
  unfold ccmStarDecryptWith decrypted
  split
  · rename_i h
    have hnone : (if c.length ≤ CCM_STAR_BUFFER_CAPACITY ∧ aad.length ≤ CCM_STAR_MAX_AAD_LEN then
        decrypt C.forward CCM_STAR_MIC_LEN 2 nonce.toList aad c else none) = none := by
      split
      · exact if_pos (by omega)
      · rfl
    rw [hnone]
    exact .pure none
  · rename_i h
    dsimp only
    split
    · rename_i hlong
      have hnone : ¬ (c.length ≤ CCM_STAR_BUFFER_CAPACITY ∧ aad.length ≤ CCM_STAR_MAX_AAD_LEN) := by
        unfold CCM_STAR_BUFFER_CAPACITY
        omega
      rw [if_neg hnone]
      exact .pure none
    · rename_i hlong
      have hfits : c.length ≤ CCM_STAR_BUFFER_CAPACITY ∧ aad.length ≤ CCM_STAR_MAX_AAD_LEN := by
        unfold CCM_STAR_BUFFER_CAPACITY
        omega
      have htake : slice c 0 (c.length - CCM_STAR_MIC_LEN) (by omega) = c.take (c.length - CCM_STAR_MIC_LEN) := rfl
      have hlength : (c.take (c.length - CCM_STAR_MIC_LEN)).length = c.length - CCM_STAR_MIC_LEN := by
        rw [List.length_take]
        omega
      have hdrop : slice c (c.length - CCM_STAR_MIC_LEN) (c.length - CCM_STAR_MIC_LEN + CCM_STAR_MIC_LEN) (by omega) =
          c.drop (c.length - CCM_STAR_MIC_LEN) := by
        unfold slice
        exact List.take_of_length_le (by rw [List.length_drop]; omega)
      rw [if_pos hfits]
      have hfilled := slice_filled (n := CCM_STAR_MAX_PLAINTEXT_LEN) (c.take (c.length - CCM_STAR_MIC_LEN))
        (by rw [hlength]; omega) (by rw [Vector.length_toList, hlength]; omega)
      simp only [hlength] at hfilled
      simp only [htake, hfilled, hdrop]
      refine (ccmCtrXor_answers C nonce _).bind ((ccmMac_answers C nonce aad _ hfits.2).bind
        ((encryptBlock_answers C _).bind ?_))
      unfold decrypt
      rw [if_neg (show ¬ c.length < CCM_STAR_MIC_LEN by omega)]
      dsimp only
      have hmic : ∀ h, constantTimeMicEq (micOf (mac C.forward 4 2 nonce.toList aad
          (ctr C.forward 2 nonce.toList (c.take (c.length - CCM_STAR_MIC_LEN)))) (C.forward (buildAi nonce 0)))
            ⟨(c.drop (c.length - CCM_STAR_MIC_LEN)).toArray, h⟩ = true ↔
          mic C.forward CCM_STAR_MIC_LEN 2 nonce.toList aad
            (ctr C.forward 2 nonce.toList (c.take (c.length - CCM_STAR_MIC_LEN))) = c.drop (c.length - CCM_STAR_MIC_LEN) := by
        intro h
        rw [constantTimeMicEq_iff, ← Vector.toList_inj, micOf_eq, keyStream_zero]
        exact Iff.rfl
      have hroom : ([] : List UInt8).length + (ctr C.forward 2 nonce.toList
          (c.take (c.length - CCM_STAR_MIC_LEN))).length ≤ CCM_STAR_BUFFER_CAPACITY := by
        rw [List.length_nil, length_ctr, hlength]
        omega
      split
      · rename_i hne
        rw [Bool.not_eq_true', Bool.eq_false_iff, Ne, hmic] at hne
        rw [if_neg hne]
        exact .pure none
      · rename_i heq
        rw [Bool.not_eq_true', Bool.not_eq_false, hmic] at heq
        unfold extendFromSlice
        rw [if_pos heq, if_pos hroom]
        exact .pure _

/-- An engine that cannot fail answers. -/
theorem Answers.infallible {α : Type} {x : Run σ Empty α} {v : α} (h : Answers x v) (s : σ) : (x ⟨s, []⟩).1 = .ok v := by
  have hs := h s
  rcases hx : x ⟨s, []⟩ with ⟨e | a, t⟩
  · exact e.elim
  · rw [hx] at hs
    exact congrArg Except.ok hs.1

end

/-- **CCM* is that of RFC 3610 with M = 4 and L = 2** over any engine: each call returns the error of the engine's first failure,
or what the mode of operation gives; an engine that cannot fail gives that; and decryption opens exactly the strings that
encryption makes. -/
theorem ccm_star_correct (σ ε : Type) (nonce : Nonce) (aad : List UInt8) :
    (∀ (C : Aes128Forward σ ε) (input : List UInt8),
      Answers (ccmStarEncryptWith C nonce aad input) (encrypted C.forward nonce aad input) ∧
        Answers (ccmStarDecryptWith C nonce aad input) (decrypted C.forward nonce aad input)) ∧
      (∀ (C : Aes128Forward σ Empty) (s : σ) (input : List UInt8),
        (ccmStarEncryptWith C nonce aad input ⟨s, []⟩).1 = .ok (encrypted C.forward nonce aad input) ∧
          (ccmStarDecryptWith C nonce aad input ⟨s, []⟩).1 = .ok (decrypted C.forward nonce aad input)) ∧
      ∀ (E : Block → Block) (c plaintext : List UInt8),
        decrypted E nonce aad c = some plaintext ↔ encrypted E nonce aad plaintext = some c :=
  ⟨fun C input => ⟨ccmStarEncryptWith_answers C nonce aad input, ccmStarDecryptWith_answers C nonce aad input⟩,
    fun C s input => ⟨(ccmStarEncryptWith_answers C nonce aad input).infallible s,
      (ccmStarDecryptWith_answers C nonce aad input).infallible s⟩,
    fun _ _ _ => decrypted_eq_some⟩

end Zigbee.Crypto
