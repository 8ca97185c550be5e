import Zigbee.Lib.Bytes

/-!
# Checksummed records with a commit marker

One record fills one flash slot: a header with the generation, a payload padded with erased bytes, a
checksum of both, and a marker that is programmed last.

* `Frame` — the constants of a record format; `Frame.staged` is everything in front of the marker.
* `Frame.header` — the checks a scan makes before it looks at the payload.
* `header_committed`, `payload_slot` — a record with its marker reads back as written;
  `header_uncommitted`, `header_blank` — without it, and on an erased slot, nothing is read.
-/

namespace SnapshotRecord

open Bytes

/-- `n` erased bytes. -/
def blank (n : Nat) : Buf := List.replicate n 0xFF

@[simp] theorem blank_length (n : Nat) : (blank n).length = n := List.length_replicate

theorem blank_add (m n : Nat) : blank (m + n) = blank m ++ blank n :=
  List.replicate_append_replicate.symm

theorem slice_blank {n i j : Nat} (h : j ≤ n) : slice (blank n) i j = blank (j - i) := by
  unfold slice blank
  rw [List.drop_replicate, List.take_replicate]
  congr 1
  omega

def isErased (bytes : Buf) : Bool := bytes.all (· == 0xFF)

theorem isErased_blank (n : Nat) : isErased (blank n) = true := by simp [isErased, blank]

/-- The constants of a record format.  The checksum and the marker are the last words of a slot but one
    that is never programmed. -/
structure Frame where
  magic : Buf
  version : UInt8
  slotSize : Nat
  commit : Buf
  crc : Buf → UInt32

namespace Frame

variable (F : Frame)

def crcOffset : Nat := F.slotSize - 12
def commitOffset : Nat := F.slotSize - 8

/-- The formats the results below are about: words of four bytes that erased flash does not hold. -/
structure Wf : Prop where
  magic_length : F.magic.length = 4
  commit_length : F.commit.length = 4
  magic_programmed : isErased F.magic = false
  commit_programmed : isErased F.commit = false
  slot_large : 24 ≤ F.slotSize

/-- The bytes the checksum covers; `len` is what the header calls the payload's length. -/
def body (len : Nat) (generation : UInt32) (payload : Buf) : Buf :=
  F.magic ++ ([F.version] ++ (le16 (UInt16.ofNat len) ++ ([0] ++ (le32 generation ++
    (payload ++ blank (F.crcOffset - 12 - payload.length))))))

/-- A record in front of its commit marker. -/
def staged (len : Nat) (generation : UInt32) (payload : Buf) : Buf :=
  F.body len generation payload ++ le32 (F.crc (F.body len generation payload))

/-- A slot that holds a record, with or without its marker. -/
def slot (staged : Buf) (committed : Bool) : Buf :=
  staged ++ ((if committed then F.commit else blank 4) ++ blank 4)

/-- Generation, version and payload length of a committed record with a good checksum. -/
def header (versions : List UInt8) (lenOk : Nat → Bool) (record : Buf) : Option (UInt32 × UInt8 × Nat) :=
  if slice record 0 4 ≠ F.magic ∨ u8At record 4 ∉ versions ∨
      slice record F.commitOffset (F.commitOffset + 4) ≠ F.commit then none
  else if lenOk (u16At record 5).toNat = false then none
  else if F.crc (slice record 0 F.crcOffset) ≠ u32At record F.crcOffset then none
  else some (u32At record 8, u8At record 4, (u16At record 5).toNat)

variable {F} {n : Nat} {g : UInt32} {p : Buf}

theorem body_length (hF : F.Wf) (hfit : 12 + p.length ≤ F.crcOffset) :
    (F.body n g p).length = F.crcOffset := by
  simp only [body, List.length_append, hF.magic_length, le16_length, le32_length, List.length_singleton, blank_length]
  omega

theorem staged_length (hF : F.Wf) (hfit : 12 + p.length ≤ F.crcOffset) :
    (F.staged n g p).length = F.commitOffset := by
  have := hF.slot_large
  rw [staged, List.length_append, body_length hF hfit, le32_length]
  unfold crcOffset commitOffset
  omega

/-- A record is not mistaken for an erased slot. -/
theorem staged_programmed (hF : F.Wf) : isErased (F.staged n g p) = false := by
  have := hF.magic_programmed
  unfold isErased at *
  rw [staged, body, List.append_assoc, List.all_append, this, Bool.false_and]

theorem marker_slot {s : Buf} (hs : s.length = F.commitOffset) {m l : Buf} (hm : m.length = 4) :
    slice (s ++ (m ++ l)) F.commitOffset (F.commitOffset + 4) = m := by
  rw [slice_append_right (by omega), hs, Nat.sub_self, Nat.add_sub_cancel_left]
  exact slice_init hm.symm

theorem blank_ne_commit (hF : F.Wf) : blank 4 ≠ F.commit := by
  intro h
  have := hF.commit_programmed
  rw [← h, isErased_blank] at this
  cases this

theorem header_uncommitted (hF : F.Wf) {s : Buf} (hs : s.length = F.commitOffset) (versions : List UInt8)
    (lenOk : Nat → Bool) : F.header versions lenOk (F.slot s false) = none := by
  unfold header
  simp only [slot, Bool.false_eq_true, if_false]
  rw [marker_slot hs (by simp), if_pos (Or.inr (Or.inr (blank_ne_commit hF)))]

theorem header_blank (hF : F.Wf) (versions : List UInt8) (lenOk : Nat → Bool) :
    F.header versions lenOk (blank F.slotSize) = none := by
  have := hF.slot_large
  have hslot : blank F.slotSize = F.slot (blank F.commitOffset) false := by
    show _ = blank F.commitOffset ++ (blank 4 ++ blank 4)
    rw [← blank_add, ← blank_add]
    unfold commitOffset
    congr 1
    omega
  rw [hslot]
  exact header_uncommitted hF (blank_length _) versions lenOk

/-- The header fields of a record, whatever follows it. -/
theorem staged_fields (hF : F.Wf) (hlen : n < 2 ^ 16) (l : Buf) :
    slice (F.staged n g p ++ l) 0 4 = F.magic ∧
      u8At (F.staged n g p ++ l) 4 = F.version ∧
      (u16At (F.staged n g p ++ l) 5).toNat = n ∧
      u32At (F.staged n g p ++ l) 8 = g := by
  have hm := hF.magic_length
  simp only [staged, body, List.append_assoc]
  refine ⟨slice_init hm.symm, ?_, ?_, ?_⟩
  · rw [u8At_append_right (by omega), hm, List.cons_append, u8At_cons_zero]
  · rw [u16At_append_right (by omega), hm, u16At_append_right (by simp), List.length_singleton]
    rw [show 5 - 4 - 1 = 0 from rfl, u16At_le16]
    exact UInt16.toNat_ofNat_of_lt' (by simpa using hlen)
  · rw [u32At_append_right (by omega), hm, u32At_append_right (by simp), u32At_append_right (by simp),
      u32At_append_right (by simp)]
    exact u32At_le32 g _

theorem staged_crc (hF : F.Wf) (hfit : 12 + p.length ≤ F.crcOffset) (l : Buf) :
    F.crc (slice (F.staged n g p ++ l) 0 F.crcOffset) =
      u32At (F.staged n g p ++ l) F.crcOffset := by
  have hbody : (F.body n g p).length = F.crcOffset := body_length hF hfit
  rw [staged, List.append_assoc, slice_init hbody.symm, u32At_append_right (by omega), hbody, Nat.sub_self, u32At_le32]

/-- **A committed record reads back.** -/
theorem header_committed (hF : F.Wf) (hfit : 12 + p.length ≤ F.crcOffset) (hlen : n < 2 ^ 16)
    {versions : List UInt8} {lenOk : Nat → Bool} (hversion : F.version ∈ versions) (hok : lenOk n = true) :
    F.header versions lenOk (F.slot (F.staged n g p) true) = some (g, F.version, n) := by
  obtain ⟨hmagic, hv, hl, hg⟩ := staged_fields (g := g) (p := p) hF hlen (F.commit ++ blank 4)
  have hcommit := marker_slot (l := blank 4) (staged_length (n := n) (g := g) hF hfit) hF.commit_length
  have hcrc := staged_crc (n := n) (g := g) hF hfit (F.commit ++ blank 4)
  unfold header
  simp only [slot, if_true]
  rw [hmagic, hv, hl, hg, hcommit, if_neg (by simp [hversion]), if_neg (by simp [hok]), if_neg (by simp [hcrc])]

/-- The payload, and any field at its front or back. -/
theorem payload_slot (hF : F.Wf) (committed : Bool) (i j : Nat) (hj : j ≤ p.length) :
    slice (F.slot (F.staged n g p) committed) (12 + i) (12 + j) = slice p i j := by
  have hm := hF.magic_length
  simp only [slot, staged, body, List.append_assoc]
  rw [slice_append_right (by omega), hm, slice_append_right (by simp; omega), slice_append_right (by simp; omega),
    slice_append_right (by simp; omega), slice_append_right (by simp; omega), slice_append_left (by simp; omega)]
  simp only [List.length_singleton, le16_length, le32_length]
  congr 1 <;> omega

end Frame

end SnapshotRecord
