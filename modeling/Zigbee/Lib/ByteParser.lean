import Zigbee.Lib.Bytes
import Zigbee.Lib.Checked

/-!
# Parsers that index into a buffer

A parser ends with a value, rejects its input, or traps on an index past the end of the buffer.

* `index`, `u16Index`, `arrayIndex` — indexing as `data[i]` does it, with equations for the indices in
  range.
* `getByte`, `getU16`, `getArray` — the same with `data.get(i)?`.
-/

namespace ByteParser

open Bytes Checked

abbrev Parse := Outcome Unit

def reject {α : Type} : Parse α := .error ()

/-- `data[i]` -/
def index (data : Buf) (i : Nat) : Parse UInt8 :=
  match data[i]? with
  | some b => .ok b
  | none => .trap

/-- `*data.get(i)?` -/
def getByte (data : Buf) (i : Nat) : Parse UInt8 :=
  match data[i]? with
  | some b => .ok b
  | none => reject

/-- `u16::from_le_bytes([data[i], data[i + 1]])` -/
def u16Index (data : Buf) (i : Nat) : Parse UInt16 := do
  let low ← index data i
  let high ← index data (i + 1)
  pure (UInt16.ofNat (low.toNat + 256 * high.toNat))

/-- `copy_from_slice(&data[i..i + n])` -/
def arrayIndex (n : Nat) (data : Buf) (i : Nat) : Parse (Vector UInt8 n) :=
  if data.length < i + n then .trap else .ok (arrayAt n data i)

def getU16 (data : Buf) (i : Nat) : Parse UInt16 := do
  let low ← getByte data i
  let high ← getByte data (i + 1)
  pure (UInt16.ofNat (low.toNat + 256 * high.toNat))

def getArray (n : Nat) (data : Buf) (i : Nat) : Parse (Vector UInt8 n) :=
  if data.length < i + n then reject else .ok (arrayAt n data i)

variable {data : Buf} {i n : Nat}

theorem index_eq (h : i < data.length) : index data i = .ok (u8At data i) := by
  simp [index, u8At, h]

theorem u16Index_eq (h : i + 1 < data.length) : u16Index data i = .ok (u16At data i) := by
  rw [u16Index, index_eq (by omega), index_eq h]
  rfl

theorem arrayIndex_eq (h : i + n ≤ data.length) : arrayIndex n data i = .ok (arrayAt n data i) := by
  rw [arrayIndex, if_neg (by omega)]

theorem getByte_safe (data : Buf) (i : Nat) : (getByte data i).Safe := by
  unfold getByte
  split
  · exact Outcome.safe_ok _
  · exact Outcome.safe_error _

theorem getU16_safe (data : Buf) (i : Nat) : (getU16 data i).Safe :=
  (getByte_safe data i).bind fun _ _ => (getByte_safe data (i + 1)).bind fun _ _ => Outcome.safe_ok _

theorem getArray_safe (n : Nat) (data : Buf) (i : Nat) : (getArray n data i).Safe :=
  Outcome.safe_guard fun _ => Outcome.safe_ok _

theorem getByte_eq (h : i < data.length) : getByte data i = .ok (u8At data i) := by
  simp [getByte, u8At, h]

theorem getU16_eq (h : i + 1 < data.length) : getU16 data i = .ok (u16At data i) := by
  rw [getU16, getByte_eq (by omega), getByte_eq h]
  rfl

theorem getArray_eq (h : i + n ≤ data.length) : getArray n data i = .ok (arrayAt n data i) := by
  rw [getArray, if_neg (by omega)]

end ByteParser
