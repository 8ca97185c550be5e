import Mathlib.Data.List.Basic
import Mathlib.Tactic.Linarith

/-!
# Fixed-width fields in byte strings

Little-endian integers and byte arrays written into, and read back from, a list of bytes.

* `le16`, `le32`, `u16At`, `u32At`, `arrayAt` — writers and readers by offset.
* `u8At_append_right`, `u16At_append_right`, … — a reader skips a segment that ends before it.
* `u16At_le16`, `u32At_le32`, `arrayAt_toList` — a reader returns what the writer put at its offset.

The skipping lemmas are conditional rewrite rules: with the segment lengths in the simp set they
walk a concatenation of fields to the one that is read.
-/

namespace Bytes

abbrev Buf := List UInt8

def le16 (v : UInt16) : Buf := [UInt8.ofNat v.toNat, UInt8.ofNat (v.toNat / 256)]

def le32 (v : UInt32) : Buf :=
  [UInt8.ofNat v.toNat, UInt8.ofNat (v.toNat / 256), UInt8.ofNat (v.toNat / 65536),
    UInt8.ofNat (v.toNat / 16777216)]

/-- Byte `i`; the callers stay in range. -/
def u8At (l : Buf) (i : Nat) : UInt8 := l.getD i 0

def u16At (l : Buf) (i : Nat) : UInt16 :=
  UInt16.ofNat ((u8At l i).toNat + 256 * (u8At l (i + 1)).toNat)

def u32At (l : Buf) (i : Nat) : UInt32 :=
  UInt32.ofNat ((u8At l i).toNat + 256 * (u8At l (i + 1)).toNat + 65536 * (u8At l (i + 2)).toNat +
    16777216 * (u8At l (i + 3)).toNat)

theorem u8At_drop (data : Buf) (i k : Nat) : u8At data (i + k) = u8At (data.drop i) k := by
  unfold u8At
  rw [List.getD_eq_getElem?_getD, List.getD_eq_getElem?_getD, List.getElem?_drop]

theorem u16At_drop (data : Buf) (i k : Nat) : u16At data (i + k) = u16At (data.drop i) k := by
  unfold u16At
  rw [Nat.add_assoc, u8At_drop, u8At_drop]

/-- The `n` bytes from `i` on, as a fixed-size array. -/
def arrayAt (n : Nat) (l : Buf) (i : Nat) : Vector UInt8 n := Vector.ofFn fun k => u8At l (i + k)

/-- `l[a..b]`. -/
def slice (l : Buf) (a b : Nat) : Buf := (l.drop a).take (b - a)

@[simp] theorem le16_length (v : UInt16) : (le16 v).length = 2 := by simp [le16]

@[simp] theorem le32_length (v : UInt32) : (le32 v).length = 4 := by simp [le32]

/-! ## Skipping a segment -/

variable {a l : Buf} {i : Nat}

theorem u8At_append_right (h : a.length ≤ i) : u8At (a ++ l) i = u8At l (i - a.length) := by
  simp only [u8At, List.getD_eq_getElem?_getD]
  rw [List.getElem?_append_right h]

theorem u8At_append_left (h : i < a.length) : u8At (a ++ l) i = u8At a i := by
  simp only [u8At, List.getD_eq_getElem?_getD]
  rw [List.getElem?_append_left h]

theorem u16At_append_right (h : a.length ≤ i) : u16At (a ++ l) i = u16At l (i - a.length) := by
  unfold u16At
  rw [u8At_append_right h, u8At_append_right (by omega), show i + 1 - a.length = i - a.length + 1 by omega]

theorem u32At_append_right (h : a.length ≤ i) : u32At (a ++ l) i = u32At l (i - a.length) := by
  unfold u32At
  rw [u8At_append_right h, u8At_append_right (i := i + 1) (by omega),
    u8At_append_right (i := i + 2) (by omega), u8At_append_right (i := i + 3) (by omega),
    show i + 1 - a.length = i - a.length + 1 by omega,
    show i + 2 - a.length = i - a.length + 2 by omega,
    show i + 3 - a.length = i - a.length + 3 by omega]

variable {n : Nat}

theorem arrayAt_append_right (h : a.length ≤ i) : arrayAt n (a ++ l) i = arrayAt n l (i - a.length) := by
  unfold arrayAt
  congr 1
  funext k
  rw [u8At_append_right (by omega), show i + k - a.length = i - a.length + k by omega]

variable {j : Nat}

theorem slice_append_right (h : a.length ≤ i) : slice (a ++ l) i j = slice l (i - a.length) (j - a.length) := by
  unfold slice
  rw [List.drop_append, List.drop_eq_nil_of_le h, List.nil_append]
  congr 1
  omega

theorem slice_append_left (h : j ≤ a.length) : slice (a ++ l) i j = slice a i j := by
  unfold slice
  by_cases hij : i ≤ a.length
  · rw [List.drop_append_of_le_length hij, List.take_append_of_le_length]
    simp only [List.length_drop]; omega
  · rw [show j - i = 0 by omega]; simp

theorem slice_init (h : j = a.length) : slice (a ++ l) 0 j = a := by
  simp [slice, h]

theorem slice_self (a : Buf) (h : a.length ≤ j) : slice a 0 j = a := by
  simp [slice, List.take_of_length_le h]

variable {k : Nat}

theorem u8At_slice (hk : k < n) : u8At (slice l i (i + n)) k = u8At l (i + k) := by
  unfold u8At slice
  rw [List.getD_eq_getElem?_getD, List.getD_eq_getElem?_getD, List.getElem?_take_of_lt (by omega), List.getElem?_drop]

theorem u16At_slice (h : i + k + 2 ≤ j) : u16At (slice l i j) k = u16At l (i + k) := by
  obtain ⟨n, rfl⟩ : ∃ n, j = i + n := ⟨j - i, by omega⟩
  unfold u16At
  rw [u8At_slice (by omega), u8At_slice (by omega)]
  rfl

theorem u32At_slice (h : i + k + 4 ≤ j) : u32At (slice l i j) k = u32At l (i + k) := by
  obtain ⟨n, rfl⟩ : ∃ n, j = i + n := ⟨j - i, by omega⟩
  unfold u32At
  rw [u8At_slice (by omega), u8At_slice (by omega), u8At_slice (by omega), u8At_slice (by omega)]
  rfl

theorem slice_length_of_le (h : j ≤ l.length) : (slice l i j).length = j - i := by
  unfold slice
  rw [List.length_take, List.length_drop]
  omega

/-- A slice grows by the bytes that follow it. -/
theorem slice_append_take {rest after : Buf} (hij : i ≤ j) (hrest : l.drop j = rest ++ after) (hn : n ≤ rest.length) :
    slice l i j ++ rest.take n = slice l i (j + n) := by
  have htake : rest.take n = ((l.drop i).drop (j - i)).take n := by
    rw [List.drop_drop, show i + (j - i) = j by omega, hrest, List.take_append_of_le_length hn]
  rw [slice, slice, htake, ← List.take_add, show j - i + n = j + n - i by omega]

variable {bs b : Buf}

/-- A byte behind a segment that is known to come first. -/
theorem u8At_add_of_eq (h : bs = a ++ b) (hi : i = a.length) (k : Nat) : u8At bs (i + k) = u8At b k := by
  rw [h, u8At_append_right (by omega), hi, Nat.add_sub_cancel_left]

theorem u8At_of_eq (h : bs = a ++ b) (hi : i = a.length) : u8At bs i = u8At b 0 :=
  u8At_add_of_eq h hi 0

theorem drop_of_eq (h : bs = a ++ b) (hi : i = a.length) : bs.drop i = b := by
  rw [h, hi, List.drop_left]

/-! ## Reading back what was written -/

theorem u16At_le16 (v : UInt16) (l : Buf) : u16At (le16 v ++ l) 0 = v := by
  have hv := v.toNat_lt
  apply UInt16.toNat_inj.mp
  simp only [u16At, le16, u8At, List.cons_append, List.nil_append, List.getD_cons_zero,
    List.getD_cons_succ, UInt8.toNat_ofNat', UInt16.toNat_ofNat']
  omega

theorem u16At_le16_self (v : UInt16) : u16At (le16 v) 0 = v := by
  simpa using u16At_le16 v []

theorem length_flatMap_le16 (values : List UInt16) : (values.flatMap le16).length = 2 * values.length := by
  induction values with
  | nil => rfl
  | cons a values ih =>
    rw [List.flatMap_cons, List.length_append, ih, le16_length, List.length_cons]
    omega

theorem u16At_flatMap_le16 (values : List UInt16) (i : Nat) (hi : i < values.length) :
    u16At (values.flatMap le16) (i * 2) = values[i] := by
  induction values generalizing i with
  | nil => simp at hi
  | cons a values ih =>
    rw [List.flatMap_cons]
    cases i with
    | zero => exact u16At_le16 a _
    | succ i =>
      rw [u16At_append_right (by rw [le16_length]; omega), le16_length,
        show (i + 1) * 2 - 2 = i * 2 by omega]
      exact ih i (by simpa using hi)

theorem u32At_le32 (v : UInt32) (l : Buf) : u32At (le32 v ++ l) 0 = v := by
  have hv := v.toNat_lt
  apply UInt32.toNat_inj.mp
  simp only [u32At, le32, u8At, List.cons_append, List.nil_append, List.getD_cons_zero,
    List.getD_cons_succ, UInt8.toNat_ofNat', UInt32.toNat_ofNat']
  omega

theorem arrayAt_toList (v : Vector UInt8 n) (l : Buf) : arrayAt n (v.toList ++ l) 0 = v := by
  apply Vector.ext
  intro i hi
  simp only [arrayAt, Vector.getElem_ofFn, Nat.zero_add]
  rw [u8At_append_left (by simpa using hi)]
  simp [u8At, hi]

theorem u8At_cons_zero (b : UInt8) (l : Buf) : u8At (b :: l) 0 = b := rfl

theorem u8At_cons_succ (b : UInt8) (l : Buf) (i : Nat) : u8At (b :: l) (i + 1) = u8At l i := rfl

end Bytes
