import Zigbee.Lib.Bytes

/-!
# A NOR flash device

The contents of a NOR flash: an erase sets every byte of a range to `0xFF`, a program can only
clear bits.

* `read`, `program`, `erase` — the three commands, on contents given as a function of the address.
* `overlay` — the effect of a program on a region that has been read into a buffer.
* `read_program_within`, `read_program_disjoint`, `read_erase_within`, `read_erase_disjoint` —
  what a region holds after a command inside or outside it.
* `overlay_erased` — programming an erased part of a region stores the data as given.
-/

namespace NorFlash

open Bytes

/-- The numbers of two sectors, or of two pages. -/
scoped instance (priority := 2000) neZeroTwo : NeZero 2 := ⟨by decide⟩

/-- Flash contents by address. -/
abbrev Flash := Nat → UInt8

/-- Fully erased contents. -/
def erased : Flash := fun _ => 0xFF

def read (f : Flash) (address len : Nat) : Buf := (List.range len).map fun i => f (address + i)

def program (f : Flash) (address : Nat) (data : Buf) : Flash := fun a =>
  if address ≤ a ∧ a < address + data.length then f a &&& u8At data (a - address) else f a

/-- Erase the addresses `start..stop`. -/
def erase (f : Flash) (start stop : Nat) : Flash := fun a =>
  if start ≤ a ∧ a < stop then 0xFF else f a

/-- A region after `data` was programmed at offset `off` of it. -/
def overlay (region : Buf) (off : Nat) (data : Buf) : Buf :=
  region.take off ++ (List.zipWith (· &&& ·) (region.drop off) data ++ region.drop (off + data.length))

variable (f : Flash)

@[simp] theorem read_length (address len : Nat) : (read f address len).length = len := by
  simp [read]

@[simp] theorem read_getElem (address len i : Nat) (h : i < (read f address len).length) :
    (read f address len)[i] = f (address + i) := by
  simp [read]

variable {address len : Nat}

theorem read_congr {f g : Flash} (h : ∀ i < len, f (address + i) = g (address + i)) :
    read f address len = read g address len := by
  simp only [read]
  exact List.map_congr_left fun i hi => h i (List.mem_range.mp hi)

variable {data : Buf}

theorem overlay_length {region : Buf} {off : Nat} (h : off + data.length ≤ region.length) :
    (overlay region off data).length = region.length := by
  simp [overlay]; omega

theorem overlay_getElem {region : Buf} {off i : Nat} (h : off + data.length ≤ region.length)
    (hi : i < (overlay region off data).length) (hr : i < region.length) :
    (overlay region off data)[i] =
      if off ≤ i ∧ i < off + data.length then region[i] &&& u8At data (i - off) else region[i] := by
  have htake : (region.take off).length = off := by simp; omega
  have hzip : (List.zipWith (· &&& ·) (region.drop off) data).length = data.length := by
    simp; omega
  simp only [overlay]
  by_cases h1 : i < off
  · rw [List.getElem_append_left (by omega), if_neg (by omega)]
    simp
  · rw [List.getElem_append_right (by omega)]
    by_cases h2 : i < off + data.length
    · rw [List.getElem_append_left (by omega), if_pos ⟨by omega, h2⟩]
      have hd : i - off < data.length := by omega
      simp [u8At, htake, show off + (i - off) = i by omega, List.getElem?_eq_getElem hd]
    · rw [List.getElem_append_right (by omega), if_neg (by omega)]
      simp only [htake, hzip, List.getElem_drop]
      congr 1; omega

/-- Regions of equal bytes. -/
theorem read_shift {f g : Flash} {a b : Nat} (h : ∀ i < len, f (a + i) = g (b + i)) : read f a len = read g b len := by
  simp only [read]
  exact List.map_congr_left fun i hi => h i (List.mem_range.mp hi)

/-- Two regions in a row. -/
theorem read_append (address m n : Nat) : read f address (m + n) = read f address m ++ read f (address + m) n := by
  simp only [read, List.range_add, List.map_append, List.map_map]
  congr 1
  exact List.map_congr_left fun i _ => congrArg f (Nat.add_assoc _ _ _).symm

/-- Part of a region. -/
theorem read_slice {off n : Nat} (h : off + n ≤ len) :
    read f (address + off) n = slice (read f address len) off (off + n) := by
  apply List.ext_getElem
  · simp [slice]
    omega
  · intro i h1 h2
    simp only [slice, read_getElem, List.getElem_take, List.getElem_drop]
    congr 1
    omega

/-- A program inside a region. -/
theorem read_program_within {off : Nat} (h : off + data.length ≤ len) :
    read (program f (address + off) data) address len = overlay (read f address len) off data := by
  apply List.ext_getElem
  · rw [overlay_length (by simpa using h)]; simp
  · intro i h1 h2
    rw [overlay_getElem (by simpa using h) h2 (by simpa using h1)]
    simp only [read_getElem, program]
    by_cases hc : off ≤ i ∧ i < off + data.length
    · rw [if_pos (by omega), if_pos hc, show address + i - (address + off) = i - off by omega]
    · rw [if_neg (by omega), if_neg hc]

/-- A program outside a region. -/
theorem read_program_disjoint {start : Nat} (h : start + data.length ≤ address ∨ address + len ≤ start) :
    read (program f start data) address len = read f address len := by
  apply read_congr
  intro i hi
  simp only [program]
  rw [if_neg (by omega)]

/-- An erase that covers a region. -/
theorem read_erase_within {start stop : Nat} (h : start ≤ address ∧ address + len ≤ stop) :
    read (erase f start stop) address len = List.replicate len 0xFF := by
  apply List.ext_getElem
  · simp
  · intro i h1 _
    simp only [read_getElem, erase, List.getElem_replicate]
    simp only [read_length] at h1
    rw [if_pos (by omega)]

/-- An erase outside a region. -/
theorem read_erase_disjoint {start stop : Nat} (h : stop ≤ address ∨ address + len ≤ start) :
    read (erase f start stop) address len = read f address len := by
  apply read_congr
  intro i hi
  simp only [erase]
  rw [if_neg (by omega)]

theorem zipWith_and_erased (data : Buf) (rest : Buf) :
    List.zipWith (· &&& ·) (List.replicate data.length 0xFF ++ rest) data = data := by
  induction data with
  | nil => simp
  | cons b data ih =>
    simp only [List.length_cons, List.replicate_succ, List.cons_append, List.zipWith_cons_cons, ih]
    congr 1
    apply UInt8.toBitVec_inj.mp
    simp only [UInt8.toBitVec_and]
    exact BitVec.allOnes_and

/-- Programming an erased part of a region stores the data. -/
theorem overlay_erased {a b : Buf} {off n : Nat} (ha : a.length = off) (hn : n = data.length) :
    overlay (a ++ (List.replicate n 0xFF ++ b)) off data = a ++ (data ++ b) := by
  subst ha hn
  have hdrop : (a ++ (List.replicate data.length 0xFF ++ b)).drop (a.length + data.length) = b := by
    rw [← List.append_assoc]
    exact List.drop_left' (by simp)
  simp only [overlay, List.take_left, List.drop_left, zipWith_and_erased, hdrop]

end NorFlash
