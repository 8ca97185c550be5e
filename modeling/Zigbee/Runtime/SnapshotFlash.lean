import Zigbee.Lib.SnapshotStore
import Zigbee.Runtime.SecurityJournal.Codec

/-!
# Flash placement of the snapshot journals

Trust Center state, child table, APS tables and reporting configurations are each kept in a journal of
two flash sectors.  What the four share: their place in the flash, the greater part of `geometry_ok`,
and the layout of a record.
-/

namespace Zigbee.Runtime

open Bytes NorFlash SnapshotRecord SnapshotJournal

/-- Sector placement (`sectors`, `SECTOR_SIZE`) and flash parameters.  Offsets are 32-bit. -/
structure JournalConfig where
  sectors : Fin 2 → Nat
  sectorSize : Nat
  readSize : Nat
  writeSize : Nat
  eraseSize : Nat
  capacity : Nat
  capacity_lt : capacity < 2 ^ 32

namespace JournalConfig

variable (c : JournalConfig)

/-- The checks that all four `geometry_ok` make, for slots of `slotSize` bytes. -/
def Placed (slotSize : Nat) : Prop :=
  c.sectorSize ≤ max (c.sectors 0) (c.sectors 1) - min (c.sectors 0) (c.sectors 1) ∧
  c.readSize ≠ 0 ∧ c.writeSize ≠ 0 ∧ c.eraseSize ≠ 0 ∧
  c.readSize ∣ slotSize ∧ c.eraseSize ∣ c.sectorSize ∧
  c.writeSize ∣ slotSize - 8 ∧ c.writeSize ∣ 4 ∧
  c.eraseSize ∣ c.sectors 0 ∧ c.eraseSize ∣ c.sectors 1 ∧
  c.sectors 0 + c.sectorSize ≤ c.capacity ∧ c.sectors 1 + c.sectorSize ≤ c.capacity

instance (slotSize : Nat) : Decidable (c.Placed slotSize) := by unfold Placed; infer_instance

variable {c}

theorem Placed.disjoint {slotSize : Nat} (h : c.Placed slotSize) :
    c.sectors 0 + c.sectorSize ≤ c.sectors 1 ∨ c.sectors 1 + c.sectorSize ≤ c.sectors 0 := by
  have hdiff := h.1
  have hend0 := h.2.2.2.2.2.2.2.2.2.2.1
  have hend1 := h.2.2.2.2.2.2.2.2.2.2.2
  rcases Nat.le_total (c.sectors 0) (c.sectors 1) with hle | hle
  · rw [Nat.max_eq_right hle, Nat.min_eq_left hle] at hdiff
    omega
  · rw [Nat.max_eq_left hle, Nat.min_eq_right hle] at hdiff
    omega

end JournalConfig

/-- `CMIT`. -/
def SNAPSHOT_COMMIT : Buf := [0x43, 0x4D, 0x49, 0x54]

/-- The record format of a journal. -/
def recordFrame (magic : Buf) (version : UInt8) (slotSize : Nat) : Frame where
  magic := magic
  version := version
  slotSize := slotSize
  commit := SNAPSHOT_COMMIT
  crc := SecurityJournal.crc32

theorem recordFrame_wf {magic : Buf} {version : UInt8} {slotSize : Nat} (hlen : magic.length = 4)
    (hprog : isErased magic = false) (hlarge : 24 ≤ slotSize) : (recordFrame magic version slotSize).Wf where
  magic_length := hlen
  commit_length := rfl
  magic_programmed := hprog
  commit_programmed := show isErased SNAPSHOT_COMMIT = false by decide
  slot_large := hlarge

end Zigbee.Runtime
