import Mathlib.Data.List.Induction
import Zigbee.Lib.Bytes

/-!
# Shared types and build configuration

Addresses, keys and key classes used by more than one layer, and the table capacities that the
`router` and `trust-center` features select at build time.
-/

namespace Zigbee

/-- `IeeeAddress = [u8; 8]`. -/
abbrev IeeeAddress := Vector UInt8 8

/-- `AesKey = [u8; 16]`. -/
abbrev AesKey := Vector UInt8 16

abbrev ShortAddress := UInt16

/-- APS key types (`zigbee-aps`). -/
inductive ApsKeyType where
  | trustCenterMasterKey
  | trustCenterLinkKey
  | networkKey
  | applicationLinkKey
  deriving DecidableEq, Repr

def ApsKeyType.toU8 : ApsKeyType → UInt8
  | .trustCenterMasterKey => 0x00
  | .trustCenterLinkKey => 0x01
  | .networkKey => 0x02
  | .applicationLinkKey => 0x03

def ApsKeyType.fromU8 (v : UInt8) : Option ApsKeyType :=
  if v = 0x00 then some .trustCenterMasterKey
  else if v = 0x01 then some .trustCenterLinkKey
  else if v = 0x02 then some .networkKey
  else if v = 0x03 then some .applicationLinkKey
  else none

/-- `bdbNodeJoinLinkKeyType` (`zigbee-bdb`). -/
inductive NodeJoinLinkKeyType where
  | defaultGlobalTrustCenterLinkKey
  | distributedSecurityGlobalLinkKey
  | installCodeDerivedPreconfiguredLinkKey
  | touchlinkPreconfiguredLinkKey
  deriving DecidableEq, Repr

def NodeJoinLinkKeyType.toU8 : NodeJoinLinkKeyType → UInt8
  | .defaultGlobalTrustCenterLinkKey => 0x00
  | .distributedSecurityGlobalLinkKey => 0x01
  | .installCodeDerivedPreconfiguredLinkKey => 0x02
  | .touchlinkPreconfiguredLinkKey => 0x03

def NodeJoinLinkKeyType.fromU8 (v : UInt8) : Option NodeJoinLinkKeyType :=
  if v = 0x00 then some .defaultGlobalTrustCenterLinkKey
  else if v = 0x01 then some .distributedSecurityGlobalLinkKey
  else if v = 0x02 then some .installCodeDerivedPreconfiguredLinkKey
  else if v = 0x03 then some .touchlinkPreconfiguredLinkKey
  else none

theorem NodeJoinLinkKeyType.fromU8_toU8 (t : NodeJoinLinkKeyType) : fromU8 t.toU8 = some t := by
  cases t <;> rfl

def NodeJoinLinkKeyType.isDistributed : NodeJoinLinkKeyType → Bool
  | .distributedSecurityGlobalLinkKey | .touchlinkPreconfiguredLinkKey => true
  | _ => false

/-- Durable identity and floor of one NWK incoming replay domain (`zigbee-nwk`). -/
structure NwkReplayCounter where
  source : IeeeAddress
  keySequence : UInt8
  keyFingerprint : UInt32
  counter : UInt32
  deriving DecidableEq

/-- `zigbee_crypto::key_fingerprint`, the 32-bit FNV-1a hash. -/
def keyFingerprint (key : AesKey) : UInt32 :=
  key.toList.foldl (fun hash byte => (hash ^^^ byte.toUInt32) * 0x01000193) 0x811C9DC5

/-- Cargo features that change table sizes. -/
structure Features where
  router : Bool
  trustCenter : Bool
  deriving DecidableEq, Repr

/-- `zigbee_nwk::security::MAX_FRAME_COUNTER_ENTRIES`. -/
def MAX_FRAME_COUNTER_ENTRIES (router : Bool) : Nat := if router then 64 else 16

/-- `zigbee_aps::security::MAX_KEY_TABLE_ENTRIES`. -/
def MAX_KEY_TABLE_ENTRIES (trustCenter : Bool) : Nat := if trustCenter then 32 else 16

/-- `zigbee_aps::security::MAX_GLOBAL_REPLAY_ENTRIES`. -/
def MAX_GLOBAL_REPLAY_ENTRIES : Nat := 16

/-- Capacity of the durable replay table. -/
def MAX_PERSISTENT_REPLAY_COUNTERS (f : Features) : Nat :=
  MAX_FRAME_COUNTER_ENTRIES f.router + MAX_KEY_TABLE_ENTRIES f.trustCenter + MAX_GLOBAL_REPLAY_ENTRIES

/-! ## Functions of the standard library -/

/-- `u16::saturating_add`. -/
def saturatingAdd16 (a b : UInt16) : UInt16 :=
  if a.toNat + b.toNat < 2 ^ 16 then a + b else 0xFFFF

/-- `u32::checked_add`. -/
@[irreducible] def checkedAdd32 (a b : UInt32) : Option UInt32 := if a.toNat + b.toNat < 2 ^ 32 then some (a + b) else none

/-- `u32::checked_sub`. -/
@[irreducible] def checkedSub32 (a b : UInt32) : Option UInt32 := if b ≤ a then some (a - b) else none

/-- `u32::saturating_sub`. -/
@[irreducible] def saturatingSub32 (a b : UInt32) : UInt32 := if b ≤ a then a - b else 0

theorem toNat_of_checkedAdd32 {a b c : UInt32} (h : checkedAdd32 a b = some c) : c.toNat = a.toNat + b.toNat := by
  unfold checkedAdd32 at h
  split at h
  · rename_i hlt
    cases h
    rw [UInt32.toNat_add, Nat.mod_eq_of_lt hlt]
  · cases h

theorem toNat_of_checkedSub32 {a b c : UInt32} (h : checkedSub32 a b = some c) : c.toNat + b.toNat = a.toNat := by
  unfold checkedSub32 at h
  split at h
  · rename_i hle
    cases h
    have hle' : b.toNat ≤ a.toNat := hle
    rw [UInt32.toNat_sub_of_le _ _ hle]
    omega
  · cases h

/-- `Iterator::max_by_key`: the last of the maximal elements. -/
def maxByKey {α : Type} (key : α → Nat) (l : List α) : Option α :=
  l.foldl (fun best x =>
    match best with
    | none => some x
    | some b => if key b ≤ key x then some x else some b) none

variable {α : Type}

theorem maxByKey_concat (key : α → Nat) (l : List α) (x : α) :
    maxByKey key (l ++ [x]) =
      match maxByKey key l with
      | none => some x
      | some b => if key b ≤ key x then some x else some b := by
  rw [maxByKey, List.foldl_append]
  rfl

theorem maxByKey_eq_none {key : α → Nat} {l : List α} : maxByKey key l = none ↔ l = [] := by
  induction l using List.reverseRecOn with
  | nil => exact iff_of_true rfl rfl
  | append_singleton l x =>
    refine iff_of_false ?_ (by simp)
    rw [maxByKey_concat]
    split
    · simp
    · split <;> simp

/-- `maxByKey` returns an element of the list, and none has a greater key. -/
theorem maxByKey_spec {key : α → Nat} {l : List α} {b : α} (h : maxByKey key l = some b) :
    b ∈ l ∧ ∀ x ∈ l, key x ≤ key b := by
  induction l using List.reverseRecOn generalizing b with
  | nil => cases h
  | append_singleton l x ih =>
    rw [maxByKey_concat] at h
    simp only [List.mem_append, List.mem_singleton]
    cases hbest : maxByKey key l with
    | none =>
      rw [hbest] at h
      cases h
      rw [maxByKey_eq_none.mp hbest]
      exact ⟨Or.inr rfl, fun y hy => by simp_all⟩
    | some best =>
      obtain ⟨hmem, hmax⟩ := ih hbest
      rw [hbest] at h
      dsimp only at h
      split at h
      · rename_i hle
        cases h
        refine ⟨Or.inr rfl, ?_⟩
        rintro y (hy | rfl)
        · exact (hmax y hy).trans hle
        · exact Nat.le_refl _
      · rename_i hlt
        cases h
        refine ⟨Or.inl hmem, ?_⟩
        rintro y (hy | rfl)
        · exact hmax y hy
        · exact Nat.le_of_not_le hlt

theorem maxByKey_mem {key : α → Nat} {l : List α} {x : α} (h : maxByKey key l = some x) : x ∈ l :=
  (maxByKey_spec h).1

/-- No element of the list has a greater key. -/
theorem maxByKey_max {key : α → Nat} {l : List α} {b : α} (h : maxByKey key l = some b) : ∀ x ∈ l, key x ≤ key b :=
  (maxByKey_spec h).2

/-- The element with the greatest key is found wherever it stands. -/
theorem maxByKey_of_perm {key : α → Nat} {l rest : List α} {a : α} (hperm : l.Perm (a :: rest))
    (hgreatest : ∀ b ∈ rest, key b < key a) : maxByKey key l = some a := by
  have ha : a ∈ l := hperm.mem_iff.mpr List.mem_cons_self
  cases h : maxByKey key l with
  | none =>
    rw [maxByKey_eq_none.mp h] at ha
    cases ha
  | some b =>
    obtain ⟨hmem, hmax⟩ := maxByKey_spec h
    rcases List.mem_cons.mp (hperm.mem_iff.mp hmem) with rfl | hb
    · rfl
    · exact absurd (hmax a ha) (Nat.not_le.mpr (hgreatest b hb))

end Zigbee
