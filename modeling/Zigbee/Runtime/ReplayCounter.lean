import Zigbee.Lib.FloorTable
import Zigbee.Types

/-!
# Incoming replay counters and their domains

Model of the replay-floor types of `zigbee-runtime/src/security_store.rs`,
`zigbee-nwk/src/security.rs` and `zigbee-aps/src/security.rs`.

Two floors belong to the same *domain* when the code's `same_domain` says so.  `domain` names the
domain as a value, so that tables of floors are tables keyed by `domain`; `sameDomain_iff` connects
the two.
-/

namespace Zigbee.Runtime

/-- Durable identity of one APS incoming replay domain. -/
inductive ApsReplayOrigin where
  | keyPair (partner : IeeeAddress) (keyType : ApsKeyType)
  | preconfiguredGlobal (source : IeeeAddress)
  | distributedGlobal (source : IeeeAddress)
  deriving DecidableEq

/-- `PartialEq`: the sender of a global origin is not part of its identity. -/
def ApsReplayOrigin.eq : ApsReplayOrigin → ApsReplayOrigin → Bool
  | .keyPair p k, .keyPair p' k' => p == p' && k == k'
  | .preconfiguredGlobal _, .preconfiguredGlobal _ => true
  | .distributedGlobal _, .distributedGlobal _ => true
  | _, _ => false

/-- Durable incoming APS replay floor bound to the key that authenticated it. -/
structure ApsReplayCounter where
  origin : ApsReplayOrigin
  keyFingerprint : UInt32
  counter : UInt32
  deriving DecidableEq

/-- One incoming replay floor. -/
inductive PersistentReplayCounter where
  | nwk (replay : NwkReplayCounter)
  | aps (replay : ApsReplayCounter)
  deriving DecidableEq

/-- Durable replay domains to remove when their device or key is revoked. -/
inductive ReplayCounterTombstone where
  | device (address : IeeeAddress)
  | keyFingerprint (fingerprint : UInt32)
  | replayDomain (replay : PersistentReplayCounter)

namespace PersistentReplayCounter

/-- Derived `PartialEq`, through the origin's own. -/
def eq : PersistentReplayCounter → PersistentReplayCounter → Bool
  | .nwk l, .nwk r => l == r
  | .aps l, .aps r =>
    l.origin.eq r.origin && l.keyFingerprint == r.keyFingerprint && l.counter == r.counter
  | _, _ => false

def sameDomain : PersistentReplayCounter → PersistentReplayCounter → Bool
  | .nwk l, .nwk r =>
    l.source == r.source && l.keySequence == r.keySequence && l.keyFingerprint == r.keyFingerprint
  | .aps l, .aps r => l.origin.eq r.origin && l.keyFingerprint == r.keyFingerprint
  | _, _ => false

def counter : PersistentReplayCounter → UInt32
  | .nwk r => r.counter
  | .aps r => r.counter

def isNwk : PersistentReplayCounter → Bool
  | .nwk _ => true
  | .aps _ => false

def matchesTombstone (self : PersistentReplayCounter) : ReplayCounterTombstone → Bool
  | .device address =>
    match self with
    | .nwk r => r.source == address
    | .aps r =>
      match r.origin with
      | .keyPair partner _ => partner == address
      | .preconfiguredGlobal _ | .distributedGlobal _ => false
  | .keyFingerprint fingerprint =>
    match self with
    | .nwk r => r.keyFingerprint == fingerprint
    | .aps r => r.keyFingerprint == fingerprint
  | .replayDomain replay => self.sameDomain replay

end PersistentReplayCounter

/-! ## Domains as values -/

inductive OriginKey where
  | keyPair (partner : IeeeAddress) (keyType : ApsKeyType)
  | preconfiguredGlobal
  | distributedGlobal
  deriving DecidableEq

def ApsReplayOrigin.key : ApsReplayOrigin → OriginKey
  | .keyPair p k => .keyPair p k
  | .preconfiguredGlobal _ => .preconfiguredGlobal
  | .distributedGlobal _ => .distributedGlobal

/-- The identity of a replay floor without its counter. -/
inductive ReplayDomain where
  | nwk (source : IeeeAddress) (keySequence : UInt8) (keyFingerprint : UInt32)
  | aps (origin : OriginKey) (keyFingerprint : UInt32)
  deriving DecidableEq

def PersistentReplayCounter.domain : PersistentReplayCounter → ReplayDomain
  | .nwk r => .nwk r.source r.keySequence r.keyFingerprint
  | .aps r => .aps r.origin.key r.keyFingerprint

/-- The value a floor table compares. -/
def PersistentReplayCounter.floor (r : PersistentReplayCounter) : Nat := r.counter.toNat

theorem ApsReplayOrigin.eq_iff (a b : ApsReplayOrigin) : a.eq b = true ↔ a.key = b.key := by
  cases a <;> cases b <;> simp [ApsReplayOrigin.eq, ApsReplayOrigin.key]

/-- **`same_domain` compares the domain value.** -/
theorem PersistentReplayCounter.sameDomain_iff (a b : PersistentReplayCounter) :
    a.sameDomain b = true ↔ a.domain = b.domain := by
  cases a <;> cases b <;>
    simp [sameDomain, domain, ApsReplayOrigin.eq_iff, and_assoc]

theorem PersistentReplayCounter.eq_refl (a : PersistentReplayCounter) : a.eq a = true := by
  cases a <;> simp [PersistentReplayCounter.eq, (ApsReplayOrigin.eq_iff _ _).mpr]

end Zigbee.Runtime
