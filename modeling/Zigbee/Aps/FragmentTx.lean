import Zigbee.Aps.Fragment

/-!
# Transmit side of APS fragmentation

Model of `fragment_tx.rs` of `zigbee-aps`.  One fragmented transaction is in flight at a time.  Its
blocks are sent a window at a time; an acknowledgement that names a new block of the window lets it
advance, and when none comes in time the lowest unacknowledged block is sent again.
-/

namespace Zigbee.Aps

inductive ApsStatus where
  | success
  | asduTooLong
  | insufficientSpace
  | noAck
  | securityFail
  deriving DecidableEq, Repr

def APS_FRAGMENT_BLOCK_SIZE : Nat := 64

def APS_SECURED_FRAGMENT_BLOCK_SIZE : Nat := 48

def fragmentBlockSize (secured : Bool) : Nat := if secured then APS_SECURED_FRAGMENT_BLOCK_SIZE else APS_FRAGMENT_BLOCK_SIZE

def APS_ACK_WAIT_DURATION_US : UInt32 := 1500000

/-- A block as it is sent: its extended header and its part of the ASDU. -/
structure FragmentFrame where
  fragmentation : UInt8
  blockNumber : Nat
  payload : List UInt8
  deriving DecidableEq

structure FragmentTxSession where
  dst : ShortAddress
  apsCounter : UInt8
  /-- The transaction is APS-secured. -/
  secured : Bool
  payload : List UInt8
  blockSize : Nat
  total : Nat
  windowSize : Nat
  windowStart : Nat
  acked : BitVec 16
  due : BitVec 16
  retries : Nat
  maxRetries : Nat
  waiting : Bool
  waitingSinceUs : UInt32

namespace FragmentTxSession

def new (nowUs : UInt32) (dst : ShortAddress) (apsCounter : UInt8) (secured : Bool) (payload : List UInt8)
    (blockSize total windowSize maxRetries : Nat) : FragmentTxSession :=
  { dst := dst
    apsCounter := apsCounter
    secured := secured
    payload := payload
    blockSize := blockSize
    total := total
    windowSize := clampWindowSize windowSize
    windowStart := 0
    acked := 0
    due := 0
    retries := 0
    maxRetries := maxRetries
    waiting := false
    waitingSinceUs := nowUs }

def windowEnd (s : FragmentTxSession) : Nat := min (saturatingAdd8 s.windowStart s.windowSize) s.total

def windowMask (s : FragmentTxSession) : BitVec 16 := BitSet.ofRange 16 s.windowStart s.windowEnd

def allMask (s : FragmentTxSession) : BitVec 16 := if 16 ≤ s.total then BitVec.allOnes 16 else BitVec.twoPow 16 s.total - 1

def lowestUnackedInWindow (s : FragmentTxSession) : Option Nat :=
  (List.range' s.windowStart (s.windowEnd - s.windowStart)).find? fun block => !s.acked.getLsbD block

def block (s : FragmentTxSession) (block : Nat) : List UInt8 := (s.payload.drop (block * s.blockSize)).take s.blockSize

/-- The first block carries the block count, a later one its number. -/
def frame (s : FragmentTxSession) (block : Nat) : FragmentFrame :=
  if block = 0 then ⟨FRAG_FIRST, s.total, s.block 0⟩ else ⟨FRAG_SUBSEQUENT, block, s.block block⟩

/-- The blocks that an acknowledgement names and that were not acknowledged before. -/
def newlyAcked (s : FragmentTxSession) (bitfield : BitVec 8) : List Nat :=
  (((List.range s.windowSize).takeWhile fun bit => saturatingAdd8 s.windowStart bit < s.total).filter fun bit =>
    bitfield.getLsbD bit && !s.acked.getLsbD (saturatingAdd8 s.windowStart bit)).map (saturatingAdd8 s.windowStart)

/-- The lowest unacknowledged block of the window becomes due. -/
def resendLowest (s : FragmentTxSession) : FragmentTxSession :=
  match s.lowestUnackedInWindow with
  | some block => { s with due := BitSet.insert s.due block }
  | none => s

/-- What is due after new acknowledgements: the next window once this one is complete, else the lowest
    block that is missing. -/
def advance (s : FragmentTxSession) : FragmentTxSession :=
  if s.acked &&& s.windowMask = s.windowMask ∧ s.windowEnd < s.total then
    let s' := { s with windowStart := s.windowEnd }
    { s' with due := s'.due ||| (s'.windowMask &&& ~~~s'.acked) }
  else s.resendLowest

/-- Whether any block was newly acknowledged. -/
def applyAck (s : FragmentTxSession) (windowStart : Nat) (bitfield : BitVec 8) : FragmentTxSession × Bool :=
  if windowStart ≠ s.windowStart then (s, false)
  else
    let newly := (s.newlyAcked bitfield).foldl BitSet.insert 0
    if newly = 0 then (s, false)
    else
      let acked := s.acked ||| newly
      (advance { s with acked := acked, due := s.due &&& ~~~acked, retries := 0, waiting := false }, true)

def complete (s : FragmentTxSession) : Bool := s.acked == s.allMask

end FragmentTxSession

/-- The transmit state of the APS layer: the transaction in flight, and the result of the last one. -/
structure FragmentTx where
  session : Option FragmentTxSession
  confirm : Option ApsStatus

namespace FragmentTx

/-- `u16::trailing_zeros`. -/
def trailingZeros (m : BitVec 16) : Nat := ((List.range 16).find? m.getLsbD).getD 16

/-- `start_fragmented_tx`, up to the sending of the first block.  `keyFound` is whether there is a link
    key for the destination. -/
def start (tx : FragmentTx) (nowUs : UInt32) (unicast ackRequest securityEnabled keyFound : Bool) (dst : ShortAddress)
    (apsCounter : UInt8) (payload : List UInt8) (windowSize maxRetries : Nat) : Except ApsStatus FragmentTx :=
  if !unicast || !ackRequest || decide (APS_MAX_FRAGMENTED_ASDU < payload.length) then .error .asduTooLong
  else if tx.session.isSome then .error .insufficientSpace
  else if securityEnabled && !keyFound then .error .securityFail
  else
    let blockSize := fragmentBlockSize securityEnabled
    let total := (payload.length + blockSize - 1) / blockSize
    if APS_MAX_FRAGMENT_BLOCKS < total ∨ total < 2 then .error .asduTooLong
    else
      let session := FragmentTxSession.new nowUs dst apsCounter securityEnabled payload blockSize total windowSize maxRetries
      .ok ⟨some { session with due := session.windowMask }, none⟩

/-- `finish_fragment_tx`. -/
def finish (tx : FragmentTx) (status : ApsStatus) : FragmentTx :=
  ⟨none, if tx.session.isSome then some status else tx.confirm⟩

/-- The lowest due block is built and counted as sent; `canSecure` is whether there are a key and a
    counter to secure it with. -/
def nextDueFragment (tx : FragmentTx) (nowUs : UInt32) (canSecure : Bool) : FragmentTx × Option FragmentFrame :=
  match tx.session with
  | none => (tx, none)
  | some s =>
    if s.due = 0 then (tx, none)
    else if s.secured && !canSecure then (tx.finish .securityFail, none)
    else
      let block := trailingZeros s.due
      let due := BitSet.erase s.due block
      let s' := { s with due := due }
      let s' := if due = 0 then { s' with waiting := true, waitingSinceUs := nowUs } else s'
      ({ tx with session := some s' }, some (s.frame block))

/-- `poll_fragment_tx_timeout`. -/
def pollTimeout (tx : FragmentTx) (nowUs : UInt32) : FragmentTx :=
  match tx.session with
  | none => tx
  | some s =>
    if !s.waiting || decide (nowUs - s.waitingSinceUs < APS_ACK_WAIT_DURATION_US) then tx
    else if s.maxRetries ≤ s.retries then tx.finish .noAck
    else { tx with session := some (FragmentTxSession.resendLowest { s with retries := s.retries + 1, waiting := false }) }

/-- `handle_fragment_ack`; whether the acknowledgement belongs to the transaction in flight. -/
def handleAck (tx : FragmentTx) (src : ShortAddress) (apsCounter : UInt8) (windowStart : Nat)
    (bitfield : Option (BitVec 8)) (apsSecured : Bool) : FragmentTx × Bool :=
  match tx.session with
  | none => (tx, false)
  | some s =>
    if s.dst ≠ src ∨ s.apsCounter ≠ apsCounter then (tx, false)
    else if s.secured && !apsSecured then (tx, true)
    else
      match bitfield with
      | none => (tx, true)
      | some bitfield =>
        let (s', newly) := s.applyAck windowStart bitfield
        let tx := { tx with session := some s' }
        if newly && s'.complete then (tx.finish .success, true) else (tx, true)

end FragmentTx

end Zigbee.Aps
