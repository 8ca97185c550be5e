import Zigbee.Lib.BitSet
import Zigbee.Types

/-!
# Receive side of APS fragmentation

Model of `fragment.rs` of `zigbee-aps`: bounded reassembly sessions that place every block by its
number, track the receive window and compute the windowed acknowledgement, and `receive_fragment` of
`apsde.rs`, which hands a completed ASDU up once and answers later blocks from the duplicate table.

Octets that hold block numbers and sizes are natural numbers.  Of the data buffer the part in use is
kept.
-/

namespace Zigbee.Aps

def APS_MAX_FRAGMENTED_ASDU : Nat := 256

def APS_MAX_FRAGMENT_BLOCKS : Nat := 16

def APS_MAX_WINDOW_SIZE : Nat := 8

def FRAG_FIRST : UInt8 := 0x01

def FRAG_SUBSEQUENT : UInt8 := 0x02

/-- Reassembly sessions of a router. -/
def MAX_ENTRIES : Nat := 4

def clampWindowSize (windowSize : Nat) : Nat :=
  if windowSize = 0 then 1 else if APS_MAX_WINDOW_SIZE < windowSize then APS_MAX_WINDOW_SIZE else windowSize

/-- `u8::saturating_add`. -/
def saturatingAdd8 (a b : Nat) : Nat := min 255 (a + b)

structure FragmentAck where
  fragmentation : UInt8
  /-- Lowest block number of the acknowledged receive window. -/
  windowStart : Nat
  bitfield : BitVec 8
  deriving DecidableEq

inductive FragmentOutcome where
  | pending (ack : Option FragmentAck) (stored : Bool)
  | complete (ack : FragmentAck)
  | rejected
  deriving DecidableEq

structure ReassemblyEntry where
  active : Bool
  delivered : Bool
  srcAddr : ShortAddress
  srcIeee : Option IeeeAddress
  apsCounter : UInt8
  /-- Zero until block 0 arrives. -/
  totalBlocks : Nat
  received : BitVec 16
  windowStart : Nat
  blockOffset : Nat → Nat
  blockLen : Nat → Nat
  data : List UInt8
  lastProgressUs : UInt32

namespace ReassemblyEntry

def empty : ReassemblyEntry := ⟨false, false, 0, none, 0, 0, 0, 0, fun _ => 0, fun _ => 0, [], 0⟩

def matchesSession (e : ReassemblyEntry) (srcAddr : ShortAddress) (srcIeee : Option IeeeAddress) (apsCounter : UInt8) : Bool :=
  e.active && e.srcAddr == srcAddr && e.apsCounter == apsCounter &&
    match e.srcIeee, srcIeee with
    | some known, some offered => known == offered
    | _, _ => true

def has (e : ReassemblyEntry) (block : Nat) : Bool := e.received.getLsbD block

def windowEnd (e : ReassemblyEntry) (windowSize : Nat) : Nat :=
  let windowEnd := saturatingAdd8 e.windowStart windowSize
  if e.totalBlocks ≠ 0 then min windowEnd e.totalBlocks else min windowEnd APS_MAX_FRAGMENT_BLOCKS

/-- Blocks `a` up to `b` are stored. -/
def hasAll (e : ReassemblyEntry) (a b : Nat) : Bool := (List.range' a (b - a)).all e.has

def windowComplete (e : ReassemblyEntry) (windowSize : Nat) : Bool :=
  e.totalBlocks != 0 && e.hasAll e.windowStart (e.windowEnd windowSize)

def isComplete (e : ReassemblyEntry) : Bool := e.totalBlocks != 0 && e.hasAll 0 e.totalBlocks

/-- Bits beyond the window and beyond the last block are set. -/
def ackBit (e : ReassemblyEntry) (windowSize bit : Nat) : Bool :=
  let block := e.windowStart + bit
  decide (windowSize ≤ bit) || (e.totalBlocks != 0 && decide (e.totalBlocks ≤ block)) ||
    (decide (block < APS_MAX_FRAGMENT_BLOCKS) && e.has block)

def ack (e : ReassemblyEntry) (fragmentation : UInt8) (windowSize : Nat) : FragmentAck :=
  ⟨fragmentation, e.windowStart,
    ((List.range APS_MAX_WINDOW_SIZE).filter (e.ackBit windowSize)).foldl BitSet.insert 0⟩

def reset (e : ReassemblyEntry) : ReassemblyEntry :=
  { e with active := false, delivered := false, received := 0, totalBlocks := 0, windowStart := 0, data := [] }

/-- A new session. -/
def opened (e : ReassemblyEntry) (nowUs : UInt32) (srcAddr : ShortAddress) (srcIeee : Option IeeeAddress)
    (apsCounter : UInt8) : ReassemblyEntry :=
  { e.reset with active := true, srcAddr := srcAddr, srcIeee := srcIeee, apsCounter := apsCounter, lastProgressUs := nowUs }

/-- The block count of a first block: it must fit what is stored, or repeat what is known.  An error
    carries what is left of the session. -/
def announce (e : ReassemblyEntry) : Option Nat → Except ReassemblyEntry ReassemblyEntry
  | none => .ok e
  | some total =>
    if e.totalBlocks = 0 then
      if e.received >>> total ≠ 0 then .error e.reset else .ok { e with totalBlocks := total }
    else if e.totalBlocks ≠ total then .error e
    else .ok e

/-- The receive window moves when the block lies in the next one and this one is complete; `none` for
    a block outside of both. -/
def slide (e : ReassemblyEntry) (nowUs : UInt32) (windowSize block : Nat) : Option ReassemblyEntry :=
  if e.windowStart + windowSize ≤ block then
    if !e.windowComplete windowSize then none
    else
      let nextStart := saturatingAdd8 e.windowStart windowSize
      if nextStart + windowSize ≤ block then none
      else some { e with windowStart := nextStart, lastProgressUs := nowUs }
  else some e

/-- The payload is appended, and found again by its offset; an error carries what is left. -/
def store (e : ReassemblyEntry) (nowUs : UInt32) (block : Nat) (payload : List UInt8) :
    Except ReassemblyEntry (ReassemblyEntry × Bool) :=
  if e.has block then .ok (e, false)
  else if APS_MAX_FRAGMENTED_ASDU < e.data.length + payload.length then .error e.reset
  else
    .ok ({ e with
      data := e.data ++ payload
      blockOffset := Function.update e.blockOffset block e.data.length
      blockLen := Function.update e.blockLen block payload.length
      received := BitSet.insert e.received block
      lastProgressUs := nowUs }, true)

/-- What a session in use makes of a block. -/
def offer (e : ReassemblyEntry) (nowUs : UInt32) (windowSize : Nat) (srcIeee : Option IeeeAddress)
    (fragmentation : UInt8) (block : Nat) (total : Option Nat) (payload : List UInt8) : ReassemblyEntry × FragmentOutcome :=
  if e.delivered then (e, .pending none false)
  else
    let e := if e.srcIeee.isNone then { e with srcIeee := srcIeee } else e
    match e.announce total with
    | .error e => (e, .rejected)
    | .ok e =>
      if e.totalBlocks ≠ 0 ∧ e.totalBlocks ≤ block then (e, .rejected)
      else if block < e.windowStart then (e, .pending none false)
      else
        match e.slide nowUs windowSize block with
        | none => (e, .pending none false)
        | some e =>
          match e.store nowUs block payload with
          | .error e => (e, .rejected)
          | .ok (e, stored) =>
            if e.isComplete then (e, .complete (e.ack fragmentation windowSize))
            else
              -- An acknowledgement is due when every later block of the window is there.
              (e, .pending (if e.hasAll (block + 1) (e.windowEnd windowSize) then some (e.ack fragmentation windowSize)
                else none) stored)

/-- The blocks in the order of their numbers. -/
def asdu (e : ReassemblyEntry) : List UInt8 :=
  (List.range e.totalBlocks).flatMap fun block => (e.data.drop (e.blockOffset block)).take (e.blockLen block)

end ReassemblyEntry

/-! ## The table of sessions -/

abbrev FragmentReassembly := List ReassemblyEntry

namespace FragmentReassembly

def new : FragmentReassembly := List.replicate MAX_ENTRIES .empty

/-- The block number of a fragment and, for a first block, the block count; `none` is outside the
    bounds of the protocol. -/
def blockOf (fragmentation : UInt8) (blockField : Nat) (payload : List UInt8) : Option (Nat × Option Nat) :=
  if fragmentation = FRAG_FIRST then
    if blockField = 0 ∨ APS_MAX_FRAGMENT_BLOCKS < blockField then none
    else if 255 < payload.length then none
    else some (0, some blockField)
  else if fragmentation = FRAG_SUBSEQUENT then
    if blockField = 0 ∨ APS_MAX_FRAGMENT_BLOCKS ≤ blockField then none
    else if 255 < payload.length then none
    else some (blockField, none)
  else none

def insertBlockInner (t : FragmentReassembly) (nowUs : UInt32) (windowSize : Nat) (srcAddr : ShortAddress)
    (srcIeee : Option IeeeAddress) (apsCounter : UInt8) (fragmentation : UInt8) (blockField : Nat)
    (payload : List UInt8) : FragmentReassembly × FragmentOutcome :=
  match blockOf fragmentation blockField payload with
  | none => (t, .rejected)
  | some (block, total) =>
    let session : Option (Nat × ReassemblyEntry) :=
      match t.findIdx? (·.matchesSession srcAddr srcIeee apsCounter) with
      | some idx => (t[idx]?).map fun e => (idx, e)
      | none =>
        match t.findIdx? fun e : ReassemblyEntry => !e.active with
        | some idx => (t[idx]?).map fun e : ReassemblyEntry => (idx, e.opened nowUs srcAddr srcIeee apsCounter)
        | none => none
    match session with
    | none => (t, .rejected)
    | some (idx, e) =>
      let (e, outcome) := e.offer nowUs (clampWindowSize windowSize) srcIeee fragmentation block total payload
      (t.set idx e, outcome)

def insertBlock (t : FragmentReassembly) (nowUs : UInt32) (windowSize : Nat) (srcAddr : ShortAddress)
    (srcIeee : Option IeeeAddress) (apsCounter : UInt8) (fragmentation : UInt8) (blockField : Nat)
    (payload : List UInt8) : FragmentReassembly × FragmentOutcome :=
  match t.insertBlockInner nowUs windowSize srcAddr srcIeee apsCounter fragmentation blockField payload with
  | (t, .rejected) => (t.map fun e => if e.active && e.received == 0 then e.reset else e, .rejected)
  | (t, outcome) => (t, outcome)

/-- The completed session, which is marked, and its ASDU. -/
def takeReassembled (t : FragmentReassembly) (srcAddr : ShortAddress) (srcIeee : Option IeeeAddress) (apsCounter : UInt8)
    (capacity : Nat) : Option (FragmentReassembly × ReassemblyEntry × List UInt8) :=
  match t.findIdx? (fun e => e.matchesSession srcAddr srcIeee apsCounter && !e.delivered) with
  | none => none
  | some idx =>
    match t[idx]? with
    | none => none
    | some e =>
      if !e.isComplete || decide (capacity < e.data.length) then none
      else some (t.set idx { e with delivered := true }, e, e.asdu)

def finalizeDelivered (t : FragmentReassembly) : FragmentReassembly :=
  t.map fun e => if e.active && e.delivered then e.reset else e

end FragmentReassembly

/-! ## The receiver -/

/-- What the APS layer keeps of the fragments of one originator and counter. -/
structure FragmentRx where
  reassembly : FragmentReassembly
  /-- `fragment_window` of the live entry of the duplicate table. -/
  duplicate : Option Nat
  /-- The sessions that were handed to the upper layer, with the ASDU of each. -/
  handedUp : List (ReassemblyEntry × List UInt8)

def FragmentRx.new : FragmentRx := ⟨.new, none, []⟩

/-- `receive_fragment`: the acknowledgement is queued, and a completed ASDU is handed up. -/
def FragmentRx.receiveFragment (rx : FragmentRx) (nowUs : UInt32) (windowSize : Nat) (src : ShortAddress)
    (srcIeee : Option IeeeAddress) (counter : UInt8) (fragmentation : UInt8) (blockField : Nat) (payload : List UInt8) :
    FragmentRx × Option FragmentAck :=
  match rx.duplicate with
  | some windowStart => (rx, some ⟨fragmentation, windowStart, 0xFF⟩)
  | none =>
    match rx.reassembly.insertBlock nowUs windowSize src srcIeee counter fragmentation blockField payload with
    | (t, .pending ack _) => ({ rx with reassembly := t }, ack)
    | (t, .rejected) => ({ rx with reassembly := t }, none)
    | (t, .complete ack) =>
      match t.takeReassembled src srcIeee counter APS_MAX_FRAGMENTED_ASDU with
      | none => ({ rx with reassembly := t }, none)
      | some (t, e, asdu) => (⟨t, some ack.windowStart, rx.handedUp ++ [(e, asdu)]⟩, some ack)

/-- The frame before is settled once the next one comes in. -/
def FragmentRx.settle (rx : FragmentRx) : FragmentRx := { rx with reassembly := rx.reassembly.finalizeDelivered }

end Zigbee.Aps
