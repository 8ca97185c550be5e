import Zigbee.Lib.Run
import Zigbee.Lib.Serial
import Zigbee.Lib.Slots
import Zigbee.Lib.Table
import Zigbee.Types

/-!
# Indirect frames

Model of `zigbee-nwk/src/indirect.rs`: frames for sleepy children wait in the slots of one array until
their child polls.  The order of a child's frames is kept by a wrapping counter of 32 bits.

* `IndirectQueue` — the array and the counter; the number of slots is `MAX_INDIRECT`.
* `Fifo` — **what the queue is for**: the frames in the order of their enqueueing.
* `Agrees`, `Timely` — in what sense the two agree, and when.
-/

namespace Zigbee.Nwk.Indirect

open Bytes Slots Serial

def MAX_FRAME_SIZE : Nat := 128

inductive IndirectFrameKind where
  | data
  | networkKeyUpdate (sequence : UInt8)
  | childUpdate
  | rejoinResponse
  | leave
  deriving DecidableEq, Repr

/-- A slot.  `ttl` is a `u8` that starts at 8. -/
structure IndirectEntry where
  dstAddr : ShortAddress
  frame : Buf
  len : Nat
  kind : IndirectFrameKind
  ttl : Nat
  order : UInt32
  active : Bool
  deriving DecidableEq

def IndirectEntry.empty : IndirectEntry := ⟨0xFFFF, List.replicate MAX_FRAME_SIZE 0, 0, .data, 0, 0, false⟩

/-- `self.entries[i].frame[..self.entries[i].len]` -/
def IndirectEntry.bytes (e : IndirectEntry) : Buf := e.frame.take e.len

structure IndirectQueue where
  entries : List IndirectEntry
  nextOrder : UInt32

/-- The result of `peek`. -/
structure PendingIndirectFrame where
  frame : Buf
  len : Nat
  kind : IndirectFrameKind
  deriving DecidableEq

def PendingIndirectFrame.asSlice (p : PendingIndirectFrame) : Buf := p.frame.take p.len

namespace IndirectQueue

def new (maxIndirect : Nat) : IndirectQueue := ⟨List.replicate maxIndirect .empty, 0⟩

def enqueueTaggedWithSlot (q : IndirectQueue) (dst : ShortAddress) (frame : Buf) (kind : IndirectFrameKind) :
    IndirectQueue × Option Nat :=
  if MAX_FRAME_SIZE < frame.length then (q, none)
  else
    match q.entries.findIdx? fun entry => !entry.active with
    | none => (q, none)
    | some index =>
      -- the bytes behind the frame are those of the slot's last one
      (⟨q.entries.modify index fun entry =>
          ⟨dst, frame ++ entry.frame.drop frame.length, frame.length, kind, 8, q.nextOrder, true⟩, q.nextOrder + 1⟩, some index)

/-- How long ago the frame of a slot was enqueued. -/
def waited (q : IndirectQueue) (e : IndirectEntry) : Nat := (q.nextOrder - e.order).toNat

def oldestIndex (q : IndirectQueue) (child : ShortAddress) : Option Nat :=
  (maxByKey (fun r => q.waited r.1) (q.entries.zipIdx.filter fun r => r.1.active && r.1.dstAddr == child)).map (·.2)

/-- `entry.active = false`, at an index. -/
def deactivate (q : IndirectQueue) (index : Nat) : IndirectQueue :=
  { q with entries := q.entries.modify index fun entry => { entry with active := false } }

def removeSlot (q : IndirectQueue) (index : Nat) : IndirectQueue := q.deactivate index

def hasPending (q : IndirectQueue) (child : ShortAddress) : Bool := q.entries.any fun e => e.active && e.dstAddr == child

def dequeue (q : IndirectQueue) (child : ShortAddress) : IndirectQueue × Option (Buf × Bool) :=
  match q.oldestIndex child with
  | none => (q, none)
  | some idx =>
    let q' := q.deactivate idx
    let hasMore := q'.entries.any fun e => e.active && e.dstAddr == child
    (q', (q'.entries[idx]?).map fun e => (e.bytes, hasMore))

def peek (q : IndirectQueue) (child : ShortAddress) : Option PendingIndirectFrame := do
  let index ← q.oldestIndex child
  let entry ← q.entries[index]?
  some ⟨entry.bytes ++ List.replicate (MAX_FRAME_SIZE - entry.bytes.length) 0, entry.len, entry.kind⟩

def completeOne (q : IndirectQueue) (child : ShortAddress) : IndirectQueue × Option Bool :=
  match q.oldestIndex child with
  | none => (q, none)
  | some index =>
    let q := q.deactivate index
    (q, some (q.hasPending child))

def hasPendingKind (q : IndirectQueue) (child : ShortAddress) (kind : IndirectFrameKind) : Bool :=
  q.entries.any fun e => e.active && e.dstAddr == child && e.kind == kind

/-- The frames that wait for one child. -/
def pendingFor (q : IndirectQueue) (child : ShortAddress) : List IndirectEntry :=
  q.entries.filter fun e => e.active && e.dstAddr == child

def pendingCount (q : IndirectQueue) (child : ShortAddress) : Nat :=
  (q.entries.filter fun e => e.active && e.dstAddr == child).length

/-- The loop of `remove_all` and `remove_kind`. -/
def deactivateWhere (q : IndirectQueue) (p : IndirectEntry → Bool) : IndirectQueue :=
  { q with entries := q.entries.map fun e => if e.active && p e then { e with active := false } else e }

def removeAll (q : IndirectQueue) (child : ShortAddress) : IndirectQueue := q.deactivateWhere fun e => e.dstAddr == child

def removeKind (q : IndirectQueue) (child : ShortAddress) (kind : IndirectFrameKind) : IndirectQueue × Bool :=
  (q.deactivateWhere fun e => e.dstAddr == child && e.kind == kind, q.hasPendingKind child kind)

def pendingChildren (q : IndirectQueue) : List ShortAddress := (q.entries.filter (·.active)).map (·.dstAddr)

/-- One slot in `age`. -/
def tick (e : IndirectEntry) : IndirectEntry :=
  if e.active then { e with ttl := e.ttl - 1, active := e.ttl - 1 != 0 } else e

/-- The children that `age` reports, in a vector of `MAX_INDIRECT` places. -/
def report (maxIndirect : Nat) (expired : List ShortAddress) (e : IndirectEntry) : List ShortAddress :=
  if e.active && e.ttl - 1 == 0 && !expired.contains e.dstAddr && expired.length < maxIndirect then expired ++ [e.dstAddr]
  else expired

def age (q : IndirectQueue) : IndirectQueue × List ShortAddress :=
  ({ q with entries := q.entries.map tick }, q.entries.foldl (report q.entries.length) [])

end IndirectQueue

/-! ## Calls -/

inductive Call where
  | enqueue (dst : ShortAddress) (frame : Buf) (kind : IndirectFrameKind)
  | peek (child : ShortAddress)
  | dequeue (child : ShortAddress)
  | completeOne (child : ShortAddress)
  | hasPending (child : ShortAddress)
  | hasPendingKind (child : ShortAddress) (kind : IndirectFrameKind)
  | pendingCount (child : ShortAddress)
  | pendingChildren
  | removeSlot (index : Nat)
  | removeKind (child : ShortAddress) (kind : IndirectFrameKind)
  | removeAll (child : ShortAddress)
  | age

inductive Answer where
  | slot (index : Option Nat)
  | frame (head : Option (Buf × IndirectFrameKind))
  | taken (head : Option (Buf × Bool))
  | more (pending : Option Bool)
  | flag (value : Bool)
  | count (n : Nat)
  | children (addresses : List ShortAddress)
  | expired (addresses : List ShortAddress)
  | done
  deriving DecidableEq

def IndirectQueue.call (q : IndirectQueue) : Call → IndirectQueue × Answer
  | .enqueue dst frame kind =>
    let (q, slot) := q.enqueueTaggedWithSlot dst frame kind
    (q, .slot slot)
  | .peek child => (q, .frame ((q.peek child).map fun p => (p.asSlice, p.kind)))
  | .dequeue child =>
    let (q, taken) := q.dequeue child
    (q, .taken taken)
  | .completeOne child =>
    let (q, more) := q.completeOne child
    (q, .more more)
  | .hasPending child => (q, .flag (q.hasPending child))
  | .hasPendingKind child kind => (q, .flag (q.hasPendingKind child kind))
  | .pendingCount child => (q, .count (q.pendingCount child))
  | .pendingChildren => (q, .children q.pendingChildren)
  | .removeSlot index => (q.removeSlot index, .done)
  | .removeKind child kind =>
    let (q, removed) := q.removeKind child kind
    (q, .flag removed)
  | .removeAll child => (q.removeAll child, .done)
  | .age =>
    let (q, expired) := q.age
    (q, .expired expired)

/-! ## Queues -/

/-- A waiting frame; `slot` is the handle that its enqueueing returned, `seq` the number of frames
    enqueued before it. -/
structure Frame where
  child : ShortAddress
  bytes : Buf
  kind : IndirectFrameKind
  ttl : Nat
  slot : Nat
  seq : Nat
  deriving DecidableEq

/-- The waiting frames, the oldest first, and the number of those enqueued so far. -/
structure Fifo where
  frames : List Frame
  enqueued : Nat

namespace Fifo

def empty : Fifo := ⟨[], 0⟩

/-- The queue of a child. -/
def of (q : Fifo) (child : ShortAddress) : List Frame := q.frames.filter fun f => f.child == child

/-- A handle that no waiting frame has. -/
def freeSlot (maxIndirect : Nat) (q : Fifo) : Option Nat := (List.range maxIndirect).find? fun i => q.frames.all fun f => f.slot != i

def enqueue (maxIndirect : Nat) (q : Fifo) (dst : ShortAddress) (bytes : Buf) (kind : IndirectFrameKind) : Fifo × Option Nat :=
  if MAX_FRAME_SIZE < bytes.length then (q, none)
  else
    match q.freeSlot maxIndirect with
    | none => (q, none)
    | some slot => (⟨q.frames ++ [⟨dst, bytes, kind, 8, slot, q.enqueued⟩], q.enqueued + 1⟩, some slot)

/-- The queue without its first frame for a child. -/
def pop (q : Fifo) (child : ShortAddress) : Fifo := { q with frames := q.frames.eraseP fun f => f.child == child }

/-- The queue without some of its frames. -/
def drop (q : Fifo) (p : Frame → Bool) : Fifo := { q with frames := q.frames.filter fun f => !p f }

/-- A second passes. -/
def age (q : Fifo) : Fifo := { q with frames := (q.frames.filter fun f => 1 < f.ttl).map fun f => { f with ttl := f.ttl - 1 } }

def call (maxIndirect : Nat) (q : Fifo) : Call → Fifo × Answer
  | .enqueue dst frame kind =>
    let (q, slot) := q.enqueue maxIndirect dst frame kind
    (q, .slot slot)
  | .peek child => (q, .frame ((q.of child).head?.map fun f => (f.bytes, f.kind)))
  | .dequeue child => (q.pop child, .taken ((q.of child).head?.map fun f => (f.bytes, !(q.of child).tail.isEmpty)))
  | .completeOne child => (q.pop child, .more ((q.of child).head?.map fun _ => !(q.of child).tail.isEmpty))
  | .hasPending child => (q, .flag (!(q.of child).isEmpty))
  | .hasPendingKind child kind => (q, .flag ((q.of child).any fun f => f.kind == kind))
  | .pendingCount child => (q, .count (q.of child).length)
  | .pendingChildren => (q, .children (q.frames.map (·.child)))
  | .removeSlot index => (q.drop fun f => f.slot == index, .done)
  | .removeKind child kind => (q.drop fun f => f.child == child && f.kind == kind, .flag ((q.of child).any fun f => f.kind == kind))
  | .removeAll child => (q.drop fun f => f.child == child, .done)
  | .age => (q.age, .expired ((q.frames.filter fun f => f.ttl ≤ 1).map (·.child)))

end Fifo

/-- The child that a call is about. -/
def Call.child : Call → Option ShortAddress
  | .enqueue child _ _ | .peek child | .dequeue child | .completeOne child | .hasPending child | .hasPendingKind child _
  | .pendingCount child | .removeKind child _ | .removeAll child => some child
  | .pendingChildren | .removeSlot _ | .age => none

/-- No frame that others of its child wait behind is as old as the counter is long when the child is served. -/
def Timely (q : Fifo) : Call → Prop
  | .peek child | .dequeue child | .completeOne child =>
    ∀ f g rest, q.of child = f :: g :: rest → q.enqueued - f.seq < 2 ^ 32
  | _ => True

/-- What the array and the queue return; a list of addresses is a set. -/
def Agrees : Answer → Answer → Prop
  | .children addresses, .children addresses' => addresses.Perm addresses'
  | .expired addresses, .expired addresses' => addresses.Nodup ∧ ∀ child, child ∈ addresses ↔ child ∈ addresses'
  | answer, answer' => answer = answer'

end Zigbee.Nwk.Indirect
